import Rpi2Baremetal.Framework.Transition
import Rpi2Baremetal.Properties.Modes
import Rpi2Baremetal.Properties.TaskOps

/-!
# ASIDs of kernels and of tasks

`take_kernel_asid` returns the ASID above the bottom of an area, whatever its status, and marks
it as active; `set_user_asid` gives tasks the ASIDs that are not active.  So a kernel collides
with a task that got the ASID first, and with no other.

`set_user_asid` leaves out the ASID above the bottom only in the areas that begin at the reserved
ASID: no task ever gets ASID 1, which the kernels of core 0 and of several cores take.  What matters
is the order of the calls for the cores 1 to 3 that have a kernel of their own: there the kernel
has to take its ASID before tasks take theirs.

The calls are `KernelM` computations that return, so their messages are left out
(`Model/Kernel.lean`); no task gives an ASID back.
-/

namespace Rpi2Baremetal

namespace Kernel

open Framework

/-- The calls that take an ASID, and `change_pm`. -/
inductive AsidCall where
  | takeKernelAsid (cpuid pm : Word)
  | setUserAsid (task cpuid pm : Word)
  | changePm (pm : Word)

@[simp] def AsidCall.run : AsidCall → KernelM Word
  | .takeKernelAsid cpuid pm => Kernel.takeKernelAsid cpuid pm
  | .setUserAsid task cpuid pm => Kernel.setUserAsid task cpuid pm
  | .changePm pm => Kernel.changePm pm

/-- A kernel, the ASIDs `take_kernel_asid` has returned and the tasks `set_user_asid` has
succeeded for. -/
structure AsidOwners where
  kernel : Kernel
  taken : List Word
  allocated : List Word

/-- The owners after a call that has returned `r`. -/
def AsidOwners.next (s : AsidOwners) (call : AsidCall) (r : Word) (k' : Kernel) : AsidOwners where
  kernel := k'
  taken := match call with
    | .takeKernelAsid _ _ => r :: s.taken
    | _ => s.taken
  allocated := match call with
    | .setUserAsid task _ _ => if r = ERROR_ASID_NUM then s.allocated else task :: s.allocated
    | _ => s.allocated

/-- The arguments are a core and a valid mode. -/
def AsidCall.Legal : AsidCall → Prop
  | .takeKernelAsid cpuid pm => cpuid < 4 ∧ isValidPm pm = true
  | .setUserAsid _ cpuid pm => cpuid < 4 ∧ isValidPm pm = true
  | .changePm pm => isValidPm pm = true

/-- A call on a core that returns. -/
inductive AsidOwnersStep : AsidOwners → Word × AsidCall → AsidOwners → Prop
  | call {s : AsidOwners} {cpuid : Word} {call : AsidCall} {r : Word} {k' : Kernel} :
      cpuid < 4 → call.Legal → call.run (s.kernel.onCore cpuid) = .ok r k' →
      AsidOwnersStep s (cpuid, call) (s.next call r k')

structure AsidOwners.Initial (s : AsidOwners) : Prop where
  sysinfos : ∃ baseTtba, s.kernel.sysStructTop = initSysinfos baseTtba
  unused : ∀ asid, s.kernel.common.asidHead asid = UNUSED_ASID
  asid : ∀ task, (s.kernel.tcb task).asid = 0
  taken : s.taken = []
  allocated : s.allocated = []

/-- No task holds the ASID of a kernel, nor, once it was given one, the reserved ASID. -/
structure AsidsSeparate (s : AsidOwners) : Prop where
  kernel : ∀ asid ∈ s.taken, ∀ task, (s.kernel.tcb task).asid ≠ asid
  reserved : ∀ task ∈ s.allocated, (s.kernel.tcb task).asid ≠ RESERVED_ASID_NUM

/-- `take_kernel_asid` for core 1, 2 or 3 with a kernel of its own is called before
`set_user_asid` has given the ASID above the bottom of the core's area to a task. -/
def KernelAsidFree (s : AsidOwners) : Word × AsidCall → Prop
  | (_, .takeKernelAsid cpuid pm) => cpuid ≠ 0 → isAmp cpuid pm = true →
      ∀ i, getSysStructInfo cpuid pm = some i → ∀ task ∈ s.allocated,
        (s.kernel.tcb task).asid ≠ (s.kernel.sysStructTop i).asidArea.bottom + 1
  | _ => True

/-- The ASIDs of kernels are active, no task has ASID 1, and the tasks without an ASID are those
that `set_user_asid` has not succeeded for. -/
structure AsidOwners.Inv (s : AsidOwners) : Prop extends AsidsSeparate s where
  active : ∀ asid ∈ s.taken, s.kernel.common.asidHead asid = ACTIVE_ASID
  sysinfos : ∃ baseTtba, s.kernel.sysStructTop = initSysinfos baseTtba
  ne_one : ∀ task, (s.kernel.tcb task).asid ≠ 1
  none : ∀ task, task ∉ s.allocated → (s.kernel.tcb task).asid = 0

/-! ## One call -/

section Step

variable {k k' : Kernel} {s s' : AsidOwners} {i : Fin NUM_SYS_STRUCT} {cpuid pm : Word}

/-- `take_kernel_asid` takes the ASID above the bottom of the area: that is never the reserved
one. -/
lemma takeKernelAsid_ok {baseTtba : Word} (hsys : k.sysStructTop = initSysinfos baseTtba)
    (hi : getSysStructInfo cpuid pm = some i) :
    let asid := (k.sysStructTop i).asidArea.bottom + 1
    takeKernelAsid cpuid pm k = .ok asid { k with
      common := { k.common with
        asidHead := Function.update k.common.asidHead asid ACTIVE_ASID } } := by
  have hbottom : ∀ i, (asidAreas i).bottom + 1 ≠ RESERVED_ASID_NUM := by decide
  have hne : (k.sysStructTop i).asidArea.bottom + 1 ≠ RESERVED_ASID_NUM := by
    rw [hsys]
    exact hbottom i
  intro asid
  rw [takeKernelAsid, bind_ok (ssiIndex_ok hi),
    bind_ok (show readSsi i k = .ok (k.sysStructTop i) k from rfl), if_neg hne]
  rfl

/-- The invariant depends on the owners, the statuses and the entries. -/
lemma AsidOwners.Inv.congr (h : s.Inv) (htcb : k'.tcb = s.kernel.tcb)
    (hhead : k'.common.asidHead = s.kernel.common.asidHead)
    (hsys : k'.sysStructTop = s.kernel.sysStructTop) :
    AsidOwners.Inv { s with kernel := k' } := by
  refine ⟨⟨?_, ?_⟩, ?_, ?_, ?_, ?_⟩
  · simpa only [htcb] using h.kernel
  · simpa only [htcb] using h.reserved
  · simpa only [hhead] using h.active
  · simpa only [hsys] using h.sysinfos
  · simpa only [htcb] using h.ne_one
  · simpa only [htcb] using h.none

/-- A kernel takes an ASID no task holds. -/
lemma AsidOwners.Inv.takeKernelAsid (h : s.Inv) {asid : Word}
    (hfree : ∀ task, (s.kernel.tcb task).asid ≠ asid) (htcb : k'.tcb = s.kernel.tcb)
    (hhead : k'.common.asidHead = Function.update s.kernel.common.asidHead asid ACTIVE_ASID)
    (hsys : k'.sysStructTop = s.kernel.sysStructTop) :
    AsidOwners.Inv ⟨k', asid :: s.taken, s.allocated⟩ := by
  refine ⟨⟨?_, ?_⟩, ?_, ?_, ?_, ?_⟩
  · simp only [htcb]
    exact List.forall_mem_cons.mpr ⟨hfree, h.kernel⟩
  · simpa only [htcb] using h.reserved
  · simp only [hhead]
    refine List.forall_mem_cons.mpr ⟨Function.update_self .., fun a ha => ?_⟩
    by_cases heq : a = asid
    · rw [heq, Function.update_self]
    · rw [Function.update_of_ne heq]
      exact h.active a ha
  · simpa only [hsys] using h.sysinfos
  · simpa only [htcb] using h.ne_one
  · simpa only [htcb] using h.none

/-- The ASIDs that tasks are given lie above 1 and below 256. -/
lemma asidAreas_bounds {baseTtba asid : Word} (i : Fin NUM_SYS_STRUCT)
    (hlow : firstUserAsid (initSysinfos baseTtba i) ≤ asid)
    (hhigh : asid < (initSysinfos baseTtba i).asidArea.limit) : 2 ≤ asid ∧ asid < 256 := by
  have hall : ∀ i, 2 ≤ (if (asidAreas i).bottom = RESERVED_ASID_NUM then (asidAreas i).bottom + 2
      else (asidAreas i).bottom + 1) ∧ (asidAreas i).limit ≤ 256 := by decide
  exact ⟨BitVec.le_trans (hall i).1 hlow, BitVec.lt_def.mpr (Nat.lt_of_lt_of_le hhigh (hall i).2)⟩

/-- A task gets an ASID that is not active, hence no kernel's. -/
lemma AsidOwners.Inv.setUserAsid (h : s.Inv) (task : Word) {asid : Word} (hlow : 2 ≤ asid)
    (hactive : s.kernel.common.asidHead asid ≠ ACTIVE_ASID) :
    AsidOwners.Inv ⟨takeAsid task asid s.kernel, s.taken, task :: s.allocated⟩ := by
  have hlarge : asid ≠ 0 ∧ asid ≠ 1 := by
    constructor <;> rintro rfl <;> exact absurd hlow (by decide)
  have htask : ((takeAsid task asid s.kernel).tcb task).asid = asid := by
    simp [takeAsid]
  have hother : ∀ t, t ≠ task → (takeAsid task asid s.kernel).tcb t = s.kernel.tcb t := by
    intro t ht
    simp [takeAsid, ht]
  refine ⟨⟨fun a ha t => ?_, fun t ht => ?_⟩, fun a ha => ?_, h.sysinfos, fun t => ?_,
    fun t ht => ?_⟩
  · by_cases htt : t = task
    · rw [htt, htask]
      rintro rfl
      exact hactive (h.active _ ha)
    · rw [hother t htt]
      exact h.kernel a ha t
  · by_cases htt : t = task
    · rw [htt, htask]
      exact hlarge.1
    · rw [hother t htt]
      exact h.reserved t ((List.mem_cons.mp ht).resolve_left htt)
  · have hne : a ≠ asid := by
      rintro rfl
      exact hactive (h.active _ ha)
    show (takeAsid task asid s.kernel).common.asidHead a = ACTIVE_ASID
    simp only [takeAsid]
    split
    · rw [Function.update_of_ne hne]
      exact h.active a ha
    · exact h.active a ha
  · by_cases htt : t = task
    · rw [htt, htask]
      exact hlarge.2
    · rw [hother t htt]
      exact h.ne_one t
  · obtain ⟨htt, hnot⟩ := not_or.mp (mt List.mem_cons.mpr ht)
    rw [hother t htt]
    exact h.none t hnot

/-- The ASID that a kernel takes is free of tasks: it is 1, or a core with a kernel of its own takes
it in time. -/
lemma AsidOwners.Inv.kernelAsid_free (h : s.Inv) {core : Word} (hc : cpuid < 4)
    (hpm : isValidPm pm = true) (hi : getSysStructInfo cpuid pm = some i)
    (hguard : KernelAsidFree s (core, .takeKernelAsid cpuid pm)) (task : Word) :
    (s.kernel.tcb task).asid ≠ (s.kernel.sysStructTop i).asidArea.bottom + 1 := by
  obtain ⟨baseTtba, hsys⟩ := h.sysinfos
  have hareas : ∀ i : Fin NUM_SYS_STRUCT, i.val = 0 ∨ 4 ≤ i.val →
      (initSysinfos baseTtba i).asidArea.bottom + 1 = 1 := by
    have hall : ∀ i : Fin NUM_SYS_STRUCT, i.val = 0 ∨ 4 ≤ i.val →
        (asidAreas i).bottom + 1 = 1 := by decide
    exact hall
  obtain ⟨i', hi', hamp, hsmp⟩ := getSysStructInfo_valid hc hpm
  obtain rfl := Option.some.inj (hi.symm.trans hi')
  by_cases hown : cpuid ≠ 0 ∧ isAmp cpuid pm = true
  · by_cases hmem : task ∈ s.allocated
    · exact hguard hown.1 hown.2 i hi task hmem
    · have hbottom : ∀ i, (0 : Word) ≠ (asidAreas i).bottom + 1 := by decide
      rw [h.none task hmem, hsys]
      exact hbottom i
  · have hlow : i.val = 0 ∨ 4 ≤ i.val := by
      cases hkernel : isAmp cpuid pm with
      | true =>
          have hzero : cpuid = 0 := by
            by_contra hne
            exact hown ⟨hne, hkernel⟩
          rw [hamp hkernel, hzero]
          exact .inl rfl
      | false => exact .inr (hsmp hkernel)
    rw [hsys, hareas i hlow]
    exact h.ne_one task

/-- Every call preserves the invariant, if a kernel takes an ASID no task holds. -/
lemma AsidOwners.Inv.step {c : Word × AsidCall} (h : s.Inv) (hguard : KernelAsidFree s c)
    (hs : AsidOwnersStep s c s') : s'.Inv := by
  cases hs with
  | @call cpuid call r k' hc hlegal hk =>
      have hcore : AsidOwners.Inv { s with kernel := s.kernel.onCore cpuid } :=
        h.congr rfl rfl rfl
      cases call with
      | takeKernelAsid c pm =>
          obtain ⟨baseTtba, hsys⟩ := hcore.sysinfos
          obtain ⟨i, hi, -⟩ := getSysStructInfo_valid hlegal.1 hlegal.2
          rw [AsidCall.run, takeKernelAsid_ok hsys hi] at hk
          cases hk
          exact h.takeKernelAsid (h.kernelAsid_free hlegal.1 hlegal.2 hi hguard) rfl rfl rfl
      | setUserAsid task c pm =>
          rw [AsidCall.run] at hk
          obtain ⟨e, hk'⟩ | ⟨r', hr, hk'⟩ | ⟨asid, h0, -, hactive, hk'⟩ :=
            setUserAsid_cases task c pm (s.kernel.onCore cpuid)
          · cases hk.symm.trans hk'
          · cases hk.symm.trans hk'
            rw [AsidOwners.next]
            split
            · exact hcore
            · next hne =>
                obtain ⟨h0, -⟩ := hr.resolve_left hne
                refine ⟨⟨hcore.kernel, ?_⟩, hcore.active, hcore.sysinfos, hcore.ne_one, ?_⟩
                · exact List.forall_mem_cons.mpr ⟨h0, hcore.reserved⟩
                · exact fun t ht => hcore.none t fun hmem => ht (List.mem_cons_of_mem _ hmem)
          · cases hk.symm.trans hk'
            obtain ⟨baseTtba, hsys⟩ := hcore.sysinfos
            obtain ⟨i, hi, -⟩ := getSysStructInfo_valid hlegal.1 hlegal.2
            obtain ⟨hlow, hhigh⟩ := setUserAsid_mem hi h0 hk'
            rw [hsys] at hlow hhigh
            obtain ⟨htwo, hlt⟩ := asidAreas_bounds i hlow hhigh
            have herror : r ≠ ERROR_ASID_NUM := by
              rintro rfl
              exact absurd hlt (by decide)
            rw [AsidOwners.next]
            simp only [if_neg herror]
            exact hcore.setUserAsid task htwo hactive
      | changePm pm =>
          rw [AsidCall.run] at hk
          obtain rfl := changePm_cases hk
          exact h.congr rfl rfl rfl

/-- The condition on a step is necessary: a kernel that takes an ASID a task holds collides
with it. -/
theorem takeKernelAsid_free {c : Word × AsidCall} (h : s.Inv) (hs : AsidOwnersStep s c s')
    (hsep : AsidsSeparate s') : KernelAsidFree s c := by
  cases hs with
  | @call cpuid call r k' hc hlegal hk =>
      cases call with
      | takeKernelAsid c pm =>
          obtain ⟨baseTtba, hsys⟩ := h.sysinfos
          intro _ _ i hi task _
          rw [AsidCall.run, takeKernelAsid_ok (k := s.kernel.onCore cpuid) hsys hi] at hk
          cases hk
          exact hsep.kernel _ List.mem_cons_self task
      | _ => trivial

lemma AsidOwners.Initial.inv (h : s.Initial) : s.Inv := by
  refine ⟨⟨?_, ?_⟩, ?_, h.sysinfos, fun task => ?_, fun task _ => h.asid task⟩
  · rw [h.taken]
    nofun
  · rw [h.allocated]
    nofun
  · rw [h.taken]
    nofun
  · rw [h.asid]
    decide

end Step

/-- **ASIDs of kernels.**  In every run of `take_kernel_asid`, `set_user_asid` and `change_pm`
calls on any cores in which the kernel of each of the cores 1 to 3 takes its ASID before a task is
given it, no task holds the ASID of a kernel or the reserved ASID.  Messages are taken to return
(`Model/Kernel.lean`). -/
theorem kernel_asids_separate {s s' : AsidOwners} {cs : List (Word × AsidCall)}
    (h0 : s.Initial) (hr : Run (guarded KernelAsidFree AsidOwnersStep) s cs s') :
    AsidsSeparate s' :=
  (hr.guarded_invariant (fun _ _ _ h hguard hs => h.step hguard hs) h0.inv).toAsidsSeparate

lemma atBoot_asidOwners : AsidOwners.Initial ⟨atBoot, [], []⟩ :=
  ⟨⟨TTBA_BASE, rfl⟩, fun _ => rfl, fun _ => rfl, rfl, rfl⟩

/-- The AMP kernel of core 1 takes its ASID, then task 8 gets the next one. -/
theorem kernel_asids_separate_amp : ∃ s, AsidsSeparate s ∧ s.taken = [65] ∧
    (s.kernel.tcb 8).asid = 66 ∧
    Run (guarded KernelAsidFree AsidOwnersStep) ⟨atBoot, [], []⟩
      [(1, .takeKernelAsid 1 0xF), (1, .setUserAsid 8 1 0xF)] s := by
  have hfree : KernelAsidFree ⟨atBoot, [], []⟩ (1, .takeKernelAsid 1 0xF) := by
    intro _ _ i _ task hmem
    exact absurd hmem List.not_mem_nil
  have hrun : Run (guarded KernelAsidFree AsidOwnersStep) ⟨atBoot, [], []⟩
      [(1, .takeKernelAsid 1 0xF), (1, .setUserAsid 8 1 0xF)] _ :=
    ((Run.nil _).snoc ⟨hfree, .call (by decide) ⟨by decide, rfl⟩ rfl⟩).snoc
      ⟨trivial, .call (by decide) ⟨by decide, rfl⟩ rfl⟩
  exact ⟨_, kernel_asids_separate atBoot_asidOwners hrun, rfl, rfl, hrun⟩

/-- Task 8 gets ASID 65 on core 1, and then the kernel takes it. -/
theorem kernel_takes_task_asid : ¬ ∀ (s s' : AsidOwners) (cs : List (Word × AsidCall)),
    s.Initial → Run AsidOwnersStep s cs s' → AsidsSeparate s' := by
  intro hclaim
  have hrun : Run AsidOwnersStep ⟨atBoot, [], []⟩
      [(1, .setUserAsid 8 1 0xF), (1, .takeKernelAsid 1 0xF)] _ :=
    ((Run.nil _).snoc (.call (by decide) ⟨by decide, rfl⟩ rfl)).snoc
      (.call (by decide) ⟨by decide, rfl⟩ rfl)
  exact (hclaim _ _ _ atBoot_asidOwners hrun).kernel 65 List.mem_cons_self 8 rfl

end Kernel

end Rpi2Baremetal
