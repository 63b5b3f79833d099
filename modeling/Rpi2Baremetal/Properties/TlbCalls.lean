import Rpi2Baremetal.Properties.TlbTags

/-!
# Calls without interleaving

A core that makes the accesses of a call without another core in between does what the function
does to the kernel.
-/

namespace Rpi2Baremetal

namespace Tlb

open Kernel Framework

/-! ## The accesses of one core -/

/-- The kernel and a core, with its next access. -/
structure CoreState where
  kernel : Kernel
  pc : TlbPc
  core : CoreTlb

/-- An access, with no other core in view. -/
def AccessStep (s : CoreState) (_ : Unit) (s' : CoreState) : Prop :=
  ∃ op, s.pc.run s.kernel = .ok (s'.pc, op) s'.kernel ∧
    s'.core = op.elim id MmuOp.run s.core

/-- The accesses take a core from one state to another. -/
def Accesses (s s' : CoreState) : Prop := ∃ us, Run AccessStep s us s'

section Accesses

variable {s s' s'' : CoreState} {k k' : Kernel} {pc pc' : TlbPc} {c : CoreTlb}

lemma Accesses.refl (s : CoreState) : Accesses s s := ⟨[], .nil s⟩

lemma Accesses.trans (h : Accesses s s') (h' : Accesses s' s'') : Accesses s s'' := by
  obtain ⟨us, hr⟩ := h
  obtain ⟨us', hr'⟩ := h'
  exact ⟨us ++ us', hr.append hr'⟩

/-- An access before others. -/
lemma Accesses.head {op : Option MmuOp} (h : pc.run k = .ok (pc', op) k')
    (hr : Accesses ⟨k', pc', op.elim id MmuOp.run c⟩ s') : Accesses ⟨k, pc, c⟩ s' :=
  .trans ⟨[()], .single ⟨op, h, rfl⟩⟩ hr

/-- What a core has in view. -/
def TlbState.view (t : TlbState) (cpuid : Fin NUM_CPU) : CoreState :=
  ⟨t.kernel.onCore (.ofNat 32 cpuid), t.pc cpuid, t.core cpuid⟩

/-- The other cores have made no access. -/
structure OthersWait (cpuid : Fin NUM_CPU) (t t' : TlbState) : Prop where
  tasks : t'.tasks = t.tasks
  pc : ∀ other, other ≠ cpuid → t'.pc other = t.pc other
  core : ∀ other, other ≠ cpuid → t'.core other = t.core other

lemma OthersWait.trans {cpuid : Fin NUM_CPU} {t t' t'' : TlbState} (h : OthersWait cpuid t t')
    (h' : OthersWait cpuid t' t'') : OthersWait cpuid t t'' where
  tasks := h'.tasks.trans h.tasks
  pc other hother := (h'.pc other hother).trans (h.pc other hother)
  core other hother := (h'.core other hother).trans (h.core other hother)

/-- An access of a core in the whole state. -/
lemma exec_view {t : TlbState} {cpuid : Fin NUM_CPU} {x : KernelM (TlbPc × Option MmuOp)}
    (hx : ∀ k₀, Triple (SameTables k₀) x (After k₀ (t.pc cpuid)) (SameTables k₀))
    {op : Option MmuOp} (h : x (t.view cpuid).kernel = .ok (pc', op) k') :
    ∃ t', t.exec cpuid x = some t' ∧ OthersWait cpuid t t' ∧
      t'.view cpuid = ⟨k', pc', op.elim id MmuOp.run (t.core cpuid)⟩ := by
  have hprid : k'.prid = .ofNat 32 cpuid := by
    have hafter := hx (t.view cpuid).kernel _ ⟨rfl, fun _ => rfl⟩
    rw [h] at hafter
    exact hafter.1.prid
  have hcore : k'.onCore (.ofNat 32 cpuid) = k' := by
    rw [← hprid]
    rfl
  refine ⟨{ t with
    kernel := k'
    ended := (t.pc cpuid).ends.toList ++ t.ended
    pc := Function.update t.pc cpuid pc'
    core := Function.update t.core cpuid (op.elim id MmuOp.run (t.core cpuid)) }, ?_, ?_, ?_⟩
  · unfold TlbState.exec
    rw [show t.kernel.onCore (.ofNat 32 cpuid) = (t.view cpuid).kernel from rfl, h]
  · refine ⟨rfl, fun other hother => ?_, fun other hother => ?_⟩
    · exact Function.update_of_ne hother _ _
    · exact Function.update_of_ne hother _ _
  · simp only [TlbState.view, Function.update_self, hcore]

/-- A core makes accesses while the others wait. -/
lemma Accesses.run {t : TlbState} {cpuid : Fin NUM_CPU} (h : Accesses (t.view cpuid) s') :
    ∃ as t', Run (fun t a t' => tlbStep t a = some t') t as t' ∧ OthersWait cpuid t t' ∧
      t'.view cpuid = s' := by
  obtain ⟨us, hr⟩ := h
  generalize hs : t.view cpuid = s at hr
  induction hr with
  | nil => exact ⟨[], t, .nil t, ⟨rfl, fun _ _ => rfl, fun _ _ => rfl⟩, hs⟩
  | @snoc _ s₂ _ _ _ ha ih =>
      obtain ⟨as, t₁, hrun, hwait, rfl⟩ := ih
      obtain ⟨op, hop, hcore⟩ := ha
      obtain ⟨t₂, hexec, hwait', hview⟩ := exec_view (fun k₀ => triple_run k₀ _) hop
      have hstep : tlbStep t₁ (.next cpuid) = some t₂ := hexec
      refine ⟨as ++ [.next cpuid], t₂, hrun.snoc hstep, hwait.trans hwait', hview.trans ?_⟩
      exact congrArg (CoreState.mk s₂.kernel s₂.pc) hcore.symm

end Accesses

/-! ## `sync_user_ttba_change` -/

section Sync

variable {k k' : Kernel} {i : Fin NUM_SYS_STRUCT} {task asid : Word} {asids : List Word}

/-- The registers after the switch to an ASID and a table. -/
def CoreTlb.switchTo (asid ttbr : Word) (c : CoreTlb) : CoreTlb :=
  (((c.setAsid RESERVED_ASID_NUM).setTtbr0 ttbr).setTtbr1 ttbr).setAsid asid

/-- Two states of a core with the same registers. -/
structure CoreTlb.SameRegs (c c' : CoreTlb) : Prop where
  contextidr : c'.contextidr = c.contextidr
  ttbr0 : c'.ttbr0 = c.ttbr0
  ttbr1 : c'.ttbr1 = c.ttbr1

lemma CoreTlb.SameRegs.refl (c : CoreTlb) : c.SameRegs c := ⟨rfl, rfl, rfl⟩

lemma CoreTlb.sameRegs_invalidateTlbs (asid : Word) (c : CoreTlb) :
    c.SameRegs (c.invalidateTlbs asid) := ⟨rfl, rfl, rfl⟩

lemma CoreTlb.pair_switchTo (asid ttbr : Word) (c : CoreTlb) :
    (c.switchTo asid ttbr).pair = (asid &&& 0xFF, ttbr) :=
  Prod.ext (CoreTlb.asid_setAsid asid _) rfl

lemma accesses_switch (k : Kernel) (task asid : Word) (c : CoreTlb) :
    Accesses ⟨k, .reserve task asid, c⟩
      ⟨k, .idle, c.switchTo asid (0x4a ||| (k.tcb task).ttba)⟩ :=
  .head rfl (.head rfl (.head rfl (.head rfl (.refl _))))

/-! ### The accesses of the loop -/

section Run

variable {v : AsidScan}

lemma run_acquire (h : k.held (.ssiLock v.ssi) = false) :
    (TlbPc.acquire v).run k = .ok (.testActive v, none)
      { k with held := Function.update k.held (.ssiLock v.ssi) true } :=
  bind_ok (spinReq_free h)

lemma run_skip (h : k.held (.ssiLock v.ssi) = true) :
    (TlbPc.skip v).run k = .ok (scan v.task v.ssi v.asids, none)
      { k with held := Function.update k.held (.ssiLock v.ssi) false } :=
  bind_ok (spinRel_held h)

lemma run_release (h : k.held (.ssiLock v.ssi) = true) :
    (TlbPc.release v).run k = .ok (.store v, none)
      { k with held := Function.update k.held (.ssiLock v.ssi) false } :=
  bind_ok (spinRel_held h)

lemma run_testActive (v : AsidScan) (k : Kernel) :
    (TlbPc.testActive v).run k = .ok (if v.asid = RESERVED_ASID_NUM ∨
      k.common.asidHead v.asid = ACTIVE_ASID then .skip v else .testUnused v, none) k := by
  refine (bind_ok rfl).trans ?_
  split_ifs <;> rfl

end Run

/-- The ASID is reserved or active: the lock is released and the next ASID is tried. -/
lemma accesses_skip (h : k.held (.ssiLock i) = false)
    (ha : asid = RESERVED_ASID_NUM ∨ k.common.asidHead asid = ACTIVE_ASID) (c : CoreTlb) :
    Accesses ⟨k, scan task i (asid :: asids), c⟩ ⟨k, scan task i asids, c⟩ := by
  refine .head (run_acquire h) (.head (run_testActive _ _) ?_)
  rw [if_pos ha]
  refine .head (run_skip (Function.update_self ..)) ?_
  simp only [Function.update_idem, update_held h]
  exact .refl _

/-- What `set_user_asid` does after it has marked the ASID. -/
lemma accesses_store {v : AsidScan} (h : k.held (.ssiLock v.ssi) = true) (c : CoreTlb) :
    Accesses ⟨k, .release v, c⟩
      ⟨{ k with
        held := Function.update k.held (.ssiLock v.ssi) false
        tcb := Function.update k.tcb v.task ((k.tcb v.task).setAsid v.asid) },
      .reserve v.task v.asid, c⟩ :=
  .head (run_release h) (.head rfl (.refl _))

/-- The ASID is not in use: the task gets it. -/
lemma accesses_take (h : k.held (.ssiLock i) = false) (hreserved : asid ≠ RESERVED_ASID_NUM)
    (hactive : k.common.asidHead asid ≠ ACTIVE_ASID) (c : CoreTlb) :
    ∃ c', c.SameRegs c' ∧ Accesses ⟨k, scan task i (asid :: asids), c⟩
      ⟨takeAsid task asid k, .reserve task asid, c'⟩ := by
  have hnot : ¬ (asid = RESERVED_ASID_NUM ∨ k.common.asidHead asid = ACTIVE_ASID) :=
    not_or.mpr ⟨hreserved, hactive⟩
  have huf : UNUSED_ASID ≠ FINISHED_ASID := by decide
  have hself : Function.update k.held (.ssiLock i) true (.ssiLock i) = true :=
    Function.update_self ..
  by_cases hunused : k.common.asidHead asid = UNUSED_ASID
  · refine ⟨c, .refl c, .head (run_acquire h) (.head (run_testActive _ _) ?_)⟩
    rw [if_neg hnot]
    refine .head rfl ?_
    rw [if_pos hunused]
    refine .head rfl ((accesses_store hself c).trans ?_)
    simp only [takeAsid, hunused, true_or, if_true, huf, if_false, Function.update_idem,
      update_held h]
    exact .refl _
  · by_cases hfinished : k.common.asidHead asid = FINISHED_ASID
    · refine ⟨c.invalidateTlbs asid, c.sameRegs_invalidateTlbs asid,
        .head (run_acquire h) (.head (run_testActive _ _) ?_)⟩
      rw [if_neg hnot]
      refine .head rfl ?_
      rw [if_neg hunused]
      refine .head rfl ?_
      rw [if_pos hfinished]
      refine .head rfl (.head rfl ((accesses_store hself _).trans ?_))
      simp only [takeAsid, hfinished, or_true, if_true, Function.update_idem, update_held h]
      exact .refl _
    · refine ⟨c, .refl c, .head (run_acquire h) (.head (run_testActive _ _) ?_)⟩
      rw [if_neg hnot]
      refine .head rfl ?_
      rw [if_neg hunused]
      refine .head rfl ?_
      rw [if_neg hfinished]
      refine (accesses_store hself c).trans ?_
      simp only [takeAsid, hunused, hfinished, or_false, if_false, Function.update_idem,
        update_held h]
      exact .refl _

lemma accesses_scan (h : userAsidLoop i task asids k = .ok asid k') (c : CoreTlb) :
    ∃ c', c.SameRegs c' ∧ Accesses ⟨k, scan task i asids, c⟩ ⟨k', .reserve task asid, c'⟩ := by
  induction asids with
  | nil =>
      cases h
      exact ⟨c, .refl c, .refl _⟩
  | cons first asids ih =>
      cases hheld : k.held (.ssiLock i) with
      | true =>
          rw [userAsidLoop_held hheld] at h
          cases h
      | false =>
          by_cases ha : first = RESERVED_ASID_NUM ∨ k.common.asidHead first = ACTIVE_ASID
          · rw [userAsidLoop_skip hheld ha] at h
            obtain ⟨c', hregs, hc'⟩ := ih h
            exact ⟨c', hregs, (accesses_skip hheld ha c).trans hc'⟩
          · obtain ⟨hreserved, hactive⟩ := not_or.mp ha
            rw [userAsidLoop_take hheld hreserved hactive] at h
            cases h
            exact accesses_take hheld hreserved hactive c

/-- The accesses of `sync_user_ttba_change`: those of `set_user_asid` and the switch. -/
lemma accesses_sync {cpuid pm : Word} (h : setUserAsid task cpuid pm k = .ok asid k')
    (c : CoreTlb) : ∃ (pc : TlbPc) (c' : CoreTlb), c.SameRegs c' ∧
      (TlbCall.syncUserTtbaChange task cpuid pm).start k = .ok (pc, none) k ∧
      Accesses ⟨k, pc, c⟩ ⟨k', .idle, c'.switchTo asid (0x4a ||| (k'.tcb task).ttba)⟩ := by
  have hread : readTcb task k = .ok (k.tcb task) k := rfl
  by_cases h0 : (k.tcb task).asid = 0
  · cases hi : getSysStructInfo cpuid pm with
    | none =>
        rw [setUserAsid, bind_ok hread, if_neg (not_not.mpr h0), bind_error (ssiIndex_none hi)] at h
        cases h
    | some i =>
        rw [setUserAsid_ok hi h0] at h
        obtain ⟨c', hregs, hc'⟩ := accesses_scan h c
        refine ⟨_, c', hregs, ?_, hc'.trans (accesses_switch k' task asid c')⟩
        refine (bind_ok hread).trans ?_
        rw [if_neg (not_not.mpr h0)]
        exact bind_ok (ssiIndex_ok hi)
  · rw [setUserAsid, bind_ok hread, if_pos h0] at h
    cases h
    refine ⟨_, c, .refl c, ?_, accesses_switch k task _ c⟩
    refine (bind_ok hread).trans ?_
    rw [if_pos h0]
    rfl

end Sync

/-! ## Calls -/

/-- The function as one step of the kernel. -/
def TlbCall.taskCall : TlbCall → TaskCall
  | .syncUserTtbaChange task cpuid pm => .setUserAsid task cpuid pm
  | .endTask task => .endTask task
  | .destroyTask task => .destroyTask task

lemma run_destroyRest {task : Word} {k k' : Kernel}
    (h : destroyTaskRest task (k.tcb task) k = .ok () k') :
    (TlbPc.destroyRest task).run k = .ok (.idle, none) k' := by
  have hread : readTcb task k = .ok (k.tcb task) k := rfl
  exact (bind_ok hread).trans (bind_ok h)

/-- The accesses of a call change the kernel as the call does. -/
lemma accesses_call {call : TlbCall} {k k' : Kernel} (h : call.taskCall.run k = .ok () k')
    (c : CoreTlb) : ∃ pc op k₁ c', call.start k = .ok (pc, op) k₁ ∧
      Accesses ⟨k₁, pc, op.elim id MmuOp.run c⟩ ⟨k', .idle, c'⟩ := by
  cases call with
  | syncUserTtbaChange task cpuid pm =>
      obtain ⟨asid, hk⟩ := of_discard_ok h
      obtain ⟨pc, c', -, hstart, hc'⟩ := accesses_sync hk c
      exact ⟨pc, none, k, _, hstart, hc'⟩
  | endTask task =>
      have hrest : endTaskRest task _ = .ok () k' := h
      exact ⟨_, _, _, _, rfl, .head rfl (.head (bind_ok hrest) (.refl _))⟩
  | destroyTask task =>
      exact ⟨_, _, _, _, rfl, .head rfl (.head rfl (.head (run_destroyRest h) (.refl _)))⟩

section Alone

variable {t : TlbState} {cpuid : Fin NUM_CPU} {k' : Kernel}

/-- A core starts a call and makes the rest of its accesses. -/
lemma run_call {call : TlbCall} {pc : TlbPc} {op : Option MmuOp} {k₁ : Kernel} {s' : CoreState}
    (hidle : t.pc cpuid = .idle) (htask : call.task ∈ t.tasks)
    (hstart : call.start (t.view cpuid).kernel = .ok (pc, op) k₁)
    (hrest : Accesses ⟨k₁, pc, op.elim id MmuOp.run (t.core cpuid)⟩ s') :
    ∃ as t', Run (fun t a t' => tlbStep t a = some t') t as t' ∧ OthersWait cpuid t t' ∧
      t'.view cpuid = s' := by
  obtain ⟨t₁, hexec, hwait, hview⟩ :=
    exec_view (fun k₀ => hidle.symm ▸ triple_start k₀ call) hstart
  rw [← hview] at hrest
  obtain ⟨as, t', hrun, hwait', hview'⟩ := hrest.run
  have hstep : tlbStep t (.call cpuid call) = some t₁ := (if_pos ⟨hidle, htask⟩).trans hexec
  exact ⟨.call cpuid call :: as, t', .cons hstep hrun, hwait.trans hwait', hview'⟩

/-- **Calls without interleaving.**  A core that makes the accesses of a call while the others
wait leaves the kernel as the call leaves it. -/
theorem call_alone {call : TlbCall} (hidle : t.pc cpuid = .idle) (htask : call.task ∈ t.tasks)
    (h : call.taskCall.run (t.kernel.onCore (.ofNat 32 cpuid)) = .ok () k') :
    ∃ as t', Run (fun t a t' => tlbStep t a = some t') t as t' ∧ OthersWait cpuid t t' ∧
      t'.pc cpuid = .idle ∧ t'.kernel.onCore (.ofNat 32 cpuid) = k' := by
  obtain ⟨pc, op, k₁, c', hstart, hrest⟩ := accesses_call h (t.core cpuid)
  obtain ⟨as, t', hrun, hwait, hview⟩ := run_call hidle htask hstart hrest
  exact ⟨as, t', hrun, hwait, congrArg CoreState.pc hview, congrArg CoreState.kernel hview⟩

/-- A core that runs `sync_user_ttba_change` while the others wait has the ASID that
`set_user_asid` returns and the table of the task installed. -/
theorem sync_alone {task asid core pm : Word} (hidle : t.pc cpuid = .idle)
    (htask : task ∈ t.tasks)
    (h : setUserAsid task core pm (t.kernel.onCore (.ofNat 32 cpuid)) = .ok asid k') :
    ∃ as t', Run (fun t a t' => tlbStep t a = some t') t as t' ∧ OthersWait cpuid t t' ∧
      t'.kernel.onCore (.ofNat 32 cpuid) = k' ∧
      (t'.core cpuid).pair = (asid &&& 0xFF, t'.table task) := by
  obtain ⟨pc, c', -, hstart, hrest⟩ := accesses_sync h (t.core cpuid)
  have hcall : (TlbCall.syncUserTtbaChange task core pm).task ∈ t.tasks := htask
  obtain ⟨as, t', hrun, hwait, hview⟩ := run_call hidle hcall hstart hrest
  obtain ⟨rfl, -, hcore⟩ := CoreState.mk.inj hview
  refine ⟨as, t', hrun, hwait, rfl, ?_⟩
  rw [hcore]
  exact c'.pair_switchTo asid _

end Alone

end Tlb

end Rpi2Baremetal
