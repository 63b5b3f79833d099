import Rpi2Baremetal.Model.TtbaChange
import Rpi2Baremetal.Properties.Modes
import Rpi2Baremetal.Properties.TlbCalls

/-!
# Running out of ASIDs

When every ASID of its area is in use, `sync_user_ttba_change` should leave the address space of
the core alone.  `set_user_asid` returns `ERROR_ASID_NUM` then, which as a `uint32_t` is
`0xFFFFFFFF`; the test `asid < 0` never holds, and the function puts all ones into `CONTEXTIDR`
and installs the table of a task that has no ASID.
-/

namespace Rpi2Baremetal

namespace TtbaChange

open Kernel

variable {k k' : Kernel} {s s' : TtbaState} {ssi : SysStructInfo} {i : Fin NUM_SYS_STRUCT}
  {task cpuid pm asid first limit : Word} {asids : List Word}

/-- An ASID of the area that a task can get. -/
structure Allocatable (k : Kernel) (ssi : SysStructInfo) (asid : Word) : Prop where
  first : firstUserAsid ssi ≤ asid
  limit : asid < ssi.asidArea.limit
  inactive : k.common.asidHead asid ≠ ACTIVE_ASID

/-- The address space is as it was, and interrupts are enabled. -/
structure Untouched (s s' : TtbaState) : Prop where
  ttbr0 : s'.ttbr0 = s.ttbr0
  ttbr1 : s'.ttbr1 = s.ttbr1
  contextidr : s'.contextidr = s.contextidr
  asidHead : s'.kernel.common.asidHead = s.kernel.common.asidHead
  tcb : s'.kernel.tcb = s.kernel.tcb
  irqMasked : s'.irqMasked = false

/-- The core has the address space of the task. -/
structure Switched (task : Word) (s s' : TtbaState) : Prop where
  ttbr0 : s'.ttbr0 = 0x4a ||| (s.kernel.tcb task).ttba
  ttbr1 : s'.ttbr1 = 0x4a ||| (s.kernel.tcb task).ttba
  asid : s'.contextidr &&& 0xFF = (s'.kernel.tcb task).asid
  upper : s'.contextidr &&& 0xFFFFFF00 = s.contextidr &&& 0xFFFFFF00
  irqMasked : s'.irqMasked = false

/-- What `sync_user_ttba_change` should do for a task without an ASID. -/
def Meets (ssi : SysStructInfo) (task : Word) (s s' : TtbaState) : Prop :=
  ((∀ asid, ¬ Allocatable s.kernel ssi asid) → Untouched s s') ∧
    ((∃ asid, Allocatable s.kernel ssi asid) → Switched task s s')

/-! ## The search for an ASID -/

/-- With the lock free, the loop of `set_user_asid` takes the first of its ASIDs that is neither
reserved nor active, and fails when there is none. -/
lemma userAsidLoop_free (task : Word) (asids : List Word) (h : k.held (.ssiLock i) = false) :
    (∀ a ∈ asids, a = RESERVED_ASID_NUM ∨ k.common.asidHead a = ACTIVE_ASID) ∧
        userAsidLoop i task asids k = .ok ERROR_ASID_NUM k ∨
      ∃ pre asid post, asids = pre ++ asid :: post ∧
        (∀ a ∈ pre, a = RESERVED_ASID_NUM ∨ k.common.asidHead a = ACTIVE_ASID) ∧
        asid ≠ RESERVED_ASID_NUM ∧ k.common.asidHead asid ≠ ACTIVE_ASID ∧
        userAsidLoop i task asids k = .ok asid (takeAsid task asid k) := by
  induction asids with
  | nil => exact .inl ⟨fun a ha => absurd ha List.not_mem_nil, rfl⟩
  | cons a asids ih =>
      by_cases ha : a = RESERVED_ASID_NUM ∨ k.common.asidHead a = ACTIVE_ASID
      · rw [userAsidLoop_skip h ha]
        obtain ⟨hall, hloop⟩ | ⟨pre, asid, post, rfl, hpre, hasid⟩ := ih
        · exact .inl ⟨List.forall_mem_cons.mpr ⟨ha, hall⟩, hloop⟩
        · exact .inr ⟨a :: pre, asid, post, rfl, List.forall_mem_cons.mpr ⟨ha, hpre⟩, hasid⟩
      · obtain ⟨hreserved, hactive⟩ := not_or.mp ha
        exact .inr ⟨[], a, asids, rfl, fun b hb => absurd hb List.not_mem_nil, hreserved, hactive,
          userAsidLoop_take h hreserved hactive⟩

/-- The areas `init_sysinfos` sets up: there are ASIDs for tasks, none of them is reserved, and
they fit into 8 bits. -/
lemma asid_area (baseTtba : Word) (i : Fin NUM_SYS_STRUCT) :
    1 ≤ (firstUserAsid (initSysinfos baseTtba i)).toNat ∧
    (firstUserAsid (initSysinfos baseTtba i)).toNat
      < (initSysinfos baseTtba i).asidArea.limit.toNat ∧
    (initSysinfos baseTtba i).asidArea.limit.toNat ≤ 256 := by
  have hareas : ∀ i, 1 ≤ (firstUserAsid (initSysinfos 0 i)).toNat ∧
      (firstUserAsid (initSysinfos 0 i)).toNat < (initSysinfos 0 i).asidArea.limit.toNat ∧
      (initSysinfos 0 i).asidArea.limit.toNat ≤ 256 := by decide
  exact hareas i

/-! ## The call -/

/-- Writing the reserved ASID clears the low 8 bits. -/
lemma orr_reserved (v : Word) :
    ((v &&& 0xFFFFFF00 ||| RESERVED_ASID_NUM) &&& 0xFFFFFF00) = v &&& 0xFFFFFF00 := by
  simp [RESERVED_ASID_NUM, BitVec.and_assoc]

/-- The registers after the switch, whatever `set_user_asid` has returned. -/
def switchTo (asid ttbr : Word) (k : Kernel) (s : TtbaState) : TtbaState where
  kernel := k
  contextidr := (s.contextidr &&& 0xFFFFFF00) ||| asid
  ttbr0 := ttbr
  ttbr1 := ttbr
  irqMasked := false

lemma syncUserTtbaChange_ok (h : setUserAsid task cpuid pm s.kernel = .ok asid k') :
    syncUserTtbaChange task cpuid pm s
      = .ok () (switchTo asid (0x4a ||| (k'.tcb task).ttba) k' s) := by
  have hnot : ¬ asid < 0 := BitVec.not_lt_zero
  simp only [syncUserTtbaChange, cpsid, bind, EStateM.bind, call, h, if_neg hnot, orrAsid, setTtbr0,
    setTtbr1, readTcb, cpsie, orr_reserved, switchTo]

lemma syncUserTtbaChange_error {e : Halt}
    (h : setUserAsid task cpuid pm s.kernel = .error e k') :
    ∃ s', syncUserTtbaChange task cpuid pm s = .error e s' := by
  refine ⟨{ s with irqMasked := true, kernel := k' }, ?_⟩
  simp only [syncUserTtbaChange, cpsid, bind, EStateM.bind, call, h]

/-- `set_user_asid` for a task without an ASID, when its lock is free: it gives the task one
that can be allocated, or fails when there is none. -/
lemma setUserAsid_free {baseTtba : Word} (hsys : k.sysStructTop = initSysinfos baseTtba)
    (hi : getSysStructInfo cpuid pm = some i) (h0 : (k.tcb task).asid = 0)
    (h : k.held (.ssiLock i) = false) :
    (∀ asid, ¬ Allocatable k (k.sysStructTop i) asid) ∧
        setUserAsid task cpuid pm k = .ok ERROR_ASID_NUM k ∨
      ∃ asid, Allocatable k (k.sysStructTop i) asid ∧
        setUserAsid task cpuid pm k = .ok asid (takeAsid task asid k) := by
  obtain ⟨hfirst, -, -⟩ := asid_area baseTtba i
  rw [← hsys] at hfirst
  rw [setUserAsid_ok hi h0]
  have hreserved : ∀ a ∈ asidsFrom (firstUserAsid (k.sysStructTop i))
      (k.sysStructTop i).asidArea.limit, a ≠ RESERVED_ASID_NUM := by
    rintro a ha rfl
    have hle := BitVec.le_def.mp (mem_asidsFrom.mp ha).1
    rw [show RESERVED_ASID_NUM.toNat = 0 from rfl] at hle
    omega
  obtain ⟨hall, hloop⟩ | ⟨pre, asid, post, hsplit, -, -, hasid, hloop⟩ :=
    userAsidLoop_free task
      (asidsFrom (firstUserAsid (k.sysStructTop i)) (k.sysStructTop i).asidArea.limit) h
  · refine .inl ⟨fun asid halloc => halloc.inactive ?_, hloop⟩
    have hmem := mem_asidsFrom.mpr ⟨halloc.first, halloc.limit⟩
    exact (hall asid hmem).resolve_left (hreserved asid hmem)
  · have hmem : asid ∈ pre ++ asid :: post := List.mem_append_right _ (List.mem_cons_self ..)
    rw [← hsplit] at hmem
    obtain ⟨hlow, hhigh⟩ := mem_asidsFrom.mp hmem
    exact .inr ⟨asid, ⟨hlow, hhigh, hasid⟩, hloop⟩

/-- With its lock held `set_user_asid` spins. -/
lemma setUserAsid_held {baseTtba : Word} (hsys : k.sysStructTop = initSysinfos baseTtba)
    (hi : getSysStructInfo cpuid pm = some i) (h0 : (k.tcb task).asid = 0)
    (h : k.held (.ssiLock i) = true) :
    setUserAsid task cpuid pm k = .error (.spins (.ssiLock i)) k := by
  obtain ⟨-, hroom, -⟩ := asid_area baseTtba i
  rw [← hsys] at hroom
  have hmem : firstUserAsid (k.sysStructTop i) ∈ asidsFrom (firstUserAsid (k.sysStructTop i))
      (k.sysStructTop i).asidArea.limit := by
    rw [mem_asidsFrom]
    exact ⟨BitVec.le_refl _, BitVec.lt_def.mpr hroom⟩
  obtain ⟨asid, asids, hcons⟩ := List.exists_cons_of_ne_nil (List.ne_nil_of_mem hmem)
  rw [setUserAsid_ok hi h0]
  show userAsidLoop i task (asidsFrom (firstUserAsid (k.sysStructTop i)) _) k = _
  rw [hcons]
  exact userAsidLoop_held h

/-- A core that has got an ASID of 8 bits has the address space of its task. -/
lemma switched_takeAsid (hasid : asid < 256) :
    Switched task s (switchTo asid (0x4a ||| (s.kernel.tcb task).ttba)
      (takeAsid task asid s.kernel) s) := by
  have hlow : asid &&& 0xFF = asid := by
    apply BitVec.eq_of_toNat_eq
    have hlt : asid.toNat < 2 ^ 8 := BitVec.lt_def.mp hasid
    rw [BitVec.toNat_and, show (0xFF : Word).toNat = 2 ^ 8 - 1 from rfl,
      Nat.and_two_pow_sub_one_eq_mod, Nat.mod_eq_of_lt hlt]
  have hhigh : asid &&& 0xFFFFFF00 = 0 := by
    rw [← hlow, BitVec.and_assoc]
    simp
  refine ⟨rfl, rfl, ?_, ?_, rfl⟩
  · show ((s.contextidr &&& 0xFFFFFF00) ||| asid) &&& 0xFF
      = (Function.update s.kernel.tcb task _ task).asid
    rw [Function.update_self, TCB.setAsid_asid, BitVec.and_or_distrib_right, BitVec.and_assoc, hlow]
    simp
  · show ((s.contextidr &&& 0xFFFFFF00) ||| asid) &&& 0xFFFFFF00 = s.contextidr &&& 0xFFFFFF00
    rw [BitVec.and_or_distrib_right, BitVec.and_assoc, hhigh]
    simp

/-- **The address space of a core.**  For a task without an ASID, on every core and in every
valid mode, `sync_user_ttba_change` does what it should, whatever the registers hold, exactly
if the lock of its entry is free and some ASID of its area can be allocated.  Messages are taken to
return (`Model/Kernel.lean`). -/
theorem sync_user_ttba_change_iff {baseTtba : Word}
    (hsys : k.sysStructTop = initSysinfos baseTtba) (hcpuid : cpuid < 4)
    (hpm : isValidPm pm = true) (h0 : (k.tcb task).asid = 0) :
    ∃ i, getSysStructInfo cpuid pm = some i ∧
      ((∀ s, s.kernel = k → ∃ s', syncUserTtbaChange task cpuid pm s = .ok () s' ∧
          Meets (k.sysStructTop i) task s s') ↔
        k.held (.ssiLock i) = false ∧ ∃ asid, Allocatable k (k.sysStructTop i) asid) := by
  obtain ⟨i, hi, -⟩ := getSysStructInfo_valid hcpuid hpm
  refine ⟨i, hi, ?_⟩
  constructor
  · intro hmeets
    cases hlock : k.held (.ssiLock i) with
    | true =>
        obtain ⟨s', hok, -⟩ := hmeets ⟨k, 0, 0, 0, false⟩ rfl
        obtain ⟨s'', herror⟩ := syncUserTtbaChange_error (s := ⟨k, 0, 0, 0, false⟩)
          (setUserAsid_held hsys hi h0 hlock)
        rw [hok] at herror
        cases herror
    | false =>
        refine ⟨rfl, ?_⟩
        obtain ⟨hnone, hfail⟩ | ⟨asid, halloc, -⟩ := setUserAsid_free hsys hi h0 hlock
        · -- `CONTEXTIDR` was 0 and gets the failure value
          obtain ⟨s', hok, hmeet⟩ := hmeets ⟨k, 0, 0, 0, false⟩ rfl
          rw [syncUserTtbaChange_ok (s := ⟨k, 0, 0, 0, false⟩) hfail] at hok
          cases hok
          have hcontextidr := (hmeet.1 hnone).contextidr
          simp [switchTo, ERROR_ASID_NUM] at hcontextidr
        · exact ⟨asid, halloc⟩
  · rintro ⟨hlock, hsome⟩ s rfl
    obtain ⟨hnone, -⟩ | ⟨asid, halloc, hok⟩ := setUserAsid_free hsys hi h0 hlock
    · obtain ⟨asid, halloc⟩ := hsome
      exact absurd halloc (hnone asid)
    · refine ⟨_, syncUserTtbaChange_ok hok, fun hnone => absurd hsome (not_exists.mpr hnone),
        fun _ => ?_⟩
      have httba : ((takeAsid task asid s.kernel).tcb task).ttba = (s.kernel.tcb task).ttba := by
        show (Function.update s.kernel.tcb task _ task).ttba = _
        rw [Function.update_self, TCB.setAsid_ttba]
      have hasid : asid < 256 := by
        obtain ⟨-, -, hlimit⟩ := asid_area baseTtba i
        rw [← hsys] at hlimit
        have hlt := BitVec.lt_def.mp halloc.limit
        rw [BitVec.lt_def, show (256 : Word).toNat = 256 from rfl]
        omega
      rw [httba]
      exact switched_takeAsid hasid

/-- At boot a task gets the address space it is to have. -/
theorem sync_user_ttba_change_iff_boot : ∃ i, getSysStructInfo 0 0 = some i ∧
    ∀ s, s.kernel = atBoot → ∃ s', syncUserTtbaChange 8 0 0 s = .ok () s' ∧
      Meets (atBoot.sysStructTop i) 8 s s' := by
  have hsys : atBoot.sysStructTop = initSysinfos TTBA_BASE := rfl
  obtain ⟨i, hi, hiff⟩ := sync_user_ttba_change_iff hsys
    (show (0 : Word) < 4 by decide) (show isValidPm 0 = true by decide)
    (show (atBoot.tcb 8).asid = 0 from rfl)
  refine ⟨i, hi, hiff.mpr ⟨rfl, firstUserAsid (atBoot.sysStructTop i), ?_⟩⟩
  obtain ⟨-, hroom, -⟩ := asid_area TTBA_BASE i
  exact ⟨BitVec.le_refl _, BitVec.lt_def.mpr hroom, show UNUSED_ASID ≠ ACTIVE_ASID by decide⟩

/-- The kernel at boot on core 0 in SMP mode, with every ASID in use. -/
def allActive : Kernel := { atBoot with
  common := { atBoot.common with asidHead := fun _ => ACTIVE_ASID } }

/-- With every ASID in use the registers change. -/
theorem sync_user_ttba_change_without_asid : ¬ ∀ (s : TtbaState) (task cpuid pm : Word)
    (i : Fin NUM_SYS_STRUCT), (∃ baseTtba, s.kernel.sysStructTop = initSysinfos baseTtba) →
      cpuid < 4 → isValidPm pm = true → (s.kernel.tcb task).asid = 0 →
      getSysStructInfo cpuid pm = some i → s.kernel.held (.ssiLock i) = false →
      ∃ s', syncUserTtbaChange task cpuid pm s = .ok () s' ∧
        Meets (s.kernel.sysStructTop i) task s s' := by
  intro hmeets
  have hi : getSysStructInfo 0 0 = some 4 := by decide
  have hsys : allActive.sysStructTop = initSysinfos TTBA_BASE := rfl
  obtain ⟨s', hok, hmeet⟩ := hmeets ⟨allActive, 0, 0, 0, false⟩ 8 0 0 4 ⟨TTBA_BASE, rfl⟩
    (by decide) (by decide) rfl hi rfl
  have hnone : ∀ asid, ¬ Allocatable allActive (allActive.sysStructTop 4) asid :=
    fun asid halloc => halloc.inactive rfl
  obtain ⟨-, hfail⟩ | ⟨asid, halloc, -⟩ := setUserAsid_free hsys hi rfl rfl
  · rw [syncUserTtbaChange_ok (s := ⟨allActive, 0, 0, 0, false⟩) hfail] at hok
    cases hok
    have httbr0 := (hmeet.1 hnone).ttbr0
    simp [switchTo, allActive, atBoot] at httbr0
  · exact hnone asid halloc

/-! ## Access by access -/

/-- The registers of a core in the two models. -/
structure SameRegs (s : TtbaState) (c : Tlb.CoreTlb) : Prop where
  contextidr : c.contextidr = s.contextidr
  ttbr0 : c.ttbr0 = s.ttbr0
  ttbr1 : c.ttbr1 = s.ttbr1

/-- The accesses of a core to the shared state have the same effect on the kernel and on the
registers as the function, when no other core comes in between. -/
theorem accesses_syncUserTtbaChange {c : Tlb.CoreTlb} (hc : SameRegs s c)
    (h : syncUserTtbaChange task cpuid pm s = .ok () s') :
    ∃ pc c', (Tlb.TlbCall.syncUserTtbaChange task cpuid pm).start s.kernel
        = .ok (pc, none) s.kernel ∧
      Tlb.Accesses ⟨s.kernel, pc, c⟩ ⟨s'.kernel, .idle, c'⟩ ∧ SameRegs s' c' := by
  cases hasid : setUserAsid task cpuid pm s.kernel with
  | error e k' =>
      obtain ⟨s'', herror⟩ := syncUserTtbaChange_error hasid
      rw [h] at herror
      cases herror
  | ok asid k' =>
      rw [syncUserTtbaChange_ok hasid] at h
      cases h
      obtain ⟨pc, c', hregs, hstart, hrest⟩ := Tlb.accesses_sync hasid c
      refine ⟨pc, _, hstart, hrest, ?_, rfl, rfl⟩
      show ((((c'.contextidr &&& 0xFFFFFF00) ||| RESERVED_ASID_NUM) &&& 0xFFFFFF00) ||| asid)
        = (s.contextidr &&& 0xFFFFFF00) ||| asid
      rw [hregs.contextidr, hc.contextidr, orr_reserved]

end TtbaChange

end Rpi2Baremetal
