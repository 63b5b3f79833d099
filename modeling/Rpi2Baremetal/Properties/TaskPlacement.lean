import Rpi2Baremetal.Properties.Modes
import Rpi2Baremetal.Properties.TaskOps
import Rpi2Baremetal.Properties.UserIsolation

/-!
# The slot of a started task

`start_task` should give a task one free slot, with a table at the base of the slot's section,
and leave everything as it is when there is none.  Its scan goes on after it has claimed a slot,
and it sets the task running in any case, so it does so with one free slot only.
-/

namespace Rpi2Baremetal

namespace Kernel

variable {k k' : Kernel} {task : Word} {lock : LockWord} {ssi : SysStructInfo} {slot : ℕ}

/-- The base of the section of a slot. -/
def slotBase (ssi : SysStructInfo) (slot : ℕ) : Word :=
  .ofNat 32 slot * Mmu.SECTION_SIZE + ssi.userRamArea.bottom

/-- `start_task` has a task space with this slot, and it is free. -/
def FreeSlot (k : Kernel) (ssi : SysStructInfo) (slot : ℕ) : Prop :=
  slot < ssi.maxNumTaskSpace.toNat ∧ (k.smpTskAlcMap slot).state = INIT_MAP

/-- A call that began in `k` has given `slot` to `task`, and built a table at its base. -/
structure ClaimsSlot (k : Kernel) (task : Word) (ssi : SysStructInfo) (slot : ℕ) (k' : Kernel) :
    Prop where
  smpTskAlcMap : k'.smpTskAlcMap = Function.update k.smpTskAlcMap slot ⟨RUNNING_MAP, task⟩
  mapid : (k'.tcb task).mapid = .ofNat 32 slot
  ttba : (k'.tcb task).ttba = slotBase ssi slot
  table : Mmu.creUsrTbl 4096 (slotBase ssi slot) k.mem = some k'.mem
  mem : ∀ a, ¬ ((slotBase ssi slot).toNat ≤ a.toNat ∧
    a.toNat < (slotBase ssi slot).toNat + SECTION_TBL_SIZE.toNat) → k'.mem a = k.mem a

/-- A call that began in `k` has changed neither the map nor the memory nor the task. -/
structure ClaimsNone (k : Kernel) (task : Word) (k' : Kernel) : Prop where
  smpTskAlcMap : k'.smpTskAlcMap = k.smpTskAlcMap
  mem : k'.mem = k.mem
  tcb : k'.tcb task = k.tcb task
  state : (k'.tcb task).state ≠ TASK_STATE_RUNNING

/-- What `start_task` should do. -/
def ClaimsOne (k : Kernel) (task : Word) (ssi : SysStructInfo) (k' : Kernel) : Prop :=
  ((∃ slot, FreeSlot k ssi slot) → ∃ slot, FreeSlot k ssi slot ∧ ClaimsSlot k task ssi slot k') ∧
    ((∀ slot, ¬ FreeSlot k ssi slot) → ClaimsNone k task k')

/-! ## The table of a slot -/

/-- A table built at a multiple of 16KB. -/
lemma creUsrTbl_frame {ttba : Word} (halign : 2 ^ 14 ∣ ttba.toNat) (m : Mem) :
    ∃ m', Mmu.creUsrTbl 4096 ttba m = some m' ∧
      ∀ a, ¬ (ttba.toNat ≤ a.toNat ∧ a.toNat < ttba.toNat + SECTION_TBL_SIZE.toNat) →
        m' a = m a := by
  obtain ⟨m', hrun, -, hframe⟩ := Mmu.tblPass_spec (Mmu.creUsrEntry_eq ttba) halign m
  refine ⟨m', hrun, fun a ha => hframe a fun va heq => ha ?_⟩
  have hsize : SECTION_TBL_SIZE.toNat = 2 ^ 14 := rfl
  rw [← heq, Mmu.l1descpa_toNat halign, hsize]
  omega

lemma slotBase_aligned (baseTtba : Word) (j : Fin NUM_SYS_STRUCT) (slot : ℕ) :
    2 ^ 14 ∣ (slotBase (initSysinfos baseTtba j) slot).toNat := by
  have hbottom : ∀ j, 2 ^ 14 ∣ (uramAreas j).bottom.toNat := by decide
  have hsize : Mmu.SECTION_SIZE.toNat = 2 ^ 14 * 64 := rfl
  rw [slotBase, BitVec.toNat_add, BitVec.toNat_mul, hsize]
  refine (Nat.dvd_mod_iff (by decide)).mpr (Nat.dvd_add ?_ (hbottom j))
  exact (Nat.dvd_mod_iff (by decide)).mpr (Dvd.dvd.mul_left (Nat.dvd_mul_right _ _) _)

lemma claimSlot_mem (task : Word) (ssi : SysStructInfo) (slot : ℕ) (k : Kernel) :
    (claimSlot task ssi slot k).mem
      = (Mmu.creUsrTbl 4096 (slotBase ssi slot) k.mem).getD k.mem := by
  simp only [claimSlot, place, slotBase, TCB.setTtba_ttba]

/-! ## The scan -/

/-- The scan of `start_task` over slots in use only looks at them. -/
lemma forM_startTaskPass_used (task : Word) (ssi : SysStructInfo) (hheld : k.held lock = false)
    {l : List ℕ} (hused : ∀ i ∈ l, (k.smpTskAlcMap i).state ≠ INIT_MAP) :
    forM l (startTaskPass task lock ssi) k
      = .ok () { k with mapAccesses := l.reverse ++ k.mapAccesses } :=
  forM_looks fun i hi accesses =>
    startTaskPass_used (k := { k with mapAccesses := accesses }) hheld (hused i hi)

/-- With one free slot the scan gives it to the task. -/
lemma forM_startTaskPass_one (task : Word) (hheld : k.held lock = false)
    (honly : ∀ i, FreeSlot k ssi i ↔ i = slot) :
    ∃ k', forM (List.range ssi.maxNumTaskSpace.toNat) (startTaskPass task lock ssi) k = .ok () k' ∧
      k'.smpTskAlcMap = Function.update k.smpTskAlcMap slot ⟨RUNNING_MAP, task⟩ ∧
      k'.tcb = Function.update k.tcb task (place ssi slot (k.tcb task)) ∧
      k'.mem = (Mmu.creUsrTbl 4096 (slotBase ssi slot) k.mem).getD k.mem := by
  obtain ⟨hlt, hfree⟩ := (honly slot).mpr rfl
  have hsplit : List.range ssi.maxNumTaskSpace.toNat = List.range slot ++
      slot :: List.range' (slot + 1) (ssi.maxNumTaskSpace.toNat - (slot + 1)) := by
    have happend := @List.range'_append_1 0 slot (ssi.maxNumTaskSpace.toNat - (slot + 1) + 1)
    rw [← List.range'_succ, List.range_eq_range', List.range_eq_range']
    rw [Nat.zero_add] at happend
    rw [happend]
    congr 1
    omega
  have hused : ∀ i, i < ssi.maxNumTaskSpace.toNat → i ≠ slot →
      (k.smpTskAlcMap i).state ≠ INIT_MAP := by
    intro i hi hne hstate
    exact hne ((honly i).mp ⟨hi, hstate⟩)
  have hbelow := forM_startTaskPass_used task ssi hheld (l := List.range slot) fun i hi =>
    hused i ((List.mem_range.mp hi).trans hlt) (List.mem_range.mp hi).ne
  set k₁ : Kernel := { k with mapAccesses := (List.range slot).reverse ++ k.mapAccesses }
  have hclaim : startTaskPass task lock ssi slot k₁ = .ok () (claimSlot task ssi slot k₁) :=
    startTaskPass_free hheld hfree
  have habove := forM_startTaskPass_used (k := claimSlot task ssi slot k₁) task ssi hheld
    (l := List.range' (slot + 1) (ssi.maxNumTaskSpace.toNat - (slot + 1))) fun i hi => by
      rw [List.mem_range'_1] at hi
      have hne : i ≠ slot := by omega
      show (Function.update k.smpTskAlcMap slot _ i).state ≠ INIT_MAP
      rw [Function.update_of_ne hne]
      exact hused i (by omega) hne
  rw [hsplit, List.forM_append, bind_ok hbelow, List.forM_cons, bind_ok hclaim]
  refine ⟨_, habove, rfl, rfl, ?_⟩
  dsimp only
  exact claimSlot_mem task ssi slot k₁

/-- With one free slot `start_task` does what it should. -/
lemma startTask_one {j : Fin NUM_SYS_STRUCT} (baseTtba : Word)
    (hsys : k.sysStructTop = initSysinfos baseTtba) (hheld : k.held lock = false)
    (hj : getSysStructInfo k.prid k.common.pm = some j)
    (honly : ∀ i, FreeSlot k (k.sysStructTop j) i ↔ i = slot)
    (hk : startTask task lock k = .ok () k') : ClaimsSlot k task (k.sysStructTop j) slot k' := by
  obtain ⟨k₁, hforM, hmap, htcb, hmem⟩ := forM_startTaskPass_one task hheld honly
  rw [startTask_eq hj, bind_ok hforM] at hk
  obtain ⟨-, rfl⟩ := EStateM.Result.ok.inj hk
  have halign : 2 ^ 14 ∣ (slotBase (k.sysStructTop j) slot).toNat := by
    rw [hsys]
    exact slotBase_aligned baseTtba j slot
  obtain ⟨m', htable, hframe⟩ := creUsrTbl_frame halign k.mem
  rw [htable, Option.getD_some] at hmem
  refine ⟨hmap, ?_, ?_, htable.trans (congrArg some hmem.symm), fun a ha => ?_⟩
  · simp [htcb, place]
  · simp [htcb, place, slotBase]
  · exact (congrFun hmem a).trans (hframe a ha)

/-! ## Exactly one free slot -/

/-- A call that does what it should has found exactly one free slot. -/
lemma ClaimsOne.unique {j : Fin NUM_SYS_STRUCT} (h : ClaimsOne k task (k.sysStructTop j) k')
    (hk : Starts k task j k') : ∃! slot, FreeSlot k (k.sysStructTop j) slot := by
  by_cases hfree : ∃ slot, FreeSlot k (k.sysStructTop j) slot
  · obtain ⟨slot, hslot, hclaim⟩ := h.1 hfree
    refine ⟨slot, hslot, fun i hi => ?_⟩
    -- a second free slot has changed as well
    by_contra hne
    have hmap := hk.smpTskAlcMap i
    rw [if_pos ⟨hi.1, hi.2⟩, hclaim.smpTskAlcMap, Function.update_of_ne hne] at hmap
    have hstate := hi.2
    rw [hmap] at hstate
    exact absurd (show RUNNING_MAP = INIT_MAP from hstate) (by decide)
  · exact absurd hk.state (h.2 (not_exists.mp hfree)).state

/-- What a call of `start_task` that returns does is right exactly if there is one free slot. -/
lemma claimsOne_iff {j : Fin NUM_SYS_STRUCT} {baseTtba : Word} (task : Word)
    (hsys : k.sysStructTop = initSysinfos baseTtba) (hheld : k.held lock = false)
    (hj : getSysStructInfo k.prid k.common.pm = some j) :
    ∃ k', startTask task lock k = .ok () k' ∧
      (ClaimsOne k task (k.sysStructTop j) k' ↔ ∃! slot, FreeSlot k (k.sysStructTop j) slot) := by
  obtain ⟨k', hok, hstarts⟩ := startTask_ok task hheld hj
  refine ⟨k', hok, fun h => h.unique hstarts, ?_⟩
  rintro ⟨slot, hslot, honly⟩
  have hiff : ∀ i, FreeSlot k (k.sysStructTop j) i ↔ i = slot :=
    fun i => ⟨honly i, fun heq => heq ▸ hslot⟩
  exact ⟨fun _ => ⟨slot, hslot, startTask_one baseTtba hsys hheld hj hiff hok⟩,
    fun hnone => absurd hslot (hnone slot)⟩

/-- **`start_task` claims one task space.**  On every core and in every valid mode a call that
gets its lock returns, if its messages do (`Model/Kernel.lean`), and it does what it should exactly
if there is one free slot.  A call that does not get the lock spins. -/
theorem start_task_claims_one_iff {baseTtba : Word} (hsys : k.sysStructTop = initSysinfos baseTtba)
    (hcpuid : k.prid < 4) (hpm : isValidPm k.common.pm = true) (task : Word) (lock : LockWord) :
    ∃ j, getSysStructInfo k.prid k.common.pm = some j ∧
      (k.held lock = false → ∃ k', startTask task lock k = .ok () k') ∧
      ((∀ k', startTask task lock k = .ok () k' → ClaimsOne k task (k.sysStructTop j) k') ↔
        k.held lock = true ∨ ∃! slot, FreeSlot k (k.sysStructTop j) slot) := by
  obtain ⟨j, hj, -⟩ := getSysStructInfo_valid hcpuid hpm
  refine ⟨j, hj, fun hheld => ?_, ?_⟩
  · obtain ⟨k', hok, -⟩ := startTask_ok task hheld hj
    exact ⟨k', hok⟩
  · cases hheld : k.held lock with
    | true =>
        refine iff_of_true (fun k' hok => ?_) (.inl rfl)
        have hpos : 0 < (k.sysStructTop j).maxNumTaskSpace.toNat := by
          have hall : ∀ j, 0 < (initSysinfos 0 j).maxNumTaskSpace.toNat := by decide
          rw [hsys]
          exact hall j
        cases (startTask_held task hheld hj hpos).symm.trans hok
    | false =>
        obtain ⟨k', hok, hiff⟩ := claimsOne_iff task hsys hheld hj
        rw [or_iff_right Bool.false_ne_true, ← hiff]
        refine ⟨fun h => h k' hok, fun h k'' hok'' => ?_⟩
        obtain ⟨-, rfl⟩ := EStateM.Result.ok.inj (hok.symm.trans hok'')
        exact h

/-! ## Maps -/

/-- The kernel at boot with a ready task 8 and the given map. -/
def readyTask (map : ℕ → TaskMap) : Kernel := { atBoot with
  smpTskAlcMap := map
  tcb := fun _ => ⟨TASK_STATE_READY, 0, 0, 0, 0, NULL, NULL, NULL⟩ }

/-- Only slot 5 is free. -/
def onlyFive (i : ℕ) : TaskMap := if i = 5 then ⟨INIT_MAP, NULL⟩ else ⟨RUNNING_MAP, 16⟩

/-- With only slot 5 free, task 8 gets it. -/
theorem start_task_claims_one_iff_onlyFive : ∃ j k',
    startTask 8 .smpQueueLock (readyTask onlyFive) = .ok () k' ∧
      ClaimsOne (readyTask onlyFive) 8 ((readyTask onlyFive).sysStructTop j) k' := by
  obtain ⟨j, hj, hreturns, hiff⟩ := start_task_claims_one_iff
    (show (readyTask onlyFive).sysStructTop = initSysinfos TTBA_BASE from rfl) (by decide)
    (by decide) 8 .smpQueueLock
  obtain ⟨k', hok⟩ := hreturns rfl
  refine ⟨j, k', hok, hiff.mpr (.inr ⟨5, ⟨?_, rfl⟩, fun i hi => ?_⟩) k' hok⟩
  · have hall : ∀ j, 5 < (initSysinfos TTBA_BASE j).maxNumTaskSpace.toNat := by decide
    exact hall j
  · by_contra hne
    have hstate : (onlyFive i).state = INIT_MAP := hi.2
    rw [onlyFive, if_neg hne] at hstate
    exact absurd (show RUNNING_MAP = INIT_MAP from hstate) (by decide)

/-- With an empty map task 8 takes every slot. -/
theorem start_task_claims_all : ¬ ∀ (k k' : Kernel) (task : Word) (lock : LockWord)
    (j : Fin NUM_SYS_STRUCT), (∃ baseTtba, k.sysStructTop = initSysinfos baseTtba) →
      k.prid < 4 → isValidPm k.common.pm = true → (k.tcb task).state = TASK_STATE_READY →
      getSysStructInfo k.prid k.common.pm = some j → startTask task lock k = .ok () k' →
      ClaimsOne k task (k.sysStructTop j) k' := by
  intro hclaim
  set k := readyTask fun _ => ⟨INIT_MAP, NULL⟩
  have hj : getSysStructInfo k.prid k.common.pm = some 4 := by decide
  obtain ⟨k', hok, hiff⟩ := claimsOne_iff 8 (show k.sysStructTop = initSysinfos TTBA_BASE from rfl)
    (show k.held .smpQueueLock = false from rfl) hj
  have hone := hclaim k k' 8 .smpQueueLock 4 ⟨TTBA_BASE, rfl⟩ (by decide) (by decide) rfl hj hok
  obtain ⟨slot, -, honly⟩ := hiff.mp hone
  have hfree : ∀ i < 431, FreeSlot k (k.sysStructTop 4) i := fun i hi => ⟨hi, rfl⟩
  have h0 := honly 0 (hfree 0 (by decide))
  have h1 := honly 1 (hfree 1 (by decide))
  omega

end Kernel

end Rpi2Baremetal
