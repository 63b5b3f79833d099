import Rpi2Baremetal.Properties.MapBounds
import Rpi2Baremetal.Properties.UserIsolation

/-!
# Moving tasks out of a partition

`move_task_spaces` should empty the slots of a partition: every task there gets a free slot
elsewhere, with its space.  It takes the queue lock before it calls `move_task_space`, which
asks for the same lock, so it never gets past a slot in use.
-/

namespace Rpi2Baremetal

namespace Kernel

variable {k k' : Kernel} {live : Set Word} {ssi : SysStructInfo} {i : ℕ}

/-- The base of the section of a slot, counted from `SMP_USER_RAM_BOTTOM`. -/
def mapBase (slot : ℕ) : Word := SMP_USER_RAM_BOTTOM + .ofNat 32 slot * Mmu.SECTION_SIZE

/-- The slots `move_task_spaces` empties. -/
def vacated (ssi : SysStructInfo) : List ℕ :=
  mapidsOf ssi.kernelRamArea.bottom ssi.userRamArea.limit

/-- Every slot in use has a live task of its own, which knows its slot and its section. -/
structure WellFormedMap (live : Set Word) (k : Kernel) : Prop where
  live : ∀ i, InUse k i → (k.smpTskAlcMap i).task ∈ live
  distinct : ∀ i i', InUse k i → InUse k i' →
    (k.smpTskAlcMap i).task = (k.smpTskAlcMap i').task → i = i'
  mapid : ∀ i, InUse k i → (k.tcb (k.smpTskAlcMap i).task).mapid = .ofNat 32 i
  ttba : ∀ i, InUse k i → (k.tcb (k.smpTskAlcMap i).task).ttba = mapBase i

/-- The tasks that were not given to `kfree` between two states. -/
def stillAlive (live : Set Word) (k k' : Kernel) : Set Word :=
  {task ∈ live | ∀ blocks, k'.freed = blocks ++ k.freed → task ∉ blocks}

/-- The task of slot `i` has been moved to `slot`, and its space with it: the table is that of
the new base, and the rest is as it was. -/
structure MovedTo (live : Set Word) (k : Kernel) (i slot : ℕ) (k' : Kernel) : Prop where
  alive : (k.smpTskAlcMap i).task ∈ stillAlive live k k'
  only : ∀ i', InUse k' i' ∧ (k'.smpTskAlcMap i').task = (k.smpTskAlcMap i).task ↔ i' = slot
  mapid : (k'.tcb (k.smpTskAlcMap i).task).mapid = .ofNat 32 slot
  ttba : (k'.tcb (k.smpTskAlcMap i).task).ttba = mapBase slot
  table : ∀ va, k'.mem (Mmu.l1descpa va (mapBase slot))
    = Mmu.usrDesc (mapBase slot) (Mmu.sectionOf va)
  content : ∀ offset ∈ spaceOffsets (mapBase slot), SECTION_TBL_SIZE ≤ offset →
    k'.mem (mapBase slot + offset) = k.mem ((k.tcb (k.smpTskAlcMap i).task).ttba + offset)

/-- What `move_task_spaces` should do. -/
structure Migrated (live : Set Word) (ssi : SysStructInfo) (k k' : Kernel) : Prop where
  wellFormed : WellFormedMap (stillAlive live k k') k'
  emptied : ∀ i ∈ vacated ssi, ¬ InUse k' i
  moved : ∀ i ∈ vacated ssi, InUse k i →
    ∃ slot, slot ∉ vacated ssi ∧ MovedTo live k i slot k'
  tcb : ∀ task ∈ live, (∀ i ∈ vacated ssi, InUse k i → (k.smpTskAlcMap i).task ≠ task) →
    task ∈ stillAlive live k k' ∧ k'.tcb task = k.tcb task
  others : ∀ i, i ∉ vacated ssi → InUse k i →
    k'.smpTskAlcMap i = k.smpTskAlcMap i ∧
      ∀ a, Mmu.InSpace (mapBase i) a → k'.mem a = k.mem a

/-! ## The scan -/

/-- A pass over a free slot only looks at it. -/
lemma moveTaskSpacesPass_free (hheld : k.held .smpQueueLock = false) (hfree : ¬ InUse k i) :
    moveTaskSpacesPass i k = .ok () { k with mapAccesses := i :: k.mapAccesses } := by
  have hrel : Function.update (lockedRead i k).held .smpQueueLock false = k.held := by
    rw [lockedRead, Function.update_idem, update_held hheld]
  have hstate : (k.smpTskAlcMap i).state = 0 := not_not.mp hfree
  rw [moveTaskSpacesPass, lockedRead_ok hheld, if_pos hstate,
    spinRel_held (lockedRead_held i k), hrel]
  rfl

/-- A pass over a slot in use spins: `move_task_space` asks for the lock the pass holds. -/
lemma moveTaskSpacesPass_inUse {j : Fin NUM_SYS_STRUCT}
    (hj : getSysStructInfo k.prid k.common.pm = some j) (hpos : 0 < numMapId (k.sysStructTop j))
    (hheld : k.held .smpQueueLock = false) (hi : InUse k i) :
    ∃ k', moveTaskSpacesPass i k = .error (.spins .smpQueueLock) k' := by
  have hstate : ¬ (k.smpTskAlcMap i).state = 0 := hi
  refine ⟨{ lockedRead i k with mapAccesses := i :: (lockedRead i k).mapAccesses }, ?_⟩
  rw [moveTaskSpacesPass, lockedRead_ok hheld, if_neg hstate]
  exact bind_error (moveTaskSpace_held (k := lockedRead i k) hj hpos (lockedRead_held i k) i)

/-- The scan over free slots only looks at them. -/
lemma forM_moveTaskSpacesPass_free {l : List ℕ}
    (hfree : ∀ i ∈ l, k.held .smpQueueLock = false ∧ ¬ InUse k i) :
    forM l moveTaskSpacesPass k
      = .ok () { k with mapAccesses := l.reverse ++ k.mapAccesses } :=
  forM_looks fun i hi accesses =>
    moveTaskSpacesPass_free (k := { k with mapAccesses := accesses }) (hfree i hi).1 (hfree i hi).2

/-- A scan that ends has found every slot free, and the lock as well. -/
lemma forM_moveTaskSpacesPass_ok {j : Fin NUM_SYS_STRUCT} {l : List ℕ}
    (hj : getSysStructInfo k.prid k.common.pm = some j) (hpos : 0 < numMapId (k.sysStructTop j))
    (hok : forM l moveTaskSpacesPass k = .ok () k') :
    ∀ i ∈ l, k.held .smpQueueLock = false ∧ ¬ InUse k i := by
  refine forM_looks_of_ok (fun i accesses => ?_) hok
  cases hheld : k.held .smpQueueLock with
  | true =>
      exact .inr ⟨_, _, moveTaskSpacesPass_held (k := { k with mapAccesses := accesses }) hheld i⟩
  | false =>
      by_cases hi : InUse k i
      · obtain ⟨k₁, hspins⟩ :=
          moveTaskSpacesPass_inUse (k := { k with mapAccesses := accesses }) hj hpos hheld hi
        exact .inr ⟨_, k₁, hspins⟩
      · exact .inl ⟨⟨rfl, hi⟩,
          moveTaskSpacesPass_free (k := { k with mapAccesses := accesses }) hheld hi⟩

/-! ## Nothing to move -/

lemma stillAlive_of_freed (h : k'.freed = k.freed) : stillAlive live k k' = live := by
  ext task
  refine ⟨And.left, fun hmem => ⟨hmem, fun blocks heq => ?_⟩⟩
  rw [h] at heq
  rw [List.self_eq_append_left.mp heq]
  exact List.not_mem_nil

/-- A call that finds nothing to move has done what it should. -/
lemma Migrated.of_free (hmap : WellFormedMap live k) (hfree : ∀ i ∈ vacated ssi, ¬ InUse k i)
    (accesses : List ℕ) : Migrated live ssi k { k with mapAccesses := accesses } := by
  have halive : stillAlive live k { k with mapAccesses := accesses } = live :=
    stillAlive_of_freed rfl
  constructor
  · rw [halive]
    exact ⟨hmap.live, hmap.distinct, hmap.mapid, hmap.ttba⟩
  · exact hfree
  · exact fun i hi huse => absurd huse (hfree i hi)
  · intro task htask _
    rw [halive]
    exact ⟨htask, rfl⟩
  · exact fun i _ _ => ⟨rfl, fun a _ => rfl⟩

/-- **Migration.**  On every core and in every valid mode, with a well-formed map,
`move_task_spaces` ends and does what it should exactly if it finds the queue lock free and no
slot of the partition in use.  Messages are taken to return (`Model/Kernel.lean`). -/
theorem move_task_spaces_migrates_iff {baseTtba : Word}
    (hsys : k.sysStructTop = initSysinfos baseTtba) (hcpuid : k.prid < 4)
    (hpm : isValidPm k.common.pm = true) (hmap : WellFormedMap live k) :
    ∃ j, getSysStructInfo k.prid k.common.pm = some j ∧
      ((∃ k', moveTaskSpaces k = .ok () k' ∧ Migrated live (k.sysStructTop j) k k') ↔
        ∀ i ∈ vacated (k.sysStructTop j), k.held .smpQueueLock = false ∧ ¬ InUse k i) := by
  obtain ⟨j, hj, -⟩ := getSysStructInfo_valid hcpuid hpm
  have hpos : 0 < numMapId (k.sysStructTop j) := by
    rw [hsys]
    exact Nat.lt_of_lt_of_le (by decide) (entry_scans baseTtba j).1
  refine ⟨j, hj, ?_⟩
  rw [moveTaskSpaces_eq hj]
  constructor
  · rintro ⟨k', hok, -⟩
    exact forM_moveTaskSpacesPass_ok hj hpos hok
  · intro hfree
    exact ⟨_, forM_moveTaskSpacesPass_free hfree, .of_free hmap (fun i hi => (hfree i hi).2) _⟩

/-! ## Core 1 -/

/-- The kernel at boot on core 1 in AMP mode, whose partition has the slots from 48 on, with
task 8 in one slot. -/
def oneTask (slot : ℕ) : Kernel := { atBoot.onCore 1 with
  common := { atBoot.common with pm := 0xF }
  smpTskAlcMap := fun i => if i = slot then ⟨RUNNING_MAP, 8⟩ else ⟨INIT_MAP, NULL⟩
  tcb := fun _ => ⟨TASK_STATE_RUNNING, 0, .ofNat 32 slot, mapBase slot, 0, 8, 8, NULL⟩ }

lemma oneTask_inUse (slot i : ℕ) : InUse (oneTask slot) i ↔ i = slot := by
  by_cases hi : i = slot <;>
    simp [InUse, oneTask, hi, RUNNING_MAP, INIT_MAP]

lemma oneTask_wellFormed (slot : ℕ) : WellFormedMap {8} (oneTask slot) := by
  have htask : ∀ i, InUse (oneTask slot) i → ((oneTask slot).smpTskAlcMap i).task = 8 := by
    intro i hi
    rw [(oneTask_inUse slot i).mp hi]
    simp [oneTask]
  refine ⟨htask, fun i i' hi hi' _ => ?_, fun i hi => ?_, fun i hi => ?_⟩
  · rw [(oneTask_inUse slot i).mp hi, (oneTask_inUse slot i').mp hi']
  all_goals
    rw [(oneTask_inUse slot i).mp hi]
    rfl

/-- With the task in slot 3 there is nothing to move. -/
theorem move_task_spaces_migrates_iff_slot3 : ∃ j k', moveTaskSpaces (oneTask 3) = .ok () k' ∧
    Migrated {8} ((oneTask 3).sysStructTop j) (oneTask 3) k' := by
  obtain ⟨j, hj, hiff⟩ := move_task_spaces_migrates_iff
    (show (oneTask 3).sysStructTop = initSysinfos TTBA_BASE from rfl) (by decide) (by decide)
    (oneTask_wellFormed 3)
  obtain rfl : j = 1 := Option.some.inj (hj.symm.trans (show _ = some 1 by decide))
  refine ⟨1, hiff.mpr fun i hi => ⟨rfl, fun huse => ?_⟩⟩
  have hrange : vacated ((oneTask 3).sysStructTop 1) = List.range' 48 127 :=
    (entry_scans TTBA_BASE 1).2.2.2 rfl
  rw [hrange, List.mem_range'_1] at hi
  rw [oneTask_inUse] at huse
  omega

/-- As many slots of those `move_task_space` scans are free outside the partition as are in use
inside it. -/
def EnoughRoom (k : Kernel) (ssi : SysStructInfo) : Prop :=
  ((vacated ssi).filter fun i => (k.smpTskAlcMap i).state ≠ INIT_MAP).length ≤
    ((List.range (numMapId ssi)).filter fun i =>
      i ∉ vacated ssi ∧ (k.smpTskAlcMap i).state = INIT_MAP).length

/-- The task in slot 48 is not moved. -/
theorem move_task_spaces_spins : ¬ ∀ (k : Kernel) (live : Set Word) (j : Fin NUM_SYS_STRUCT),
    (∃ baseTtba, k.sysStructTop = initSysinfos baseTtba) → k.prid < 4 →
      isValidPm k.common.pm = true → getSysStructInfo k.prid k.common.pm = some j →
      k.held .smpQueueLock = false → WellFormedMap live k → EnoughRoom k (k.sysStructTop j) →
      ∃ k', moveTaskSpaces k = .ok () k' ∧ Migrated live (k.sysStructTop j) k k' := by
  intro hclaim
  have hj : getSysStructInfo (oneTask 48).prid (oneTask 48).common.pm = some 1 := by decide
  have hrange : vacated ((oneTask 48).sysStructTop 1) = List.range' 48 127 :=
    (entry_scans TTBA_BASE 1).2.2.2 rfl
  have hroom : EnoughRoom (oneTask 48) ((oneTask 48).sysStructTop 1) := by
    unfold EnoughRoom
    rw [hrange]
    decide
  obtain ⟨k', hok, -⟩ := hclaim (oneTask 48) {8} 1 ⟨TTBA_BASE, rfl⟩ (by decide) (by decide) hj rfl
    (oneTask_wellFormed 48) hroom
  rw [moveTaskSpaces_eq hj] at hok
  have hpos : 0 < numMapId ((oneTask 48).sysStructTop 1) := by decide
  have hmem : 48 ∈ vacated ((oneTask 48).sysStructTop 1) := by
    rw [hrange]
    decide
  exact (forM_moveTaskSpacesPass_ok hj hpos hok 48 hmem).2 ((oneTask_inUse 48 48).mpr rfl)

end Kernel

end Rpi2Baremetal
