import Rpi2Baremetal.Framework.Triple
import Rpi2Baremetal.Model.Kernel
import Mathlib.Tactic

/-!
# What the operations of the kernel do

One lemma for each operation on the kernel state that later proofs evaluate, and for
`change_pm`.
-/

namespace Rpi2Baremetal

namespace Kernel

open Framework

/-- The kernel at boot, with all RAM 0. -/
def atBoot : Kernel where
  prid := PCore
  held _ := false
  common := ⟨ALL_SMP_MODE, ALL_SMP_MODE, TTBA_BASE, 0, fun _ => UNUSED_ASID⟩
  sysStructTop := initSysinfos TTBA_BASE
  smpTskAlcMap _ := ⟨0, NULL⟩
  mapAddress := NULL
  mapEntries := 0
  tcb _ := ⟨0, 0, 0, 0, 0, NULL, NULL, NULL⟩
  context _ := ⟨0, 0⟩
  freed := []
  tlbOps := []
  mapAccesses := []
  mem _ := 0

variable {k : Kernel}

lemma bind_ok {α β : Type} {x : KernelM α} {f : α → KernelM β} {a : α} {k' : Kernel}
    (h : x k = .ok a k') : (x >>= f) k = f a k' := by
  show EStateM.bind x f k = f a k'
  rw [EStateM.bind, h]

lemma bind_error {α β : Type} {x : KernelM α} {f : α → KernelM β} {e : Halt} {k' : Kernel}
    (h : x k = .error e k') : (x >>= f) k = .error e k' := by
  show EStateM.bind x f k = .error e k'
  rw [EStateM.bind, h]

lemma spinReq_free {lock : LockWord} (h : k.held lock = false) :
    spinReq lock k = .ok () { k with held := Function.update k.held lock true } := by
  simp [spinReq, h]

lemma spinReq_held {lock : LockWord} (h : k.held lock = true) :
    spinReq lock k = .error (.spins lock) k := by
  simp [spinReq, h]

lemma spinRel_held {lock : LockWord} (h : k.held lock = true) :
    spinRel lock k = .ok () { k with held := Function.update k.held lock false } := by
  simp [spinRel, h]

lemma readMap_ok (i : ℕ) (k : Kernel) :
    readMap i k = .ok (k.smpTskAlcMap i) { k with mapAccesses := i :: k.mapAccesses } := rfl

lemma ssiIndex_ok {cpuid pm : Word} {i : Fin NUM_SYS_STRUCT}
    (h : getSysStructInfo cpuid pm = some i) : ssiIndex cpuid pm k = .ok i k := by
  rw [ssiIndex, h]
  rfl

lemma ssiIndex_none {cpuid pm : Word} (h : getSysStructInfo cpuid pm = none) :
    ssiIndex cpuid pm k = .error .outOfBounds k := by
  rw [ssiIndex, h]
  rfl

/-- Releasing a lock that was free undoes the request. -/
lemma update_held {lock : LockWord} (h : k.held lock = false) :
    Function.update k.held lock false = k.held := by
  rw [← h, Function.update_eq_self]

/-! ## Scans of the map -/

section Scans

variable {pass : ℕ → KernelM Unit} {l : List ℕ}

/-- A scan whose passes only look at their slots. -/
lemma forM_looks (hpass : ∀ i ∈ l, ∀ accesses, pass i { k with mapAccesses := accesses }
      = .ok () { k with mapAccesses := i :: accesses }) :
    forM l pass k = .ok () { k with mapAccesses := l.reverse ++ k.mapAccesses } := by
  let looked : List ℕ → Kernel := fun done =>
    { k with mapAccesses := done.reverse ++ k.mapAccesses }
  have hstep : ∀ done i rest, l = done ++ i :: rest → ∀ k', k' = looked done →
      ∃ k₁, pass i k' = .ok () k₁ ∧ k₁ = looked (done ++ [i]) := by
    rintro done i rest hl _ rfl
    refine ⟨_, hpass i (by simp [hl]) _, ?_⟩
    simp only [looked, List.reverse_append, List.append_assoc]
    rfl
  obtain ⟨k', hok, rfl⟩ := forM_returns (I := fun done k' => k' = looked done) rfl hstep
  exact hok

/-- A scan that ends has only looked, if each of its passes halts or only looks. -/
lemma forM_looks_of_ok {Free : ℕ → Prop} {k' : Kernel}
    (hpass : ∀ i accesses, Free i ∧ pass i { k with mapAccesses := accesses }
        = .ok () { k with mapAccesses := i :: accesses } ∨
      ∃ e k₁, pass i { k with mapAccesses := accesses } = .error e k₁)
    (hok : forM l pass k = .ok () k') : ∀ i ∈ l, Free i := by
  have hscan : ∀ accesses, forM l pass { k with mapAccesses := accesses } = .ok () k' →
      ∀ i ∈ l, Free i := by
    clear hok
    induction l with
    | nil => exact fun _ _ i hi => absurd hi List.not_mem_nil
    | cons i l ih =>
        intro accesses hok
        rw [List.forM_cons] at hok
        rcases hpass i accesses with ⟨hfree, hlook⟩ | ⟨e, k₁, herror⟩
        · rw [bind_ok hlook] at hok
          exact List.forall_mem_cons.mpr ⟨hfree, ih _ hok⟩
        · rw [bind_error herror] at hok
          cases hok
  exact hscan k.mapAccesses hok

end Scans

lemma changePm_free (pm : Word) (h : k.held .sysCommonLock = false) :
    changePm pm k
      = .ok 1 { k with common := { k.common with prevPm := k.common.pm, pm := pm } } := by
  simp [changePm, spinReq, spinRel, modifyCommon, bind, EStateM.bind, pure, EStateM.pure, h,
    update_held h]

lemma changePm_held (pm : Word) (h : k.held .sysCommonLock = true) :
    changePm pm k = .error (.spins .sysCommonLock) k := by
  simp [changePm, spinReq, bind, EStateM.bind, h]

/-- What a call of `change_pm` that returns has done. -/
lemma changePm_cases {pm r : Word} {k' : Kernel} (h : changePm pm k = .ok r k') :
    k' = { k with common := { k.common with prevPm := k.common.pm, pm := pm } } := by
  cases hheld : k.held .sysCommonLock with
  | true =>
      rw [changePm_held pm hheld] at h
      cases h
  | false =>
      rw [changePm_free pm hheld] at h
      cases h
      rfl

/-- `change_pm` changes `SysCommonInfo` only. -/
lemma lastState_changePm (pm : Word) (k : Kernel) :
    ∃ c, lastState (changePm pm) k = { k with common := c } := by
  cases hheld : k.held .sysCommonLock with
  | true => exact ⟨k.common, lastState_error (changePm_held pm hheld)⟩
  | false => exact ⟨_, lastState_ok (changePm_free pm hheld)⟩

end Kernel

end Rpi2Baremetal
