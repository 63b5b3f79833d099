import Rpi2Baremetal.Framework.Transition
import Rpi2Baremetal.Model.Kernel
import Rpi2Baremetal.Properties.HeapRefinement
import Rpi2Baremetal.Properties.KernelOps
import Rpi2Baremetal.Properties.Modes

/-!
# The kernel heap never allocates

`init_sysinfos` leaves `kernel_heap_freep` `NULL`, and `kmalloc` hands it to `_malloc` by value
and stores nothing back.  So every call takes the branch of `_malloc` that sets up an empty
free list, finds nothing in it and returns `NULL`: no block is ever live, and a request that
fits the heap area fails like any other.
-/

namespace Rpi2Baremetal

namespace Kernel

open Framework

/-- A result of `kmalloc` that has not been freed: its address and the size asked for. -/
structure LiveBlock where
  ptr : Word
  nbytes : Word

/-- The units of a request, header included, in exact integers. -/
def roundedUnits (nbytes : Word) : ℕ := (nbytes.toNat + 7) / 8 + 1

/-- The units a live block occupies. -/
def LiveBlock.block (b : LiveBlock) : Block := ⟨b.ptr.toNat - 8, roundedUnits b.nbytes⟩

structure KernelHeap where
  kernel : Kernel
  live : List LiveBlock

inductive KernelHeapCall where
  | kmalloc (nbytes : Word)
  | kfree (ap : Word)
  | changePm (pm : Word)

/-- One call on core `cpuid`. -/
inductive KernelHeapStep : KernelHeap → Word × KernelHeapCall → KernelHeap → Prop
  | null {s : KernelHeap} {cpuid nbytes : Word} {fuel : ℕ} {k' : Kernel} :
      cpuid < 4 → kmalloc fuel nbytes (s.kernel.onCore cpuid) = some (k', none) →
      KernelHeapStep s (cpuid, .kmalloc nbytes) ⟨k', s.live⟩
  | kmalloc {s : KernelHeap} {cpuid nbytes ap : Word} {fuel : ℕ} {k' : Kernel} :
      cpuid < 4 → kmalloc fuel nbytes (s.kernel.onCore cpuid) = some (k', some ap) →
      KernelHeapStep s (cpuid, .kmalloc nbytes) ⟨k', ⟨ap, nbytes⟩ :: s.live⟩
  | kfree {s : KernelHeap} {cpuid : Word} {b : LiveBlock} {live : List LiveBlock} {fuel : ℕ}
      {k' : Kernel} :
      cpuid < 4 → s.live.Perm (b :: live) → kfree fuel b.ptr (s.kernel.onCore cpuid) = some k' →
      KernelHeapStep s (cpuid, .kfree b.ptr) ⟨k', live⟩
  | changePm {s : KernelHeap} {cpuid pm r : Word} {k' : Kernel} :
      cpuid < 4 → isValidPm pm = true → changePm pm (s.kernel.onCore cpuid) = .ok r k' →
      KernelHeapStep s (cpuid, .changePm pm) ⟨k', s.live⟩

/-- The state `init_sysinfos` leaves. -/
structure KernelHeap.Initial (s : KernelHeap) : Prop where
  sysinfos : ∃ baseTtba, s.kernel.sysStructTop = initSysinfos baseTtba
  pm : isValidPm s.kernel.common.pm = true
  live : s.live = []

/-! ## What a call should do -/

/-- A request fits in a contiguous part of the heap area of entry `i` that no live block
covers. -/
def Fits (s : KernelHeap) (i : Fin NUM_SYS_STRUCT) (nbytes : Word) : Prop :=
  ∃ start, (kheapAreas i).bottom.toNat ≤ start ∧
    start + 8 * roundedUnits nbytes ≤ (kheapAreas i).limit.toNat + 1 ∧
    ∀ b ∈ s.live, Block.Disjoint 8 ⟨start, roundedUnits nbytes⟩ b.block

/-- `kmalloc` on core `cpuid` returns, with a block of the caller's heap area disjoint from
every live one if the request fits, and writes no word outside the area. -/
def KmallocAllocates (s : KernelHeap) (cpuid nbytes : Word) : Prop :=
  ∃ i fuel k' r, getSysStructInfo cpuid s.kernel.common.pm = some i ∧
    kmalloc fuel nbytes (s.kernel.onCore cpuid) = some (k', r) ∧
    (Fits s i nbytes → ∃ ap, r = some ap ∧ (kheapAreas i).Contains ap ∧
      ∀ b ∈ s.live, Block.Disjoint 8 (LiveBlock.block ⟨ap, nbytes⟩) b.block) ∧
    ∀ a, ¬ (kheapAreas i).Contains a → k'.mem a = s.kernel.mem a

/-! ## What a call does -/

/-- The free list `_malloc` sets up when it is given no head. -/
def emptyFreeList (m : Mem) (base : Word) : Mem := setSize (setPtr m base base) base 0

lemma mallocPass_emptyFreeList (m : Mem) (base nbytes : Word) :
    mallocPass (emptyFreeList m base) base (mallocUnits nbytes)
        (base, ptr (emptyFreeList m base) base) = .leave (emptyFreeList m base, none) := by
  have hne : base ≠ base + 4 := by
    intro h
    have := congrArg BitVec.toNat h
    simp only [BitVec.toNat_add, show (4 : Word).toNat = 4 from rfl] at this
    omega
  have hptr : ptr (emptyFreeList m base) base = base := by
    rw [ptr, emptyFreeList, setSize, Memory.write_of_ne _ _ hne, setPtr, Memory.write_same]
  have hsize : size (emptyFreeList m base) base = 0 := by
    rw [size, emptyFreeList, setSize, Memory.write_same]
  have hbig : ¬ mallocUnits nbytes ≤ 0 := by
    have hone := one_le_mallocUnits nbytes
    rw [BitVec.le_def]
    exact Nat.not_le.mpr hone
  simp only [mallocPass, hptr, hsize, if_neg hbig, if_true]

/-- Without a head `_malloc` returns `NULL` and writes the header of its `base`. -/
lemma malloc_null (fuel : ℕ) (m : Mem) (base nbytes : Word) :
    malloc (fuel + 1) m base NULL nbytes = some (emptyFreeList m base, none) :=
  Loop.run_succ_of_leave (mallocPass_emptyFreeList m base nbytes) fuel

section Step

variable {s s' : KernelHeap} {cpuid : Word} {i : Fin NUM_SYS_STRUCT}

/-- `kmalloc` returns `NULL` whatever it is asked for. -/
lemma kmalloc_null (hi : getSysStructInfo cpuid s.kernel.common.pm = some i) {baseTtba : Word}
    (htop : s.kernel.sysStructTop = initSysinfos baseTtba) (fuel : ℕ) (nbytes : Word) :
    kmalloc (fuel + 1) nbytes (s.kernel.onCore cpuid) =
      some ({ s.kernel.onCore cpuid with
        mem := emptyFreeList s.kernel.mem (kheapAreas i).bottom }, none) := by
  have hi' : getSysStructInfo (s.kernel.onCore cpuid).prid (s.kernel.onCore cpuid).common.pm
      = some i := hi
  have htop' : (s.kernel.onCore cpuid).sysStructTop = initSysinfos baseTtba := htop
  simp only [kmalloc, hi', htop', initSysinfos, Option.bind_eq_bind, Option.bind_some,
    malloc_null]
  rfl

/-- The invariant of the kernel heap: its entries are as they were set up, and nothing is
live. -/
structure KernelHeap.Inv (s : KernelHeap) : Prop where
  sysinfos : ∃ baseTtba, s.kernel.sysStructTop = initSysinfos baseTtba
  pm : isValidPm s.kernel.common.pm = true
  live : s.live = []

lemma KernelHeap.Inv.kmalloc (h : s.Inv) {cpuid nbytes : Word} (hc : cpuid < 4) {fuel : ℕ}
    {k' : Kernel} {r : Option Word}
    (hk : kmalloc fuel nbytes (s.kernel.onCore cpuid) = some (k', r)) :
    r = none ∧ KernelHeap.Inv ⟨k', s.live⟩ := by
  obtain ⟨baseTtba, htop⟩ := h.sysinfos
  obtain ⟨i, hi, -⟩ := getSysStructInfo_valid hc h.pm
  cases fuel with
  | zero =>
      have hi' : getSysStructInfo (s.kernel.onCore cpuid).prid
          (s.kernel.onCore cpuid).common.pm = some i := hi
      have htop' : (s.kernel.onCore cpuid).sysStructTop = initSysinfos baseTtba := htop
      simp [Kernel.kmalloc, hi', htop', initSysinfos, malloc] at hk
  | succ fuel =>
      rw [kmalloc_null hi htop] at hk
      obtain ⟨rfl, rfl⟩ := Prod.mk.inj (Option.some.inj hk)
      exact ⟨rfl, ⟨baseTtba, htop⟩, h.pm, h.live⟩

lemma KernelHeap.Inv.step (h : s.Inv) {c : Word × KernelHeapCall}
    (hs : KernelHeapStep s c s') : s'.Inv := by
  cases hs with
  | null hc hk => exact (h.kmalloc hc hk).2
  | kmalloc hc hk => exact absurd (h.kmalloc hc hk).1 (by simp)
  | kfree hc hperm hk =>
      rw [h.live] at hperm
      exact absurd hperm.symm.eq_nil (by simp)
  | changePm hc hpm hk =>
      obtain rfl := changePm_cases hk
      exact ⟨h.sysinfos, hpm, h.live⟩

/-- The header `_malloc` writes lies in the heap area. -/
lemma emptyFreeList_outside (m : Mem) (i : Fin NUM_SYS_STRUCT) {a : Word}
    (ha : ¬ (kheapAreas i).Contains a) :
    emptyFreeList m (kheapAreas i).bottom a = m a := by
  have hin : ∀ i, (kheapAreas i).Contains (kheapAreas i).bottom ∧
      (kheapAreas i).Contains ((kheapAreas i).bottom + 4) := by decide
  have h0 : a ≠ (kheapAreas i).bottom := fun h => ha (h ▸ (hin i).1)
  have h4 : a ≠ (kheapAreas i).bottom + 4 := fun h => ha (h ▸ (hin i).2)
  rw [emptyFreeList, setSize, Memory.write_of_ne _ _ h4, setPtr, Memory.write_of_ne _ _ h0]

/-- A call of `kmalloc` does what it should exactly when the request does not fit. -/
lemma KernelHeap.Inv.kmallocAllocates_iff (h : s.Inv) (hc : cpuid < 4)
    (hi : getSysStructInfo cpuid s.kernel.common.pm = some i) (nbytes : Word) :
    KmallocAllocates s cpuid nbytes ↔ ¬ Fits s i nbytes := by
  obtain ⟨baseTtba, htop⟩ := h.sysinfos
  constructor
  · rintro ⟨j, fuel, k', r, hj, hk, hfit, -⟩ hno
    obtain rfl := Option.some.inj (hi.symm.trans hj)
    obtain ⟨ap, hr, -⟩ := hfit hno
    have := (h.kmalloc hc hk).1
    rw [hr] at this
    exact absurd this (by simp)
  · intro hno
    refine ⟨i, 1, _, none, hi, kmalloc_null hi htop 0 nbytes, fun hfit => absurd hfit hno, ?_⟩
    intro a ha
    exact emptyFreeList_outside _ i ha

end Step

/-- **The kernel heap.**  In every state that calls of `kmalloc`, `kfree` and `change_pm` on
any cores lead to from the state `init_sysinfos` leaves, and for the next call on any core:
`kmalloc` does what it should if and only if the request does not fit in the unused part of
the heap area.  No block is ever live, so there is nothing to give to `kfree`. -/
theorem kmalloc_allocates_iff {s s' : KernelHeap} {cs : List (Word × KernelHeapCall)}
    (h0 : s.Initial) (hr : Run KernelHeapStep s cs s') {cpuid : Word} (hc : cpuid < 4) :
    s'.live = [] ∧ ∃ i, getSysStructInfo cpuid s'.kernel.common.pm = some i ∧
      ∀ nbytes, KmallocAllocates s' cpuid nbytes ↔ ¬ Fits s' i nbytes := by
  have hinv : s'.Inv := hr.invariant (fun _ _ _ h hs => h.step hs) ⟨h0.sysinfos, h0.pm, h0.live⟩
  obtain ⟨i, hi, -⟩ := getSysStructInfo_valid hc hinv.pm
  exact ⟨hinv.live, i, hi, fun nbytes => hinv.kmallocAllocates_iff hc hi nbytes⟩

lemma atBoot_initial : KernelHeap.Initial ⟨atBoot, []⟩ := ⟨⟨TTBA_BASE, rfl⟩, rfl, rfl⟩

/-- A request for more than the whole heap may fail. -/
theorem kmalloc_allocates_iff_boot : KmallocAllocates ⟨atBoot, []⟩ PCore 0xFFFFFFFF := by
  obtain ⟨-, i, hi, hiff⟩ := kmalloc_allocates_iff atBoot_initial (.nil _)
    (show PCore < 4 by decide)
  refine (hiff _).mpr ?_
  rintro ⟨start, -, hle, -⟩
  have hlimit := (kheapAreas i).limit.isLt
  have hunits : 8 * roundedUnits 0xFFFFFFFF = 2 ^ 32 + 8 := rfl
  omega

/-- The first `kmalloc (8)` fails, with 32MB of heap unused. -/
theorem kmalloc_fails_at_boot :
    ¬ ∀ (s s' : KernelHeap) (cs : List (Word × KernelHeapCall)) (cpuid nbytes : Word),
      s.Initial → Run KernelHeapStep s cs s' → cpuid < 4 →
      KmallocAllocates s' cpuid nbytes := by
  intro hclaim
  have hboot := hclaim ⟨atBoot, []⟩ _ [] PCore 8 atBoot_initial (.nil _) (by decide)
  have hinv : KernelHeap.Inv ⟨atBoot, []⟩ := ⟨⟨TTBA_BASE, rfl⟩, rfl, rfl⟩
  have hfits : Fits ⟨atBoot, []⟩ 4 8 := ⟨0x22000000, le_rfl, by decide, by simp⟩
  exact (hinv.kmallocAllocates_iff (by decide) rfl 8).mp hboot hfits

end Kernel

end Rpi2Baremetal
