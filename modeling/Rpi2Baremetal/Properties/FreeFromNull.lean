import Rpi2Baremetal.Properties.HeapRefinement
import Rpi2Baremetal.Model.Kernel

/-!
# `kfree` with a free list that begins at `NULL`

`init_sysinfos` sets `kernel_heap_freep` to `NULL`, so `kfree` looks for the place of a block from
address 0 on and takes words 0 and 4, where the vectors are, for the header of the first block.
The code of a vector is above the addresses of every heap, so that the search ends at once: word 0
becomes the address of the block.
-/

namespace Rpi2Baremetal

open Framework

variable {m m' m₁ m₂ : Mem} {p q c t : Word} {fuel : ℕ}

/-- The word lies in a kernel heap. -/
def InKernelHeap (a : Word) : Prop := ∃ i, (kheapAreas i).Contains a

lemma InKernelHeap.bounds (h : InKernelHeap p) : 0x20000000 ≤ p.toNat ∧ p.toNat < 0x39000000 := by
  have hall : ∀ i, 0x20000000 ≤ (kheapAreas i).bottom.toNat ∧
      (kheapAreas i).limit.toNat < 0x39000000 := by decide
  obtain ⟨i, hbottom, hlimit⟩ := h
  obtain ⟨h1, h2⟩ := hall i
  rw [BitVec.le_def] at hbottom hlimit
  omega

/-! ## What `_free` writes -/

lemma freeUpper_of_ne (h : q ≠ p) (h4 : q ≠ p + 4) (prevp : Word) :
    freeUpper m p prevp q = m q := by
  unfold freeUpper
  split_ifs
  · exact (Memory.write_of_ne _ _ h).trans (Memory.write_of_ne _ _ h4)
  · exact Memory.write_of_ne _ _ h

lemma freeLower_of_ne {prevp : Word} (h : q ≠ prevp) (h4 : q ≠ prevp + 4) :
    freeLower m p prevp q = m q := by
  unfold freeLower
  split_ifs
  · exact (Memory.write_of_ne _ _ h).trans (Memory.write_of_ne _ _ h4)
  · exact Memory.write_of_ne _ _ h

/-- The block goes behind address 0 if word 0 is 0 or is above the block. -/
lemma free_null_eq (hp : NULL < p) (hfirst : p < m 0 ∨ m 0 = 0)
    (h : free fuel m NULL (p + 8) = some m') : m' = freeLower (freeUpper m p NULL) p NULL := by
  have hblock : p + 8 - HEAP_UNIT_SIZE = p := BitVec.add_sub_cancel p 8
  obtain ⟨prevp, hrun, rfl⟩ := Option.map_eq_some_iff.mp h
  rw [hblock] at hrun ⊢
  have hleave : Loop.Returns (freePass m p) NULL NULL :=
    freePass_leave hp (hfirst.imp_right fun h0 => by
      rw [show ptr m NULL = 0 from h0]
      exact Nat.zero_le _)
  rw [Loop.Returns.unique ⟨fuel, hrun⟩ hleave]

/-- Word 0 becomes the address of the block, which gets the old word 0 for a successor unless it
ends there. -/
lemma free_null_links (hp : InKernelHeap p) (hfirst : p < m 0 ∨ m 0 = 0)
    (hsize : hdrAdd NULL (m 4) ≠ p) (h : free fuel m NULL (p + 8) = some m') :
    m' 0 = p ∧ m' 4 = m 4 ∧ (hdrAdd p (size m p) ≠ m 0 → m' p = m 0) := by
  have hbounds := hp.bounds
  have hnull : NULL < p := by
    rw [BitVec.lt_def, show NULL.toNat = 0 from rfl]
    omega
  have hne : ∀ a : Word, a.toNat < 8 → a ≠ p ∧ a ≠ p + 4 := by
    intro a ha
    constructor <;> rintro rfl
    · omega
    · rw [BitVec.toNat_add, show (4 : Word).toNat = 4 from rfl] at ha
      omega
  have hupper4 : freeUpper m p NULL 4 = m 4 :=
    freeUpper_of_ne (hne 4 (by decide)).1 (hne 4 (by decide)).2 NULL
  have hlower : freeLower (freeUpper m p NULL) p NULL = setPtr (freeUpper m p NULL) NULL p := by
    rw [freeLower, if_neg]
    rwa [show size (freeUpper m p NULL) NULL = freeUpper m p NULL 4 from rfl, hupper4]
  rw [free_null_eq hnull hfirst h, hlower]
  refine ⟨Memory.write_same .., ?_, fun hend => ?_⟩
  · exact (Memory.write_of_ne _ _ (by decide)).trans hupper4
  · refine (Memory.write_of_ne _ _ (hne 0 (by decide)).1.symm).trans ?_
    rw [freeUpper, if_neg (show hdrAdd p (size m p) ≠ ptr m NULL from hend)]
    exact Memory.write_same ..

/-- A second block goes behind address 0 or behind the first. -/
lemma free_null_second (ht : InKernelHeap t) (hc : InKernelHeap c) (hne : t ≠ c) (hword : m 0 = c)
    (hnext : t < m c ∨ m c = 0) (hsize : hdrAdd NULL (m 4) ≠ t)
    (h : free fuel m NULL (t + 8) = some m') : m' 0 = c ∨ m' 0 = t := by
  by_cases hlt : t < c
  · exact .inr (free_null_links ht (.inl (hword ▸ hlt)) hsize h).1
  · left
    have hbounds := ht.bounds
    have hbounds' := hc.bounds
    have hct : c < t := by
      have hne' : t.toNat ≠ c.toNat := fun he => hne (BitVec.eq_of_toNat_eq he)
      rw [BitVec.lt_def] at hlt ⊢
      omega
    have hblock : t + 8 - HEAP_UNIT_SIZE = t := BitVec.add_sub_cancel t 8
    obtain ⟨prevp, hrun, rfl⟩ := Option.map_eq_some_iff.mp h
    rw [hblock] at hrun ⊢
    -- the search passes over address 0 and ends at the first block
    have hagain : freePass m t NULL = .again c := by
      have hptr : ptr m NULL = c := hword
      have h1 : ¬ (NULL < t ∧ t < c) := fun hand => hlt hand.2
      have h2 : ¬ (c ≤ NULL ∧ (NULL < t ∨ t < c)) := by
        rintro ⟨hle, -⟩
        rw [BitVec.le_def, show NULL.toNat = 0 from rfl] at hle
        omega
      simp [freePass, hptr, h1, h2]
    have hleave : Loop.Returns (freePass m t) NULL c :=
      Loop.returns_of_again hagain (freePass_leave hct (hnext.imp_right fun h0 => by
        rw [show ptr m c = 0 from h0]
        exact Nat.zero_le _))
    rw [Loop.Returns.unique ⟨fuel, hrun⟩ hleave]
    have hzero : ∀ b : Word, InKernelHeap b → (0 : Word) ≠ b ∧ (0 : Word) ≠ b + 4 := by
      intro b hb
      have hb' := hb.bounds
      constructor <;> rintro he <;> have hnat := congrArg BitVec.toNat he
      · rw [show (0 : Word).toNat = 0 from rfl] at hnat
        omega
      · rw [BitVec.toNat_add, show (0 : Word).toNat = 0 from rfl,
          show (4 : Word).toNat = 4 from rfl] at hnat
        omega
    rw [freeLower_of_ne (hzero c hc).1 (hzero c hc).2,
      freeUpper_of_ne (hzero t ht).1 (hzero t ht).2, hword]

/-- Two blocks given back one after the other: word 0 is the address of one of them. -/
lemma free_null_twice (hc : InKernelHeap c) (ht : InKernelHeap t) (hne : t ≠ c)
    (hfirst : (∀ p, InKernelHeap p → p < m 0) ∨ m 0 = 0)
    (hsize : ∀ p, InKernelHeap p → hdrAdd NULL (m 4) ≠ p) (hend : hdrAdd c (size m c) ≠ m 0)
    (h₁ : free fuel m NULL (c + 8) = some m₁) (h₂ : free fuel m₁ NULL (t + 8) = some m₂) :
    m₂ 0 = c ∨ m₂ 0 = t := by
  obtain ⟨hword, hword4, hnext⟩ :=
    free_null_links hc (hfirst.imp_left fun h => h c hc) (hsize c hc) h₁
  refine free_null_second ht hc hne hword ?_ ?_ h₂
  · rw [hnext hend]
    exact hfirst.imp_left fun h => h t ht
  · rw [hword4]
    exact hsize t ht

end Rpi2Baremetal
