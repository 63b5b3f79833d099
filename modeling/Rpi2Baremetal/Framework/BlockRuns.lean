import Rpi2Baremetal.Framework.Blocks

/-!
# Runs of free units

A region is a row of units, each of them free or not.  `IsRun F i n` says that the `n` units
from `i` on are a maximal run of the units that meet `F`, and `Runs F rs` that `rs` lists all
maximal runs in order; there is one such list only (`Runs.unique`).

`BlockHeap.Canonical` is the invariant of an allocator that merges what it can: blocks begin at
units, no two free blocks touch, and every unit is in some block.  Both heap operations keep it,
and the free blocks of a canonical heap are the maximal runs of the units that are not in a
live block (`Canonical.runs`).  So the free list is a function of the live blocks.
-/

namespace Framework

/-! ## Maximal runs -/

/-- The `n` units from `i` on are a maximal run of units that meet `F`. -/
structure IsRun (F : ℕ → Prop) (i n : ℕ) : Prop where
  positive : 0 < n
  all : ∀ j, i ≤ j → j < i + n → F j
  left : ∀ j, j + 1 = i → ¬ F j
  right : ¬ F (i + n)

/-- `rs` lists the maximal runs of units that meet `F` from left to right, each as its first
unit and its length. -/
structure Runs (F : ℕ → Prop) (rs : List (ℕ × ℕ)) : Prop where
  sorted : rs.Pairwise fun r r' => r.1 < r'.1
  mem_iff : ∀ r, r ∈ rs ↔ IsRun F r.1 r.2

variable {F F' : ℕ → Prop}

/-- Maximal runs that share a unit are the same. -/
lemma IsRun.eq {i n i' n' k : ℕ} (h : IsRun F i n) (h' : IsRun F i' n') (hk : i ≤ k)
    (hkn : k < i + n) (hk' : i' ≤ k) (hkn' : k < i' + n') : i = i' ∧ n = n' := by
  have hstart : ∀ {i n i' n' : ℕ}, IsRun F i n → IsRun F i' n' → i ≤ k → k < i' + n' →
      ¬ i' < i := by
    intro i n i' n' h h' hk hkn' hlt
    exact h.left (i - 1) (by omega) (h'.all (i - 1) (by omega) (by omega))
  have hend : ∀ {i n i' n' : ℕ}, IsRun F i n → IsRun F i' n' → i' ≤ k → k < i + n →
      ¬ i + n < i' + n' := by
    intro i n i' n' h h' hk' hkn hlt
    exact h.right (h'.all (i + n) (by omega) hlt)
  have h1 := hstart h h' hk hkn'
  have h2 := hstart h' h hk' hkn
  have h3 := hend h h' hk' hkn
  have h4 := hend h' h hk hkn'
  omega

/-- There is only one list of the maximal runs. -/
lemma Runs.unique {rs rs' : List (ℕ × ℕ)} (h : Runs F rs) (h' : Runs F rs') : rs = rs' := by
  have hanti : Std.Antisymm fun r r' : ℕ × ℕ => r.1 < r'.1 :=
    ⟨fun _ _ hlt hgt => absurd hlt (Nat.lt_asymm hgt)⟩
  have hirrefl : Std.Irrefl fun r r' : ℕ × ℕ => r.1 < r'.1 := ⟨fun _ => lt_irrefl _⟩
  exact h.sorted.eq_of_mem_iff h'.sorted fun r => (h.mem_iff r).trans (h'.mem_iff r).symm

/-! ## Blocks that do not touch, and what they cover -/

section Lists

variable {u : ℕ} {b c : Block} {bs cs fs : List Block} {n x : ℕ}

/-- `a` ends before `b` begins, and the two do not touch. -/
def Block.Gap (u : ℕ) (a b : Block) : Prop := a.stop u < b.start

/-- The address `x` is in one of the blocks. -/
def Covers (u : ℕ) (bs : List Block) (x : ℕ) : Prop := ∃ b ∈ bs, b.Contains u x

@[simp] lemma covers_nil : ¬ Covers u [] x := by simp [Covers]

@[simp] lemma covers_cons : Covers u (b :: bs) x ↔ b.Contains u x ∨ Covers u bs x := by
  simp [Covers]

@[simp] lemma covers_append : Covers u (bs ++ cs) x ↔ Covers u bs x ∨ Covers u cs x := by
  simp [Covers, or_and_right, exists_or]

lemma covers_perm (h : bs.Perm cs) : Covers u bs x ↔ Covers u cs x := by
  simp only [Covers, h.mem_iff]

lemma contains_join (h : b.stop u = c.start) :
    (join b c).Contains u x ↔ b.Contains u x ∨ c.Contains u x := by
  rw [Block.Contains, stop_join h]
  simp only [join, Block.Contains, Block.stop] at h ⊢
  omega

lemma covers_consJoin : Covers u (consJoin u b cs) x ↔ b.Contains u x ∨ Covers u cs x := by
  cases cs with
  | nil => simp [consJoin]
  | cons c cs =>
      simp only [consJoin]
      split_ifs with h
      · rw [covers_cons, contains_join h, covers_cons, or_assoc]
      · rw [covers_cons]

lemma covers_appendJoin : Covers u (appendJoin u bs cs) x ↔ Covers u bs x ∨ Covers u cs x := by
  rcases List.eq_nil_or_concat' bs with rfl | ⟨as, a, rfl⟩
  · simp [appendJoin]
  · rw [appendJoin_concat, covers_append, covers_consJoin, covers_append, covers_cons, or_assoc]
    simp

/-- Inserting a block covers what the block and the list cover. -/
lemma covers_insertJoin : Covers u (insertJoin u b bs) x ↔ b.Contains u x ∨ Covers u bs x := by
  have hsplit := List.takeWhile_append_dropWhile
    (p := fun c : Block => decide (c.start < b.start)) (l := bs)
  rw [insertJoin, covers_appendJoin, covers_consJoin, or_left_comm, ← covers_append, hsplit]

/-- The tail of a block and what a first fit leaves of it cover what the block covers. -/
lemma covers_remains (hn : n ≤ c.size) :
    c.Contains u x ↔ (tailOf u c n).Contains u x ∨ Covers u (remains c n) x := by
  by_cases he : c.size = n
  · simp [remains, he, tailOf_eq_self he]
  · have hmul : u * (c.size - n) + u * n = u * c.size := by
      rw [← Nat.mul_add, Nat.sub_add_cancel hn]
    simp only [remains, if_neg he, covers_cons, covers_nil, or_false]
    simp only [Block.Contains, Block.stop, tailOf, headOf]
    omega

/-- A first fit covers with what it takes and what it leaves what the list covered. -/
lemma covers_carve (h : carve u n bs = some (b, fs)) :
    Covers u bs x ↔ b.Contains u x ∨ Covers u fs x := by
  obtain ⟨pre, c, post, rfl, -, hc, rfl, rfl⟩ := carve_eq_some h
  rw [covers_append, covers_cons, covers_remains hc, covers_append, covers_append]
  tauto

lemma joinClosed_gap (a : Block) : JoinClosed u (a.Gap u ·) := fun _ _ hb _ _ => hb

/-- A block in front of a list of blocks with gaps leaves gaps. -/
lemma consJoin_gap (hu : 0 < u) (hpos : ∀ c ∈ cs, 0 < c.size) (hb : ∀ c ∈ cs, b.Before u c)
    (hcs : cs.Pairwise (Block.Gap u)) : (consJoin u b cs).Pairwise (Block.Gap u) := by
  cases cs with
  | nil => simp [consJoin]
  | cons c cs =>
      rw [List.pairwise_cons] at hcs
      simp only [List.forall_mem_cons] at hpos hb
      have hc := Block.start_lt_stop hu hpos.1
      simp only [consJoin]
      split_ifs with h
      · refine List.pairwise_cons.mpr ⟨fun d hd => ?_, hcs.2⟩
        rw [Block.Gap, stop_join h]
        exact hcs.1 d hd
      · refine List.pairwise_cons.mpr ⟨fun d hd => ?_, List.pairwise_cons.mpr hcs⟩
        have hbc := hb.1.2
        rcases List.mem_cons.mp hd with rfl | hd
        · exact lt_of_le_of_ne hbc h
        · have hcd : c.stop u < d.start := hcs.1 d hd
          exact lt_of_le_of_lt hbc (hc.trans hcd)

/-- Inserting a block into a list of blocks with gaps leaves gaps. -/
lemma insertJoin_gap (hu : 0 < u) (hb : 0 < b.size) (hpos : ∀ c ∈ bs, 0 < c.size)
    (hsorted : bs.Pairwise (Block.Before u)) (hdisj : ∀ c ∈ bs, c.Disjoint u b)
    (hgap : bs.Pairwise (Block.Gap u)) : (insertJoin u b bs).Pairwise (Block.Gap u) := by
  obtain ⟨hpre, hpost⟩ := takeWhile_dropWhile_before hu hb hpos hsorted hdisj
  have hsplit := (List.takeWhile_append_dropWhile
    (p := fun c : Block => decide (c.start < b.start)) (l := bs)).symm
  rw [insertJoin]
  generalize bs.takeWhile (fun c => decide (c.start < b.start)) = pre at hpre hsplit ⊢
  generalize bs.dropWhile (fun c => decide (c.start < b.start)) = post at hpost hsplit ⊢
  subst hsplit
  have hpospost : ∀ c ∈ post, 0 < c.size := fun c hc => hpos c (List.mem_append_right _ hc)
  rw [List.pairwise_append] at hgap
  have hcons := consJoin_gap hu hpospost hpost hgap.2.1
  rcases List.eq_nil_or_concat' pre with rfl | ⟨pre, a, rfl⟩
  · exact hcons
  · have hab := hpre a (by simp)
    have hgap_pre := List.pairwise_append.mp hgap.1
    have hafter : ∀ c ∈ consJoin u b post, a.Before u c :=
      consJoin_forall (joinClosed_before a) hab fun c hc =>
        ⟨hab.1.trans (hpost c hc).1, hab.2.trans (hpost c hc).1.le⟩
    rw [appendJoin_concat, List.pairwise_append]
    refine ⟨hgap_pre.1, ?_, fun d hd => ?_⟩
    · exact consJoin_gap hu (consJoin_forall joinClosed_positive hb hpospost) hafter hcons
    · have hda : d.Gap u a := hgap_pre.2.2 d hd a (by simp)
      exact consJoin_forall (joinClosed_gap d) hda fun c hc => lt_trans hda (hafter c hc).1

end Lists

/-! ## Canonical heaps -/

namespace BlockHeap

variable {u lo hi : ℕ}

/-- Blocks begin at units of the region, free blocks do not touch, and every address is in some
block. -/
structure Canonical (H : BlockHeap u lo hi) : Prop where
  gaps : H.free.Pairwise (Block.Gap u)
  aligned : ∀ b ∈ H.free ++ H.live, ∃ k, b.start = lo + u * k
  covers : ∀ x, lo ≤ x → x < hi → Covers u (H.free ++ H.live) x

lemma single_canonical {size : ℕ} (hsize : 0 < size) (hhi : lo + u * size = hi) :
    (single size hsize hhi.le : BlockHeap u lo hi).Canonical where
  gaps := List.pairwise_singleton _ _
  aligned := by
    intro b hb
    obtain rfl : b = ⟨lo, size⟩ := by simpa [single] using hb
    exact ⟨0, by simp⟩
  covers := by
    intro x hlo hx
    refine ⟨⟨lo, size⟩, by simp [single], hlo, ?_⟩
    rwa [Block.stop, hhi]

namespace Canonical

variable {H : BlockHeap u lo hi} {n : ℕ} {b : Block} {fs : List Block}

lemma take (h : H.Canonical) (hn : 0 < n) (hc : carve u n H.free = some (b, fs)) :
    (H.take hn hc).Canonical where
  gaps := by
    refine carve_pairwise_of hc (fun c d _ hcd => ?_) (fun _ _ hdc => hdc) h.gaps
    exact lt_of_le_of_lt headOf_within.2 hcd
  aligned := by
    have hfree : ∀ c ∈ H.free, ∃ k, c.start = lo + u * k := fun c hc =>
      h.aligned c (List.mem_append_left _ hc)
    obtain ⟨pre, c, post, hsplit, -, hle, rfl, rfl⟩ := carve_eq_some hc
    obtain ⟨k, hk⟩ := hfree c (by simp [hsplit])
    intro d hd
    rcases List.mem_append.mp hd with hd | hd
    · have hd' : d ∈ pre ++ remains c n ++ post := hd
      rw [List.append_assoc, List.mem_append, List.mem_append] at hd'
      rcases hd' with hd | hd | hd
      · exact hfree d (by simp [hsplit, hd])
      · exact ⟨k, (mem_remains (u := u) hle hd).2.2.2.trans hk⟩
      · exact hfree d (by simp [hsplit, hd])
    · rcases List.mem_cons.mp hd with rfl | hd
      · exact ⟨k + (c.size - n), by simp only [tailOf, hk, Nat.mul_add, Nat.add_assoc]⟩
      · exact h.aligned d (List.mem_append_right _ hd)
  covers := by
    intro x hlo hx
    have hcov := h.covers x hlo hx
    rw [covers_append, covers_carve hc] at hcov
    show Covers u (fs ++ b :: H.live) x
    rw [covers_append, covers_cons]
    tauto

lemma release (h : H.Canonical) (hu : 0 < u) (hb : b ∈ H.live) :
    (H.release hu hb).Canonical where
  gaps := insertJoin_gap hu (H.live_positive hb) (fun _ hc => H.free_positive hc) H.sorted
    (fun c hc => H.apart c hc b hb) h.gaps
  aligned := by
    intro c hc
    rcases List.mem_append.mp hc with hc | hc
    · exact insertJoin_forall (fun _ _ ha _ _ => ha) (h.aligned b (List.mem_append_right _ hb))
        (fun d hd => h.aligned d (List.mem_append_left _ hd)) c hc
    · exact h.aligned c (List.mem_append_right _ (List.mem_of_mem_erase hc))
  covers := by
    intro x hlo hx
    have hcov := h.covers x hlo hx
    rw [covers_append, covers_perm (List.perm_cons_erase hb), covers_cons] at hcov
    show Covers u (insertJoin u b H.free ++ H.live.erase b) x
    rw [covers_append, covers_insertJoin]
    tauto

/-- Of two free blocks one ends before the other begins, and they do not touch. -/
lemma gap (h : H.Canonical) {a c : Block} (ha : a ∈ H.free) (hc : c ∈ H.free) :
    a = c ∨ a.Gap u c ∨ c.Gap u a := by
  have hsymm : Std.Symm fun a c : Block => a = c ∨ a.Gap u c ∨ c.Gap u a :=
    ⟨fun _ _ hac => hac.elim (fun he => .inl he.symm) fun hgap => .inr hgap.symm⟩
  have hpair : H.free.Pairwise fun a c => a = c ∨ a.Gap u c ∨ c.Gap u a :=
    h.gaps.imp fun hgap => .inr (.inl hgap)
  exact hpair.forall_of_forall (fun _ _ => .inl rfl) ha hc

end Canonical

/-! ## The free list is the list of maximal runs -/

/-- The block of `r.2` units from the unit `r.1` on. -/
def placed (u lo : ℕ) (r : ℕ × ℕ) : Block := ⟨lo + u * r.1, r.2⟩

/-- The unit `k` of a region of `M` units is in no live block. -/
def FreeUnit (H : BlockHeap u lo hi) (M k : ℕ) : Prop := k < M ∧ ¬ Covers u H.live (lo + u * k)

namespace Canonical

variable {H : BlockHeap u lo hi} {M : ℕ}

lemma exists_placed (h : H.Canonical) : ∃ rs : List (ℕ × ℕ), H.free = rs.map (placed u lo) := by
  have hplaced : ∀ b ∈ H.free, ∃ r, placed u lo r = b := fun b hb => by
    obtain ⟨k, hk⟩ := h.aligned b (List.mem_append_left _ hb)
    exact ⟨(k, b.size), by rw [placed, ← hk]⟩
  choose! f hf using hplaced
  refine ⟨H.free.map f, ?_⟩
  rw [List.map_map]
  exact (List.map_id _).symm.trans (List.map_congr_left fun b hb => (hf b hb).symm)

lemma contains_placed {r : ℕ × ℕ} {k : ℕ} (hu : 0 < u) :
    (placed u lo r).Contains u (lo + u * k) ↔ r.1 ≤ k ∧ k < r.1 + r.2 := by
  have hle : lo + u * r.1 ≤ lo + u * k ↔ r.1 ≤ k := by
    rw [Nat.add_le_add_iff_left, Nat.mul_le_mul_left_iff hu]
  have hlt : lo + u * k < lo + u * r.1 + u * r.2 ↔ k < r.1 + r.2 := by
    rw [Nat.add_assoc, ← Nat.mul_add, Nat.add_lt_add_iff_left, Nat.mul_lt_mul_left hu]
  exact and_congr hle hlt

lemma placed_inj {r r' : ℕ × ℕ} (hu : 0 < u) (he : placed u lo r = placed u lo r') : r = r' := by
  obtain ⟨hstart, hsize⟩ := Block.mk.inj he
  exact Prod.ext (Nat.eq_of_mul_eq_mul_left hu (Nat.add_left_cancel hstart)) hsize

/-- A free unit is in a free block. -/
lemma freeUnit_covered (h : H.Canonical) (hu : 0 < u) (hM : hi = lo + u * M) {k : ℕ}
    (hk : H.FreeUnit M k) : ∃ r, placed u lo r ∈ H.free ∧ r.1 ≤ k ∧ k < r.1 + r.2 := by
  have hx : lo + u * k < hi := by
    rw [hM]
    exact Nat.add_lt_add_left (Nat.mul_lt_mul_of_pos_left hk.1 hu) lo
  have hcov := h.covers (lo + u * k) (Nat.le_add_right _ _) hx
  rw [covers_append] at hcov
  obtain ⟨b, hb, hbk⟩ := hcov.resolve_right hk.2
  obtain ⟨rs, hrs⟩ := h.exists_placed
  obtain ⟨r, -, rfl⟩ := List.mem_map.mp (hrs ▸ hb)
  exact ⟨r, hb, (contains_placed hu).mp hbk⟩

/-- Free blocks that have neighbouring units are the same. -/
lemma placed_eq (h : H.Canonical) (hu : 0 < u) {r r' : ℕ × ℕ} (hr : placed u lo r ∈ H.free)
    (hr' : placed u lo r' ∈ H.free) (hle : r.1 ≤ r'.1 + r'.2) (hle' : r'.1 ≤ r.1 + r.2) :
    r = r' := by
  have hgap : ∀ {a b : ℕ × ℕ}, (placed u lo a).Gap u (placed u lo b) → a.1 + a.2 < b.1 := by
    intro a b hab
    rw [Block.Gap, Block.stop, placed, placed, Nat.add_assoc, ← Nat.mul_add,
      Nat.add_lt_add_iff_left] at hab
    exact Nat.lt_of_mul_lt_mul_left hab
  rcases h.gap hr hr' with he | hlt | hlt
  · exact placed_inj hu he
  · exact absurd (hgap hlt) (by omega)
  · exact absurd (hgap hlt) (by omega)

/-- A free block is a maximal run of free units. -/
lemma isRun (h : H.Canonical) (hu : 0 < u) (hM : hi = lo + u * M) {r : ℕ × ℕ}
    (hr : placed u lo r ∈ H.free) : IsRun (H.FreeUnit M) r.1 r.2 where
  positive := H.free_positive hr
  all := by
    intro k hk hkn
    have hcon : (placed u lo r).Contains u (lo + u * k) := (contains_placed hu).mpr ⟨hk, hkn⟩
    refine ⟨?_, fun ⟨l, hl, hlk⟩ => (H.apart _ hr l hl).not_contains hcon hlk⟩
    have hlt : lo + u * k < lo + u * M := hM ▸ lt_of_lt_of_le hcon.2 (H.free_inside hr).2
    exact Nat.lt_of_mul_lt_mul_left (Nat.lt_of_add_lt_add_left hlt)
  left := by
    rintro k hk hfree
    obtain ⟨r', hr', hk1, hk2⟩ := h.freeUnit_covered hu hM hfree
    obtain rfl := h.placed_eq hu hr hr' (by omega) (by omega)
    omega
  right := by
    intro hfree
    obtain ⟨r', hr', hk1, hk2⟩ := h.freeUnit_covered hu hM hfree
    obtain rfl := h.placed_eq hu hr hr' (by omega) (by omega)
    omega

/-- **Canonical free lists.**  The free blocks of a canonical heap are the maximal runs of the
units that are in no live block. -/
theorem runs (h : H.Canonical) (hu : 0 < u) (hM : hi = lo + u * M) :
    ∃ rs, Runs (H.FreeUnit M) rs ∧ H.free = rs.map (placed u lo) := by
  obtain ⟨rs, hrs⟩ := h.exists_placed
  have hmem : ∀ r, r ∈ rs → placed u lo r ∈ H.free := fun r hr => by
    rw [hrs]
    exact List.mem_map_of_mem hr
  refine ⟨rs, ⟨?_, fun r => ⟨fun hr => h.isRun hu hM (hmem r hr), fun hrun => ?_⟩⟩, hrs⟩
  · have hsorted := H.sorted
    rw [hrs, List.pairwise_map] at hsorted
    refine hsorted.imp fun {r r'} hlt => ?_
    exact Nat.lt_of_mul_lt_mul_left (Nat.lt_of_add_lt_add_left hlt.1)
  · have hfirst : H.FreeUnit M r.1 := hrun.all r.1 le_rfl (by have := hrun.positive; omega)
    obtain ⟨r', hr', hk1, hk2⟩ := h.freeUnit_covered hu hM hfirst
    obtain ⟨h1, h2⟩ := hrun.eq (h.isRun hu hM hr') le_rfl
      (by have := hrun.positive; omega) hk1 hk2
    rw [hrs] at hr'
    obtain ⟨r'', hr'', he⟩ := List.mem_map.mp hr'
    rwa [Prod.ext h1 h2, ← placed_inj hu he]

end Canonical

end BlockHeap

end Framework
