import Rpi2Baremetal.Properties.HeapSearch

/-!
# Two calls of `_malloc` in a row

The caller gives both calls the same node `freep`.  What the first call leaves is a free list
again, and its block and every word that no block of the list had are apart from it
(`Takes.spares`).  The second call finds a block exactly if one of the list is large enough without
the units of the first (`malloc_twice_iff`).  If the first call takes the block of `freep` whole and
no other is large enough, the second one searches a list that `freep` is not on, and does not end
(`Takes.dangling`).
-/

namespace Rpi2Baremetal

open Framework

variable {m m' : Mem} {base freep n n' nbytes p q ap a : Word} {ws pre post : List Word}
  {U : Set Word}

/-! ## The words of the others -/

/-- No word of `U` lies in a block of the list. -/
def Spares (U : Set Word) (m : Mem) (l : List Word) : Prop :=
  ∀ a ∈ U, ∀ q ∈ l, ¬ (extent m q).Contains 8 a.toNat

/-- The words behind the header of a block of `n` units. -/
def blockWords (ap n : Word) : Set Word :=
  {a | ∃ i : ℕ, 4 * i < 8 * (n.toNat - 1) ∧ a = ap + .ofNat 32 (4 * i)}

/-- The words of a header lie in its block. -/
lemma extent_contains (hfits : (extent m p).stop 8 ≤ 2 ^ 32) :
    (extent m p).Contains 8 p.toNat ∧ (extent m p).Contains 8 (p + 4).toNat := by
  have hbound := (extent_bounds m p).1
  have hstart : (extent m p).start = p.toNat := rfl
  have h4 : (p + 4).toNat = p.toNat + 4 := by
    rw [BitVec.toNat_add, show BitVec.toNat (4 : Word) = 4 from rfl]
    omega
  rw [Block.Contains, Block.Contains, hstart, h4]
  omega

namespace Takes

/-- A call writes to the blocks of the list. -/
lemma frame (h : Takes m base freep n pre p post m' ap) (hlist : FreeList m base (pre ++ p :: post))
    (hsplit : ws ++ [freep] = pre ++ p :: post) (hn : 1 ≤ n.toNat) (hfit : n ≤ size m p)
    (ha : ∀ q ∈ pre ++ p :: post, ¬ (extent m q).Contains 8 a.toNat) : m' a = m a := by
  have hp : p ∈ pre ++ p :: post := by simp
  have hfits := hlist.fits p hp
  by_cases he : size m p = n
  · obtain ⟨-, rfl, -, -⟩ := h.exact he
    have hprev : pre.getLastD freep ∈ pre ++ p :: post := by
      rcases List.mem_cons.mp (getLastD_mem freep pre) with hlast | hmem
      · rw [hlast, ← hsplit]
        simp
      · exact List.mem_append_left _ hmem
    refine Memory.write_of_ne m _ ?_
    rintro rfl
    exact ha _ hprev (extent_contains (hlist.fits _ hprev)).1
  · obtain ⟨-, rfl, -, -, -⟩ := h.split he
    have htail := toNat_tail hfit hfits hn
    have hbound := (extent_bounds m p).2
    have hstart : (extent m p).start = p.toNat := rfl
    rw [BitVec.le_def] at hfit
    have hnot := ha p hp
    rw [setSize, Memory.write_of_ne, setSize, Memory.write_of_ne]
    · rintro rfl
      exact hnot (extent_contains hfits).2
    · rintro rfl
      refine hnot ⟨?_, ?_⟩
      all_goals
        rw [BitVec.toNat_add, htail, show BitVec.toNat (4 : Word) = 4 from rfl]
        omega

/-- The words of the block lie in the block of `p`, behind the header. -/
lemma toNat_block (h : Takes m base freep n pre p post m' ap) (hn : 1 ≤ n.toNat)
    (hfit : n ≤ size m p) (hfits : (extent m p).stop 8 ≤ 2 ^ 32) (ha : a ∈ blockWords ap n) :
    (extent m p).Contains 8 a.toNat ∧ (Rpi2Baremetal.header ap).toNat + 8 ≤ a.toNat := by
  obtain ⟨hsize, hstart, hstop⟩ := h.header hn hfit hfits
  obtain ⟨i, hi, rfl⟩ := ha
  have hbound := (extent_bounds m p).2
  have hp : (extent m p).start = p.toNat := rfl
  simp only [blockAt, Block.stop, hsize] at hstart hstop
  have hap : ap = Rpi2Baremetal.header ap + 8 := by
    rw [Rpi2Baremetal.header, HEAP_UNIT_SIZE, BitVec.sub_add_cancel]
  generalize Rpi2Baremetal.header ap = hdr at hap hstart hstop
  have hword : (ap + BitVec.ofNat 32 (4 * i)).toNat = hdr.toNat + 8 + 4 * i := by
    rw [hap, BitVec.toNat_add, BitVec.toNat_add, BitVec.toNat_ofNat,
      show BitVec.toNat (8 : Word) = 8 from rfl]
    omega
  rw [Block.Contains, hword, hp]
  omega

/-- What is left of a node's block is part of it. -/
lemma extent_left (h : Takes m base freep n pre p post m' ap) (hnd : (pre ++ p :: post).Nodup)
    (hfit : n ≤ size m p) (hq : q ∈ leftNodes m n pre p post) :
    (extent m' q).Within 8 (extent m q) := by
  rcases h.size_left hnd hq with ⟨-, -, hsize⟩ | ⟨rfl, hne, hsize⟩
  · rw [extent_congr hsize]
    exact Block.Within.refl _
  · refine ⟨le_rfl, ?_⟩
    have hsub := BitVec.toNat_sub_of_le hfit
    simp only [extent, Block.stop, hsize, hsub]
    omega

/-- The block is apart from what is left. -/
lemma block_apart (h : Takes m base freep n pre p post m' ap)
    (hlist : FreeList m base (pre ++ p :: post)) (hn : 1 ≤ n.toNat) (hfit : n ≤ size m p)
    (ha : a ∈ blockWords ap n) (hq : q ∈ leftNodes m n pre p post) :
    ¬ (extent m' q).Contains 8 a.toNat := by
  have hp : p ∈ pre ++ p :: post := by simp
  obtain ⟨hin, hbehind⟩ := h.toNat_block hn hfit (hlist.fits p hp) ha
  rcases h.size_left hlist.nodup hq with ⟨-, hne, hsize⟩ | ⟨rfl, hne, hsize⟩
  · rw [extent_congr hsize]
    exact fun hcontains =>
      (hlist.disjoint_of_ne (leftNodes_subset hq) hp hne).not_contains hcontains hin
  · obtain ⟨rfl, -⟩ := h.split hne
    rw [Rpi2Baremetal.header, hdrAdd_one_sub, toNat_tail hfit (hlist.fits q hp) hn] at hbehind
    have hsub := BitVec.toNat_sub_of_le hfit
    have hlt : n.toNat < (size m q).toNat := by
      rw [BitVec.le_def] at hfit
      exact lt_of_le_of_ne hfit fun he => hne (BitVec.eq_of_toNat_eq he).symm
    rintro ⟨-, hstop⟩
    simp only [extent, Block.stop, hsize, hsub] at hstop
    omega

/-- The words that were spared and those of the block are spared by the list that is left. -/
lemma spares (h : Takes m base freep n pre p post m' ap)
    (hlist : FreeList m base (pre ++ p :: post)) (hn : 1 ≤ n.toNat) (hfit : n ≤ size m p)
    (hU : Spares U m (pre ++ p :: post)) :
    Spares (U ∪ blockWords ap n) m' (leftNodes m n pre p post) := by
  rintro a (ha | ha) q hq hcontains
  · have hwithin := h.extent_left hlist.nodup hfit hq
    exact hU a ha q (leftNodes_subset hq) ⟨hwithin.1.trans hcontains.1,
      hcontains.2.trans_le hwithin.2⟩
  · exact h.block_apart hlist hn hfit ha hq hcontains

/-- The block has none of the words that were spared. -/
lemma block_fresh (h : Takes m base freep n pre p post m' ap)
    (hlist : FreeList m base (pre ++ p :: post)) (hn : 1 ≤ n.toNat) (hfit : n ≤ size m p)
    (hU : Spares U m (pre ++ p :: post)) (ha : a ∈ blockWords ap n) : a ∉ U := by
  have hp : p ∈ pre ++ p :: post := by simp
  exact fun hmem => hU a hmem p hp (h.toNat_block hn hfit (hlist.fits p hp) ha).1

end Takes

/-! ## The second call -/

/-- Nodes that are too small for a request are too small for a larger one. -/
lemma too_small_mono (hle : n ≤ n') (hsmall : ∀ q ∈ ws, size m q < n) :
    ∀ q ∈ ws, size m q < n' := by
  intro q hq
  have hlt := hsmall q hq
  rw [BitVec.lt_def] at hlt ⊢
  exact hlt.trans_le (BitVec.le_def.mp hle)

/-- A call returns a block if and only if one is large enough. -/
lemma FreeList.malloc_some_iff (h : FreeList m base (ws ++ [freep])) (hfreep : freep ≠ NULL) :
    (∃ fuel m' ap, malloc fuel m base freep nbytes = some (m', some ap)) ↔
      ∃ q ∈ ws ++ [freep], mallocUnits nbytes ≤ size m q := by
  constructor
  · rintro ⟨fuel, m', ap, hm⟩
    obtain ⟨pre, p, post, hsplit, -, hfit, -⟩ := h.takes_of_malloc hfreep hm
    exact ⟨p, by simp [hsplit], hfit⟩
  · rintro ⟨q, hq, hlarge⟩
    obtain ⟨pre, p, post, hsplit, hpre, hfit⟩ := exists_first_fit fun hsmall =>
      BitVec.not_le.mpr (hsmall q hq) hlarge
    obtain ⟨fuel, m', ap, hm, -⟩ := h.malloc_some hfreep hsplit hpre hfit
    exact ⟨fuel, m', ap, hm⟩

/-- A call that starts at a node which the list has lost does not end, when no block is large
enough. -/
lemma malloc_dangling (hlist : FreeList m base ws) (hfreep : freep ≠ NULL) (hnot : freep ∉ ws)
    (hin : ptr m freep ∈ ws) (hsmall : ∀ q ∈ ws, size m q < mallocUnits nbytes)
    (fuel : ℕ) : malloc fuel m base freep nbytes = none := by
  rw [malloc_of_ne_null hfreep]
  refine Option.eq_none_iff_forall_ne_some.mpr fun r hr => ?_
  have hpass : ∀ s : Word × Word, s.2 ∈ ws →
      ∃ s', mallocPass m freep (mallocUnits nbytes) s = .again s' ∧ s'.2 ∈ ws := by
    rintro ⟨prevp, q⟩ hq
    have hlt := BitVec.not_le.mpr (hsmall q hq)
    have hne : q ≠ freep := fun he => hnot (he ▸ hq)
    refine ⟨(q, ptr m q), ?_, hlist.ring.next_mem hq⟩
    rw [mallocPass, if_neg hlt, if_neg hne]
  exact Loop.not_returns_of_invariant hpass hin ⟨fuel, hr⟩

namespace Takes

/-- The second call after the block of `freep` was taken whole. -/
lemma dangling (h : Takes m base freep n ws freep [] m' ap)
    (hlist : FreeList m base (ws ++ [freep])) (hfreep : freep ≠ NULL) (hn : 1 ≤ n.toNat)
    (hsize : size m freep = n) (hsmall : ∀ q ∈ ws, size m q < mallocUnits nbytes) (fuel : ℕ) :
    malloc fuel m' base freep nbytes = none := by
  obtain ⟨-, hm', hleft, hsizes⟩ := h.exact hsize
  rw [List.append_nil] at hleft
  have hne : base ≠ freep := (hlist.ne_base hn (hsize ▸ BitVec.le_refl n)).symm
  have hnot : freep ∉ ws := fun hmem =>
    (List.nodup_append.mp hlist.nodup).2.2 freep hmem freep (by simp) rfl
  have hnil : ws ≠ [] := by
    rintro rfl
    exact hne (List.mem_singleton.mp hlist.base_mem)
  have hlast : ws.getLastD freep ≠ freep := by
    obtain ⟨x, xs, rfl⟩ := List.exists_cons_of_ne_nil hnil
    rw [List.getLastD_cons]
    exact fun he => hnot (he ▸ getLastD_mem x xs)
  refine malloc_dangling hleft hfreep hnot ?_ (fun q hq => ?_) fuel
  · -- the link of `freep` still leads to the node after it
    have hptr : ptr m' freep = ptr m freep := by
      rw [hm', ptr, setPtr, Memory.write_of_ne _ _ hlast.symm, ptr]
    have hring : Seg (ptr m) (ptr m freep) ws freep := hlist.rotate.ring
    obtain ⟨x, xs, rfl⟩ := List.exists_cons_of_ne_nil hnil
    rw [hptr, hring.1]
    exact List.mem_cons_self
  · rw [hsizes q (List.mem_append_left _ hq)]
    exact hsmall q hq

/-- A node that is left has `n'` units if it had `n` more, or comes behind the block taken. -/
lemma left_large_iff (h : Takes m base freep n pre p post m' ap) (hnd : (pre ++ p :: post).Nodup)
    (hpre : ∀ q ∈ pre, size m q < n') (hn : 1 ≤ n.toNat) (hfit : n ≤ size m p) (hle : n ≤ n') :
    (∃ q ∈ leftNodes m n pre p post, n' ≤ size m' q) ↔
      n.toNat + n'.toNat ≤ (size m p).toNat ∨ ∃ q ∈ post, n' ≤ size m q := by
  have hsub := BitVec.toNat_sub_of_le hfit
  rw [BitVec.le_def] at hfit hle
  constructor
  · rintro ⟨q, hq, hlarge⟩
    rcases h.size_left hnd hq with ⟨hmem, -, hsize⟩ | ⟨rfl, -, hsize⟩
    · rw [hsize] at hlarge
      rcases List.mem_append.mp hmem with hmem | hmem
      · exact absurd hlarge (BitVec.not_le.mpr (hpre q hmem))
      · exact .inr ⟨q, hmem, hlarge⟩
    · rw [hsize, BitVec.le_def, hsub] at hlarge
      exact .inl (by omega)
  · rintro (hroom | ⟨q, hq, hlarge⟩)
    · have hne : size m p ≠ n := by
        rintro rfl
        omega
      refine ⟨p, mem_leftNodes_self hne, ?_⟩
      rw [(h.split hne).2.2.2.1, BitVec.le_def, hsub]
      omega
    · have hmem := mem_leftNodes m n p (List.mem_append_right pre hq)
      refine ⟨q, hmem, ?_⟩
      rcases h.size_left hnd hmem with ⟨-, -, hsize⟩ | ⟨rfl, -, -⟩
      · rwa [hsize]
      · have hmiddle := List.nodup_middle.mp hnd
        exact absurd (List.mem_append_right pre hq) (List.nodup_cons.mp hmiddle).1

/-- **The second call.**  It returns a block if and only if what is left of the first call's block
or a block behind it is large enough. -/
lemma second_malloc_iff (h : Takes m base freep n pre p post m' ap)
    (hlist : FreeList m base (ws ++ [freep])) (hfreep : freep ≠ NULL)
    (hsplit : ws ++ [freep] = pre ++ p :: post) (hpre : ∀ q ∈ pre, size m q < n)
    (hn : 1 ≤ n.toNat) (hfit : n ≤ size m p) (hle : n ≤ mallocUnits nbytes) :
    (∃ fuel m₂ ap₂, malloc fuel m' base freep nbytes = some (m₂, some ap₂)) ↔
      n.toNat + (mallocUnits nbytes).toNat ≤ (size m p).toNat ∨
        ∃ q ∈ post, mallocUnits nbytes ≤ size m q := by
  have hpre' := too_small_mono hle hpre
  rcases leftNodes_eq m n hsplit with ⟨ws', hws'⟩ | ⟨hsize, rfl, rfl, rfl⟩
  · have hleft := h.freeList_left
    have hlarge := h.left_large_iff (hsplit ▸ hlist.nodup) hpre' hn hfit hle
    rw [hws'] at hleft hlarge
    rw [hleft.malloc_some_iff hfreep, hlarge]
  · constructor
    · rintro ⟨fuel, m₂, ap₂, hm⟩
      rw [h.dangling hlist hfreep hn hsize hpre'] at hm
      cases hm
    · rintro (hroom | ⟨q, hq, -⟩)
      · rw [BitVec.le_def] at hle
        rw [hsize] at hroom
        omega
      · cases hq

end Takes

/-- In the order of the search the first block of `n` units has `n'` more, or a block of `n'` units
comes behind it. -/
def HasRoom (m : Mem) (l : List Word) (n n' : Word) : Prop :=
  ∃ pre p post, l = pre ++ p :: post ∧ (∀ q ∈ pre, size m q < n) ∧ n ≤ size m p ∧
    (n.toNat + n'.toNat ≤ (size m p).toNat ∨ ∃ q ∈ post, n' ≤ size m q)

/-- A block of `n` units at `ap` was given away that has none of the words `U`, and these are as
they were. -/
structure Gives (U : Set Word) (m : Mem) (n : Word) (m' : Mem) (ap : Word) : Prop where
  ne_null : ap ≠ NULL
  fresh : ∀ a ∈ blockWords ap n, a ∉ U
  same : ∀ a ∈ U, m' a = m a

lemma Takes.gives (h : Takes m base freep n pre p post m' ap)
    (hlist : FreeList m base (ws ++ [freep])) (hsplit : ws ++ [freep] = pre ++ p :: post)
    (hn : 2 ≤ n.toNat) (hfit : n ≤ size m p) (hU : Spares U m (ws ++ [freep])) :
    Gives U m n m' ap := by
  rw [hsplit] at hlist hU
  have hn' : 1 ≤ n.toNat := by omega
  refine ⟨?_, fun a ha => h.block_fresh hlist hn' hfit hU ha,
    fun a ha => h.frame hlist hsplit hn' hfit (hU a ha)⟩
  have hfirst : ap ∈ blockWords ap n := ⟨0, by omega, by simp⟩
  have hbehind := (h.toNat_block hn' hfit (hlist.fits p (by simp)) hfirst).2
  rintro rfl
  rw [show BitVec.toNat NULL = 0 from rfl] at hbehind
  omega

section Twice

variable {fuel : ℕ} {nbytes' ap₁ ap₂ : Word} {m₁ m₂ : Mem}

/-- The two blocks of two calls. -/
lemma FreeList.gives_twice (hlist : FreeList m base (ws ++ [freep])) (hfreep : freep ≠ NULL)
    (hn : 2 ≤ (mallocUnits nbytes).toNat) (hle : mallocUnits nbytes ≤ mallocUnits nbytes')
    (hU : Spares U m (ws ++ [freep]))
    (hm₁ : malloc fuel m base freep nbytes = some (m₁, some ap₁))
    (hm₂ : malloc fuel m₁ base freep nbytes' = some (m₂, some ap₂)) :
    Gives U m (mallocUnits nbytes) m₁ ap₁ ∧
      Gives (U ∪ blockWords ap₁ (mallocUnits nbytes)) m₁ (mallocUnits nbytes') m₂ ap₂ := by
  obtain ⟨pre, p, post, hsplit, hpre, hfit, htakes⟩ := hlist.takes_of_malloc hfreep hm₁
  refine ⟨htakes.gives hlist hsplit hn hfit hU, ?_⟩
  have hn' : 1 ≤ (mallocUnits nbytes).toNat := by omega
  have hspares := htakes.spares (hsplit ▸ hlist) hn' hfit (hsplit ▸ hU)
  have hleft := htakes.freeList_left
  rcases leftNodes_eq m (mallocUnits nbytes) hsplit with ⟨ws', hws'⟩ | ⟨hsize, rfl, rfl, rfl⟩
  · rw [hws'] at hspares hleft
    obtain ⟨pre', q, post', hsplit', -, hfit', htakes'⟩ := hleft.takes_of_malloc hfreep hm₂
    refine htakes'.gives hleft hsplit' ?_ hfit' hspares
    exact hn.trans (BitVec.le_def.mp hle)
  · have hsmall := too_small_mono hle hpre
    rw [htakes.dangling hlist hfreep hn' hsize hsmall] at hm₂
    cases hm₂

/-- **Two calls.**  Both return a block if and only if the free list has room for the two. -/
theorem malloc_twice_iff (hlist : FreeList m base (ws ++ [freep])) (hfreep : freep ≠ NULL)
    (hle : mallocUnits nbytes ≤ mallocUnits nbytes') :
    (∃ fuel m₁ ap₁ m₂ ap₂, malloc fuel m base freep nbytes = some (m₁, some ap₁) ∧
      malloc fuel m₁ base freep nbytes' = some (m₂, some ap₂)) ↔
    HasRoom m (ws ++ [freep]) (mallocUnits nbytes) (mallocUnits nbytes') := by
  have hn := one_le_mallocUnits nbytes
  constructor
  · rintro ⟨fuel, m₁, ap₁, m₂, ap₂, hm₁, hm₂⟩
    obtain ⟨pre, p, post, hsplit, hpre, hfit, htakes⟩ := hlist.takes_of_malloc hfreep hm₁
    refine ⟨pre, p, post, hsplit, hpre, hfit, ?_⟩
    exact (htakes.second_malloc_iff hlist hfreep hsplit hpre hn hfit hle).mp ⟨fuel, m₂, ap₂, hm₂⟩
  · rintro ⟨pre, p, post, hsplit, hpre, hfit, hroom⟩
    obtain ⟨fuel₁, m₁, ap₁, hm₁, htakes⟩ := hlist.malloc_some hfreep hsplit hpre hfit
    obtain ⟨fuel₂, m₂, ap₂, hm₂⟩ :=
      (htakes.second_malloc_iff hlist hfreep hsplit hpre hn hfit hle).mpr hroom
    exact ⟨max fuel₁ fuel₂, m₁, ap₁, m₂, ap₂, malloc_mono (le_max_left ..) hm₁,
      malloc_mono (le_max_right ..) hm₂⟩

end Twice

end Rpi2Baremetal
