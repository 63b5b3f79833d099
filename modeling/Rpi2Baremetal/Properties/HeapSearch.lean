import Rpi2Baremetal.Framework.Ring
import Rpi2Baremetal.Properties.HeapSafety

/-!
# The search of `_malloc` from any node

The caller of `_malloc` passes the node `freep` to start from.  The search goes once around the
circular list, in list order from the node after `freep` on and with `freep` itself last, and
takes the first block that is large enough.  `FreeList` asks less of the list than the
refinement of the block heap does: its nodes may come in any order, as long as the sentinel is
among them.
-/

namespace Rpi2Baremetal

open Framework

variable {m m' : Mem} {base freep nbytes p q : Word} {l ws pre post : List Word}

/-- The units of a node: its block, and at least its header. -/
def extent (m : Mem) (p : Word) : Block := ⟨p.toNat, max 1 (size m p).toNat⟩

/-- The nodes `l` form a circular free list.  The sentinel `base` is one of them. -/
structure FreeList (m : Mem) (base : Word) (l : List Word) : Prop where
  ring : Ring (ptr m) l
  base_mem : base ∈ l
  base_size : size m base = 0
  disjoint : (l.map (extent m)).Pairwise (Block.Disjoint 8)
  fits : ∀ p ∈ l, (extent m p).stop 8 ≤ 2 ^ 32

lemma extent_bounds (m : Mem) (p : Word) :
    p.toNat + 8 ≤ (extent m p).stop 8 ∧ p.toNat + 8 * (size m p).toNat ≤ (extent m p).stop 8 := by
  simp only [extent, Block.stop]
  omega

lemma extent_positive (m : Mem) (p : Word) : 0 < (extent m p).size := by
  simp [extent]

lemma extent_congr (h : size m' p = size m p) : extent m' p = extent m p := by
  rw [extent, extent, h]

namespace FreeList

lemma nodup (h : FreeList m base l) : l.Nodup := by
  have hpair := List.pairwise_map.mp h.disjoint
  refine hpair.imp fun {p q} hpq he => ?_
  exact hpq.start_ne (by norm_num) (extent_positive m p) (extent_positive m q) (by rw [he])

lemma disjoint_of_ne (h : FreeList m base l) (hp : p ∈ l) (hq : q ∈ l) (hne : p ≠ q) :
    (extent m p).Disjoint 8 (extent m q) := by
  refine h.disjoint.forall (List.mem_map_of_mem hp) (List.mem_map_of_mem hq) fun he => hne ?_
  exact BitVec.eq_of_toNat_eq (congrArg Block.start he)

/-- The headers of different nodes do not overlap. -/
lemma apart (h : FreeList m base l) (hp : p ∈ l) (hq : q ∈ l) (hne : p ≠ q) : Apart p q := by
  have hp8 := (extent_bounds m p).1
  have hq8 := (extent_bounds m q).1
  have hpfits := h.fits p hp
  have hqfits := h.fits q hq
  refine ⟨?_, hp8.trans hpfits, hq8.trans hqfits⟩
  rcases h.disjoint_of_ne hp hq hne with hd | hd
  · exact Or.inl (hp8.trans hd)
  · exact Or.inr (hq8.trans hd)

/-- A free list can be entered at any of its nodes. -/
lemma rotate (h : FreeList m base (pre ++ post)) : FreeList m base (post ++ pre) := by
  refine ⟨h.ring.rotate, ?_, h.base_size, ?_, fun p hp => h.fits p ?_⟩
  · exact List.mem_append.mpr (List.mem_append.mp h.base_mem).symm
  · have hperm : List.Perm (pre ++ post) (post ++ pre) := List.perm_append_comm
    exact h.disjoint.perm (hperm.map (extent m)) fun hd => hd.symm
  · exact List.mem_append.mpr (List.mem_append.mp hp).symm

/-- Headers are written so that the nodes are linked as before and no block grows. -/
lemma of_sizes (h : FreeList m base l) {l' : List Word} (hring : Ring (ptr m') l')
    (hsub : l'.Sublist l) (hbase : base ∈ l') (hbase' : size m' base = size m base)
    (hwithin : ∀ p ∈ l', (extent m' p).Within 8 (extent m p)) : FreeList m' base l' := by
  refine ⟨hring, hbase, hbase'.trans h.base_size, ?_, fun p hp => ?_⟩
  · have hpair := List.pairwise_map.mp h.disjoint
    refine List.pairwise_map.mpr ((hpair.sublist hsub).imp_of_mem fun {p q} hp hq hd => ?_)
    exact ((hd.mono (hwithin p hp)).symm.mono (hwithin q hq)).symm
  · exact (hwithin p hp).2.trans (h.fits p (hsub.subset hp))

end FreeList

/-! ## The two ways to take a block -/

/-- `_malloc` has taken `n` units from the node `p`, which comes after `pre` and before `post`
in the order of the search that started at `freep`. -/
structure Takes (m : Mem) (base freep n : Word) (pre : List Word) (p : Word)
    (post : List Word) (m' : Mem) (ap : Word) : Prop where
  /-- A block of exactly `n` units leaves the list. -/
  exact : size m p = n → ap = hdrAdd p 1 ∧
    m' = setPtr m (pre.getLastD freep) (ptr m p) ∧
    FreeList m' base (pre ++ post) ∧ ∀ q ∈ pre ++ p :: post, size m' q = size m q
  /-- A larger block keeps its place, and its last `n` units get a header. -/
  split : size m p ≠ n → ap = hdrAdd (hdrAdd p (size m p - n)) 1 ∧
    m' = setSize (setSize m p (size m p - n)) (hdrAdd p (size m p - n)) n ∧
    FreeList m' base (pre ++ p :: post) ∧ size m' p = size m p - n ∧
    ∀ q ∈ pre ++ post, size m' q = size m q

/-- The place of the last `n` units of a block. -/
lemma toNat_tail {n : Word} (hfit : n ≤ size m p) (hfits : (extent m p).stop 8 ≤ 2 ^ 32)
    (hn : 1 ≤ n.toNat) : (hdrAdd p (size m p - n)).toNat =
      p.toNat + 8 * ((size m p).toNat - n.toNat) := by
  have hbound := (extent_bounds m p).2
  rw [BitVec.le_def] at hfit
  have h8 : BitVec.toNat HEAP_UNIT_SIZE = 8 := rfl
  rw [hdrAdd, BitVec.toNat_add, BitVec.toNat_mul, BitVec.toNat_sub_of_le hfit, h8]
  omega

/-- The pointer to a block that does not end the address space. -/
lemma Takes.ne_null {n ap : Word} (h : Takes m base freep n pre p post m' ap) (hn : 1 ≤ n.toNat)
    (hfit : n ≤ size m p) (hends : (extent m p).stop 8 < 2 ^ 32) : ap ≠ NULL := by
  obtain ⟨hhead, hwhole⟩ := extent_bounds m p
  by_cases he : size m p = n
  · obtain ⟨rfl, -⟩ := h.exact he
    exact hdrAdd_one_ne_null (by omega)
  · obtain ⟨rfl, -⟩ := h.split he
    have htail := toNat_tail hfit hends.le hn
    rw [BitVec.le_def] at hfit
    exact hdrAdd_one_ne_null (by omega)

/-- A node with units is not the sentinel. -/
lemma FreeList.ne_base (h : FreeList m base l) {n : Word} (hn : 1 ≤ n.toNat)
    (hfit : n ≤ size m p) : p ≠ base := by
  rintro rfl
  rw [h.base_size, BitVec.le_def, show BitVec.toNat (0 : Word) = 0 from rfl] at hfit
  omega

lemma getLast?_search (hsplit : ws ++ [freep] = pre ++ p :: post) :
    (p :: post).getLast? = some freep := by
  have h := congrArg List.getLast? hsplit
  rw [List.getLast?_concat, List.getLast?_append, List.getLast?_cons, Option.some_or] at h
  rw [List.getLast?_cons, h]

/-- The last node of the search is `freep`. -/
lemma freep_mem_search (hsplit : ws ++ [freep] = pre ++ p :: post) : freep ∈ p :: post :=
  List.mem_of_getLast? (getLast?_search hsplit)

/-- The search ends at `freep`. -/
lemma search_ends (hsplit : ws ++ [freep] = pre ++ freep :: post)
    (hnd : (ws ++ [freep]).Nodup) : post = [] := by
  rw [hsplit, List.nodup_middle, List.nodup_cons] at hnd
  cases post with
  | nil => rfl
  | cons x xs =>
      have hlast := getLast?_search hsplit
      rw [List.getLast?_cons_cons] at hlast
      exact absurd (List.mem_append_right _ (List.mem_of_getLast? hlast)) hnd.1

/-- In the order of the search the node before the first one is `freep`. -/
lemma getLastD_search (hsplit : ws ++ [freep] = pre ++ p :: post) :
    (post ++ pre).getLastD p = pre.getLastD freep := by
  have hlast := getLast?_search hsplit
  rw [List.getLastD_eq_getLast?, List.getLastD_eq_getLast?, List.getLast?_append]
  cases hpre : pre.getLast? with
  | none =>
      rw [List.getLast?_cons] at hlast
      simpa using hlast
  | some x => rfl

lemma FreeList.takes_exact (h : FreeList m base (pre ++ p :: post))
    (hsplit : ws ++ [freep] = pre ++ p :: post) {n : Word} (hn : 1 ≤ n.toNat)
    (hsize : size m p = n) :
    Takes m base freep n pre p post (setPtr m (pre.getLastD freep) (ptr m p)) (hdrAdd p 1) := by
  have hp : p ∈ pre ++ p :: post := by simp
  have hne : base ≠ p := (h.ne_base hn (hsize ▸ BitVec.le_refl n)).symm
  have hbase : base ∈ pre ++ post := mem_of_mem_middle h.base_mem hne
  have hothers : post ++ pre ≠ [] := by
    intro hnil
    rw [List.append_eq_nil_iff] at hnil
    simp [hnil] at hbase
  have hprev : pre.getLastD freep ∈ pre ++ p :: post := by
    have hmem := getLastD_mem freep pre
    rcases List.mem_cons.mp hmem with he | hmem
    · rw [he, ← hsplit]
      simp
    · exact List.mem_append_left _ hmem
  have hsizes : ∀ q ∈ pre ++ p :: post,
      size (setPtr m (pre.getLastD freep) (ptr m p)) q = size m q := by
    intro q hq
    by_cases he : pre.getLastD freep = q
    · rw [he, size_setPtr_same]
    · exact size_setPtr_of_apart _ _ (h.apart hprev hq he)
  have hsub : (pre ++ post).Sublist (pre ++ p :: post) := by simp
  have hring := h.ring.unlink_of_ne_nil h.nodup hothers rfl
  rw [getLastD_search hsplit] at hring
  refine ⟨fun _ => ⟨rfl, rfl, ?_, hsizes⟩, fun hns => absurd hsize hns⟩
  refine h.of_sizes hring hsub hbase (hsizes base h.base_mem) fun q hq => ?_
  rw [extent_congr (hsizes q (hsub.subset hq))]
  exact Block.Within.refl _

lemma FreeList.takes_split (h : FreeList m base (pre ++ p :: post)) {n : Word}
    (hn : 1 ≤ n.toNat) (hfit : n ≤ size m p) (hsize : size m p ≠ n) :
    Takes m base freep n pre p post
      (setSize (setSize m p (size m p - n)) (hdrAdd p (size m p - n)) n)
      (hdrAdd (hdrAdd p (size m p - n)) 1) := by
  have hp : p ∈ pre ++ p :: post := by simp
  have hbound := (extent_bounds m p).2
  have hfits := h.fits p hp
  have htail := toNat_tail hfit hfits hn
  have hle : n.toNat ≤ (size m p).toNat := BitVec.le_def.mp hfit
  have hlt : n.toNat < (size m p).toNat :=
    lt_of_le_of_ne hle fun he => hsize (BitVec.eq_of_toNat_eq he).symm
  have hleft := BitVec.toNat_sub_of_le hfit
  -- the header of the tail lies in the block of `p`, behind its own header
  have hapart_p : Apart (hdrAdd p (size m p - n)) p := ⟨by omega, by omega, by omega⟩
  have hapart : ∀ q ∈ pre ++ p :: post, Apart (hdrAdd p (size m p - n)) q := by
    intro q hq
    by_cases he : p = q
    · exact he ▸ hapart_p
    · have hqb := (extent_bounds m q).1
      have hqfits := h.fits q hq
      have hstart : (extent m p).start = p.toNat := rfl
      refine ⟨?_, by omega, by omega⟩
      rcases h.disjoint_of_ne hp hq he with hd | hd
      · exact Or.inl (le_trans (by omega) hd)
      · exact Or.inr (le_trans hqb (hd.trans (by omega)))
  have hnd := h.nodup
  rw [List.nodup_middle, List.nodup_cons] at hnd
  have hother : ∀ q ∈ pre ++ post, q ∈ pre ++ p :: post ∧ Apart p q := by
    intro q hq
    have hmem : q ∈ pre ++ p :: post := mem_middle hq
    exact ⟨hmem, h.apart hp hmem fun he => hnd.1 (he ▸ hq)⟩
  set m' := setSize (setSize m p (size m p - n)) (hdrAdd p (size m p - n)) n with hm'
  have hsize_p : size m' p = size m p - n := by
    rw [hm', size_setSize_of_apart _ _ hapart_p, size_setSize_same]
  have hsizes : ∀ q ∈ pre ++ post, size m' q = size m q := by
    intro q hq
    obtain ⟨hmem, hpq⟩ := hother q hq
    rw [hm', size_setSize_of_apart _ _ (hapart q hmem), size_setSize_of_apart _ _ hpq]
  have hlinks : ∀ q ∈ pre ++ p :: post, ptr m' q = ptr m q := by
    intro q hq
    rw [hm', ptr_setSize_of_apart _ _ (hapart q hq)]
    by_cases he : p = q
    · rw [he, ptr_setSize_same]
    · exact ptr_setSize_of_apart _ _ (h.apart hp hq he)
  refine ⟨fun hns => absurd hns hsize, fun _ => ⟨rfl, rfl, ?_, hsize_p, hsizes⟩⟩
  have hne : base ≠ p := (h.ne_base hn hfit).symm
  have hbase : base ∈ pre ++ post := mem_of_mem_middle h.base_mem hne
  refine h.of_sizes (h.ring.congr hlinks) (List.Sublist.refl _) h.base_mem (hsizes base hbase) ?_
  intro q hq
  by_cases he : p = q
  · subst he
    refine ⟨le_rfl, ?_⟩
    simp only [extent, Block.stop, hsize_p, hleft]
    omega
  · have hq' : q ∈ pre ++ post := mem_of_mem_middle hq (Ne.symm he)
    rw [extent_congr (hsizes q hq')]
    exact Block.Within.refl _

/-! ## What a call leaves -/

section Left

variable {n ap : Word}

/-- The nodes that a call leaves which takes `n` units from `p`. -/
def leftNodes (m : Mem) (n : Word) (pre : List Word) (p : Word) (post : List Word) : List Word :=
  if size m p = n then pre ++ post else pre ++ p :: post

lemma leftNodes_subset (hq : q ∈ leftNodes m n pre p post) : q ∈ pre ++ p :: post := by
  unfold leftNodes at hq
  split_ifs at hq
  · exact mem_middle hq
  · exact hq

lemma mem_leftNodes (m : Mem) (n p : Word) (hq : q ∈ pre ++ post) :
    q ∈ leftNodes m n pre p post := by
  unfold leftNodes
  split_ifs
  · exact hq
  · exact mem_middle hq

lemma mem_leftNodes_self (hne : size m p ≠ n) : p ∈ leftNodes m n pre p post := by
  rw [leftNodes, if_neg hne]
  simp

namespace Takes

lemma freeList_left (h : Takes m base freep n pre p post m' ap) :
    FreeList m' base (leftNodes m n pre p post) := by
  unfold leftNodes
  split_ifs with he
  · exact (h.exact he).2.2.1
  · exact (h.split he).2.2.1

/-- The sizes of the nodes that are left. -/
lemma size_left (h : Takes m base freep n pre p post m' ap) (hnd : (pre ++ p :: post).Nodup)
    (hq : q ∈ leftNodes m n pre p post) :
    q ∈ pre ++ post ∧ q ≠ p ∧ size m' q = size m q ∨
      q = p ∧ size m p ≠ n ∧ size m' p = size m p - n := by
  rw [List.nodup_middle, List.nodup_cons] at hnd
  have hne : q ∈ pre ++ post → q ≠ p := by
    rintro hmem rfl
    exact hnd.1 hmem
  unfold leftNodes at hq
  split_ifs at hq with he
  · obtain ⟨-, -, -, hsizes⟩ := h.exact he
    exact .inl ⟨hq, hne hq, hsizes q (mem_middle hq)⟩
  · obtain ⟨-, -, -, hsize, hsizes⟩ := h.split he
    by_cases hqp : q = p
    · exact .inr ⟨hqp, he, hsize⟩
    · have hmem : q ∈ pre ++ post := mem_of_mem_middle hq hqp
      exact .inl ⟨hmem, hqp, hsizes q hmem⟩

end Takes

/-- `freep` stays the last node of the search, or was the block that was taken. -/
lemma leftNodes_eq (m : Mem) (n : Word) (hsplit : ws ++ [freep] = pre ++ p :: post) :
    (∃ ws', leftNodes m n pre p post = ws' ++ [freep]) ∨
      size m p = n ∧ p = freep ∧ pre = ws ∧ post = [] := by
  have hlast := getLast?_search hsplit
  rcases List.eq_nil_or_concat post with rfl | ⟨post', x, rfl⟩
  · obtain rfl : p = freep := by simpa using hlast
    obtain rfl : ws = pre := by simpa using hsplit
    by_cases he : size m p = n
    · exact .inr ⟨he, rfl, rfl, rfl⟩
    · exact .inl ⟨ws, by rw [leftNodes, if_neg he]⟩
  · obtain rfl : x = freep := by simpa [List.getLast?_cons] using hlast
    refine .inl ?_
    unfold leftNodes
    split_ifs
    · exact ⟨pre ++ post', by simp⟩
    · exact ⟨pre ++ p :: post', by simp⟩

/-- `freep` stays on the list unless its block was taken whole. -/
lemma freep_mem_leftNodes_iff (hsplit : ws ++ [freep] = pre ++ p :: post)
    (hnd : (ws ++ [freep]).Nodup) (n : Word) :
    freep ∈ leftNodes m n pre p post ↔ ¬ (size m p = n ∧ p = freep) := by
  have hlast := freep_mem_search hsplit
  rw [hsplit, List.nodup_middle, List.nodup_cons] at hnd
  unfold leftNodes
  split_ifs with hsize
  · constructor
    · rintro hon ⟨-, rfl⟩
      exact hnd.1 hon
    · intro hcon
      have hne : freep ≠ p := fun he => hcon ⟨hsize, he.symm⟩
      exact List.mem_append_right _ ((List.mem_cons.mp hlast).resolve_left hne)
  · exact iff_of_true (List.mem_append_right _ hlast) fun hcon => hsize hcon.1

end Left

/-! ## The search -/

/-- The nodes before the first one that is large enough, and it exists if not all are too
small. -/
lemma exists_first_fit {n : Word} (h : ¬ ∀ q ∈ l, size m q < n) :
    ∃ pre p post, l = pre ++ p :: post ∧ (∀ q ∈ pre, size m q < n) ∧ n ≤ size m p := by
  cases hfind : l.find? fun q => n ≤ size m q with
  | none =>
      refine absurd (fun q hq => ?_) h
      have hnot := List.find?_eq_none.mp hfind q hq
      simpa using hnot
  | some p =>
      obtain ⟨hp, pre, post, rfl, hpre⟩ := List.find?_eq_some_iff_append.mp hfind
      exact ⟨pre, p, post, rfl, fun q hq => by simpa using hpre q hq, by simpa using hp⟩

/-- The first node that is large enough is the only such node. -/
lemma first_fit_unique {n p' : Word} {pre' post' : List Word}
    (h : pre ++ p :: post = pre' ++ p' :: post') (hpre : ∀ q ∈ pre, size m q < n)
    (hfit : n ≤ size m p) (hpre' : ∀ q ∈ pre', size m q < n) (hfit' : n ≤ size m p') :
    pre = pre' ∧ p = p' ∧ post = post' := by
  induction pre generalizing pre' with
  | nil =>
      cases pre' with
      | nil => simpa using h
      | cons x xs =>
          obtain ⟨rfl, -⟩ := List.cons.inj h
          exact absurd hfit (BitVec.not_le.mpr (hpre' p (List.mem_cons_self ..)))
  | cons x xs ih =>
      cases pre' with
      | nil =>
          obtain ⟨rfl, -⟩ := List.cons.inj h
          exact absurd hfit' (BitVec.not_le.mpr (hpre x (List.mem_cons_self ..)))
      | cons y ys =>
          obtain ⟨rfl, htail⟩ := List.cons.inj h
          obtain ⟨rfl, rfl, rfl⟩ := ih htail
            (fun q hq => hpre q (List.mem_cons_of_mem _ hq))
            (fun q hq => hpre' q (List.mem_cons_of_mem _ hq))
          exact ⟨rfl, rfl, rfl⟩

/-- `_malloc` from a node that is not `NULL` is its search loop. -/
lemma malloc_of_ne_null (hfreep : freep ≠ NULL) (fuel : ℕ) :
    malloc fuel m base freep nbytes =
      Loop.run (mallocPass m freep (mallocUnits nbytes)) fuel (freep, ptr m freep) := by
  rw [malloc, if_neg hfreep]

/-- More passes do not change what `_malloc` returns. -/
lemma malloc_mono {fuel fuel' : ℕ} {r : Mem × Option Word} (hle : fuel ≤ fuel')
    (hm : malloc fuel m base freep nbytes = some r) :
    malloc fuel' m base freep nbytes = some r := by
  unfold malloc at hm ⊢
  split_ifs at hm ⊢ with hnull
  · exact Loop.run_mono hle hm
  · exact Loop.run_mono hle hm

/-- A search that finds no block comes back to `freep`. -/
lemma FreeList.malloc_none (h : FreeList m base (ws ++ [freep])) (hfreep : freep ≠ NULL)
    (hsmall : ∀ q ∈ ws ++ [freep], size m q < mallocUnits nbytes) :
    ∃ fuel, malloc fuel m base freep nbytes = some (m, none) := by
  have hring : Seg (ptr m) (ptr m freep) ws freep := h.rotate.ring
  have hne : ∀ q ∈ ws, q ≠ freep := fun q hq he =>
    (List.nodup_append.mp h.nodup).2.2 q hq freep (by simp) he
  obtain ⟨fuel, hf⟩ := mallocPass_skip hring (fun q hq => hsmall q (List.mem_append_left _ hq))
    hne (mallocPass_none (hsmall freep (by simp)))
  exact ⟨fuel, by rw [malloc_of_ne_null hfreep, hf]⟩

/-- A search takes the first block that is large enough. -/
lemma FreeList.malloc_some (h : FreeList m base (ws ++ [freep])) (hfreep : freep ≠ NULL)
    (hsplit : ws ++ [freep] = pre ++ p :: post)
    (hpre : ∀ q ∈ pre, size m q < mallocUnits nbytes) (hfit : mallocUnits nbytes ≤ size m p) :
    ∃ fuel m' ap, malloc fuel m base freep nbytes = some (m', some ap) ∧
      Takes m base freep (mallocUnits nbytes) pre p post m' ap := by
  have hn := one_le_mallocUnits nbytes
  have hring : Seg (ptr m) (ptr m freep) ws freep := h.rotate.ring
  have hnd := h.nodup
  have hreach : Seg (ptr m) (ptr m freep) pre p := by
    have hround : Seg (ptr m) (ptr m freep) (ws ++ [freep]) (ptr m freep) :=
      seg_append.mpr ⟨freep, hring, rfl, rfl⟩
    rw [hsplit, seg_append] at hround
    obtain ⟨y, hs, rfl, -⟩ := hround
    exact hs
  -- `freep` is the last node of the search, so it does not end before `p`
  have hne : ∀ q ∈ pre, q ≠ freep := by
    intro q hq he
    rw [hsplit, List.nodup_append] at hnd
    exact hnd.2.2 q hq freep (freep_mem_search hsplit) he
  by_cases he : size m p = mallocUnits nbytes
  · obtain ⟨fuel, hf⟩ := mallocPass_skip hreach hpre hne
      (Loop.returns_of_leave (mallocPass_eq_exact he))
    exact ⟨fuel, _, _, by rw [malloc_of_ne_null hfreep, hf],
      (hsplit ▸ h).takes_exact hsplit hn he⟩
  · have hlt : mallocUnits nbytes < size m p := BitVec.lt_of_le_ne hfit (Ne.symm he)
    obtain ⟨fuel, hf⟩ := mallocPass_skip hreach hpre hne
      (Loop.returns_of_leave (mallocPass_eq_split hlt))
    exact ⟨fuel, _, _, by rw [malloc_of_ne_null hfreep, hf],
      (hsplit ▸ h).takes_split hn hfit he⟩

/-- **The search of `_malloc`.**  From any node of a circular free list, and for any request,
`_malloc` ends.  It returns `NULL` exactly if no block of the list is large enough, and then
has written nothing; otherwise it takes its block from the first node after `freep` in list
order that is large enough, `freep` itself being the last one it looks at.  As a word its result
is 0 in the first case only, if every block ends below the end of the address space. -/
theorem malloc_first_fit (h : FreeList m base (ws ++ [freep])) (hfreep : freep ≠ NULL)
    (nbytes : Word) :
    ∃ fuel m' r, malloc fuel m base freep nbytes = some (m', r) ∧
      (r = none ↔ ∀ q ∈ ws ++ [freep], size m q < mallocUnits nbytes) ∧
      ((∀ q ∈ ws ++ [freep], (extent m q).stop 8 < 2 ^ 32) →
        (r.getD NULL = NULL ↔ ∀ q ∈ ws ++ [freep], size m q < mallocUnits nbytes)) ∧
      (r = none → m' = m) ∧
      ∀ pre p post, ws ++ [freep] = pre ++ p :: post →
        (∀ q ∈ pre, size m q < mallocUnits nbytes) → mallocUnits nbytes ≤ size m p →
        ∃ ap, r = some ap ∧ Takes m base freep (mallocUnits nbytes) pre p post m' ap := by
  by_cases hsmall : ∀ q ∈ ws ++ [freep], size m q < mallocUnits nbytes
  · obtain ⟨fuel, hm⟩ := h.malloc_none hfreep hsmall
    refine ⟨fuel, m, none, hm, by simpa using hsmall, fun _ => iff_of_true rfl hsmall,
      fun _ => rfl, ?_⟩
    intro pre p post hsplit _ hfit
    exact absurd hfit (BitVec.not_le.mpr (hsmall p (by simp [hsplit])))
  · obtain ⟨pre, p, post, hsplit, hpre, hfit⟩ := exists_first_fit hsmall
    obtain ⟨fuel, m', ap, hm, htakes⟩ := h.malloc_some hfreep hsplit hpre hfit
    refine ⟨fuel, m', some ap, hm, by simpa using hsmall, fun hends => iff_of_false ?_ hsmall,
      (fun hnone => by cases hnone), ?_⟩
    · exact htakes.ne_null (one_le_mallocUnits nbytes) hfit (hends p (by simp [hsplit]))
    intro pre' p' post' hsplit' hpre' hfit'
    obtain ⟨rfl, rfl, rfl⟩ := first_fit_unique (hsplit.symm.trans hsplit') hpre hfit hpre' hfit'
    exact ⟨ap, rfl, htakes⟩

/-- The free list of the arena of four units, in the order of a search that starts at its only
block. -/
lemma fourUnits_freeList : FreeList Arena.fourUnitsMem 0x1000 ([0x1000] ++ [0x1008]) where
  ring := by
    simp only [List.cons_append, List.nil_append, ring_cons, seg_cons, seg_nil]
    decide
  base_mem := by decide
  base_size := by decide
  disjoint := by
    simp only [List.cons_append, List.nil_append, List.map_cons, List.map_nil,
      List.pairwise_pair]
    exact Or.inl (by decide)
  fits := by
    simp only [List.cons_append, List.nil_append, List.forall_mem_cons, List.not_mem_nil,
      false_imp_iff, implies_true, and_true]
    decide

/-- A request of eight bytes that starts its search at the block of three units takes the last
two of them. -/
theorem malloc_first_fit_fourUnits : ∃ fuel m',
    malloc fuel Arena.fourUnitsMem 0x1000 0x1008 8 = some (m', some 0x1018) := by
  obtain ⟨fuel, m', r, hm, -, -, -, hfirst⟩ :=
    malloc_first_fit fourUnits_freeList (by decide) 8
  have hsmall : size Arena.fourUnitsMem 0x1000 < mallocUnits 8 := by decide
  obtain ⟨ap, rfl, htakes⟩ := hfirst [0x1000] 0x1008 [] rfl (by simpa using hsmall) (by decide)
  obtain ⟨rfl, -⟩ := htakes.split (by decide)
  exact ⟨fuel, m', hm⟩

/-! ## The size of the block -/

/-- The block of the result `ap` has room for `nbytes` bytes behind its header, and is part of a
block of the free list `l`. -/
def LargeEnough (m : Mem) (l : List Word) (nbytes : Word) (m' : Mem) (ap : Word) : Prop :=
  (nbytes.toNat : ℤ) ≤ ((size m' (header ap)).toNat - 1) * HEAP_UNIT_SIZE.toNat ∧
    ∃ p ∈ l, (blockAt m' (header ap)).Within 8 (blockAt m p)

/-- The block taken has the size asked for and is part of the node's block. -/
lemma Takes.header {n ap : Word} (h : Takes m base freep n pre p post m' ap) (hn : 1 ≤ n.toNat)
    (hfit : n ≤ size m p) (hfits : (extent m p).stop 8 ≤ 2 ^ 32) :
    size m' (header ap) = n ∧ (blockAt m' (header ap)).Within 8 (blockAt m p) := by
  by_cases he : size m p = n
  · obtain ⟨rfl, -, -, hsizes⟩ := h.exact he
    have hp := hsizes p (by simp)
    rw [Rpi2Baremetal.header, hdrAdd_one_sub, blockAt, blockAt, hp]
    exact ⟨he, Block.Within.refl _⟩
  · obtain ⟨rfl, rfl, -, -, -⟩ := h.split he
    have htail := toNat_tail hfit hfits hn
    rw [BitVec.le_def] at hfit
    rw [Rpi2Baremetal.header, hdrAdd_one_sub, blockAt, blockAt, size_setSize_same, htail]
    refine ⟨rfl, ?_, ?_⟩
    · simp
    · simp only [Block.stop]
      omega

/-- The units of a request whose rounding does not wrap around. -/
lemma toNat_mallocUnits (h : nbytes.toNat + 7 < 2 ^ 32) :
    (mallocUnits nbytes).toNat = (nbytes.toNat + 7) / 8 + 1 := by
  have h1 : BitVec.toNat (1 : Word) = 1 := rfl
  have h8 : BitVec.toNat HEAP_UNIT_SIZE = 8 := rfl
  simp only [mallocUnits, BitVec.toNat_add, BitVec.toNat_udiv, BitVec.toNat_sub, h1, h8]
  omega

/-- The rounding of a larger request wraps around to a few bytes, that is to one unit. -/
lemma toNat_mallocUnits_wraps (h : 2 ^ 32 ≤ nbytes.toNat + 7) :
    (mallocUnits nbytes).toNat = 1 := by
  have hlt := nbytes.isLt
  have h1 : BitVec.toNat (1 : Word) = 1 := rfl
  have h8 : BitVec.toNat HEAP_UNIT_SIZE = 8 := rfl
  simp only [mallocUnits, BitVec.toNat_add, BitVec.toNat_udiv, BitVec.toNat_sub, h1, h8]
  omega

/-- What a call that returns a block has done. -/
lemma FreeList.takes_of_malloc (h : FreeList m base (ws ++ [freep])) (hfreep : freep ≠ NULL)
    {fuel : ℕ} {ap : Word} (hm : malloc fuel m base freep nbytes = some (m', some ap)) :
    ∃ pre p post, ws ++ [freep] = pre ++ p :: post ∧
      (∀ q ∈ pre, size m q < mallocUnits nbytes) ∧ mallocUnits nbytes ≤ size m p ∧
      Takes m base freep (mallocUnits nbytes) pre p post m' ap := by
  by_cases hsmall : ∀ q ∈ ws ++ [freep], size m q < mallocUnits nbytes
  · obtain ⟨fuel', hm'⟩ := h.malloc_none hfreep hsmall
    cases Arena.malloc_unique hm hm'
  · obtain ⟨pre, p, post, hsplit, hpre, hfit⟩ := exists_first_fit hsmall
    obtain ⟨fuel', m'', ap', hm', htakes⟩ := h.malloc_some hfreep hsplit hpre hfit
    cases Arena.malloc_unique hm hm'
    exact ⟨pre, p, post, hsplit, hpre, hfit, htakes⟩

/-- A call that returns `NULL` has written nothing. -/
lemma FreeList.eq_of_malloc_null (h : FreeList m base (ws ++ [freep])) (hfreep : freep ≠ NULL)
    {fuel : ℕ} (hm : malloc fuel m base freep nbytes = some (m', none)) : m' = m := by
  by_cases hsmall : ∀ q ∈ ws ++ [freep], size m q < mallocUnits nbytes
  · obtain ⟨fuel', hm'⟩ := h.malloc_none hfreep hsmall
    cases Arena.malloc_unique hm hm'
    rfl
  · obtain ⟨pre, p, post, hsplit, hpre, hfit⟩ := exists_first_fit hsmall
    obtain ⟨fuel', m'', ap', hm', -⟩ := h.malloc_some hfreep hsplit hpre hfit
    cases Arena.malloc_unique hm hm'

/-- **The size of the block.**  On any free list, what `_malloc` returns is large enough if and
only if rounding the request up does not wrap around, or the list has nothing to give. -/
theorem malloc_large_enough_iff (h : FreeList m base (ws ++ [freep])) (hfreep : freep ≠ NULL)
    (nbytes : Word) :
    (∀ fuel m' ap, malloc fuel m base freep nbytes = some (m', some ap) →
      LargeEnough m (ws ++ [freep]) nbytes m' ap) ↔
    nbytes.toNat + 7 < 2 ^ 32 ∨ ∀ p ∈ ws ++ [freep], size m p = 0 := by
  have hn := one_le_mallocUnits nbytes
  have h8 : BitVec.toNat HEAP_UNIT_SIZE = 8 := rfl
  constructor
  · intro hlarge
    by_contra hcon
    obtain ⟨hwrap, hblock⟩ := not_or.mp hcon
    have hunits : (mallocUnits nbytes).toNat = 1 := toNat_mallocUnits_wraps (by omega)
    have hfit : ¬ ∀ q ∈ ws ++ [freep], size m q < mallocUnits nbytes := by
      refine fun hsmall => hblock fun p hp => BitVec.eq_of_toNat_eq ?_
      have hp := hsmall p hp
      rw [BitVec.lt_def, hunits] at hp
      rw [show BitVec.toNat (0 : Word) = 0 from rfl]
      omega
    obtain ⟨pre, p, post, hsplit, hpre, hfit⟩ := exists_first_fit hfit
    obtain ⟨fuel, m', ap, hm, htakes⟩ := h.malloc_some hfreep hsplit hpre hfit
    obtain ⟨hsize, -⟩ := htakes.header hn hfit (h.fits p (by simp [hsplit]))
    have hroom := (hlarge fuel m' ap hm).1
    rw [hsize, hunits, h8] at hroom
    omega
  · rintro hok fuel m' ap hm
    obtain ⟨pre, p, post, hsplit, -, hfit, htakes⟩ := h.takes_of_malloc hfreep hm
    have hp : p ∈ ws ++ [freep] := by simp [hsplit]
    obtain ⟨hsize, hwithin⟩ := htakes.header hn hfit (h.fits p hp)
    refine ⟨?_, p, hp, hwithin⟩
    rcases hok with hok | hempty
    · rw [hsize, toNat_mallocUnits hok, h8]
      omega
    · rw [hempty p hp, BitVec.le_def, show BitVec.toNat (0 : Word) = 0 from rfl] at hfit
      omega

/-- A request of twelve bytes on the arena of four units gets sixteen. -/
theorem malloc_large_enough_iff_twelve : ∃ fuel m' ap,
    malloc fuel Arena.fourUnitsMem 0x1000 0x1008 12 = some (m', some ap) ∧
      LargeEnough Arena.fourUnitsMem [0x1000, 0x1008] 12 m' ap := by
  have hm : malloc 2 Arena.fourUnitsMem 0x1000 0x1008 12 = some (_, some 0x1010) := rfl
  exact ⟨2, _, 0x1010, hm, (malloc_large_enough_iff fourUnits_freeList (by decide) 12).mpr
    (Or.inl (by decide)) 2 _ _ hm⟩

/-- A request of almost all the address space gets a block that is a header and nothing else. -/
theorem malloc_too_small : ¬ ∀ (fuel : ℕ) (m m' : Mem) (base freep nbytes ap : Word)
    (ws : List Word), FreeList m base (ws ++ [freep]) → freep ≠ NULL →
      malloc fuel m base freep nbytes = some (m', some ap) →
      LargeEnough m (ws ++ [freep]) nbytes m' ap := by
  intro hclaim
  have hm : malloc 2 Arena.fourUnitsMem 0x1000 0x1008 0xFFFFFFFF = some (_, some 0x1020) := rfl
  have hroom := (hclaim 2 _ _ _ _ _ _ [0x1000] fourUnits_freeList (by decide) hm).1
  exact absurd hroom (by decide)

end Rpi2Baremetal
