import Rpi2Baremetal.Framework.Blocks
import Rpi2Baremetal.Framework.Segment
import Rpi2Baremetal.Model.Util

/-!
# The free list in memory refines a block heap

`Represents m base H` says that the memory `m` holds the block heap `H` as the source's
allocator does: the free blocks are linked into a circle through the sentinel `base`, whose
size is zero, and every block's header holds its size.

`malloc_refines` and `free_refines` are the refinement theorems for `_malloc` and `_free`
started at the sentinel: the search loops terminate, the result is the abstract operation's
(`BlockHeap.take`, `BlockHeap.release`), and only words of the sentinel's header, of free
blocks and of the block given back are written.
-/

namespace Rpi2Baremetal

open Framework

/-! ## Reading headers back -/

/-- The headers at `a` and `c` do not overlap, and neither wraps around the address space. -/
structure Apart (a c : Word) : Prop where
  sep : a.toNat + 8 ≤ c.toNat ∨ c.toNat + 8 ≤ a.toNat
  left : a.toNat + 8 ≤ 2 ^ 32
  right : c.toNat + 8 ≤ 2 ^ 32

lemma Apart.symm {a c : Word} (h : Apart a c) : Apart c a := ⟨h.sep.symm, h.right, h.left⟩

instance : Std.Symm Apart := ⟨fun _ _ h => h.symm⟩

lemma Apart.ne {a c : Word} (h : Apart a c) : c ≠ a := by
  rintro rfl
  have := h.sep
  omega

lemma Apart.ne_size {a c : Word} (h : Apart a c) : c ≠ a + 4 := by
  obtain ⟨h1, h2, h3⟩ := h
  intro he
  have := congrArg BitVec.toNat he
  rw [BitVec.toNat_add] at this
  simp at this
  omega

lemma Apart.size_ne_size {a c : Word} (h : Apart a c) : c + 4 ≠ a + 4 := by
  intro he
  exact h.ne (by simpa using he)

lemma self_ne_size (a : Word) : a ≠ a + 4 := by
  intro he
  have := congrArg BitVec.toNat he
  rw [BitVec.toNat_add] at this
  simp at this
  omega

lemma ptr_setPtr_eq (m : Mem) (p v : Word) :
    ptr (setPtr m p v) = Function.update (ptr m) p v := rfl

@[simp] lemma ptr_setPtr_same (m : Mem) (p v : Word) : ptr (setPtr m p v) p = v := by
  simp [ptr, setPtr]

@[simp] lemma size_setSize_same (m : Mem) (p v : Word) : size (setSize m p v) p = v := by
  simp [size, setSize]

@[simp] lemma ptr_setSize_same (m : Mem) (p v : Word) : ptr (setSize m p v) p = ptr m p :=
  Memory.write_of_ne m v (self_ne_size p)

@[simp] lemma size_setPtr_same (m : Mem) (p v : Word) : size (setPtr m p v) p = size m p :=
  Memory.write_of_ne m v (self_ne_size p).symm

lemma ptr_setSize_of_apart (m : Mem) {p c : Word} (v : Word) (h : Apart p c) :
    ptr (setSize m p v) c = ptr m c :=
  Memory.write_of_ne m v h.ne_size

lemma size_setPtr_of_apart (m : Mem) {p c : Word} (v : Word) (h : Apart p c) :
    size (setPtr m p v) c = size m c :=
  Memory.write_of_ne m v h.symm.ne_size.symm

lemma size_setSize_of_apart (m : Mem) {p c : Word} (v : Word) (h : Apart p c) :
    size (setSize m p v) c = size m c :=
  Memory.write_of_ne m v h.size_ne_size

@[simp] lemma hdrAdd_zero (p : Word) : hdrAdd p 0 = p := by simp [hdrAdd]

/-- The header of a pointer the allocator returned. -/
@[simp] lemma hdrAdd_one_sub (p : Word) : hdrAdd p 1 - HEAP_UNIT_SIZE = p := by
  simp only [hdrAdd, HEAP_UNIT_SIZE]
  bv_omega

/-! ## Blocks in memory -/

/-- The header address of a block. -/
def hdr (b : Block) : Word := BitVec.ofNat 32 b.start

/-- The region `lo ≤ x < hi` lies above the header of the sentinel and does not wrap around
the address space. -/
structure Region (base : Word) (lo hi : ℕ) : Prop where
  above : base.toNat + 8 ≤ lo
  le : lo ≤ hi
  fits : hi ≤ 2 ^ 32

section Blocks

variable {lo hi : ℕ} {b c : Block}

lemma block_room (hb : 0 < b.size) (hs : b.stop 8 ≤ hi) : b.start + 8 ≤ hi := by
  simp only [Block.stop] at hs
  omega

lemma toNat_hdr (hhi : hi ≤ 2 ^ 32) (hb : 0 < b.size) (hs : b.stop 8 ≤ hi) :
    (hdr b).toNat = b.start := by
  have := block_room hb hs
  simp only [hdr, BitVec.toNat_ofNat]
  omega

lemma toNat_sizeWord (hhi : hi ≤ 2 ^ 32) (hs : b.stop 8 ≤ hi) :
    (BitVec.ofNat 32 b.size).toNat = b.size := by
  simp only [Block.stop] at hs
  simp only [BitVec.toNat_ofNat]
  omega

lemma apart_of_disjoint (hhi : hi ≤ 2 ^ 32) (h : b.Disjoint 8 c) (hb : 0 < b.size)
    (hc : 0 < c.size) (hbs : b.stop 8 ≤ hi) (hcs : c.stop 8 ≤ hi) : Apart (hdr b) (hdr c) := by
  have h1 := toNat_hdr hhi hb hbs
  have h2 := toNat_hdr hhi hc hcs
  have h3 := block_room hb hbs
  have h4 := block_room hc hcs
  refine ⟨?_, by omega, by omega⟩
  simp only [Block.Disjoint, Block.stop] at h
  omega

lemma apart_base {base : Word} (hR : Region base lo hi) (hb : 0 < b.size)
    (hin : lo ≤ b.start ∧ b.stop 8 ≤ hi) : Apart base (hdr b) := by
  have h1 := toNat_hdr hR.fits hb hin.2
  have h2 := block_room hb hin.2
  have h3 := hR.above
  have h4 := hR.fits
  exact ⟨by omega, by omega, by omega⟩

end Blocks

/-- The memory `m` holds the block heap `H` with its free list linked through `base`. -/
structure Represents (m : Mem) (base : Word) {lo hi : ℕ} (H : BlockHeap 8 lo hi) : Prop where
  chain : Seg (ptr m) (ptr m base) (H.free.map hdr) base
  base_size : size m base = 0
  sizes : ∀ b ∈ H.free ++ H.live, size m (hdr b) = BitVec.ofNat 32 b.size

/-- Outside the header at `base` and the blocks `bs`, the two memories agree. -/
def SameOutside (base : Word) (bs : List Block) (m m' : Mem) : Prop :=
  ∀ x : Word, (x.toNat < base.toNat ∨ base.toNat + 8 ≤ x.toNat) →
    (∀ b ∈ bs, ¬ b.Contains 8 x.toNat) → m' x = m x

/-! ### The nodes of a block heap -/

section Nodes

variable {base : Word} {lo hi : ℕ} {H : BlockHeap 8 lo hi}

/-- The sentinel and the headers of all blocks. -/
def nodes (base : Word) (H : BlockHeap 8 lo hi) : List Word :=
  base :: (H.free ++ H.live).map hdr

lemma base_mem_nodes : base ∈ nodes base H := List.mem_cons_self ..

lemma hdr_mem_nodes {b : Block} (hb : b ∈ H.free ++ H.live) : hdr b ∈ nodes base H :=
  List.mem_cons_of_mem _ (List.mem_map_of_mem hb)

lemma apart_hdr (hR : Region base lo hi) {b c : Block} (hb : b ∈ H.free ++ H.live)
    (hc : c ∈ H.free ++ H.live) (h : b.Disjoint 8 c) : Apart (hdr b) (hdr c) :=
  apart_of_disjoint hR.fits h (H.positive b hb) (H.positive c hc) (H.inside b hb).2
    (H.inside c hc).2

/-- Headers of different nodes do not overlap. -/
lemma nodes_pairwise (hR : Region base lo hi) (H : BlockHeap 8 lo hi) :
    (nodes base H).Pairwise Apart := by
  rw [nodes, List.pairwise_cons, List.pairwise_map]
  refine ⟨fun w hw => ?_, ?_⟩
  · obtain ⟨b, hb, rfl⟩ := List.mem_map.mp hw
    exact apart_base hR (H.positive b hb) (H.inside b hb)
  · exact H.disjoint.imp_of_mem fun hb hc h => apart_hdr hR hb hc h

lemma nodes_eq_or_apart (hR : Region base lo hi) {x y : Word} (hx : x ∈ nodes base H)
    (hy : y ∈ nodes base H) : x = y ∨ Apart x y := by
  by_cases hxy : x = y
  · exact Or.inl hxy
  · exact Or.inr ((nodes_pairwise hR H).forall hx hy hxy)

/-- Different blocks have headers that do not overlap. -/
lemma apart_of_mem_ne (hR : Region base lo hi) {b c : Block} (hb : b ∈ H.free ++ H.live)
    (hc : c ∈ H.free ++ H.live) (hne : b ≠ c) : Apart (hdr b) (hdr c) :=
  apart_hdr hR hb hc (H.disjoint.forall hb hc hne)

lemma size_setPtr_node (hR : Region base lo hi) (m : Mem) {x y : Word} (v : Word)
    (hx : x ∈ nodes base H) (hy : y ∈ nodes base H) : size (setPtr m x v) y = size m y := by
  rcases nodes_eq_or_apart hR hx hy with rfl | h
  · exact size_setPtr_same m x v
  · exact size_setPtr_of_apart m v h

lemma ptr_setSize_node (hR : Region base lo hi) (m : Mem) {x y : Word} (v : Word)
    (hx : x ∈ nodes base H) (hy : y ∈ nodes base H) : ptr (setSize m x v) y = ptr m y := by
  rcases nodes_eq_or_apart hR hx hy with rfl | h
  · exact ptr_setSize_same m x v
  · exact ptr_setSize_of_apart m v h

/-- The nodes of the circular list, the sentinel first. -/
lemma ring_nodup (hR : Region base lo hi) (H : BlockHeap 8 lo hi) :
    (base :: H.free.map hdr).Nodup := by
  have h : (nodes base H).Nodup := (nodes_pairwise hR H).imp fun h => h.ne.symm
  rw [nodes, List.map_append, ← List.cons_append] at h
  exact (List.nodup_append.mp h).1

lemma ring_subset_nodes {w : Word} (hw : w ∈ base :: H.free.map hdr) : w ∈ nodes base H := by
  rcases List.mem_cons.mp hw with rfl | hw
  · exact base_mem_nodes
  · obtain ⟨b, hb, rfl⟩ := List.mem_map.mp hw
    exact hdr_mem_nodes (List.mem_append_left _ hb)

lemma base_lt_hdr (hR : Region base lo hi) {b : Block} (hb : b ∈ H.free ++ H.live) :
    base < hdr b := by
  have h1 := toNat_hdr hR.fits (H.positive b hb) (H.inside b hb).2
  have h2 := (H.inside b hb).1
  have h3 := hR.above
  rw [BitVec.lt_def]
  omega

lemma hdr_lt (hR : Region base lo hi) {b c : Block} (hb : b ∈ H.free ++ H.live)
    (hc : c ∈ H.free ++ H.live) (hbc : b.Before 8 c) : hdr b < hdr c := by
  rw [BitVec.lt_def, toNat_hdr hR.fits (H.positive b hb) (H.inside b hb).2,
    toNat_hdr hR.fits (H.positive c hc) (H.inside c hc).2]
  exact hbc.1

/-- The ring goes upwards from the sentinel. -/
lemma ring_increasing (hR : Region base lo hi) (H : BlockHeap 8 lo hi) :
    (base :: H.free.map hdr).Pairwise (· < ·) := by
  rw [List.pairwise_cons, List.pairwise_map]
  refine ⟨fun w hw => ?_, H.sorted.imp_of_mem fun hb hc hbc => ?_⟩
  · obtain ⟨b, hb, rfl⟩ := List.mem_map.mp hw
    exact base_lt_hdr hR (List.mem_append_left _ hb)
  · exact hdr_lt hR (List.mem_append_left _ hb) (List.mem_append_left _ hc) hbc

/-- A word outside a header is neither of its two words. -/
lemma ne_of_outside {x p : Word} (hp : p.toNat + 8 ≤ 2 ^ 32)
    (h : x.toNat < p.toNat ∨ p.toNat + 8 ≤ x.toNat) : x ≠ p ∧ x ≠ p + 4 := by
  refine ⟨fun he => by subst he; omega, fun he => ?_⟩
  have := congrArg BitVec.toNat he
  rw [BitVec.toNat_add] at this
  simp at this
  omega

lemma outside_hdr (hhi : hi ≤ 2 ^ 32) {b c : Block} (hb : 0 < b.size) (hs : b.stop 8 ≤ hi)
    (hbc : b.Within 8 c) {x : Word} (hx : ¬ c.Contains 8 x.toNat) :
    x ≠ hdr b ∧ x ≠ hdr b + 4 := by
  have h1 := toNat_hdr hhi hb hs
  have h2 := block_room hb hs
  refine ne_of_outside (by omega) ?_
  simp only [Block.Contains, Block.Within, Block.stop] at hx hbc
  omega

/-- A word outside the sentinel and the free blocks is in no header of the ring. -/
lemma outside_ring (hR : Region base lo hi) {x p : Word} (hp : p ∈ base :: H.free.map hdr)
    (hx : x.toNat < base.toNat ∨ base.toNat + 8 ≤ x.toNat)
    (hfree : ∀ b ∈ H.free, ¬ b.Contains 8 x.toNat) : x ≠ p ∧ x ≠ p + 4 := by
  rcases List.mem_cons.mp hp with rfl | hp
  · exact ne_of_outside (hR.above.trans (hR.le.trans hR.fits)) hx
  · obtain ⟨b, hb, rfl⟩ := List.mem_map.mp hp
    exact outside_hdr hR.fits (H.free_positive hb) (H.free_inside hb).2 (Block.Within.refl b)
      (hfree b hb)

end Nodes

/-! ## `_malloc` -/

lemma one_le_mallocUnits (nbytes : Word) : 1 ≤ (mallocUnits nbytes).toNat := by
  have h := (nbytes + HEAP_UNIT_SIZE - 1).isLt
  simp only [mallocUnits, HEAP_UNIT_SIZE, BitVec.toNat_add, BitVec.toNat_udiv] at *
  simp
  omega

/-- Pointer arithmetic from the header of a block by a number of units. -/
lemma hdrAdd_ofNat (b : Block) (k : ℕ) :
    hdrAdd (hdr b) (BitVec.ofNat 32 k) = BitVec.ofNat 32 (b.start + 8 * k) := by
  apply BitVec.eq_of_toNat_eq
  have h8 : BitVec.toNat HEAP_UNIT_SIZE = 8 := rfl
  simp only [hdrAdd, hdr, BitVec.toNat_add, BitVec.toNat_mul, BitVec.toNat_ofNat, h8]
  omega

lemma sub_sizeWord {w v : Word} {k : ℕ} (hw : w = BitVec.ofNat 32 k) (hv : v.toNat ≤ k) :
    w - v = BitVec.ofNat 32 (k - v.toNat) := by
  apply BitVec.eq_of_toNat_eq
  have := v.isLt
  simp only [hw, BitVec.toNat_sub, BitVec.toNat_ofNat]
  omega

section Malloc

variable {m : Mem} {freep nunits : Word}

/-- The search passes over nodes that are too small. -/
lemma mallocPass_skip {r : Mem × Option Word} {ws : List Word} {a z : Word}
    (hs : Seg (ptr m) (ptr m a) ws z) (hsmall : ∀ w ∈ ws, size m w < nunits)
    (hne : ∀ w ∈ ws, w ≠ freep)
    (hr : Loop.Returns (mallocPass m freep nunits) (ws.getLastD a, z) r) :
    Loop.Returns (mallocPass m freep nunits) (a, ptr m a) r := by
  induction ws generalizing a with
  | nil =>
      rw [seg_nil] at hs
      rwa [hs]
  | cons w ws ih =>
      simp only [List.mem_cons, forall_eq_or_imp] at hsmall hne
      rw [seg_cons] at hs
      rw [List.getLastD_cons] at hr
      refine Loop.returns_of_again ?_ (ih hs.2 hsmall.2 hne.2 hr)
      have hlt : ¬ nunits ≤ size m w := by
        have := hsmall.1
        rw [BitVec.lt_def] at this
        rw [BitVec.le_def]
        omega
      simp [mallocPass, hs.1, hlt, hne.1]

lemma mallocPass_eq_exact {prevp p : Word} (h : size m p = nunits) :
    mallocPass m freep nunits (prevp, p) =
      .leave (setPtr m prevp (ptr m p), some (hdrAdd p 1)) := by
  simp [mallocPass, h]

lemma mallocPass_eq_split {prevp p : Word} (h : nunits < size m p) :
    mallocPass m freep nunits (prevp, p) =
      .leave (setSize (setSize m p (size m p - nunits)) (hdrAdd p (size m p - nunits)) nunits,
        some (hdrAdd (hdrAdd p (size m p - nunits)) 1)) := by
  have hle : nunits ≤ size m p := BitVec.le_of_lt h
  have hne : size m p ≠ nunits := fun he => absurd (he ▸ h) (BitVec.lt_irrefl _)
  simp only [mallocPass, hle, hne, if_true, if_false, size_setSize_same]

/-- The search gives up when it is back at its start node and found nothing. -/
lemma mallocPass_none {a : Word} (hsmall : size m freep < nunits) :
    Loop.Returns (mallocPass m freep nunits) (a, freep) (m, none) := by
  have hlt : ¬ nunits ≤ size m freep := by
    rw [BitVec.lt_def] at hsmall
    rw [BitVec.le_def]
    omega
  exact Loop.returns_of_leave (by simp [mallocPass, hlt])

end Malloc

section Refinement

variable {m : Mem} {base : Word} {lo hi : ℕ} {H : BlockHeap 8 lo hi}

lemma Represents.toNat_size (hR : Region base lo hi) (h : Represents m base H) {b : Block}
    (hb : b ∈ H.free ++ H.live) : (size m (hdr b)).toNat = b.size := by
  rw [h.sizes b hb]
  exact toNat_sizeWord hR.fits (H.inside b hb).2

/-- A represented heap has the free list of the ring it is linked through. -/
lemma Represents.of_agree {H' : BlockHeap 8 lo hi} {m' : Mem} (h : Represents m base H)
    (hfree : H'.free.map hdr = H.free.map hdr)
    (hptr : ∀ x ∈ base :: H.free.map hdr, ptr m' x = ptr m x) (hbase : size m' base = 0)
    (hsizes : ∀ b ∈ H'.free ++ H'.live, size m' (hdr b) = BitVec.ofNat 32 b.size) :
    Represents m' base H' := by
  simp only [List.mem_cons, forall_eq_or_imp] at hptr
  refine ⟨?_, hbase, hsizes⟩
  rw [hfree, hptr.1]
  exact h.chain.congr hptr.2

/-- Taking a whole free block out of the ring. -/
lemma Represents.unlink (hR : Region base lo hi) (h : Represents m base H) {pre post : List Block}
    {c : Block} (hsplit : H.free = pre ++ c :: post) :
    Seg (ptr (setPtr m ((pre.map hdr).getLastD base) (ptr m (hdr c))))
      (ptr (setPtr m ((pre.map hdr).getLastD base) (ptr m (hdr c))) base)
      ((pre ++ post).map hdr) base := by
  have hnd := ring_nodup hR H
  rw [hsplit, List.map_append, List.map_cons, ← List.cons_append] at hnd
  have hchain := h.chain
  rw [hsplit, List.map_append, List.map_cons, seg_append] at hchain
  obtain ⟨y, hpre, hy, hpost⟩ := hchain
  rw [List.map_append, seg_append]
  refine ⟨ptr m (hdr c), ?_, hpost.congr fun w hw => ?_⟩
  · exact hpre.relink (List.nodup_append.mp hnd).1 (ptr_setPtr_eq _ _ _)
  · rw [ptr_setPtr_eq, Function.update_of_ne]
    have hq := getLastD_mem base (pre.map hdr)
    exact ((List.nodup_append.mp hnd).2.2 _ hq _ (List.mem_cons_of_mem _ hw)).symm

lemma getLastD_mem_ring {pre post : List Block} (hsplit : H.free = pre ++ post) :
    (pre.map hdr).getLastD base ∈ base :: H.free.map hdr := by
  rw [hsplit, List.map_append, ← List.cons_append]
  exact List.mem_append_left _ (getLastD_mem base (pre.map hdr))

/-- The pass that returns a block of exactly the size asked for. -/
lemma mallocPass_exact (hR : Region base lo hi) (h : Represents m base H) {n : ℕ} (hn : 0 < n)
    {b : Block} {fs : List Block} (hcarve : carve 8 n H.free = some (b, fs))
    {pre post : List Block} (hsplit : H.free = pre ++ b :: post) (hfs : fs = pre ++ post) :
    Represents (setPtr m ((pre.map hdr).getLastD base) (ptr m (hdr b))) base
        (H.take hn hcarve) ∧
      SameOutside base H.free m (setPtr m ((pre.map hdr).getLastD base) (ptr m (hdr b))) := by
  have hring : (pre.map hdr).getLastD base ∈ base :: H.free.map hdr := getLastD_mem_ring hsplit
  have hq : (pre.map hdr).getLastD base ∈ nodes base H := ring_subset_nodes hring
  refine ⟨⟨?_, ?_, fun d hd => ?_⟩, fun x hx hfree => ?_⟩
  · exact hfs ▸ h.unlink hR hsplit
  · rw [size_setPtr_node hR m _ hq base_mem_nodes, h.base_size]
  · have hd' : d ∈ H.free ++ H.live := by
      simp only [BlockHeap.take, hfs, hsplit, List.mem_append, List.mem_cons] at hd ⊢
      tauto
    rw [size_setPtr_node hR m _ hq (hdr_mem_nodes hd'), h.sizes d hd']
  · exact Memory.write_of_ne m _ (outside_ring hR hring hx hfree).1

/-- The pass that splits the tail end off a larger block. -/
lemma mallocPass_split (hR : Region base lo hi) (h : Represents m base H) {n : ℕ} (hn : 0 < n)
    {c : Block} {fs : List Block} (hlt : n < c.size)
    (hcarve : carve 8 n H.free = some (tailOf 8 c n, fs))
    {pre post : List Block} (hsplit : H.free = pre ++ c :: post)
    (hfs : fs = pre ++ headOf c n :: post) {m1 m2 : Mem}
    (hm1 : m1 = setSize m (hdr c) (BitVec.ofNat 32 (c.size - n)))
    (hm2 : m2 = setSize m1 (hdr (tailOf 8 c n)) (BitVec.ofNat 32 n)) :
    Represents m2 base (H.take hn hcarve) ∧ SameOutside base H.free m m2 := by
  have hc : c ∈ H.free := by simp [hsplit]
  have htail : tailOf 8 c n ∈ (H.take hn hcarve).free ++ (H.take hn hcarve).live := by
    simp [BlockHeap.take]
  have hhead : headOf c n ∈ (H.take hn hcarve).free ++ (H.take hn hcarve).live := by
    simp [BlockHeap.take, hfs]
  have hmap : (H.take hn hcarve).free.map hdr = H.free.map hdr := by
    simp [BlockHeap.take, hfs, hsplit, hdr, headOf]
  have hdist : Apart (hdr (tailOf 8 c n)) (hdr (headOf c n)) :=
    apart_hdr hR htail hhead
      (carve_apart hcarve H.sorted (by simp [hfs] : headOf c n ∈ fs)).symm
  refine ⟨h.of_agree hmap (fun x hx => ?_) ?_ fun d hd => ?_, fun x hx hfree => ?_⟩
  · rw [hm2, hm1, ptr_setSize_node hR _ _ (hdr_mem_nodes htail)
        (ring_subset_nodes (hmap ▸ hx)),
      ptr_setSize_node hR m _ (hdr_mem_nodes (List.mem_append_left _ hc))
        (ring_subset_nodes hx)]
  · rw [hm2, hm1, size_setSize_of_apart, size_setSize_of_apart, h.base_size]
    · exact (apart_base hR (H.free_positive hc) (H.free_inside hc)).symm
    · exact (apart_base hR ((H.take hn hcarve).positive _ htail)
        ((H.take hn hcarve).inside _ htail)).symm
  · -- the two halves of the block carry their new sizes, every other header its old one
    by_cases ht : d = tailOf 8 c n
    · rw [ht, hm2, size_setSize_same]
      rfl
    · rw [hm2, size_setSize_of_apart _ _ (apart_of_mem_ne hR htail hd (Ne.symm ht))]
      by_cases he : d = headOf c n
      · rw [he, hm1]
        exact size_setSize_same m (hdr c) _
      · have hd' : d ∈ H.free ++ H.live := by
          simp only [BlockHeap.take, hfs, hsplit, List.mem_append, List.mem_cons] at hd ⊢
          tauto
        rw [hm1, ← h.sizes d hd']
        have hapart := apart_of_mem_ne hR hhead hd (Ne.symm he)
        exact size_setSize_of_apart m _ hapart
  · have hpos := H.free_positive hc
    have hin := H.free_inside hc
    have hw := tailOf_within (u := 8) hlt.le
    have h1 := outside_hdr hR.fits hpos hin.2 (Block.Within.refl c) (hfree c hc)
    have h2 := outside_hdr hR.fits (b := tailOf 8 c n) hn (hw.2.trans hin.2) hw (hfree c hc)
    rw [hm2, hm1]
    exact (Memory.write_of_ne _ _ h2.2).trans (Memory.write_of_ne _ _ h1.2)

/-- **`_malloc` from the sentinel, when no free block is large enough.**  The search comes
back to the sentinel, `NULL` is returned and nothing is written. -/
theorem malloc_refines_none (hR : Region base lo hi) (hbase : base ≠ NULL)
    (h : Represents m base H) (nbytes : Word)
    (hcarve : carve 8 (mallocUnits nbytes).toNat H.free = none) :
    ∃ fuel, malloc fuel m base base nbytes = some (m, none) := by
  have hsmall : ∀ w ∈ H.free.map hdr, size m w < mallocUnits nbytes := by
    intro w hw
    obtain ⟨b, hb, rfl⟩ := List.mem_map.mp hw
    rw [BitVec.lt_def, h.toNat_size hR (List.mem_append_left _ hb)]
    exact carve_eq_none_iff.mp hcarve b hb
  have hne : ∀ w ∈ H.free.map hdr, w ≠ base := fun w hw he =>
    (List.nodup_cons.mp (ring_nodup hR H)).1 (he ▸ hw)
  have hbs : size m base < mallocUnits nbytes := by
    have := one_le_mallocUnits nbytes
    rw [h.base_size, BitVec.lt_def]
    exact this
  obtain ⟨fuel, hf⟩ := mallocPass_skip h.chain hsmall hne (mallocPass_none hbs)
  exact ⟨fuel, by rw [malloc, if_neg hbase, hf]⟩

/-- **`_malloc` from the sentinel refines first fit.**  The search stops at the first free
block that is large enough, the block returned and the ring left are those of
`BlockHeap.take`, and only headers of the ring and words of free blocks are written. -/
theorem malloc_refines_some (hR : Region base lo hi) (hbase : base ≠ NULL)
    (h : Represents m base H) (nbytes : Word) {b : Block} {fs : List Block}
    (hcarve : carve 8 (mallocUnits nbytes).toNat H.free = some (b, fs)) :
    ∃ fuel m', malloc fuel m base base nbytes = some (m', some (hdrAdd (hdr b) 1)) ∧
      Represents m' base (H.take (one_le_mallocUnits nbytes) hcarve) ∧
      SameOutside base H.free m m' := by
  obtain ⟨pre, c, post, hsplit, hsmall, hfit, hb, hfs⟩ := carve_eq_some hcarve
  have hc : c ∈ H.free := by simp [hsplit]
  have hsize : (size m (hdr c)).toNat = c.size := h.toNat_size hR (List.mem_append_left _ hc)
  have hchain := h.chain
  rw [hsplit, List.map_append, List.map_cons, seg_append] at hchain
  obtain ⟨y, hpre, rfl, hpost⟩ := hchain
  -- the search reaches `c`, since every block before it is too small and none is the sentinel
  have hskip : ∀ r, Loop.Returns (mallocPass m base (mallocUnits nbytes))
      ((pre.map hdr).getLastD base, hdr c) r →
      ∃ fuel, malloc fuel m base base nbytes = some r := by
    intro r hr
    have hlt : ∀ w ∈ pre.map hdr, size m w < mallocUnits nbytes := by
      intro w hw
      obtain ⟨d, hd, rfl⟩ := List.mem_map.mp hw
      rw [BitVec.lt_def, h.toNat_size hR (by simp [hsplit, hd])]
      exact hsmall d hd
    have hne : ∀ w ∈ pre.map hdr, w ≠ base := by
      intro w hw he
      have hnd := (List.nodup_cons.mp (ring_nodup hR H)).1
      rw [hsplit, List.map_append, List.mem_append] at hnd
      exact hnd (Or.inl (he ▸ hw))
    obtain ⟨fuel, hf⟩ := mallocPass_skip hpre hlt hne hr
    exact ⟨fuel, by rw [malloc, if_neg hbase, hf]⟩
  by_cases he : c.size = (mallocUnits nbytes).toNat
  · have heq : size m (hdr c) = mallocUnits nbytes := BitVec.eq_of_toNat_eq (hsize.trans he)
    obtain rfl : b = c := hb.trans (tailOf_eq_self he)
    obtain ⟨fuel, hf⟩ := hskip _ (Loop.returns_of_leave (mallocPass_eq_exact heq))
    exact ⟨fuel, _, hf, mallocPass_exact hR h (one_le_mallocUnits nbytes) hcarve hsplit
      (by simpa [remains, he] using hfs)⟩
  · have hlt : (mallocUnits nbytes).toNat < c.size := by omega
    have hnew := sub_sizeWord (h.sizes c (List.mem_append_left _ hc)) hlt.le
    have hq : hdrAdd (hdr c) (size m (hdr c) - mallocUnits nbytes) = hdr b := by
      rw [hnew, hb]
      exact hdrAdd_ofNat c _
    obtain ⟨fuel, hf⟩ := hskip _ (Loop.returns_of_leave (mallocPass_eq_split (by
      rwa [BitVec.lt_def, hsize])))
    rw [hq, hnew] at hf
    subst hb
    exact ⟨fuel, _, hf, mallocPass_split hR h (one_le_mallocUnits nbytes) hlt hcarve hsplit
      (by simpa [remains, he] using hfs) rfl (by simp)⟩

end Refinement

/-! ## `_free` -/

section Free

variable {m : Mem} {base : Word} {lo hi : ℕ} {H : BlockHeap 8 lo hi}

/-- The search passes over nodes whose successor is still below `p`. -/
lemma freePass_skip {p r : Word} {ws : List Word} {a z : Word}
    (hs : Seg (ptr m) (ptr m a) ws z) (hinc : (a :: ws).Pairwise (· < ·))
    (hp : ∀ w ∈ ws, w < p) :
    Loop.Returns (freePass m p) a r ↔ Loop.Returns (freePass m p) (ws.getLastD a) r := by
  induction ws generalizing a with
  | nil => rfl
  | cons w ws ih =>
      rw [List.pairwise_cons] at hinc
      simp only [List.mem_cons, forall_eq_or_imp] at hp
      rw [seg_cons] at hs
      rw [List.getLastD_cons, ← ih hs.2 hinc.2 hp.2]
      have haw : a < w := hinc.1 w (List.mem_cons_self ..)
      refine Loop.returns_again_iff ?_
      have h1 : ¬ (a < p ∧ p < w) := fun h => BitVec.lt_asymm h.2 hp.1
      have h2 : ¬ (w ≤ a ∧ (a < p ∨ p < w)) := fun h => BitVec.not_lt.mpr h.1 haw
      simp [freePass, hs.1, h1, h2]

/-- The search leaves at the last node below `p`. -/
lemma freePass_leave {p q : Word} (hq : q < p) (h : p < ptr m q ∨ ptr m q ≤ q) :
    Loop.Returns (freePass m p) q q := by
  refine Loop.returns_of_leave ?_
  by_cases hlt : p < ptr m q
  · simp [freePass, hq, hlt]
  · have hle : ptr m q ≤ q := h.resolve_left hlt
    simp [freePass, hq, hlt, hle]

lemma setSize_self (m : Mem) (p : Word) : setSize m p (size m p) = m :=
  Function.update_eq_self (p + 4) m

/-- The address behind a block, as the source computes it. -/
lemma hdrAdd_size {b : Block} {w : Word} (hw : w = BitVec.ofNat 32 b.size) :
    hdrAdd (hdr b) w = BitVec.ofNat 32 (b.stop 8) := by
  rw [hw, hdrAdd_ofNat, Block.stop]

/-- The address behind a block of the region is never the sentinel. -/
lemma stop_ne_base (hR : Region base lo hi) (hbase : base ≠ NULL) {b : Block}
    (hin : lo ≤ b.start ∧ b.stop 8 ≤ hi) : BitVec.ofNat 32 (b.stop 8) ≠ base := by
  intro he
  have h1 := hR.above
  have h2 := hR.fits
  have h3 : b.start ≤ b.stop 8 := Nat.le_add_right _ _
  have hnz : base.toNat ≠ 0 := fun h => hbase (BitVec.eq_of_toNat_eq h)
  have := congrArg BitVec.toNat he
  simp only [BitVec.toNat_ofNat] at this
  omega

/-- The address behind a block is the header of a later block exactly when they touch. -/
lemma stop_eq_hdr_iff (hhi : hi ≤ 2 ^ 32) {b c : Block} (hbc : b.stop 8 ≤ c.start)
    (hc : 0 < c.size) (hs : c.stop 8 ≤ hi) :
    BitVec.ofNat 32 (b.stop 8) = hdr c ↔ b.stop 8 = c.start := by
  have h1 := block_room hc hs
  constructor
  · intro he
    have := congrArg BitVec.toNat he
    simp only [hdr, BitVec.toNat_ofNat] at this
    omega
  · intro he
    rw [hdr, he]

/-- The first half of the link step: the block, merged with its successor if they touch,
becomes the head of what follows. -/
lemma freeUpper_spec (hR : Region base lo hi) (h : Represents m base H) {b : Block}
    (hend : BitVec.ofNat 32 (b.stop 8) ≠ base) (hb : b ∈ H.live) {post : List Block}
    (hpost : ∀ c ∈ post, c ∈ H.free)
    (hbefore : ∀ c ∈ post, b.Before 8 c) {q : Word} (hq : Apart (hdr b) q)
    (hseg : Seg (ptr m) (ptr m q) (post.map hdr) base) :
    ∃ s v post', consJoin 8 b post = ⟨b.start, s⟩ :: post' ∧ (∀ c ∈ post', c ∈ post) ∧
      freeUpper m (hdr b) q = setPtr (setSize m (hdr b) (BitVec.ofNat 32 s)) (hdr b) v ∧
      Seg (ptr m) v (post'.map hdr) base := by
  have hsize := h.sizes b (List.mem_append_right _ hb)
  have hkeep : setSize m (hdr b) (BitVec.ofNat 32 b.size) = m := hsize ▸ setSize_self m (hdr b)
  cases post with
  | nil =>
      rw [List.map_nil, seg_nil] at hseg
      refine ⟨b.size, base, [], rfl, by simp, ?_, rfl⟩
      have hne : hdrAdd (hdr b) (size m (hdr b)) ≠ ptr m q := by
        rwa [hdrAdd_size hsize, hseg]
      rw [freeUpper, if_neg hne, hkeep, hseg]
  | cons c cs =>
      rw [List.map_cons, seg_cons] at hseg
      have hc := hpost c (List.mem_cons_self ..)
      have hcond : hdrAdd (hdr b) (size m (hdr b)) = ptr m q ↔ b.stop 8 = c.start := by
        rw [hdrAdd_size hsize, hseg.1]
        exact stop_eq_hdr_iff hR.fits (hbefore c (List.mem_cons_self ..)).2
          (H.free_positive hc) (H.free_inside hc).2
      have hapart : Apart (hdr b) (hdr c) :=
        apart_hdr hR (List.mem_append_right _ hb) (List.mem_append_left _ hc)
          (hbefore c (List.mem_cons_self ..)).disjoint
      by_cases htouch : b.stop 8 = c.start
      · refine ⟨b.size + c.size, ptr m (hdr c), cs, by simp [consJoin, htouch, join],
          fun d hd => List.mem_cons_of_mem _ hd, ?_, hseg.2⟩
        have hsum : size m (hdr b) + size m (hdr c) = BitVec.ofNat 32 (b.size + c.size) := by
          rw [hsize, h.sizes c (List.mem_append_left _ hc), BitVec.ofNat_add]
        rw [freeUpper, if_pos (hcond.mpr htouch)]
        simp only [hseg.1, hsum, ptr_setSize_of_apart m _ hq, ptr_setSize_of_apart m _ hapart]
      · refine ⟨b.size, hdr c, c :: cs, by simp [consJoin, htouch], fun d hd => hd, ?_,
          rfl, hseg.2⟩
        rw [freeUpper, if_neg (mt hcond.mp htouch), hkeep, hseg.1]

/-- The links after the link step: the block `b` points to `v`, and the last node before it
to `t`. -/
lemma release_links (hR : Region base lo hi) {b : Block} (hb : b ∈ H.live)
    {pre post post' : List Block} (hsplit : H.free = pre ++ post)
    (hsub : ∀ c ∈ post', c ∈ post) {v z t : Word} {m2 : Mem}
    (hpre : Seg (ptr m) (ptr m base) (pre.map hdr) z)
    (hpost : Seg (ptr m) v (post'.map hdr) base)
    (hptr : ∀ x ∈ nodes base H, ptr m2 x =
      Function.update (Function.update (ptr m) (hdr b) v) ((pre.map hdr).getLastD base) t x) :
    Seg (ptr m2) (ptr m2 base) (pre.map hdr) t ∧ Seg (ptr m2) v (post'.map hdr) base ∧
      ptr m2 (hdr b) = v := by
  have hring := ring_nodup hR H
  rw [hsplit, List.map_append, ← List.cons_append] at hring
  have hpre_nodes : ∀ w ∈ base :: pre.map hdr, w ∈ nodes base H := fun w hw =>
    ring_subset_nodes (by rw [hsplit, List.map_append]; exact List.mem_append_left _ hw)
  have hpost_nodes : ∀ w ∈ post'.map hdr, w ∈ nodes base H := by
    intro w hw
    obtain ⟨c, hc, rfl⟩ := List.mem_map.mp hw
    exact hdr_mem_nodes (by simp [hsplit, hsub c hc])
  have hfree : ∀ c ∈ H.free, hdr b ≠ hdr c := fun c hc =>
    (apart_hdr hR (List.mem_append_left _ hc) (List.mem_append_right _ hb)
      (H.apart c hc b hb)).ne
  obtain ⟨h1, h2, h3⟩ := Seg.splice (p := hdr b) (v := v) (t := t)
    (List.nodup_append.mp hring).1
    (by
      rw [List.mem_cons]
      rintro (he | hw)
      · exact (apart_base hR (H.live_positive hb) (H.live_inside hb)).ne he
      · obtain ⟨c, hc, he⟩ := List.mem_map.mp hw
        exact hfree c (by simp [hsplit, hc]) he.symm)
    (by
      intro hw
      obtain ⟨c, hc, he⟩ := List.mem_map.mp hw
      exact hfree c (by simp [hsplit, hsub c hc]) he.symm)
    (by
      intro w hw hw'
      obtain ⟨c, hc, rfl⟩ := List.mem_map.mp hw'
      exact (List.nodup_append.mp hring).2.2 _ hw _ (List.mem_map_of_mem (hsub c hc)) rfl)
    hpre hpost rfl
  refine ⟨?_, h2.congr fun w hw => hptr w (hpost_nodes w hw), ?_⟩
  · rw [hptr base base_mem_nodes]
    exact h1.congr fun w hw => hptr w (hpre_nodes w (List.mem_cons_of_mem _ hw))
  · rw [hptr _ (hdr_mem_nodes (List.mem_append_right _ hb))]
    exact h3

lemma free_ne_live {f l : Block} (hf : f ∈ H.free) (hl : l ∈ H.live) : l ≠ f := fun he =>
  (H.apart f hf l hl).start_ne (by norm_num) (H.free_positive hf) (H.live_positive hl)
    (by rw [he])

lemma live_ne_of_mem_erase {b d : Block} (hd : d ∈ H.live.erase b) : d ≠ b := by
  have hnd : H.live.Nodup := H.live_disjoint.imp_of_mem fun ha _ h he =>
    h.start_ne (by norm_num) (H.live_positive ha) (he ▸ H.live_positive ha) (by rw [he])
  exact fun he => hnd.not_mem_erase (he ▸ hd)

/-- The blocks other than the one given back and its neighbours. -/
lemma mem_ne_of_kept {b : Block} (hb : b ∈ H.live) {pre post post' : List Block}
    (hsplit : H.free = pre ++ post) (hsub : ∀ c ∈ post', c ∈ post) {d : Block}
    (hd : (d ∈ pre ∨ d ∈ post') ∨ d ∈ H.live.erase b) : d ∈ H.free ++ H.live ∧ b ≠ d := by
  rcases hd with (hd | hd) | hd
  · have hmem : d ∈ H.free := by simp [hsplit, hd]
    exact ⟨List.mem_append_left _ hmem, free_ne_live hmem hb⟩
  · have hmem : d ∈ H.free := by simp [hsplit, hsub d hd]
    exact ⟨List.mem_append_left _ hmem, free_ne_live hmem hb⟩
  · exact ⟨List.mem_append_right _ (List.mem_of_mem_erase hd), (live_ne_of_mem_erase hd).symm⟩

/-- A block given back that does not touch the block before it is linked in behind it. -/
lemma release_keep (hR : Region base lo hi) (h : Represents m base H) {b : Block}
    (hb : b ∈ H.live) {pre post post' : List Block} (hsplit : H.free = pre ++ post)
    (hsub : ∀ c ∈ post', c ∈ post) {s : ℕ} {v z : Word}
    (hpre : Seg (ptr m) (ptr m base) (pre.map hdr) z)
    (hpost : Seg (ptr m) v (post'.map hdr) base)
    (hfree : (H.release (by decide) hb).free = pre ++ ⟨b.start, s⟩ :: post')
    {m2 : Mem} (hm2 : m2 = setPtr (setPtr (setSize m (hdr b) (BitVec.ofNat 32 s)) (hdr b) v)
      ((pre.map hdr).getLastD base) (hdr b)) :
    Represents m2 base (H.release (by decide) hb) ∧
      SameOutside base (b :: H.free) m m2 := by
  have hbn : hdr b ∈ nodes base H := hdr_mem_nodes (List.mem_append_right _ hb)
  have hring : (pre.map hdr).getLastD base ∈ base :: H.free.map hdr := getLastD_mem_ring hsplit
  have hq := ring_subset_nodes hring
  have hsize : ∀ x ∈ nodes base H, size m2 x =
      size (setSize m (hdr b) (BitVec.ofNat 32 s)) x := fun x hx => by
    rw [hm2, size_setPtr_node hR _ _ hq hx, size_setPtr_node hR _ _ hbn hx]
  have hptr : ∀ x ∈ nodes base H, ptr m2 x = Function.update (Function.update (ptr m) (hdr b) v)
      ((pre.map hdr).getLastD base) (hdr b) x := fun x hx => by
    rw [hm2, ptr_setPtr_eq, ptr_setPtr_eq]
    simp only [Function.update_apply, ptr_setSize_node hR m _ hbn hx]
  obtain ⟨hl1, hl2, hl3⟩ := release_links hR hb hsplit hsub hpre hpost hptr
  refine ⟨⟨?_, ?_, fun d hd => ?_⟩, fun x hx hout => ?_⟩
  · rw [hfree, List.map_append, List.map_cons, seg_append]
    exact ⟨hdr b, hl1, rfl, by rw [show hdr ⟨b.start, s⟩ = hdr b from rfl, hl3]; exact hl2⟩
  · rw [hsize base base_mem_nodes, size_setSize_of_apart _ _
      (apart_base hR (H.live_positive hb) (H.live_inside hb)).symm, h.base_size]
  · rw [hfree] at hd
    by_cases he : d = ⟨b.start, s⟩
    · rw [he]
      exact (hsize _ hbn).trans (size_setSize_same ..)
    · simp only [List.mem_append, List.mem_cons, he, false_or] at hd
      obtain ⟨hmem, hbd⟩ := mem_ne_of_kept hb hsplit hsub hd
      rw [hsize _ (hdr_mem_nodes hmem), size_setSize_of_apart _ _
        (apart_of_mem_ne hR (List.mem_append_right _ hb) hmem hbd), h.sizes d hmem]
  · have hqx := outside_ring hR hring hx fun c hc => hout c (List.mem_cons_of_mem _ hc)
    have hbx := outside_hdr hR.fits (H.live_positive hb) (H.live_inside hb).2
      (Block.Within.refl b) (hout b (List.mem_cons_self ..))
    rw [hm2]
    exact (Memory.write_of_ne _ _ hqx.1).trans
      ((Memory.write_of_ne _ _ hbx.1).trans (Memory.write_of_ne _ _ hbx.2))

/-- A block given back that touches the block before it is merged into it. -/
lemma release_merge (hR : Region base lo hi) (h : Represents m base H) {b a : Block}
    (hb : b ∈ H.live) {pre post post' : List Block} (hsplit : H.free = (pre ++ [a]) ++ post)
    (hsub : ∀ c ∈ post', c ∈ post) {s : ℕ} {v z : Word}
    (hpre : Seg (ptr m) (ptr m base) ((pre ++ [a]).map hdr) z)
    (hpost : Seg (ptr m) v (post'.map hdr) base)
    (hfree : (H.release (by decide) hb).free = pre ++ join a ⟨b.start, s⟩ :: post')
    {m2 : Mem} (hm2 : m2 = setPtr (setSize (setPtr (setSize m (hdr b) (BitVec.ofNat 32 s))
      (hdr b) v) (hdr a) (BitVec.ofNat 32 (a.size + s))) (hdr a) v) :
    Represents m2 base (H.release (by decide) hb) ∧
      SameOutside base (b :: H.free) m m2 := by
  have ha : a ∈ H.free := by simp [hsplit]
  have hbn : hdr b ∈ nodes base H := hdr_mem_nodes (List.mem_append_right _ hb)
  have han : hdr a ∈ nodes base H := hdr_mem_nodes (List.mem_append_left _ ha)
  have hlast : ((pre ++ [a]).map hdr).getLastD base = hdr a := by simp
  have hsize : ∀ x ∈ nodes base H, Apart (hdr a) x →
      size m2 x = size (setSize m (hdr b) (BitVec.ofNat 32 s)) x := fun x hx hax => by
    rw [hm2, size_setPtr_node hR _ _ han hx, size_setSize_of_apart _ _ hax,
      size_setPtr_node hR _ _ hbn hx]
  have hptr : ∀ x ∈ nodes base H, ptr m2 x = Function.update (Function.update (ptr m) (hdr b) v)
      (((pre ++ [a]).map hdr).getLastD base) v x := fun x hx => by
    rw [hm2, ptr_setPtr_eq, hlast]
    simp only [Function.update_apply, ptr_setSize_node hR _ _ han hx, ptr_setPtr_eq,
      ptr_setSize_node hR m _ hbn hx]
  obtain ⟨hl1, hl2, -⟩ := release_links hR hb hsplit hsub hpre hpost hptr
  refine ⟨⟨?_, ?_, fun d hd => ?_⟩, fun x hx hout => ?_⟩
  · rw [List.map_append, seg_append] at hl1
    obtain ⟨y, hy, rfl, hav⟩ := hl1
    rw [hfree, List.map_append, List.map_cons, seg_append]
    refine ⟨_, hy, rfl, ?_⟩
    rw [show hdr (join a ⟨b.start, s⟩) = hdr a from rfl, show ptr m2 (hdr a) = v from hav]
    exact hl2
  · have hab := (apart_base hR (H.free_positive ha) (H.free_inside ha)).symm
    rw [hsize base base_mem_nodes hab, size_setSize_of_apart _ _
      (apart_base hR (H.live_positive hb) (H.live_inside hb)).symm, h.base_size]
  · rw [hfree] at hd
    by_cases he : d = join a ⟨b.start, s⟩
    · rw [he, hm2]
      exact (size_setPtr_same _ (hdr a) v).trans (size_setSize_same ..)
    · have hsorted := H.sorted
      rw [hsplit, List.append_assoc, List.singleton_append, List.pairwise_append,
        List.pairwise_cons] at hsorted
      obtain ⟨-, ⟨hapost, -⟩, hprea⟩ := hsorted
      simp only [List.mem_append, List.mem_cons, he, false_or] at hd
      obtain ⟨hmem, hbd⟩ := mem_ne_of_kept hb hsplit hsub
        (hd.imp_left (Or.imp_left (List.mem_append_left [a])))
      have had : a ≠ d := by
        rintro rfl
        rcases hd with (hd | hd) | hd
        · exact absurd (hprea a hd a (List.mem_cons_self ..)).1 (lt_irrefl _)
        · exact absurd (hapost a (hsub a hd)).1 (lt_irrefl _)
        · exact free_ne_live ha (List.mem_of_mem_erase hd) rfl
      rw [hsize _ (hdr_mem_nodes hmem)
          (apart_of_mem_ne hR (List.mem_append_left _ ha) hmem had),
        size_setSize_of_apart _ _
          (apart_of_mem_ne hR (List.mem_append_right _ hb) hmem hbd), h.sizes d hmem]
  · have hax := outside_hdr hR.fits (H.free_positive ha) (H.free_inside ha).2
      (Block.Within.refl a) (hout a (List.mem_cons_of_mem _ ha))
    have hbx := outside_hdr hR.fits (H.live_positive hb) (H.live_inside hb).2
      (Block.Within.refl b) (hout b (List.mem_cons_self ..))
    rw [hm2]
    exact (Memory.write_of_ne _ _ hax.1).trans ((Memory.write_of_ne _ _ hax.2).trans
      ((Memory.write_of_ne _ _ hbx.1).trans (Memory.write_of_ne _ _ hbx.2)))

/-- The search of `_free` from the sentinel finds the last node below the block. -/
lemma freePass_search (hR : Region base lo hi) {b : Block} (hb : b ∈ H.live)
    {pre post : List Block} (hsplit : H.free = pre ++ post)
    (hpre : ∀ a ∈ pre, a.Before 8 b) (hpost : ∀ c ∈ post, b.Before 8 c) {z : Word}
    (hs : Seg (ptr m) (ptr m base) (pre.map hdr) z) (hz : Seg (ptr m) z (post.map hdr) base) :
    Loop.Returns (freePass m (hdr b)) base ((pre.map hdr).getLastD base) := by
  have hinc := ring_increasing hR H
  rw [hsplit, List.map_append, ← List.cons_append] at hinc
  have hbl := List.mem_append_right H.free hb
  have hlt : ∀ w ∈ base :: pre.map hdr, w < hdr b := by
    intro w hw
    rcases List.mem_cons.mp hw with rfl | hw
    · exact base_lt_hdr hR hbl
    · obtain ⟨a, ha, rfl⟩ := List.mem_map.mp hw
      exact hdr_lt hR (by simp [hsplit, ha]) hbl (hpre a ha)
  refine (freePass_skip hs (List.pairwise_append.mp hinc).1
    fun w hw => hlt w (List.mem_cons_of_mem _ hw)).mpr ?_
  have hq := getLastD_mem base (pre.map hdr)
  refine freePass_leave (hlt _ hq) ?_
  rw [hs.next_getLastD]
  cases post with
  | nil =>
      -- the search has wrapped around to the sentinel
      rw [List.map_nil, seg_nil] at hz
      right
      rw [hz]
      rcases List.mem_cons.mp hq with he | hw
      · rw [he]
        exact BitVec.le_refl _
      · exact BitVec.le_of_lt (List.rel_of_pairwise_cons (List.pairwise_append.mp hinc).1 hw)
  | cons c cs =>
      left
      rw [hz.1]
      exact hdr_lt hR hbl (by simp [hsplit]) (hpost c (List.mem_cons_self ..))

/-- `_free` from the sentinel, for a block that does not end where the sentinel begins. -/
lemma Represents.free_base (hR : Region base lo hi) (h : Represents m base H) {b : Block}
    (hend : BitVec.ofNat 32 (b.stop 8) ≠ base) (hb : b ∈ H.live) :
    ∃ fuel m', free fuel m base (hdrAdd (hdr b) 1) = some m' ∧
      Represents m' base (H.release (by decide) hb) ∧
      SameOutside base (b :: H.free) m m' := by
  obtain ⟨hpre, hpost⟩ := takeWhile_dropWhile_before (u := 8) (by norm_num)
    (H.live_positive hb) (fun _ hc => H.free_positive hc) H.sorted
    fun c hc => H.apart c hc b hb
  have hsplit := (List.takeWhile_append_dropWhile
    (p := fun c : Block => decide (c.start < b.start)) (l := H.free)).symm
  have hins : (H.release (by decide) hb).free = insertJoin 8 b H.free := rfl
  rw [insertJoin] at hins
  generalize H.free.takeWhile (fun c => decide (c.start < b.start)) = pre at hpre hsplit hins
  generalize H.free.dropWhile (fun c => decide (c.start < b.start)) = post
    at hpost hsplit hins
  have hchain := h.chain
  rw [hsplit, List.map_append, seg_append] at hchain
  obtain ⟨z, hs, hz⟩ := hchain
  have hp : hdrAdd (hdr b) 1 - HEAP_UNIT_SIZE = hdr b := hdrAdd_one_sub (hdr b)
  obtain ⟨fuel, hf⟩ := freePass_search hR hb hsplit hpre hpost hs hz
  have hbl : b ∈ H.free ++ H.live := List.mem_append_right _ hb
  have hpre_apart : ∀ a ∈ pre, Apart (hdr a) (hdr b) := fun a ha =>
    apart_hdr hR (by simp [hsplit, ha]) hbl (hpre a ha).disjoint
  have hbq : Apart (hdr b) ((pre.map hdr).getLastD base) := by
    rcases List.mem_cons.mp (getLastD_mem base (pre.map hdr)) with he | hw
    · rw [he]
      exact (apart_base hR (H.live_positive hb) (H.live_inside hb)).symm
    · obtain ⟨a, ha, he⟩ := List.mem_map.mp hw
      rw [← he]
      exact (hpre_apart a ha).symm
  obtain ⟨s, v, post', hcons, hsub, hupper, hv⟩ := freeUpper_spec hR h hend hb
    (fun c hc => by simp [hsplit, hc]) hpost hbq (hs.next_getLastD ▸ hz)
  rw [hcons] at hins
  refine ⟨fuel, freeLower (freeUpper m (hdr b) ((pre.map hdr).getLastD base)) (hdr b)
    ((pre.map hdr).getLastD base), by simp only [free, hp, hf, Option.map_some], ?_⟩
  rw [hupper]
  rcases List.eq_nil_or_concat' pre with rfl | ⟨pre', a, rfl⟩
  · -- the block goes right behind the sentinel, which has size zero and never touches it
    have hcond : ¬ hdrAdd base (size (setPtr (setSize m (hdr b) (BitVec.ofNat 32 s)) (hdr b) v)
        base) = hdr b := by
      have hab := apart_base hR (H.live_positive hb) (H.live_inside hb)
      rw [size_setPtr_of_apart _ _ hab.symm, size_setSize_of_apart _ _ hab.symm, h.base_size,
        hdrAdd_zero]
      exact hab.ne.symm
    refine release_keep hR h hb hsplit hsub hs hv hins ?_
    rw [freeLower]
    exact if_neg hcond
  · have hlast : ((pre' ++ [a]).map hdr).getLastD base = hdr a := by simp
    have ha : a ∈ H.free := by simp [hsplit]
    have hab := hpre_apart a (by simp)
    have hasize : size (setPtr (setSize m (hdr b) (BitVec.ofNat 32 s)) (hdr b) v) (hdr a) =
        BitVec.ofNat 32 a.size := by
      rw [size_setPtr_of_apart _ _ hab.symm, size_setSize_of_apart _ _ hab.symm,
        h.sizes a (List.mem_append_left _ ha)]
    have hcond := stop_eq_hdr_iff hR.fits (hpre a (by simp)).2 (H.live_positive hb)
      (H.live_inside hb).2
    rw [← hdrAdd_size hasize] at hcond
    rw [appendJoin_concat] at hins
    by_cases htouch : a.stop 8 = b.start
    · refine release_merge hR h hb hsplit hsub hs hv (by simpa [consJoin, htouch] using hins) ?_
      rw [hlast, freeLower, if_pos (hcond.mpr htouch), hasize, size_setPtr_same,
        size_setSize_same, ← BitVec.ofNat_add]
      simp only [ptr_setSize_of_apart _ _ hab, ptr_setPtr_same]
    · refine release_keep hR h hb hsplit hsub hs hv (by simpa [consJoin, htouch] using hins) ?_
      rw [hlast, freeLower, if_neg (mt hcond.mp htouch)]

/-- **`_free` from the sentinel refines `BlockHeap.release`.**  The search terminates, the
block goes to its place in address order and is merged with the neighbours it touches, and
only headers of the ring, words of free blocks and words of the block itself are written. -/
theorem free_refines (hR : Region base lo hi) (hbase : base ≠ NULL) (h : Represents m base H)
    {b : Block} (hb : b ∈ H.live) :
    ∃ fuel m', free fuel m base (hdrAdd (hdr b) 1) = some m' ∧
      Represents m' base (H.release (by decide) hb) ∧
      SameOutside base (b :: H.free) m m' :=
  h.free_base hR (stop_ne_base hR hbase (H.live_inside hb)) hb

end Free

end Rpi2Baremetal
