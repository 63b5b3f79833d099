import Rpi2Baremetal.Properties.HeapSearch

/-!
# The handle of the free list

Both functions of the allocator move their `freep` along and give nothing back, so the caller
goes on with the node it had.  That node can leave the list: `_malloc` takes it out when it is
the block that fits exactly, and `_free` merges it into the block given back when that block
ends where the node begins.  As long as it is on the list it makes no difference to `_free`
which node it is.
-/

namespace Rpi2Baremetal

open Framework

variable {m m' : Mem} {base freep nbytes p q : Word} {lo hi : ℕ} {H : BlockHeap 8 lo hi}

/-- `p` is a node of the circular list through the sentinel. -/
def OnFreeList (m : Mem) (base p : Word) : Prop := ∃ n, (ptr m)^[n] base = p

lemma FreeList.onFreeList_iff {l : List Word} (h : FreeList m base l) :
    OnFreeList m base p ↔ p ∈ l := by
  obtain ⟨us, vs, rfl⟩ := List.append_of_mem h.base_mem
  have hring := h.ring.rotate
  rw [List.cons_append] at hring
  rw [OnFreeList, ← hring.mem_iff_iterate]
  simp only [List.mem_cons, List.mem_append]
  tauto

lemma Represents.extent_hdr (hR : Region base lo hi) (h : Represents m base H) {b : Block}
    (hb : b ∈ H.free ++ H.live) : extent m (hdr b) = b := by
  have hpos := H.positive b hb
  rw [extent, h.toNat_size hR hb, toNat_hdr hR.fits hpos (H.inside b hb).2,
    Nat.max_eq_right hpos]

lemma Represents.extent_base (h : Represents m base H) : extent m base = ⟨base.toNat, 1⟩ := by
  rw [extent, h.base_size]
  rfl

/-- The ring of a block heap is a free list. -/
lemma Represents.freeList (hR : Region base lo hi) (h : Represents m base H) :
    FreeList m base (base :: H.free.map hdr) where
  ring := h.chain
  base_mem := List.mem_cons_self ..
  base_size := h.base_size
  disjoint := by
    have hmap : (H.free.map hdr).map (extent m) = H.free := by
      rw [List.map_map]
      refine (List.map_congr_left fun b hb => ?_).trans (List.map_id _)
      exact h.extent_hdr hR (List.mem_append_left _ hb)
    rw [List.map_cons, hmap, h.extent_base, List.pairwise_cons]
    refine ⟨fun b hb => Or.inl ?_, H.sorted.imp fun hab => hab.disjoint⟩
    exact hR.above.trans (H.free_inside hb).1
  fits := by
    intro p hp
    rcases List.mem_cons.mp hp with rfl | hp
    · rw [h.extent_base]
      exact hR.above.trans (hR.le.trans hR.fits)
    · obtain ⟨b, hb, rfl⟩ := List.mem_map.mp hp
      rw [h.extent_hdr hR (List.mem_append_left _ hb)]
      exact (H.free_inside hb).2.trans hR.fits

/-- The ring in the order of a search that starts at its node `freep`. -/
lemma Represents.freeList_from (hR : Region base lo hi) (h : Represents m base H)
    (hfreep : freep ∈ base :: H.free.map hdr) :
    ∃ ws, FreeList m base (ws ++ [freep]) ∧
      ∀ p, p ∈ ws ++ [freep] ↔ p ∈ base :: H.free.map hdr := by
  obtain ⟨us, vs, hsplit⟩ := List.append_of_mem hfreep
  have hlist := h.freeList hR
  rw [hsplit, List.append_cons] at hlist
  refine ⟨vs ++ us, ?_, fun p => ?_⟩
  · rw [List.append_assoc]
    exact hlist.rotate
  · rw [hsplit]
    simp only [List.mem_append, List.mem_cons, List.not_mem_nil, or_false]
    tauto

/-! ## `_free` from any node -/

/-- The search of `_free` climbs from a node above the block to the sentinel. -/
lemma freePass_climb {a r : Word} {ws : List Word} (hs : Seg (ptr m) (ptr m a) ws base)
    (hinc : (a :: ws).Pairwise (· < ·)) (habove : ∀ w ∈ a :: ws, p < w) (hbase : base < p) :
    Loop.Returns (freePass m p) a r ↔ Loop.Returns (freePass m p) base r := by
  induction ws generalizing a with
  | nil =>
      rw [seg_nil] at hs
      have hpa := habove a (List.mem_cons_self ..)
      have h1 : ¬ (a < p ∧ p < base) := fun h => BitVec.lt_asymm h.1 hpa
      have h2 : ¬ (base ≤ a ∧ (a < p ∨ p < base)) := fun h =>
        h.2.elim (BitVec.lt_asymm hpa) (BitVec.lt_asymm hbase)
      exact Loop.returns_again_iff (by simp [freePass, hs, h1, h2])
  | cons w ws ih =>
      rw [List.pairwise_cons] at hinc
      rw [seg_cons] at hs
      have haw := hinc.1 w (List.mem_cons_self ..)
      have hpa := habove a (List.mem_cons_self ..)
      rw [← ih hs.2 hinc.2 fun v hv => habove v (List.mem_cons_of_mem _ hv)]
      have h1 : ¬ (a < p ∧ p < w) := fun h => BitVec.lt_asymm h.1 hpa
      have h2 : ¬ (w ≤ a ∧ (a < p ∨ p < w)) := fun h => BitVec.not_lt.mpr h.1 haw
      exact Loop.returns_again_iff (by simp [freePass, hs.1, h1, h2])

/-- The search of `_free` ends at the same place from every node. -/
lemma freePass_from {a r : Word} {ws : List Word} (hs : Seg (ptr m) (ptr m base) ws base)
    (hinc : (base :: ws).Pairwise (· < ·)) (hbase : base < p) (hp : p ∉ ws)
    (ha : a ∈ base :: ws) :
    Loop.Returns (freePass m p) a r ↔ Loop.Returns (freePass m p) base r := by
  rcases List.mem_cons.mp ha with rfl | ha
  · rfl
  · obtain ⟨us, vs, rfl⟩ := List.append_of_mem ha
    have hround := hs
    rw [seg_append] at hround
    obtain ⟨y, hus, rfl, hvs⟩ := hround
    rw [← List.cons_append, List.pairwise_append] at hinc
    obtain ⟨hinc_us, hinc_vs, hcross⟩ := hinc
    by_cases hlt : y < p
    · -- the search from the sentinel comes by
      have hround : Seg (ptr m) (ptr m base) (us ++ [y]) (ptr m y) :=
        seg_append.mpr ⟨y, hus, rfl, rfl⟩
      rw [freePass_skip hround ?_ ?_, List.getLastD_concat]
      · rw [← List.cons_append, List.pairwise_append]
        refine ⟨hinc_us, List.pairwise_singleton _ _, fun x hx z hz => ?_⟩
        rw [List.mem_singleton.mp hz]
        exact hcross x hx y (List.mem_cons_self ..)
      · intro w hw
        rcases List.mem_append.mp hw with hw | hw
        · have hwy := hcross w (List.mem_cons_of_mem _ hw) y (List.mem_cons_self ..)
          exact BitVec.lt_trans hwy hlt
        · rwa [List.mem_singleton.mp hw]
    · have hne : y ≠ p := fun he => hp (by simp [he])
      have hpy : p < y := BitVec.lt_of_le_ne (BitVec.not_lt.mp hlt) (Ne.symm hne)
      refine freePass_climb hvs hinc_vs (fun w hw => ?_) hbase
      rcases List.mem_cons.mp hw with rfl | hw
      · exact hpy
      · exact BitVec.lt_trans hpy (List.rel_of_pairwise_cons hinc_vs hw)

/-- `_free` comes to the same from every node of the ring. -/
lemma Represents.free_from (hR : Region base lo hi) (h : Represents m base H)
    (hfreep : freep ∈ base :: H.free.map hdr) {b : Block} (hb : b ∈ H.live) {fuel : ℕ}
    (hm : free fuel m base (payload b) = some m') :
    ∃ fuel, free fuel m freep (payload b) = some m' := by
  have hp : payload b - HEAP_UNIT_SIZE = hdr b := header_payload b
  rw [free, Option.map_eq_some_iff, hp] at hm
  obtain ⟨q, hq, rfl⟩ := hm
  have hnot : hdr b ∉ H.free.map hdr := by
    intro hmem
    obtain ⟨c, hc, he⟩ := List.mem_map.mp hmem
    exact (apart_hdr hR (List.mem_append_left _ hc) (List.mem_append_right _ hb)
      (H.apart c hc b hb)).ne he.symm
  obtain ⟨fuel, hf⟩ := (freePass_from h.chain (ring_increasing hR H)
    (base_lt_hdr hR (List.mem_append_right _ hb)) hnot hfreep).mpr ⟨fuel, hq⟩
  exact ⟨fuel, by simp only [free, hp, hf, Option.map_some]⟩

/-! ## The handle -/

/-- `_malloc` keeps the handle on the list unless it takes the handle's own block, whole. -/
lemma Represents.malloc_handle_iff (hR : Region base lo hi) (hbase : base ≠ NULL)
    (h : Represents m base H) (hfreep : freep ∈ base :: H.free.map hdr) (nbytes : Word) :
    (∃ fuel m' r, malloc fuel m base freep nbytes = some (m', r) ∧ OnFreeList m' base freep) ↔
      ¬ (size m freep = mallocUnits nbytes ∧ ∀ q ∈ base :: H.free.map hdr, q ≠ freep →
        size m q < mallocUnits nbytes) := by
  have hnull : freep ≠ NULL := by
    rcases List.mem_cons.mp hfreep with rfl | hmem
    · exact hbase
    · obtain ⟨c, hc, rfl⟩ := List.mem_map.mp hmem
      have hlt := base_lt_hdr hR (List.mem_append_left _ hc)
      rw [BitVec.lt_def] at hlt
      intro he
      rw [he, show NULL.toNat = 0 from rfl] at hlt
      omega
  obtain ⟨ws, hlist, hmem⟩ := h.freeList_from hR hfreep
  have hnd := hlist.nodup
  by_cases hsmall : ∀ q ∈ ws ++ [freep], size m q < mallocUnits nbytes
  · obtain ⟨fuel, hm⟩ := hlist.malloc_none hnull hsmall
    have hlt := hsmall freep (by simp)
    refine iff_of_true ⟨fuel, m, none, hm, hlist.onFreeList_iff.mpr (by simp)⟩ fun hex => ?_
    rw [hex.1] at hlt
    exact BitVec.lt_irrefl _ hlt
  · obtain ⟨pre, p, post, hsplit, hpre, hfit⟩ := exists_first_fit hsmall
    obtain ⟨fuel, m', ap, hm, htakes⟩ := hlist.malloc_some hnull hsplit hpre hfit
    have hstay : (∃ fuel m' r, malloc fuel m base freep nbytes = some (m', r) ∧
        OnFreeList m' base freep) ↔ OnFreeList m' base freep := by
      refine ⟨?_, fun hon => ⟨fuel, m', some ap, hm, hon⟩⟩
      rintro ⟨fuel', m'', r, hm', hon⟩
      cases Arena.malloc_unique hm hm'
      exact hon
    rw [hstay]
    have hlast : (∀ q ∈ base :: H.free.map hdr, q ≠ freep → size m q < mallocUnits nbytes) ↔
        p = freep := by
      constructor
      · intro hothers
        by_contra hne
        have hp := hothers p ((hmem p).mp (by simp [hsplit])) hne
        exact absurd hfit (BitVec.not_le.mpr hp)
      · rintro rfl q hq hne
        have hq' := (hmem q).mpr hq
        rw [hsplit, search_ends hsplit hnd, List.mem_append, List.mem_singleton] at hq'
        exact hpre q (hq'.resolve_right hne)
    have hsame : size m freep = mallocUnits nbytes ∧ p = freep ↔
        size m p = mallocUnits nbytes ∧ p = freep := and_congr_left fun he => by rw [he]
    rw [hlast, hsame, htakes.freeList_left.onFreeList_iff]
    exact freep_mem_leftNodes_iff hsplit hnd _

/-- `_free` keeps the handle on the list unless the block given back ends where the handle's
block begins. -/
lemma Represents.free_handle_iff (hR : Region base lo hi) (hbase : base ≠ NULL)
    (h : Represents m base H) (hfreep : freep ∈ base :: H.free.map hdr) {b : Block}
    (hb : b ∈ H.live) :
    (∃ fuel m', free fuel m freep (payload b) = some m' ∧ OnFreeList m' base freep) ↔
      hdrAdd (hdr b) (size m (hdr b)) ≠ freep := by
  obtain ⟨fuel, m', hm, hrep, -⟩ := free_refines hR hbase h hb
  obtain ⟨fuel', hm'⟩ := h.free_from hR hfreep hb hm
  have hstay : (∃ fuel m', free fuel m freep (payload b) = some m' ∧ OnFreeList m' base freep) ↔
      OnFreeList m' base freep := by
    refine ⟨?_, fun hon => ⟨fuel', m', hm', hon⟩⟩
    rintro ⟨fuel'', m'', hm'', hon⟩
    rwa [Arena.free_unique hm'' hm'] at hon
  have hstop : hdrAdd (hdr b) (size m (hdr b)) = BitVec.ofNat 32 (b.stop 8) := by
    rw [h.sizes b (List.mem_append_right _ hb)]
    exact hdrAdd_ofNat b b.size
  rw [hstay, hstop, (hrep.freeList hR).onFreeList_iff]
  have hbin := H.live_inside hb
  have habove := hR.above
  have hfits := hR.fits
  have hbase0 : base.toNat ≠ 0 := fun he => hbase (BitVec.eq_of_toNat_eq he)
  have hlt := Block.start_lt_stop (u := 8) (by norm_num) (H.live_positive hb)
  have hmod := BitVec.toNat_ofNat (b.stop 8) 32
  rcases List.mem_cons.mp hfreep with rfl | hmem
  · -- the sentinel lies below every block
    refine iff_of_true (List.mem_cons_self ..) fun he => ?_
    rw [he] at hmod
    omega
  · obtain ⟨c, hc, rfl⟩ := List.mem_map.mp hmem
    have hcf := List.mem_append_left H.live hc
    have hcstart := toNat_hdr hR.fits (H.positive c hcf) (H.inside c hcf).2
    have hcin := H.inside c hcf
    have htouch : BitVec.ofNat 32 (b.stop 8) = hdr c ↔ b.stop 8 = c.start := by
      refine ⟨fun he => ?_, fun he => by rw [he, hdr]⟩
      rw [he, hcstart] at hmod
      omega
    have hnode : hdr c ∈ base :: (H.release (by decide) hb).free.map hdr ↔
        c.start ∈ (insertJoin 8 b H.free).map Block.start := by
      have hne : hdr c ≠ base := fun he => by
        have := congrArg BitVec.toNat he
        omega
      rw [List.mem_cons, or_iff_right hne, List.mem_map, List.mem_map]
      refine exists_congr fun d => and_congr_right fun hd => ?_
      have hdf := List.mem_append_left (H.release (by decide) hb).live hd
      have hdstart := toNat_hdr hR.fits ((H.release (by decide) hb).positive d hdf)
        ((H.release (by decide) hb).inside d hdf).2
      refine ⟨fun he => ?_, fun he => by rw [hdr, hdr, he]⟩
      rw [← hdstart, he, hcstart]
    rw [hnode, ne_eq, htouch]
    exact start_mem_insertJoin_iff (by norm_num) (H.live_positive hb)
      (fun _ hd => H.free_positive hd) H.sorted (fun d hd => H.apart d hd b hb) hc

/-- **The handle of the free list.**  For every address-ordered free list above its sentinel,
every node `freep` of it, every request and every block to give back: the caller's `freep` is
still on the list after `_malloc` unless the only block large enough is that of `freep` and fits
exactly, and after `_free` unless the block given back ends where `freep` begins. -/
theorem freep_stays_iff (hR : Region base lo hi) (hbase : base ≠ NULL) (h : Represents m base H)
    (hfreep : freep ∈ base :: H.free.map hdr) :
    (∀ nbytes, (∃ fuel m' r, malloc fuel m base freep nbytes = some (m', r) ∧
      OnFreeList m' base freep) ↔
        ¬ (size m freep = mallocUnits nbytes ∧ ∀ q ∈ base :: H.free.map hdr, q ≠ freep →
          size m q < mallocUnits nbytes)) ∧
    ∀ b ∈ H.live, (∃ fuel m', free fuel m freep (payload b) = some m' ∧
      OnFreeList m' base freep) ↔ hdrAdd (hdr b) (size m (hdr b)) ≠ freep :=
  ⟨h.malloc_handle_iff hR hbase hfreep, fun _ hb => h.free_handle_iff hR hbase hfreep hb⟩

lemma fourUnits_handle : 0x1008 ∈ Arena.fourUnits.base :: Arena.fourUnits.whole.free.map hdr :=
  List.mem_cons_of_mem _ (List.mem_cons_self ..)

/-- A request of eight bytes leaves a unit of the handle's block. -/
theorem freep_stays_iff_fourUnits : ∃ fuel m' r,
    malloc fuel Arena.fourUnitsMem 0x1000 0x1008 8 = some (m', r) ∧
      OnFreeList m' 0x1000 0x1008 := by
  refine ((freep_stays_iff Arena.fourUnits.region Arena.fourUnits.base_ne
    Arena.fourUnits_initial.represents fourUnits_handle).1 8).mpr fun hcon => ?_
  exact absurd hcon.1 (by decide)

/-- A request of sixteen bytes takes the handle's block. -/
theorem freep_dangles : ¬ ∀ (m : Mem) (base freep nbytes : Word) (lo hi : ℕ)
    (H : BlockHeap 8 lo hi), Region base lo hi → base ≠ NULL → Represents m base H →
      freep ∈ base :: H.free.map hdr →
      ∃ fuel m' r, malloc fuel m base freep nbytes = some (m', r) ∧ OnFreeList m' base freep := by
  intro hclaim
  have hR := Arena.fourUnits.region
  have hrep := Arena.fourUnits_initial.represents
  have hstays := hclaim _ _ _ 16 _ _ _ hR Arena.fourUnits.base_ne hrep fourUnits_handle
  refine (hrep.malloc_handle_iff hR Arena.fourUnits.base_ne fourUnits_handle 16).mp hstays ?_
  refine ⟨by decide, fun q hq hne => ?_⟩
  rcases List.mem_cons.mp hq with rfl | hq
  · decide
  · exact absurd (List.mem_singleton.mp hq) hne

/-! ## The result of `_free` -/

/-- The free list through the sentinel `base` holds the blocks `bs`, in address order and above
the sentinel. -/
structure FreeBlocks (m : Mem) (base : Word) (bs : List Block) : Prop where
  chain : Seg (ptr m) (ptr m base) (bs.map hdr) base
  base_size : size m base = 0
  sizes : ∀ c ∈ bs, size m (hdr c) = BitVec.ofNat 32 c.size
  sorted : bs.Pairwise (Block.Before 8)
  positive : ∀ c ∈ bs, 0 < c.size
  inside : ∀ c ∈ bs, base.toNat + 8 ≤ c.start ∧ c.stop 8 ≤ 2 ^ 32

/-- `b` is a block above the sentinel that is disjoint from the free blocks `bs`. -/
structure Outside (m : Mem) (base : Word) (bs : List Block) (b : Block) : Prop where
  size_eq : size m (hdr b) = BitVec.ofNat 32 b.size
  positive : 0 < b.size
  inside : base.toNat + 8 ≤ b.start ∧ b.stop 8 ≤ 2 ^ 32
  disjoint : ∀ c ∈ bs, c.Disjoint 8 b

section Start

variable {bs : List Block} {b : Block} {f g : Word}

/-- The block heap of a free list and one block outside it. -/
def FreeBlocks.heap (h : FreeBlocks m base bs) (hb : Outside m base bs b) :
    BlockHeap 8 (base.toNat + 8) (2 ^ 32) where
  free := bs
  live := [b]
  sorted := h.sorted
  live_disjoint := List.pairwise_singleton _ _
  apart c hc l hl := by
    rw [List.mem_singleton.mp hl]
    exact hb.disjoint c hc
  positive c hc := by
    rcases List.mem_append.mp hc with hc | hc
    · exact h.positive c hc
    · rw [List.mem_singleton.mp hc]
      exact hb.positive
  inside c hc := by
    rcases List.mem_append.mp hc with hc | hc
    · exact h.inside c hc
    · rw [List.mem_singleton.mp hc]
      exact hb.inside

lemma Outside.region (hb : Outside m base bs b) : Region base (base.toNat + 8) (2 ^ 32) where
  above := le_rfl
  le := hb.inside.1.trans ((Nat.le_add_right _ _).trans hb.inside.2)
  fits := le_rfl

lemma FreeBlocks.represents (h : FreeBlocks m base bs) (hb : Outside m base bs b) :
    Represents m base (h.heap hb) where
  chain := h.chain
  base_size := h.base_size
  sizes c hc := by
    rcases List.mem_append.mp hc with hc | hc
    · exact h.sizes c hc
    · rw [List.mem_singleton.mp hc]
      exact hb.size_eq

/-- The free list of a block heap. -/
lemma Represents.freeBlocks {H : BlockHeap 8 (base.toNat + 8) (2 ^ 32)}
    (h : Represents m base H) : FreeBlocks m base H.free where
  chain := h.chain
  base_size := h.base_size
  sizes c hc := h.sizes c (List.mem_append_left _ hc)
  sorted := H.sorted
  positive _ hc := H.free_positive hc
  inside _ hc := H.free_inside hc

/-- `_free` from the sentinel comes to an end, wherever the block ends. -/
lemma Represents.free_returns (hR : Region base lo hi) (h : Represents m base H) {b : Block}
    (hb : b ∈ H.live) : ∃ fuel m', free fuel m base (payload b) = some m' := by
  obtain ⟨hpre, hpost⟩ := takeWhile_dropWhile_before (u := 8) (by norm_num)
    (H.live_positive hb) (fun _ hc => H.free_positive hc) H.sorted
    fun c hc => H.apart c hc b hb
  have hsplit := (List.takeWhile_append_dropWhile
    (p := fun c : Block => decide (c.start < b.start)) (l := H.free)).symm
  have hchain := h.chain
  rw [hsplit, List.map_append, seg_append] at hchain
  obtain ⟨z, hs, hz⟩ := hchain
  obtain ⟨fuel, hf⟩ := freePass_search hR hb hsplit hpre hpost hs hz
  have hp : payload b - HEAP_UNIT_SIZE = hdr b := header_payload b
  exact ⟨fuel, _, by rw [free, hp, hf, Option.map_some]⟩

/-- **Where `_free` starts.**  For every address-ordered free list above its sentinel, every
block outside it and every two nodes `f` and `g` of the list: `_free` comes to an end from
both of them and with the same memory.  In it the block is at its place in address order,
merged with the free block that ends where it begins and with the one that begins where it
ends, and no word but of the sentinel, of free blocks and of the block itself is written.  The
list is described for a block that does not run up to the end of the address space, where a
sentinel at the null address would begin again. -/
theorem free_from_any_node (h : FreeBlocks m base bs) (hb : Outside m base bs b)
    (hf : f ∈ base :: bs.map hdr) (hg : g ∈ base :: bs.map hdr) :
    ∃ m', (∃ fuel, free fuel m f (payload b) = some m') ∧
      (∃ fuel, free fuel m g (payload b) = some m') ∧
      ((base = NULL → b.stop 8 < 2 ^ 32) →
        FreeBlocks m' base (insertJoin 8 b bs) ∧ SameOutside base (b :: bs) m m') := by
  have hR := hb.region
  have hrep := h.represents hb
  have hlive : b ∈ (h.heap hb).live := List.mem_singleton_self b
  obtain ⟨fuel, m', hm⟩ := hrep.free_returns hR hlive
  refine ⟨m', hrep.free_from hR hf hlive hm, hrep.free_from hR hg hlive hm, fun hnull => ?_⟩
  have hend : BitVec.ofNat 32 (b.stop 8) ≠ base := by
    by_cases hbase : base = NULL
    · intro he
      have hstop := congrArg BitVec.toNat (he.trans hbase)
      rw [BitVec.toNat_ofNat, Nat.mod_eq_of_lt (hnull hbase)] at hstop
      have hpos := hb.positive
      simp only [Block.stop, show NULL.toNat = 0 from rfl] at hstop
      omega
    · exact stop_ne_base hR hbase hb.inside
  obtain ⟨fuel', m'', hm', hrep', hsame⟩ := hrep.free_base hR hend hlive
  obtain rfl := Arena.free_unique hm hm'
  exact ⟨hrep'.freeBlocks, hsame⟩

end Start

/-- The arena of four units with its first and its last unit free, and a block of one unit
between them. -/
def middleUnitMem : Mem :=
  setPtr (setSize (setSize (setSize (setPtr Arena.fourUnitsMem 0x1008 0x1018) 0x1008 1) 0x1010 1)
    0x1018 1) 0x1018 0x1000

/-- The block in the middle is merged with both its neighbours, whichever node the search
starts from. -/
theorem free_from_any_node_middle : ∃ m',
    (∃ fuel, free fuel middleUnitMem 0x1008 0x1018 = some m') ∧
      (∃ fuel, free fuel middleUnitMem 0x1018 0x1018 = some m') ∧
      FreeBlocks m' 0x1000 [⟨0x1008, 3⟩] := by
  have h : FreeBlocks middleUnitMem 0x1000 [⟨0x1008, 1⟩, ⟨0x1018, 1⟩] := by
    have hlast : Seg (ptr middleUnitMem) (ptr middleUnitMem 0x1018) [] 0x1000 :=
      seg_nil.mpr (by decide)
    refine ⟨seg_cons.mpr ⟨by decide, seg_cons.mpr ⟨by decide, hlast⟩⟩, by decide, by decide,
      List.pairwise_pair.mpr ⟨by decide, by decide⟩, by decide, by decide⟩
  have hb : Outside middleUnitMem 0x1000 [⟨0x1008, 1⟩, ⟨0x1018, 1⟩] ⟨0x1010, 1⟩ := by
    refine ⟨by decide, by decide, by decide, fun c hc => ?_⟩
    rcases List.mem_pair.mp hc with rfl | rfl
    · exact Or.inl (by decide)
    · exact Or.inr (by decide)
  obtain ⟨m', hf, hg, hlist⟩ := free_from_any_node (f := 0x1008) (g := 0x1018) h hb
    (List.mem_cons_of_mem _ (List.mem_cons_self ..)) (by simp [hdr])
  exact ⟨m', hf, hg, (hlist fun hnull => absurd hnull (by decide)).1⟩

end Rpi2Baremetal
