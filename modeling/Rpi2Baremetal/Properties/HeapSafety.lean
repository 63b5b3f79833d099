import Rpi2Baremetal.Framework.Transition
import Rpi2Baremetal.Properties.HeapRefinement

/-!
# Heap safety over whole runs

A run starts from an arena of `N` units whose first unit is the size-0 sentinel and whose
other units are one free block, and makes any sequence of calls `_malloc (base, base, n)`
and `_free (base, p)` with `p` a live result.  `HeapSafe` collects what the claim of safety
says about one state, read off the concrete memory; `heap_safe` is the theorem for every
state of every run.

The invariant behind it is `Arena.Models`: the memory represents a block heap of the arena
whose live blocks are the live results.  It is preserved because the calls refine the
operations of the block heap (`malloc_refines_some`, `free_refines`).
-/

namespace Rpi2Baremetal

open Framework

/-- A contiguous piece of RAM of `N` units that an allocator is set up in.  Like any C object
it is not at the null address, and it does not wrap around the address space. -/
structure Arena where
  base : Word
  N : ℕ
  two_le : 2 ≤ N
  base_ne : base ≠ NULL
  fits : base.toNat + 8 * N ≤ 2 ^ 32

/-- The RAM and the results of `_malloc` that have not been freed yet. -/
structure HeapState where
  mem : Mem
  live : List Word

/-- The calls of a run. -/
inductive HeapCall where
  | malloc (nbytes : Word)
  | free (ap : Word)

/-- One call on the free list that starts at its sentinel `base`. -/
inductive HeapStep (base : Word) : HeapState → HeapCall → HeapState → Prop
  | null {s : HeapState} {nbytes : Word} {fuel : ℕ} {m' : Mem} :
      malloc fuel s.mem base base nbytes = some (m', none) →
      HeapStep base s (.malloc nbytes) ⟨m', s.live⟩
  | malloc {s : HeapState} {nbytes ap : Word} {fuel : ℕ} {m' : Mem} :
      malloc fuel s.mem base base nbytes = some (m', some ap) →
      HeapStep base s (.malloc nbytes) ⟨m', ap :: s.live⟩
  | free {s : HeapState} {ap : Word} {fuel : ℕ} {m' : Mem} :
      ap ∈ s.live → free fuel s.mem base ap = some m' →
      HeapStep base s (.free ap) ⟨m', s.live.erase ap⟩

/-- The header of a pointer returned by `_malloc`. -/
def header (ap : Word) : Word := ap - HEAP_UNIT_SIZE

/-- The block whose header is at `p`, as the memory describes it. -/
def blockAt (m : Mem) (p : Word) : Block := ⟨p.toNat, (size m p).toNat⟩

/-- The blocks of a state: those on the free list `ws`, and the live ones. -/
def blocksOf (s : HeapState) (ws : List Word) : List Block :=
  (ws ++ s.live.map header).map (blockAt s.mem)

namespace Arena

variable (A : Arena)

/-- The sentinel `_malloc` builds, linked in a circle with one free block of all other
units. -/
structure Initial (s : HeapState) : Prop where
  base_ptr : ptr s.mem A.base = hdrAdd A.base 1
  base_size : size s.mem A.base = 0
  block_ptr : ptr s.mem (hdrAdd A.base 1) = A.base
  block_size : size s.mem (hdrAdd A.base 1) = BitVec.ofNat 32 (A.N - 1)
  live : s.live = []

/-- A safe state, with `ws` the nodes of its free list after the sentinel. -/
structure SafeWith (s : HeapState) (ws : List Word) : Prop where
  /-- Following `s.ptr` from the sentinel visits `ws` and comes back. -/
  cycle : Seg (ptr s.mem) (ptr s.mem A.base) ws A.base
  /-- Addresses increase from the sentinel until the wrap. -/
  increasing : (A.base :: ws).Pairwise (· < ·)
  disjoint : (blocksOf s ws).Pairwise (Block.Disjoint 8)
  inside : ∀ b ∈ blocksOf s ws, 0 < b.size ∧ A.base.toNat + 8 ≤ b.start ∧
    b.stop 8 ≤ A.base.toNat + 8 * A.N
  total : totalSize (blocksOf s ws) = A.N - 1
  /-- No result is `NULL`, unless the arena is the end of the address space. -/
  nonnull : A.base.toNat + 8 * A.N < 2 ^ 32 → NULL ∉ s.live

/-- The free list is a finite circle through the sentinel in address order, free and live
blocks are pairwise disjoint parts of the arena, and no unit is lost. -/
def HeapSafe (s : HeapState) : Prop := ∃ ws, A.SafeWith s ws

end Arena

/-- The call changes no word, header included, of a live block other than the one it frees. -/
def LeavesLive (s : HeapState) (c : HeapCall) (s' : HeapState) : Prop :=
  ∀ q ∈ s.live, c ≠ .free q → ∀ x : Word, (blockAt s.mem (header q)).Contains 8 x.toNat →
    s'.mem x = s.mem x

/-! ## The invariant -/

/-- The pointer `_malloc` returns for a block. -/
def payload (b : Block) : Word := hdrAdd (hdr b) 1

@[simp] lemma header_payload (b : Block) : header (payload b) = hdr b := hdrAdd_one_sub (hdr b)

/-- The pointer behind a header that is not the last of the address space. -/
lemma hdrAdd_one_ne_null {p : Word} (h : p.toNat + 8 < 2 ^ 32) : hdrAdd p 1 ≠ NULL := by
  intro he
  have hnat : (hdrAdd p 1).toNat = p.toNat + 8 := by
    rw [hdrAdd, BitVec.toNat_add, BitVec.toNat_mul, show (1 : Word).toNat = 1 from rfl,
      show HEAP_UNIT_SIZE.toNat = 8 from rfl]
    omega
  rw [he, show NULL.toNat = 0 from rfl] at hnat
  omega

namespace Arena

variable {A : Arena} {s s' : HeapState}

/-- The state holds a block heap of the arena whose live blocks are the live results. -/
def Models (A : Arena) (s : HeapState)
    (H : BlockHeap 8 (A.base.toNat + 8) (A.base.toNat + 8 * A.N)) : Prop :=
  Represents s.mem A.base H ∧ s.live = H.live.map payload ∧ H.total = A.N - 1

variable {H : BlockHeap 8 (A.base.toNat + 8) (A.base.toNat + 8 * A.N)}

lemma region (A : Arena) : Region A.base (A.base.toNat + 8) (A.base.toNat + 8 * A.N) :=
  ⟨le_rfl, by have := A.two_le; omega, A.fits⟩

lemma blockAt_hdr (h : A.Models s H) {b : Block} (hb : b ∈ H.free ++ H.live) :
    blockAt s.mem (hdr b) = b := by
  have h1 := toNat_hdr A.fits (H.positive b hb) (H.inside b hb).2
  have h2 := h.1.toNat_size A.region hb
  rw [blockAt, h1, h2]

/-- The blocks of the state are those of the block heap. -/
lemma blocksOf_eq (h : A.Models s H) : blocksOf s (H.free.map hdr) = H.free ++ H.live := by
  have hmap : s.live.map header = H.live.map hdr := by
    rw [h.2.1, List.map_map]
    exact List.map_congr_left fun b _ => header_payload b
  rw [blocksOf, hmap, ← List.map_append, List.map_map]
  exact (List.map_congr_left fun b hb => blockAt_hdr h hb).trans (List.map_id _)

/-- A state that models a block heap is safe. -/
lemma Models.safe (h : A.Models s H) : A.HeapSafe s := by
  refine ⟨H.free.map hdr, h.1.chain, ring_increasing A.region H, ?_, ?_, ?_, ?_⟩
  · rw [blocksOf_eq h]
    exact H.disjoint
  · rw [blocksOf_eq h]
    exact fun b hb => ⟨H.positive b hb, H.inside b hb⟩
  · rw [blocksOf_eq h, totalSize_append]
    exact h.2.2
  · intro hend hmem
    rw [h.2.1] at hmem
    obtain ⟨b, hb, hnull⟩ := List.mem_map.mp hmem
    have hstart := toNat_hdr A.fits (H.live_positive hb) (H.live_inside hb).2
    have hroom := block_room (H.live_positive hb) (H.live_inside hb).2
    exact hdrAdd_one_ne_null (by omega) hnull

lemma payload_injOn (H : BlockHeap 8 (A.base.toNat + 8) (A.base.toNat + 8 * A.N))
    {a b : Block} (ha : a ∈ H.live) (hb : b ∈ H.live) (h : payload a = payload b) : a = b := by
  by_contra hne
  have hap := apart_of_mem_ne A.region (List.mem_append_right _ ha)
    (List.mem_append_right _ hb) hne
  exact hap.ne (by rw [← header_payload b, ← h, header_payload])

/-- Dropping a live result drops its block. -/
lemma erase_payload {ls : List Block} (hinj : ∀ a ∈ ls, ∀ b ∈ ls, payload a = payload b → a = b)
    {b : Block} (hb : b ∈ ls) : (ls.map payload).erase (payload b) = (ls.erase b).map payload := by
  induction ls with
  | nil => rfl
  | cons l ls ih =>
      by_cases he : l = b
      · subst he
        simp
      · have hb' : b ∈ ls := (List.mem_cons.mp hb).resolve_left (Ne.symm he)
        have hne : payload l ≠ payload b := fun h =>
          he (hinj l (List.mem_cons_self ..) b hb h)
        rw [List.map_cons, List.erase_cons_tail (by simpa using hne),
          List.erase_cons_tail (by simpa using he), List.map_cons,
          ih (fun a ha c hc => hinj a (List.mem_cons_of_mem _ ha) c
            (List.mem_cons_of_mem _ hc)) hb']

/-- The heap of an arena with nothing allocated: all units after the sentinel are one block. -/
def whole (A : Arena) : BlockHeap 8 (A.base.toNat + 8) (A.base.toNat + 8 * A.N) :=
  BlockHeap.single (A.N - 1) (by have := A.two_le; omega) (by have := A.two_le; omega)

lemma Initial.represents (h : A.Initial s) : Represents s.mem A.base A.whole := by
  have hhdr : hdr ⟨A.base.toNat + 8, A.N - 1⟩ = hdrAdd A.base 1 := by
    apply BitVec.eq_of_toNat_eq
    simp [hdr, hdrAdd, HEAP_UNIT_SIZE]
  refine ⟨?_, h.base_size, ?_⟩
  · simp only [whole, BlockHeap.single, List.map_cons, List.map_nil, hhdr, seg_cons, seg_nil]
    exact ⟨h.base_ptr, h.block_ptr⟩
  · simp only [whole, BlockHeap.single, List.append_nil, List.mem_singleton, forall_eq, hhdr]
    exact h.block_size

lemma Initial.models_whole (h : A.Initial s) : A.Models s A.whole := by
  refine ⟨h.represents, ?_, ?_⟩
  · simpa [whole, BlockHeap.single] using h.live
  · simp [whole, BlockHeap.total, BlockHeap.single]

lemma Initial.models (h : A.Initial s) : ∃ H, A.Models s H := ⟨A.whole, h.models_whole⟩

/-- A call that writes only to the sentinel and to blocks apart from a live block leaves the
live block as it was. -/
lemma Models.untouched (h : A.Models s H) {bs : List Block} {m' : Mem}
    (hsame : SameOutside A.base bs s.mem m') {b : Block} (hb : b ∈ H.live)
    (hapart : ∀ c ∈ bs, c.Disjoint 8 b) {x : Word}
    (hx : (blockAt s.mem (hdr b)).Contains 8 x.toNat) : m' x = s.mem x := by
  rw [blockAt_hdr h (List.mem_append_right _ hb)] at hx
  refine hsame x (Or.inr ((H.live_inside hb).1.trans hx.1)) fun c hc hcx => ?_
  exact (hapart c hc).not_contains hcx hx

/-! ## Steps and runs -/

/-- Every call on a state that models a block heap returns. -/
lemma Models.total (h : A.Models s H) :
    (∀ nbytes, ∃ s', HeapStep A.base s (.malloc nbytes) s') ∧
      ∀ ap ∈ s.live, ∃ s', HeapStep A.base s (.free ap) s' := by
  constructor
  · intro nbytes
    cases hc : carve 8 (mallocUnits nbytes).toNat H.free with
    | none =>
        obtain ⟨fuel, hf⟩ := malloc_refines_none A.region A.base_ne h.1 nbytes hc
        exact ⟨_, .null hf⟩
    | some r =>
        obtain ⟨fuel, m', hf, -⟩ := malloc_refines_some A.region A.base_ne h.1 nbytes hc
        exact ⟨_, .malloc hf⟩
  · intro ap hap
    obtain ⟨b, hb, rfl⟩ := List.mem_map.mp (h.2.1 ▸ hap)
    obtain ⟨fuel, m', hf, -⟩ := free_refines A.region A.base_ne h.1 hb
    exact ⟨_, .free hap hf⟩

lemma malloc_unique {m : Mem} {base freep nbytes : Word} {fuel fuel' : ℕ}
    {r r' : Mem × Option Word} (h : malloc fuel m base freep nbytes = some r)
    (h' : malloc fuel' m base freep nbytes = some r') : r = r' := by
  unfold malloc at h h'
  split at h <;> rename_i hn
  · rw [if_pos hn] at h'
    exact Loop.Returns.unique ⟨_, h⟩ ⟨_, h'⟩
  · rw [if_neg hn] at h'
    exact Loop.Returns.unique ⟨_, h⟩ ⟨_, h'⟩

lemma free_unique {m m' m'' : Mem} {freep ap : Word} {fuel fuel' : ℕ}
    (h : free fuel m freep ap = some m') (h' : free fuel' m freep ap = some m'') : m' = m'' := by
  rw [free, Option.map_eq_some_iff] at h h'
  obtain ⟨q, hq, rfl⟩ := h
  obtain ⟨q', hq', rfl⟩ := h'
  rw [Loop.Returns.unique ⟨_, hq⟩ ⟨_, hq'⟩]

/-- A call of `_malloc` that returns `NULL` changes nothing. -/
lemma Models.of_null (h : A.Models s H) {nbytes : Word} {fuel : ℕ} {m' : Mem}
    (hf : malloc fuel s.mem A.base A.base nbytes = some (m', none)) : m' = s.mem := by
  cases hc : carve 8 (mallocUnits nbytes).toNat H.free with
  | none =>
      obtain ⟨fuel', hf'⟩ := malloc_refines_none A.region A.base_ne h.1 nbytes hc
      cases malloc_unique hf hf'
      rfl
  | some r =>
      obtain ⟨fuel', m'', hf', -⟩ := malloc_refines_some A.region A.base_ne h.1 nbytes hc
      cases malloc_unique hf hf'

/-- A call of `_malloc` that returns a block has taken it from the block heap. -/
lemma Models.of_malloc (h : A.Models s H) {nbytes ap : Word} {fuel : ℕ} {m' : Mem}
    (hf : malloc fuel s.mem A.base A.base nbytes = some (m', some ap)) :
    ∃ b fs, ∃ hc : carve 8 (mallocUnits nbytes).toNat H.free = some (b, fs), ap = payload b ∧
      A.Models ⟨m', ap :: s.live⟩ (H.take (one_le_mallocUnits nbytes) hc) ∧
      SameOutside A.base H.free s.mem m' := by
  rcases Option.eq_none_or_eq_some (carve 8 (mallocUnits nbytes).toNat H.free) with
    hc | ⟨⟨b, fs⟩, hc⟩
  · obtain ⟨fuel', hf'⟩ := malloc_refines_none A.region A.base_ne h.1 nbytes hc
    cases malloc_unique hf hf'
  · obtain ⟨fuel', m'', hf', hrep, hsame⟩ :=
      malloc_refines_some A.region A.base_ne h.1 nbytes hc
    cases malloc_unique hf hf'
    refine ⟨b, fs, hc, rfl, ⟨hrep, ?_, ?_⟩, hsame⟩
    · simp [h.2.1, BlockHeap.take, payload]
    · rw [BlockHeap.take_total]
      exact h.2.2

/-- A call of `_free` has given the block back to the block heap. -/
lemma Models.of_free (h : A.Models s H) {ap : Word} {fuel : ℕ} {m' : Mem} (hap : ap ∈ s.live)
    (hf : free fuel s.mem A.base ap = some m') :
    ∃ b, ∃ hb : b ∈ H.live, ap = payload b ∧
      A.Models ⟨m', s.live.erase ap⟩ (H.release (by decide) hb) ∧
      SameOutside A.base (b :: H.free) s.mem m' := by
  obtain ⟨b, hb, rfl⟩ := List.mem_map.mp (h.2.1 ▸ hap)
  obtain ⟨fuel', m'', hf', hrep, hsame⟩ := free_refines A.region A.base_ne h.1 hb
  obtain rfl := free_unique hf hf'
  refine ⟨b, hb, rfl, ⟨hrep, ?_, ?_⟩, hsame⟩
  · simp only [h.2.1, BlockHeap.release]
    exact erase_payload (fun a ha c hc => payload_injOn H ha hc) hb
  · rw [BlockHeap.release_total]
    exact h.2.2

/-- **Step lemma.**  A call keeps the model and leaves the other live blocks alone. -/
theorem Models.step (h : A.Models s H) {c : HeapCall} (hs : HeapStep A.base s c s') :
    (∃ H', A.Models s' H') ∧ LeavesLive s c s' := by
  have hlive : ∀ {q : Word}, q ∈ s.live → ∃ b ∈ H.live, payload b = q := fun {q} hq =>
    List.mem_map.mp (h.2.1 ▸ hq)
  cases hs with
  | null hf =>
      obtain rfl := h.of_null hf
      exact ⟨⟨H, h⟩, fun _ _ _ _ _ => rfl⟩
  | malloc hf =>
      obtain ⟨b, fs, hc, -, hmodels, hsame⟩ := h.of_malloc hf
      refine ⟨⟨_, hmodels⟩, fun q hq _ x hx => ?_⟩
      obtain ⟨l, hl, rfl⟩ := hlive hq
      exact h.untouched hsame hl (fun c hc => H.apart c hc l hl) (by rwa [header_payload] at hx)
  | free hap hf =>
      obtain ⟨b, hb, rfl, hmodels, hsame⟩ := h.of_free hap hf
      refine ⟨⟨_, hmodels⟩, fun q hq hne x hx => ?_⟩
      obtain ⟨c, hc, rfl⟩ := hlive hq
      have hbc : b ≠ c := fun he => hne (by rw [he])
      refine h.untouched hsame hc (fun d hd => ?_) (by rwa [header_payload] at hx)
      rcases List.mem_cons.mp hd with rfl | hd
      · exact H.live_disjoint.forall hb hc hbc
      · exact H.apart d hd c hc

/-- **Heap safety.**  In every state that a run of calls reaches from the initial arena, the
heap is safe, every further call returns, and no call changes a live block other than the one
it returns or frees. -/
theorem heap_safe (A : Arena) {s₀ s : HeapState} {calls : List HeapCall} (h₀ : A.Initial s₀)
    (hr : Run (HeapStep A.base) s₀ calls s) :
    A.HeapSafe s ∧ (∀ nbytes, ∃ s', HeapStep A.base s (.malloc nbytes) s') ∧
      (∀ ap ∈ s.live, ∃ s', HeapStep A.base s (.free ap) s') ∧
      ∀ c s', HeapStep A.base s c s' → A.HeapSafe s' ∧ LeavesLive s c s' := by
  obtain ⟨H, hH⟩ := hr.invariant (I := fun s => ∃ H, A.Models s H)
    (fun _ _ _ ⟨_, hH⟩ hstep => (hH.step hstep).1) h₀.models
  refine ⟨hH.safe, hH.total.1, hH.total.2, fun c s' hstep => ?_⟩
  obtain ⟨⟨H', hH'⟩, hleaves⟩ := hH.step hstep
  exact ⟨hH'.safe, hleaves⟩

/-- An arena of four units at `0x1000`. -/
def fourUnits : Arena := ⟨0x1000, 4, by decide, by decide, by decide⟩

/-- The RAM of `fourUnits` before the first call. -/
def fourUnitsMem : Mem :=
  setSize (setPtr (setSize (setPtr (fun _ => 0) 0x1000 0x1008) 0x1000 0) 0x1008 0x1000) 0x1008 3

lemma fourUnits_initial : fourUnits.Initial ⟨fourUnitsMem, []⟩ :=
  ⟨by decide, by decide, by decide, by decide, rfl⟩

/-- Two calls on the arena of four units: a request of eight bytes takes the two units at its
tail end, and freeing them gives a safe heap again. -/
theorem heap_safe_fourUnits : ∃ s s', s.live = [0x1018] ∧
    HeapStep fourUnits.base ⟨fourUnitsMem, []⟩ (.malloc 8) s ∧
    HeapStep fourUnits.base s (.free 0x1018) s' ∧ fourUnits.HeapSafe s ∧
    fourUnits.HeapSafe s' := by
  have h1 : HeapStep fourUnits.base ⟨fourUnitsMem, []⟩ (.malloc 8) _ :=
    .malloc (show malloc 1 fourUnitsMem 0x1000 0x1000 8 = some (_, some 0x1018) from rfl)
  obtain ⟨h, hf⟩ := heap_safe fourUnits fourUnits_initial (.single h1)
  obtain ⟨s', hs'⟩ := hf.2.1 0x1018 (by decide)
  exact ⟨_, s', by decide, h1, hs', h, (hf.2.2 _ _ hs').1⟩

end Arena

end Rpi2Baremetal
