import Rpi2Baremetal.Framework.BlockRuns
import Rpi2Baremetal.Properties.HeapSafety

/-!
# The free list is canonical

`_free` merges the block it gets with both neighbours and `_malloc` takes its block from the
end of a free one, so no two blocks of the free list touch.  In every state of a run the free
list is therefore determined by the live blocks: it is the list of the maximal runs of the
units that no live block covers.
-/

namespace Rpi2Baremetal

open Framework

namespace Arena

variable {A : Arena} {s s' : HeapState} {bs : List Block}

/-- The blocks of the free list after the sentinel, in list order. -/
def FreeBlocks (A : Arena) (s : HeapState) (bs : List Block) : Prop :=
  ∃ ws, Seg (ptr s.mem) (ptr s.mem A.base) ws A.base ∧ A.base ∉ ws ∧ bs = ws.map (blockAt s.mem)

/-- No live block covers the unit `k`, counted from the one after the sentinel. -/
def FreeUnit (A : Arena) (s : HeapState) (k : ℕ) : Prop :=
  k < A.N - 1 ∧ ∀ q ∈ s.live,
    ¬ (blockAt s.mem (header q)).Contains 8 (A.base.toNat + 8 + 8 * k)

/-- `bs` are the maximal runs of units no live block covers, in address order. -/
def MaximalRuns (A : Arena) (s : HeapState) (bs : List Block) : Prop :=
  ∃ rs, Runs (A.FreeUnit s) rs ∧ bs = rs.map fun r => ⟨A.base.toNat + 8 + 8 * r.1, r.2⟩

variable {H : BlockHeap 8 (A.base.toNat + 8) (A.base.toNat + 8 * A.N)}

/-- The free list of a state is that of the block heap it models. -/
lemma Models.freeBlocks_iff (h : A.Models s H) : A.FreeBlocks s bs ↔ bs = H.free := by
  have hbase : A.base ∉ H.free.map hdr := (List.nodup_cons.mp (ring_nodup A.region H)).1
  have hmap : (H.free.map hdr).map (blockAt s.mem) = H.free := by
    rw [List.map_map]
    refine (List.map_congr_left fun b hb => ?_).trans (List.map_id _)
    exact blockAt_hdr h (List.mem_append_left _ hb)
  constructor
  · rintro ⟨ws, hws, hnot, rfl⟩
    rw [hws.unique h.1.chain hnot hbase, hmap]
  · rintro rfl
    exact ⟨_, h.1.chain, hbase, hmap.symm⟩

lemma Models.freeUnit_iff (h : A.Models s H) (k : ℕ) :
    A.FreeUnit s k ↔ H.FreeUnit (A.N - 1) k := by
  have hlive : ∀ b ∈ H.live, blockAt s.mem (header (payload b)) = b := fun b hb => by
    rw [header_payload, blockAt_hdr h (List.mem_append_right _ hb)]
  simp only [FreeUnit, BlockHeap.FreeUnit, Covers, h.2.1, List.forall_mem_map, not_exists,
    not_and]
  refine and_congr_right fun _ => forall₂_congr fun b hb => ?_
  rw [hlive b hb]

/-- The free list of a canonical heap is the list of maximal runs. -/
lemma Models.maximalRuns (h : A.Models s H) (hc : H.Canonical) : A.MaximalRuns s H.free := by
  obtain ⟨rs, hruns, hfree⟩ := hc.runs (M := A.N - 1) (by norm_num)
    (by have := A.two_le; omega)
  have hunits : A.FreeUnit s = H.FreeUnit (A.N - 1) := funext fun k => propext (h.freeUnit_iff k)
  exact ⟨rs, hunits ▸ hruns, hfree⟩

lemma whole_canonical (A : Arena) : A.whole.Canonical :=
  BlockHeap.single_canonical (by have := A.two_le; omega) (by have := A.two_le; omega)

/-! ## Runs -/

/-- The state models a canonical heap. -/
def Canonical (A : Arena) (s : HeapState)
    (H : BlockHeap 8 (A.base.toNat + 8) (A.base.toNat + 8 * A.N)) : Prop :=
  A.Models s H ∧ H.Canonical

lemma Canonical.step (h : A.Canonical s H) {c : HeapCall} (hs : HeapStep A.base s c s') :
    ∃ H', A.Canonical s' H' := by
  cases hs with
  | null hf =>
      obtain rfl := h.1.of_null hf
      exact ⟨H, h⟩
  | malloc hf =>
      obtain ⟨b, fs, hc, -, hmodels, -⟩ := h.1.of_malloc hf
      exact ⟨_, hmodels, h.2.take _ hc⟩
  | free hap hf =>
      obtain ⟨b, hb, -, hmodels, -⟩ := h.1.of_free hap hf
      exact ⟨_, hmodels, h.2.release _ hb⟩

/-- Frees only take blocks away from the live ones. -/
lemma Canonical.frees (h : A.Canonical s H) {calls : List HeapCall} {ps : List Word}
    (hr : Run (HeapStep A.base) s calls s') (hcalls : calls = ps.map .free) :
    ∃ H', A.Canonical s' H' ∧ H'.live ⊆ H.live ∧ s'.live = s.live.diff ps := by
  induction hr generalizing ps with
  | nil =>
      obtain rfl := List.map_eq_nil_iff.mp hcalls.symm
      exact ⟨H, h, List.Subset.refl _, rfl⟩
  | snoc hr hs ih =>
      obtain ⟨ps, ls, rfl, hps, hls⟩ := List.map_eq_append_iff.mp hcalls.symm
      obtain ⟨p, rfl, hp⟩ := List.map_eq_singleton_iff.mp hls
      subst hp
      obtain ⟨H', hH', hsub, hlive⟩ := ih hps.symm
      cases hs with
      | free hap hf =>
          obtain ⟨b, hb, -, hmodels, -⟩ := hH'.1.of_free hap hf
          refine ⟨_, ⟨hmodels, hH'.2.release _ hb⟩, ?_, ?_⟩
          · exact fun c hc => hsub (List.mem_of_mem_erase hc)
          · rw [List.diff_append, hlive, List.diff_cons, List.diff_nil]

/-- Canonical heaps with the same live blocks have the same free list. -/
lemma Canonical.freeBlocks_congr (h : A.Canonical s H)
    {H' : BlockHeap 8 (A.base.toNat + 8) (A.base.toNat + 8 * A.N)} (h' : A.Canonical s' H')
    (hlive : ∀ b, b ∈ H.live ↔ b ∈ H'.live) : A.FreeBlocks s bs ↔ A.FreeBlocks s' bs := by
  have hcov : ∀ x, Covers 8 H.live x ↔ Covers 8 H'.live x := fun x => by
    simp only [Covers, hlive]
  have hunits : A.FreeUnit s = A.FreeUnit s' := by
    funext k
    rw [h.1.freeUnit_iff, h'.1.freeUnit_iff, BlockHeap.FreeUnit, BlockHeap.FreeUnit, hcov]
  obtain ⟨rs, hruns, hrs⟩ := h.1.maximalRuns h.2
  obtain ⟨rs', hruns', hrs'⟩ := h'.1.maximalRuns h'.2
  rw [hunits] at hruns
  rw [h.1.freeBlocks_iff, h'.1.freeBlocks_iff, hrs, hrs', hruns.unique hruns']

/-- Two heaps that lost live blocks of the same heap and have the same live results left have
the same live blocks left. -/
lemma Canonical.live_iff {H₁ H₂ : BlockHeap 8 (A.base.toNat + 8) (A.base.toNat + 8 * A.N)}
    {s₁ s₂ : HeapState} (h₁ : A.Canonical s₁ H₁) (h₂ : A.Canonical s₂ H₂)
    (hsub₁ : H₁.live ⊆ H.live) (hsub₂ : H₂.live ⊆ H.live) (hlive : s₁.live = s₂.live) (b : Block) :
    b ∈ H₁.live ↔ b ∈ H₂.live := by
  rw [h₁.1.2.1, h₂.1.2.1] at hlive
  have hmove : ∀ {K K' : List Block}, K ⊆ H.live → K' ⊆ H.live → K.map payload = K'.map payload →
      b ∈ K → b ∈ K' := by
    intro K K' hK hK' he hb
    have hmem : payload b ∈ K'.map payload := he ▸ List.mem_map_of_mem hb
    obtain ⟨c, hc, hcb⟩ := List.mem_map.mp hmem
    rwa [← payload_injOn H (hK' hc) (hK hb) hcb]
  exact ⟨hmove hsub₁ hsub₂ hlive, hmove hsub₂ hsub₁ hlive.symm⟩

/-- **The free list is canonical.**  In every state that a run of calls reaches from the initial
arena, the blocks of the free list are the maximal runs of units no live block covers, in
address order.  So the order in which live blocks are freed does not matter, freeing what
`_malloc` has just returned restores the list, and with everything freed the list is the initial
block again. -/
theorem free_list_canonical (A : Arena) {s₀ s : HeapState} {calls : List HeapCall}
    (h₀ : A.Initial s₀) (hr : Run (HeapStep A.base) s₀ calls s) :
    (∃ bs, A.FreeBlocks s bs ∧ A.MaximalRuns s bs) ∧
    (∀ (ps ps' : List Word) s₁ s₂, ps.Perm ps' → Run (HeapStep A.base) s (ps.map .free) s₁ →
      Run (HeapStep A.base) s (ps'.map .free) s₂ →
      ∀ bs, A.FreeBlocks s₁ bs ↔ A.FreeBlocks s₂ bs) ∧
    (∀ nbytes ap s₁ s₂, HeapStep A.base s (.malloc nbytes) s₁ → s₁.live = ap :: s.live →
      HeapStep A.base s₁ (.free ap) s₂ → ∀ bs, A.FreeBlocks s₂ bs ↔ A.FreeBlocks s bs) ∧
    (s.live = [] → A.FreeBlocks s [⟨A.base.toNat + 8, A.N - 1⟩]) := by
  obtain ⟨H, hH⟩ := hr.invariant (I := fun s => ∃ H, A.Canonical s H)
    (fun _ _ _ ⟨_, hH⟩ hstep => hH.step hstep) ⟨_, h₀.models_whole, A.whole_canonical⟩
  refine ⟨⟨H.free, hH.1.freeBlocks_iff.mpr rfl, hH.1.maximalRuns hH.2⟩, ?_, ?_, ?_⟩
  · intro ps ps' s₁ s₂ hperm hr₁ hr₂ bs
    obtain ⟨H₁, hH₁, hsub₁, hlive₁⟩ := hH.frees hr₁ rfl
    obtain ⟨H₂, hH₂, hsub₂, hlive₂⟩ := hH.frees hr₂ rfl
    refine hH₁.freeBlocks_congr hH₂ (hH₁.live_iff hH₂ hsub₁ hsub₂ ?_)
    rw [hlive₁, hlive₂, hperm.diff_left]
  · intro nbytes ap s₁ s₂ hmalloc hlive hfree bs
    cases hmalloc with
    | null hf => exact absurd hlive (List.cons_ne_self _ _).symm
    | malloc hf =>
        obtain ⟨b, fs, hc, rfl, hmodels, -⟩ := hH.1.of_malloc hf
        obtain rfl := (List.cons.inj hlive).1
        cases hfree with
        | free hap hf' =>
            obtain ⟨c, hcl, hpc, hmodels', -⟩ := hmodels.of_free hap hf'
            have hbl : b ∈ (H.take (one_le_mallocUnits nbytes) hc).live := List.mem_cons_self ..
            obtain rfl := payload_injOn _ hbl hcl hpc
            refine Canonical.freeBlocks_congr (H := _)
              ⟨hmodels', (hH.2.take _ hc).release _ hcl⟩ hH fun d => ?_
            simp [BlockHeap.release, BlockHeap.take]
  · intro hlive
    have hnil : H.live = [] := List.map_eq_nil_iff.mp (hH.1.2.1.symm.trans hlive)
    refine (hH.freeBlocks_congr ⟨h₀.models_whole, A.whole_canonical⟩ fun b => ?_).mpr ?_
    · rw [hnil]
      rfl
    · exact h₀.models_whole.freeBlocks_iff.mpr rfl

/-- Eight bytes taken from the arena of four units and given back: the free list is the initial
block again. -/
theorem free_list_canonical_fourUnits : ∃ s s',
    HeapStep fourUnits.base ⟨fourUnitsMem, []⟩ (.malloc 8) s ∧
      HeapStep fourUnits.base s (.free 0x1018) s' ∧ fourUnits.FreeBlocks s' [⟨0x1008, 3⟩] := by
  have hm : HeapStep fourUnits.base ⟨fourUnitsMem, []⟩ (.malloc 8) _ :=
    .malloc (show malloc 1 fourUnitsMem 0x1000 0x1000 8 = some (_, some 0x1018) from rfl)
  obtain ⟨⟨H', hH'⟩, -⟩ := fourUnits_initial.models_whole.step hm
  obtain ⟨s', hf⟩ := hH'.total.2 0x1018 (List.mem_cons_self ..)
  have hnil : s'.live = [] := by
    cases hf
    rfl
  refine ⟨_, s', hm, hf, ?_⟩
  exact (free_list_canonical fourUnits fourUnits_initial (.cons hm (.single hf))).2.2.2 hnil

end Arena

end Rpi2Baremetal
