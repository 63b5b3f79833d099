import Rpi2Baremetal.Properties.Modes

/-!
# Lookups by core and mode

On a valid core and mode `get_sys_struct_info` and the getters use the right entry.  On an
invalid one `get_sys_struct_info_index` returns -1 as an unsigned number, which no test of
its callers tells from an index: all of them read `SYSStructTop` past its end.
-/

namespace Rpi2Baremetal

/-- The SMP cores of a mode: those whose bit is clear. -/
def smpCores (pm : Word) : Finset ℕ := (Finset.range 4).filter fun c => pm.getLsbD c = false

/-- The pairs with an entry: one of the four cores, and no SMP core or those from 0 up to some
core from 1 on. -/
def ValidPair (cpuid pm : Word) : Prop :=
  cpuid < 4 ∧ (smpCores pm = ∅ ∨ ∃ k, 1 ≤ k ∧ smpCores pm = Finset.range (k + 1))

/-- `get_sys_struct_info` returns `r`, and every getter its field of that entry, or its failure
value when there is none. -/
structure LookupReturns (sysStructTop : Fin NUM_SYS_STRUCT → SysStructInfo) (cpuid pm : Word)
    (r : Option (Fin NUM_SYS_STRUCT)) : Prop where
  sysStructInfo : lookupSysStructInfo cpuid pm = .returns r
  ttba : getTtba sysStructTop cpuid pm = .returns (r.elim (-1) fun i => (sysStructTop i).ttba)
  kernelRamBottom : getKernelRamBottom sysStructTop cpuid pm
    = .returns (r.elim (-1) fun i => (sysStructTop i).kernelRamArea.bottom)
  kernelRamLimit : getKernelRamLimit sysStructTop cpuid pm
    = .returns (r.elim (-1) fun i => (sysStructTop i).kernelRamArea.limit)
  kernelRamArea : getKernelRamArea sysStructTop cpuid pm
    = .returns (r.map fun i => (sysStructTop i).kernelRamArea)
  userRamBottom : getUserRamBottom sysStructTop cpuid pm
    = .returns (r.elim (-1) fun i => (sysStructTop i).userRamArea.bottom)
  userRamLimit : getUserRamLimit sysStructTop cpuid pm
    = .returns (r.elim (-1) fun i => (sysStructTop i).userRamArea.limit)
  userRamArea : getUserRamArea sysStructTop cpuid pm
    = .returns (r.map fun i => (sysStructTop i).userRamArea)
  kernelHeapBottom : getKernelHeapBottom sysStructTop cpuid pm
    = .returns (r.elim (-1) fun i => (sysStructTop i).kernelHeapArea.bottom)
  kernelHeapLimit : getKernelHeapLimit sysStructTop cpuid pm
    = .returns (r.elim (-1) fun i => (sysStructTop i).kernelHeapArea.limit)
  kernelHeapArea : getKernelHeapArea sysStructTop cpuid pm
    = .returns (r.map fun i => (sysStructTop i).kernelHeapArea)
  kernelHeapFreeHead : getKernelHeapFreeHead sysStructTop cpuid pm
    = .returns (r.elim NULL fun i => (sysStructTop i).kernelHeapFreep)

/-- Entry `i` is the right one for a valid pair: an AMP core has its own, two cores share one
exactly when both are SMP, and which one SMP cores have depends on their number only. -/
structure EntryExact (cpuid pm : Word) (i : Fin NUM_SYS_STRUCT) : Prop where
  own : cpuid.toNat ∉ smpCores pm → i.val = cpuid.toNat
  shared : ∀ c, ValidPair c pm → c ≠ cpuid →
    (lookupSysStructInfo c pm = .returns (some i) ↔
      cpuid.toNat ∈ smpCores pm ∧ c.toNat ∈ smpCores pm)
  number : cpuid.toNat ∈ smpCores pm → ∀ c pm', ValidPair c pm' → c.toNat ∈ smpCores pm' →
    (smpCores pm').card = (smpCores pm).card → lookupSysStructInfo c pm' = .returns (some i)

/-- The lookup does what it should: it fails safely on an invalid pair, and uses the right entry
on a valid one. -/
def LookupMeets (sysStructTop : Fin NUM_SYS_STRUCT → SysStructInfo) (cpuid pm : Word) : Prop :=
  (¬ ValidPair cpuid pm → LookupReturns sysStructTop cpuid pm none) ∧
  (ValidPair cpuid pm → ∃ i, LookupReturns sysStructTop cpuid pm (some i) ∧
    EntryExact cpuid pm i)

/-! ## Valid pairs -/

lemma card_smpCores_le (pm : Word) : (smpCores pm).card ≤ 4 :=
  (Finset.card_filter_le _ _).trans_eq (Finset.card_range 4)

lemma smpCores_coreBits (pm : Word) : smpCores pm = smpCores (coreBits pm) := by
  have hbit : ∀ c < 4, (0xF : Word).getLsbD c = true := by decide
  refine Finset.filter_congr fun c hc => ?_
  rw [coreBits, BitVec.getLsbD_and, hbit c (Finset.mem_range.mp hc), Bool.and_true]

/-- `is_valid_pm` accepts exactly the modes whose SMP cores are none or the first ones. -/
lemma isValidPm_iff (pm : Word) :
    isValidPm pm = true ↔ smpCores pm = ∅ ∨ ∃ k, 1 ≤ k ∧ smpCores pm = Finset.range (k + 1) := by
  have hall : ∀ j : Fin 16, isValidPm (.ofNat 32 j) = true ↔
      smpCores (.ofNat 32 j) = ∅ ∨
        ∃ k : Fin 4, 1 ≤ k.val ∧ smpCores (.ofNat 32 j) = Finset.range (k + 1) := by
    decide
  obtain ⟨j, hj⟩ := coreBits_mem pm
  rw [isValidPm_coreBits, smpCores_coreBits, hj, hall j]
  refine or_congr_right ⟨fun ⟨k, hk⟩ => ⟨k, hk⟩, fun ⟨k, hk, hcores⟩ => ?_⟩
  have hcard := congrArg Finset.card hcores
  have hle := card_smpCores_le (.ofNat 32 j)
  rw [hcard, Finset.card_range] at hle
  exact ⟨⟨k, hle⟩, hk, hcores⟩

lemma validPair_iff {cpuid pm : Word} :
    ValidPair cpuid pm ↔ isValidCpuid cpuid = true ∧ isValidPm pm = true := by
  rw [ValidPair, ← isValidPm_iff, isValidCpuid, decide_eq_true_iff]

/-- The entry of a valid pair: the core's own, or the one for that many SMP cores. -/
lemma getSysStructInfo_smpCores {cpuid pm : Word} (h : ValidPair cpuid pm) :
    ∃ i, getSysStructInfo cpuid pm = some i ∧
      (cpuid.toNat ∉ smpCores pm → i.val = cpuid.toNat) ∧
      (cpuid.toNat ∈ smpCores pm → i.val + (smpCores pm).card = 8) := by
  rw [smpCores_coreBits]
  exact getSysStructInfo_cases
    (P := fun cpuid pm r => ∃ i, r = some i ∧
      (cpuid.toNat ∉ smpCores pm → i.val = cpuid.toNat) ∧
      (cpuid.toNat ∈ smpCores pm → i.val + (smpCores pm).card = 8))
    (by decide) h.1 ((isValidPm_iff pm).mpr h.2)

/-! ## What the lookups return -/

section Lookups

variable (sysStructTop : Fin NUM_SYS_STRUCT → SysStructInfo) {cpuid pm : Word}
  {i : Fin NUM_SYS_STRUCT}

/-- An index is never negative. -/
lemma lookupSysStructInfo_eq (cpuid pm : Word) :
    lookupSysStructInfo cpuid pm
      = (sysStructTopAt (getSysStructInfoIndex cpuid pm)).map some := by
  unfold lookupSysStructInfo
  exact if_neg BitVec.not_lt_zero

lemma getTtba_eq (cpuid pm : Word) :
    getTtba sysStructTop cpuid pm = (sysStructTopAt (getSysStructInfoIndex cpuid pm)).map
      fun i => (sysStructTop i).ttba := by
  unfold getTtba
  exact if_neg BitVec.not_lt_zero

lemma sysStructTopAt_eq (h : getSysStructInfo cpuid pm = some i) :
    sysStructTopAt (getSysStructInfoIndex cpuid pm) = .returns i := by
  rw [getSysStructInfo] at h
  rw [sysStructTopAt]
  split at h
  · next hlt => rw [dif_pos hlt, Option.some.inj h]
  · cases h

lemma lookupSysStructInfo_iff :
    lookupSysStructInfo cpuid pm = .returns (some i) ↔ getSysStructInfo cpuid pm = some i := by
  constructor
  · intro h
    rw [lookupSysStructInfo_eq, sysStructTopAt] at h
    rw [getSysStructInfo]
    split at h
    · next hlt =>
        rw [Lookup.map, Lookup.returns.injEq] at h
        rw [dif_pos hlt, h]
    · cases h
  · intro h
    rw [lookupSysStructInfo_eq, sysStructTopAt_eq h, Lookup.map]

lemma LookupReturns.of_some (h : getSysStructInfo cpuid pm = some i) :
    LookupReturns sysStructTop cpuid pm (some i) := by
  have hlookup := lookupSysStructInfo_iff.mpr h
  have hfield : ∀ {α : Type} (failure : α) (field : SysStructInfo → α),
      getField sysStructTop failure field cpuid pm = .returns (field (sysStructTop i)) := by
    intro α failure field
    rw [getField, hlookup]
    rfl
  refine ⟨hlookup, ?_, hfield _ _, hfield _ _, hfield _ _, hfield _ _, hfield _ _, hfield _ _,
    hfield _ _, hfield _ _, hfield _ _, hfield _ _⟩
  rw [getTtba_eq, sysStructTopAt_eq h]
  rfl

/-- On an invalid pair -1 is used as an index. -/
lemma lookupSysStructInfo_invalid (h : ¬ ValidPair cpuid pm) :
    lookupSysStructInfo cpuid pm = .readsPast (-1) := by
  have hindex : getSysStructInfoIndex cpuid pm = -1 := by
    rw [validPair_iff, not_and_or, Bool.not_eq_true, Bool.not_eq_true] at h
    rw [getSysStructInfoIndex, if_pos]
    rcases h with h | h <;> simp [h]
  rw [lookupSysStructInfo_eq, hindex]
  rfl

lemma EntryExact.of_some (h : ValidPair cpuid pm) (hi : getSysStructInfo cpuid pm = some i) :
    EntryExact cpuid pm i := by
  obtain ⟨i', hi', hown, hnumber⟩ := getSysStructInfo_smpCores h
  obtain rfl := Option.some.inj (hi.symm.trans hi')
  refine ⟨hown, fun c hc hne => ?_, fun hcpuid c pm' hc hmem hcard => ?_⟩
  · obtain ⟨j, hj, hown', hnumber'⟩ := getSysStructInfo_smpCores hc
    have hcpu : cpuid.toNat < 4 := h.1
    have hc4 : c.toNat < 4 := hc.1
    have hne' : c.toNat ≠ cpuid.toNat := fun heq => hne (BitVec.eq_of_toNat_eq heq)
    have hle := card_smpCores_le pm
    rw [lookupSysStructInfo_iff, hj, Option.some_inj, Fin.ext_iff]
    -- the entries of AMP cores are below 4, those of SMP cores from 4 on
    by_cases hm : cpuid.toNat ∈ smpCores pm <;> by_cases hm' : c.toNat ∈ smpCores pm
    · have := hnumber hm
      have := hnumber' hm'
      exact iff_of_true (by omega) ⟨hm, hm'⟩
    · have := hnumber hm
      have := hown' hm'
      exact iff_of_false (by omega) fun hb => hm' hb.2
    · have := hown hm
      have := hnumber' hm'
      exact iff_of_false (by omega) fun hb => hm hb.1
    · have := hown hm
      have := hown' hm'
      exact iff_of_false (by omega) fun hb => hm hb.1
  · obtain ⟨j, hj, -, hnumber'⟩ := getSysStructInfo_smpCores hc
    have hval := hnumber hcpuid
    have hval' := hnumber' hmem
    rw [lookupSysStructInfo_iff, hj, Option.some_inj, Fin.ext_iff]
    omega

end Lookups

/-- **Lookups.**  The lookup by core and mode does what it should exactly on the valid pairs. -/
theorem lookup_meets_iff (sysStructTop : Fin NUM_SYS_STRUCT → SysStructInfo) (cpuid pm : Word) :
    LookupMeets sysStructTop cpuid pm ↔ ValidPair cpuid pm := by
  constructor
  · rintro ⟨hfails, -⟩
    by_contra h
    have hnull := (hfails h).sysStructInfo
    rw [lookupSysStructInfo_invalid h] at hnull
    cases hnull
  · intro h
    obtain ⟨i, hi, -⟩ := getSysStructInfo_smpCores h
    exact ⟨fun hno => absurd h hno, fun _ => ⟨i, .of_some sysStructTop hi, .of_some h hi⟩⟩

/-- A mode with core 0 as its only SMP core is invalid, and its lookup reads entry -1. -/
theorem lookup_reads_past : ¬ ∀ (sysStructTop : Fin NUM_SYS_STRUCT → SysStructInfo)
    (cpuid pm : Word), LookupMeets sysStructTop cpuid pm := by
  intro hclaim
  have hvalid : ¬ ValidPair 0 0xE := by
    rw [validPair_iff]
    decide
  have hnull := ((hclaim (initSysinfos TTBA_BASE) 0 0xE).1 hvalid).sysStructInfo
  rw [lookupSysStructInfo_invalid hvalid] at hnull
  cases hnull

end Rpi2Baremetal
