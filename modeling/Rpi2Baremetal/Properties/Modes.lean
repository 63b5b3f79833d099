import Rpi2Baremetal.Model.Sysinfo
import Mathlib.Tactic

/-!
# Valid processing modes

Everything about a mode depends on its low four bits only, of which four values are valid:
SMP on four, three and two cores, and AMP on all.
-/

namespace Rpi2Baremetal

/-- The low four bits of a mode. -/
def coreBits (pm : Word) : Word := pm &&& 0xF

/-- The modes of four cores. -/
lemma coreBits_mem (pm : Word) : ∃ j : Fin 16, coreBits pm = .ofNat 32 j := by
  have hlt : (coreBits pm).toNat < 16 := by
    rw [coreBits, BitVec.toNat_and]
    exact Nat.lt_of_le_of_lt Nat.and_le_right (by decide)
  exact ⟨⟨_, hlt⟩, by simp⟩

lemma isAmp_coreBits {cpuid : Word} (h : cpuid < 4) (pm : Word) :
    isAmp cpuid pm = isAmp cpuid (coreBits pm) := by
  have hmask : 0xF &&& ((1 : Word) <<< cpuid) = (1 : Word) <<< cpuid := by
    have hall : ∀ c : Fin 4, 0xF &&& ((1 : Word) <<< BitVec.ofNat 32 c.val)
        = (1 : Word) <<< BitVec.ofNat 32 c.val := by decide
    simpa using hall ⟨cpuid.toNat, h⟩
  rw [isAmp, isAmp, coreBits, BitVec.and_assoc, hmask]

/-- The test of the cores after an SMP primary core looks at the modes of those cores. -/
lemma smpCoresContinuous_congr {pm pm' : Word} {cpuids : List Word}
    (h : ∀ c ∈ cpuids, isAmp c pm = isAmp c pm') (flg : Bool) :
    smpCoresContinuous pm cpuids flg = smpCoresContinuous pm' cpuids flg := by
  induction cpuids generalizing flg with
  | nil => rfl
  | cons c cs ih =>
      obtain ⟨hc, hcs⟩ := List.forall_mem_cons.mp h
      rw [smpCoresContinuous, smpCoresContinuous, isSmp, isSmp, hc, ih hcs, ih hcs]

lemma isValidPm_coreBits (pm : Word) : isValidPm pm = isValidPm (coreBits pm) := by
  have h : ∀ c ∈ [(1 : Word), 2, 3], isAmp c pm = isAmp c (coreBits pm) := by
    intro c hc
    refine isAmp_coreBits ?_ pm
    fin_cases hc <;> decide
  have hall : ([1, 2, 3].all fun c => !isSmp c pm)
      = [1, 2, 3].all fun c => !isSmp c (coreBits pm) := by
    rw [Bool.eq_iff_iff, List.all_eq_true, List.all_eq_true]
    exact forall₂_congr fun c hc => by rw [isSmp, isSmp, h c hc]
  rw [isValidPm, isValidPm, ← isAmp_coreBits (by decide), hall, smpCoresContinuous_congr h]

lemma coreBits_idem (pm : Word) : coreBits pm &&& 0xF = coreBits pm := by
  rw [coreBits, BitVec.and_assoc]
  rfl

lemma getSysStructInfo_coreBits (cpuid pm : Word) :
    getSysStructInfo cpuid pm = getSysStructInfo cpuid (coreBits pm) := by
  have hindex : getSysStructInfoIndex cpuid pm = getSysStructInfoIndex cpuid (coreBits pm) := by
    by_cases hc : isValidCpuid cpuid = true
    · have hlt : cpuid < 4 := by simpa [isValidCpuid] using hc
      have hsmp : SYSSTRUCT_SMP_INDEX pm = SYSSTRUCT_SMP_INDEX (coreBits pm) := by
        simp only [SYSSTRUCT_SMP_INDEX, SMP_PROC_NUM, coreBits_idem]
        rfl
      simp only [getSysStructInfoIndex, ← isValidPm_coreBits, ← isAmp_coreBits hlt, hsmp]
    · simp [getSysStructInfoIndex, hc]
  simp only [getSysStructInfo, hindex]

/-- Facts about the lookup that hold of all sixteen combinations of bits hold of every
mode. -/
lemma getSysStructInfo_cases {P : Word → Word → Option (Fin NUM_SYS_STRUCT) → Prop}
    (h : ∀ (c : Fin 4) (j : Fin 16), isValidPm (.ofNat 32 j) = true →
      P (.ofNat 32 c) (.ofNat 32 j) (getSysStructInfo (.ofNat 32 c) (.ofNat 32 j)))
    {cpuid pm : Word} (hc : cpuid < 4) (hpm : isValidPm pm = true) :
    P cpuid (coreBits pm) (getSysStructInfo cpuid pm) := by
  obtain ⟨j, hj⟩ := coreBits_mem pm
  rw [isValidPm_coreBits, hj] at hpm
  have := h ⟨cpuid.toNat, hc⟩ j hpm
  rw [getSysStructInfo_coreBits, hj]
  simpa using this

/-- What holds of the entries of any two cores in each of the 16 modes holds in every valid mode. -/
lemma getSysStructInfo_pairs {P : Fin NUM_SYS_STRUCT → Fin NUM_SYS_STRUCT → Prop}
    (h : ∀ j : Fin 16, isValidPm (.ofNat 32 j) = true → ∀ c c' : Fin 4,
      ∀ i ∈ getSysStructInfo (.ofNat 32 c) (.ofNat 32 j),
      ∀ i' ∈ getSysStructInfo (.ofNat 32 c') (.ofNat 32 j), P i i')
    {cpuid cpuid' pm : Word} {i i' : Fin NUM_SYS_STRUCT} (hc : cpuid < 4) (hc' : cpuid' < 4)
    (hpm : isValidPm pm = true) (hi : getSysStructInfo cpuid pm = some i)
    (hi' : getSysStructInfo cpuid' pm = some i') : P i i' := by
  obtain ⟨j, hj⟩ := coreBits_mem pm
  rw [isValidPm_coreBits, hj] at hpm
  rw [getSysStructInfo_coreBits, hj] at hi hi'
  have hcores := h j hpm ⟨cpuid.toNat, hc⟩ ⟨cpuid'.toNat, hc'⟩
  simp only [BitVec.ofNat_toNat, BitVec.setWidth_eq] at hcores
  exact hcores i hi i' hi'

/-- A core and a valid mode have an entry: the core's own when it is an AMP core, else that of
the SMP cores. -/
lemma getSysStructInfo_valid {cpuid pm : Word} (hc : cpuid < 4) (hpm : isValidPm pm = true) :
    ∃ i, getSysStructInfo cpuid pm = some i ∧
      (isAmp cpuid pm = true → i.val = cpuid.toNat) ∧ (isAmp cpuid pm = false → 4 ≤ i.val) := by
  have := getSysStructInfo_cases
    (P := fun cpuid pm r => ∃ i, r = some i ∧
      (isAmp cpuid pm = true → i.val = cpuid.toNat) ∧ (isAmp cpuid pm = false → 4 ≤ i.val))
    (by decide) hc hpm
  rwa [← isAmp_coreBits hc] at this

end Rpi2Baremetal
