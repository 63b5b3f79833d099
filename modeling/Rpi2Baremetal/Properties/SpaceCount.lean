import Rpi2Baremetal.Properties.IdentityTables

/-!
# Counting task spaces

A user RAM area ends at its `limit`, the last byte of its last section.  The table builders
compare the base of a section with `limit` and map that section too; `init_sysinfos` divides
`limit - bottom` by the size of a section, which comes to one less.  So the last section of every
area is mapped and is no task's.
-/

namespace Rpi2Baremetal

namespace Mmu

/-- The `max_num_task_space` that `init_sysinfos` computes from a user RAM area. -/
def maxNumTaskSpace (uramArea : Area) : Word := (uramArea.limit - uramArea.bottom) / SECTION_SIZE

lemma initSysinfos_maxNumTaskSpace (baseTtba : Word) (i : Fin NUM_SYS_STRUCT) :
    (initSysinfos baseTtba i).maxNumTaskSpace
      = maxNumTaskSpace (initSysinfos baseTtba i).userRamArea := rfl

/-- The sections `start_task` gives to tasks. -/
def taskSpaces (uramArea : Area) : Set Word :=
  {va | ∃ i < (maxNumTaskSpace uramArea).toNat, va = .ofNat 32 i * SECTION_SIZE + uramArea.bottom}

/-- An area of whole sections, with the address of its last byte as its limit. -/
structure WholeSections (area : Area) : Prop where
  bottom : 2 ^ 20 ∣ area.bottom.toNat
  limit : 2 ^ 20 ∣ area.limit.toNat + 1

namespace KernelTbl

def uramArea : KernelTbl → Area
  | amp _ uramArea _ _ => uramArea
  | smp _ uramArea _ _ _ => uramArea

/-- The flags of user RAM. -/
def userFlags : KernelTbl → Word
  | amp .. => WB_WA ||| FLD_FULL_ACCESS
  | smp .. => WB_NWA ||| FLD_FULL_ACCESS

/-- The ranges that are tested before user RAM. -/
def earlierRanges (K : KernelTbl) : List Range := K.ranges.take 5

/-- User RAM overlaps none of the ranges that are tested before it. -/
def UserRamApart (K : KernelTbl) : Prop :=
  ∀ r ∈ K.earlierRanges, ∀ va, r.Contains va → ¬ (Area.range K.uramArea K.userFlags).Contains va

/-- The sections that the table at `ttba` maps as user RAM. -/
def mappedUserSections (K : KernelTbl) (ttba : Word) (m : Mem) : Set Word :=
  {va | sectionOf va = va ∧ m (l1descpa va ttba) = sectionDesc va K.userFlags}

variable {K : KernelTbl} {va ttba : Word} {m m' : Mem}

lemma ranges_split (K : KernelTbl) :
    K.ranges = K.earlierRanges ++ Area.range K.uramArea K.userFlags :: K.ranges.drop 6 := by
  cases K <;> rfl

/-- No other range has the flags of user RAM. -/
lemma flags_ne_userFlags {r : Range} (h : r ∈ K.earlierRanges ∨ r ∈ K.ranges.drop 6) :
    r.flags ≠ K.userFlags := by
  have hflags : ∀ f ∈ (K.earlierRanges ++ K.ranges.drop 6).map Range.flags, f ≠ K.userFlags := by
    cases K with
    | amp kramArea uramArea kheapArea spBottom =>
        show ∀ f ∈ [SHAREABLE_SECTION ||| WB_WA ||| FLD_FULL_ACCESS, WT_NWA ||| FLD_PLV_ACCESS,
          SHAREABLE_SECTION ||| WT_NWA ||| FLD_FULL_ACCESS, WB_WA ||| FLD_PLV_ACCESS,
          SHAREABLE_SECTION ||| WB_WA ||| FLD_PLV_ACCESS, SHAREABLE_DEV ||| FLD_FULL_ACCESS],
          f ≠ WB_WA ||| FLD_FULL_ACCESS
        simp only [List.forall_mem_cons]
        exact ⟨by decide, by decide, by decide, by decide, by decide, by decide, by simp⟩
    | smp kramArea uramArea kheapArea spBottom numCpu =>
        show ∀ f ∈ [SHAREABLE_SECTION ||| WB_NWA ||| FLD_FULL_ACCESS, WT_NWA ||| FLD_PLV_ACCESS,
          SHAREABLE_SECTION ||| WT_NWA ||| FLD_FULL_ACCESS,
          SHAREABLE_SECTION ||| WB_NWA ||| FLD_PLV_ACCESS,
          SHAREABLE_SECTION ||| WB_NWA ||| FLD_PLV_ACCESS, SHAREABLE_DEV ||| FLD_FULL_ACCESS,
          SHAREABLE_DEV ||| FLD_FULL_ACCESS], f ≠ WB_NWA ||| FLD_FULL_ACCESS
        simp only [List.forall_mem_cons]
        exact ⟨by decide, by decide, by decide, by decide, by decide, by decide, by decide, by simp⟩
  exact hflags _ (List.mem_map_of_mem (List.mem_append.mpr h))

/-- The builders map exactly the range of user RAM with its flags. -/
lemma flags_user_iff (hapart : K.UserRamApart) :
    K.flags va = some K.userFlags ↔ (Area.range K.uramArea K.userFlags).Contains va := by
  rw [K.flags_eq]
  constructor
  · intro hflags
    obtain ⟨r, hr, hin, heq⟩ := exists_of_firstFlags hflags
    rw [K.ranges_split, List.mem_append, List.mem_cons] at hr
    rcases hr with hr | rfl | hr
    · exact absurd heq (flags_ne_userFlags (.inl hr))
    · exact hin
    · exact absurd heq (flags_ne_userFlags (.inr hr))
  · intro hin
    rw [K.ranges_split]
    exact firstFlags_append (fun r hr hcon => hapart r hr va hcon hin) hin

/-- The descriptor of a section shows the flags it was mapped with. -/
lemma desc_eq_sectionDesc_iff {flags : Word} (hattr : AttributesOnly flags) :
    K.desc va = sectionDesc va flags ↔ K.flags va = some flags := by
  rw [desc]
  cases hflags : K.flags va with
  | none =>
      refine iff_of_false (fun heq => ?_) (by simp)
      have htype := congrArg (· &&& FLD_TYPE_MASK) heq
      dsimp only at htype
      rw [hattr.type_sectionDesc, type_desc] at htype
      exact absurd htype (by decide)
  | some flags' =>
      refine ⟨fun heq => ?_, fun heq => by rw [Option.some.inj heq]⟩
      have hsame := congrArg (· &&& ATTRIBUTES) heq
      dsimp only at hsame
      rw [(attributesOnly hflags).attributes, hattr.attributes] at hsame
      rw [hsame]

lemma attributesOnly_userFlags (K : KernelTbl) : AttributesOnly K.userFlags := by
  cases K
  · show AttributesOnly (WB_WA ||| FLD_FULL_ACCESS)
    decide
  · show AttributesOnly (WB_NWA ||| FLD_FULL_ACCESS)
    decide

/-- The builders map a section as user RAM when its base is from `bottom` on and below
`limit`. -/
lemma mappedUserSections_eq (hapart : K.UserRamApart) (hm : K.Holds m ttba) :
    K.mappedUserSections ttba m
      = {va | sectionOf va = va ∧ K.uramArea.bottom ≤ va ∧ va < K.uramArea.limit} := by
  ext va
  refine and_congr_right fun hbase => ?_
  rw [hm va, hbase, desc_eq_sectionDesc_iff K.attributesOnly_userFlags, flags_user_iff hapart]
  rfl

end KernelTbl

/-! ## The last section -/

section Count

variable {area : Area}

lemma sectionOf_eq_self_iff {va : Word} : sectionOf va = va ↔ 2 ^ 20 ∣ va.toNat := by
  rw [← BitVec.toNat_inj, sectionOf_toNat]
  omega

lemma maxNumTaskSpace_toNat (area : Area) :
    (maxNumTaskSpace area).toNat = (area.limit - area.bottom).toNat / 2 ^ 20 :=
  BitVec.toNat_udiv

/-- The last section of an area is below its `limit`, but it is no task's. -/
lemma last_section (h : WholeSections area) (hle : area.bottom ≤ area.limit) :
    area.bottom ≤ sectionOf area.limit ∧ sectionOf area.limit < area.limit ∧
      sectionOf area.limit ∉ taskSpaces area := by
  obtain ⟨⟨b, hb⟩, l, hl⟩ := h
  rw [BitVec.le_def] at hle
  have hlast := sectionOf_toNat area.limit
  refine ⟨BitVec.le_def.mpr (by omega), BitVec.lt_def.mpr (by omega), ?_⟩
  rintro ⟨i, hi, heq⟩
  rw [maxNumTaskSpace_toNat, BitVec.toNat_sub_of_le (BitVec.le_def.mpr hle)] at hi
  have hva := congrArg BitVec.toNat heq
  rw [hlast, BitVec.toNat_add, BitVec.toNat_mul, BitVec.toNat_ofNat,
    show SECTION_SIZE.toNat = 2 ^ 20 from rfl] at hva
  have hlimit := area.limit.isLt
  omega

/-- An area that ends before it begins has no sections, but its first one is a task's. -/
lemma bottom_mem_taskSpaces (h : WholeSections area) (hlt : area.limit < area.bottom) :
    area.bottom ∈ taskSpaces area := by
  obtain ⟨⟨b, hb⟩, l, hl⟩ := h
  rw [BitVec.lt_def] at hlt
  have hbottom := area.bottom.isLt
  refine ⟨0, ?_, by simp⟩
  rw [maxNumTaskSpace_toNat, BitVec.toNat_sub]
  omega

/-- The sections of an area are never those `init_sysinfos` counts. -/
lemma sections_ne_taskSpaces (h : WholeSections area) :
    {va | sectionOf va = va ∧ area.bottom ≤ va ∧ va < area.limit} ≠ taskSpaces area := by
  intro heq
  by_cases hle : area.bottom ≤ area.limit
  · obtain ⟨hlow, hhigh, hnot⟩ := last_section h hle
    rw [← heq] at hnot
    refine hnot ⟨sectionOf_eq_self_iff.mpr ?_, hlow, hhigh⟩
    rw [sectionOf_toNat]
    exact Nat.dvd_mul_left ..
  · have hmem := bottom_mem_taskSpaces h (BitVec.not_le.mp hle)
    rw [← heq] at hmem
    exact hle (BitVec.le_of_lt hmem.2.2)

end Count

/-- **The count of task spaces.**  For every kernel whose user RAM consists of whole sections, has
the address of its last byte as its limit and overlaps no range that is tested before it: the
table builder maps as user RAM the sections from `bottom` on whose base is below `limit`, and these
are never the sections that `init_sysinfos` counts as task spaces. -/
theorem space_count_never_agrees {K : KernelTbl} {ttba : Word} (halign : 2 ^ 14 ∣ ttba.toNat)
    (harea : WholeSections K.uramArea) (hapart : K.UserRamApart) (m : Mem) :
    ∃ m', K.setup 4096 ttba m = some m' ∧
      K.mappedUserSections ttba m'
        = {va | sectionOf va = va ∧ K.uramArea.bottom ≤ va ∧ va < K.uramArea.limit} ∧
      K.mappedUserSections ttba m' ≠ taskSpaces K.uramArea := by
  obtain ⟨m', hrun, hholds, -⟩ := K.setup_spec halign m
  have hmapped := KernelTbl.mappedUserSections_eq hapart hholds
  refine ⟨m', hrun, hmapped, ?_⟩
  rw [hmapped]
  exact sections_ne_taskSpaces harea

/-- The kernel on four cores, as `init_ttbs` sets up its table. -/
def fourCores : KernelTbl := .smp (kramAreas 4) (uramAreas 4) (kheapAreas 4) SP_BASE 4

lemma fourCores_apart : fourCores.UserRamApart := by
  have hbelow : ∀ r ∈ fourCores.earlierRanges, r.limit ≤ fourCores.uramArea.bottom.toNat := by
    decide
  intro r hr va hin huser
  have hlow : fourCores.uramArea.bottom.toNat ≤ va.toNat := huser.1
  exact absurd (hbelow r hr) (Nat.not_le.mpr (Nat.lt_of_le_of_lt hlow hin.2))

theorem space_count_never_agrees_fourCores : ∃ m',
    fourCores.setup 4096 TTBA_BASE (fun _ => 0) = some m' ∧
      fourCores.mappedUserSections TTBA_BASE m' ≠ taskSpaces fourCores.uramArea := by
  obtain ⟨m', hrun, -, hne⟩ := space_count_never_agrees (K := fourCores)
    (show 2 ^ 14 ∣ TTBA_BASE.toNat by decide) ⟨by decide, by decide⟩ fourCores_apart fun _ => 0
  exact ⟨m', hrun, hne⟩

/-- The section at `0x3EF00000` is mapped for the kernel on four cores and is no task's. -/
theorem last_section_never_given : ¬ ∀ (K : KernelTbl) (ttba : Word) (m m' : Mem),
    2 ^ 14 ∣ ttba.toNat → WholeSections K.uramArea → K.UserRamApart →
      K.setup 4096 ttba m = some m' →
      K.mappedUserSections ttba m' = taskSpaces K.uramArea := by
  intro hclaim
  have harea : WholeSections fourCores.uramArea := ⟨by decide, by decide⟩
  have halign : 2 ^ 14 ∣ TTBA_BASE.toNat := by decide
  obtain ⟨m', hrun, hholds, -⟩ := fourCores.setup_spec halign fun _ => 0
  have hsame := hclaim _ _ _ m' (by decide) harea fourCores_apart hrun
  rw [KernelTbl.mappedUserSections_eq fourCores_apart hholds] at hsame
  have hmapped : (0x3EF00000 : Word) ∈ taskSpaces fourCores.uramArea := by
    rw [← hsame]
    exact ⟨by decide, by decide, by decide⟩
  exact (last_section harea (by decide)).2.2 hmapped

end Mmu

end Rpi2Baremetal
