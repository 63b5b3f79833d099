import Rpi2Baremetal.Properties.AccessReport
import Rpi2Baremetal.Properties.MmuStart

/-!
# What the report says of the tables

With the table of its kernel in use, what a core can read is what the table maps, and that is what
`output_access_policy` reports: the sections of the kernel and those that all kernels share, with
an SMP kernel also those past `PERIPH_LIMIT`, and none that is private to another.
-/

namespace Rpi2Baremetal

open Framework CallStack

namespace Mmu

variable {K : KernelTbl} {m m' : Mem} {ttba va : Word}

/-- With the domain access control register of `init_mmu` every section that is mapped can be
accessed. -/
lemma KernelTbl.Holds.access (h : K.Holds m ttba) (va : Word) (privileged : Bool)
    (kind : AccessKind) : access initMmuDacr m ttba va privileged kind =
      if (K.flags (sectionOf va)).isSome then some va else none := by
  cases hflags : K.flags (sectionOf va) with
  | none =>
      rw [Mmu.access, h.walk_fault.mpr hflags]
      rfl
  | some flags =>
      have hdomain : domainOf (m (l1descpa va ttba)) = 0 := by
        rw [domainOf, h va, KernelTbl.desc, hflags]
        dsimp only
        rw [sectionDesc_and (by decide) (by decide), (KernelTbl.attributesOnly hflags).domain]
        rfl
      have hmanager : dacrField initMmuDacr 0 = 3 := by decide
      rw [Mmu.access, h.walk_section hflags]
      dsimp only
      rw [hdomain, if_pos hmanager]
      rfl

/-- A section that every kernel can access: below the stacks, in the shared area or among the
peripherals.  The SMP kernels (entries from 4 on) can also access every section past
`PERIPH_LIMIT`, which `smp_tbl_setup` maps as device memory where `amp_tbl_setup` has faults; of
the sections that are reported these are `0x40500000` to `0x42F00000`. -/
def Shared (i : Fin NUM_SYS_STRUCT) (va : Word) : Prop :=
  va < SP_BASE ∨ (SHARED_BOTTOM ≤ va ∧ va < SHARED_LIMIT) ∨
    (PERIPH_BOTTOM ≤ va ∧ va < PERIPH_LIMIT) ∨ 4 ≤ i.val ∧ PERIPH_LIMIT < va

instance (i : Fin NUM_SYS_STRUCT) (va : Word) : Decidable (Shared i va) := by
  unfold Shared; infer_instance

instance (K : KernelTbl) (va : Word) : Decidable (K.Private va) := by
  unfold KernelTbl.Private KernelTbl.InStack; infer_instance

namespace KernelTbl

/-- The range tests of the table builders, one after the other. -/
lemma flags_ne_none_iff (K : KernelTbl) (va : Word) :
    K.flags va ≠ none ↔ va < SP_BASE ∨ K.stackTest va ∨ (SHARED_BOTTOM ≤ va ∧ va < SHARED_LIMIT) ∨
      (∃ a ∈ K.areas, va ≥ a.bottom ∧ va < a.limit) ∨ (PERIPH_BOTTOM ≤ va ∧ va < PERIPH_LIMIT) ∨
      (∃ kram uram kheap sp n, K = .smp kram uram kheap sp n) ∧ PERIPH_LIMIT < va := by
  have hzero : va ≥ 0x00000000 := Nat.zero_le _
  cases K with
  | amp kramArea uramArea kheapArea spBottom =>
      have hareas : (∃ a ∈ (amp kramArea uramArea kheapArea spBottom).areas,
          va ≥ a.bottom ∧ va < a.limit) ↔ (va ≥ kramArea.bottom ∧ va < kramArea.limit) ∨
            (va ≥ kheapArea.bottom ∧ va < kheapArea.limit) ∨
            (va ≥ uramArea.bottom ∧ va < uramArea.limit) := by
        simp [areas]
      have hstack : (amp kramArea uramArea kheapArea spBottom).stackTest va ↔
          va ≥ spBottom ∧ va < spBottom + SECTION_SIZE := Iff.rfl
      rw [flags, ampFlags, hareas, hstack]
      split_ifs <;> simp_all
  | smp kramArea uramArea kheapArea spBottom numCpu =>
      have hareas : (∃ a ∈ (smp kramArea uramArea kheapArea spBottom numCpu).areas,
          va ≥ a.bottom ∧ va < a.limit) ↔ (va ≥ kramArea.bottom ∧ va < kramArea.limit) ∨
            (va ≥ kheapArea.bottom ∧ va < kheapArea.limit) ∨
            (va ≥ uramArea.bottom ∧ va < uramArea.limit) := by
        simp [areas]
      have hstack : (smp kramArea uramArea kheapArea spBottom numCpu).stackTest va ↔
          va ≥ spBottom ∧ va < spBottom + SECTION_SIZE * numCpu := Iff.rfl
      rw [flags, smpFlags, hareas, hstack]
      split_ifs <;> simp_all

/-- What the table of an entry maps. -/
lemma flags_ofEntry_iff (i : Fin NUM_SYS_STRUCT) {va : Word} (hva : sectionOf va = va) :
    ((ofEntry i).flags (sectionOf va)).isSome ↔ Shared i va ∨ (ofEntry i).Private va := by
  have hsmp : (∃ kram uram kheap sp n, ofEntry i = .smp kram uram kheap sp n) ↔ 4 ≤ i.val := by
    unfold ofEntry
    split_ifs with hi
    · simpa using hi
    · simpa using hi
  rw [hva, Option.isSome_iff_ne_none, flags_ne_none_iff, hsmp, (ofEntry_valid i).private_iff, hva,
    Shared]
  simp only [or_assoc, or_comm, or_left_comm]

end KernelTbl

/-! ## Loads -/

/-- What a privileged load finds with a table in use, given what the physical addresses hold and
the status of a fault. -/
def load (m : Mem) (ttba : Word) (word status : Word → Word) (va : Word) : Except Word Word :=
  match access initMmuDacr m ttba va true .read with
  | some pa => .ok (word pa)
  | none => .error (status va)

end Mmu

namespace Console

open Mmu

lemma sectionOf_of_mem {a : Word} (ha : a ∈ sections) : sectionOf a = a := by
  obtain ⟨k, hk, rfl⟩ := List.mem_map.mp ha
  have hlt : k < 4096 := by
    have := List.mem_range'_1.mp hk
    omega
  exact sectionOf_sectionBase hlt

/-- **The report tells the truth.**  With the tables of `init_ttbs` and core 0 in the kernel of an
entry: the report of `output_access_policy` has the words of exactly those sections that are
private to this kernel or shared, and lists every other as aborting, among them whatever is private
to the kernel of another core under the same valid mode. -/
theorem access_policy_report_isolation {env : Env} {s : State} {m : Mem} {pm : Word}
    {i : Fin NUM_SYS_STRUCT} {word status : Word → Word} (hpm : isValidPm pm = true)
    (hi : getSysStructInfo 0 pm = some i) (hfair : TransmitterDrains env) (hp : env.prid = 0)
    (hexp : s.held .expLock = false) (huart : s.held .uartLock = false) :
    ∃ m', initTtbs 4096 (initSysinfos TTBA_BASE) TTBA_BASE m = some m' ∧
      (env.load = load m' (initSysinfos TTBA_BASE i).ttba word status →
        ∃ s' out, Completes (exec env) [.outputAccessPolicy] s s' ∧
          s'.output = s.output ++ out ∧
          readReport out = sections.map (fun a =>
            (a, if Shared i a ∨ (KernelTbl.ofEntry i).Private a then some (word a) else none)) ∧
          ∀ (c : Fin NUM_CPU) (i' : Fin NUM_SYS_STRUCT),
            getSysStructInfo (.ofNat 32 c) pm = some i' → i ≠ i' →
            ∀ a ∈ sections, (KernelTbl.ofEntry i').Private a → (a, none) ∈ readReport out) := by
  obtain ⟨m', hbuilt⟩ := exists_built m
  refine ⟨m', hbuilt.run, fun hload => ?_⟩
  obtain ⟨reads, hcompletes⟩ := sends_outputAccessPolicy hfair hp hexp huart
  have hword : ∀ a ∈ sections, (env.load a).toOption =
      if Shared i a ∨ (KernelTbl.ofEntry i).Private a then some (word a) else none := by
    intro a ha
    have hflags := KernelTbl.flags_ofEntry_iff i (sectionOf_of_mem ha)
    rw [hload, load, KernelTbl.ttba_initSysinfos, (hbuilt.holds i).access]
    by_cases hmapped : Shared i a ∨ (KernelTbl.ofEntry i).Private a
    · rw [if_pos (hflags.mpr hmapped), if_pos hmapped]
      rfl
    · rw [if_neg (mt hflags.mp hmapped), if_neg hmapped]
      rfl
  have hreport := readReport_reportLines env sections
  rw [List.map_congr_left fun a ha => by rw [hword a ha]] at hreport
  refine ⟨_, _, hcompletes, rfl, hreport, fun c i' hi' hne a ha hprivate => ?_⟩
  have hfault := hbuilt.fault (c := 0) hpm hi hi' hne hprivate
  have hnone : (env.load a).toOption = none := by
    rw [hload, load, KernelTbl.ttba_initSysinfos, Mmu.access, hfault]
    rfl
  rw [hreport]
  refine List.mem_map.mpr ⟨a, ha, ?_⟩
  rw [← hword a ha, hnone]

/-- In SMP mode on all cores the sections past the peripherals can be read, the one at
`PERIPH_LIMIT` cannot. -/
theorem access_policy_report_isolation_smp : ∃ m' env out,
    initTtbs 4096 (initSysinfos TTBA_BASE) TTBA_BASE (fun _ => 0) = some m' ∧
      env.load = load m' (initSysinfos TTBA_BASE 4).ttba id (fun _ => 0x5) ∧
      (∃ s', Completes (exec env) [.outputAccessPolicy] idle s' ∧ s'.output = out) ∧
      (0x40500000, some 0x40500000) ∈ readReport out ∧ (0x40400000, none) ∈ readReport out := by
  let env (m' : Mem) : Env :=
    { readyEnv 0 true with load := load m' (initSysinfos TTBA_BASE 4).ttba id fun _ => 0x5 }
  have hdrains : ∀ m', TransmitterDrains (env m') := fun _ => readyEnv_drains 0 true
  have hmem : ∀ k < 0x430, sectionBase k ∈ sections := fun k hk =>
    List.mem_map_of_mem (List.mem_range'_1.mpr ⟨Nat.zero_le k, by omega⟩)
  have hpast : Shared 4 (sectionBase 0x405) := by decide
  have hlimit : ¬ (Shared 4 (sectionBase 0x404) ∨
      (KernelTbl.ofEntry 4).Private (sectionBase 0x404)) := by decide
  obtain ⟨m', hrun, -⟩ := exists_built fun _ => 0
  obtain ⟨m'', hrun', hreport⟩ :=
    access_policy_report_isolation (s := idle) (m := fun _ => 0) (show isValidPm 0 = true by decide)
      (show getSysStructInfo 0 0 = some 4 by decide) (hdrains m') rfl rfl rfl
  obtain rfl : m' = m'' := Option.some.inj (hrun.symm.trans hrun')
  obtain ⟨s', out, hcompletes, hout, hread, -⟩ :=
    hreport (show (env m').load = load m' _ id fun _ => 0x5 from rfl)
  refine ⟨m', env m', out, hrun, rfl, ⟨s', hcompletes, hout⟩, ?_, ?_⟩
  · rw [hread]
    refine List.mem_map.mpr ⟨sectionBase 0x405, hmem _ (by decide), ?_⟩
    rw [if_pos (.inl hpast)]
    rfl
  · rw [hread]
    refine List.mem_map.mpr ⟨sectionBase 0x404, hmem _ (by decide), ?_⟩
    rw [if_neg hlimit]
    rfl

end Console

end Rpi2Baremetal
