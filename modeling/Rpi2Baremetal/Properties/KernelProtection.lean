import Rpi2Baremetal.Properties.KernelTables

/-!
# Protection of kernel memory from user mode

The kernels' tables give kernel RAM, kernel heap and stacks the access policy `FLD_PLV_ACCESS`,
all in domain 0.  The processor checks the policy of a domain that is a client domain in the
domain access control register.  `init_mmu` makes every domain a manager domain, and then the
policy is not checked.
-/

namespace Rpi2Baremetal

namespace Mmu

/-- The section of `va` is mapped with `FLD_PLV_ACCESS`. -/
def PlvMapped (m : Mem) (ttba va : Word) : Prop :=
  (∃ pa, walk m ttba va = .section pa) ∧
    m (l1descpa va ttba) &&& FLD_AP_MASK = FLD_PLV_ACCESS

/-- Unprivileged accesses to `va` fault, and privileged ones reach it. -/
def Protected (dacr : Word) (m : Mem) (ttba va : Word) : Prop :=
  ∀ kind, access dacr m ttba va false kind = none ∧ access dacr m ttba va true kind = some va

section Table

variable {K : KernelTbl} {m : Mem} {ttba va : Word}

/-- What the check of an access to such a section depends on: the field of domain 0, and whether
the access is privileged. -/
lemma PlvMapped.access (h : PlvMapped m ttba va) (hK : K.Holds m ttba) (dacr : Word)
    (privileged : Bool) (kind : AccessKind) :
    access dacr m ttba va privileged kind =
      if dacrField dacr 0 = 3 then some va
      else if dacrField dacr 0 = 1 ∧ privileged then some va
      else none := by
  obtain ⟨⟨pa, hpa⟩, hap⟩ := h
  cases hflags : K.flags (sectionOf va) with
  | none => cases hpa.symm.trans (hK.walk_fault.mpr hflags)
  | some flags =>
      have hdomain : domainOf (m (l1descpa va ttba)) = 0 := by
        rw [domainOf, hK va, KernelTbl.desc, hflags]
        dsimp only
        rw [sectionDesc_and (by decide) (by decide),
          (KernelTbl.attributesOnly hflags).domain]
        rfl
      have hpermits : apPermits (m (l1descpa va ttba)) privileged kind = privileged := by
        unfold apPermits
        rw [hap]
        cases privileged <;> cases kind <;> decide
      rw [Mmu.access, hK.walk_section hflags]
      dsimp only
      rw [hdomain, hpermits]

/-- A section for privileged accesses is protected exactly if domain 0 is a client domain. -/
lemma PlvMapped.protected_iff (h : PlvMapped m ttba va) (hK : K.Holds m ttba) (dacr : Word) :
    Protected dacr m ttba va ↔ dacrField dacr 0 = 1 := by
  constructor
  · intro hprot
    obtain ⟨hun, hpriv⟩ := hprot .read
    rw [h.access hK] at hun hpriv
    by_contra hne
    by_cases hmanager : dacrField dacr 0 = 3
    · rw [if_pos hmanager] at hun
      cases hun
    · rw [if_neg hmanager, if_neg fun hc => hne hc.1] at hpriv
      cases hpriv
  · intro hclient kind
    have hmanager : dacrField dacr 0 ≠ 3 := by
      rw [hclient]
      decide
    have huser : ¬ (dacrField dacr 0 = 1 ∧ false = true) := fun hc => Bool.false_ne_true hc.2
    rw [h.access hK, h.access hK, if_neg hmanager, if_neg hmanager, if_neg huser,
      if_pos ⟨hclient, rfl⟩]
    exact ⟨rfl, rfl⟩

end Table

/-- **Kernel memory.**  In a table `amp_tbl_setup` or `smp_tbl_setup` has filled, and with the
domain access control register as `init_mmu` programs it, no address whose section is mapped
with `FLD_PLV_ACCESS` is protected: every access reaches it.  It would be protected with exactly
the registers that make domain 0 a client domain. -/
theorem kernel_memory_never_protected (K : KernelTbl) {ttba : Word}
    (halign : 2 ^ 14 ∣ ttba.toNat) (m : Mem) :
    ∃ m', K.setup 4096 ttba m = some m' ∧ ∀ va, PlvMapped m' ttba va →
      ¬ Protected initMmuDacr m' ttba va ∧
      (∀ privileged kind, access initMmuDacr m' ttba va privileged kind = some va) ∧
      ∀ dacr, Protected dacr m' ttba va ↔ dacrField dacr 0 = 1 := by
  obtain ⟨m', hrun, hK, -⟩ := K.setup_spec halign m
  have hmanager : dacrField initMmuDacr 0 = 3 := by decide
  refine ⟨m', hrun, fun va hva => ⟨?_, fun privileged kind => ?_, hva.protected_iff hK⟩⟩
  · rw [hva.protected_iff hK, hmanager]
    decide
  · rw [hva.access hK, if_pos hmanager]

/-- The kernel of core 0 in AMP mode. -/
def core0 : KernelTbl := .amp (kramAreas 0) (uramAreas 0) (kheapAreas 0) SP_BASE

lemma core0_kram {m : Mem} (h : core0.Holds m TTBA_BASE) : PlvMapped m TTBA_BASE 0x1F000000 := by
  have hflags : core0.flags (sectionOf 0x1F000000) = some (WB_WA ||| FLD_PLV_ACCESS) := by decide
  refine ⟨⟨_, h.walk_section hflags⟩, ?_⟩
  rw [h, KernelTbl.desc, hflags]
  decide

/-- The kernel RAM of core 0 can be written in user mode. -/
theorem kernel_memory_never_protected_core0 :
    ∃ m', core0.setup 4096 TTBA_BASE (fun _ => 0) = some m' ∧
      access initMmuDacr m' TTBA_BASE 0x1F000000 false .write = some 0x1F000000 := by
  obtain ⟨m', hrun, hall⟩ := kernel_memory_never_protected core0
    (show 2 ^ 14 ∣ TTBA_BASE.toNat by decide) fun _ => 0
  obtain ⟨m'', hrun', hK, -⟩ := core0.setup_spec (show 2 ^ 14 ∣ TTBA_BASE.toNat by decide)
    fun _ => 0
  obtain rfl := Option.some.inj (hrun.symm.trans hrun')
  exact ⟨m', hrun, (hall 0x1F000000 (core0_kram hK)).2.1 false .write⟩

/-- Protection fails at the first address of that RAM. -/
theorem kernel_memory_unprotected :
    ¬ ∀ (K : KernelTbl) (ttba va : Word) (m m' : Mem), 2 ^ 14 ∣ ttba.toNat →
      K.setup 4096 ttba m = some m' → PlvMapped m' ttba va →
      Protected initMmuDacr m' ttba va := by
  intro hclaim
  have halign : 2 ^ 14 ∣ TTBA_BASE.toNat := by decide
  obtain ⟨m', hrun, hK, -⟩ := core0.setup_spec halign fun _ => 0
  have hprot := hclaim core0 TTBA_BASE 0x1F000000 _ m' halign hrun (core0_kram hK)
  have hclient := ((core0_kram hK).protected_iff hK initMmuDacr).mp hprot
  exact absurd hclient (by decide)

end Mmu

end Rpi2Baremetal
