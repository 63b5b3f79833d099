import Rpi2Baremetal.Properties.TtbaChange

/-!
# The ASID a task gets

`set_user_asid` scans its area upwards and takes the first entry of `asid_head` that is not
active, so the task gets the least ASID that can be had.  The scan skips the reserved ASID, which
lies below its first ASID in every area that does not wrap around.
-/

namespace Rpi2Baremetal

namespace Kernel

open TtbaChange

variable {k : Kernel} {i : Fin NUM_SYS_STRUCT} {task cpuid pm asid first limit : Word}

/-- The status words `sysinfo.h` knows. -/
def IsAsidStatus (status : Word) : Prop :=
  status = UNUSED_ASID ∨ status = ACTIVE_ASID ∨ status = FINISHED_ASID

/-- The least ASID of the area that is neither reserved nor active. -/
structure LeastAllocatable (k : Kernel) (ssi : SysStructInfo) (asid : Word) : Prop where
  allocatable : Allocatable k ssi asid
  unreserved : asid ≠ RESERVED_ASID_NUM
  least : ∀ a, Allocatable k ssi a → a ≠ RESERVED_ASID_NUM → asid ≤ a

/-- The state after `task` got `asid`: its entry is active, the task has it, and the TLB entries
of an ASID that was finished are gone. -/
def giveAsid (task asid : Word) (k : Kernel) : Kernel :=
  { k with
    common := { k.common with asidHead := Function.update k.common.asidHead asid ACTIVE_ASID }
    tlbOps := if k.common.asidHead asid = FINISHED_ASID then (k.prid, asid) :: k.tlbOps
      else k.tlbOps
    tcb := Function.update k.tcb task ((k.tcb task).setAsid asid) }

lemma takeAsid_eq_giveAsid (hstatus : IsAsidStatus (k.common.asidHead asid))
    (hactive : k.common.asidHead asid ≠ ACTIVE_ASID) :
    takeAsid task asid k = giveAsid task asid k := by
  have hstate : k.common.asidHead asid = UNUSED_ASID ∨ k.common.asidHead asid = FINISHED_ASID :=
    hstatus.imp_right fun h => h.resolve_left hactive
  rw [takeAsid, giveAsid, if_pos hstate]

lemma asidsFrom_increasing (first limit : Word) : (asidsFrom first limit).Pairwise (· < ·) := by
  rw [asidsFrom, List.pairwise_map]
  have hrange : (List.range' first.toNat (limit.toNat - first.toNat)).Pairwise (· < ·) :=
    List.pairwise_lt_range'
  refine hrange.imp_of_mem fun {a b} ha hb hab => ?_
  rw [List.mem_range'_1] at ha hb
  have hlimit := limit.isLt
  rw [BitVec.lt_def, BitVec.toNat_ofNat, BitVec.toNat_ofNat, Nat.mod_eq_of_lt (by omega),
    Nat.mod_eq_of_lt (by omega)]
  exact hab

/-- The ASID the scan stops at is the least one that can be had. -/
lemma leastAllocatable_of_scan {ssi : SysStructInfo} {pre post : List Word}
    (hsplit : asidsFrom (firstUserAsid ssi) ssi.asidArea.limit = pre ++ asid :: post)
    (hpre : ∀ a ∈ pre, a = RESERVED_ASID_NUM ∨ k.common.asidHead a = ACTIVE_ASID)
    (hreserved : asid ≠ RESERVED_ASID_NUM) (hactive : k.common.asidHead asid ≠ ACTIVE_ASID) :
    LeastAllocatable k ssi asid := by
  have hmem : asid ∈ asidsFrom (firstUserAsid ssi) ssi.asidArea.limit := by simp [hsplit]
  obtain ⟨hlow, hhigh⟩ := mem_asidsFrom.mp hmem
  refine ⟨⟨hlow, hhigh, hactive⟩, hreserved, fun a ha hares => ?_⟩
  have hamem := mem_asidsFrom.mpr ⟨ha.first, ha.limit⟩
  have hinc := asidsFrom_increasing (firstUserAsid ssi) ssi.asidArea.limit
  rw [hsplit] at hamem hinc
  rcases List.mem_append.mp hamem with hmem | hmem
  · exact absurd (hpre a hmem) (not_or.mpr ⟨hares, ha.inactive⟩)
  · rcases List.mem_cons.mp hmem with rfl | hmem
    · exact BitVec.le_refl _
    · have hpost := (List.pairwise_append.mp hinc).2.1
      exact BitVec.le_of_lt (List.rel_of_pairwise_cons hpost hmem)

/-- A task that has an ASID keeps it. -/
lemma setUserAsid_keep (h0 : (k.tcb task).asid ≠ 0) :
    setUserAsid task cpuid pm k = .ok (k.tcb task).asid k := by
  rw [setUserAsid, bind_ok (show readTcb task k = .ok (k.tcb task) k from rfl), if_pos h0]
  rfl

/-- A task without an ASID gets the least one. -/
lemma setUserAsid_least (hi : getSysStructInfo cpuid pm = some i)
    (hfree : k.held (.ssiLock i) = false)
    (hstatus : ∀ a < (k.sysStructTop i).asidArea.limit, IsAsidStatus (k.common.asidHead a))
    (h0 : (k.tcb task).asid = 0) :
    (∃ asid, LeastAllocatable k (k.sysStructTop i) asid ∧
        setUserAsid task cpuid pm k = .ok asid (giveAsid task asid k)) ∨
      (∀ a, Allocatable k (k.sysStructTop i) a → a = RESERVED_ASID_NUM) ∧
        setUserAsid task cpuid pm k = .ok ERROR_ASID_NUM k := by
  rw [setUserAsid_ok hi h0]
  show (∃ asid, _ ∧ userAsidLoop i task (asidsFrom (firstUserAsid (k.sysStructTop i)) _) k = _) ∨
    _ ∧ userAsidLoop i task (asidsFrom (firstUserAsid (k.sysStructTop i)) _) k = _
  obtain ⟨hall, hloop⟩ | ⟨pre, asid, post, hsplit, hpre, hreserved, hactive, hloop⟩ :=
    userAsidLoop_free task
      (asidsFrom (firstUserAsid (k.sysStructTop i)) (k.sysStructTop i).asidArea.limit)
      hfree
  · refine .inr ⟨fun a ha => ?_, hloop⟩
    exact (hall a (mem_asidsFrom.mpr ⟨ha.first, ha.limit⟩)).resolve_right ha.inactive
  · have hleast := leastAllocatable_of_scan hsplit hpre hreserved hactive
    refine .inl ⟨asid, hleast, hloop.trans ?_⟩
    rw [takeAsid_eq_giveAsid (hstatus asid hleast.allocatable.limit) hactive]

/-- The first ASID of an area within `0..256` is not the reserved one. -/
lemma firstUserAsid_pos {ssi : SysStructInfo} (hbottom : ssi.asidArea.bottom ≤ 256) :
    1 ≤ (firstUserAsid ssi).toNat := by
  rw [BitVec.le_def, show (256 : Word).toNat = 256 from rfl] at hbottom
  rw [firstUserAsid]
  split_ifs with h
  · rw [h]
    decide
  · rw [BitVec.toNat_add, show (1 : Word).toNat = 1 from rfl]
    omega

lemma giveAsid_asid (task asid : Word) (k : Kernel) :
    ((giveAsid task asid k).tcb task).asid = asid := by
  simp [giveAsid]

/-- **The least ASID.**  For every content of `asid_head`, every area of ASIDs within `0..256` and
every task, with the lock of the entry free: a task that has an ASID keeps it and nothing
changes.  A task that has none gets the least ASID of the area from its first on that is neither
reserved nor active, and its entry alone becomes active; or, when there is no such ASID, the
function fails and nothing changes.  Both ways the lock is free again.  A second call for the same
task gives the same ASID and changes nothing.  Messages are taken to return
(`Model/Kernel.lean`). -/
theorem set_user_asid_takes_least (hi : getSysStructInfo cpuid pm = some i)
    (hfree : k.held (.ssiLock i) = false)
    (harea : (k.sysStructTop i).asidArea.bottom ≤ (k.sysStructTop i).asidArea.limit ∧
      (k.sysStructTop i).asidArea.limit ≤ 256)
    (hstatus : ∀ a < 256, IsAsidStatus (k.common.asidHead a)) :
    ((k.tcb task).asid ≠ 0 → setUserAsid task cpuid pm k = .ok (k.tcb task).asid k) ∧
    ((k.tcb task).asid = 0 →
      (∃ asid, LeastAllocatable k (k.sysStructTop i) asid ∧
          setUserAsid task cpuid pm k = .ok asid (giveAsid task asid k) ∧
          (giveAsid task asid k).held (.ssiLock i) = false) ∨
        (∀ a, ¬ Allocatable k (k.sysStructTop i) a) ∧
          setUserAsid task cpuid pm k = .ok ERROR_ASID_NUM k) ∧
    ∀ asid k', setUserAsid task cpuid pm k = .ok asid k' → asid ≠ ERROR_ASID_NUM →
      setUserAsid task cpuid pm k' = .ok asid k' := by
  have hlimit : ∀ a < (k.sysStructTop i).asidArea.limit, IsAsidStatus (k.common.asidHead a) :=
    fun a ha => hstatus a (BitVec.lt_def.mpr (Nat.lt_of_lt_of_le ha harea.2))
  have hunreserved : ∀ a, Allocatable k (k.sysStructTop i) a → a ≠ RESERVED_ASID_NUM := by
    rintro a ha rfl
    have hpos := firstUserAsid_pos (BitVec.le_trans harea.1 harea.2)
    have hfirst := BitVec.le_def.mp ha.first
    rw [show RESERVED_ASID_NUM.toNat = 0 from rfl] at hfirst
    omega
  refine ⟨setUserAsid_keep, fun h0 => ?_, fun asid k' hok herror => ?_⟩
  · obtain ⟨asid, hleast, hok⟩ | ⟨hnone, hok⟩ := setUserAsid_least hi hfree hlimit h0
    · exact .inl ⟨asid, hleast, hok, hfree⟩
    · exact .inr ⟨fun a ha => hunreserved a ha (hnone a ha), hok⟩
  · by_cases h0 : (k.tcb task).asid = 0
    · obtain ⟨a, hleast, hok'⟩ | ⟨-, hok'⟩ := setUserAsid_least hi hfree hlimit h0
      · rw [hok'] at hok
        cases hok
        have hkept : ((giveAsid task asid k).tcb task).asid ≠ 0 := by
          rw [giveAsid_asid]
          exact hleast.unreserved
        rw [setUserAsid_keep hkept, giveAsid_asid]
      · rw [hok'] at hok
        cases hok
        exact absurd rfl herror
    · have hsame := hok
      rw [setUserAsid_keep h0] at hsame
      cases hsame
      exact hok

/-- The first task of core 0 at boot gets the ASID 2. -/
theorem set_user_asid_takes_least_boot :
    setUserAsid 8 0 0 atBoot = .ok 2 (giveAsid 8 2 atBoot) := by
  have hi : getSysStructInfo 0 0 = some 4 := by decide
  have hstatus : ∀ a < (256 : Word), IsAsidStatus (atBoot.common.asidHead a) :=
    fun _ _ => .inl rfl
  have htwo : Allocatable atBoot (atBoot.sysStructTop 4) 2 := ⟨by decide, by decide, by decide⟩
  obtain ⟨-, hleast, -⟩ := @set_user_asid_takes_least atBoot 4 8 0 0 hi rfl (by decide) hstatus
  obtain ⟨asid, hasid, hok, -⟩ | ⟨hnone, -⟩ := hleast rfl
  · have hle := hasid.least 2 htwo (by decide)
    have hge : 2 ≤ asid := hasid.allocatable.first
    rwa [BitVec.le_antisymm hle hge] at hok
  · exact absurd htwo (hnone 2)

end Kernel

end Rpi2Baremetal
