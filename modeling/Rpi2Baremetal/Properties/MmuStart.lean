import Rpi2Baremetal.Model.MmuStart
import Rpi2Baremetal.Properties.IdentityTables
import Rpi2Baremetal.Properties.KernelIsolation
import Rpi2Baremetal.Properties.Reset

/-!
# The cores turn their MMUs on

Every core writes the tables of all kernels before it turns its MMU on, while others may already
run with theirs on.  All cores store the same descriptors, so that a table that is complete stays
as it is under the stores of a core that comes later.
-/

namespace Rpi2Baremetal

open Framework

namespace Mmu

open KernelTbl

/-! ## The stores of `init_ttbs` -/

/-- The number of stores of `init_ttbs`. -/
def numStores : ℕ := NUM_SYS_STRUCT * 4096

namespace FillPos

/-- The position after `k` stores. -/
def after (k : ℕ) : FillPos := ⟨k / 4096, tableAt (k / 4096), sectionBase (k % 4096)⟩

lemma next_after {k : ℕ} (hk : k < numStores) : (after k).next = some (after (k + 1)) := by
  have hi : k / 4096 < NUM_SYS_STRUCT := Nat.div_lt_of_lt_mul (by rwa [Nat.mul_comm])
  have hlt : k % 4096 < 4096 := Nat.mod_lt k (by decide)
  rw [next, after, if_pos hi]
  by_cases hlast : k % 4096 = 4095
  · have hdiv : (k + 1) / 4096 = k / 4096 + 1 := by omega
    have hmod : (k + 1) % 4096 = 0 := by omega
    rw [if_pos ((sectionBase_eq_last hlt).mpr hlast), after, hdiv, hmod, tableAt_succ]
    rfl
  · have hdiv : (k + 1) / 4096 = k / 4096 := by omega
    have hmod : (k + 1) % 4096 = k % 4096 + 1 := by omega
    rw [if_neg (mt (sectionBase_eq_last hlt).mp hlast), after, hdiv, hmod, ← sectionBase_succ]

lemma next_after_numStores : (after numStores).next = none := by
  rw [next, after, numStores, Nat.mul_div_cancel _ (by decide), if_neg (Nat.lt_irrefl _)]

lemma store_eq (K : KernelTbl) (ttba va : Word) :
    K.store ttba va = (l1descpa va ttba, K.desc va) := by
  rw [KernelTbl.store, KernelTbl.desc]
  cases K.flags va <;> rfl

lemma stores_after (i : Fin NUM_SYS_STRUCT) {j : ℕ} (hj : j < 4096) :
    (after (i * 4096 + j)).stores (initSysinfos TTBA_BASE) =
      [(l1descpa (sectionBase j) (tableAt i), (ofEntry i).desc (sectionBase j))] := by
  have hdiv : (i * 4096 + j) / 4096 = i.val := by omega
  have hmod : (i * 4096 + j) % 4096 = j := by omega
  rw [stores, after, hdiv, hmod, if_pos i.isLt, initTtbsCall_eq, Option.toList_some,
    List.map_singleton, store_eq]

lemma stores_after_numStores (sysStructTop : Fin NUM_SYS_STRUCT → SysStructInfo) :
    (after numStores).stores sysStructTop = [] := by
  rw [stores, after, numStores, Nat.mul_div_cancel _ (by decide), if_neg (Nat.lt_irrefl _)]

end FillPos

/-! ## The tables -/

/-- The tables `init_ttbs` leaves in `m'`. -/
structure Built (m m' : Mem) : Prop where
  run : initTtbs 4096 (initSysinfos TTBA_BASE) TTBA_BASE m = some m'
  holds : ∀ i : Fin NUM_SYS_STRUCT, (ofEntry i).Holds m' (tableAt i)
  other : ∀ a, (∀ i : Fin NUM_SYS_STRUCT, a ∉ tableWords (tableAt i)) → m' a = m a

lemma mem_tableWords_iff (i : Fin NUM_SYS_STRUCT) {a : Word} :
    a ∈ tableWords (tableAt i) ↔ ∃ j < 4096, l1descpa (sectionBase j) (tableAt i) = a := by
  rw [tableWords_eq (tableAt_aligned i), List.mem_map]
  simp only [List.mem_range]

lemma l1descpa_mem (i : Fin NUM_SYS_STRUCT) (va : Word) :
    l1descpa va (tableAt i) ∈ tableWords (tableAt i) := by
  rw [← l1descpa_sectionOf (tableAt_aligned i), mem_tableWords_iff]
  exact ⟨va.toNat / 2 ^ 20, by omega, rfl⟩

/-- The passes of `init_ttbs` store to no other word. -/
lemma initTtbsFrom_other {j n : ℕ} (hj : j + n = NUM_SYS_STRUCT) {m m' : Mem} {a : Word}
    (ha : ∀ i : Fin NUM_SYS_STRUCT, a ∉ tableWords (tableAt i))
    (h : initTtbsFrom 4096 (initSysinfos TTBA_BASE) (List.range' j n) (tableAt j) m = some m') :
    m' a = m a := by
  induction n generalizing j m with
  | zero =>
      obtain rfl := Option.some.inj h
      rfl
  | succ n ih =>
      obtain ⟨first, rfl⟩ : ∃ first : Fin NUM_SYS_STRUCT, first.val = j := ⟨⟨j, by omega⟩, rfl⟩
      obtain ⟨m₁, hrun, -, hother⟩ := (ofEntry first).setup_spec (tableAt_aligned first) m
      rw [List.range'_succ, initTtbsFrom, initTtbsCall_eq] at h
      simp only [Option.bind_eq_bind, Option.bind_some, hrun, ← tableAt_succ] at h
      rw [ih (j := first + 1) (by omega) h]
      refine hother a fun va hva => ha first ?_
      rw [← hva]
      exact l1descpa_mem first va

lemma exists_built (m : Mem) : ∃ m', Built m m' := by
  obtain ⟨m', hrun, hholds⟩ := initTtbs_spec m
  refine ⟨m', hrun, fun i => ttba_initSysinfos i ▸ hholds i, fun a ha => ?_⟩
  rw [initTtbs, List.range_eq_range'] at hrun
  exact initTtbsFrom_other (Nat.zero_add NUM_SYS_STRUCT) ha hrun

/-- What every core stores to the words of the tables. -/
def tableStores (m' : Mem) (a : Word) : Option Word :=
  if ∃ i : Fin NUM_SYS_STRUCT, a ∈ tableWords (tableAt i) then some (m' a) else none

section Stores

variable {m m' : Mem}

lemma sectionOf_sectionBase {j : ℕ} (hj : j < 4096) :
    sectionOf (sectionBase j) = sectionBase j := by
  rw [sectionOf, sectionBase_toNat hj, Nat.mul_div_cancel j (by decide)]

/-- Every store is of the descriptor that is there in the end. -/
lemma Built.stores (h : Built m m') {k : ℕ} (hk : k < numStores) :
    ∀ x ∈ (FillPos.after k).stores (initSysinfos TTBA_BASE),
      tableStores m' x.1 = some x.2 := by
  have hi : k / 4096 < NUM_SYS_STRUCT := Nat.div_lt_of_lt_mul (by rwa [Nat.mul_comm])
  have hj : k % 4096 < 4096 := Nat.mod_lt k (by decide)
  intro x hx
  rw [← Nat.div_add_mod' k 4096, FillPos.stores_after ⟨k / 4096, hi⟩ hj, List.mem_singleton] at hx
  rw [hx, tableStores, if_pos ⟨_, l1descpa_mem ⟨k / 4096, hi⟩ _⟩, h.holds, sectionOf_sectionBase hj]

/-- Every word of the tables is stored to. -/
lemma exists_store {a : Word} (ha : ∃ i : Fin NUM_SYS_STRUCT, a ∈ tableWords (tableAt i)) :
    ∃ k < numStores, a ∈ ((FillPos.after k).stores (initSysinfos TTBA_BASE)).map Prod.fst := by
  obtain ⟨i, hi⟩ := ha
  obtain ⟨j, hj, rfl⟩ := (mem_tableWords_iff i).mp hi
  have hlt := i.isLt
  refine ⟨i * 4096 + j, by rw [numStores]; omega, ?_⟩
  rw [FillPos.stores_after i hj]
  exact List.mem_cons_self

end Stores

/-! ## The registers -/

/-- The code after `init_ttbs`. -/
def startOps (ttba : Word) : List Cp15Op := initMmu ++ startMmuNoLock ttba

/-- The registers of a core that has turned its MMU on, from those it had before. -/
structure Started (ttba : Word) (c c' : Cp15) : Prop where
  sctlr : c'.sctlr = c.sctlr ||| SCTLR_MMU_OPTION
  actlr : c'.actlr = c.actlr ||| 0x40
  dacr : c'.dacr = initMmuDacr
  ttbcr : c'.ttbcr = 0
  ttbr0 : c'.ttbr0 = 0x4a ||| ttba
  ttbr1 : c'.ttbr1 = 0x4a ||| ttba
  contextidr : c'.contextidr = c.contextidr &&& 0xFFFFFF00
  irqMasked : c'.irqMasked = false
  tlb : c'.tlb = [c'.pair]

namespace Cp15Op

/-- The instruction cannot turn the MMU on. -/
def keepsOff : Cp15Op → Bool
  | .orrSctlr _ => false
  | _ => true

end Cp15Op

namespace Cp15

variable {c : Cp15} {op : Cp15Op} {ops : List Cp15Op}

lemma stopped (sctlr : Word) : (sctlr &&& ~~~ SCTLR_MMU_OPTION) &&& MMU_ENABLE = 0 := by
  rw [BitVec.and_assoc, show ~~~ SCTLR_MMU_OPTION &&& MMU_ENABLE = 0 by decide]
  exact BitVec.and_zero

lemma mmuEnabled_eq_false : c.mmuEnabled = false ↔ c.sctlr &&& MMU_ENABLE = 0 := by
  rw [mmuEnabled, decide_eq_false_iff_not, not_not]

lemma exec_off (hop : op.keepsOff) (hoff : c.mmuEnabled = false) :
    (c.exec op).mmuEnabled = false := by
  rw [mmuEnabled_eq_false] at hoff ⊢
  cases op with
  | orrSctlr bits => cases hop
  | stopMmu => exact stopped c.sctlr
  | stopMmuIfEnabled =>
      rw [exec]
      split
      · exact stopped c.sctlr
      · exact hoff
  | _ => exact hoff

lemma step_eq_exec (h : (c.exec op).mmuEnabled = false) : c.step op = c.exec op := by
  rw [step, fill, if_neg (by rw [h]; decide)]

/-- With the MMU off nothing gets into the TLB. -/
lemma foldl_off (hops : ∀ op ∈ ops, op.keepsOff) (hoff : c.mmuEnabled = false) :
    ops.foldl step c = ops.foldl exec c ∧ (ops.foldl exec c).mmuEnabled = false := by
  induction ops generalizing c with
  | nil => exact ⟨rfl, hoff⟩
  | cons op ops ih =>
      have hoff' := exec_off (hops op List.mem_cons_self) hoff
      rw [List.foldl_cons, List.foldl_cons, step_eq_exec hoff']
      exact ih (fun op' h => hops op' (List.mem_cons_of_mem op h)) hoff'

/-- The code between `stop_mmu` and the last instruction. -/
def offOps (ttba : Word) : List Cp15Op := (startOps ttba).tail.dropLast

lemma startOps_eq (ttba : Word) :
    startOps ttba = .stopMmu :: offOps ttba ++ [.orrSctlr SCTLR_MMU_OPTION] := rfl

lemma offOps_keepsOff (ttba : Word) : ∀ op ∈ offOps ttba, op.keepsOff := by
  simp [offOps, startOps, initMmu, startMmuNoLock, syncTtbaChangeNoLock, Cp15Op.keepsOff]

lemma exec_stopMmu_off (c : Cp15) : (c.exec .stopMmu).mmuEnabled = false :=
  mmuEnabled_eq_false.mpr (stopped c.sctlr)

/-- From `stop_mmu` to the last instruction the MMU is off. -/
lemma foldl_take_off (c : Cp15) (ttba : Word) {j : ℕ} (hpos : 0 < j) (hj : j ≤ 13) :
    (((startOps ttba).take j).foldl step c).mmuEnabled = false := by
  obtain ⟨k, rfl⟩ : ∃ k, j = k + 1 := ⟨j - 1, by omega⟩
  have hlen : (offOps ttba).length = 12 := rfl
  rw [startOps_eq, List.cons_append, List.take_succ_cons, List.take_append_of_le_length (by omega),
    List.foldl_cons, step_eq_exec (exec_stopMmu_off c)]
  have hops : ∀ op ∈ (offOps ttba).take k, op.keepsOff :=
    fun op hop => offOps_keepsOff ttba op (List.mem_of_mem_take hop)
  rw [(foldl_off hops (exec_stopMmu_off c)).1]
  exact (foldl_off hops (exec_stopMmu_off c)).2

lemma enabled (sctlr : Word) : (sctlr ||| SCTLR_MMU_OPTION) &&& MMU_ENABLE ≠ 0 := by
  intro h
  rw [BitVec.and_or_distrib_right] at h
  exact absurd (BitVec.or_eq_zero_iff.mp h).2 (by decide)

lemma and_not_or (a mask : Word) : (a &&& ~~~ mask) ||| mask = a ||| mask := by
  refine BitVec.eq_of_getLsbD_eq fun i hi => ?_
  simp only [BitVec.getLsbD_or, BitVec.getLsbD_and, BitVec.getLsbD_not, hi, decide_true,
    Bool.true_and]
  cases a.getLsbD i <;> cases mask.getLsbD i <;> rfl

/-- All of the code. -/
lemma started (c : Cp15) (ttba : Word) : Started ttba c ((startOps ttba).foldl step c) := by
  have hoff := foldl_off (offOps_keepsOff ttba) (exec_stopMmu_off c)
  -- after `init_mmu`, and before the last instruction
  let d : Cp15 :=
    { c with
      sctlr := c.sctlr &&& ~~~ SCTLR_MMU_OPTION
      actlr := c.actlr ||| 0x40
      dacr := initMmuDacr
      ttbcr := 0
      tlb := [] }
  let e : Cp15 :=
    { d with
      ttbr0 := 0x4a ||| ttba
      ttbr1 := 0x4a ||| ttba
      contextidr := (((c.contextidr &&& 0xFFFFFF00) ||| Kernel.RESERVED_ASID_NUM) &&& 0xFFFFFF00)
        ||| Kernel.RESERVED_ASID_NUM
      irqMasked := false }
  have hinit : (initMmu.tail).foldl exec (c.exec .stopMmu) = d := rfl
  have hstop : d.exec .stopMmuIfEnabled = d := by
    have hd : d.mmuEnabled = false := mmuEnabled_eq_false.mpr (stopped c.sctlr)
    rw [exec, if_neg (by rw [hd]; decide)]
  have hsync : (syncTtbaChangeNoLock ttba).foldl exec d = e := rfl
  have hexec : (offOps ttba).foldl exec (c.exec .stopMmu) = e := by
    have hsplit : offOps ttba =
        initMmu.tail ++ (.stopMmuIfEnabled :: syncTtbaChangeNoLock ttba) := rfl
    rw [hsplit, List.foldl_append, hinit, List.foldl_cons, hstop, hsync]
  have hon : (e.exec (.orrSctlr SCTLR_MMU_OPTION)).mmuEnabled = true :=
    decide_eq_true (enabled _)
  have hctx : e.contextidr = c.contextidr &&& 0xFFFFFF00 := by
    show ((c.contextidr &&& 0xFFFFFF00 ||| 0) &&& 0xFFFFFF00) ||| 0 = _
    have hzero : ∀ a : Word, a ||| 0 = a := fun a => BitVec.or_zero
    rw [hzero, hzero, BitVec.and_assoc, BitVec.and_self]
  rw [startOps_eq, List.cons_append, List.foldl_cons, List.foldl_append,
    step_eq_exec (exec_stopMmu_off c), hoff.1, hexec, List.foldl_cons, List.foldl_nil, step, fill,
    if_pos hon]
  exact ⟨and_not_or c.sctlr _, rfl, rfl, rfl, rfl, rfl, hctx, rfl, rfl⟩

end Cp15

/-! ## A core by itself -/

/-- The number of steps of the code: the stores, and 14 instructions after them. -/
def numSteps : ℕ := numStores + 14

section Solo

variable {m m' : Mem} {ssi : Fin NUM_SYS_STRUCT} {cp15 : Cp15} {k : ℕ}

/-- The code, with the tables of `sysconfs.c`. -/
abbrev starting : Thread StartCore Word Word := startThread (initSysinfos TTBA_BASE)

abbrev atStart (ssi : Fin NUM_SYS_STRUCT) (cp15 : Cp15) : StartCore :=
  .start (initSysinfos TTBA_BASE) TTBA_BASE ssi cp15

lemma starting_next (s : StartCore) (m : Mem) : starting.next s m = s.next := rfl

/-- The registers after `init_ttbs`: the MMU may have been on before. -/
def filled (cp15 : Cp15) : Cp15 := Cp15.fill^[numStores] cp15

lemma solo_stores (m : Mem) (ssi : Fin NUM_SYS_STRUCT) (cp15 : Cp15) (hk : k ≤ numStores) :
    starting.solo m (atStart ssi cp15) k =
      some ⟨.after k, startOps (initSysinfos TTBA_BASE ssi).ttba, Cp15.fill^[k] cp15⟩ := by
  induction k with
  | zero => rfl
  | succ k ih =>
      rw [Thread.solo, ih (Nat.le_of_succ_le hk), Option.bind_some, starting_next,
        StartCore.next, FillPos.next_after hk, Function.iterate_succ_apply']

lemma solo_ops_from {s : StartCore} {ops : List Cp15Op} {c : Cp15}
    (h : starting.solo m s numStores = some ⟨.after numStores, ops, c⟩) (hk : k ≤ ops.length) :
    starting.solo m s (numStores + k) =
      some ⟨.after numStores, ops.drop k, (ops.take k).foldl Cp15.step c⟩ := by
  induction k with
  | zero => exact h
  | succ k ih =>
      rw [← Nat.add_assoc, Thread.solo, ih (Nat.le_of_succ_le hk), Option.bind_some,
        starting_next, StartCore.next, FillPos.next_after_numStores, List.drop_eq_getElem_cons hk,
        List.take_succ_eq_append_getElem hk, List.foldl_append]
      rfl

lemma solo_ops (m : Mem) (ssi : Fin NUM_SYS_STRUCT) (cp15 : Cp15) (hk : k ≤ 14) :
    starting.solo m (atStart ssi cp15) (numStores + k) =
      some ⟨.after numStores, (startOps (initSysinfos TTBA_BASE ssi).ttba).drop k,
        ((startOps (initSysinfos TTBA_BASE ssi).ttba).take k).foldl Cp15.step (filled cp15)⟩ :=
  solo_ops_from (solo_stores m ssi cp15 le_rfl) hk

/-- The end. -/
lemma solo_end (m : Mem) (ssi : Fin NUM_SYS_STRUCT) (cp15 : Cp15) :
    starting.solo m (atStart ssi cp15) numSteps = some ⟨.after numStores, [],
      (startOps (initSysinfos TTBA_BASE ssi).ttba).foldl Cp15.step (filled cp15)⟩ :=
  solo_ops m ssi cp15 le_rfl

lemma next_end (m : Mem) (c : Cp15) : starting.next ⟨.after numStores, [], c⟩ m = none := by
  rw [starting_next, StartCore.next, FillPos.next_after_numStores]

/-- No core stores anything but the descriptors of the tables. -/
lemma safe_solo {s : StartCore} (h : Built m m')
    (hs : starting.solo m (atStart ssi cp15) k = some s) : starting.Safe (tableStores m') s := by
  refine ⟨?_, fun a ha => absurd ha List.not_mem_nil⟩
  show ∀ x ∈ s.fill.stores (initSysinfos TTBA_BASE), tableStores m' x.1 = some x.2
  by_cases hk : k < numStores
  · rw [solo_stores m ssi cp15 hk.le] at hs
    obtain rfl := Option.some.inj hs
    exact h.stores hk
  · have hle : k ≤ numSteps := by
      by_contra hlt
      obtain ⟨d, rfl⟩ : ∃ d, k = numSteps + 1 + d := ⟨k - (numSteps + 1), by omega⟩
      have hnone : starting.solo m (atStart ssi cp15) (numSteps + 1) = none := by
        rw [Thread.solo, solo_end, Option.bind_some, next_end]
      rw [Thread.solo_none_add hnone] at hs
      cases hs
    obtain ⟨j, rfl⟩ : ∃ j, k = numStores + j := ⟨k - numStores, by omega⟩
    rw [solo_ops m ssi cp15 (by rw [numSteps] at hle; omega)] at hs
    obtain rfl := Option.some.inj hs
    rw [FillPos.stores_after_numStores]
    exact fun x hx => absurd hx List.not_mem_nil

/-- When `init_ttbs` returns, every descriptor has been stored. -/
lemma storesBy (m : Mem) (ssi : Fin NUM_SYS_STRUCT) (cp15 : Cp15) {a : Word}
    (ha : ∃ i : Fin NUM_SYS_STRUCT, a ∈ tableWords (tableAt i)) :
    starting.StoresBy m (atStart ssi cp15) numStores a := by
  obtain ⟨k, hk, hstore⟩ := exists_store ha
  exact ⟨k, _, hk, solo_stores m ssi cp15 hk.le, hstore⟩

end Solo

/-! ## The cores together -/

/-- The section of the stacks of a core. -/
def CoreStack (c : Fin NUM_CPU) (va : Word) : Prop :=
  2 ^ 20 * (c.val + 1) ≤ va.toNat ∧ va.toNat < 2 ^ 20 * (c.val + 2)

/-- The stacks of a core are among those of its kernel. -/
lemma CoreStack.private {c : Fin NUM_CPU} {pm va : Word} {i : Fin NUM_SYS_STRUCT}
    (h : CoreStack c va) (hpm : isValidPm pm = true)
    (hi : getSysStructInfo (.ofNat 32 c) pm = some i) : (ofEntry i).Private va := by
  have hcpuid : BitVec.ofNat 32 c.val < 4 := by
    fin_cases c <;> decide
  have hnat : (BitVec.ofNat 32 c.val).toNat = c.val := by
    fin_cases c <;> rfl
  obtain ⟨j, hj, hcores⟩ := coresOf_entry ⟨hcpuid, (isValidPm_iff pm).mp hpm⟩
  obtain rfl := Option.some.inj (hi.symm.trans hj)
  have hmem : c.val ∈ coresOf i := by
    rw [hcores, hnat]
    split
    · assumption
    · exact Finset.mem_singleton_self _
  have hall : ∀ i : Fin NUM_SYS_STRUCT, ∀ c ∈ coresOf i,
      (ofEntry i).spBottom.toNat ≤ 2 ^ 20 * (c + 1) ∧
        2 ^ 20 * (c + 2) ≤ (ofEntry i).spBottom.toNat +
          2 ^ 20 * (ofEntry i).stackSections.toNat := by decide
  obtain ⟨hlow, hhigh⟩ := hall i c hmem
  exact .inl ⟨hlow.trans h.1, h.2.trans_le hhigh⟩

/-- Code and data below the stacks, and the peripherals. -/
def Common (va : Word) : Prop := va < SP_BASE ∨ PERIPH_BOTTOM ≤ va ∧ va < PERIPH_LIMIT

/-- They are mapped in every table. -/
lemma KernelTbl.Holds.walk_common {K : KernelTbl} {m : Mem} {ttba va : Word}
    (h : K.Holds m ttba) (hva : Common va) : Mmu.walk m ttba va = .section va := by
  have hbase : ∀ base : Word, 2 ^ 20 ∣ base.toNat →
      (base ≤ va → base ≤ sectionOf va) ∧ (va < base → sectionOf va < base) := by
    rintro base ⟨k, hk⟩
    rw [BitVec.le_def, BitVec.le_def, BitVec.lt_def, BitVec.lt_def, sectionOf_toNat]
    omega
  have htests : sectionOf va < SP_BASE ∨
      sectionOf va ≥ PERIPH_BOTTOM ∧ sectionOf va < PERIPH_LIMIT :=
    hva.imp (hbase SP_BASE (by decide)).2
      (And.imp (hbase PERIPH_BOTTOM (by decide)).1 (hbase PERIPH_LIMIT (by decide)).2)
  rw [h.walk, if_pos]
  have hzero : sectionOf va ≥ 0x00000000 := Nat.zero_le _
  cases K with
  | amp kramArea uramArea kheapArea spBottom =>
      rw [KernelTbl.flags, ampFlags]
      split_ifs <;> simp_all
  | smp kramArea uramArea kheapArea spBottom numCpu =>
      rw [KernelTbl.flags, smpFlags]
      split_ifs <;> simp_all

/-- The table of an entry is what the processor takes `TTBR0` to be. -/
lemma ttbr0_and_mask (i : Fin NUM_SYS_STRUCT) :
    (0x4a ||| (initSysinfos TTBA_BASE i).ttba) &&& TTB_MASK = tableAt i := by
  fin_cases i <;> rfl

/-- What a core finds in its table. -/
structure Translates (m : Mem) (c : Fin NUM_CPU) (i : Fin NUM_SYS_STRUCT) (ttba : Word) : Prop
    where
  identity : ∀ va, walk m ttba va = .section va ∨ walk m ttba va = .fault
  common : ∀ va, Common va → walk m ttba va = .section va
  stack : ∀ va, CoreStack c va → walk m ttba va = .section va
  own : ∀ va, (ofEntry i).Private va → walk m ttba va = .section va

lemma Built.translates {m m' : Mem} (h : Built m m') {c : Fin NUM_CPU} {pm : Word}
    {i : Fin NUM_SYS_STRUCT} (hpm : isValidPm pm = true)
    (hi : getSysStructInfo (.ofNat 32 c) pm = some i) : Translates m' c i (tableAt i) := by
  refine ⟨fun va => ?_, fun va hva => (h.holds i).walk_common hva, fun va hva => ?_,
    fun va hva => ?_⟩
  · rw [(h.holds i).walk]
    split
    · exact .inl rfl
    · exact .inr rfl
  · exact (h.holds i).walk_private (ofEntry_valid i) (hva.private hpm hi)
  · exact (h.holds i).walk_private (ofEntry_valid i) hva

/-- What is private to a kernel faults in the table of every other. -/
lemma Built.fault {m m' : Mem} (h : Built m m') {c c' : Fin NUM_CPU} {pm va : Word}
    {i i' : Fin NUM_SYS_STRUCT} (hpm : isValidPm pm = true)
    (hi : getSysStructInfo (.ofNat 32 c) pm = some i)
    (hi' : getSysStructInfo (.ofNat 32 c') pm = some i') (hne : i ≠ i')
    (hva : (ofEntry i').Private va) : walk m' (tableAt i) va = .fault := by
  have hcpuid : ∀ c : Fin NUM_CPU, BitVec.ofNat 32 c.val < 4 := by decide
  have hpair := (isValidPm_iff pm).mp hpm
  have hdisjoint := ofEntry_disjoint
    (coresOf_disjoint ⟨hcpuid c, hpair⟩ ⟨hcpuid c', hpair⟩ hi hi' hne)
  exact ((isolated_of_holds (h.holds i) (h.holds i') (ofEntry_valid i) (ofEntry_valid i')
    hdisjoint).snd va hva).2

/-- What holds of a core after `n` of its steps, with the registers `c₀` at first. -/
structure CoreStatus (m m' : Mem) (c : Fin NUM_CPU) (i : Fin NUM_SYS_STRUCT) (c₀ : Cp15)
    (n : ℕ) (s : StartCore) : Prop where
  le : n ≤ numSteps
  built : numStores ≤ n → m = m'
  off : numStores < n → n < numSteps → s.cp15.mmuEnabled = false
  started : n = numSteps → Started (initSysinfos TTBA_BASE i).ttba c₀ s.cp15 ∧
    Translates m c i (s.cp15.ttbr0 &&& TTB_MASK)

/-- Before `stop_mmu` the TLB may fill, and nothing else changes. -/
lemma Started.of_filled {ttba : Word} {c c' : Cp15} (h : Started ttba (filled c) c') :
    Started ttba c c' := by
  have hkept : ∀ n, (Cp15.fill^[n] c).sctlr = c.sctlr ∧ (Cp15.fill^[n] c).actlr = c.actlr ∧
      (Cp15.fill^[n] c).contextidr = c.contextidr := by
    intro n
    induction n with
    | zero => exact ⟨rfl, rfl, rfl⟩
    | succ n ih =>
        rw [Function.iterate_succ_apply', Cp15.fill]
        split <;> exact ih
  obtain ⟨hsctlr, hactlr, hctx⟩ := hkept numStores
  refine { h with sctlr := ?_, actlr := ?_, contextidr := ?_ }
  · rw [← hsctlr]
    exact h.sctlr
  · rw [← hactlr]
    exact h.actlr
  · rw [← hctx]
    exact h.contextidr

section Reached

variable {cs cs' : Threads (Fin NUM_CPU) StartCore Word Word} {ls : List (Fin NUM_CPU)}
  {m' : Mem} {c : Fin NUM_CPU} {i : Fin NUM_SYS_STRUCT} {cp15 : Cp15}

/-- What was stored is the final descriptor. -/
lemma mem_of_hasStored (h : starting.Reached cs (tableStores m') ls cs') {a : Word}
    (ha : starting.HasStored cs ls a) : cs'.mem a = m' a := by
  have hstored := h.stored a ha
  rw [tableStores] at hstored
  split at hstored
  · exact (Option.some.inj hstored).symm
  · cases hstored

/-- Once one core has returned from `init_ttbs` the tables are there, and stay. -/
lemma mem_of_count (h : starting.Reached cs (tableStores m') ls cs') (hbuilt : Built cs.mem m')
    (hstart : cs.thread c = atStart i cp15) (hcount : numStores ≤ ls.count c) :
    cs'.mem = m' := by
  funext a
  by_cases ha : ∃ i : Fin NUM_SYS_STRUCT, a ∈ tableWords (tableAt i)
  · refine mem_of_hasStored h ⟨c, Thread.StoresBy.mono ?_ hcount⟩
    rw [hstart]
    exact storesBy cs.mem i cp15 ha
  · rw [h.untouched (if_neg ha), hbuilt.other a fun i hi => ha ⟨i, hi⟩]

lemma coreStatus (h : starting.Reached cs (tableStores m') ls cs') (hbuilt : Built cs.mem m')
    (hstart : cs.thread c = atStart i cp15) {pm : Word} (hpm : isValidPm pm = true)
    (hi : getSysStructInfo (.ofNat 32 c) pm = some i) :
    CoreStatus cs'.mem m' c i cp15 (ls.count c) (cs'.thread c) := by
  have hend : starting.solo cs.mem (cs.thread c) numSteps = some ⟨.after numStores, [],
      (startOps (initSysinfos TTBA_BASE i).ttba).foldl Cp15.step (filled cp15)⟩ := by
    rw [hstart, solo_end]
  refine ⟨h.count_le hend (next_end _ _), mem_of_count h hbuilt hstart, fun hlow hhigh => ?_,
    fun hcount => ?_⟩
  · obtain ⟨k, hk⟩ : ∃ k, ls.count c = numStores + k := ⟨ls.count c - numStores, by omega⟩
    have hthread := h.thread c
    rw [hk, numSteps] at hhigh
    rw [hstart, hk, solo_ops cs.mem i cp15 (by omega)] at hthread
    rw [← Option.some.inj hthread]
    exact Cp15.foldl_take_off _ _ (by omega) (by omega)
  · have hthread := h.thread c
    rw [hcount, hend] at hthread
    rw [← Option.some.inj hthread]
    have hstarted := (Cp15.started (filled cp15) (initSysinfos TTBA_BASE i).ttba).of_filled
    refine ⟨hstarted, ?_⟩
    rw [hstarted.ttbr0, ttbr0_and_mask,
      mem_of_count h hbuilt hstart (by rw [hcount, numSteps]; omega)]
    exact hbuilt.translates hpm hi

end Reached

/-- **The MMUs come up.** -/
theorem mmu_start_every_interleaving {pm : Word} (hpm : isValidPm pm = true)
    {entry : Fin NUM_CPU → Fin NUM_SYS_STRUCT} {cp15 : Fin NUM_CPU → Cp15}
    {cs : Threads (Fin NUM_CPU) StartCore Word Word}
    (hentry : ∀ c : Fin NUM_CPU, getSysStructInfo (.ofNat 32 c) pm = some (entry c))
    (hstart : ∀ c, cs.thread c = atStart (entry c) (cp15 c)) :
    ∃ m', initTtbs 4096 (initSysinfos TTBA_BASE) TTBA_BASE cs.mem = some m' ∧ ∀ ls cs',
      Run (fun cs c cs' => starting.step cs c = some cs') cs ls cs' →
      (∀ a, cs'.mem a = cs.mem a ∨ cs'.mem a = m' a) ∧
      (∀ c, ls.count c < numSteps → (starting.step cs' c).isSome) ∧
      (∀ c, CoreStatus cs'.mem m' c (entry c) (cp15 c) (ls.count c) (cs'.thread c)) ∧
      ∀ c c', ls.count c = numSteps → entry c ≠ entry c' →
        ∀ va, (ofEntry (entry c')).Private va →
          walk cs'.mem ((cs'.thread c).cp15.ttbr0 &&& TTB_MASK) va = .fault := by
  obtain ⟨m', hbuilt⟩ := exists_built cs.mem
  have hagree : starting.Agree cs (tableStores m') := by
    intro c k s hs
    rw [hstart] at hs
    exact safe_solo hbuilt hs
  refine ⟨m', hbuilt.run, fun ls cs' hr => ?_⟩
  have hreached := hagree.reached hr
  refine ⟨fun a => ?_, fun c hlt => ?_, fun c => ?_, fun c c' hcount hne va hva => ?_⟩
  · by_cases ha : starting.HasStored cs ls a
    · exact .inr (mem_of_hasStored hreached ha)
    · exact .inl (hreached.kept a ha)
  · exact (hreached.of_solo hagree (by rw [hstart, solo_end]) (next_end _ _)).2.1 hlt
  · exact coreStatus hreached hbuilt (hstart c) hpm (hentry c)
  · have hstatus := coreStatus hreached hbuilt (hstart c) hpm (hentry c)
    rw [(hstatus.started hcount).1.ttbr0, ttbr0_and_mask,
      hstatus.built (by rw [hcount, numSteps]; omega)]
    exact hbuilt.fault hpm (hentry c) (hentry c') hne hva

/-- Four cores with the MMU on, all in AMP mode. -/
def ampStart : Threads (Fin NUM_CPU) StartCore Word Word where
  thread c := atStart (c.castLE (by decide)) ⟨1, 0, 0, 0, 0, 0, 0, true, []⟩
  mem _ := 0

/-- Each of them ends with a table of its own, when all tables are there. -/
theorem mmu_start_every_interleaving_amp : ∃ m',
    initTtbs 4096 (initSysinfos TTBA_BASE) TTBA_BASE (fun _ => 0) = some m' ∧ ∀ ls cs',
      Run (fun cs c cs' => starting.step cs c = some cs') ampStart ls cs' →
      ∀ c, ls.count c = numSteps →
        cs'.mem = m' ∧ (cs'.thread c).cp15.ttbr0 = 0x4a ||| tableAt c := by
  have hentry : ∀ c : Fin NUM_CPU,
      getSysStructInfo (.ofNat 32 c) 0xF = some (c.castLE (by decide)) := by decide
  have hstart : ∀ c, ampStart.thread c =
      atStart (c.castLE (by decide)) ⟨1, 0, 0, 0, 0, 0, 0, true, []⟩ := fun c => rfl
  obtain ⟨m', hm', hrun⟩ := mmu_start_every_interleaving (by decide) hentry hstart
  refine ⟨m', hm', fun ls cs' hr c hcount => ?_⟩
  have hstatus := (hrun ls cs' hr).2.2.1 c
  refine ⟨hstatus.built (by rw [hcount, numSteps]; omega), ?_⟩
  rw [(hstatus.started hcount).1.ttbr0, ttba_initSysinfos]
  rfl

/-! ## The stacks that the reset code sets -/

/-- The bytes of the stack of a mode.  That of SVC starts a word below the next section, so it is
a word shorter than the others. -/
def stackExtent (md : Word) : Word :=
  if md = Reset.PSR_SVC then Reset.STACK_SIZE - 4 else Reset.STACK_SIZE

/-- The address is on the stack of a mode: below its stack pointer, and no further from it than
the stack is large. -/
def OnStack (s : Reset.Core) (md va : Word) : Prop :=
  va.toNat < (s.bankedSp md).toNat ∧
    (s.bankedSp md).toNat ≤ va.toNat + (stackExtent md).toNat

section Stacks

variable {c c' : Fin NUM_CPU} {s t t' : Reset.Core} {md md' va : Word}

open Reset in
/-- The stacks of a core follow each other in its section, each in a quarter of it. -/
lemma ready_sp (h : ReadyForC c s t) (hmd : md ∈ stackModes) :
    ∃ k < 4, stackModes[k]? = some md ∧ (stackExtent md).toNat ≤ 2 ^ 18 ∧
      (t.bankedSp md).toNat = 2 ^ 20 * (c + 1) + 2 ^ 18 * k + (stackExtent md).toNat := by
  have htops : ∀ c : Fin NUM_CPU,
      (stackTop c).toNat = 2 ^ 20 * (c + 1) + 2 ^ 18 * 0 + (stackExtent PSR_FIQ).toNat ∧
      (stackTop c + STACK_SIZE).toNat =
        2 ^ 20 * (c + 1) + 2 ^ 18 * 1 + (stackExtent PSR_IRQ).toNat ∧
      (stackTop c + STACK_SIZE + STACK_SIZE).toNat =
        2 ^ 20 * (c + 1) + 2 ^ 18 * 2 + (stackExtent PSR_ABT).toNat ∧
      (stackTop c + STACK_SIZE + STACK_SIZE + STACK_SIZE - 4).toNat =
        2 ^ 20 * (c + 1) + 2 ^ 18 * 3 + (stackExtent PSR_SVC).toNat := by decide
  obtain ⟨hfiq, hirq, habt, hsvc⟩ := htops c
  obtain ⟨hspFiq, hspIrq, hspAbt, hspSvc⟩ := stacksFrom_modes s.bankedSp (stackTop c)
  rw [h.set.bankedSp]
  simp only [stackModes, List.mem_cons, List.not_mem_nil, or_false] at hmd
  rcases hmd with rfl | rfl | rfl | rfl
  · exact ⟨0, by decide, rfl, by decide, by rw [hspFiq, hfiq]⟩
  · exact ⟨1, by decide, rfl, by decide, by rw [hspIrq, hirq]⟩
  · exact ⟨2, by decide, rfl, by decide, by rw [hspAbt, habt]⟩
  · exact ⟨3, by decide, rfl, by decide, by rw [hspSvc, hsvc]⟩

/-- A stack is in the section of its core. -/
lemma OnStack.coreStack (h : Reset.ReadyForC c s t) (hmd : md ∈ Reset.stackModes)
    (hva : OnStack t md va) : CoreStack c va := by
  obtain ⟨k, hk, -, hextent, hsp⟩ := ready_sp h hmd
  obtain ⟨hlow, hhigh⟩ := hva
  constructor <;> omega

/-- No address is on two stacks. -/
lemma OnStack.unique {s' : Reset.Core} (h : Reset.ReadyForC c s t)
    (h' : Reset.ReadyForC c' s' t') (hmd : md ∈ Reset.stackModes) (hmd' : md' ∈ Reset.stackModes)
    (hva : OnStack t md va) (hva' : OnStack t' md' va) : c = c' ∧ md = md' := by
  obtain ⟨k, hk, hget, hextent, hsp⟩ := ready_sp h hmd
  obtain ⟨k', hk', hget', hextent', hsp'⟩ := ready_sp h' hmd'
  obtain ⟨hlow, hhigh⟩ := hva
  obtain ⟨hlow', hhigh'⟩ := hva'
  have hsame : c.val = c'.val ∧ k = k' := by omega
  refine ⟨Fin.ext hsame.1, Option.some.inj ?_⟩
  rw [← hget, ← hget', hsame.2]

end Stacks

/-- **The stacks.**  No two of the stacks that the reset code sets, of whichever cores and modes,
have an address in common, and through the tables of `init_ttbs` a core reaches its own stacks
and a core with another kernel does not. -/
theorem reset_stacks_private {pm : Word} (hpm : isValidPm pm = true)
    {entry : Fin NUM_CPU → Fin NUM_SYS_STRUCT}
    (hentry : ∀ c : Fin NUM_CPU, getSysStructInfo (.ofNat 32 c) pm = some (entry c))
    {s t : Fin NUM_CPU → Reset.Core} (hready : ∀ c, Reset.ReadyForC c (s c) (t c)) (m : Mem) :
    ∃ m', initTtbs 4096 (initSysinfos TTBA_BASE) TTBA_BASE m = some m' ∧
      ∀ c, ∀ md ∈ Reset.stackModes, ∀ va, OnStack (t c) md va →
        walk m' (initSysinfos TTBA_BASE (entry c)).ttba va = .section va ∧
        (∀ c', entry c' ≠ entry c →
          walk m' (initSysinfos TTBA_BASE (entry c')).ttba va = .fault) ∧
        ∀ c', ∀ md' ∈ Reset.stackModes, OnStack (t c') md' va → c' = c ∧ md' = md := by
  obtain ⟨m', hbuilt⟩ := exists_built m
  refine ⟨m', hbuilt.run, fun c md hmd va hva => ?_⟩
  have hstack := hva.coreStack (hready c) hmd
  refine ⟨?_, fun c' hne => ?_, fun c' md' hmd' hva' => ?_⟩
  · rw [ttba_initSysinfos]
    exact (hbuilt.translates hpm (hentry c)).stack va hstack
  · rw [ttba_initSysinfos]
    exact hbuilt.fault hpm (hentry c') (hentry c) hne (hstack.private hpm (hentry c))
  · exact hva'.unique (hready c') (hready c) hmd' hmd hva

/-- A core as the reset code leaves it. -/
def leftByReset (c : Fin NUM_CPU) : Reset.Core where
  r _ := 0
  bankedSp := Reset.stacksFrom (fun _ => 0) (Reset.stackTop c)
  bankedLr _ := 0
  spsr _ := 0
  cpsr := 0xD3
  elrHyp := 0
  mpidr := 0x80000F00 ||| .ofNat 32 c
  pc := if c = 0 then Reset.sysInitPrimary else Reset.sysInitSecondary

/-- With all cores in AMP mode, no core reaches the stacks of another. -/
theorem reset_stacks_private_amp : ∃ m',
    initTtbs 4096 (initSysinfos TTBA_BASE) TTBA_BASE (fun _ => 0) = some m' ∧
      ∀ c : Fin NUM_CPU, ∀ md ∈ Reset.stackModes, ∀ va, OnStack (leftByReset c) md va →
        ∀ c' : Fin NUM_CPU, c' ≠ c →
          walk m' (initSysinfos TTBA_BASE (c'.castLE (by decide))).ttba va = .fault := by
  have hcontrol : (0xD3 : Word) &&& Reset.controlMask =
      Reset.PSR_SVC ||| Reset.PSR_I ||| Reset.PSR_F := by decide
  have hready : ∀ c, Reset.ReadyForC c
      { leftByReset c with bankedSp := fun _ => 0 } (leftByReset c) :=
    fun c => ⟨rfl, ⟨hcontrol, rfl, rfl⟩⟩
  have hentry : ∀ c : Fin NUM_CPU,
      getSysStructInfo (.ofNat 32 c) 0xF = some (c.castLE (by decide)) := by decide
  obtain ⟨m', hrun, hstacks⟩ := reset_stacks_private (by decide) hentry hready fun _ => 0
  refine ⟨m', hrun, fun c md hmd va hva c' hne => (hstacks c md hmd va hva).2.1 c' ?_⟩
  exact fun h => hne (Fin.castLE_injective _ h)

end Mmu

end Rpi2Baremetal
