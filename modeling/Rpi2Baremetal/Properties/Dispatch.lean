import Rpi2Baremetal.Model.Interrupt
import Mathlib.Tactic

/-!
# What the dispatch loops compute

`local_int_handler` serves the lowest IPI of the mailbox (`localIpi_eq_some`), and
`_interrupt_handler` calls `call_irq_handler` for exactly the pending lines below which no
pending line has a handler (`mem_calledLines`).
-/

namespace Rpi2Baremetal

namespace Interrupt

/-! ## Bits of a word shifted right -/

lemma and_one_eq_zero (w : Word) : w &&& 1 = 0 ↔ w.getLsbD 0 = false := by
  rw [show (1 : Word) = 1#32 from rfl, BitVec.and_one_eq_setWidth_ofBool_getLsbD]
  cases w.getLsbD 0 <;> decide

lemma getLsbD_shift (w : Word) (j : ℕ) : (w >>> 1).getLsbD j = w.getLsbD (j + 1) := by
  rw [BitVec.getLsbD_ushiftRight, Nat.add_comm]

lemma toNat_shift (w : Word) : (w >>> 1).toNat = w.toNat / 2 := by
  rw [BitVec.toNat_ushiftRight, Nat.shiftRight_eq_div_pow, pow_one]

lemma exists_bit_of_ne_zero {w : Word} (h : w ≠ 0) : ∃ j, w.getLsbD j := by
  by_contra hno
  refine h (BitVec.eq_of_getLsbD_eq fun j _ => ?_)
  simpa using not_exists.mp hno j

/-! ## The lowest IPI -/

/-- Bit `k` is the lowest one set. -/
def LowestBit (w : Word) (k : ℕ) : Prop := w.getLsbD k ∧ ∀ j < k, w.getLsbD j = false

lemma LowestBit.unique {w : Word} {j k : ℕ} (hj : LowestBit w j) (hk : LowestBit w k) :
    j = k := by
  rcases Nat.lt_trichotomy j k with h | h | h
  · exact absurd hj.1 (by simp [hk.2 j h])
  · exact h
  · exact absurd hk.1 (by simp [hj.2 k h])

lemma ipiScan_spec (fuel : ℕ) (mask : Word) (n : ℕ) (h0 : mask ≠ 0)
    (hfuel : mask.toNat < 2 ^ fuel) :
    ∃ j, ipiScan fuel mask n = n + j ∧ LowestBit mask j := by
  induction fuel generalizing mask n with
  | zero => exact absurd (BitVec.eq_of_toNat_eq (by simpa using hfuel)) h0
  | succ fuel ih =>
      by_cases hbit : mask.getLsbD 0
      · refine ⟨0, ?_, hbit, by simp⟩
        have hne : mask &&& 1 ≠ 0 := fun h => absurd ((and_one_eq_zero mask).mp h) (by simp [hbit])
        rw [ipiScan, if_neg hne]
        rfl
      · have hzero : mask.getLsbD 0 = false := by simpa using hbit
        have hshift : mask >>> 1 ≠ 0 := by
          intro h
          obtain ⟨j, hj⟩ := exists_bit_of_ne_zero h0
          obtain ⟨j, rfl⟩ : ∃ k, j = k + 1 :=
            Nat.exists_eq_succ_of_ne_zero fun hj0 => hbit (hj0 ▸ hj)
          rw [← getLsbD_shift, h] at hj
          simp at hj
        obtain ⟨j, hj, hlow⟩ := ih (mask >>> 1) (n + 1) hshift (by rw [toNat_shift]; omega)
        refine ⟨j + 1, ?_, ?_, ?_⟩
        · rw [ipiScan, if_pos ((and_one_eq_zero mask).mpr hzero), hj]
          omega
        · rw [← getLsbD_shift]
          exact hlow.1
        · intro i hi
          cases i with
          | zero => exact hzero
          | succ i =>
              rw [← getLsbD_shift]
              exact hlow.2 i (by omega)

/-- `local_int_handler` has an IPI to serve. -/
def LocalPending (i : IrqInput) : Prop := i.localPending &&& 0x10 ≠ 0 ∧ i.mailbox ≠ 0

lemma localIpi_eq_none {i : IrqInput} : localIpi i = none ↔ ¬ LocalPending i := by
  unfold localIpi LocalPending
  split_ifs <;> simp_all

/-- `local_int_handler` serves the lowest IPI in the mailbox. -/
lemma localIpi_eq_some {i : IrqInput} {k : ℕ} :
    localIpi i = some k ↔ LocalPending i ∧ LowestBit i.mailbox k := by
  by_cases hl : LocalPending i
  · obtain ⟨j, hj, hlow⟩ := ipiScan_spec 32 i.mailbox 0 hl.2 i.mailbox.isLt
    have hsome : localIpi i = some j := by
      rw [localIpi, if_neg hl.1, if_neg hl.2, hj, Nat.zero_add]
    rw [hsome, Option.some_inj]
    exact ⟨fun h => ⟨hl, h ▸ hlow⟩, fun h => hlow.unique h.2⟩
  · rw [localIpi_eq_none.mpr hl]
    simp [hl]

/-! ## The lines of one register -/

variable {handled : ℕ → Bool}

lemma scanBits_zero (fuel n : ℕ) : scanBits handled fuel 0 n = ([], false) := by
  cases fuel <;> simp [scanBits]

lemma scanBits_succ (fuel : ℕ) (p : Word) (n : ℕ) :
    scanBits handled (fuel + 1) p n =
      if p.getLsbD 0 ∧ handled n then ([n], true)
      else
        let rest := scanBits handled fuel (p >>> 1) (n + 1)
        (if p.getLsbD 0 then n :: rest.1 else rest.1, rest.2) := by
  have hrest : (if p >>> 1 = 0 then ([], false) else scanBits handled fuel (p >>> 1) (n + 1))
      = scanBits handled fuel (p >>> 1) (n + 1) := by
    split_ifs with hz
    · rw [hz, scanBits_zero]
    · rfl
  rw [scanBits, hrest]

/-- A line is called when its bit is set and no lower set bit has a handler. -/
lemma mem_scanBits {fuel : ℕ} {p : Word} {n : ℕ} (hfuel : p.toNat < 2 ^ fuel) (m : ℕ) :
    m ∈ (scanBits handled fuel p n).1 ↔
      n ≤ m ∧ p.getLsbD (m - n) ∧ ∀ i < m - n, p.getLsbD i → handled (n + i) = false := by
  induction fuel generalizing p n with
  | zero =>
      obtain rfl : p = 0 := BitVec.eq_of_toNat_eq (by simpa using hfuel)
      simp [scanBits]
  | succ fuel ih =>
      have hrest := ih (n := n + 1) (show (p >>> 1).toNat < 2 ^ fuel by rw [toNat_shift]; omega)
      simp only [getLsbD_shift] at hrest
      rw [scanBits_succ]
      by_cases hserved : p.getLsbD 0 ∧ handled n = true
      · -- the line of bit 0 has a handler, so the loop stops there
        rw [if_pos hserved, List.mem_singleton]
        constructor
        · rintro rfl
          simpa using hserved.1
        · rintro ⟨hle, -, hall⟩
          by_contra hm
          have := hall 0 (by omega) hserved.1
          rw [Nat.add_zero, hserved.2] at this
          exact absurd this (by decide)
      · have hmem : m ∈ (if p.getLsbD 0 then
              n :: (scanBits handled fuel (p >>> 1) (n + 1)).1
            else (scanBits handled fuel (p >>> 1) (n + 1)).1) ↔
            (m = n ∧ p.getLsbD 0) ∨ m ∈ (scanBits handled fuel (p >>> 1) (n + 1)).1 := by
          split_ifs with hbit
          · simp only [hbit, and_true, List.mem_cons]
          · simp only [hbit, and_false, false_or, Bool.false_eq_true]
        rw [if_neg hserved, hmem, hrest]
        rcases Nat.lt_trichotomy m n with hm | rfl | hm
        · simp [hm.ne, Nat.not_le.mpr hm, Nat.not_le.mpr (Nat.lt_succ_of_lt hm)]
        · simp
        · obtain ⟨d, rfl⟩ : ∃ d, m = n + 1 + d := ⟨m - n - 1, by omega⟩
          have h1 : n + 1 + d - (n + 1) = d := by omega
          have h2 : n + 1 + d - n = d + 1 := by omega
          have h0 : p.getLsbD 0 → handled n = false := fun hb => by
            simpa [hb] using hserved
          rw [h1, h2, Nat.forall_lt_succ_left]
          simp only [Nat.add_zero, Nat.add_assoc, Nat.add_comm 1]
          constructor
          · rintro (⟨hd, -⟩ | ⟨-, hb, hall⟩)
            · omega
            · exact ⟨by omega, hb, h0, hall⟩
          · rintro ⟨-, hb, -, hall⟩
            exact .inr ⟨by omega, hb, hall⟩

/-- A call returns `TRUE` exactly when some line with a handler is pending. -/
lemma scanBits_served {fuel : ℕ} {p : Word} {n : ℕ} (hfuel : p.toNat < 2 ^ fuel) :
    (scanBits handled fuel p n).2 = true ↔ ∃ j, p.getLsbD j ∧ handled (n + j) = true := by
  induction fuel generalizing p n with
  | zero =>
      obtain rfl : p = 0 := BitVec.eq_of_toNat_eq (by simpa using hfuel)
      simp [scanBits]
  | succ fuel ih =>
      have hrest := ih (n := n + 1) (show (p >>> 1).toNat < 2 ^ fuel by rw [toNat_shift]; omega)
      simp only [getLsbD_shift, Nat.add_assoc, Nat.add_comm 1] at hrest
      rw [scanBits_succ]
      by_cases hserved : p.getLsbD 0 ∧ handled n = true
      · rw [if_pos hserved]
        exact iff_of_true rfl ⟨0, hserved⟩
      · rw [if_neg hserved]
        refine hrest.trans ⟨?_, ?_⟩
        · rintro ⟨j, hj⟩
          exact ⟨j + 1, hj⟩
        · rintro ⟨j, hj⟩
          cases j with
          | zero => exact absurd hj hserved
          | succ j => exact ⟨j, hj⟩

/-- Nothing is called after a line with a handler. -/
lemma scanBits_head {fuel : ℕ} {p : Word} {n h : ℕ} {t : List ℕ}
    (heq : (scanBits handled fuel p n).1 = h :: t) (hh : handled h = true) :
    t = [] ∧ (scanBits handled fuel p n).2 = true := by
  induction fuel generalizing p n with
  | zero => simp [scanBits] at heq
  | succ fuel ih =>
      rw [scanBits_succ] at heq ⊢
      split_ifs at heq ⊢ with hserved hbit
      · obtain ⟨-, rfl⟩ := List.cons.inj heq
        exact ⟨rfl, rfl⟩
      · obtain ⟨rfl, -⟩ := List.cons.inj heq
        exact absurd ⟨hbit, hh⟩ hserved
      · exact ih heq

/-! ## All registers -/

/-- Line `m` is pending in the registers `ps`, the first of which is register `r`. -/
def LinePending (ps : List Word) (r m : ℕ) : Prop :=
  r ≤ m / 32 ∧ (ps.getD (m / 32 - r) 0).getLsbD (m % 32)

lemma linePending_nil (r m : ℕ) : ¬ LinePending [] r m := by
  simp [LinePending]

lemma linePending_cons (p : Word) (ps : List Word) (r m : ℕ) :
    LinePending (p :: ps) r m ↔
      (m / 32 = r ∧ p.getLsbD (m % 32)) ∨ LinePending ps (r + 1) m := by
  unfold LinePending
  rcases Nat.lt_trichotomy (m / 32) r with h | h | h
  · simp [Nat.not_le.mpr h, h.ne, Nat.not_le.mpr (Nat.lt_succ_of_lt h)]
  · simp [h]
  · obtain ⟨d, hd⟩ : ∃ d, m / 32 = r + 1 + d := ⟨m / 32 - r - 1, by omega⟩
    have h1 : m / 32 - r = d + 1 := by omega
    have h2 : m / 32 - (r + 1) = d := by omega
    simp [h1, h2, h.le, h.ne', Nat.succ_le_of_lt h]

/-- Line `m` is pending in register `r`, which reads `p`. -/
def RegPending (p : Word) (r m : ℕ) : Prop := m / 32 = r ∧ p.getLsbD (m % 32)

lemma regPending_iff (p : Word) (r m : ℕ) :
    RegPending p r m ↔ r * 32 ≤ m ∧ p.getLsbD (m - r * 32) := by
  constructor
  · rintro ⟨rfl, hb⟩
    have hmod : m - m / 32 * 32 = m % 32 := by omega
    exact ⟨by omega, hmod ▸ hb⟩
  · rintro ⟨hle, hb⟩
    have hlt : m - r * 32 < 32 := BitVec.lt_of_getLsbD hb
    have hmod : m % 32 = m - r * 32 := by omega
    exact ⟨by omega, hmod ▸ hb⟩

lemma mem_scanBits_reg (p : Word) (r m : ℕ) :
    m ∈ (scanBits handled 32 p (r * 32)).1 ↔
      RegPending p r m ∧ ∀ l < m, RegPending p r l → handled l = false := by
  rw [mem_scanBits p.isLt, regPending_iff, and_assoc]
  refine and_congr_right fun hle => and_congr_right fun _ =>
    ⟨fun h l hl hp => ?_, fun h i hi hb => ?_⟩
  · obtain ⟨hle', hb⟩ := (regPending_iff p r l).mp hp
    have := h (l - r * 32) (by omega) hb
    rwa [Nat.add_sub_cancel' hle'] at this
  · refine h (r * 32 + i) (by omega) ((regPending_iff p r _).mpr ⟨by omega, ?_⟩)
    rwa [Nat.add_sub_cancel_left]

lemma scanBits_served_reg (p : Word) (r : ℕ) :
    (scanBits handled 32 p (r * 32)).2 = true ↔ ∃ l, RegPending p r l ∧ handled l = true := by
  rw [scanBits_served p.isLt]
  constructor
  · rintro ⟨j, hb, hj⟩
    refine ⟨r * 32 + j, (regPending_iff p r _).mpr ⟨by omega, ?_⟩, hj⟩
    rwa [Nat.add_sub_cancel_left]
  · rintro ⟨l, hp, hl⟩
    obtain ⟨hle, hb⟩ := (regPending_iff p r l).mp hp
    exact ⟨l - r * 32, hb, by rwa [Nat.add_sub_cancel' hle]⟩

lemma scanRegs_cons (p : Word) (ps : List Word) (r : ℕ) :
    scanRegs handled (p :: ps) r =
      if p = 0 then scanRegs handled ps (r + 1)
      else if (scanBits handled 32 p (r * 32)).2 = true then (scanBits handled 32 p (r * 32)).1
      else (scanBits handled 32 p (r * 32)).1 ++ scanRegs handled ps (r + 1) := rfl

/-- The lines called are the pending ones below which no pending line has a handler. -/
lemma mem_scanRegs (ps : List Word) (r m : ℕ) :
    m ∈ scanRegs handled ps r ↔
      LinePending ps r m ∧ ∀ l < m, LinePending ps r l → handled l = false := by
  induction ps generalizing r with
  | nil => simp [scanRegs, linePending_nil]
  | cons p ps ih =>
      have hcons : ∀ l, LinePending (p :: ps) r l ↔ RegPending p r l ∨ LinePending ps (r + 1) l :=
        linePending_cons p ps r
      -- every line of this register is below every line of the ones after it
      have hbelow : ∀ {k l}, RegPending p r k → LinePending ps (r + 1) l → k < l := by
        intro k l hk hl
        have h1 := hk.1
        have h2 := hl.1
        omega
      simp only [hcons]
      rw [scanRegs_cons]
      split_ifs with hz hserved
      · have hno : ∀ l, ¬ RegPending p r l := fun l hl => by
          have := hl.2
          simp [hz] at this
        simp [hno, ih]
      · obtain ⟨k, hk, hh⟩ := (scanBits_served_reg p r).mp hserved
        rw [mem_scanBits_reg]
        constructor
        · rintro ⟨hm, hall⟩
          refine ⟨.inl hm, fun l hl hp => hp.elim (hall l hl) fun hp => ?_⟩
          exact absurd (hbelow hm hp) (by omega)
        · rintro ⟨hm | hm, hall⟩
          · exact ⟨hm, fun l hl hp => hall l hl (.inl hp)⟩
          · have := hall k (hbelow hk hm) (.inl hk)
            rw [hh] at this
            exact absurd this (by decide)
      · have hno : ∀ l, RegPending p r l → handled l = false := fun l hl =>
          Bool.eq_false_iff.mpr fun hh => hserved ((scanBits_served_reg p r).mpr ⟨l, hl, hh⟩)
        rw [List.mem_append, mem_scanBits_reg, ih]
        constructor
        · rintro (⟨hm, hall⟩ | ⟨hm, hall⟩)
          · refine ⟨.inl hm, fun l hl hp => hp.elim (hall l hl) fun hp => ?_⟩
            exact absurd (hbelow hm hp) (by omega)
          · exact ⟨.inr hm, fun l hl hp => hp.elim (hno l) (hall l hl)⟩
        · rintro ⟨hm | hm, hall⟩
          · exact .inl ⟨hm, fun l hl hp => hall l hl (.inl hp)⟩
          · exact .inr ⟨hm, fun l hl hp => hall l hl (.inr hp)⟩

/-- Nothing is called after a line with a handler. -/
lemma scanRegs_head {ps : List Word} {r h : ℕ} {t : List ℕ}
    (heq : scanRegs handled ps r = h :: t) (hh : handled h = true) : t = [] := by
  induction ps generalizing r with
  | nil => simp [scanRegs] at heq
  | cons p ps ih =>
      rw [scanRegs_cons] at heq
      split_ifs at heq with hz hserved
      · exact ih heq
      · exact (scanBits_head heq hh).1
      · cases hlines : (scanBits handled 32 p (r * 32)).1 with
        | nil =>
            simp only [hlines, List.nil_append] at heq
            exact ih heq
        | cons h' t' =>
            simp only [hlines, List.cons_append, List.cons.injEq] at heq
            obtain ⟨rfl, -⟩ := heq
            exact absurd (scanBits_head hlines hh).2 hserved

/-- Line `m` of the three pending registers is pending, the basic one masked to 8 bits. -/
def Pending (i : IrqInput) (m : ℕ) : Prop := LinePending (pending i) 0 m

lemma mem_calledLines (i : IrqInput) (m : ℕ) :
    m ∈ calledLines handled i ↔ Pending i m ∧ ∀ l < m, Pending i l → handled l = false :=
  mem_scanRegs (pending i) 0 m

end Interrupt

end Rpi2Baremetal
