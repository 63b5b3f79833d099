import Rpi2Baremetal.Properties.Dispatch

/-!
# What the dispatch does to the lines

`_interrupt_handler` passes over the pending lines upwards.  Lines without a handler it disables,
the first one with a handler it calls, and there it stops.  `interruptHandler_eq` reads the
effects off the list of lines for which `call_irq_handler` is called.
-/

namespace Rpi2Baremetal

open Framework

namespace Interrupt

/-! ## One line -/

/-- The table has a handler for the line. -/
def IrqTable.handled (t : IrqTable) (nIrq : ℕ) : Bool := t.handler nIrq ≠ 0

/-- The register that disables lines of a bank. -/
def disableRegister (bank : ℕ) : Word :=
  [DISABLE_IRQ1, DISABLE_IRQ2, DISABLE_BASIC_IRQ].getD bank 0

/-- Disabling a line: only its own bit is written, to the register of its own bank. -/
def disableLine (line : ℕ) : Action :=
  .write (disableRegister (line / 32)) (BitVec.twoPow 32 (line % 32))

/-- Calling the handler of a line with its parameter. -/
def callLine (t : IrqTable) (line : ℕ) : Action := .call (t.handler line) (t.param line)

/-- What `call_irq_handler` does for a line. -/
def lineAction (t : IrqTable) (line : ℕ) : Action :=
  if t.handled line then callLine t line else disableLine line

variable {t : IrqTable} {acts : List Action} {line : ℕ}

lemma toNat_line (h : line < IRQ_LINES) : (BitVec.ofNat 32 line).toNat = line := by
  rw [BitVec.toNat_ofNat, Nat.mod_eq_of_lt (Nat.lt_trans h (by decide))]

lemma disableIrq_eq (h : line < IRQ_LINES) :
    disableIrq (.ofNat 32 line) acts = acts ++ [disableLine line] := by
  have hline := toNat_line h
  have hmask : ARM_IRQ_MASK (.ofNat 32 line) = BitVec.twoPow 32 (line % 32) := by
    have hand : (BitVec.ofNat 32 line &&& (32 - 1)).toNat = line % 32 := by
      rw [BitVec.toNat_and, hline]
      exact Nat.and_two_pow_sub_one_eq_mod line 5
    rw [ARM_IRQ_MASK, BitVec.shiftLeft_eq', hand]
    rfl
  have hreg : ARM_IC_IRQS_DISABLE (.ofNat 32 line) = disableRegister (line / 32) := by
    have hbank : line / 32 = 0 ∨ line / 32 = 1 ∨ line / 32 = 2 := by
      have hlt : line < 72 := h
      omega
    have h32 : BitVec.ofNat 32 line < ARM_IRQ2_BASE ↔ line < 32 := by
      rw [BitVec.lt_def, hline]
      rfl
    have h64 : BitVec.ofNat 32 line < ARM_IRQBASIC_BASE ↔ line < 64 := by
      rw [BitVec.lt_def, hline]
      rfl
    rw [ARM_IC_IRQS_DISABLE]
    rcases hbank with hb | hb | hb
    · rw [if_pos (h32.mpr (by omega)), hb]
      rfl
    · rw [if_neg (mt h32.mp (by omega)), if_pos (h64.mpr (by omega)), hb]
      rfl
    · rw [if_neg (mt h32.mp (by omega)), if_neg (mt h64.mp (by omega)), hb]
      rfl
  rw [disableIrq, hmask, hreg, disableLine]

lemma callIrqHandler_eq (t : IrqTable) (acts : List Action) (h : line < IRQ_LINES) :
    callIrqHandler t (.ofNat 32 line) acts
      = some (t.handled line, acts ++ [lineAction t line]) := by
  rw [callIrqHandler, toNat_line h, if_pos h]
  by_cases hh : t.handler line = 0
  · have hno : t.handled line = false := decide_eq_false (not_not.mpr hh)
    rw [if_neg (not_not.mpr hh), disableIrq_eq h, lineAction, hno]
    rfl
  · have hyes : t.handled line = true := decide_eq_true hh
    rw [if_pos hh, lineAction, hyes]
    rfl

/-! ## The loops -/

/-- The loop over the bits of one register does what `scanBits` says for its lines. -/
lemma run_bitPass (fuel : ℕ) (p : Word) (n : ℕ) (acts : List Action) (h0 : p ≠ 0)
    (hfuel : p.toNat < 2 ^ fuel) (hlines : ∀ j, p.getLsbD j → n + j < IRQ_LINES) :
    Loop.run (bitPass t) fuel (p, .ofNat 32 n, acts)
      = some (some ((scanBits t.handled fuel p n).2,
          acts ++ (scanBits t.handled fuel p n).1.map (lineAction t))) := by
  induction fuel generalizing p n acts with
  | zero => exact absurd (BitVec.eq_of_toNat_eq (by simpa using hfuel)) h0
  | succ fuel ih =>
      have hnext : BitVec.ofNat 32 n + 1 = .ofNat 32 (n + 1) := (BitVec.ofNat_add n 1).symm
      -- a pass that does not return goes on with the bits above
      have hskip : ∀ acts', (if p &&& 1 ≠ 0 then callIrqHandler t (.ofNat 32 n) acts
            else some (false, acts)) = some (false, acts') →
          Loop.run (bitPass t) (fuel + 1) (p, .ofNat 32 n, acts)
            = some (some ((scanBits t.handled fuel (p >>> 1) (n + 1)).2,
              acts' ++ (scanBits t.handled fuel (p >>> 1) (n + 1)).1.map (lineAction t))) := by
        intro acts' hcall
        by_cases hshift : p >>> 1 = 0
        · have hpass : bitPass t (p, .ofNat 32 n, acts) = .leave (some (false, acts')) := by
            simp only [bitPass, hcall, hshift, ne_eq, not_true_eq_false, if_false]
          rw [Loop.run_succ_of_leave hpass, hshift, scanBits_zero]
          simp
        · have hpass : bitPass t (p, .ofNat 32 n, acts)
              = .again (p >>> 1, .ofNat 32 (n + 1), acts') := by
            simp only [bitPass, hcall, hshift, ne_eq, not_false_eq_true, if_true, hnext]
          rw [Loop.run_succ_of_again hpass]
          refine ih _ _ _ hshift (by rw [toNat_shift]; omega) fun j hj => ?_
          rw [getLsbD_shift] at hj
          have hlt := hlines _ hj
          omega
      rw [scanBits_succ]
      by_cases hbit : p.getLsbD 0
      · have hand : p &&& 1 ≠ 0 := fun h => absurd ((and_one_eq_zero p).mp h) (by simp [hbit])
        have hcall := callIrqHandler_eq t acts (hlines 0 hbit)
        rw [Nat.add_zero] at hcall
        cases hh : t.handled n with
        | true =>
            have hpass : bitPass t (p, .ofNat 32 n, acts)
                = .leave (some (true, acts ++ [lineAction t n])) := by
              simp only [bitPass, if_pos hand, hcall, hh]
            rw [Loop.run_succ_of_leave hpass, if_pos ⟨hbit, rfl⟩]
            rfl
        | false =>
            have hnot : ¬ (p.getLsbD 0 = true ∧ false = true) := fun h => Bool.noConfusion h.2
            rw [hskip _ (by rw [if_pos hand, hcall, hh]), if_neg hnot]
            simp [hbit]
      · have hand : ¬ (p &&& 1 ≠ 0) := not_not.mpr ((and_one_eq_zero p).mpr (by simpa using hbit))
        have hnot : ¬ (p.getLsbD 0 = true ∧ t.handled n = true) := fun h => hbit h.1
        rw [hskip _ (if_neg hand), if_neg hnot]
        dsimp only
        rw [if_neg hbit]

/-- The loop over the registers does what `scanRegs` says for its lines. -/
lemma regLoop_eq (ps : List Word) (r : ℕ) (acts : List Action)
    (hlines : ∀ m, LinePending ps r m → m < IRQ_LINES) :
    regLoop 32 t ps (.ofNat 32 r) acts
      = some (acts ++ (scanRegs t.handled ps r).map (lineAction t)) := by
  induction ps generalizing r acts with
  | nil => simp [regLoop, scanRegs]
  | cons p ps ih =>
      have hnext : BitVec.ofNat 32 r + 1 = .ofNat 32 (r + 1) := (BitVec.ofNat_add r 1).symm
      have hrest : ∀ acts, regLoop 32 t ps (.ofNat 32 (r + 1)) acts
          = some (acts ++ (scanRegs t.handled ps (r + 1)).map (lineAction t)) := fun acts =>
        ih _ _ fun m hm => hlines m ((linePending_cons p ps r m).mpr (.inr hm))
      rw [regLoop, scanRegs_cons, hnext]
      by_cases h0 : p = 0
      · rw [if_neg (not_not.mpr h0), if_pos h0, hrest]
      · have hmul : BitVec.ofNat 32 r * 32 = .ofNat 32 (r * 32) := (BitVec.ofNat_mul r 32).symm
        have hbits : ∀ j, p.getLsbD j → r * 32 + j < IRQ_LINES := fun j hj => by
          have hreg : RegPending p r (r * 32 + j) :=
            (regPending_iff p r _).mpr ⟨Nat.le_add_right _ _, by rwa [Nat.add_sub_cancel_left]⟩
          exact hlines _ ((linePending_cons p ps r _).mpr (.inl hreg))
        rw [if_pos h0, if_neg h0, hmul, run_bitPass 32 p (r * 32) acts h0 p.isLt hbits]
        cases hserved : (scanBits t.handled 32 p (r * 32)).2 with
        | true => rfl
        | false =>
            rw [if_neg Bool.false_ne_true, List.map_append, ← List.append_assoc]
            exact hrest _

/-! ## The lines called -/

/-- There are lines 0 to 71. -/
lemma pending_lt {i : IrqInput} {m : ℕ} (h : Pending i m) : m < IRQ_LINES := by
  obtain ⟨-, hbit⟩ := h
  rw [Nat.sub_zero, pending] at hbit
  have hbank : m / 32 = 0 ∨ m / 32 = 1 ∨ m / 32 = 2 ∨ 3 ≤ m / 32 := by omega
  show m < 72
  rcases hbank with hb | hb | hb | hb
  · omega
  · omega
  · -- the basic register is masked to its low 8 bits
    rw [hb] at hbit
    have hmask : (0xFF : Word).getLsbD (m % 32) := by
      have hand : (i.basicPend &&& 0xFF).getLsbD (m % 32) := hbit
      rw [BitVec.getLsbD_and, Bool.and_eq_true] at hand
      exact hand.2
    have hlow : ∀ j : Fin 32, (0xFF : Word).getLsbD j → j.val < 8 := by decide
    have hlt := hlow ⟨m % 32, Nat.mod_lt _ (by decide)⟩ hmask
    dsimp only at hlt
    omega
  · rw [List.getD_eq_getElem?_getD, List.getElem?_eq_none hb] at hbit
    simp at hbit

variable {handled : ℕ → Bool}

lemma scanBits_increasing (handled : ℕ → Bool) (fuel : ℕ) (p : Word) (n : ℕ) :
    (scanBits handled fuel p n).1.Pairwise (· < ·) ∧
      ∀ m ∈ (scanBits handled fuel p n).1, n ≤ m := by
  induction fuel generalizing p n with
  | zero => exact ⟨List.Pairwise.nil, fun m hm => absurd hm List.not_mem_nil⟩
  | succ fuel ih =>
      obtain ⟨hinc, hlow⟩ := ih (p >>> 1) (n + 1)
      rw [scanBits_succ]
      split_ifs with hserved hbit
      · exact ⟨List.pairwise_singleton _ _, fun m hm => (List.mem_singleton.mp hm).ge⟩
      · exact ⟨List.pairwise_cons.mpr ⟨hlow, hinc⟩,
          List.forall_mem_cons.mpr ⟨le_rfl, fun m hm => (Nat.le_succ n).trans (hlow m hm)⟩⟩
      · exact ⟨hinc, fun m hm => (Nat.le_succ n).trans (hlow m hm)⟩

lemma scanRegs_increasing (ps : List Word) (r : ℕ) : (scanRegs handled ps r).Pairwise (· < ·) := by
  induction ps generalizing r with
  | nil => exact List.Pairwise.nil
  | cons p ps ih =>
      obtain ⟨hinc, -⟩ := scanBits_increasing handled 32 p (r * 32)
      rw [scanRegs_cons]
      split_ifs
      · exact ih (r + 1)
      · exact hinc
      · refine List.pairwise_append.mpr ⟨hinc, ih (r + 1), fun k hk l hl => ?_⟩
        have hreg := ((mem_scanBits_reg p r k).mp hk).1.1
        have hlater := ((mem_scanRegs ps (r + 1) l).mp hl).1.1
        omega

/-- A list in which only the last line can have a handler. -/
lemma eq_filter_append_find? {lines : List ℕ} (h : lines.Pairwise fun l _ => handled l = false) :
    lines = lines.filter (fun m => !handled m) ++ (lines.find? handled).toList := by
  induction lines with
  | nil => rfl
  | cons m lines ih =>
      rw [List.pairwise_cons] at h
      cases hm : handled m with
      | false =>
          rw [List.filter_cons_of_pos (by simp [hm]), List.find?_cons_of_neg (by simp [hm]),
            List.cons_append, ← ih h.2]
      | true =>
          have hnil : lines = [] := List.eq_nil_iff_forall_not_mem.mpr fun l hl => by
            have hno := h.1 l hl
            rw [hm] at hno
            cases hno
          simp [hnil, hm]

/-- Line `s` is the lowest pending line with a handler. -/
def Served (handled : ℕ → Bool) (i : IrqInput) (s : ℕ) : Prop :=
  Pending i s ∧ handled s = true ∧ ∀ l < s, Pending i l → handled l = false

lemma Served.unique {i : IrqInput} {s s' : ℕ} (h : Served handled i s) (h' : Served handled i s') :
    s = s' := by
  rcases Nat.lt_trichotomy s s' with hlt | heq | hlt
  · exact absurd h.2.1 (by simp [h'.2.2 s hlt h.1])
  · exact heq
  · exact absurd h'.2.1 (by simp [h.2.2 s' hlt h'.1])

/-- Below a line with a handler there is a lowest one. -/
lemma exists_served {i : IrqInput} {l : ℕ} (hl : Pending i l) (hh : handled l = true) :
    ∃ s ≤ l, Served handled i s := by
  induction l using Nat.strong_induction_on with
  | _ l ih =>
      by_cases hlow : ∃ k < l, Pending i k ∧ handled k = true
      · obtain ⟨k, hk, hpend, hkh⟩ := hlow
        obtain ⟨s, hs, hserved⟩ := ih k hk hpend hkh
        exact ⟨s, hs.trans hk.le, hserved⟩
      · refine ⟨l, le_rfl, hl, hh, fun k hk hpend => Bool.eq_false_iff.mpr fun hkh => hlow ?_⟩
        exact ⟨k, hk, hpend, hkh⟩

/-- The lines called are the pending lines without a handler below the one that is served, and
that one. -/
lemma calledLines_split (handled : ℕ → Bool) (i : IrqInput) :
    ∃ passed served, calledLines handled i = passed ++ served.toList ∧
      passed.Pairwise (· < ·) ∧
      (∀ s, served = some s ↔ Served handled i s) ∧
      ∀ m, m ∈ passed ↔
        Pending i m ∧ handled m = false ∧ ∀ s, Served handled i s → m < s := by
  have hinc : (calledLines handled i).Pairwise (· < ·) := scanRegs_increasing (pending i) 0
  have honly : (calledLines handled i).Pairwise fun l _ => handled l = false := by
    refine hinc.imp_of_mem fun {l m} hl hm hlt => ?_
    exact ((mem_calledLines i m).mp hm).2 l hlt ((mem_calledLines i l).mp hl).1
  refine ⟨_, _, eq_filter_append_find? honly, hinc.sublist List.filter_sublist, fun s => ?_,
    fun m => ?_⟩
  · have hserved : ∀ {s}, (calledLines handled i).find? handled = some s →
        Served handled i s := by
      intro s hs
      obtain ⟨hpend, hlow⟩ := (mem_calledLines i s).mp (List.mem_of_find?_eq_some hs)
      exact ⟨hpend, List.find?_some hs, hlow⟩
    refine ⟨hserved, fun hs => ?_⟩
    have hmem := (mem_calledLines i s).mpr ⟨hs.1, hs.2.2⟩
    cases hfind : (calledLines handled i).find? handled with
    | none => exact absurd hs.2.1 (List.find?_eq_none.mp hfind s hmem)
    | some s' => rw [(hserved hfind).unique hs]
  · rw [List.mem_filter, mem_calledLines, Bool.not_eq_true', and_assoc]
    refine and_congr_right fun hpend => ?_
    constructor
    · rintro ⟨hlow, hm⟩
      refine ⟨hm, fun s hs => Nat.lt_of_not_le fun hle => ?_⟩
      have hsh := hs.2.1
      rcases Nat.lt_or_eq_of_le hle with hlt | rfl
      · rw [hlow s hlt hs.1] at hsh
        cases hsh
      · rw [hm] at hsh
        cases hsh
    · rintro ⟨hm, hbelow⟩
      refine ⟨fun l hl hlpend => Bool.eq_false_iff.mpr fun hlh => ?_, hm⟩
      obtain ⟨s, hsl, hs⟩ := exists_served hlpend hlh
      exact absurd (hbelow s hs) (by omega)

/-! ## The dispatch -/

/-- When `local_int_handler` returns `FALSE`, the dispatch reads the pending registers and does
what `call_irq_handler` does for the lines called. -/
lemma interruptHandler_eq {i : IrqInput} (hlocal : (localIpi i).isSome = false) :
    interruptHandler 32 t i = some ([.localInt, .read IRQ_PEND1, .read IRQ_PEND2,
      .read IRQ_BASIC_PEND] ++ (calledLines t.handled i).map (lineAction t)) := by
  rw [interruptHandler, hlocal]
  exact regLoop_eq (pending i) 0 _ fun m hm => pending_lt hm

/-- **The line that is served.**  For every content of the pending registers and every table of
handlers, the dispatch comes to an end without indexing the tables past their 72 entries.  If
`local_int_handler` returns `TRUE`, that is all it does.  If it returns `FALSE`, the dispatch
reads the three pending registers, disables the pending lines without a handler that are below
the lowest pending line with one, each by one write of its own bit to the register of its bank,
and calls the handler of that line, once and with its parameter.  When no pending line has a
handler it disables them all and calls nothing.  Messages are taken to return
(`Model/Kernel.lean`). -/
theorem interrupt_dispatch_serves_lowest (t : IrqTable) (i : IrqInput) :
    ∃ acts, interruptHandler 32 t i = some acts ∧ (∀ m, Pending i m → m < IRQ_LINES) ∧
      ((localIpi i).isSome = true → acts = [.localInt]) ∧
      ((localIpi i).isSome = false → ∃ (passed : List ℕ) (served : Option ℕ),
        acts = [.localInt, .read IRQ_PEND1, .read IRQ_PEND2, .read IRQ_BASIC_PEND]
          ++ passed.map disableLine ++ (served.toList).map (callLine t) ∧
        passed.Pairwise (· < ·) ∧
        (∀ s, served = some s ↔
          Pending i s ∧ t.handled s = true ∧ ∀ l < s, Pending i l → t.handled l = false) ∧
        ∀ m, m ∈ passed ↔
          Pending i m ∧ t.handled m = false ∧ ∀ s, served = some s → m < s) := by
  cases hlocal : (localIpi i).isSome with
  | true =>
      have hacts : interruptHandler 32 t i = some [.localInt] := by
        rw [interruptHandler, hlocal]
        rfl
      exact ⟨_, hacts, fun m => pending_lt, fun _ => rfl, fun h => Bool.noConfusion h⟩
  | false =>
      refine ⟨_, interruptHandler_eq hlocal, fun m => pending_lt, fun h => Bool.noConfusion h,
        fun _ => ?_⟩
      obtain ⟨passed, served, hsplit, hinc, hserved, hpassed⟩ := calledLines_split t.handled i
      refine ⟨passed, served, ?_, hinc, hserved, fun m => ?_⟩
      · have hdisabled : passed.map (lineAction t) = passed.map disableLine :=
          List.map_congr_left fun m hm => by
            rw [lineAction, ((hpassed m).mp hm).2.1, if_neg Bool.false_ne_true]
        have hcalled : served.toList.map (lineAction t) = served.toList.map (callLine t) :=
          List.map_congr_left fun s hs => by
            rw [lineAction, ((hserved s).mp (Option.mem_toList.mp hs)).2.1, if_pos rfl]
        rw [hsplit, List.map_append, hdisabled, hcalled, ← List.append_assoc]
      · rw [hpassed]
        simp only [hserved]

end Interrupt

end Rpi2Baremetal
