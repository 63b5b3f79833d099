import Rpi2Baremetal.Framework.Transition
import Rpi2Baremetal.Model.InterruptController
import Rpi2Baremetal.Properties.DispatchEffects

/-!
# The dispatch and the interrupt controller

A line that no handler clears stays pending, and the core takes the interrupt again as soon as it
returns.  `call_irq_handler` therefore disables it.  Over a run the enabled lines without a handler
are a potential: a dispatch that finds lines pending and calls no handler takes some of them away,
and only `enable_irq` adds one.
-/

namespace Rpi2Baremetal

open Framework

namespace Interrupt

variable {t : IrqTable} {enabled enabled' : ℕ → Word} {i : IrqInput} {line m : ℕ}

/-! ## Writes to one bit -/

/-- The enable bit of a line is set. -/
def Enabled (enabled : ℕ → Word) (line : ℕ) : Prop := (enabled (line / 32)).getLsbD (line % 32)

instance (enabled : ℕ → Word) (line : ℕ) : Decidable (Enabled enabled line) :=
  inferInstanceAs (Decidable (_ = true))

/-- The line whose bit `enable_irq` and `disable_irq` write: from 64 on, the basic bank. -/
def irqLine (nIrq : Word) : ℕ :=
  if nIrq.toNat < 64 then nIrq.toNat else 64 + nIrq.toNat % 32

lemma irqLine_mod (nIrq : Word) : irqLine nIrq % 32 = nIrq.toNat % 32 := by
  rw [irqLine]
  split_ifs <;> omega

lemma ARM_IRQ_MASK_eq (nIrq : Word) : ARM_IRQ_MASK nIrq = BitVec.twoPow 32 (irqLine nIrq % 32) := by
  have hand : (nIrq &&& (32 - 1)).toNat = irqLine nIrq % 32 := by
    rw [irqLine_mod, BitVec.toNat_and]
    exact Nat.and_two_pow_sub_one_eq_mod nIrq.toNat 5
  rw [ARM_IRQ_MASK, BitVec.shiftLeft_eq', hand]
  rfl

/-- The register that enables lines of a bank. -/
def enableRegister (bank : ℕ) : Word :=
  [ENABLE_IRQ1, ENABLE_IRQ2, ENABLE_BASIC_IRQ].getD bank 0

/-- Which bank the registers of a line belong to. -/
lemma irqs_registers (nIrq : Word) :
    ARM_IC_IRQS_ENABLE nIrq = enableRegister (irqLine nIrq / 32) ∧
      ARM_IC_IRQS_DISABLE nIrq = disableRegister (irqLine nIrq / 32) := by
  have h32 : nIrq < ARM_IRQ2_BASE ↔ nIrq.toNat < 32 := BitVec.lt_def
  have h64 : nIrq < ARM_IRQBASIC_BASE ↔ nIrq.toNat < 64 := BitVec.lt_def
  rw [ARM_IC_IRQS_ENABLE, ARM_IC_IRQS_DISABLE, irqLine]
  by_cases hlow : nIrq.toNat < 32
  · rw [if_pos (h32.mpr hlow), if_pos (h32.mpr hlow), if_pos (by omega),
      Nat.div_eq_of_lt hlow]
    exact ⟨rfl, rfl⟩
  · rw [if_neg (mt h32.mp hlow), if_neg (mt h32.mp hlow)]
    by_cases hmid : nIrq.toNat < 64
    · rw [if_pos (h64.mpr hmid), if_pos (h64.mpr hmid), if_pos hmid,
        show nIrq.toNat / 32 = 1 by omega]
      exact ⟨rfl, rfl⟩
    · rw [if_neg (mt h64.mp hmid), if_neg (mt h64.mp hmid), if_neg hmid,
        show (64 + nIrq.toNat % 32) / 32 = 2 by omega]
      exact ⟨rfl, rfl⟩

lemma irqLine_bank (nIrq : Word) : irqLine nIrq / 32 < 3 := by
  rw [irqLine]
  split_ifs <;> omega

lemma div_lt_of_lt_lines (h : line < IRQ_LINES) : line / 32 < 3 := by
  have hlt : line < 72 := h
  omega

/-- Writing the bit of a line to the `ENABLE` register of its bank. -/
lemma enabled_writeIc_enable (hline : line / 32 < 3) (hm : m / 32 < 3) :
    Enabled (writeIc enabled (enableRegister (line / 32)) (BitVec.twoPow 32 (line % 32))) m ↔
      Enabled enabled m ∨ m = line := by
  have hreg : ∀ b < 3, ∀ b' < 3, (enableRegister b = enableRegister b' ↔ b' = b) := by decide
  have hdis : ∀ b < 3, ∀ b' < 3, enableRegister b ≠ disableRegister b' := by decide
  have hlt : m % 32 < 32 := Nat.mod_lt m (by decide)
  rw [Enabled, writeIc, Enabled]
  change (if enableRegister _ = enableRegister _ then _ else
    if enableRegister _ = disableRegister _ then _ else _ : Word).getLsbD _ = true ↔ _
  rw [if_neg (hdis _ hline _ hm)]
  by_cases hbank : m / 32 = line / 32
  · rw [if_pos ((hreg _ hline _ hm).mpr hbank), BitVec.getLsbD_or, BitVec.getLsbD_twoPow,
      Bool.or_eq_true]
    refine or_congr_right ?_
    simp only [Bool.and_eq_true, decide_eq_true_eq]
    omega
  · rw [if_neg (mt (hreg _ hline _ hm).mp hbank)]
    exact ⟨.inl, fun h => h.resolve_right fun heq => hbank (heq ▸ rfl)⟩

/-- Writing the bit of a line to the `DISABLE` register of its bank. -/
lemma enabled_writeIc_disable (hline : line / 32 < 3) (hm : m / 32 < 3) :
    Enabled (writeIc enabled (disableRegister (line / 32)) (BitVec.twoPow 32 (line % 32))) m ↔
      Enabled enabled m ∧ m ≠ line := by
  have hreg : ∀ b < 3, ∀ b' < 3, (disableRegister b = disableRegister b' ↔ b' = b) := by decide
  have hen : ∀ b < 3, ∀ b' < 3, disableRegister b ≠ enableRegister b' := by decide
  have hlt : m % 32 < 32 := Nat.mod_lt m (by decide)
  rw [Enabled, writeIc, Enabled]
  change (if disableRegister _ = enableRegister _ then _ else
    if disableRegister _ = disableRegister _ then _ else _ : Word).getLsbD _ = true ↔ _
  rw [if_neg (hen _ hline _ hm)]
  by_cases hbank : m / 32 = line / 32
  · rw [if_pos ((hreg _ hline _ hm).mpr hbank), BitVec.getLsbD_and, BitVec.getLsbD_not,
      BitVec.getLsbD_twoPow, Bool.and_eq_true]
    refine and_congr_right fun _ => ?_
    simp only [hlt, decide_true, Bool.true_and, Bool.not_eq_true', Bool.and_eq_false_iff,
      decide_eq_false_iff_not]
    omega
  · rw [if_neg (mt (hreg _ hline _ hm).mp hbank)]
    exact ⟨fun h => ⟨h, fun heq => hbank (heq ▸ rfl)⟩, And.left⟩

/-! ## A dispatch -/

/-- The enable bits after a dispatch: the lines it has passed are disabled. -/
lemma enabled_foldl_apply {passed : List ℕ} (hpassed : ∀ l ∈ passed, l < IRQ_LINES)
    (hm : m < IRQ_LINES) :
    Enabled ((passed.map disableLine).foldl Action.apply enabled) m ↔
      Enabled enabled m ∧ m ∉ passed := by
  induction passed generalizing enabled with
  | nil => simp
  | cons l passed ih =>
      obtain ⟨hl, hrest⟩ := List.forall_mem_cons.mp hpassed
      have hwrite : Enabled (Action.apply enabled (disableLine l)) m ↔ Enabled enabled m ∧ m ≠ l :=
        enabled_writeIc_disable (div_lt_of_lt_lines hl) (div_lt_of_lt_lines hm)
      rw [List.map_cons, List.foldl_cons, ih hrest, hwrite, List.mem_cons, not_or, and_assoc]

/-- A line is shown as pending only when it is enabled. -/
lemma enabled_of_pending (hshows : Shows enabled i) (h : Pending i m) : Enabled enabled m := by
  have hm := div_lt_of_lt_lines (pending_lt h)
  have hbit : ((pending i).getD (m / 32) 0).getLsbD (m % 32) = true := h.2
  have hlt : m % 32 < 32 := Nat.mod_lt m (by decide)
  have hzero : ((pending i).getD (m / 32) 0 &&& ~~~enabled (m / 32)).getLsbD (m % 32) = false := by
    rw [hshows _ hm]
    exact BitVec.getLsbD_zero
  rw [BitVec.getLsbD_and, hbit, Bool.true_and, BitVec.getLsbD_not, decide_eq_true hlt,
    Bool.true_and, Bool.not_eq_false'] at hzero
  exact hzero

/-- A dispatch disables pending lines without a handler, and if no other line is pending, it
disables them all. -/
lemma icStep_dispatch (h : icStep t enabled (.dispatch i) = some enabled') :
    Shows enabled i ∧ ∃ passed : List ℕ,
      (∀ l, l < IRQ_LINES → (Enabled enabled' l ↔ Enabled enabled l ∧ l ∉ passed)) ∧
      (∀ l ∈ passed, Pending i l ∧ t.handled l = false) ∧
      (localIpi i = none → (∀ l, Pending i l → t.handled l = false) →
        ∀ l, Pending i l → l ∈ passed) := by
  obtain ⟨hshows, h⟩ := Option.ite_none_right_eq_some.mp h
  refine ⟨hshows, ?_⟩
  cases hlocal : localIpi i with
  | some nIpi =>
      have hacts : interruptHandler 32 t i = some [.localInt] := by
        rw [interruptHandler, hlocal]
        rfl
      rw [hacts] at h
      obtain rfl := Option.some.inj h
      exact ⟨[], by simp [Action.apply], by simp, fun hnone => by cases hnone⟩
  | none =>
      have hacts := interruptHandler_eq (t := t) (i := i) (by rw [hlocal]; rfl)
      obtain ⟨passed, served, hcalled, -, hserved, hpassed⟩ := calledLines_split t.handled i
      have hstray : ∀ l ∈ passed, Pending i l ∧ t.handled l = false := fun l hl =>
        ⟨((hpassed l).mp hl).1, ((hpassed l).mp hl).2.1⟩
      have hdisabled : passed.map (lineAction t) = passed.map disableLine :=
        List.map_congr_left fun l hl => by
          rw [lineAction, (hstray l hl).2, if_neg Bool.false_ne_true]
      rw [hacts, hcalled, List.map_append, hdisabled, Option.map_some, List.foldl_append,
        List.foldl_append] at h
      obtain rfl := Option.some.inj h
      refine ⟨passed, fun l hl => ?_, hstray, fun _ hnone l hl => (hpassed l).mpr ⟨hl, hnone l hl,
        fun s hs => ?_⟩⟩
      · have hlines : ∀ k ∈ passed, k < IRQ_LINES := fun k hk => pending_lt (hstray k hk).1
        rw [← enabled_foldl_apply hlines hl]
        cases hs : served with
        | none => rfl
        | some s =>
            have hcall : lineAction t s = callLine t s := by
              rw [lineAction, ((hserved s).mp hs).2.1, if_pos rfl]
            simp only [Option.toList_some, List.map_cons, List.map_nil, List.foldl_cons,
              List.foldl_nil, hcall]
            rfl
      · have hyes := hs.2.1
        rw [hnone s hs.1] at hyes
        cases hyes

/-! ## Whole runs -/

/-- The enabled lines without a handler. -/
def strayLines (t : IrqTable) (enabled : ℕ → Word) : Finset ℕ :=
  (Finset.range IRQ_LINES).filter fun l => Enabled enabled l ∧ t.handled l = false

lemma mem_strayLines {l : ℕ} :
    l ∈ strayLines t enabled ↔ l < IRQ_LINES ∧ Enabled enabled l ∧ t.handled l = false := by
  rw [strayLines, Finset.mem_filter, Finset.mem_range]

instance (i : IrqInput) (l : ℕ) : Decidable (Pending i l) :=
  inferInstanceAs (Decidable (_ ≤ _ ∧ _ = true))

/-- The dispatch has no IPI to serve and finds lines pending, none of which has a handler. -/
def Unserved (t : IrqTable) (i : IrqInput) : Prop :=
  localIpi i = none ∧ (∃ l < IRQ_LINES, Pending i l) ∧
    ∀ l < IRQ_LINES, Pending i l → t.handled l = false

instance (t : IrqTable) (i : IrqInput) : Decidable (Unserved t i) :=
  inferInstanceAs (Decidable (_ ∧ _ ∧ _))

/-- The dispatches of a run that find lines pending and call nothing. -/
def IcAct.unserved (t : IrqTable) : IcAct → Bool
  | .dispatch i => decide (Unserved t i)
  | _ => false

def IcAct.isEnable : IcAct → Bool
  | .enableIrq _ => true
  | _ => false

lemma icStep_strayLines {act : IcAct} (h : icStep t enabled act = some enabled') :
    [act].countP (IcAct.unserved t) + (strayLines t enabled').card ≤
      (strayLines t enabled).card + 1 * [act].countP IcAct.isEnable := by
  cases act with
  | enableIrq nIrq =>
      obtain rfl := Option.some.inj h
      have hsub : strayLines t
          (writeIc enabled (ARM_IC_IRQS_ENABLE nIrq) (ARM_IRQ_MASK nIrq)) ⊆
          insert (irqLine nIrq) (strayLines t enabled) := by
        intro l hl
        obtain ⟨hlt, hen, hno⟩ := mem_strayLines.mp hl
        rw [(irqs_registers nIrq).1, ARM_IRQ_MASK_eq,
          enabled_writeIc_enable (irqLine_bank nIrq) (div_lt_of_lt_lines hlt)] at hen
        rw [Finset.mem_insert, mem_strayLines]
        exact hen.elim (fun hen => .inr ⟨hlt, hen, hno⟩) .inl
      have hcard := (Finset.card_le_card hsub).trans (Finset.card_insert_le ..)
      simpa [IcAct.unserved, IcAct.isEnable] using hcard
  | disableIrq nIrq =>
      obtain rfl := Option.some.inj h
      have hsub : strayLines t ((disableIrq nIrq []).foldl Action.apply enabled) ⊆
          strayLines t enabled := by
        intro l hl
        obtain ⟨hlt, hen, hno⟩ := mem_strayLines.mp hl
        rw [disableIrq, (irqs_registers nIrq).2, ARM_IRQ_MASK_eq] at hen
        have hboth := (enabled_writeIc_disable (irqLine_bank nIrq) (div_lt_of_lt_lines hlt)).mp hen
        exact mem_strayLines.mpr ⟨hlt, hboth.1, hno⟩
      simpa [IcAct.unserved, IcAct.isEnable] using Finset.card_le_card hsub
  | dispatch i =>
      obtain ⟨hshows, passed, hen, hpassed, hall⟩ := icStep_dispatch h
      have hsub : strayLines t enabled' ⊆ strayLines t enabled := fun l hl => by
        obtain ⟨hlt, hl, hno⟩ := mem_strayLines.mp hl
        exact mem_strayLines.mpr ⟨hlt, ((hen l hlt).mp hl).1, hno⟩
      by_cases hun : Unserved t i
      · have hone : [IcAct.dispatch i].countP (IcAct.unserved t) = 1 := by
          simp [IcAct.unserved, hun]
        obtain ⟨hlocal, ⟨l, hlt, hl⟩, hnone⟩ := hun
        have hmem := hall hlocal (fun l hl => hnone l (pending_lt hl) hl) l hl
        have hless := Finset.card_lt_card (Finset.ssubset_iff_subset_ne.mpr ⟨hsub, fun heq => by
          have hstill := heq.symm ▸ mem_strayLines.mpr
            ⟨hlt, enabled_of_pending hshows hl, hnone l hlt hl⟩
          exact ((hen l hlt).mp (mem_strayLines.mp hstill).2.1).2 hmem⟩)
        rw [hone]
        omega
      · simpa [IcAct.unserved, IcAct.isEnable, hun] using Finset.card_le_card hsub

/-- Only `disable_irq` disables a line with a handler. -/
lemma icStep_enabled {act : IcAct} (h : icStep t enabled act = some enabled')
    (hm : m < IRQ_LINES) (hhandled : t.handled m = true) (hen : Enabled enabled m)
    (hact : ∀ nIrq, act = .disableIrq nIrq → irqLine nIrq ≠ m) : Enabled enabled' m := by
  have hbank := div_lt_of_lt_lines hm
  cases act with
  | enableIrq nIrq =>
      obtain rfl := Option.some.inj h
      rw [(irqs_registers nIrq).1, ARM_IRQ_MASK_eq,
        enabled_writeIc_enable (irqLine_bank nIrq) hbank]
      exact .inl hen
  | disableIrq nIrq =>
      obtain rfl := Option.some.inj h
      rw [disableIrq, (irqs_registers nIrq).2, ARM_IRQ_MASK_eq]
      exact (enabled_writeIc_disable (irqLine_bank nIrq) hbank).mpr ⟨hen, (hact nIrq rfl).symm⟩
  | dispatch i =>
      obtain ⟨-, passed, hpassed, hstray, -⟩ := icStep_dispatch h
      refine (hpassed m hm).mpr ⟨hen, fun hmem => ?_⟩
      rw [(hstray m hmem).2] at hhandled
      cases hhandled

/-- **No interrupt storm.**  For every table of handlers, every behaviour of the devices and every
order of dispatches and calls of `enable_irq` and `disable_irq`: the dispatches that find lines
pending and call nothing number no more than the enabled lines without a handler at the start and
the calls of `enable_irq`, and a line with a handler that is enabled and that nobody disables by
`disable_irq` stays enabled. -/
theorem interrupt_storm_bounded {labels : List IcAct}
    (hr : Run (fun e a e' => icStep t e a = some e') enabled labels enabled') :
    labels.countP (IcAct.unserved t) + (strayLines t enabled').card ≤
        (strayLines t enabled).card + labels.countP IcAct.isEnable ∧
      ∀ m < IRQ_LINES, t.handled m = true → Enabled enabled m →
        (∀ nIrq, .disableIrq nIrq ∈ labels → irqLine nIrq ≠ m) → Enabled enabled' m := by
  constructor
  · have hbound := hr.potential (fun _ => True) (fun e => (strayLines t e).card)
      (IcAct.unserved t) IcAct.isEnable 1 (fun e act e' _ hs => ⟨trivial, icStep_strayLines hs⟩)
      trivial
    rwa [Nat.one_mul] at hbound
  · intro m hm hhandled hen hnot
    refine hr.history_invariant
      (I := fun labels e => (∀ nIrq, .disableIrq nIrq ∈ labels → irqLine nIrq ≠ m) → Enabled e m)
      (fun labels e act e' hI hs hnot => ?_) (fun _ => hen) hnot
    refine icStep_enabled hs hm hhandled (hI fun nIrq hmem => hnot nIrq ?_) fun nIrq hact =>
      hnot nIrq ?_
    · exact List.mem_append_left _ hmem
    · exact List.mem_append_right _ (List.mem_singleton.mpr hact.symm)

def auxTable : IrqTable := initIrqHandler 0x8000

/-- Line 0 is pending at the first interrupt, line 29 at the next. -/
def strayThenAux : List IcAct := [.dispatch ⟨0, 0, 1, 0, 0⟩, .dispatch ⟨0, 0, 1 <<< 29, 0, 0⟩]

set_option maxRecDepth 4000 in
/-- All lines are enabled at the start. -/
theorem interrupt_storm_bounded_aux : ∃ enabled' : ℕ → Word,
    strayThenAux.foldlM (icStep auxTable) (fun _ => BitVec.allOnes 32) = some enabled' ∧
    1 + (strayLines auxTable enabled').card ≤ 71 ∧ Enabled enabled' 29 := by
  have hsome : (strayThenAux.foldlM (icStep auxTable) fun _ => BitVec.allOnes 32).isSome := by
    decide
  obtain ⟨enabled', hrun⟩ := Option.isSome_iff_exists.mp hsome
  obtain ⟨hbound, hkept⟩ := interrupt_storm_bounded (Run.of_foldlM hrun)
  have hcard : (strayLines auxTable fun _ => BitVec.allOnes 32).card = 71 := by decide
  have hcount : strayThenAux.countP (IcAct.unserved auxTable) = 1 := by decide
  have hnone : strayThenAux.countP IcAct.isEnable = 0 := by decide
  rw [hcard, hcount, hnone] at hbound
  exact ⟨enabled', hrun, hbound,
    hkept 29 (by decide) (by decide) (by decide) (by simp [strayThenAux])⟩

end Interrupt

end Rpi2Baremetal
