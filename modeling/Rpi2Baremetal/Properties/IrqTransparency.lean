import Rpi2Baremetal.Model.Irq
import Rpi2Baremetal.Properties.ExceptionFrames

/-!
# When an interrupt is transparent

`_irq` unmasks IRQs one instruction before its exception return.  An IRQ accepted there
overwrites `SPSR_irq`, so that the outer return resumes the interrupted code in IRQ mode.
Without one the return is exact: the frame on the IRQ stack holds `r0` to `r12` and the
interrupted address, and everything else is banked.
-/

namespace Rpi2Baremetal

namespace Arm

open Framework

/-! ## One activation of `_irq` -/

lemma atIrq_unique {irq : Word} {s : Machine} {i : Instr} (h : AtIrq irq s i) {k : ℕ}
    (hk : k < 5) (hpc : s.pc = irq + .ofNat 32 (4 * k)) : irqCode[k]? = some i := by
  obtain ⟨j, hj, hpc'⟩ := h
  have hj5 : j < 5 := (List.getElem?_eq_some_iff.mp hj).1
  have hoff := (BitVec.add_right_inj irq).mp (hpc.symm.trans hpc')
  have := congrArg BitVec.toNat hoff
  simp only [BitVec.toNat_ofNat] at this
  obtain rfl : k = j := by omega
  exact hj

/-- The words `_irq` saves: the general registers and the interrupted address. -/
def savedFrame (s : Machine) : List Word := allRegs.map s.r ++ [s.pc]

/-- The machine is before instruction `k` of the activation of `_irq` that interrupted `s`,
and no further IRQ has been accepted. -/
structure Inside (irq : Word) (s t : Machine) (k : ℕ) : Prop where
  pc : t.pc = irq + .ofNat 32 (4 * k)
  mode : t.cpsr.mode = .irq
  spsr : t.spsr .irq = s.cpsr
  sp_other : ∀ b, b ≠ .irq → t.bankedSp b = s.bankedSp b
  lr_usr : t.bankedLr .usr = s.bankedLr .usr
  lr_svc : t.bankedLr .svc = s.bankedLr .svc
  unsaved : k < 2 → t.r = s.r ∧ t.bankedSp .irq = s.bankedSp .irq ∧
    t.bankedLr .irq = if k = 0 then s.pc + 4 else s.pc
  saved : 2 ≤ k → t.bankedSp .irq = s.bankedSp .irq - frameSize allRegs ∧
    loadWords t.mem (t.bankedSp .irq) 14 = savedFrame s

variable {irq : Word} {s t t' : Machine} {H : Machine → Machine → Prop}

lemma inside_takeIrq (irq : Word) (s : Machine) : Inside irq s (s.takeIrq irq) 0 where
  pc := by simp [Machine.takeIrq]
  mode := rfl
  spsr := by simp [Machine.takeIrq]
  sp_other _ _ := rfl
  lr_usr := by simp [Machine.takeIrq]
  lr_svc := by simp [Machine.takeIrq]
  unsaved _ := ⟨rfl, rfl, by simp [Machine.takeIrq]⟩
  saved h := absurd h (by decide)

lemma Inside.sp_eq {k : ℕ} (h : Inside irq s t k) : t.sp = t.bankedSp .irq :=
  sp_of_mode h.mode rfl

lemma Inside.lr_eq {k : ℕ} (h : Inside irq s t k) : t.lr = t.bankedLr .irq := by
  rw [Machine.lr, h.mode, Mode.bank_irq]

lemma Inside.next_pc {k : ℕ} (h : Inside irq s t k) :
    t.pc + 4 = irq + .ofNat 32 (4 * (k + 1)) := by
  rw [h.pc, BitVec.add_assoc, Nat.mul_succ, BitVec.ofNat_add]
  rfl

/-- `sub lr, lr, #4` -/
lemma Inside.subLr (h : Inside irq s t 0) : Inside irq s (t.exec (.subLr 4)) 1 := by
  obtain ⟨hr, hsp, hlr⟩ := h.unsaved (by decide)
  constructor
  · exact h.next_pc
  · exact h.mode
  · exact h.spsr
  · exact h.sp_other
  · simpa [Machine.exec, Machine.setLr, Machine.next, h.mode] using h.lr_usr
  · simpa [Machine.exec, Machine.setLr, Machine.next, h.mode] using h.lr_svc
  · intro _
    have hsub : (t.exec (.subLr 4)).bankedLr .irq = t.lr - 4 := by
      simp [Machine.exec, Machine.setLr, Machine.next, h.mode]
    refine ⟨hr, hsp, ?_⟩
    rw [hsub, h.lr_eq, hlr, if_pos rfl, if_neg Nat.one_ne_zero]
    exact BitVec.add_sub_cancel _ _
  · intro h2
    exact absurd h2 (by decide)

/-- `stmfd sp!, {r0-r12, lr}` -/
lemma Inside.stmfd (h : Inside irq s t 1) : Inside irq s (t.exec (.stmfd allRegs)) 2 := by
  obtain ⟨hr, hsp, hlr⟩ := h.unsaved (by decide)
  have hsp' : (t.exec (.stmfd allRegs)).bankedSp .irq = t.bankedSp .irq - frameSize allRegs := by
    simp [Machine.exec, Machine.setSp, Machine.next, h.mode, h.sp_eq]
  have hmem : (t.exec (.stmfd allRegs)).mem
      = storeWords t.mem (t.bankedSp .irq - frameSize allRegs) (savedFrame s) := by
    simp [Machine.exec, Machine.next, h.sp_eq, h.lr_eq, hr, hlr, savedFrame]
  constructor
  · exact h.next_pc
  · exact h.mode
  · exact h.spsr
  · intro b hb
    simpa [Machine.exec, Machine.setSp, Machine.next, h.mode, hb]
      using h.sp_other b hb
  · exact h.lr_usr
  · exact h.lr_svc
  · intro h2
    exact absurd h2 (by decide)
  · intro _
    refine ⟨hsp'.trans (by rw [hsp]), ?_⟩
    rw [hsp', hmem]
    exact loadWords_storeWords _ _ (savedFrame s) (by simp [savedFrame, allRegs])

/-- `bl interrupt_handler` -/
lemma Inside.call (hH : HandlerObeys H) (h : Inside irq s t 2) (hc : H (t.exec .bl) t') :
    Inside irq s t' 3 := by
  obtain ⟨hsp, hframe⟩ := h.saved le_rfl
  obtain ⟨hret, -⟩ := hH _ _ hc
  have hmode : (t.exec .bl).cpsr.mode = .irq := h.mode
  obtain ⟨hmode', hspsr, hsame⟩ := hret.kept hmode rfl
  have hother : ∀ b, b ≠ .irq → (t.exec .bl).bankedLr b = t.bankedLr b := by
    intro b hb
    simp [Machine.exec, Machine.setLr, h.mode, hb]
  constructor
  · rw [hret.pc, ← h.next_pc, Machine.lr, hmode]
    simp [Machine.exec, Machine.setLr, h.mode]
  · exact hmode'
  · exact hspsr.trans h.spsr
  · intro b hb
    rw [hret.sp]
    exact h.sp_other b hb
  · rw [hret.lr_usr, hother _ (by decide), h.lr_usr]
  · rw [hret.lr_svc, hother _ (by decide), h.lr_svc]
  · intro h2
    exact absurd h2 (by decide)
  · intro _
    refine ⟨?_, hsame.trans hframe⟩
    rw [hret.sp]
    exact hsp

/-- `cpsie i` -/
lemma Inside.cpsieI (h : Inside irq s t 3) : Inside irq s (t.exec .cpsieI) 4 where
  pc := h.next_pc
  mode := h.mode
  spsr := h.spsr
  sp_other := h.sp_other
  lr_usr := h.lr_usr
  lr_svc := h.lr_svc
  unsaved h2 := absurd h2 (by decide)
  saved _ := h.saved (by decide)

/-- `ldmfd sp!, {r0-r12, pc}^` -/
lemma Inside.ldmfdPc (h : Inside irq s t 4) (hm : s.cpsr.mode = .svc ∨ s.cpsr.mode = .usr) :
    Transparent s (t.exec (.ldmfdPc allRegs)) := by
  obtain ⟨hsp, hframe⟩ := h.saved (by decide)
  have hup : t.bankedSp .irq + frameSize allRegs = s.bankedSp .irq := by
    rw [hsp, BitVec.sub_add_cancel]
  have hload : loadWords t.mem (t.bankedSp .irq) (allRegs.length + 1)
      = allRegs.map s.r ++ [s.pc] := hframe
  rw [exec_ldmfdPc h.mode rfl hload hup h.sp_other]
  constructor
  · rfl
  · exact h.spsr
  · funext k
    exact if_pos (List.mem_finRange k)
  · rw [Machine.sp, h.spsr, Machine.sp]
  · rw [Machine.lr, h.spsr, Machine.lr]
    rcases hm with hm | hm
    · rw [hm]
      exact h.lr_svc
    · rw [hm]
      exact h.lr_usr
  · rfl

/-! ## Runs without a nested interrupt -/

/-- The interrupt of `s` is still in its only activation of `_irq`, or has returned. -/
inductive Undisturbed (irq : Word) (s : Machine) : IrqState → Prop
  | inside {t : Machine} {k : ℕ} : k < 5 → Inside irq s t k → Undisturbed irq s ⟨t, 1⟩
  | returned {t : Machine} : Transparent s t → Undisturbed irq s ⟨t, 0⟩

lemma Undisturbed.step (hH : HandlerObeys H) (hm : s.cpsr.mode = .svc ∨ s.cpsr.mode = .usr)
    {a b : IrqState} {e : IrqEvent} (h : Undisturbed irq s a) (he : e ≠ .irq)
    (hstep : IrqStep irq H a e b) : Undisturbed irq s b := by
  cases hstep with
  | accept => exact absurd rfl he
  | plain hat hbl hret =>
      cases h with
      | @inside _ k hk hin =>
          have hi := atIrq_unique hat hk hin.pc
          match k, hk, hin, hi with
          | 0, _, hin, hi =>
              obtain rfl := Option.some.inj hi
              exact .inside (by decide) hin.subLr
          | 1, _, hin, hi =>
              obtain rfl := Option.some.inj hi
              exact .inside (by decide) hin.stmfd
          | 2, _, hin, hi => exact absurd (Option.some.inj hi).symm hbl
          | 3, _, hin, hi =>
              obtain rfl := Option.some.inj hi
              exact .inside (by decide) hin.cpsieI
          | 4, _, hin, hi => exact absurd (Option.some.inj hi).symm (hret _)
  | call hat hc =>
      cases h with
      | @inside _ k hk hin =>
          have hi := atIrq_unique hat hk hin.pc
          match k, hk, hin, hi with
          | 2, _, hin, hi => exact .inside (by decide) (hin.call hH hc)
          | 0, _, _, hi | 1, _, _, hi | 3, _, _, hi | 4, _, _, hi => simp [irqCode] at hi
  | ret hat =>
      cases h with
      | @inside _ k hk hin =>
          have hi := atIrq_unique hat hk hin.pc
          match k, hk, hin, hi with
          | 4, _, hin, hi =>
              obtain rfl : allRegs = _ := by simpa [irqCode] using hi
              exact .returned (hin.ldmfdPc hm)
          | 0, _, _, hi | 1, _, _, hi | 2, _, _, hi | 3, _, _, hi => simp [irqCode] at hi

/-! ## Runs with one -/

/-- Once an IRQ has been accepted inside `_irq`, the saved status is that of IRQ mode. -/
structure Nested (es : List IrqEvent) (t : IrqState) : Prop where
  mode : t.depth ≠ 0 → t.m.cpsr.mode = .irq
  first : .irq ∉ es → t.depth ≤ 1
  spsr : .irq ∈ es → t.m.cpsr.mode = .irq ∧ (t.m.spsr .irq).mode = .irq

/-- The instructions of `_irq` other than its exception return keep mode and saved status. -/
lemma exec_psr (t : Machine) {i : Instr} (hret : ∀ rs, i ≠ .ldmfdPc rs) :
    (t.exec i).cpsr.mode = t.cpsr.mode ∧ (t.exec i).spsr = t.spsr := by
  cases i with
  | ldmfdPc rs => exact absurd rfl (hret rs)
  | _ => exact ⟨rfl, rfl⟩

lemma Nested.step (hH : HandlerObeys H) {es : List IrqEvent} {a b : IrqState} {e : IrqEvent}
    (h : Nested es a) (hstep : IrqStep irq H a e b) : Nested (es ++ [e]) b := by
  have hmode := h.mode
  -- a step that is no exception keeps the depth and the two modes
  have keep : ∀ {t t' : Machine} {d : ℕ}, a = ⟨t, d + 1⟩ → t'.cpsr.mode = t.cpsr.mode →
      (t'.spsr .irq).mode = (t.spsr .irq).mode → Nested (es ++ [.instr]) ⟨t', d + 1⟩ := by
    rintro t t' d rfl hc hs
    refine ⟨fun _ => hc.trans (hmode (by simp)), fun hn => h.first fun hes => hn ?_, ?_⟩
    · exact List.mem_append_left _ hes
    · intro hes
      obtain ⟨h1, h2⟩ := h.spsr (by simpa using hes)
      exact ⟨hc.trans h1, hs.trans h2⟩
  cases hstep with
  | accept =>
      refine ⟨fun _ => rfl, fun hn => absurd (by simp) hn, fun _ => ⟨rfl, ?_⟩⟩
      simpa [Machine.takeIrq] using hmode
  | plain _ _ hret =>
      obtain ⟨hc, hs⟩ := exec_psr _ hret
      exact keep rfl hc (by rw [hs])
  | call _ hc =>
      obtain ⟨hret, -⟩ := hH _ _ hc
      have hs := hret.spsr
      refine keep rfl hret.mode ?_
      rw [show (Machine.exec _ .bl).cpsr.mode = .irq from hmode (by simp)] at hs
      rw [hs]
      rfl
  | @ret t d rs _ =>
      have hirq : t.cpsr.mode = .irq := hmode (by simp)
      have hc : (t.exec (.ldmfdPc rs)).cpsr = t.spsr .irq := by simp [Machine.exec, hirq]
      refine ⟨fun hd => ?_, fun hn => ?_, fun hes => ?_⟩
      · by_cases hes : .irq ∈ es
        · rw [hc]
          exact (h.spsr hes).2
        · exact absurd (Nat.le_of_succ_le_succ (h.first hes)) (by simpa using hd)
      · have := h.first fun hes => hn (List.mem_append_left _ hes)
        exact Nat.le_of_succ_le this
      · obtain ⟨-, h2⟩ := h.spsr (by simpa using hes)
        refine ⟨by rw [hc]; exact h2, ?_⟩
        simpa [Machine.exec, Machine.setSp] using h2

/-- **IRQ transparency.**  Over every run from the acceptance of an IRQ in SVC or USR mode to
the return of its `_irq`, whatever further IRQs are accepted: the interrupted code resumes as
it was if and only if no further IRQ was accepted, that is, none between `cpsie i` and the
exception return. -/
theorem irq_transparent_iff {irq : Word} {H : Machine → Machine → Prop} {s : Machine}
    {es : List IrqEvent} {t : IrqState} (hH : HandlerObeys H)
    (hm : s.cpsr.mode = .svc ∨ s.cpsr.mode = .usr)
    (hrun : Run (IrqStep irq H) ⟨s.takeIrq irq, 1⟩ es t) (hret : t.depth = 0) :
    Transparent s t.m ↔ .irq ∉ es := by
  constructor
  · intro ht hes
    have h0 : Nested [] ⟨s.takeIrq irq, 1⟩ :=
      ⟨fun _ => rfl, fun _ => le_rfl, fun h => absurd h (List.not_mem_nil)⟩
    have hn := hrun.history_invariant (I := Nested) (fun _ _ _ _ h => h.step hH) h0
    have hirq := (hn.spsr hes).1
    rw [ht.cpsr] at hirq
    rcases hm with hm | hm <;> exact absurd (hm.symm.trans hirq) (by decide)
  · intro hes
    have h0 : Undisturbed irq s ⟨s.takeIrq irq, 1⟩ :=
      .inside (by decide) (inside_takeIrq irq s)
    have hg := hrun.guarded_of_forall (P := (· ≠ .irq)) fun e he h => hes (h ▸ he)
    have hu := hg.guarded_invariant (fun _ _ _ h he hs => h.step hH hm he hs) h0
    cases hu with
    | inside => exact absurd hret Nat.one_ne_zero
    | returned h => exact h

/-! ## An interrupt at the wrong moment -/

/-- Kernel code in SVC mode with IRQs enabled. -/
def kernelCode : Machine where
  r k := .ofNat 32 k
  bankedSp := fun
    | .irq => 0x180000
    | .svc => 0x1FFFFC
    | _ => 0x1C0000
  bankedLr _ := 0x8A58
  spsr _ := ⟨.usr, false, 0⟩
  cpsr := ⟨.svc, false, 0x60000000⟩
  pc := 0x9000
  mem _ := 0

/-- An `interrupt_handler` that returns at once. -/
def returnAtOnce (s s' : Machine) : Prop :=
  s' = { s with pc := s.lr, cpsr := { s.cpsr with irqMasked := true } }

lemma returnAtOnce_obeys : HandlerObeys returnAtOnce := by
  rintro s _ rfl
  exact ⟨⟨rfl, rfl, fun _ _ _ => rfl, rfl, rfl, rfl, rfl, rfl⟩, rfl⟩

/-- A single interrupt of the kernel code is transparent. -/
theorem irq_transparent_single :
    ∃ t, Run (IrqStep 0x8184 returnAtOnce) ⟨kernelCode.takeIrq 0x8184, 1⟩
      [.instr, .instr, .instr, .instr, .instr] t ∧ Transparent kernelCode t.m := by
  have h0 : Run (IrqStep 0x8184 returnAtOnce) ⟨kernelCode.takeIrq 0x8184, 1⟩ [] _ := .nil _
  have h1 := h0.snoc (.plain ⟨0, rfl, rfl⟩ nofun nofun)
  have h2 := h1.snoc (.plain ⟨1, rfl, rfl⟩ nofun nofun)
  have h3 := h2.snoc (.call ⟨2, rfl, rfl⟩ rfl)
  have h4 := h3.snoc (.plain ⟨3, rfl, rfl⟩ nofun nofun)
  have h5 := h4.snoc (.ret ⟨4, rfl, rfl⟩)
  exact ⟨_, h5, (irq_transparent_iff returnAtOnce_obeys (.inl rfl) h5 rfl).mpr (by decide)⟩

/-- With a second IRQ accepted after `cpsie i` the kernel code resumes in IRQ mode. -/
theorem irq_not_transparent_nested :
    ¬ ∀ (irq : Word) (H : Machine → Machine → Prop) (s : Machine) (es : List IrqEvent)
      (t : IrqState), HandlerObeys H → s.cpsr.irqMasked = false →
      (s.cpsr.mode = .svc ∨ s.cpsr.mode = .usr) →
      Run (IrqStep irq H) ⟨s.takeIrq irq, 1⟩ es t → t.depth = 0 → Transparent s t.m := by
  intro hclaim
  have h0 : Run (IrqStep 0x8184 returnAtOnce) ⟨kernelCode.takeIrq 0x8184, 1⟩ [] _ := .nil _
  have h1 := h0.snoc (.plain ⟨0, rfl, rfl⟩ nofun nofun)
  have h2 := h1.snoc (.plain ⟨1, rfl, rfl⟩ nofun nofun)
  have h3 := h2.snoc (.call ⟨2, rfl, rfl⟩ rfl)
  have h4 := h3.snoc (.plain ⟨3, rfl, rfl⟩ nofun nofun)
  have h5 := h4.snoc (.accept rfl)
  have h6 := h5.snoc (.plain ⟨0, rfl, rfl⟩ nofun nofun)
  have h7 := h6.snoc (.plain ⟨1, rfl, rfl⟩ nofun nofun)
  have h8 := h7.snoc (.call ⟨2, rfl, rfl⟩ rfl)
  have h9 := h8.snoc (.plain ⟨3, rfl, rfl⟩ nofun nofun)
  have h10 := h9.snoc (.ret ⟨4, rfl, rfl⟩)
  have h11 := h10.snoc (.ret ⟨4, rfl, rfl⟩)
  have ht := hclaim _ _ _ _ _ returnAtOnce_obeys rfl (.inl rfl) h11 rfl
  have hmode : Mode.irq = Mode.svc := congrArg Psr.mode ht.cpsr
  exact absurd hmode (by decide)

end Arm

end Rpi2Baremetal
