import Rpi2Baremetal.Framework.Transition
import Rpi2Baremetal.Model.Transmit
import Rpi2Baremetal.Properties.ConsoleOutput

/-!
# Nothing that is printed is lost

A write to `MU_IO` comes right after a wait for the transmitter, in all code that prints.  So the
FIFO has room for it unless other code has written in between, and on one core that takes an IRQ
between the wait and the write.
-/

namespace Rpi2Baremetal

open Framework CallStack Interrupt

namespace Console

variable {env : Env} {depth : ℕ} {s s' : TransmitState} {c : Cmd} {k body : List Cmd}
variable {console console' : State}

/-! ## Where the writes are -/

/-- The command writes to `MU_IO`. -/
def Cmd.writes : Cmd → Bool
  | .writeIo _ => true
  | _ => false

/-- A write comes right after a wait for the transmitter. -/
def Waited (c d : Cmd) : Prop := d.writes = true → c = .waitTxEmpty

/-- All writes but one that comes first are waited for. -/
def Guarded (k : List Cmd) : Prop := k.IsChain Waited

/-- The first command is no write. -/
def NoWrite (k : List Cmd) : Prop := ∀ c ∈ k.head?, c.writes = false

lemma guarded_of_forall (h : ∀ c ∈ k, c.writes = false) : Guarded k :=
  (List.pairwise_of_forall_mem_list fun c _ d hd hwrites =>
    absurd hwrites (by simp [h d hd])).isChain

lemma noWrite_of_forall (h : ∀ c ∈ k, c.writes = false) : NoWrite k := fun c hc =>
  h c (List.mem_of_mem_head? hc)

/-- Only `uart_send` writes. -/
lemma writes_body (env : Env) (h : ∀ b, c ≠ .uartSend b) : ∀ d ∈ c.body env, d.writes = false := by
  have hcommon : ∀ d : Cmd, d.common = true → d.writes = false := by
    intro d hd
    cases d <;> first | rfl | cases hd
  by_cases hcounter : c = .getWakingCores ∨ c = .incWakingCores
  · obtain rfl | rfl := hcounter <;> simp [Cmd.body, Cmd.writes]
  · obtain ⟨hget, hinc⟩ := not_or.mp hcounter
    exact fun d hd => hcommon d (common_of_mem_body env h hget hinc d hd)

/-! ## One command -/

/-- What a command writes. -/
def Cmd.written : Cmd → List Byte
  | .writeIo b => [b]
  | _ => []

/-- A command that is replaced by a body. -/
lemma exec_call (h : exec env c console = .call body console') :
    Guarded body ∧ NoWrite body ∧ console'.output = console.output ++ c.written ∧
      (c = .waitTxEmpty → body = [] ∧ env.muLsr console.reads &&& 0x20 ≠ 0) := by
  have hnil : Guarded [] ∧ NoWrite [] := ⟨List.isChain_nil, by simp [NoWrite]⟩
  have hsame : console.output = console.output ++ [] := (List.append_nil _).symm
  cases c with
  | waitTxEmpty =>
      simp only [exec] at h
      split_ifs at h with hready
      obtain ⟨rfl, rfl⟩ := Effect.call.inj h
      exact ⟨hnil.1, hnil.2, hsame, fun _ => ⟨rfl, hready⟩⟩
  | uartSend b =>
      obtain ⟨rfl, rfl⟩ := Effect.call.inj h
      rw [Cmd.body]
      split_ifs
      · exact ⟨by simp [Guarded, Waited, Cmd.writes], by simp [NoWrite, Cmd.writes], hsame, by simp⟩
      · exact ⟨by simp [Guarded, Waited, Cmd.writes], by simp [NoWrite, Cmd.writes], hsame, by simp⟩
  | asmSpinReq lock | asmSpinRel lock | waitRxReady =>
      simp only [exec] at h
      split_ifs at h
      obtain ⟨rfl, rfl⟩ := Effect.call.inj h
      exact ⟨hnil.1, hnil.2, hsame, by simp⟩
  | writeIo b =>
      obtain ⟨rfl, rfl⟩ := Effect.call.inj h
      exact ⟨hnil.1, hnil.2, rfl, by simp⟩
  | addWakingCores | readWakingCores | write32 =>
      obtain ⟨rfl, rfl⟩ := Effect.call.inj h
      exact ⟨hnil.1, hnil.2, hsame, by simp⟩
  | echoIo =>
      obtain ⟨rfl, rfl⟩ := Effect.call.inj h
      exact ⟨by simp [Guarded], by simp [NoWrite, Cmd.writes], hsame, by simp⟩
  | auxIntHandler =>
      simp only [exec] at h
      split_ifs at h <;> obtain ⟨rfl, rfl⟩ := Effect.call.inj h
      · exact ⟨hnil.1, hnil.2, hsame, by simp⟩
      · exact ⟨by simp [Guarded, Waited, Cmd.writes], by simp [NoWrite, Cmd.writes], hsame, by simp⟩
  | _ =>
      obtain ⟨rfl, rfl⟩ := Effect.call.inj h
      refine ⟨guarded_of_forall (writes_body env ?_), noWrite_of_forall (writes_body env ?_), hsame,
        by simp⟩
      all_goals simp

/-- A command that waits. -/
lemma exec_wait (h : exec env c console = .wait console') :
    c.writes = false ∧ console'.output = console.output := by
  cases c with
  | asmSpinReq lock | asmSpinRel lock | waitTxEmpty | waitRxReady | auxIntHandler =>
      simp only [exec] at h
      split_ifs at h
      obtain rfl := Effect.wait.inj h
      exact ⟨rfl, rfl⟩
  | _ => cases h

/-! ## Runs -/

/-- What holds while no IRQ comes between a wait and its write. -/
structure TransmitInv (depth : ℕ) (output : List Byte) (s : TransmitState) : Prop where
  guarded : Guarded s.stack
  room : NoWrite s.stack ∨ s.tx.length < depth
  sent : output ++ (s.sent ++ s.tx) = s.console.output
  lost : s.lost = 0

/-- What comes after a command is no write, unless the command waits for the transmitter. -/
lemma Guarded.noWrite (h : Guarded (c :: k)) (hc : c ≠ .waitTxEmpty) : NoWrite k := by
  intro d hd
  cases hwrites : d.writes with
  | false => rfl
  | true => exact absurd ((List.isChain_cons.mp h).1 d hd hwrites) hc

lemma Guarded.append (hbody : Guarded body) (hk : Guarded k) (hno : NoWrite k) :
    Guarded (body ++ k) :=
  List.isChain_append.mpr ⟨hbody, hk, fun _ _ d hd hwrites =>
    absurd (hno d hd) (by simp [hwrites])⟩

lemma NoWrite.append (hbody : NoWrite body) (hk : NoWrite k) : NoWrite (body ++ k) := by
  intro d hd
  cases body with
  | nil => exact hk d hd
  | cons c body => exact hbody d hd

variable {output : List Byte}

/-- What a command does to the FIFO if it does not find it full. -/
lemma transmitStep_exec (hstack : s.stack = c :: k)
    (hs : transmitStep depth s (.exec env) = some s')
    (hroom : c.writes = true → s.tx.length < depth) :
    (env.muLsr s.console.reads &&& 0x20 ≠ 0 ↔ s.tx.length < depth) ∧
      s' = { s with
        stack := (step (exec env) (c :: k, s.console)).1
        console := (step (exec env) (c :: k, s.console)).2
        tx := s.tx ++ c.written } := by
  obtain ⟨hshows, hs⟩ := Option.ite_none_right_eq_some.mp hs
  refine ⟨hshows, ?_⟩
  rw [hstack] at hs
  cases c with
  | writeIo b => exact (Option.some.inj ((if_pos (hroom rfl)).symm.trans hs)).symm
  | _ =>
      refine (Option.some.inj hs).symm.trans ?_
      change _ = { s with stack := _, console := _, tx := s.tx ++ [] }
      rw [List.append_nil]
      rfl

/-- A step of the commands. -/
lemma TransmitInv.exec (h : TransmitInv depth output s)
    (hs : transmitStep depth s (.exec env) = some s') : TransmitInv depth output s' := by
  cases hstack : s.stack with
  | nil =>
      obtain ⟨-, hs⟩ := Option.ite_none_right_eq_some.mp hs
      rw [hstack] at hs
      obtain rfl := Option.some.inj hs
      exact ⟨List.isChain_nil, .inl (by simp [NoWrite]), h.sent, h.lost⟩
  | cons c k =>
      have hguarded := h.guarded
      rw [hstack] at hguarded
      have hk : Guarded k := (List.isChain_cons.mp hguarded).2
      have hfits : c.writes = true → s.tx.length < depth := fun hwrites =>
        h.room.resolve_left fun hno => by
          have hfalse := hno c (by rw [hstack]; rfl)
          rw [hwrites] at hfalse
          cases hfalse
      obtain ⟨hshows, rfl⟩ := transmitStep_exec hstack hs hfits
      have hsent : output ++ (s.sent ++ (s.tx ++ c.written)) = s.console.output ++ c.written := by
        rw [← h.sent]
        simp only [List.append_assoc]
      cases hexec : Console.exec env c s.console with
      | wait console' =>
          obtain ⟨hwrites, hsame⟩ := exec_wait hexec
          have hwritten : c.written = [] := by
            cases c <;> first | rfl | cases hwrites
          rw [step_wait hexec]
          refine ⟨hguarded, .inl fun d hd => ?_, ?_, h.lost⟩
          · obtain rfl := Option.some.inj hd
            exact hwrites
          · rw [hsame, hsent, hwritten, List.append_nil]
      | call body console' =>
          obtain ⟨hbody, hno, hout, hready⟩ := exec_call hexec
          rw [step_call hexec]
          by_cases hwait : c = .waitTxEmpty
          · -- the FIFO has room for the write that may come next
            obtain ⟨rfl, hlsr⟩ := hready hwait
            refine ⟨hk, .inr ?_, hsent.trans hout.symm, h.lost⟩
            rw [hwait]
            simpa [Cmd.written] using hshows.mp hlsr
          · have hnext := hguarded.noWrite hwait
            exact ⟨hbody.append hk hnext, .inl (hno.append hnext), hsent.trans hout.symm, h.lost⟩

/-- An IRQ is not accepted between a wait and its write. -/
def NotBetween (s : TransmitState) : TransmitAct → Prop
  | .irq _ => NoWrite s.stack
  | _ => True

instance (s : TransmitState) (act : TransmitAct) : Decidable (NotBetween s act) :=
  match act with
  | .irq _ => inferInstanceAs (Decidable (∀ c ∈ s.stack.head?, c.writes = false))
  | .exec _ => isTrue trivial
  | .transmit => isTrue trivial

lemma TransmitInv.step {act : TransmitAct} (h : TransmitInv depth output s)
    (hbetween : NotBetween s act) (hs : transmitStep depth s act = some s') :
    TransmitInv depth output s' := by
  cases act with
  | exec env => exact h.exec hs
  | transmit =>
      have hsent := h.sent
      have hroom := h.room
      simp only [transmitStep] at hs
      split at hs
      · cases hs
      · rename_i c tx htx
        obtain rfl := Option.some.inj hs
        rw [htx] at hsent hroom
        refine ⟨h.guarded, hroom.imp_right fun hlt => ?_, ?_, h.lost⟩
        · exact Nat.lt_of_succ_lt hlt
        · rw [← hsent, List.append_assoc, List.singleton_append]
  | irq i =>
      obtain rfl := Option.some.inj hs
      have hno : NoWrite s.stack := hbetween
      refine ⟨List.isChain_cons.mpr ⟨fun d hd hwrites => ?_, h.guarded⟩, .inl ?_, h.sent, h.lost⟩
      · exact absurd (hno d hd) (by simp [hwrites])
      · simp [NoWrite, Cmd.writes]

/-- **Nothing that is printed is lost.**  Any code on one core that writes to `MU_IO` through
`uart_send` only, with IRQs accepted anywhere but between a wait for the transmitter and the write
after it, and with any behaviour of the devices: no character is lost, and what has left the FIFO
and what is in it is what the code and the interrupt handlers have written, in this order. -/
theorem uart_send_lossless {stack : List Cmd} {labels : List TransmitAct}
    (hstack : ∀ c ∈ stack, c.writes = false)
    (hr : Run (guarded NotBetween fun s a s' => transmitStep depth s a = some s')
      (.start stack console) labels s) :
    s.lost = 0 ∧ console.output ++ (s.sent ++ s.tx) = s.console.output := by
  have hstart : TransmitInv depth console.output (.start stack console) :=
    ⟨guarded_of_forall hstack, .inl (noWrite_of_forall hstack), List.append_nil _, rfl⟩
  have hinv := hr.guarded_invariant (fun _ _ _ hI hG hs => hI.step hG hs) hstart
  exact ⟨hinv.lost, hinv.sent⟩

/-- Surroundings of core 0 with the MMU off and these values of `MU_IIR`, `MU_LSR` and `MU_IO`. -/
def uartEnv (iir lsr io : Word) : Env :=
  { readyEnv 0 false with muIir := fun _ => iir, muLsr := fun _ => lsr, muIo := fun _ => io }

/-- The interrupt of the mini UART is pending. -/
def auxPending : IrqInput := ⟨0, 0, 1 <<< 29, 0, 0⟩

/-- Core 0 sends a character and is interrupted after that; the character received is not sent
before the first has left a FIFO of one. -/
def interruptedAfter : List TransmitAct :=
  List.replicate 3 (.exec (uartEnv 1 0x20 0)) ++ [.irq auxPending]
    ++ List.replicate 6 (.exec (uartEnv 4 1 0x42)) ++ [.transmit]
    ++ List.replicate 2 (.exec (uartEnv 1 0x20 0))

theorem uart_send_lossless_echo : ∃ s : TransmitState,
    s.console.output = [0x41, 0x42] ∧ s.lost = 0 ∧
      idle.output ++ (s.sent ++ s.tx) = s.console.output := by
  have hdone : (interruptedAfter.foldlM (fun s a => if NotBetween s a then transmitStep 1 s a
      else none) (.start [.uartSend 0x41] idle)).map (·.console.output) = some [0x41, 0x42] := by
    decide
  obtain ⟨s, hs, hout⟩ := Option.map_eq_some_iff.mp hdone
  exact ⟨s, hout, uart_send_lossless (by decide) (Run.guarded_of_foldlM hs)⟩

/-- The same with the IRQ between the wait and the write. -/
def interruptedBetween : List TransmitAct :=
  List.replicate 2 (.exec (uartEnv 1 0x20 0)) ++ [.irq auxPending]
    ++ List.replicate 8 (.exec (uartEnv 4 0x21 0x42)) ++ List.replicate 2 (.exec (uartEnv 1 0 0))

example : (interruptedBetween.foldlM (transmitStep 1) (.start [.uartSend 0x41] idle)).map
    (·.lost) = some 1 := by decide

end Console

end Rpi2Baremetal
