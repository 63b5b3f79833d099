import Rpi2Baremetal.Properties.DiagnosticLocking

/-!
# What the console functions send

`uart_send` sends a newline and a carriage return for either of the two, and every other character
as it is (`wire`).  On core 0, and on any core with the MMU off, a call of a print function returns
having sent exactly its text, whatever the UART makes it wait for.
-/

namespace Rpi2Baremetal

namespace Console

open Framework CallStack

variable {env : Env} {s : State}

/-! ## Characters on the wire -/

/-- What `uart_send` writes for a character. -/
def wireChar (c : Byte) : List Byte :=
  if c = newline ∨ c = carriageReturn then [newline, carriageReturn] else [c]

/-- What is sent for a text. -/
def wire (text : List Byte) : List Byte := text.flatMap wireChar

@[simp] lemma wire_nil : wire [] = [] := rfl

@[simp] lemma wire_append (t u : List Byte) : wire (t ++ u) = wire t ++ wire u :=
  List.flatMap_append

lemma wire_cons (c : Byte) (t : List Byte) : wire (c :: t) = wireChar c ++ wire t :=
  List.flatMap_cons

/-! ## What the bodies are made of -/

/-- The commands that only some functions have in their bodies. -/
def Cmd.common : Cmd → Bool
  | .writeIo _ | .addWakingCores | .readWakingCores | .getWakingCores | .incWakingCores => false
  | _ => true

/-- All functions but these three are made of calls, locking and waiting. -/
lemma common_of_mem_body (env : Env) {c : Cmd} (hsend : ∀ b, c ≠ .uartSend b)
    (hget : c ≠ .getWakingCores) (hinc : c ≠ .incWakingCores) :
    ∀ d ∈ c.body env, d.common = true := by
  have hread : ∀ address, ∀ d ∈ (read32 env address).1, d.common = true := by
    intro address
    unfold read32
    split <;> simp [Cmd.common]
  have hfault : ∀ fs, ∀ d ∈ faultText fs, d.common = true := by
    intro fs d hd
    obtain ⟨text, -, rfl⟩ := List.mem_map.mp hd
    rfl
  have hsends : ∀ cs : List Byte, ∀ d ∈ cs.map Cmd.uartSend, d.common = true := by
    simp [Cmd.common]
  cases c with
  | uartSend b => exact absurd rfl (hsend b)
  | getWakingCores => exact absurd rfl hget
  | incWakingCores => exact absurd rfl hinc
  | checkAddress address =>
      simp only [Cmd.body, List.forall_mem_append]
      exact ⟨⟨by simp [Cmd.common], hread address⟩, by simp [Cmd.common]⟩
  | dataAbortVector address status =>
      simp only [Cmd.body, List.forall_mem_append]
      refine ⟨⟨⟨⟨by simp [Cmd.common], ?_⟩, by simp [Cmd.common]⟩, hfault _⟩, by simp [Cmd.common]⟩
      split_ifs <;> simp [Cmd.common]
  | callIrqHandler nIrq =>
      rw [Cmd.body, mApIrqHandler]
      split_ifs <;> simp [Cmd.common]
  | interruptHandler i =>
      rw [Cmd.body]
      split <;> simp [Cmd.common]
  | uartPuts str =>
      rw [Cmd.body]
      split_ifs
      · simp only [List.cons_append, List.forall_mem_cons, List.forall_mem_append]
        exact ⟨rfl, hsends str, by simp [Cmd.common]⟩
      · exact hsends str
  | hexstring d =>
      rw [Cmd.body]
      split_ifs
      · simp only [List.cons_append, List.forall_mem_cons, List.forall_mem_append]
        exact ⟨rfl, hsends _, by simp [Cmd.common]⟩
      · rw [List.forall_mem_append]
        exact ⟨hsends _, by simp [Cmd.common]⟩
  | _ =>
      simp only [Cmd.body]
      try split_ifs
      all_goals simp [Cmd.common]

/-! ## Commands that send -/

/-- The commands complete and send `out`, and leave the rest of the state as it was. -/
def Sends (env : Env) (cs : List Cmd) (s : State) (out : List Byte) : Prop :=
  ∃ reads, Completes (exec env) cs s { s with output := s.output ++ out, reads := reads }

lemma Sends.nil (s : State) : Sends env [] s [] := ⟨s.reads, by simpa using Completes.nil s⟩

lemma Sends.append {cs ds : List Cmd} {out out' : List Byte} (h : Sends env cs s out)
    (h' : ∀ s' : State, s'.held = s.held → Sends env ds s' out') :
    Sends env (cs ++ ds) s (out ++ out') := by
  obtain ⟨reads, h⟩ := h
  obtain ⟨reads', h'⟩ := h' { s with output := s.output ++ out, reads := reads } rfl
  refine ⟨reads', ?_⟩
  simpa [List.append_assoc] using h.append h'

lemma Sends.call {c : Cmd} {out : List Byte} (hc : exec env c s = .call (c.body env) s)
    (h : Sends env (c.body env) s out) : Sends env [c] s out := by
  obtain ⟨reads, h⟩ := h
  exact ⟨reads, h.call hc⟩

/-- Waiting for the transmitter ends, as it is found empty again and again. -/
lemma sends_waitTxEmpty (hfair : TransmitterDrains env) (s : State) :
    Sends env [.waitTxEmpty] s [] := by
  obtain ⟨m, hm, hready⟩ := hfair s.reads
  -- induction on the number of reads before the transmitter is empty
  obtain ⟨d, hd⟩ := Nat.exists_eq_add_of_le hm
  induction d generalizing s with
  | zero =>
      obtain rfl : m = s.reads := by omega
      have hexec : exec env .waitTxEmpty s = .call [] { s with reads := s.reads + 1 } := by
        simp only [exec, if_pos hready]
      exact ⟨s.reads + 1, by simpa using Completes.call hexec (.nil _)⟩
  | succ d ih =>
      by_cases hnow : env.muLsr s.reads &&& 0x20 ≠ 0
      · have hexec : exec env .waitTxEmpty s = .call [] { s with reads := s.reads + 1 } := by
          simp only [exec, if_pos hnow]
        exact ⟨s.reads + 1, by simpa using Completes.call hexec (.nil _)⟩
      · have hexec : exec env .waitTxEmpty s = .wait { s with reads := s.reads + 1 } := by
          simp only [exec, if_neg hnow]
        obtain ⟨reads, h⟩ := ih { s with reads := s.reads + 1 } (by simp; omega)
          (by simp; omega)
        exact ⟨reads, h.wait hexec⟩

lemma sends_writeIo (c : Byte) (s : State) : Sends env [.writeIo c] s [c] :=
  ⟨s.reads, Completes.call rfl (.nil _)⟩

lemma sends_uartSend (hfair : TransmitterDrains env) (c : Byte) (s : State) :
    Sends env [.uartSend c] s (wireChar c) := by
  refine .call rfl ?_
  by_cases hc : c = newline ∨ c = carriageReturn
  · rw [Cmd.body, if_pos hc, wireChar, if_pos hc]
    refine (sends_waitTxEmpty hfair s).append fun s1 _ => ?_
    refine (sends_writeIo newline s1).append fun s2 _ => ?_
    exact (sends_waitTxEmpty hfair s2).append fun s3 _ => sends_writeIo _ s3
  · rw [Cmd.body, if_neg hc, wireChar, if_neg hc]
    exact (sends_waitTxEmpty hfair s).append fun s1 _ => sends_writeIo c s1

lemma sends_uartSends (hfair : TransmitterDrains env) (text : List Byte) (s : State) :
    Sends env (text.map .uartSend) s (wire text) := by
  induction text generalizing s with
  | nil => exact .nil s
  | cons c text ih =>
      rw [wire_cons]
      exact (sends_uartSend hfair c s).append fun s' _ => ih s'

/-- A critical section of core 0 sends what its body sends. -/
lemma sends_critical (body : List Cmd) {out : List Byte} {lock : LockWord} (hp : env.prid = 0)
    (hfree : s.held lock = false)
    (hbody : Sends env body { s with held := Function.update s.held lock true } out) :
    Sends env (.spinReq lock :: body ++ [.spinRel lock]) s out := by
  obtain ⟨reads, hbody⟩ := hbody
  have hheld : (Function.update s.held lock true) lock = true := Function.update_self ..
  have hrel := completes_spinRel hp (s := { s with
    held := Function.update s.held lock true, output := s.output ++ out, reads := reads }) hheld
  have hback : Function.update s.held lock false = s.held := by
    rw [← hfree, Function.update_eq_self]
  refine ⟨reads, ?_⟩
  simpa [hback] using ((completes_spinReq hp hfree).append hbody).append hrel

/-! ## The print functions -/

/-- The text a print function prints. -/
def Cmd.text : Cmd → List Byte
  | .uartPuts str => str
  | .hexstring d => hexDigits d ++ [0x20]
  | .registerValuePuts str hex => str ++ hexDigits hex ++ [0x20, newline]
  | _ => []

/-- The command is a call of a print function. -/
def Cmd.prints : Cmd → Bool
  | .uartPuts _ | .hexstring _ | .registerValuePuts _ _ => true
  | _ => false

lemma sends_uartPuts (hfair : TransmitterDrains env) (h : CanPrint env s) (str : List Byte) :
    Sends env [.uartPuts str] s (wire str) := by
  refine .call rfl ?_
  by_cases hmmu : env.mmuEnabled
  · obtain ⟨hp, hfree⟩ := h.resolve_left (by simp [hmmu])
    rw [Cmd.body, if_pos hmmu]
    exact sends_critical _ hp hfree (sends_uartSends hfair str _)
  · rw [Cmd.body, if_neg hmmu]
    exact sends_uartSends hfair str s

lemma sends_hexstring (hfair : TransmitterDrains env) (h : CanPrint env s) (d : Word) :
    Sends env [.hexstring d] s (wire (hexDigits d ++ [0x20])) := by
  have hbody : ∀ s, Sends env ((hexDigits d).map .uartSend ++ [.uartSend 0x20]) s
      (wire (hexDigits d ++ [0x20])) := by
    intro s
    have hsends := sends_uartSends hfair (hexDigits d ++ [0x20]) s
    rwa [List.map_append] at hsends
  refine .call rfl ?_
  by_cases hmmu : env.mmuEnabled
  · obtain ⟨hp, hfree⟩ := h.resolve_left (by simp [hmmu])
    rw [Cmd.body, if_pos hmmu]
    simpa using sends_critical _ hp hfree (hbody _)
  · rw [Cmd.body, if_neg hmmu]
    exact hbody s

lemma sends_registerValuePuts (hfair : TransmitterDrains env) (h : CanPrint env s)
    (str : List Byte) (hex : Word) :
    Sends env [.registerValuePuts str hex] s (wire (str ++ hexDigits hex ++ [0x20, newline])) := by
  refine .call rfl ?_
  have htext : wire (str ++ hexDigits hex ++ [0x20, newline])
      = wire str ++ (wire (hexDigits hex ++ [0x20]) ++ wireChar newline) := by
    simp [wire_cons]
  rw [htext]
  refine (sends_uartPuts hfair h str).append fun s1 h1 => ?_
  refine (sends_hexstring hfair (h.congr h1) hex).append fun s2 _ => ?_
  exact sends_uartSend hfair newline s2

/-- Calls of the print functions send their texts, one after the other. -/
lemma sends_prints (hfair : TransmitterDrains env) {cs : List Cmd} (hcs : ∀ c ∈ cs, c.prints)
    (h : CanPrint env s) : Sends env cs s (wire (cs.flatMap Cmd.text)) := by
  induction cs generalizing s with
  | nil => exact .nil s
  | cons c cs ih =>
      obtain ⟨hc, hcs⟩ := List.forall_mem_cons.mp hcs
      have hone : Sends env [c] s (wire c.text) := by
        cases c with
        | uartPuts str => exact sends_uartPuts hfair h str
        | hexstring d => exact sends_hexstring hfair h d
        | registerValuePuts str hex => exact sends_registerValuePuts hfair h str hex
        | _ => cases hc
      rw [List.flatMap_cons, wire_append]
      exact hone.append fun s' hheld => ih hcs (h.congr hheld)

end Console

end Rpi2Baremetal
