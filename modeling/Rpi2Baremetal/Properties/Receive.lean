import Rpi2Baremetal.Framework.Transition
import Rpi2Baremetal.Model.Receive
import Rpi2Baremetal.Properties.ConsoleOutput

/-!
# What is received is sent back

`aux_int_handler` takes one character after the other from the FIFO and sends it before it looks for
the next.  So at any time the characters received are the ones sent, what is left to send of the
last one, and the ones in the FIFO, in this order.  A character costs eight commands at most, which
bounds an execution by the characters that arrive during it.
-/

namespace Rpi2Baremetal

open Framework CallStack

namespace Console

variable {env : Env} {depth : ℕ} {s s' : ReceiveState}

/-! ## Where the handler is -/

/-- The handler before it sends these characters and looks for the next. -/
def sending (bs : List Byte) : List Cmd :=
  bs.flatMap (fun b => [.waitTxEmpty, .writeIo b]) ++ [.auxIntHandler]

/-- What may be left to send of one character. -/
def LeftOfOne (bs : List Byte) : Prop := ∃ c, bs <:+ wireChar c

lemma LeftOfOne.nil : LeftOfOne [] := ⟨newline, List.nil_suffix⟩

lemma LeftOfOne.tail {b : Byte} {bs : List Byte} (h : LeftOfOne (b :: bs)) : LeftOfOne bs := by
  obtain ⟨c, hc⟩ := h
  exact ⟨c, (List.suffix_cons b bs).trans hc⟩

/-- Where the handler is with these characters in the FIFO, how many commands are left at most, and
what is left to send of the character it has taken. -/
inductive Echoing (rx : List Byte) (cost : ℕ) : List Cmd → List Byte → Prop
  | idle : cost = 8 * rx.length → Echoing rx cost [] []
  | waitRx : rx ≠ [] → cost = 8 * rx.length →
      Echoing rx cost [.waitRxReady, .echoIo, .auxIntHandler] []
  | readIo : rx ≠ [] → cost + 1 = 8 * rx.length → Echoing rx cost [.echoIo, .auxIntHandler] []
  | send {c : Byte} : cost = 8 * rx.length + 6 →
      Echoing rx cost [.uartSend c, .auxIntHandler] (wireChar c)
  | waitTx {bs : List Byte} : LeftOfOne bs → cost = 8 * rx.length + 2 * bs.length + 1 →
      Echoing rx cost (sending bs) bs
  | writeIo {b : Byte} {bs : List Byte} : LeftOfOne (b :: bs) →
      cost = 8 * rx.length + 2 * bs.length + 2 →
      Echoing rx cost (.writeIo b :: sending bs) (b :: bs)

variable {stack : List Cmd} {rx rest : List Byte} {cost : ℕ}

/-- A character that arrives costs eight commands. -/
lemma Echoing.arrive (h : Echoing rx cost stack rest) (c : Byte) :
    Echoing (rx ++ [c]) (cost + 8) stack rest := by
  have hlength : (rx ++ [c]).length = rx.length + 1 := List.length_append
  cases h with
  | idle hcost => exact .idle (by omega)
  | waitRx hne hcost => exact .waitRx (List.append_ne_nil_of_left_ne_nil hne [c]) (by omega)
  | readIo hne hcost => exact .readIo (List.append_ne_nil_of_left_ne_nil hne [c]) (by omega)
  | send hcost => exact .send (by omega)
  | waitTx hleft hcost => exact .waitTx hleft (by omega)
  | writeIo hleft hcost => exact .writeIo hleft (by omega)

lemma Echoing.leftOfOne (h : Echoing rx cost stack rest) : LeftOfOne rest := by
  cases h with
  | idle | waitRx | readIo => exact .nil
  | @send c => exact ⟨c, List.suffix_rfl⟩
  | waitTx hleft | writeIo hleft => exact hleft

/-! ## One command -/

/-- The characters that are still to be sent, in order, after those that have been. -/
def echoed (s : ReceiveState) (rest : List Byte) : List Byte :=
  s.console.output ++ (rest ++ wire s.rx)

/-- The FIFO after a command. -/
def rxAfter (c : Cmd) (rx : List Byte) : List Byte :=
  match c with
  | .echoIo => rx.tail
  | _ => rx

/-- The number of commands executed after a command. -/
def executedAfter (lsr : Word) (c : Cmd) (n : ℕ) : ℕ := if waitsTx lsr [c] then n else n + 1

/-- A command is counted once, and is one less to come. -/
lemma executedAfter_add_le (lsr : Word) (c : Cmd) (n : ℕ) {cost cost' : ℕ} (h : cost' < cost) :
    executedAfter lsr c n + cost' ≤ n + cost := by
  rw [executedAfter]
  split_ifs <;> omega

lemma executedAfter_waitTxEmpty {lsr : Word} (h : ¬ lsr &&& 0x20 ≠ 0) (n : ℕ) :
    executedAfter lsr .waitTxEmpty n = n :=
  if_pos (decide_eq_true (not_not.mp h))

section

variable {iir lsr io : Word} {c : Cmd} {k body : List Cmd} {console : State}

/-- The registers when a command is executed, and what becomes of the handler. -/
lemma receiveStep_exec (hstack : s.stack = c :: k)
    (hs : receiveStep env depth s (.exec iir lsr io) = some s') :
    RxShows s.rx iir lsr io ∧
      s' = { s with
        stack := (step (Console.exec (env.withUart iir lsr io)) (c :: k, s.console)).1
        console := (step (Console.exec (env.withUart iir lsr io)) (c :: k, s.console)).2
        rx := rxAfter c s.rx
        executed := executedAfter lsr c s.executed } := by
  obtain ⟨⟨hshows, -⟩, hs⟩ := Option.ite_none_right_eq_some.mp hs
  refine ⟨hshows, (Option.some.inj hs).symm.trans ?_⟩
  rw [hstack]
  cases c <;> rfl

lemma receiveStep_call (hstack : s.stack = c :: k)
    (hexec : Console.exec (env.withUart iir lsr io) c s.console = .call body console)
    (hs : receiveStep env depth s (.exec iir lsr io) = some s') :
    s' = { s with
      stack := body ++ k
      console := console
      rx := rxAfter c s.rx
      executed := executedAfter lsr c s.executed } := by
  rw [(receiveStep_exec hstack hs).2, step_call hexec]

lemma receiveStep_wait (hstack : s.stack = c :: k)
    (hexec : Console.exec (env.withUart iir lsr io) c s.console = .wait console)
    (hs : receiveStep env depth s (.exec iir lsr io) = some s') :
    s' = { s with
      stack := c :: k
      console := console
      rx := rxAfter c s.rx
      executed := executedAfter lsr c s.executed } := by
  rw [(receiveStep_exec hstack hs).2, step_wait hexec]

end

/-- What a command of the handler may do. -/
structure EchoStep (s s' : ReceiveState) (cost : ℕ) (rest : List Byte) : Prop where
  received : s'.received = s.received ∧ s'.lost = s.lost
  echoing : ∃ rest' cost', Echoing s'.rx cost' s'.stack rest' ∧ echoed s' rest' = echoed s rest ∧
    s'.executed + cost' ≤ s.executed + cost
  empty : s'.stack = [] → s'.rx = []

/-- A command of the handler loses, adds and reorders nothing, and unless it waits for the
transmitter, fewer are left. -/
lemma Echoing.exec {iir lsr io : Word} (h : Echoing s.rx cost s.stack rest)
    (hs : receiveStep env depth s (.exec iir lsr io) = some s') :
    EchoStep s s' cost rest := by
  generalize hstack : s.stack = stack at h
  cases h with
  | idle =>
      simp [receiveStep, hstack] at hs
  | waitRx hne hcost =>
      obtain ⟨-, hlsr, -⟩ := (receiveStep_exec hstack hs).1
      have hready : lsr &&& 1 ≠ 0 := by
        rw [hlsr, if_neg hne]
        decide
      have hexec : Console.exec (env.withUart iir lsr io) .waitRxReady s.console
          = .call [] { s.console with reads := s.console.reads + 1 } := if_pos hready
      obtain rfl := receiveStep_call hstack hexec hs
      have hpos := List.length_pos_of_ne_nil hne
      have hcost' : cost - 1 + 1 = 8 * s.rx.length := by omega
      have hle : executedAfter lsr .waitRxReady s.executed + (cost - 1) ≤ s.executed + cost :=
        executedAfter_add_le _ _ _ (by omega)
      exact ⟨⟨rfl, rfl⟩, ⟨[], cost - 1, .readIo hne hcost', rfl, hle⟩, by simp⟩
  | readIo hne hcost =>
      obtain ⟨-, -, hio⟩ := (receiveStep_exec hstack hs).1
      have hexec : Console.exec (env.withUart iir lsr io) .echoIo s.console
          = .call [.uartSend (io.setWidth 8)] { s.console with reads := s.console.reads + 1 } := rfl
      obtain rfl := receiveStep_call hstack hexec hs
      obtain ⟨c, rx, hrx⟩ := List.exists_cons_of_ne_nil hne
      obtain rfl : io.setWidth 8 = c := hio c (by rw [hrx]; rfl)
      rw [hrx, List.length_cons] at hcost
      have hle : executedAfter lsr .echoIo s.executed + (cost - 1) ≤ s.executed + cost :=
        executedAfter_add_le _ _ _ (by omega)
      refine ⟨⟨rfl, rfl⟩, ⟨wireChar (io.setWidth 8), cost - 1, .send ?_, ?_, hle⟩, by simp⟩
      · show cost - 1 = 8 * s.rx.tail.length + 6
        rw [hrx, List.tail_cons]
        omega
      · show s.console.output ++ (_ ++ wire s.rx.tail) = s.console.output ++ ([] ++ wire s.rx)
        rw [hrx, wire_cons]
        rfl
  | @send c hcost =>
      have hexec : Console.exec (env.withUart iir lsr io) (.uartSend c) s.console
          = .call (Cmd.body (env.withUart iir lsr io) (.uartSend c)) s.console := rfl
      obtain rfl := receiveStep_call hstack hexec hs
      have hbody : Cmd.body (env.withUart iir lsr io) (.uartSend c) ++ [.auxIntHandler]
          = sending (wireChar c) := by
        rw [Cmd.body, wireChar]
        split_ifs <;> rfl
      have hlength : (wireChar c).length ≤ 2 := by
        rw [wireChar]
        split_ifs <;> simp
      rw [hbody]
      have hle : executedAfter lsr (.uartSend c) s.executed +
          (8 * s.rx.length + 2 * (wireChar c).length + 1) ≤ s.executed + cost :=
        executedAfter_add_le _ _ _ (by omega)
      exact ⟨⟨rfl, rfl⟩, ⟨wireChar c, _, .waitTx ⟨c, List.suffix_rfl⟩ rfl, rfl, hle⟩,
        by simp [sending]⟩
  | waitTx hleft hcost =>
      cases rest with
      | nil =>
          obtain ⟨hiir, -, -⟩ := (receiveStep_exec hstack hs).1
          by_cases hne : s.rx = []
          · have hdone : iir &&& 1 = 1 := by
              have hlow : iir &&& 1 = iir &&& 7 &&& 1 := by rw [BitVec.and_assoc]; rfl
              rw [hlow, hiir, if_pos hne]
              rfl
            have hexec : Console.exec (env.withUart iir lsr io) .auxIntHandler s.console
                = .call [] { s.console with reads := s.console.reads + 1 } := if_pos hdone
            obtain rfl := receiveStep_call hstack hexec hs
            have hzero : 0 = 8 * s.rx.length := by rw [hne]; rfl
            have hle : executedAfter lsr .auxIntHandler s.executed + 0 ≤ s.executed + cost :=
              executedAfter_add_le _ _ _ (by omega)
            exact ⟨⟨rfl, rfl⟩, ⟨[], 0, .idle hzero, rfl, hle⟩, fun _ => hne⟩
          · have hmore : ¬ iir &&& 1 = 1 := by
              have hlow : iir &&& 1 = iir &&& 7 &&& 1 := by rw [BitVec.and_assoc]; rfl
              rw [hlow, hiir, if_neg hne]
              decide
            have hvalid : iir &&& 6 = 4 := by
              have hlow : iir &&& 6 = iir &&& 7 &&& 6 := by rw [BitVec.and_assoc]; rfl
              rw [hlow, hiir, if_neg hne]
              rfl
            have hexec : Console.exec (env.withUart iir lsr io) .auxIntHandler s.console
                = .call [.waitRxReady, .echoIo, .auxIntHandler]
                    { s.console with reads := s.console.reads + 1 } :=
              (if_neg hmore).trans (if_pos hvalid)
            obtain rfl := receiveStep_call hstack hexec hs
            have hcost' : cost - 1 = 8 * s.rx.length := by
              rw [hcost]
              rfl
            have hle : executedAfter lsr .auxIntHandler s.executed + (cost - 1) ≤
                s.executed + cost :=
              executedAfter_add_le _ _ _ (by omega)
            exact ⟨⟨rfl, rfl⟩, ⟨[], cost - 1, .waitRx hne hcost', rfl, hle⟩, by simp⟩
      | cons b bs =>
          rw [List.length_cons] at hcost
          by_cases hready : lsr &&& 0x20 ≠ 0
          · have hexec : Console.exec (env.withUart iir lsr io) .waitTxEmpty s.console
                = .call [] { s.console with reads := s.console.reads + 1 } := if_pos hready
            obtain rfl := receiveStep_call hstack hexec hs
            have hcost' : cost - 1 = 8 * s.rx.length + 2 * bs.length + 2 := by omega
            have hle : executedAfter lsr .waitTxEmpty s.executed + (cost - 1) ≤ s.executed + cost :=
              executedAfter_add_le _ _ _ (by omega)
            exact ⟨⟨rfl, rfl⟩, ⟨b :: bs, cost - 1, .writeIo hleft hcost', rfl, hle⟩, by simp⟩
          · have hexec : Console.exec (env.withUart iir lsr io) .waitTxEmpty s.console
                = .wait { s.console with reads := s.console.reads + 1 } := if_neg hready
            obtain rfl := receiveStep_wait hstack hexec hs
            have hwait : Echoing s.rx cost (sending (b :: bs)) (b :: bs) := .waitTx hleft hcost
            have hsame : executedAfter lsr .waitTxEmpty s.executed + cost ≤ s.executed + cost := by
              rw [executedAfter_waitTxEmpty hready]
            exact ⟨⟨rfl, rfl⟩, ⟨b :: bs, cost, hwait, rfl, hsame⟩, by simp⟩
  | @writeIo b bs hleft hcost =>
      have hexec : Console.exec (env.withUart iir lsr io) (.writeIo b) s.console
          = .call [] { s.console with output := s.console.output ++ [b] } := rfl
      obtain rfl := receiveStep_call hstack hexec hs
      have hcost' : cost - 1 = 8 * s.rx.length + 2 * bs.length + 1 := by omega
      have hle : executedAfter lsr (.writeIo b) s.executed + (cost - 1) ≤ s.executed + cost :=
        executedAfter_add_le _ _ _ (by omega)
      refine ⟨⟨rfl, rfl⟩, ⟨bs, cost - 1, .waitTx hleft.tail hcost', ?_, hle⟩, by simp [sending]⟩
      show s.console.output ++ [b] ++ (bs ++ wire s.rx)
        = s.console.output ++ ((b :: bs) ++ wire s.rx)
      rw [List.append_assoc]
      rfl

/-! ## Whole runs -/

/-- The characters that have arrived. -/
def arrivals (labels : List ReceiveAct) : List Byte :=
  labels.filterMap fun
    | .arrive c => some c
    | _ => none

/-- The steps that give the handler something to do. -/
def ReceiveAct.adds : ReceiveAct → Bool
  | .exec _ _ _ => false
  | _ => true

/-- What holds after every step of a run. -/
structure ReceiveInv (output : List Byte) (labels : List ReceiveAct) (s : ReceiveState) :
    Prop where
  sublist : s.received.Sublist (arrivals labels)
  lost : s.received.length + s.lost = (arrivals labels).length
  echoing : ∃ rest cost, Echoing s.rx cost s.stack rest ∧
    echoed s rest = output ++ wire s.received ∧
    s.executed + cost ≤ 8 * labels.countP ReceiveAct.adds

lemma arrivals_append (labels labels' : List ReceiveAct) :
    arrivals (labels ++ labels') = arrivals labels ++ arrivals labels' := List.filterMap_append

variable {output : List Byte} {labels : List ReceiveAct}

lemma ReceiveInv.arrive (h : ReceiveInv output labels s) {c : Byte}
    (hs : receiveStep env depth s (.arrive c) = some s') :
    ReceiveInv output (labels ++ [.arrive c]) s' := by
  obtain ⟨rest, cost, hechoing, hechoed, hcost⟩ := h.echoing
  have hlost := h.lost
  have harrivals : arrivals [.arrive c] = [c] := rfl
  have hadds : [ReceiveAct.arrive c].countP ReceiveAct.adds = 1 := rfl
  simp only [receiveStep] at hs
  split_ifs at hs with hroom <;> obtain rfl := Option.some.inj hs
  · refine ⟨?_, ?_, rest, cost + 8, hechoing.arrive c, ?_, ?_⟩
    · rw [arrivals_append, harrivals]
      exact h.sublist.append_right [c]
    · rw [arrivals_append, harrivals, List.length_append, List.length_append]
      simp only [List.length_singleton]
      omega
    · simp only [echoed, wire_append] at hechoed ⊢
      rw [← List.append_assoc, ← List.append_assoc, List.append_assoc s.console.output, hechoed,
        List.append_assoc]
    · rw [List.countP_append, hadds]
      show s.executed + (cost + 8) ≤ _
      omega
  · refine ⟨?_, ?_, rest, cost, hechoing, hechoed, ?_⟩
    · rw [arrivals_append]
      exact h.sublist.trans (List.sublist_append_left ..)
    · rw [arrivals_append, harrivals, List.length_append]
      simp only [List.length_singleton]
      omega
    · rw [List.countP_append, hadds]
      show s.executed + cost ≤ _
      omega

/-- The steps with which no character arrives. -/
lemma ReceiveInv.next (h : ReceiveInv output labels s) {act : ReceiveAct}
    (hact : arrivals [act] = []) (hsame : s'.received = s.received ∧ s'.lost = s.lost)
    (hechoing : ∃ rest cost, Echoing s'.rx cost s'.stack rest ∧
      echoed s' rest = output ++ wire s.received ∧
      s'.executed + cost ≤ 8 * (labels ++ [act]).countP ReceiveAct.adds) :
    ReceiveInv output (labels ++ [act]) s' := by
  refine ⟨?_, ?_, by rwa [hsame.1]⟩
  · rw [arrivals_append, hact, List.append_nil, hsame.1]
    exact h.sublist
  · rw [arrivals_append, hact, List.append_nil, hsame.1, hsame.2]
    exact h.lost

/-- Outside the handler there is nothing left to send. -/
lemma Echoing.of_nil (h : Echoing rx cost stack rest) (hstack : stack = []) :
    rest = [] ∧ cost = 8 * rx.length := by
  cases h with
  | idle hcost => exact ⟨rfl, hcost⟩
  | waitRx | readIo | send | writeIo => cases hstack
  | waitTx => simp [sending] at hstack

lemma ReceiveInv.step {act : ReceiveAct} (h : ReceiveInv output labels s)
    (hs : receiveStep env depth s act = some s') : ReceiveInv output (labels ++ [act]) s' := by
  obtain ⟨rest, cost, hechoing, hechoed, hcost⟩ := h.echoing
  cases act with
  | arrive c => exact h.arrive hs
  | interrupt =>
      obtain ⟨hempty, hs⟩ := Option.ite_none_right_eq_some.mp hs
      obtain rfl := Option.some.inj hs
      obtain ⟨rfl, rfl⟩ := hechoing.of_nil (List.isEmpty_iff.mp hempty)
      have hread : Echoing s.rx (8 * s.rx.length + 1) (sending []) [] := .waitTx .nil rfl
      refine h.next rfl ⟨rfl, rfl⟩ ⟨[], _, hread, hechoed, ?_⟩
      rw [List.countP_append, show [ReceiveAct.interrupt].countP ReceiveAct.adds = 1 from rfl]
      show s.executed + (8 * s.rx.length + 1) ≤ _
      omega
  | exec iir lsr io =>
      have hstep := hechoing.exec hs
      obtain ⟨rest', cost', hechoing', hechoed', hle⟩ := hstep.echoing
      refine h.next rfl hstep.received ⟨rest', cost', hechoing', hechoed'.trans hechoed, ?_⟩
      rw [List.countP_append, show [ReceiveAct.exec iir lsr io].countP ReceiveAct.adds = 0 from rfl]
      omega

lemma receiveInv_start (console : State) : ReceiveInv console.output [] (.start console) where
  sublist := List.Sublist.refl []
  lost := rfl
  echoing := ⟨[], 0, .idle rfl, rfl, le_rfl⟩

/-- **What is received is sent back.**  Characters arrive at any time, the transmitter can be full
for any time, and `aux_int_handler` is called at any time: what the FIFO has taken, all arrivals but
the lost ones in their order, is what has been sent, what is left to send of one character and what
is in the FIFO.  When an execution ends, all of it has been sent.  But for the commands that find
the transmitter full, at most eight are executed for each call and each arrival. -/
theorem aux_int_handler_echoes {console : State}
    (hr : Run (fun s a s' => receiveStep env depth s a = some s') (.start console) labels s) :
    (s.received.Sublist (arrivals labels) ∧
        s.received.length + s.lost = (arrivals labels).length) ∧
      (∃ rest, s.console.output ++ (rest ++ wire s.rx) = console.output ++ wire s.received ∧
        (∃ c, rest <:+ wireChar c) ∧ (s.stack = [] → rest = [])) ∧
      (∀ iir lsr io s', receiveStep env depth s (.exec iir lsr io) = some s' → s'.stack = [] →
        s'.console.output = console.output ++ wire s'.received) ∧
      s.executed ≤ 8 * labels.countP ReceiveAct.adds := by
  have hinv : ReceiveInv console.output labels s :=
    hr.history_invariant (fun _ _ _ _ hI hs => hI.step hs) (receiveInv_start console)
  obtain ⟨rest, cost, hechoing, hechoed, hcost⟩ := hinv.echoing
  refine ⟨⟨hinv.sublist, hinv.lost⟩,
    ⟨rest, hechoed, hechoing.leftOfOne, fun hnil => (hechoing.of_nil hnil).1⟩,
    fun iir lsr io s' hs hnil => ?_, by omega⟩
  have hstep := hechoing.exec hs
  obtain ⟨rest', cost', hechoing', hechoed', -⟩ := hstep.echoing
  obtain ⟨rfl, -⟩ := hechoing'.of_nil hnil
  have hsent := hechoed'.trans hechoed
  rw [echoed, hstep.empty hnil, wire_nil, List.append_nil, List.append_nil] at hsent
  rw [hsent, hstep.received.1]

/-- A line feed arrives, and is sent back with a carriage return. -/
def lineFeed : List ReceiveAct :=
  [.arrive newline, .interrupt] ++ List.replicate 3 (.exec 4 0x21 0x0A)
    ++ List.replicate 6 (.exec 1 0x20 0)

theorem aux_int_handler_echoes_lineFeed : ∃ s : ReceiveState,
    lineFeed.foldlM (receiveStep (readyEnv 0 true) 8) (.start idle) = some s ∧ s.stack = [] ∧
      s.console.output ++ wire s.rx = wire s.received := by
  have hdone : (lineFeed.foldlM (receiveStep (readyEnv 0 true) 8) (.start idle)).map
      (·.stack.isEmpty) = some true := by decide
  obtain ⟨s, hs, hempty⟩ := Option.map_eq_some_iff.mp hdone
  have hnil := List.isEmpty_iff.mp hempty
  obtain ⟨-, ⟨rest, hechoed, -, hrest⟩, -⟩ := aux_int_handler_echoes (Run.of_foldlM hs)
  rw [hrest hnil] at hechoed
  exact ⟨s, hs, hnil, hechoed⟩

end Console

end Rpi2Baremetal
