import Rpi2Baremetal.Model.Console

/-!
# Sent characters

Code on one core that prints, with the transmit FIFO of the mini UART.  `uart_send` first waits
until bit 5 of `MU_LSR` says that the FIFO takes a character and then writes one, and an IRQ can be
accepted between the two.  The FIFO holds `depth` characters, and one that is written when it is
full is lost.
-/

namespace Rpi2Baremetal

open Framework Interrupt

namespace Console

structure TransmitState where
  stack : List Cmd
  console : State
  tx : List Byte
  /-- The characters that have left the FIFO. -/
  sent : List Byte
  lost : ℕ

/-- The code has been called and the FIFO is empty. -/
def TransmitState.start (stack : List Cmd) (console : State) : TransmitState where
  stack := stack
  console := console
  tx := []
  sent := []
  lost := 0

/-- A step: a command is executed in these surroundings, a character leaves the FIFO, or an IRQ is
accepted. -/
inductive TransmitAct where
  | exec (env : Env)
  | transmit
  | irq (i : IrqInput)

def transmitStep (depth : ℕ) (s : TransmitState) : TransmitAct → Option TransmitState
  | .exec env =>
      if env.muLsr s.console.reads &&& 0x20 ≠ 0 ↔ s.tx.length < depth then
        let (stack, console) := CallStack.step (Console.exec env) (s.stack, s.console)
        match s.stack with
        | .writeIo c :: _ =>
            if s.tx.length < depth then some { s with stack, console, tx := s.tx ++ [c] }
            else some { s with stack, console, lost := s.lost + 1 }
        | _ => some { s with stack, console }
      else none
  | .transmit =>
      match s.tx with
      | [] => none
      | c :: tx => some { s with tx, sent := s.sent ++ [c] }
  | .irq i => some { s with stack := .interruptHandler i :: s.stack }

end Console

end Rpi2Baremetal
