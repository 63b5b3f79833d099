import Rpi2Baremetal.Model.Console

/-!
# Received characters

`aux_int_handler` with the receive FIFO of the mini UART.  Characters arrive at any time, also
between two accesses of the handler.  The FIFO holds `depth` of them, and one that finds it full is
lost.  `mini_uart_init` leaves the transmit interrupt disabled, so that an interrupt is pending
exactly while the FIFO holds a character.
-/

namespace Rpi2Baremetal

open Framework

namespace Console

structure ReceiveState where
  /-- What is left of an execution of `aux_int_handler`, and nothing outside. -/
  stack : List Cmd
  console : State
  rx : List Byte
  /-- The characters that the FIFO has taken so far. -/
  received : List Byte
  lost : ℕ
  /-- The commands executed so far, but for those that wait for the transmitter. -/
  executed : ℕ

/-- The FIFO is empty and `aux_int_handler` not executing. -/
def ReceiveState.start (console : State) : ReceiveState where
  stack := []
  console := console
  rx := []
  received := []
  lost := 0
  executed := 0

/-- What `MU_IIR`, `MU_LSR` and `MU_IO` have to do with the receive FIFO.  Their other bits can be
anything. -/
def RxShows (rx : List Byte) (iir lsr io : Word) : Prop :=
  iir &&& 7 = (if rx = [] then 1 else 4) ∧ lsr &&& 1 = (if rx = [] then 0 else 1) ∧
    ∀ c ∈ rx.head?, io.setWidth 8 = c

instance (rx : List Byte) (iir lsr io : Word) : Decidable (RxShows rx iir lsr io) :=
  inferInstanceAs (Decidable (_ ∧ _ ∧ _))

/-- Surroundings in which the registers of the mini UART have these values. -/
def Env.withUart (env : Env) (iir lsr io : Word) : Env :=
  { env with muIir := fun _ => iir, muLsr := fun _ => lsr, muIo := fun _ => io }

/-- The next command waits for the transmitter: `uart_send` finds bit 5 of `MU_LSR` clear. -/
def waitsTx (lsr : Word) : List Cmd → Bool
  | .waitTxEmpty :: _ => lsr &&& 0x20 = 0
  | _ => false

/-- A step: a character arrives, `aux_int_handler` is called, or it executes a command while the
registers have these values. -/
inductive ReceiveAct where
  | arrive (c : Byte)
  | interrupt
  | exec (iir lsr io : Word)
  deriving DecidableEq

def receiveStep (env : Env) (depth : ℕ) (s : ReceiveState) : ReceiveAct → Option ReceiveState
  | .arrive c =>
      if s.rx.length < depth then
        some { s with rx := s.rx ++ [c], received := s.received ++ [c] }
      else some { s with lost := s.lost + 1 }
  | .interrupt => if s.stack.isEmpty then some { s with stack := [.auxIntHandler] } else none
  | .exec iir lsr io =>
      if RxShows s.rx iir lsr io ∧ s.stack.isEmpty = false then
        let (stack, console) :=
          CallStack.step (Console.exec (env.withUart iir lsr io)) (s.stack, s.console)
        -- reading `MU_IO` takes the character
        let rx := match s.stack with
          | .echoIo :: _ => s.rx.tail
          | _ => s.rx
        let executed := if waitsTx lsr s.stack then s.executed else s.executed + 1
        some { s with stack, console, rx, executed }
      else none

end Console

end Rpi2Baremetal
