import Rpi2Baremetal.Model.Arm
import Mathlib.Tactic

/-!
# Frames of the exception handlers

A handler stores registers and its return address below the stack pointer of its mode, calls a C
function, and returns through the frame.  A frame reads back as it was stored
(`loadWords_storeWords`), a function that obeys the procedure-call standard leaves it alone
(`Machine.Returns.kept`), and the exception return takes everything from it and from the saved
status register (`exec_ldmfdPc`).
-/

namespace Rpi2Baremetal

namespace Arm

open Framework

/-! ## Words on a stack -/

lemma storeWords_of_ne (m : Mem) (a b : Word) (ws : List Word)
    (h : ∀ k < ws.length, a + .ofNat 32 (4 * k) ≠ b) : storeWords m a ws b = m b := by
  induction ws generalizing m a with
  | nil => rfl
  | cons w ws ih =>
      have h0 : a ≠ b := by simpa using h 0 (by simp)
      rw [storeWords, ih, Memory.write_of_ne _ _ h0.symm]
      intro k hk
      have := h (k + 1) (by simpa using hk)
      rwa [Nat.mul_succ, Nat.add_comm, BitVec.ofNat_add, ← BitVec.add_assoc] at this

/-- A frame that does not wrap around the address space reads back as it was stored. -/
lemma loadWords_storeWords (m : Mem) (a : Word) (ws : List Word)
    (h : 4 * ws.length ≤ 2 ^ 32) : loadWords (storeWords m a ws) a ws.length = ws := by
  induction ws generalizing m a with
  | nil => rfl
  | cons w ws ih =>
      rw [List.length_cons] at h
      have hkeep : storeWords (m.write a w) (a + 4) ws a = w := by
        rw [storeWords_of_ne, Memory.write_same]
        intro k hk heq
        have h4 : a + 4 + .ofNat 32 (4 * k) = a + .ofNat 32 (4 * (k + 1)) := by
          rw [Nat.mul_succ, Nat.add_comm, BitVec.ofNat_add, ← BitVec.add_assoc]
          rfl
        rw [h4] at heq
        have := congrArg BitVec.toNat heq
        have hlt := a.isLt
        simp only [BitVec.toNat_add, BitVec.toNat_ofNat] at this
        omega
      rw [List.length_cons, loadWords, storeWords, hkeep, ih _ _ (by omega)]

/-- Loading registers from the values of a function gives them those values. -/
lemma setRegs_map (r f : Fin 13 → Word) (rs : List (Fin 13)) (ws : List Word) (k : Fin 13) :
    setRegs r rs (rs.map f ++ ws) k = if k ∈ rs then f k else r k := by
  induction rs generalizing r with
  | nil => simp [setRegs]
  | cons j rs ih =>
      have := ih (Function.update r j (f j))
      simp only [setRegs, List.map_cons, List.cons_append, List.zip_cons_cons,
        List.foldl_cons] at this ⊢
      rw [this]
      by_cases hk : k ∈ rs <;> by_cases hj : k = j <;> simp_all

/-! ## A handler's way through its frame -/

variable {s t : Machine} {md : Mode} {rs : List (Fin 13)}

lemma sp_of_mode (hmode : s.cpsr.mode = md) (hbank : md.bank = md) : s.sp = s.bankedSp md := by
  rw [Machine.sp, hmode, hbank]

lemma exec_stmfd_mem (s : Machine) (rs : List (Fin 13)) :
    (s.exec (.stmfd rs)).mem = storeWords s.mem (s.sp - frameSize rs) (rs.map s.r ++ [s.lr]) :=
  rfl

/-- What a handler in a mode with a bank of its own still has after a call. -/
lemma Machine.Returns.kept {n : ℕ} (h : s.Returns n t) (hmode : s.cpsr.mode = md)
    (hbank : md.bank = md) :
    t.cpsr.mode = md ∧ t.spsr md = s.spsr md ∧
      loadWords t.mem (t.bankedSp md) n = loadWords s.mem (s.bankedSp md) n := by
  have hspsr := h.spsr
  have hframe := h.frame
  rw [hmode] at hspsr
  rw [sp_of_mode hmode hbank] at hframe
  refine ⟨h.mode.trans hmode, hspsr, ?_⟩
  rw [h.sp]
  exact hframe

/-- The exception return from a frame that holds the registers of `r` and an address, where `sp`
are the stack pointers without the frame. -/
lemma exec_ldmfdPc {r : Fin 13 → Word} {a : Word} {sp : Mode → Word}
    (hmode : t.cpsr.mode = md) (hbank : md.bank = md)
    (hframe : loadWords t.mem (t.bankedSp md) (rs.length + 1) = rs.map r ++ [a])
    (hsp : t.bankedSp md + frameSize rs = sp md)
    (hother : ∀ b, b ≠ md → t.bankedSp b = sp b) :
    t.exec (.ldmfdPc rs) = { t with
      r := fun k => if k ∈ rs then r k else t.r k
      bankedSp := sp
      cpsr := t.spsr md
      pc := a } := by
  have htsp := sp_of_mode hmode hbank
  have hregs : setRegs t.r rs (rs.map r ++ [a]) = fun k => if k ∈ rs then r k else t.r k :=
    funext (setRegs_map t.r r rs [a])
  have hup : Function.update t.bankedSp md (sp md) = sp := by
    funext b
    by_cases hb : b = md
    · rw [hb, Function.update_self]
    · rw [Function.update_of_ne hb, hother b hb]
  simp only [Machine.exec, Machine.setSp, htsp, hframe, hsp, hmode, hbank, hregs, hup,
    List.getLastD_concat]

/-- `r4` and above are not `r0`. -/
lemma ne_zero_of_saved {k : Fin 13} (hk : 4 ≤ k.val) : k ≠ 0 := by
  rintro rfl
  exact absurd hk (by decide)

end Arm

end Rpi2Baremetal
