import Rpi2Baremetal.Properties.SpinLock

/-!
# What one step of a lock routine does

An instruction changes the routine and the history of the executing core only; of the other
cores it may clear the monitors.  The executing core stays in its routine until `bx lr`, and its
history tells a caller whether it then has the lock.
-/

namespace Rpi2Baremetal

namespace Boot

namespace LockCore

variable {w : Word} {c : LockCore} {instr : Instr}

/-- An instruction that leaves the routine is `bx lr`. -/
lemma exec_routine (c : LockCore) (w : Word) (instr : Instr) :
    (c.exec w instr).routine = c.routine ∨
      instr = .bxLr ∧ (c.exec w instr).routine = none := by
  cases instr with
  | mov rd => cases rd <;> exact .inl rfl
  | ldrex rt => cases rt <;> exact .inl rfl
  | strexeq rd rt =>
      left
      unfold exec
      cases rd <;> split_ifs <;> cases hr : c.routine with
      | none => simp [hr]
      | some f => cases f <;> simp [hr]
  | cmpeq => left; unfold exec; split_ifs <;> rfl
  | bne => left; unfold exec; split_ifs <;> rfl
  | bxLr => exact .inr ⟨rfl, rfl⟩
  | _ => exact .inl rfl

/-- The instructions of `_spin_req` other than `bx lr` do not touch the critical section. -/
lemma exec_critical_spinReq (w : Word) (instr : Instr) (hr : c.routine = some .spinReq) :
    instr = .bxLr ∨ (c.exec w instr).critical = c.critical := by
  cases instr with
  | mov rd => cases rd <;> exact .inr rfl
  | ldrex rt => cases rt <;> exact .inr rfl
  | strexeq rd rt =>
      right
      unfold exec
      cases rd <;> split_ifs <;> simp [hr]
  | cmpeq => right; unfold exec; split_ifs <;> rfl
  | bne => right; unfold exec; split_ifs <;> rfl
  | bxLr => exact .inl rfl
  | _ => exact .inr rfl

/-- `_spin_req` goes on, or it returns into the critical section. -/
lemma exec_spinReq (hr : c.routine = some .spinReq) :
    (c.exec w instr).routine = some .spinReq ∧ (c.exec w instr).critical = c.critical ∨
      (c.exec w instr).routine = none ∧ (c.exec w instr).critical = true := by
  rcases c.exec_routine w instr with hsame | ⟨rfl, hnone⟩
  · rcases exec_critical_spinReq w instr hr with rfl | hcrit
    · simp [exec, hr] at hsame
    · exact .inl ⟨hsame.trans hr, hcrit⟩
  · exact .inr ⟨hnone, by simp [exec, hr]⟩

/-- `_spin_rel` is at its `bx lr` only when the core has left the critical section. -/
lemma Inv.bxLr_spinRel (h : c.Inv w) (hr : c.routine = some .spinRel)
    (hf : c.fetch = some .bxLr) : c.critical = false := by
  rw [fetch_spinRel hr] at hf
  obtain ⟨routine, pc, r1, r2, z, monitor, stored, critical⟩ := c
  obtain rfl : routine = some .spinRel := hr
  match pc with
  | 8 => exact h.2
  | 0 | 1 | 2 | 3 | 4 | 5 | 6 | 7 => simp [spinRelCode] at hf
  | _ + 9 => exact h.elim

/-- `_spin_rel` goes on, or it returns outside the critical section. -/
lemma Inv.exec_spinRel_cases (h : c.Inv w) (hr : c.routine = some .spinRel)
    (hf : c.fetch = some instr) :
    (c.exec w instr).routine = some .spinRel ∨
      (c.exec w instr).routine = none ∧ (c.exec w instr).critical = false := by
  rcases c.exec_routine w instr with hsame | ⟨rfl, hnone⟩
  · exact .inl (hsame.trans hr)
  · exact .inr ⟨hnone, by simpa [exec, hr] using h.bxLr_spinRel hr hf⟩

end LockCore

/-! ## Steps -/

variable {ι : Type*} [DecidableEq ι] {s s' : LockState ι} {i : ι}

/-- A step of another core leaves a core alone, unless it stores: then it clears the monitor. -/
lemma lockStep_core_of_ne {a : LockAction} (h : lockStep s (i, a) = some s') {j : ι}
    (hj : j ≠ i) : s'.core j = s.core j ∨
      s'.core j = { s.core j with monitor := false } ∧ (s.core i).storing.isSome := by
  cases a with
  | callReq =>
      simp only [lockStep, Option.ite_none_right_eq_some] at h
      obtain ⟨-, heq⟩ := h
      obtain rfl := Option.some.inj heq
      simp [LockState.set, hj]
  | callRel =>
      simp only [lockStep, Option.ite_none_right_eq_some] at h
      obtain ⟨-, heq⟩ := h
      obtain rfl := Option.some.inj heq
      simp [LockState.set, hj]
  | instr =>
      obtain ⟨instr, -, rfl⟩ := Option.map_eq_some_iff.mp h
      dsimp only
      split
      · rename_i rt hst
        exact .inr ⟨by simp [LockState.store, hj], by rw [hst]; rfl⟩
      · exact .inl (by simp [LockState.set, hj])

/-- A step of another core leaves the routine and the critical section of a core alone. -/
lemma lockStep_other {a : LockAction} (h : lockStep s (i, a) = some s') {j : ι} (hj : j ≠ i) :
    (s'.core j).routine = (s.core j).routine ∧ (s'.core j).critical = (s.core j).critical := by
  rcases lockStep_core_of_ne h hj with heq | ⟨heq, -⟩ <;> simp [heq]

omit [DecidableEq ι] in
/-- A core that is about to store is the only one that can have stored. -/
lemma LockState.Inv.storing_excl (h : s.Inv) {j : ι} (hst : (s.core i).storing.isSome)
    (hj : (s.core j).stored) : j = i := by
  obtain ⟨rt, hrt⟩ := Option.isSome_iff_exists.mp hst
  obtain ⟨rd, hf, -⟩ := LockCore.storing_eq_some hrt
  cases hr : (s.core i).routine with
  | none => simp [LockCore.fetch, hr] at hf
  | some f =>
      cases f with
      | spinReq =>
          obtain ⟨hw, -⟩ := (h.core i).store_spinReq hr hf hrt
          rcases h.word with ⟨h1, -⟩ | ⟨-, h0⟩
          · rw [hw] at h1
            exact absurd h1 (by decide)
          · rw [h0 j] at hj
            exact absurd hj (by decide)
      | spinRel => exact h.excl j i hj ((h.core i).store_spinRel hr hf hrt).2.1

/-- A call of `_spin_req` is one of a core outside both routines. -/
lemma lockStep_callReq (h : lockStep s (i, .callReq) = some s') :
    (s'.core i).routine = some .spinReq ∧ (s'.core i).critical = (s.core i).critical := by
  simp only [lockStep, Option.ite_none_right_eq_some] at h
  obtain ⟨-, heq⟩ := h
  obtain rfl := Option.some.inj heq
  simp [LockState.set]

lemma lockStep_callRel (h : lockStep s (i, .callRel) = some s') :
    (s'.core i).routine = some .spinRel := by
  simp only [lockStep, Option.ite_none_right_eq_some] at h
  obtain ⟨-, heq⟩ := h
  obtain rfl := Option.some.inj heq
  simp [LockState.set]

/-- The executing core after one of its instructions. -/
lemma lockStep_instr (h : lockStep s (i, .instr) = some s') :
    ∃ instr, (s.core i).fetch = some instr ∧ s'.core i = (s.core i).exec s.word instr := by
  obtain ⟨instr, hf, rfl⟩ := Option.map_eq_some_iff.mp h
  refine ⟨instr, hf, ?_⟩
  dsimp only
  split <;> simp [LockState.set, LockState.store]

/-- An instruction of `_spin_req`, for its caller. -/
lemma lockStep_spinReq (h : lockStep s (i, .instr) = some s')
    (hr : (s.core i).routine = some .spinReq) :
    (s'.core i).routine = some .spinReq ∧ (s'.core i).critical = (s.core i).critical ∨
      (s'.core i).routine = none ∧ (s'.core i).critical = true := by
  obtain ⟨instr, -, heq⟩ := lockStep_instr h
  rw [heq]
  exact LockCore.exec_spinReq hr

/-- An instruction of `_spin_rel`, for its caller. -/
lemma lockStep_spinRel (hI : s.Inv) (h : lockStep s (i, .instr) = some s')
    (hr : (s.core i).routine = some .spinRel) :
    (s'.core i).routine = some .spinRel ∨
      (s'.core i).routine = none ∧ (s'.core i).critical = false := by
  obtain ⟨instr, hf, heq⟩ := lockStep_instr h
  rw [heq]
  exact (hI.core i).exec_spinRel_cases hr hf

end Boot

end Rpi2Baremetal

