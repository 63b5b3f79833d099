import Rpi2Baremetal.Model.SpinLock
import Mathlib.Tactic

/-!
# Mutual exclusion of the lock routines

The invariant has one conjunct for every instruction of the two routines (`LockCore.Inv`): it
relates the registers, the flag and the monitor of a core to the lock word and to the core's
history.  It is stable under stores of other cores because they clear the monitor, which is
where an acquisition and release between `ldrex` and `strexeq` is rejected.  Globally at most
one core has stored without releasing, and the word says whether one has.
-/

namespace Rpi2Baremetal

namespace Boot

open Framework

/-! ## The invariant of one core -/

namespace LockCore

/-- The history of a core inside `_spin_req`: `won` says whether its `strexeq` has
succeeded. -/
def Acquiring (c : LockCore) (won : Bool) : Prop :=
  if won then c.stored = true ∧ c.critical = false else c.stored = c.critical

/-- The history of a core inside `_spin_rel`. -/
def Releasing (c : LockCore) (won : Bool) : Prop := c.stored = !won ∧ c.critical = !won

/-- What holds of a core before each of its instructions, the lock word being `w`. -/
def Inv (w : Word) (c : LockCore) : Prop :=
  match c.routine, c.pc with
  | none, _ => c.stored = c.critical
  | some .spinReq, 0 => c.Acquiring false
  | some .spinReq, 1 => c.r1 = 1 ∧ c.Acquiring false
  | some .spinReq, 2 => c.r1 = 1 ∧ c.Acquiring false ∧ (c.monitor → c.r2 = w)
  | some .spinReq, 3 => c.r1 = 1 ∧ c.Acquiring false ∧ (c.z → c.monitor → w = 0)
  | some .spinReq, 4 => c.r1 = 1 ∧ c.Acquiring (c.z && c.r2 == 0)
  | some .spinReq, 5 => c.r1 = 1 ∧ c.Acquiring c.z
  | some .spinReq, 6 => c.Acquiring true
  | some .spinReq, 7 => c.Acquiring true
  | some .spinRel, 0 => c.Releasing false
  | some .spinRel, 1 => c.r1 = 0 ∧ c.Releasing false
  | some .spinRel, 2 => c.r1 = 0 ∧ c.Releasing false
  | some .spinRel, 3 => c.r1 = 0 ∧ c.Releasing false
  | some .spinRel, 4 => c.r1 = 0 ∧ c.Releasing false
  | some .spinRel, 5 => c.r1 = 0 ∧ c.Releasing (c.z && c.r2 == 0)
  | some .spinRel, 6 => c.r1 = 0 ∧ c.Releasing c.z
  | some .spinRel, 7 => c.Releasing true
  | some .spinRel, 8 => c.Releasing true
  | some _, _ => False

variable {w : Word} {c : LockCore}

lemma Acquiring.stored_of_critical {won : Bool} (h : c.Acquiring won) (hc : c.critical) :
    c.stored := by
  cases won <;> simp_all [Acquiring]

lemma Releasing.stored_of_critical {won : Bool} (h : c.Releasing won) (hc : c.critical) :
    c.stored := by
  simp_all [Releasing]

/-- A core between its `_spin_req` and the store of its `_spin_rel` has stored. -/
lemma Inv.stored_of_critical (h : c.Inv w) (hc : c.critical) : c.stored := by
  unfold Inv at h
  split at h <;> first
    | exact h ▸ hc
    | exact h.stored_of_critical hc
    | exact h.2.stored_of_critical hc
    | exact h.2.1.stored_of_critical hc
    | exact h.elim

/-- A store of another core to the lock word keeps the invariant: it clears the monitor. -/
lemma Inv.clear (h : c.Inv w) (w' : Word) : { c with monitor := false }.Inv w' := by
  unfold Inv at h ⊢
  split at h <;> simp_all [Acquiring, Releasing]

lemma fetch_spinReq (hr : c.routine = some .spinReq) : c.fetch = spinReqCode[c.pc]? := by
  simp [fetch, hr]

lemma fetch_spinRel (hr : c.routine = some .spinRel) : c.fetch = spinRelCode[c.pc]? := by
  simp [fetch, hr]

lemma storing_strexeq {rd rt : Reg} (hf : c.fetch = some (.strexeq rd rt)) :
    c.storing = if c.z && c.monitor then some rt else none := by
  simp [storing, hf]

/-- A core that stores is at a `strexeq` with its flag and its monitor set. -/
lemma storing_eq_some {rt : Reg} (h : c.storing = some rt) :
    ∃ rd, c.fetch = some (.strexeq rd rt) ∧ c.z ∧ c.monitor := by
  unfold storing at h
  split at h
  · rename_i rd rt' hf
    split_ifs at h with hzm
    · obtain rfl := Option.some.inj h
      exact ⟨rd, hf, by simpa using hzm⟩
  · simp at h

/-! ## One instruction -/

/-- An instruction of `_spin_req` that does not store keeps the invariant of its core. -/
lemma Inv.exec_spinReq {instr : Instr} (h : c.Inv w) (hr : c.routine = some .spinReq)
    (hf : c.fetch = some instr) (hs : c.storing = none) :
    (c.exec w instr).Inv w ∧ (c.exec w instr).stored = c.stored := by
  have hstore := fun rd rt (h : instr = .strexeq rd rt) => storing_strexeq (h ▸ hf)
  rw [fetch_spinReq hr] at hf
  obtain ⟨routine, pc, r1, r2, z, monitor, stored, critical⟩ := c
  obtain rfl : routine = some .spinReq := hr
  match pc with
  | 0 =>
      obtain rfl := Option.some.inj hf
      simpa [exec, Inv, Acquiring] using h
  | 1 =>
      obtain rfl := Option.some.inj hf
      simpa [exec, Inv, Acquiring] using h
  | 2 =>
      -- the flag records that the word read was 0, and the monitor that it still is
      obtain rfl := Option.some.inj hf
      obtain ⟨h1, h2, hm⟩ := h
      refine ⟨⟨h1, h2, fun hz hset => ?_⟩, rfl⟩
      rw [← hm hset]
      simpa [exec] using hz
  | 3 =>
      obtain rfl := Option.some.inj hf
      have hzm : ¬ (z = true ∧ monitor = true) := by simpa [hstore _ _ rfl] using hs
      obtain ⟨h1, h2, -⟩ := h
      cases z <;> cases monitor <;> simp_all [exec, Inv, Acquiring]
  | 4 =>
      obtain rfl := Option.some.inj hf
      cases z <;> simpa [exec, Inv, Acquiring] using h
  | 5 =>
      obtain rfl := Option.some.inj hf
      cases z <;> simp_all [exec, Inv, Acquiring]
  | 6 =>
      obtain rfl := Option.some.inj hf
      simpa [exec, Inv, Acquiring] using h
  | 7 =>
      obtain rfl := Option.some.inj hf
      simp_all [exec, Inv, Acquiring]
  | _ + 8 => exact h.elim

/-- An instruction of `_spin_rel` that does not store keeps the invariant of its core. -/
lemma Inv.exec_spinRel {instr : Instr} (h : c.Inv w) (hr : c.routine = some .spinRel)
    (hf : c.fetch = some instr) (hs : c.storing = none) :
    (c.exec w instr).Inv w ∧ (c.exec w instr).stored = c.stored := by
  have hstore := fun rd rt (h : instr = .strexeq rd rt) => storing_strexeq (h ▸ hf)
  rw [fetch_spinRel hr] at hf
  obtain ⟨routine, pc, r1, r2, z, monitor, stored, critical⟩ := c
  obtain rfl : routine = some .spinRel := hr
  match pc with
  | 0 =>
      obtain rfl := Option.some.inj hf
      simpa [exec, Inv, Releasing] using h
  | 1 =>
      obtain rfl := Option.some.inj hf
      simpa [exec, Inv, Releasing] using h
  | 2 =>
      obtain rfl := Option.some.inj hf
      simpa [exec, Inv, Releasing] using h
  | 3 =>
      obtain rfl := Option.some.inj hf
      simpa [exec, Inv, Releasing] using h
  | 4 =>
      obtain rfl := Option.some.inj hf
      have hzm : ¬ (z = true ∧ monitor = true) := by simpa [hstore _ _ rfl] using hs
      cases z <;> cases monitor <;> simp_all [exec, Inv, Releasing]
  | 5 =>
      obtain rfl := Option.some.inj hf
      cases z <;> simpa [exec, Inv, Releasing] using h
  | 6 =>
      obtain rfl := Option.some.inj hf
      cases z <;> simp_all [exec, Inv, Releasing]
  | 7 =>
      obtain rfl := Option.some.inj hf
      simpa [exec, Inv, Releasing] using h
  | 8 =>
      obtain rfl := Option.some.inj hf
      simp_all [exec, Inv, Releasing]
  | _ + 9 => exact h.elim

/-- The store of `_spin_req` writes 1 over 0, and the core had not stored before. -/
lemma Inv.store_spinReq {instr : Instr} {rt : Reg} (h : c.Inv w)
    (hr : c.routine = some .spinReq) (hf : c.fetch = some instr) (hs : c.storing = some rt) :
    w = 0 ∧ c.reg rt = 1 ∧ c.stored = c.critical ∧ (c.exec w instr).stored = true ∧
      (c.critical = false → ∀ w', (c.exec w instr).Inv w') := by
  obtain ⟨rd, hstrex, hz, hm⟩ := storing_eq_some hs
  obtain rfl := Option.some.inj (hf.symm.trans hstrex)
  rw [fetch_spinReq hr] at hf
  obtain ⟨routine, pc, r1, r2, z, monitor, stored, critical⟩ := c
  obtain rfl : routine = some .spinReq := hr
  match pc with
  | 3 =>
      obtain ⟨rfl, rfl⟩ : Reg.r2 = rd ∧ Reg.r1 = rt := by simpa [spinReqCode] using hf
      obtain ⟨h1, h2, hw⟩ := h
      refine ⟨hw hz hm, h1, h2, ?_, fun hc w' => ?_⟩ <;>
        simp_all [exec, Inv, Acquiring]
  | 0 | 1 | 2 | 4 | 5 | 6 | 7 => simp [spinReqCode] at hf
  | _ + 8 => exact h.elim

/-- The store of `_spin_rel` writes 0, and the core was the one that had stored. -/
lemma Inv.store_spinRel {instr : Instr} {rt : Reg} (h : c.Inv w)
    (hr : c.routine = some .spinRel) (hf : c.fetch = some instr) (hs : c.storing = some rt) :
    c.reg rt = 0 ∧ c.stored = true ∧ (c.exec w instr).stored = false ∧
      ∀ w', (c.exec w instr).Inv w' := by
  obtain ⟨rd, hstrex, hz, hm⟩ := storing_eq_some hs
  obtain rfl := Option.some.inj (hf.symm.trans hstrex)
  rw [fetch_spinRel hr] at hf
  obtain ⟨routine, pc, r1, r2, z, monitor, stored, critical⟩ := c
  obtain rfl : routine = some .spinRel := hr
  match pc with
  | 4 =>
      obtain ⟨rfl, rfl⟩ : Reg.r2 = rd ∧ Reg.r1 = rt := by simpa [spinRelCode] using hf
      obtain ⟨h1, h2, h3⟩ := h
      refine ⟨h1, h2, ?_, fun w' => ?_⟩ <;> simp_all [exec, Inv, Releasing]
  | 0 | 1 | 2 | 3 | 5 | 6 | 7 | 8 => simp [spinRelCode] at hf
  | _ + 9 => exact h.elim

end LockCore

/-! ## All cores -/

namespace LockState

variable {ι : Type*} [DecidableEq ι] {s : LockState ι}

/-- Every core is as its instruction requires, at most one has stored without releasing, and
the word says whether one has. -/
structure Inv (s : LockState ι) : Prop where
  core : ∀ i, (s.core i).Inv s.word
  excl : ∀ i j, (s.core i).stored → (s.core j).stored → i = j
  word : s.word = 1 ∧ (∃ i, (s.core i).stored) ∨ s.word = 0 ∧ ∀ i, (s.core i).stored = false

omit [DecidableEq ι] in
lemma Initial.inv (h : s.Initial) : s.Inv where
  core i := by simp [LockCore.Inv, h.outside, h.not_stored, h.not_critical]
  excl i j hi := by simp [h.not_stored] at hi
  word := .inr ⟨h.word, h.not_stored⟩

/-- A core that keeps its own invariant and history keeps that of the system. -/
lemma Inv.set (h : s.Inv) {i : ι} {c : LockCore} (hc : c.Inv s.word)
    (hst : c.stored = (s.core i).stored) : (s.set i c).Inv := by
  have hstored : ∀ j, ((s.set i c).core j).stored = (s.core j).stored := by
    intro j
    by_cases hj : j = i <;> simp [LockState.set, Function.update, hj, hst]
  constructor
  · intro j
    by_cases hj : j = i
    · subst hj
      simpa [LockState.set] using hc
    · simpa [LockState.set, hj] using h.core j
  · intro j k
    rw [hstored, hstored]
    exact h.excl j k
  · simp only [hstored]
    exact h.word

lemma stored_store (i j : ι) (v : Word) (c : LockCore) :
    ((s.store i v c).core j).stored = if j = i then c.stored else (s.core j).stored := by
  by_cases hj : j = i <;> simp [LockState.store, Function.update, hj]

lemma Inv.core_store (h : s.Inv) {i : ι} {v : Word} {c : LockCore} (hc : c.Inv v) (j : ι) :
    ((s.store i v c).core j).Inv v := by
  by_cases hj : j = i
  · subst hj
    simpa [LockState.store] using hc
  · simpa [LockState.store, hj] using (h.core j).clear v

/-- The store of an acquisition keeps the invariant of the system. -/
lemma Inv.acquire (h : s.Inv) {i : ι} {c : LockCore} (hw : s.word = 0) (hc : c.Inv 1)
    (hst : c.stored) : (s.store i 1 c).Inv := by
  have hnone : ∀ j, (s.core j).stored = false := by
    rcases h.word with ⟨h1, -⟩ | ⟨-, h0⟩
    · rw [hw] at h1
      exact absurd h1 (by decide)
    · exact h0
  constructor
  · exact h.core_store hc
  · intro j k hj hk
    simp only [stored_store, hnone] at hj hk
    split_ifs at hj hk with h1 h2
    · rw [h1, h2]
  · exact .inl ⟨rfl, i, by simpa [stored_store] using hst⟩

/-- The store of a release by the core that has the lock keeps the invariant of the
system. -/
lemma Inv.release (h : s.Inv) {i : ι} {c : LockCore} (hi : (s.core i).stored) (hc : c.Inv 0)
    (hst : c.stored = false) : (s.store i 0 c).Inv := by
  have hother : ∀ j, ((s.store i 0 c).core j).stored = false := by
    intro j
    rw [stored_store]
    split_ifs with hj
    · exact hst
    · exact Bool.eq_false_iff.mpr fun hjs => hj (h.excl j i hjs hi)
  constructor
  · exact h.core_store hc
  · intro j k hj
    rw [hother] at hj
    exact absurd hj (by decide)
  · exact .inr ⟨rfl, hother⟩

omit [DecidableEq ι] in
/-- No core is in its critical section while the word is 0. -/
lemma Inv.not_critical_of_word (h : s.Inv) (hw : s.word = 0) (i : ι) :
    (s.core i).critical = false := by
  rcases h.word with ⟨h1, -⟩ | ⟨-, h0⟩
  · rw [hw] at h1
    exact absurd h1 (by decide)
  · refine Bool.eq_false_iff.mpr fun hc => ?_
    have hs := (h.core i).stored_of_critical hc
    simp [h0 i] at hs

/-- One instruction of a core keeps the invariant. -/
lemma Inv.instr (h : s.Inv) {i : ι} {s' : LockState ι}
    (hs : lockStep s (i, .instr) = some s') : s'.Inv := by
  obtain ⟨instr, hf, rfl⟩ := Option.map_eq_some_iff.mp hs
  have hi := h.core i
  obtain ⟨f, hr⟩ : ∃ f, (s.core i).routine = some f := by
    cases hr : (s.core i).routine with
    | none => simp [LockCore.fetch, hr] at hf
    | some f => exact ⟨f, rfl⟩
  cases hst : (s.core i).storing with
  | none =>
      obtain ⟨hinv, hkeep⟩ : ((s.core i).exec s.word instr).Inv s.word ∧
          ((s.core i).exec s.word instr).stored = (s.core i).stored := by
        cases f with
        | spinReq => exact hi.exec_spinReq hr hf hst
        | spinRel => exact hi.exec_spinRel hr hf hst
      exact h.set hinv hkeep
  | some rt =>
      cases f with
      | spinReq =>
          obtain ⟨hw, hv, -, hstored, hinv⟩ := hi.store_spinReq hr hf hst
          simp only [hv]
          exact h.acquire hw (hinv (h.not_critical_of_word hw i) 1) hstored
      | spinRel =>
          obtain ⟨hv, hstored, hst', hinv⟩ := hi.store_spinRel hr hf hst
          simp only [hv]
          exact h.release hstored (hinv 0) hst'

/-- Every step keeps the invariant. -/
lemma Inv.step (h : s.Inv) {a : ι × LockAction} {s' : LockState ι}
    (hs : lockStep s a = some s') : s'.Inv := by
  obtain ⟨i, a⟩ := a
  have hi := h.core i
  cases a with
  | callReq =>
      simp only [lockStep, Option.ite_none_right_eq_some] at hs
      obtain ⟨hout, heq⟩ := hs
      obtain rfl := Option.some.inj heq
      refine h.set ?_ rfl
      simpa [LockCore.Inv, LockCore.Acquiring, hout] using hi
  | callRel =>
      simp only [lockStep, Option.ite_none_right_eq_some] at hs
      obtain ⟨⟨hout, hcrit⟩, heq⟩ := hs
      obtain rfl := Option.some.inj heq
      refine h.set ?_ rfl
      have hst := hi.stored_of_critical hcrit
      simpa [LockCore.Inv, LockCore.Releasing] using And.intro hst hcrit
  | instr => exact h.instr hs

end LockState

/-! ## Mutual exclusion -/

/-- What the locking protocol promises in one state: no two cores are between the return of
their `_spin_req` and the store of their `_spin_rel`, the word is 1 exactly when a core has
stored and not released, and a release about to store meets no other core's acquisition. -/
structure LockSafe {ι : Type*} (s : LockState ι) : Prop where
  mutex : ∀ i j, (s.core i).critical → (s.core j).critical → i = j
  word : s.word = 1 ↔ ∃ i, (s.core i).stored
  release : ∀ i, (s.core i).routine = some .spinRel → (s.core i).storing.isSome →
    (s.core i).stored ∧ ∀ j, j ≠ i → (s.core j).stored = false

lemma LockState.Inv.safe {ι : Type*} {s : LockState ι} (h : s.Inv) : LockSafe s where
  mutex i j hi hj :=
    h.excl i j ((h.core i).stored_of_critical hi) ((h.core j).stored_of_critical hj)
  word := by
    rcases h.word with ⟨h1, hex⟩ | ⟨h0, hall⟩
    · exact iff_of_true h1 hex
    · simp [h0, hall]
  release i hr hst := by
    obtain ⟨rt, hrt⟩ := Option.isSome_iff_exists.mp hst
    obtain ⟨rd, hf, -⟩ := LockCore.storing_eq_some hrt
    obtain ⟨-, hi, -⟩ := (h.core i).store_spinRel hr hf hrt
    exact ⟨hi, fun j hj => Bool.eq_false_iff.mpr fun hjs => hj (h.excl j i hjs hi)⟩

/-- **Mutual exclusion.**  In every interleaving of the instructions of the lock routines on
any number of cores. -/
theorem spin_lock_safe {ι : Type*} [DecidableEq ι] {s s' : LockState ι}
    {ls : List (ι × LockAction)} (h0 : s.Initial)
    (hr : Run (fun s a s' => lockStep s a = some s') s ls s') : LockSafe s' :=
  (hr.invariant (fun _ _ _ hI hs => hI.step hs) h0.inv).safe

/-- Two cores outside both routines, with their monitors set and arbitrary registers. -/
def twoCores : LockState (Fin 2) where
  word := 0
  core _ := ⟨none, 5, 7, 9, true, true, false, false⟩

/-- Both cores race for the lock; core 0 wins it, releases it, and core 1 gets it. -/
def twoCoresSchedule : List (Fin 2 × LockAction) :=
  let steps (i : Fin 2) (n : ℕ) := List.replicate n (i, LockAction.instr)
  (0, .callReq) :: (1, .callReq) :: steps 1 3 ++ steps 0 8 ++ steps 1 6
    ++ (0, .callRel) :: steps 0 9 ++ steps 1 9

/-- The schedule ends with core 1 alone in its critical section. -/
theorem spin_lock_safe_twoCores :
    ∃ s', Run (fun s a s' => lockStep s a = some s') twoCores twoCoresSchedule s' ∧
      (s'.core 1).critical ∧ LockSafe s' := by
  refine ⟨((twoCoresSchedule.foldlM lockStep twoCores).get rfl), ?_, rfl, ?_⟩
  · exact Run.of_foldlM (Option.some_get rfl).symm
  · exact spin_lock_safe ⟨rfl, fun _ => rfl, fun _ => rfl, fun _ => rfl⟩
      (Run.of_foldlM (Option.some_get rfl).symm)

end Boot

end Rpi2Baremetal
