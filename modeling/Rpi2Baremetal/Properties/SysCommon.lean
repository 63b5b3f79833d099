import Rpi2Baremetal.Model.SysCommon
import Rpi2Baremetal.Properties.SpinLockSteps
import Mathlib.Data.BitVec

/-!
# `SysCommonInfo` is an atomic object

The relation `Sim` ties the cores, in the middle of their accesses and of the lock routines, to
the clients of the atomic object whose operations are `Op.apply`.  An operation is performed at
the last access of its body.  Up to then the fields are what the accesses made so far have made of
the value; only the core in the critical section can have made any, and `pm` is not among the
fields that have changed, which is why `get_pm` may read it without the lock.
-/

namespace Rpi2Baremetal

namespace SysCommon

open Framework Boot

/-! ## The bodies -/

lemma runAll_append (as bs : List Access) (x : SysCommonInfo × Word) :
    runAll (as ++ bs) x = runAll bs (runAll as x) := List.foldl_append

/-- All accesses of a call make it one step. -/
lemma runAll_body (op : Op) (v : SysCommonInfo) :
    (runAll op.body (v, 0)).1 = (op.apply v).2 ∧
      op.result (runAll op.body (v, 0)).2 = (op.apply v).1 := by
  cases op with
  | setPm pm =>
      cases hpm : isValidPm pm <;> simp [Op.body, Op.apply, Op.result, runAll, Access.run, hpm]
  | setPrevPm pm =>
      cases hpm : isValidPm pm <;> simp [Op.body, Op.apply, Op.result, runAll, Access.run, hpm]
  | _ => exact ⟨rfl, rfl⟩

/-- The accesses of a call before its last one do not change `pm`. -/
lemma run_pm (op : Op) {a : Access} (h : a ∈ op.body.dropLast) (x : SysCommonInfo × Word) :
    (a.run x).1.pm = x.1.pm := by
  cases op with
  | changePm pm =>
      simp only [Op.body, List.dropLast_cons_cons, List.dropLast_singleton, List.mem_cons,
        List.not_mem_nil, or_false] at h
      rcases h with rfl | rfl <;> rfl
  | incWakingCores =>
      obtain rfl := List.mem_singleton.mp h
      rfl
  | setPm pm => cases hpm : isValidPm pm <;> simp [Op.body, hpm] at h
  | setPrevPm pm => cases hpm : isValidPm pm <;> simp [Op.body, hpm] at h
  | getWakingCores | getPm => exact absurd h List.not_mem_nil

lemma runAll_pm {op : Op} {done rest : List Access} {b : Access}
    (h : op.body = done ++ b :: rest) (x : SysCommonInfo × Word) :
    (runAll done x).1.pm = x.1.pm := by
  have hdone : ∀ a ∈ done, a ∈ op.body.dropLast := by
    intro a ha
    rw [h, List.dropLast_append_of_ne_nil (List.cons_ne_nil b rest)]
    exact List.mem_append_left _ ha
  clear h
  induction done generalizing x with
  | nil => rfl
  | cons a done ih =>
      have hrest := ih (a.run x) fun a' ha' => hdone a' (List.mem_cons_of_mem _ ha')
      exact hrest.trans (run_pm op (hdone a List.mem_cons_self) x)

/-- A call without the lock accesses nothing, or it is `get_pm`. -/
lemma body_of_not_locks {op : Op} (h : op.locks = false) : op.body = [] ∨ op = .getPm := by
  cases op with
  | getPm => exact .inr rfl
  | setPm pm => exact .inl (if_neg (Bool.eq_false_iff.mp h))
  | setPrevPm pm => exact .inl (if_neg (Bool.eq_false_iff.mp h))
  | incWakingCores | getWakingCores | changePm => cases h

/-- A call that takes the lock has something to do. -/
lemma Op.body_ne_nil {op : Op} (h : op.locks = true) : op.body ≠ [] := by
  cases op with
  | setPm pm =>
      have hpm : isValidPm pm = true := h
      simp [body, hpm]
  | setPrevPm pm =>
      have hpm : isValidPm pm = true := h
      simp [body, hpm]
  | incWakingCores | getWakingCores | changePm | getPm => exact List.cons_ne_nil _ _

/-! ## The calls as functions of the kernel -/

section KernelCalls

open Kernel

/-- A section under the lock, executed in one step by a core that finds the lock free. -/
lemma locked_eq (k : Kernel) (hfree : k.held .sysCommonLock = false)
    (f : SysCommonInfo → SysCommonInfo) (v : Word) :
    (do spinReq .sysCommonLock
        modifyCommon f
        spinRel .sysCommonLock
        pure v : KernelM Word) k = .ok v { k with common := f k.common } := by
  have hheld : Function.update (Function.update k.held .sysCommonLock true) .sysCommonLock false =
      k.held := by
    rw [Function.update_idem, ← hfree, Function.update_eq_self]
  simp [bind, EStateM.bind, pure, EStateM.pure, spinReq, spinRel, modifyCommon, hfree, hheld]

/-- The function of the kernel for a call of `sysinfo.c`. -/
def Op.kernel : Op → Option (KernelM Word)
  | .changePm pm => some (Kernel.changePm pm)
  | .setPm pm => some (Kernel.setPm pm)
  | .setPrevPm pm => some (Kernel.setPrevPm pm)
  | .getPm => some Kernel.getPm
  | .incWakingCores => none
  | .getWakingCores => none

/-- The functions of the kernel are the calls as single steps. -/
lemma kernel_eq_apply {op : Op} {x : KernelM Word} (hx : op.kernel = some x) (k : Kernel)
    (hfree : k.held .sysCommonLock = false) :
    x k = .ok (op.apply k.common).1 { k with common := (op.apply k.common).2 } := by
  cases op with
  | changePm pm =>
      obtain rfl := Option.some.inj hx
      exact locked_eq k hfree _ _
  | setPm pm =>
      obtain rfl := Option.some.inj hx
      cases hpm : isValidPm pm
      · simp [Kernel.setPm, Op.apply, hpm, pure, EStateM.pure]
      · simpa [Kernel.setPm, Op.apply, hpm] using locked_eq k hfree (fun c => { c with pm }) pm
  | setPrevPm pm =>
      obtain rfl := Option.some.inj hx
      cases hpm : isValidPm pm
      · simp [Kernel.setPrevPm, Op.apply, hpm, pure, EStateM.pure]
      · simpa [Kernel.setPrevPm, Op.apply, hpm] using
          locked_eq k hfree (fun c => { c with prevPm := pm }) pm
  | getPm =>
      obtain rfl := Option.some.inj hx
      rfl
  | incWakingCores | getWakingCores => cases hx

end KernelCalls

/-! ## The simulation -/

/-- A core as a client of the atomic object. -/
def Phase.client : Phase → Client Op Word
  | .idle => .idle
  | .requesting op => .called op
  | .accessing op (_ :: _) _ => .called op
  | .accessing op [] reg => .performed op (op.result reg)
  | .releasing op reg => .performed op (op.result reg)
  | .returning op reg => .performed op (op.result reg)

/-- Where a core is in the lock routines. -/
def Phase.Lock : Phase → LockCore → Prop
  | .idle, c => c.routine = none ∧ c.critical = false
  | .requesting op, c => op.locks ∧ c.routine = some .spinReq ∧ c.critical = false
  | .accessing op _ _, c => c.routine = none ∧ c.critical = op.locks
  | .releasing _ _, c => c.routine = some .spinRel
  | .returning _ _, c => c.routine = none ∧ c.critical = false

/-- A core in the middle of its accesses: those it has made have turned the value `v` into the
fields `c`, if it has the lock. -/
def Phase.Begun (v c : SysCommonInfo) : Phase → Prop
  | .accessing op (b :: rest) reg =>
      ∃ done, op.body = done ++ b :: rest ∧ (op.locks → runAll done (v, 0) = (c, reg))
  | _ => True

/-- The core has the lock, and has not made its last access. -/
def Phase.Busy : Phase → Prop
  | .accessing op (_ :: _) _ => op.locks
  | _ => False

lemma Phase.Lock.congr {p : Phase} {c c' : LockCore} (h : p.Lock c) (hr : c'.routine = c.routine)
    (hc : c'.critical = c.critical) : p.Lock c' := by
  cases p <;> simpa [Phase.Lock, hr, hc] using h

lemma Phase.Busy.cases {p : Phase} (h : p.Busy) :
    ∃ op b rest reg, p = .accessing op (b :: rest) reg ∧ op.locks = true := by
  unfold Busy at h
  split at h
  · exact ⟨_, _, _, _, rfl, h⟩
  · exact h.elim

lemma Phase.Busy.critical {p : Phase} {c : LockCore} (h : p.Busy) (hp : p.Lock c) :
    c.critical = true := by
  obtain ⟨op, b, rest, reg, rfl, hlocks⟩ := h.cases
  exact hp.2.trans hlocks

/-- What a core has made of the fields matters only if it has the lock. -/
lemma Phase.Begun.of_not_busy {p : Phase} {v c v' c' : SysCommonInfo} (h : p.Begun v c)
    (hbusy : ¬ p.Busy) : p.Begun v' c' := by
  unfold Begun at h ⊢
  split
  · obtain ⟨done, hbody, -⟩ := h
    exact ⟨done, hbody, fun hlocks => absurd hlocks hbusy⟩
  · trivial

variable {ι : Type*} [DecidableEq ι] {s s' : State ι} {a : ObjectState ι SysCommonInfo Op Word}
  {i : ι}

omit [DecidableEq ι] in
structure Sim (s : State ι) (a : ObjectState ι SysCommonInfo Op Word) : Prop where
  lock : s.lock.Inv
  phase : ∀ i, (s.phase i).Lock (s.lock.core i)
  client : ∀ i, a.client i = (s.phase i).client
  begun : ∀ i, (s.phase i).Begun a.value s.common
  value : (∀ i, ¬ (s.phase i).Busy) → s.common = a.value

namespace Sim

omit [DecidableEq ι] in
lemma start (h : s.Initial) : Sim s (.start s.common) where
  lock := h.lock.inv
  phase i := by
    rw [h.idle]
    exact ⟨h.lock.outside i, h.lock.not_critical i⟩
  client i := by rw [h.idle]; rfl
  begun i := by rw [h.idle]; trivial
  value _ := rfl

omit [DecidableEq ι] in
lemma critical_of_busy (h : Sim s a) (hbusy : (s.phase i).Busy) :
    (s.lock.core i).critical = true :=
  hbusy.critical (h.phase i)

omit [DecidableEq ι] in
/-- Nobody is busy but the core in the critical section. -/
lemma not_busy (h : Sim s a) (hcrit : (s.lock.core i).critical = true) {j : ι} (hj : j ≠ i) :
    ¬ (s.phase j).Busy :=
  fun hbusy => hj (h.lock.safe.mutex j i (h.critical_of_busy hbusy) hcrit)

omit [DecidableEq ι] in
/-- The `pm` that is stored is that of the value, also while a core is busy. -/
lemma pm (h : Sim s a) : s.common.pm = a.value.pm := by
  by_cases hbusy : ∃ i, (s.phase i).Busy
  · obtain ⟨i, hi⟩ := hbusy
    obtain ⟨op, b, rest, reg, hp, hlocks⟩ := hi.cases
    have hbegun := h.begun i
    rw [hp] at hbegun
    obtain ⟨done, hbody, hrun⟩ := hbegun
    have hpm := runAll_pm hbody (a.value, 0)
    rwa [hrun hlocks] at hpm
  · rw [h.value (not_exists.mp hbusy)]

/-- A core goes on to another phase, possibly with a step of a lock routine, and the fields stay
as they are. -/
lemma goOn (h : Sim s a) {lock : LockState ι} {p : Phase} (hlock : lock.Inv)
    (hother : ∀ j, j ≠ i → (lock.core j).routine = (s.lock.core j).routine ∧
      (lock.core j).critical = (s.lock.core j).critical)
    (hidle : ¬ (s.phase i).Busy) (hp : p.Lock (lock.core i))
    (hbegun : p.Begun s.common s.common) :
    Sim { s.goOn i p with lock } (a.set i p.client) where
  lock := hlock
  phase j := by
    by_cases hj : j = i
    · subst hj
      simpa [State.goOn] using hp
    · obtain ⟨hr, hc⟩ := hother j hj
      simpa [State.goOn, hj] using (h.phase j).congr hr hc
  client j := by
    by_cases hj : j = i
    · subst hj
      simp [State.goOn, ObjectState.set]
    · simpa [State.goOn, ObjectState.set, hj] using h.client j
  begun j := by
    by_cases hj : j = i
    · subst hj
      simp only [State.goOn, ObjectState.set, Function.update_self]
      by_cases hbusy : p.Busy
      · -- the core has just got the lock, so nobody else is busy
        have hnone : ∀ k, ¬ (s.phase k).Busy := by
          intro k hk
          have hkj : k ≠ j := fun heq => hidle (heq ▸ hk)
          have hcrit := (hother k hkj).2.trans (h.critical_of_busy hk)
          exact hkj (hlock.safe.mutex k j hcrit (hbusy.critical hp))
        rwa [← h.value hnone]
      · exact hbegun.of_not_busy hbusy
    · simpa [State.goOn, ObjectState.set, hj] using h.begun j
  value hnone := by
    refine h.value fun j hj => ?_
    have hji : j ≠ i := fun heq => hidle (heq ▸ hj)
    have hbusy := hnone j
    simp only [State.goOn, Function.update_of_ne hji] at hbusy
    exact hbusy hj

/-- The phase after a step of a lock routine. -/
lemma lockStep (h : Sim s a) {act : LockAction} {p : LockCore → Phase}
    (hs : s.lockStep i act p = some s') (hidle : ¬ (s.phase i).Busy)
    (hp : ∀ lock, Boot.lockStep s.lock (i, act) = some lock →
      (p (lock.core i)).Lock (lock.core i) ∧ (p (lock.core i)).client = (s.phase i).client ∧
        (p (lock.core i)).Begun s.common s.common) : Sim s' a := by
  obtain ⟨lock, hlock, rfl⟩ := Option.map_eq_some_iff.mp hs
  obtain ⟨hphase, hclient, hbegun⟩ := hp lock hlock
  have hsim := h.goOn (h.lock.step hlock) (fun j hj => lockStep_other hlock hj) hidle hphase hbegun
  rwa [hclient, ← h.client i, ObjectState.set, Function.update_eq_self] at hsim

omit [DecidableEq ι] in
/-- The accesses of the value and of the stored fields have the same result where a call reads
without the lock. -/
lemma apply_of_not_locks (h : Sim s a) {op : Op} {b : Access} {rest : List Access} {reg : Word}
    (hphase : s.phase i = .accessing op (b :: rest) reg) (hlocks : op.locks = false) :
    rest = [] ∧ (b.run (s.common, reg)).1 = s.common ∧
      op.apply a.value = (op.result (b.run (s.common, reg)).2, a.value) := by
  have hbegun := h.begun i
  rw [hphase] at hbegun
  obtain ⟨done, hbody, -⟩ := hbegun
  rcases body_of_not_locks hlocks with hnil | rfl
  · rw [hnil] at hbody
    exact absurd hbody.symm (by simp)
  · match done with
    | [] =>
        obtain ⟨rfl, rfl⟩ := List.cons.inj hbody
        refine ⟨rfl, rfl, ?_⟩
        simp [Op.apply, Op.result, Access.run, h.pm]
    | _ :: _ => exact absurd hbody (by simp [Op.body])

omit [DecidableEq ι] in
/-- The fields after the accesses of the core that has the lock. -/
lemma run_of_locks (h : Sim s a) {op : Op} {b : Access} {rest : List Access} {reg : Word}
    (hphase : s.phase i = .accessing op (b :: rest) reg) (hlocks : op.locks = true) :
    ∃ done, op.body = (done ++ [b]) ++ rest ∧
      runAll (done ++ [b]) (a.value, 0) = b.run (s.common, reg) := by
  have hbegun := h.begun i
  rw [hphase] at hbegun
  obtain ⟨done, hbody, hrun⟩ := hbegun
  refine ⟨done, by simpa using hbody, ?_⟩
  rw [runAll_append, hrun hlocks]
  rfl

end Sim

/-! ## One step -/

variable {act : Act}

/-- The state after an access of core `i`. -/
def State.access (s : State ι) (i : ι) (op : Op) (b : Access) (rest : List Access) (reg : Word) :
    State ι :=
  { s.goOn i (.accessing op rest (b.run (s.common, reg)).2) with
    common := (b.run (s.common, reg)).1 }

namespace Sim

/-- An access other than the last. -/
lemma access_cons (h : Sim s a) {op : Op} {b b' : Access} {rest : List Access} {reg : Word}
    (hphase : s.phase i = .accessing op (b :: b' :: rest) reg) :
    Sim (s.access i op b (b' :: rest) reg) a := by
  have hlocks : op.locks = true := by
    cases hl : op.locks with
    | true => rfl
    | false => exact absurd (h.apply_of_not_locks hphase hl).1 (List.cons_ne_nil b' rest)
  obtain ⟨done, hbody, hrun⟩ := h.run_of_locks hphase hlocks
  have hlock := h.phase i
  rw [hphase] at hlock
  have hothers := fun j hj => h.not_busy (hlock.2.trans hlocks) (j := j) hj
  refine ⟨h.lock, fun j => ?_, fun j => ?_, fun j => ?_, fun hnone => ?_⟩
  · by_cases hj : j = i
    · subst hj
      simp only [State.access, State.goOn, Function.update_self]
      exact hlock
    · simpa [State.access, State.goOn, hj] using h.phase j
  · by_cases hj : j = i
    · subst hj
      rw [h.client j, hphase]
      simp [State.access, State.goOn, Phase.client]
    · simpa [State.access, State.goOn, hj] using h.client j
  · by_cases hj : j = i
    · subst hj
      simp only [State.access, State.goOn, Function.update_self]
      exact ⟨done ++ [b], hbody, fun _ => hrun⟩
    · simpa [State.access, State.goOn, hj] using (h.begun j).of_not_busy (hothers j hj)
  · refine absurd ?_ (hnone i)
    simpa [State.access, State.goOn, Phase.Busy] using hlocks

/-- The last access of a call performs it. -/
lemma access_last (h : Sim s a) {op : Op} {b : Access} {reg : Word}
    (hphase : s.phase i = .accessing op [b] reg) :
    Sim (s.access i op b [] reg)
      { a.set i (.performed op (op.apply a.value).1) with value := (op.apply a.value).2 } := by
  have hlock := h.phase i
  rw [hphase] at hlock
  obtain ⟨hresult, hvalue, hothers⟩ :
      (op.apply a.value).1 = op.result (b.run (s.common, reg)).2 ∧
        ((∀ j, j ≠ i → ¬ (s.phase j).Busy) →
          (b.run (s.common, reg)).1 = (op.apply a.value).2) ∧
        ∀ j, j ≠ i → (s.phase j).Begun (op.apply a.value).2 (b.run (s.common, reg)).1 := by
    cases hlocks : op.locks with
    | true =>
        obtain ⟨done, hbody, hrun⟩ := h.run_of_locks hphase hlocks
        obtain ⟨h1, h2⟩ := runAll_body op a.value
        rw [hbody, List.append_nil, hrun] at h1 h2
        exact ⟨h2.symm, fun _ => h1, fun j hj =>
          (h.begun j).of_not_busy (h.not_busy (hlock.2.trans hlocks) hj)⟩
    | false =>
        obtain ⟨-, hcommon, happly⟩ := h.apply_of_not_locks hphase hlocks
        rw [happly, hcommon]
        refine ⟨rfl, fun hnone => h.value fun j hj => ?_, fun j _ => h.begun j⟩
        by_cases hji : j = i
        · rw [hji, hphase] at hj
          exact absurd hj (by simp [Phase.Busy, hlocks])
        · exact hnone j hji hj
  refine ⟨h.lock, fun j => ?_, fun j => ?_, fun j => ?_, fun hnone => ?_⟩
  · by_cases hj : j = i
    · subst hj
      simp only [State.access, State.goOn, Function.update_self]
      exact hlock
    · simpa [State.access, State.goOn, hj] using h.phase j
  · by_cases hj : j = i
    · subst hj
      simp [State.access, State.goOn, ObjectState.set, Phase.client, hresult]
    · simpa [State.access, State.goOn, ObjectState.set, hj] using h.client j
  · by_cases hj : j = i
    · subst hj
      simp [State.access, State.goOn, Phase.Begun]
    · simpa [State.access, State.goOn, ObjectState.set, hj] using hothers j hj
  · refine hvalue fun j hj => ?_
    have hbusy := hnone j
    simpa only [State.access, State.goOn, Function.update_of_ne hj] using hbusy

/-- A call is one of the atomic object, and is performed at once if it accesses nothing. -/
lemma call (h : Sim s a) {op : Op} (hs : step s (i, .call op) = some s') :
    ∃ a', ObjectRun Op.apply a [.call i op] a' ∧ Sim s' a' := by
  cases hphase : s.phase i with
  | idle =>
      have hlock := h.phase i
      rw [hphase] at hlock
      have hclient : a.client i = .idle := by rw [h.client, hphase]; rfl
      have hcall : ObjectRun Op.apply a [.call i op] (a.set i (.called op)) :=
        ObjectRun.step (.call hclient)
      have hidle : ¬ (s.phase i).Busy := by rw [hphase]; exact id
      simp only [SysCommon.step, hphase] at hs
      split_ifs at hs with hlocks
      · obtain ⟨lock, hstep, rfl⟩ := Option.map_eq_some_iff.mp hs
        obtain ⟨hr, hc⟩ := lockStep_callReq hstep
        exact ⟨_, hcall, h.goOn (h.lock.step hstep) (fun j hj => lockStep_other hstep hj) hidle
          ⟨hlocks, hr, hc.trans hlock.2⟩ trivial⟩
      · obtain rfl := Option.some.inj hs
        have hfree : op.locks = false := Bool.eq_false_iff.mpr hlocks
        have hgoOn := h.goOn (p := .accessing op op.body 0) h.lock (fun _ _ => ⟨rfl, rfl⟩) hidle
          ⟨hlock.1, hlock.2.trans hfree.symm⟩
        cases hbody : op.body with
        | nil =>
            obtain ⟨happly, hresult⟩ := runAll_body op a.value
            rw [hbody] at happly hresult hgoOn
            have hcalled : (a.set i (.called op)).client i = .called op := by
              simp [ObjectState.set]
            refine ⟨_, hcall.append (ObjectRun.step (.perform hcalled)), ?_⟩
            simp only [ObjectState.set, Function.update_idem, ← happly, ← hresult]
            exact hgoOn trivial
        | cons b rest =>
            rw [hbody] at hgoOn
            exact ⟨_, hcall, hgoOn ⟨[], hbody, fun h => absurd h hlocks⟩⟩
  | _ => simp [SysCommon.step, hphase] at hs

/-- What a core does between the call and the return is hidden, or performs the call. -/
lemma next (h : Sim s a) (hs : step s (i, .next) = some s') :
    ∃ a', ObjectRun Op.apply a (events s (i, .next)) a' ∧ Sim s' a' := by
  have hlock := h.phase i
  have hclient := h.client i
  cases hphase : s.phase i with
  | idle => simp [SysCommon.step, hphase] at hs
  | requesting op =>
      rw [hphase] at hlock
      have hbusy : ¬ (s.phase i).Busy := by rw [hphase]; exact id
      simp only [SysCommon.step, hphase] at hs
      simp only [events, hphase]
      refine ⟨a, .nil a, h.lockStep hs hbusy fun lock hstep => ?_⟩
      obtain ⟨hlocks, hr, hc⟩ := hlock
      rw [hphase]
      unfold untilReturn
      rcases lockStep_spinReq hstep hr with ⟨hr', hc'⟩ | ⟨hr', hc'⟩
      · rw [if_neg (by simp [hr'])]
        exact ⟨⟨hlocks, hr', hc'.trans hc⟩, rfl, trivial⟩
      · rw [if_pos hr']
        obtain ⟨b, rest, hbody⟩ := List.exists_cons_of_ne_nil (op.body_ne_nil hlocks)
        rw [hbody]
        exact ⟨⟨hr', hc'.trans hlocks.symm⟩, rfl, [], hbody, fun _ => rfl⟩
  | accessing op rest reg =>
      match rest with
      | [] =>
          rw [hphase] at hlock
          have hbusy : ¬ (s.phase i).Busy := by rw [hphase]; exact id
          simp only [SysCommon.step, hphase] at hs
          simp only [events, hphase]
          split_ifs at hs with hlocks
          · refine ⟨a, .nil a, h.lockStep hs hbusy fun lock hstep => ?_⟩
            rw [hphase]
            exact ⟨lockStep_callRel hstep, rfl, trivial⟩
          · obtain rfl := Option.some.inj hs
            have hfree : op.locks = false := Bool.eq_false_iff.mpr hlocks
            have hgoOn := h.goOn (p := .returning op reg) h.lock (fun _ _ => ⟨rfl, rfl⟩) hbusy
              ⟨hlock.1, hlock.2.trans hfree⟩ trivial
            refine ⟨_, .nil _, ?_⟩
            rwa [show (Phase.returning op reg).client = a.client i by rw [hclient, hphase]; rfl,
              ObjectState.set, Function.update_eq_self] at hgoOn
      | [b] =>
          simp only [SysCommon.step, hphase, Option.some.injEq] at hs
          subst hs
          simp only [events, hphase]
          have hcalled : a.client i = .called op := by rw [hclient, hphase]; rfl
          exact ⟨_, ObjectRun.step (.perform hcalled), h.access_last hphase⟩
      | b :: b' :: rest =>
          simp only [SysCommon.step, hphase, Option.some.injEq] at hs
          subst hs
          simp only [events, hphase]
          exact ⟨a, .nil a, h.access_cons hphase⟩
  | releasing op reg =>
      rw [hphase] at hlock
      have hbusy : ¬ (s.phase i).Busy := by rw [hphase]; exact id
      simp only [SysCommon.step, hphase] at hs
      simp only [events, hphase]
      refine ⟨a, .nil a, h.lockStep hs hbusy fun lock hstep => ?_⟩
      rw [hphase]
      unfold untilReturn
      rcases lockStep_spinRel h.lock hstep hlock with hr' | ⟨hr', hc'⟩
      · rw [if_neg (by simp [hr'])]
        exact ⟨hr', rfl, trivial⟩
      · rw [if_pos hr']
        exact ⟨⟨hr', hc'⟩, rfl, trivial⟩
  | returning op reg =>
      rw [hphase] at hlock
      have hbusy : ¬ (s.phase i).Busy := by rw [hphase]; exact id
      simp only [SysCommon.step, hphase, Option.some.injEq] at hs
      subst hs
      simp only [events, hphase]
      have hperformed : a.client i = .performed op (op.result reg) := by
        rw [hclient, hphase]; rfl
      exact ⟨_, ObjectRun.step (.ret hperformed),
        h.goOn h.lock (fun _ _ => ⟨rfl, rfl⟩) hbusy hlock trivial⟩

end Sim

/-- Every step of the cores is matched by the atomic object. -/
lemma simulation : Simulation (fun (s : State ι) l s' => step s l = some s') events
    (ObjectStep Op.apply) (fun _ => ObjectAct.events) Sim := by
  rintro s ⟨i, act⟩ s' a h hs
  cases act with
  | call op => exact h.call hs
  | next => exact h.next hs

/-! ## Whole runs -/

/-- The runs of the cores, with their calls and results. -/
abbrev CoreRun : State ι → List (ObjectEvent ι Op Word) → State ι → Prop :=
  Observed (fun s l s' => step s l = some s') events

/-- No core is inside a call. -/
def State.Quiet (s : State ι) : Prop := ∀ i, s.phase i = .idle

/-- **`SysCommonInfo` is linearisable.**  In every interleaving of the accesses and of the
instructions of the lock routines, on any number of cores, the calls and the results are those of
an object on which every call is one step.  Whenever no core is inside a call the fields are the
value of that object. -/
theorem sys_common_linearizable {es : List (ObjectEvent ι Op Word)} (h0 : s.Initial)
    (hr : CoreRun s es s') :
    ∃ a, ObjectRun Op.apply (.start s.common) es a ∧ (s'.Quiet → s'.common = a.value) := by
  obtain ⟨a, ha, hsim⟩ := simulation.observed (Sim.start h0) hr
  refine ⟨a, ha, fun hquiet => hsim.value fun i => ?_⟩
  rw [hquiet i]
  exact id

/-- Two cores with their registers and monitors set arbitrarily, before any call. -/
def twoCoresStart : State (Fin 2) where
  lock := twoCores
  common := ⟨0, 0, TTBA_BASE, 5, fun _ => 0⟩
  phase _ := .idle

lemma twoCoresStart_initial : twoCoresStart.Initial where
  lock := ⟨rfl, fun _ => rfl, fun _ => rfl, fun _ => rfl⟩
  idle _ := rfl

/-- Core `j` is overtaken by core `i` between its `ldrex` and its `strexeq`; both count themselves
in. -/
def twoCoresCounting (i j : Fin 2) : List (Fin 2 × Act) :=
  (i, .call .incWakingCores) :: (j, .call .incWakingCores) :: List.replicate 3 (j, .next)
    ++ List.replicate 21 (i, .next) ++ List.replicate 23 (j, .next)

set_option maxRecDepth 4000 in
lemma twoCoresCounting_run : ∃ s', CoreRun twoCoresStart
    [.call 0 .incWakingCores, .call 1 .incWakingCores, .ret 0 .incWakingCores 0,
      .ret 1 .incWakingCores 0] s' ∧ s'.Quiet ∧ s'.common.wakingCores = 7 := by
  refine ⟨_, Observed.of_foldlM (rfl : (twoCoresCounting 0 1).foldlM _ _ = some (_, _)),
    fun i => ?_, rfl⟩
  fin_cases i <;> rfl

/-- In that run the calls and the results are those of the atomic object. -/
theorem sys_common_linearizable_twoCores :
    ∃ es s', CoreRun twoCoresStart es s' ∧ s'.Quiet ∧
      ∃ a, ObjectRun Op.apply (.start twoCoresStart.common) es a ∧ s'.common = a.value := by
  obtain ⟨s', hrun, hquiet, -⟩ := twoCoresCounting_run
  obtain ⟨a, ha, hvalue⟩ := sys_common_linearizable twoCoresStart_initial hrun
  exact ⟨_, s', hrun, hquiet, a, ha, hvalue hquiet⟩

/-! ## The counter -/

/-- The calls of `inc_waking_cores` among some events that have returned. -/
def incsReturned (es : List (ObjectEvent ι Op Word)) : ℕ :=
  es.countP fun
    | .ret _ .incWakingCores _ => true
    | _ => false

/-- What a call adds to `waking_cores`. -/
def Op.increment : Op → Word
  | .incWakingCores => 1
  | _ => 0

lemma wakingCores_apply (op : Op) (v : SysCommonInfo) :
    (op.apply v).2.wakingCores = v.wakingCores + op.increment := by
  cases op with
  | setPm pm => cases hpm : isValidPm pm <;> simp [Op.apply, Op.increment, hpm]
  | setPrevPm pm => cases hpm : isValidPm pm <;> simp [Op.apply, Op.increment, hpm]
  | _ => simp [Op.apply, Op.increment]

omit [DecidableEq ι] in
lemma returned_increment (es : List (ObjectEvent ι Op Word)) :
    returned Op.increment es = .ofNat 32 (incsReturned es) := by
  induction es with
  | nil => rfl
  | cons e es ih =>
      have hsplit := returned_append Op.increment [e] es
      rw [List.singleton_append] at hsplit
      rw [hsplit, ih]
      cases e with
      | call i op => simp [incsReturned]
      | ret i op r => cases op <;> simp [incsReturned, Op.increment, BitVec.ofNat_add, add_comm]

/-- **No update of `waking_cores` is lost.**  In every interleaving, whenever no core is inside a
call the counter has grown by the number of the calls of `inc_waking_cores` that have returned. -/
theorem waking_cores_exact [Fintype ι] {es : List (ObjectEvent ι Op Word)} (h0 : s.Initial)
    (hr : CoreRun s es s') (hquiet : s'.Quiet) :
    s'.common.wakingCores = s.common.wakingCores + .ofNat 32 (incsReturned es) := by
  obtain ⟨a, ha, hsim⟩ := simulation.observed (Sim.start h0) hr
  have hvalue : s'.common = a.value := hsim.value fun i => by rw [hquiet i]; exact id
  have hidle : ∀ i, (a.client i).added Op.increment = 0 := by
    intro i
    rw [hsim.client i, hquiet i]
    rfl
  have hsum := ObjectRun.sum_value wakingCores_apply ha
  rw [Finset.sum_eq_zero fun i _ => hidle i, add_zero, returned_increment] at hsum
  rw [hvalue]
  exact hsum

/-- Both calls of the run count. -/
theorem waking_cores_exact_twoCores :
    ∃ es s', CoreRun twoCoresStart es s' ∧ incsReturned es = 2 ∧
      s'.common.wakingCores = 5 + .ofNat 32 (incsReturned es) := by
  obtain ⟨s', hrun, hquiet, -⟩ := twoCoresCounting_run
  exact ⟨_, s', hrun, rfl, waking_cores_exact twoCoresStart_initial hrun hquiet⟩

end SysCommon

end Rpi2Baremetal
