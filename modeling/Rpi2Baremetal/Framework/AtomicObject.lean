import Rpi2Baremetal.Framework.Transition
import Mathlib.Algebra.BigOperators.Group.Finset.Basic
import Mathlib.Tactic

/-!
# Events, simulations and atomic objects

`Observed step obs s es s'` is a run together with the events its steps show.  A `Simulation`
matches each step of one system by steps of another that show the same events, so every sequence
of events of the first is one of the second.

The *atomic object* of a sequential object (`apply : op → σ → res × σ`) has any number of clients.
A client calls an operation, the operation is performed in one step at some later time, and still
later the client gets the result.  An implementation whose calls and results are events of the
atomic object is linearisable.  `ObjectStep.sum_value` computes what operations that add to an
observable of the value come to in a run.
-/

namespace Framework

variable {σ τ α β ε : Type*}

/-! ## Events -/

/-- A run and the events of its steps, in order. -/
inductive Observed (step : σ → α → σ → Prop) (obs : σ → α → List ε) : σ → List ε → σ → Prop
  | nil (s : σ) : Observed step obs s [] s
  | snoc {s t u : σ} {es : List ε} {a : α} :
      Observed step obs s es t → step t a u → Observed step obs s (es ++ obs t a) u

namespace Observed

variable {step : σ → α → σ → Prop} {obs : σ → α → List ε}

lemma append {s t u : σ} {es fs : List ε} (h : Observed step obs s es t)
    (h' : Observed step obs t fs u) : Observed step obs s (es ++ fs) u := by
  induction h' with
  | nil => rwa [List.append_nil]
  | snoc _ ha ih =>
      rw [← List.append_assoc]
      exact .snoc ih ha

lemma single {s t : σ} {a : α} (h : step s a t) : Observed step obs s (obs s a) t :=
  .snoc (.nil s) h

/-- The invariant rule for a state and the events that led to it. -/
lemma history_invariant {I : List ε → σ → Prop}
    (hstep : ∀ es s a s', I es s → step s a s' → I (es ++ obs s a) s')
    {s s' : σ} {es : List ε} (hs : I [] s) (hr : Observed step obs s es s') : I es s' := by
  induction hr with
  | nil => exact hs
  | snoc _ ha ih => exact hstep _ _ _ _ ih ha

/-- The run behind the events. -/
lemma run {s s' : σ} {es : List ε} (hr : Observed step obs s es s') :
    ∃ ls, Run step s ls s' := by
  induction hr with
  | nil => exact ⟨[], .nil _⟩
  | snoc _ ha ih =>
      obtain ⟨ls, hls⟩ := ih
      exact ⟨_, .snoc hls ha⟩

/-- Executing a partial step function along a list of labels is a run, with the events met on
the way. -/
lemma of_foldlM {f : σ → α → Option σ} {s s' : σ} {es : List ε} {ls : List α}
    (h : ls.foldlM (fun p a => (f p.2 a).map fun t => (p.1 ++ obs p.2 a, t)) (([] : List ε), s)
      = some (es, s')) : Observed (fun t a t' => f t a = some t') obs s es s' := by
  induction ls using List.reverseRecOn generalizing es s' with
  | nil =>
      obtain ⟨rfl, rfl⟩ : [] = es ∧ s = s' := by simpa using h
      exact .nil _
  | append_singleton ls a ih =>
      rw [List.foldlM_append] at h
      obtain ⟨⟨fs, t⟩, ht, hs'⟩ := Option.bind_eq_some_iff.mp h
      simp only [List.foldlM_cons, List.foldlM_nil, Option.bind_eq_bind,
        Option.bind_eq_some_iff, Option.map_eq_some_iff] at hs'
      obtain ⟨_, ⟨u, hu, rfl⟩, heq⟩ := hs'
      obtain ⟨rfl, rfl⟩ := Prod.mk.inj (Option.some.inj heq)
      exact .snoc (ih ht) hu

end Observed

/-! ## Simulations -/

/-- Every step from related states is matched by steps that show the same events. -/
def Simulation (step : σ → α → σ → Prop) (obs : σ → α → List ε) (step' : τ → β → τ → Prop)
    (obs' : τ → β → List ε) (R : σ → τ → Prop) : Prop :=
  ∀ s a s' t, R s t → step s a s' → ∃ t', Observed step' obs' t (obs s a) t' ∧ R s' t'

/-- **Simulation rule.**  What the simulated system shows, the simulating one can show too. -/
theorem Simulation.observed {step : σ → α → σ → Prop} {obs : σ → α → List ε}
    {step' : τ → β → τ → Prop} {obs' : τ → β → List ε} {R : σ → τ → Prop}
    (h : Simulation step obs step' obs' R) {s s' : σ} {t : τ} {es : List ε} (hR : R s t)
    (hr : Observed step obs s es s') : ∃ t', Observed step' obs' t es t' ∧ R s' t' := by
  induction hr with
  | nil => exact ⟨t, .nil t, hR⟩
  | snoc _ ha ih =>
      obtain ⟨u, hu, hRu⟩ := ih
      obtain ⟨v, hv, hRv⟩ := h _ _ _ _ hRu ha
      exact ⟨v, hu.append hv, hRv⟩

/-! ## Atomic objects -/

variable {ι op res : Type*}

/-- How far a client is with its call. -/
inductive Client (op res : Type*) where
  | idle
  | called (o : op)
  | performed (o : op) (r : res)

/-- The value of an object and its clients. -/
structure ObjectState (ι σ op res : Type*) where
  value : σ
  client : ι → Client op res

/-- Nobody has called anything yet. -/
def ObjectState.start (v : σ) : ObjectState ι σ op res := ⟨v, fun _ => .idle⟩

inductive ObjectEvent (ι op res : Type*) where
  | call (i : ι) (o : op)
  | ret (i : ι) (o : op) (r : res)
  deriving DecidableEq

inductive ObjectAct (ι op res : Type*) where
  | call (i : ι) (o : op)
  | perform (i : ι)
  | ret (i : ι) (o : op) (r : res)

/-- The calls and the results are visible, the operations themselves are not. -/
def ObjectAct.events : ObjectAct ι op res → List (ObjectEvent ι op res)
  | .call i o => [.call i o]
  | .perform _ => []
  | .ret i o r => [.ret i o r]

section Steps

variable [DecidableEq ι]

/-- Client `i` as in `c`, with the other clients and the value as before. -/
def ObjectState.set (s : ObjectState ι σ op res) (i : ι) (c : Client op res) :
    ObjectState ι σ op res :=
  { s with client := Function.update s.client i c }

/-- One step of the atomic object. -/
inductive ObjectStep (apply : op → σ → res × σ) :
    ObjectState ι σ op res → ObjectAct ι op res → ObjectState ι σ op res → Prop
  | call {s : ObjectState ι σ op res} {i : ι} {o : op} :
      s.client i = .idle → ObjectStep apply s (.call i o) (s.set i (.called o))
  | perform {s : ObjectState ι σ op res} {i : ι} {o : op} :
      s.client i = .called o →
      ObjectStep apply s (.perform i)
        { s.set i (.performed o (apply o s.value).1) with value := (apply o s.value).2 }
  | ret {s : ObjectState ι σ op res} {i : ι} {o : op} {r : res} :
      s.client i = .performed o r → ObjectStep apply s (.ret i o r) (s.set i .idle)

/-- The runs of the atomic object, with their calls and results. -/
abbrev ObjectRun (apply : op → σ → res × σ) :
    ObjectState ι σ op res → List (ObjectEvent ι op res) → ObjectState ι σ op res → Prop :=
  Observed (ObjectStep apply) fun _ => ObjectAct.events

lemma ObjectRun.step {apply : op → σ → res × σ} {s s' : ObjectState ι σ op res}
    {a : ObjectAct ι op res} (h : ObjectStep apply s a s') : ObjectRun apply s a.events s' :=
  Observed.single h

end Steps

/-! ## Operations that add up -/

section Adding

variable {M : Type*} [AddCommMonoid M]

/-- What the returned operations among some events add. -/
def returned (add : op → M) (es : List (ObjectEvent ι op res)) : M :=
  (es.map fun
    | .call _ _ => 0
    | .ret _ o _ => add o).sum

/-- What the operation of a client adds once it is performed. -/
def Client.added (add : op → M) : Client op res → M
  | .performed o _ => add o
  | _ => 0

@[simp] lemma Client.added_idle (add : op → M) :
    (Client.idle : Client op res).added add = 0 := rfl

@[simp] lemma Client.added_called (add : op → M) (o : op) :
    (Client.called o : Client op res).added add = 0 := rfl

@[simp] lemma Client.added_performed (add : op → M) (o : op) (r : res) :
    (Client.performed o r).added add = add o := rfl

@[simp] lemma returned_nil (add : op → M) :
    returned add ([] : List (ObjectEvent ι op res)) = 0 := rfl

@[simp] lemma returned_call (add : op → M) (i : ι) (o : op) :
    returned add [(ObjectEvent.call i o : ObjectEvent ι op res)] = 0 := by
  simp [returned]

@[simp] lemma returned_ret (add : op → M) (i : ι) (o : op) (r : res) :
    returned add [ObjectEvent.ret i o r] = add o := by
  simp [returned]

lemma returned_append (add : op → M) (es fs : List (ObjectEvent ι op res)) :
    returned add (es ++ fs) = returned add es + returned add fs := by
  simp [returned]

variable [DecidableEq ι]

lemma sum_added_set [Fintype ι] (add : op → M) (s : ObjectState ι σ op res) (i : ι)
    (c : Client op res) :
    ∑ j, ((s.set i c).client j).added add + (s.client i).added add =
      ∑ j, (s.client j).added add + c.added add := by
  have hrest : ∀ t : ObjectState ι σ op res, ∑ j, (t.client j).added add =
      (t.client i).added add + ∑ j ∈ Finset.univ.erase i, (t.client j).added add := fun t =>
    (Finset.add_sum_erase _ _ (Finset.mem_univ i)).symm
  have hother : ∑ j ∈ Finset.univ.erase i, ((s.set i c).client j).added add =
      ∑ j ∈ Finset.univ.erase i, (s.client j).added add := by
    refine Finset.sum_congr rfl fun j hj => ?_
    simp [ObjectState.set, Finset.ne_of_mem_erase hj]
  rw [hrest, hrest s, hother]
  simp only [ObjectState.set, Function.update_self]
  abel

/-- If every operation adds to an observable of the value, then in a run from the start the
observable grows by what the returned operations add, and those that are performed. -/
theorem ObjectRun.sum_value [Fintype ι] {apply : op → σ → res × σ} {f : σ → M} {add : op → M}
    (happly : ∀ o v, f (apply o v).2 = f v + add o) {v : σ} {es : List (ObjectEvent ι op res)}
    {s : ObjectState ι σ op res} (hr : ObjectRun apply (.start v) es s) :
    f s.value = f v + returned add es + ∑ i, (s.client i).added add := by
  refine hr.history_invariant
    (I := fun es s => f s.value = f v + returned add es + ∑ i, (s.client i).added add)
    (fun es s a s' hI hstep => ?_) ?_
  · rw [returned_append]
    cases hstep with
    | @call i o hidle =>
        have hsum := sum_added_set add s i (.called o)
        simp only [hidle, Client.added_idle, Client.added_called, add_zero] at hsum
        rw [hsum]
        simp only [ObjectAct.events, returned_call, add_zero]
        exact hI
    | @perform i o hcalled =>
        have hsum := sum_added_set add s i (.performed o (apply o s.value).1)
        simp only [hcalled, Client.added_called, Client.added_performed, add_zero] at hsum
        simp only [ObjectAct.events, returned_nil, add_zero]
        rw [happly, hI, add_assoc, ← hsum]
    | @ret i o r hperformed =>
        have hsum := sum_added_set add s i .idle
        simp only [hperformed, Client.added_idle, Client.added_performed, add_zero] at hsum
        simp only [ObjectAct.events, returned_ret]
        rw [add_assoc, add_assoc, add_comm (add o), hsum, ← add_assoc]
        exact hI
  · simp [ObjectState.start]

end Adding

end Framework
