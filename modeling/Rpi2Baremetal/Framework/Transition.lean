import Mathlib.Tactic.Common
import Mathlib.Data.List.Induction

/-!
# Labelled transition systems and their runs

A transition relation `step : σ → α → σ → Prop` moves a system from one state to the next
under a label (the operation performed and who performs it).  `Run step s ls s'` is a finite
run labelled `ls`.

`Run.invariant` is the induction every safety proof in this development goes through.
`guarded` restricts a relation to the steps that meet a condition on the state before the
step, so a run of `guarded G step` is exactly a run of `step` whose steps all meet `G`.
`guarded_invariant` is the induction rule for those.
-/

namespace Framework

variable {σ α : Type*}

/-- Finite runs of a transition relation, with the labels in order. -/
inductive Run (step : σ → α → σ → Prop) : σ → List α → σ → Prop
  | nil (s : σ) : Run step s [] s
  | snoc {s t u : σ} {ls : List α} {a : α} :
      Run step s ls t → step t a u → Run step s (ls ++ [a]) u

/-- The steps of `step` whose label meets `G` in the state before the step. -/
def guarded (G : σ → α → Prop) (step : σ → α → σ → Prop) : σ → α → σ → Prop :=
  fun s a s' => G s a ∧ step s a s'

variable {step : σ → α → σ → Prop}

/-- The invariant rule for properties of a state and the labels that led to it. -/
theorem Run.history_invariant {I : List α → σ → Prop}
    (hstep : ∀ ls s a s', I ls s → step s a s' → I (ls ++ [a]) s')
    {s s' : σ} {ls : List α} (hs : I [] s) (hr : Run step s ls s') : I ls s' := by
  induction hr with
  | nil => exact hs
  | snoc _ ha ih => exact hstep _ _ _ _ ih ha

/-- **Invariant rule.**  What holds initially and is preserved by every step holds after
every run. -/
theorem Run.invariant {I : σ → Prop} (hstep : ∀ s a s', I s → step s a s' → I s')
    {s s' : σ} {ls : List α} (hs : I s) (hr : Run step s ls s') : I s' := by
  exact hr.history_invariant (fun _ t a t' ht ha => hstep t a t' ht ha) hs

/-- The invariant rule for runs whose steps all meet a condition. -/
theorem Run.guarded_invariant {G : σ → α → Prop} {I : σ → Prop}
    (hstep : ∀ s a s', I s → G s a → step s a s' → I s')
    {s s' : σ} {ls : List α} (hs : I s) (hr : Run (guarded G step) s ls s') : I s' :=
  hr.invariant (fun t a t' ht h => hstep t a t' ht h.1 h.2) hs

/-- **Potential rule.**  If every step that costs something takes it from a potential, to which
some steps may add `k`, then a run has no more steps that cost than the potential and these
allow. -/
theorem Run.potential (I : σ → Prop) (potential : σ → ℕ) (costs adds : α → Bool) (k : ℕ)
    (hstep : ∀ s a s', I s → step s a s' →
      I s' ∧ [a].countP costs + potential s' ≤ potential s + k * [a].countP adds)
    {s s' : σ} {ls : List α} (hs : I s) (hr : Run step s ls s') :
    ls.countP costs + potential s' ≤ potential s + k * ls.countP adds := by
  refine (hr.history_invariant (I := fun ls s' => I s' ∧
    ls.countP costs + potential s' ≤ potential s + k * ls.countP adds)
    (fun ls t a t' ht ha => ?_) ⟨hs, by simp⟩).2
  obtain ⟨hI, hle⟩ := ht
  obtain ⟨hI', hcost⟩ := hstep t a t' hI ha
  refine ⟨hI', ?_⟩
  rw [List.countP_append, List.countP_append, Nat.mul_add]
  omega

/-- The runs of a relation are runs of every relation that allows more. -/
theorem Run.mono {step' : σ → α → σ → Prop} {s s' : σ} {ls : List α}
    (h : ∀ s a s', step s a s' → step' s a s') (hr : Run step s ls s') : Run step' s ls s' := by
  induction hr with
  | nil => exact .nil _
  | snoc _ ha ih => exact .snoc ih (h _ _ _ ha)

/-- A run whose steps all meet a condition is a run. -/
theorem Run.of_guarded {G : σ → α → Prop} {s s' : σ} {ls : List α}
    (hr : Run (guarded G step) s ls s') : Run step s ls s' :=
  hr.mono fun _ _ _ h => h.2

/-- A run whose labels all meet a condition is a run of the steps that meet it. -/
theorem Run.guarded_of_forall {P : α → Prop} {s s' : σ} {ls : List α}
    (hr : Run step s ls s') (h : ∀ a ∈ ls, P a) :
    Run (guarded (fun _ a => P a) step) s ls s' := by
  induction hr with
  | nil => exact .nil _
  | snoc _ ha ih =>
      refine .snoc (ih fun a ha' => h a ?_) ⟨h _ ?_, ha⟩
      · exact List.mem_append_left _ ha'
      · exact List.mem_append_right _ List.mem_cons_self

/-- Executing a partial step function along a list of labels is a run of its steps. -/
theorem Run.of_foldlM {f : σ → α → Option σ} {s s' : σ} {ls : List α}
    (h : ls.foldlM f s = some s') : Run (fun t a t' => f t a = some t') s ls s' := by
  induction ls using List.reverseRecOn generalizing s' with
  | nil =>
      obtain rfl : s = s' := by simpa using h
      exact .nil _
  | append_singleton ls a ih =>
      rw [List.foldlM_append] at h
      obtain ⟨t, ht, hs'⟩ := Option.bind_eq_some_iff.mp h
      exact .snoc (ih ht) (by simpa using hs')

/-- Executing a partial step function along a list of labels, with a condition checked before
each step, is a run whose steps all meet the condition. -/
theorem Run.guarded_of_foldlM {G : σ → α → Prop} [∀ s a, Decidable (G s a)]
    {f : σ → α → Option σ} {s s' : σ} {ls : List α}
    (h : ls.foldlM (fun t a => if G t a then f t a else none) s = some s') :
    Run (guarded G fun t a t' => f t a = some t') s ls s' := by
  refine (Run.of_foldlM h).mono fun t a t' ht => ?_
  rwa [Option.ite_none_right_eq_some] at ht

/-- A step before a run. -/
theorem Run.cons {s t u : σ} {a : α} {ls : List α} (ha : step s a t) (hr : Run step t ls u) :
    Run step s (a :: ls) u := by
  induction hr with
  | nil => exact .snoc (.nil s) ha
  | snoc _ hb ih => exact .snoc ih hb

/-- A run after a run. -/
theorem Run.append {s t u : σ} {ls ls' : List α} (hr : Run step s ls t)
    (hr' : Run step t ls' u) : Run step s (ls ++ ls') u := by
  induction hr' with
  | nil => simpa using hr
  | snoc _ ha ih =>
      rw [← List.append_assoc]
      exact .snoc ih ha

/-- Every state that `f` computes along a list of labels is the next state of a step. -/
def StepsAlong (step : σ → α → σ → Prop) (f : σ → α → σ) : σ → List α → Prop
  | _, [] => True
  | s, a :: ls => step s a (f s a) ∧ StepsAlong step f (f s a) ls

/-- Executing a step function along a list of labels is a run. -/
theorem Run.of_foldl (f : σ → α → σ) {s : σ} {ls : List α} (h : StepsAlong step f s ls) :
    Run step s ls (ls.foldl f s) := by
  induction ls generalizing s with
  | nil => exact .nil s
  | cons a ls ih => exact .cons h.1 (ih h.2)

/-- A run of one step. -/
theorem Run.single {s s' : σ} {a : α} (h : step s a s') : Run step s [a] s' :=
  .snoc (.nil s) h

end Framework
