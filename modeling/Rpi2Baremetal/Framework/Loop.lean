import Mathlib.Tactic.Common
import Mathlib.Data.Nat.Notation

/-!
# Loops with an exit

A loop of an imperative program is a *body* that, from the current values of the loop's
variables, either goes round again or leaves with a result.  `Loop.run` iterates a body for
a bounded number of passes and is executable; `Loop.Returns` says that some number of passes
is enough, which is what termination of the loop means.

`Returns.unique` makes the result independent of the bound, and `returns_of_leave` and
`returns_of_again` execute one pass.  An invariant bounds the result (`Returns.of_invariant`),
and a loop that does not end is recognised by one (`not_returns_of_invariant`).  `Loop.Trace` lists
the states in which the passes are made.
-/

namespace Framework

/-- What one pass through a loop body does: go round again, or leave the loop. -/
inductive Pass (σ ρ : Type*) where
  | again (s : σ)
  | leave (r : ρ)

namespace Loop

variable {σ ρ : Type*} (body : σ → Pass σ ρ)

/-- Iterate `body` from `s` for at most `n` passes. -/
def run : ℕ → σ → Option ρ
  | 0, _ => none
  | n + 1, s =>
      match body s with
      | .again s' => run n s'
      | .leave r => some r

/-- The loop entered at `s` terminates and leaves with `r`. -/
def Returns (s : σ) (r : ρ) : Prop := ∃ n, run body n s = some r

variable {body}

@[simp] lemma run_zero (s : σ) : run body 0 s = none := rfl

lemma run_succ_of_leave {s : σ} {r : ρ} (h : body s = .leave r) (n : ℕ) :
    run body (n + 1) s = some r := by
  simp [run, h]

lemma run_succ_of_again {s s' : σ} (h : body s = .again s') (n : ℕ) :
    run body (n + 1) s = run body n s' := by
  simp [run, h]

/-- More passes do not change a result already reached. -/
lemma run_mono {n m : ℕ} {s : σ} {r : ρ} (hnm : n ≤ m) (h : run body n s = some r) :
    run body m s = some r := by
  induction n generalizing m s with
  | zero => simp at h
  | succ n ih =>
      obtain ⟨m, rfl⟩ : ∃ k, m = k + 1 := ⟨m - 1, by omega⟩
      cases hb : body s with
      | leave r' => rwa [run_succ_of_leave hb] at h ⊢
      | again s' =>
          rw [run_succ_of_again hb] at h ⊢
          exact ih (by omega) h

/-- A loop has at most one result. -/
lemma Returns.unique {s : σ} {r r' : ρ} (h : Returns body s r) (h' : Returns body s r') :
    r = r' := by
  obtain ⟨n, hn⟩ := h
  obtain ⟨m, hm⟩ := h'
  have h1 := run_mono (Nat.le_max_left n m) hn
  have h2 := run_mono (Nat.le_max_right n m) hm
  exact Option.some.inj (h1.symm.trans h2)

lemma returns_of_leave {s : σ} {r : ρ} (h : body s = .leave r) : Returns body s r :=
  ⟨1, run_succ_of_leave h 0⟩

lemma returns_of_again {s s' : σ} {r : ρ} (h : body s = .again s') (hr : Returns body s' r) :
    Returns body s r := by
  obtain ⟨n, hn⟩ := hr
  exact ⟨n + 1, (run_succ_of_again h n).trans hn⟩

/-- A pass that goes round again does not change what the loop leaves with. -/
lemma returns_again_iff {s s' : σ} {r : ρ} (h : body s = .again s') :
    Returns body s r ↔ Returns body s' r := by
  refine ⟨fun ⟨n, hn⟩ => ?_, returns_of_again h⟩
  cases n with
  | zero => cases hn
  | succ n => exact ⟨n, (run_succ_of_again h n).symm.trans hn⟩

/-- A loop does not end if its passes go round again on an invariant. -/
lemma not_returns_of_invariant {P : σ → Prop} {s : σ} {r : ρ}
    (h : ∀ s, P s → ∃ s', body s = .again s' ∧ P s') (hs : P s) : ¬ Returns body s r := by
  rintro ⟨n, hn⟩
  induction n generalizing s with
  | zero => cases hn
  | succ n ih =>
      obtain ⟨s', hb, hs'⟩ := h s hs
      rw [run_succ_of_again hb] at hn
      exact ih hs' hn

/-- What every exit from an invariant satisfies holds of the result. -/
lemma Returns.of_invariant {P : σ → Prop} {Q : ρ → Prop} {s : σ} {r : ρ}
    (hagain : ∀ s s', P s → body s = .again s' → P s')
    (hleave : ∀ s r, P s → body s = .leave r → Q r) (hs : P s) (h : Returns body s r) : Q r := by
  obtain ⟨n, hn⟩ := h
  induction n generalizing s with
  | zero => cases hn
  | succ n ih =>
      cases hb : body s with
      | again s' =>
          rw [run_succ_of_again hb] at hn
          exact ih (hagain s s' hs hb) hn
      | leave r' =>
          rw [run_succ_of_leave hb] at hn
          obtain rfl := Option.some.inj hn
          exact hleave s r' hs hb

variable (body) in
/-- The loop entered at `s` makes its passes in the states `ss`, in this order, and leaves with
`r`. -/
inductive Trace : σ → List σ → ρ → Prop
  | leave {s : σ} {r : ρ} (h : body s = .leave r) : Trace s [s] r
  | again {s s' : σ} {ss : List σ} {r : ρ} (h : body s = .again s') (ht : Trace s' ss r) :
      Trace s (s :: ss) r

/-- A bound of one for each pass is enough. -/
lemma Trace.run {s : σ} {ss : List σ} {r : ρ} (h : Trace body s ss r) :
    Loop.run body ss.length s = some r := by
  induction h with
  | leave h => exact run_succ_of_leave h 0
  | again h _ ih => exact (run_succ_of_again h _).trans ih

end Loop

end Framework
