import Mathlib.Logic.Function.Iterate
import Mathlib.Data.Nat.Notation
import Mathlib.Tactic.Common

/-!
# Programs as stacks of commands

A sequential program is a stack of commands over a state.  Executing the command on top either
replaces it by the commands of its body (none for a primitive command that is done) or leaves
it waiting.  `step` is total, a finished program and a stuck one stay where they are, and
`step^[n]` is the program after `n` steps.

`Completes` is execution of a list of commands to its end under any continuation, with rules
for sequencing, for calls and for waiting.  `stack_invariant` is the rule for properties of
commands that bodies inherit, and `not_at_of_completes` says that a program that ends has
never been at a command that is stuck.
-/

namespace Framework

/-- What executing a command does. -/
inductive Effect (κ σ : Type*) where
  | call (body : List κ) (s : σ)
  | wait (s : σ)

namespace CallStack

variable {κ σ : Type*} (exec : κ → σ → Effect κ σ)

/-- One step of a program. -/
def step : List κ × σ → List κ × σ
  | ([], s) => ([], s)
  | (c :: k, s) =>
      match exec c s with
      | .call body s' => (body ++ k, s')
      | .wait s' => (c :: k, s')

variable {exec}

@[simp] lemma step_nil (s : σ) : step exec ([], s) = ([], s) := rfl

lemma step_call {c : κ} {k body : List κ} {s s' : σ} (h : exec c s = .call body s') :
    step exec (c :: k, s) = (body ++ k, s') := by
  simp [step, h]

lemma step_wait {c : κ} {k : List κ} {s s' : σ} (h : exec c s = .wait s') :
    step exec (c :: k, s) = (c :: k, s') := by
  simp [step, h]

/-- What lies under the command on top takes no part in a step. -/
lemma step_append {k : List κ} (hk : k ≠ []) (d : List κ) (s : σ) :
    step exec (k ++ d, s) = ((step exec (k, s)).1 ++ d, (step exec (k, s)).2) := by
  obtain ⟨c, k, rfl⟩ := List.exists_cons_of_ne_nil hk
  cases hc : exec c s with
  | call body s' => rw [List.cons_append, step_call hc, step_call hc, List.append_assoc]
  | wait s' => rw [List.cons_append, step_wait hc, step_wait hc, List.cons_append]

/-! ## Reaching a configuration -/

variable (exec) in
/-- The program gets from one configuration to another. -/
def Reaches (a b : List κ × σ) : Prop := ∃ n, (step exec)^[n] a = b

lemma Reaches.refl (a : List κ × σ) : Reaches exec a a := ⟨0, rfl⟩

lemma Reaches.trans {a b c : List κ × σ} (h : Reaches exec a b) (h' : Reaches exec b c) :
    Reaches exec a c := by
  obtain ⟨n, rfl⟩ := h
  obtain ⟨m, rfl⟩ := h'
  exact ⟨m + n, Function.iterate_add_apply _ m n a⟩

lemma Reaches.call {c : κ} {k body : List κ} {s s' : σ} {b : List κ × σ}
    (h : exec c s = .call body s') (hb : Reaches exec (body ++ k, s') b) :
    Reaches exec (c :: k, s) b :=
  Reaches.trans ⟨1, step_call h⟩ hb

lemma Reaches.wait {c : κ} {k : List κ} {s s' : σ} {b : List κ × σ}
    (h : exec c s = .wait s') (hb : Reaches exec (c :: k, s') b) :
    Reaches exec (c :: k, s) b :=
  Reaches.trans ⟨1, step_wait h⟩ hb

/-! ## Completing a list of commands -/

variable (exec) in
/-- The commands `cs` run to their end, whatever comes after them. -/
def Completes (cs : List κ) (s s' : σ) : Prop := ∀ k, Reaches exec (cs ++ k, s) (k, s')

lemma Completes.nil (s : σ) : Completes exec [] s s := fun _ => .refl _

lemma Completes.append {cs ds : List κ} {s t u : σ} (h : Completes exec cs s t)
    (h' : Completes exec ds t u) : Completes exec (cs ++ ds) s u := by
  intro k
  rw [List.append_assoc]
  exact (h _).trans (h' k)

lemma Completes.cons {c : κ} {cs : List κ} {s t u : σ} (h : Completes exec [c] s t)
    (h' : Completes exec cs t u) : Completes exec (c :: cs) s u :=
  h.append h'

lemma Completes.call {c : κ} {body : List κ} {s s' t : σ} (h : exec c s = .call body s')
    (hb : Completes exec body s' t) : Completes exec [c] s t :=
  fun k => .call h (hb k)

lemma Completes.wait {c : κ} {s s' t : σ} (h : exec c s = .wait s')
    (hc : Completes exec [c] s' t) : Completes exec [c] s t :=
  fun k => .wait h (hc k)

/-! ## Invariants -/

/-- A property of commands that bodies inherit holds of every command a program ever has on
its stack. -/
lemma stack_invariant {P : κ → Prop}
    (hP : ∀ c s body s', P c → exec c s = .call body s' → ∀ d ∈ body, P d)
    {cs : List κ} (s : σ) (hcs : ∀ c ∈ cs, P c) (n : ℕ) :
    ∀ c ∈ ((step exec)^[n] (cs, s)).1, P c := by
  induction n with
  | zero => exact hcs
  | succ n ih =>
      rw [Function.iterate_succ_apply']
      generalize (step exec)^[n] (cs, s) = a at ih ⊢
      obtain ⟨stack, t⟩ := a
      cases stack with
      | nil => exact ih
      | cons c k =>
          cases hc : exec c t with
          | call body t' =>
              rw [step_call hc]
              intro d hd
              rcases List.mem_append.mp hd with hd | hd
              · exact hP c t body t' (ih c List.mem_cons_self) hc d hd
              · exact ih d (List.mem_cons_of_mem _ hd)
          | wait t' =>
              rw [step_wait hc]
              exact ih

/-- The command on top meets `B` in the current state. -/
def At (B : κ → σ → Prop) (a : List κ × σ) : Prop := ∃ c k, a.1 = c :: k ∧ B c a.2

/-- A stuck program stays where it is. -/
lemma iterate_of_stuck {B : κ → σ → Prop} (hB : ∀ c s, B c s → exec c s = .wait s)
    {a : List κ × σ} (ha : At B a) (n : ℕ) : (step exec)^[n] a = a := by
  obtain ⟨stack, s⟩ := a
  obtain ⟨c, k, rfl, hc⟩ := ha
  exact Function.iterate_fixed (step_wait (hB c s hc)) n

/-- A program that reaches a stuck command never ends. -/
lemma not_ends_of_reaches {B : κ → σ → Prop} (hB : ∀ c s, B c s → exec c s = .wait s)
    {a b : List κ × σ} (hab : Reaches exec a b) (hb : At B b) (n : ℕ) :
    ((step exec)^[n] a).1 ≠ [] := by
  intro hn
  obtain ⟨m, rfl⟩ := hab
  have hend : ((step exec)^[m + n] a).1 = [] := by
    rw [Function.iterate_add_apply]
    generalize (step exec)^[n] a = x at hn
    obtain ⟨stack, s⟩ := x
    obtain rfl : stack = [] := hn
    rw [Function.iterate_fixed (step_nil s)]
  rw [Nat.add_comm, Function.iterate_add_apply, iterate_of_stuck hB hb] at hend
  obtain ⟨c, k, hck, -⟩ := hb
  rw [hck] at hend
  exact absurd hend (by simp)

end CallStack

end Framework
