import Mathlib.Tactic.Common

/-!
# Triples for computations that may halt

`Triple P x Q E` says of a computation `x` with a state: from every state that meets `P` it
either ends with a result and a state that meet `Q`, or halts in a state that meets `E`.  The
rules follow the constructors of a computation.

A scan is a loop over a list that some elements bring to a halt.  `ScansOnly ok stop l` says
that the scan of `l` looks at elements that meet `ok` only, and `Triple.forM_scan` is its rule.
`forM_returns` is the rule for a loop over a list that does not halt.
-/

namespace Framework

variable {ε σ α β ι : Type}

/-- The state a computation ends or halts in. -/
def lastState (x : EStateM ε σ α) (s : σ) : σ :=
  match x s with
  | .ok _ s' => s'
  | .error _ s' => s'

def Triple (P : σ → Prop) (x : EStateM ε σ α) (Q : α → σ → Prop) (E : σ → Prop) : Prop :=
  ∀ s, P s → match x s with
    | .ok a s' => Q a s'
    | .error _ s' => E s'

lemma lastState_ok {x : EStateM ε σ α} {s s' : σ} {a : α} (h : x s = .ok a s') :
    lastState x s = s' := by
  rw [lastState, h]

lemma lastState_error {x : EStateM ε σ α} {s s' : σ} {e : ε} (h : x s = .error e s') :
    lastState x s = s' := by
  rw [lastState, h]

@[simp] lemma lastState_discard (x : EStateM ε σ α) (s : σ) :
    lastState (discard x) s = lastState x s := by
  show lastState (EStateM.map _ x) s = lastState x s
  rw [lastState, lastState, EStateM.map]
  cases x s <;> rfl

lemma discard_ok {x : EStateM ε σ α} {s s' : σ} {a : α} (h : x s = .ok a s') :
    discard x s = .ok () s' := by
  show EStateM.map _ x s = _
  rw [EStateM.map, h]

lemma of_discard_ok {x : EStateM ε σ α} {s s' : σ} (h : discard x s = .ok () s') :
    ∃ a, x s = .ok a s' := by
  have hmap : EStateM.map (fun _ => ()) x s = .ok () s' := h
  rw [EStateM.map] at hmap
  cases hx : x s with
  | ok a t =>
      rw [hx] at hmap
      cases hmap
      exact ⟨a, rfl⟩
  | error e t =>
      rw [hx] at hmap
      cases hmap

namespace Triple

variable {P : σ → Prop} {Q : α → σ → Prop} {R : β → σ → Prop} {E : σ → Prop}
  {x : EStateM ε σ α}

/-- What holds however a computation ends or halts holds of the state it does so in. -/
theorem lastState {I : σ → Prop} (h : Triple P x (fun _ => I) I) {s : σ} (hs : P s) :
    I (lastState x s) := by
  have := h s hs
  rw [Framework.lastState]
  split at this <;> simp_all

theorem consequence (h : Triple P x Q E) {P' : σ → Prop} {Q' : α → σ → Prop} {E' : σ → Prop}
    (hp : ∀ s, P' s → P s) (hq : ∀ a s, Q a s → Q' a s) (he : ∀ s, E s → E' s) :
    Triple P' x Q' E' := by
  intro s hs
  have := h s (hp s hs)
  split at this
  · exact hq _ _ this
  · exact he _ this

theorem ok {f : σ → σ} {a : σ → α} (hx : ∀ s, x s = .ok (a s) (f s))
    (h : ∀ s, P s → Q (a s) (f s)) : Triple P x Q E := by
  intro s hs
  rw [hx]
  exact h s hs

theorem pure (a : α) (h : ∀ s, P s → Q a s) : Triple P (pure a : EStateM ε σ α) Q E :=
  fun s hs => h s hs

theorem throw (e : ε) (h : ∀ s, P s → E s) : Triple P (throw e : EStateM ε σ α) Q E :=
  fun s hs => h s hs

theorem bind {f : α → EStateM ε σ β} (hx : Triple P x Q E)
    (hf : ∀ a, Triple (Q a) (f a) R E) : Triple P (x >>= f) R E := by
  intro s hs
  have hxs := hx s hs
  show match EStateM.bind x f s with | .ok b s' => R b s' | .error _ s' => E s'
  rw [EStateM.bind]
  split at hxs
  · next a s' heq => rw [heq]; exact hf a s' hxs
  · next e s' heq => rw [heq]; exact hxs

theorem ite {c : Prop} [Decidable c] {y : EStateM ε σ α} (hx : c → Triple P x Q E)
    (hy : ¬ c → Triple P y Q E) : Triple P (if c then x else y) Q E := by
  split
  · next h => exact hx h
  · next h => exact hy h

end Triple

/-! ## Loops over a list -/

/-- A scan of a list that stops at the first element that meets `stop` looks at elements that
meet `ok` only. -/
def ScansOnly (ok stop : ι → Prop) : List ι → Prop
  | [] => True
  | i :: l => ok i ∧ (stop i ∨ ScansOnly ok stop l)

lemma scansOnly_of_forall {ok : ι → Prop} (stop : ι → Prop) {l : List ι} (h : ∀ i ∈ l, ok i) :
    ScansOnly ok stop l := by
  induction l with
  | nil => trivial
  | cons i l ih =>
      obtain ⟨hi, hl⟩ := List.forall_mem_cons.mp h
      exact ⟨hi, .inr (ih hl)⟩

/-- A scan of the numbers from `b` on stays below `n` if it stops below `n`. -/
lemma scansOnly_range' {stop : ℕ → Prop} {n j : ℕ} (hj : j < n) (hstop : stop j) {b m : ℕ}
    (hmem : j ∈ List.range' b m) : ScansOnly (· < n) stop (List.range' b m) := by
  induction m generalizing b with
  | zero => simp at hmem
  | succ m ih =>
      rw [List.range'_succ] at hmem ⊢
      have hb : b ≤ j := by
        simp only [List.mem_cons, List.mem_range'] at hmem
        omega
      refine ⟨by omega, ?_⟩
      rcases List.mem_cons.mp hmem with rfl | hmem
      · exact .inl hstop
      · exact .inr (ih hmem)

namespace Triple

variable {I E : σ → Prop} {body : ι → EStateM ε σ PUnit}

/-- The rule for a scan with an invariant: the body preserves it where the scan looks, and
does not end where the scan stops. -/
theorem forM_scan {ok stop : ι → Prop} {l : List ι} (hl : ScansOnly ok stop l)
    (hbody : ∀ i, ok i → Triple I (body i) (fun _ => I) E)
    (hstop : ∀ i, ok i → stop i → Triple I (body i) (fun _ _ => False) E) :
    Triple I (forM l body) (fun _ => I) E := by
  induction l with
  | nil => exact .pure _ fun _ hs => hs
  | cons i l ih =>
      obtain ⟨hi, hrest⟩ := hl
      rw [List.forM_cons]
      rcases hrest with hi' | hl
      · exact (hstop i hi hi').bind fun _ _ h => h.elim
      · exact (hbody i hi).bind fun _ => ih hl

/-- The rule for a loop over a list with an invariant. -/
theorem forM {l : List ι} (hbody : ∀ i ∈ l, Triple I (body i) (fun _ => I) E) :
    Triple I (forM l body) (fun _ => I) E := by
  have hl : ScansOnly (· ∈ l) (fun _ => False) l := scansOnly_of_forall _ fun _ h => h
  exact forM_scan hl hbody fun _ _ h => h.elim

end Triple

/-- The rule for a loop over a list that returns: the invariant says what it has done so far. -/
theorem forM_returns {I : List ι → σ → Prop} {body : ι → EStateM ε σ PUnit} {l : List ι} {s : σ}
    (hI : I [] s) (hbody : ∀ done i rest, l = done ++ i :: rest → ∀ s, I done s →
      ∃ s', body i s = .ok () s' ∧ I (done ++ [i]) s') :
    ∃ s', forM l body s = .ok () s' ∧ I l s' := by
  have hloop : ∀ rest done s, l = done ++ rest → I done s →
      ∃ s', forM rest body s = .ok () s' ∧ I l s' := by
    intro rest
    induction rest with
    | nil =>
        intro done s hl hdone
        rw [List.append_nil] at hl
        exact ⟨s, rfl, hl ▸ hdone⟩
    | cons i rest ih =>
        intro done s hl hdone
        obtain ⟨s₁, hok, hI₁⟩ := hbody done i rest hl s hdone
        obtain ⟨s₂, hrest, hI₂⟩ := ih (done ++ [i]) s₁ (by simpa using hl) hI₁
        refine ⟨s₂, ?_, hI₂⟩
        show EStateM.bind (body i) (fun _ => forM rest body) s = _
        rw [EStateM.bind, hok]
        exact hrest
  exact hloop l [] s rfl hI

/-- Over a list without repetition each element is new. -/
theorem forM_returns_of_nodup {I : List ι → σ → Prop} {body : ι → EStateM ε σ PUnit} {l : List ι}
    {s : σ} (hl : l.Nodup) (hI : I [] s) (hbody : ∀ done i, i ∉ done → ∀ s, I done s →
      ∃ s', body i s = .ok () s' ∧ I (done ++ [i]) s') :
    ∃ s', forM l body s = .ok () s' ∧ I l s' := by
  refine forM_returns hI fun done i rest hsplit s hdone => hbody done i (fun hmem => ?_) s hdone
  exact (List.nodup_append.mp (hsplit ▸ hl)).2.2 i hmem i List.mem_cons_self rfl

end Framework
