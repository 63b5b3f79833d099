import Mathlib.Data.List.Count
import Rpi2Baremetal.Framework.Memory
import Rpi2Baremetal.Framework.Transition

/-!
# Threads over a shared memory

`Thread.solo` executes a thread by itself, in a memory that stays as it is; `Thread.step` lets
any of several threads go on in the memory they share.

`Thread.Agree` is what makes the second as simple as the first: no thread loads what any of them
stores to, and two stores to one cell store the same value.  Then in every interleaving each
thread is where it is by itself after as many steps, and a cell holds what it held at first until
the first store to it, and what is stored there from then on (`Thread.Agree.reached`).
-/

namespace Framework

variable {ι S A V : Type*}

/-- The code of a thread.  A step depends on the cells it loads only. -/
structure Thread (S A V : Type*) where
  next : S → Memory A V → Option S
  loads : S → List A
  stores : S → List (A × V)
  next_congr : ∀ s m m', (∀ a ∈ loads s, m a = m' a) → next s m = next s m'

/-- Threads and their memory. -/
structure Threads (ι S A V : Type*) where
  thread : ι → S
  mem : Memory A V

namespace Thread

/-- `k` steps of a thread by itself. -/
def solo (T : Thread S A V) (m : Memory A V) (s : S) : ℕ → Option S
  | 0 => some s
  | k + 1 => (T.solo m s k).bind fun t => T.next t m

/-- By itself a thread gets from one state to another in a number of steps, through states that
meet `P`. -/
inductive Passes (T : Thread S A V) (m : Memory A V) (P : S → Prop) : S → ℕ → S → Prop
  | nil (s : S) : Passes T m P s 0 s
  | cons {s t u : S} {n : ℕ} :
      P s → T.next s m = some t → Passes T m P t n u → Passes T m P s (n + 1) u

/-- By itself a thread stores to the cell `a` within `n` steps. -/
def StoresBy (T : Thread S A V) (m : Memory A V) (s : S) (n : ℕ) (a : A) : Prop :=
  ∃ k t, k < n ∧ T.solo m s k = some t ∧ a ∈ (T.stores t).map Prod.fst

/-- A step of thread `i`. -/
def step [DecidableEq ι] [DecidableEq A] (T : Thread S A V) (c : Threads ι S A V) (i : ι) :
    Option (Threads ι S A V) :=
  (T.next (c.thread i) c.mem).map fun s =>
    { thread := Function.update c.thread i s
      mem := c.mem.writeAll Prod.fst Prod.snd (T.stores (c.thread i)) }

/-- The step from `s` stores nothing but what `stored` says, and loads no cell it says something
about. -/
structure Safe (T : Thread S A V) (stored : A → Option V) (s : S) : Prop where
  stores : ∀ x ∈ T.stores s, stored x.1 = some x.2
  loads : ∀ a ∈ T.loads s, stored a = none

/-- By themselves, the threads of `c` do what is safe. -/
def Agree (T : Thread S A V) (c : Threads ι S A V) (stored : A → Option V) : Prop :=
  ∀ {i k s}, T.solo c.mem (c.thread i) k = some s → T.Safe stored s

/-- Some thread has stored to the cell `a` by the end of the steps `ls`. -/
def HasStored [DecidableEq ι] (T : Thread S A V) (c : Threads ι S A V) (ls : List ι) (a : A) :
    Prop :=
  ∃ i, T.StoresBy c.mem (c.thread i) (ls.count i) a

/-- What an interleaving `ls` of threads that agree leads to. -/
structure Reached [DecidableEq ι] (T : Thread S A V) (c : Threads ι S A V)
    (stored : A → Option V) (ls : List ι) (c' : Threads ι S A V) : Prop where
  thread : ∀ i, T.solo c.mem (c.thread i) (ls.count i) = some (c'.thread i)
  stored : ∀ a, T.HasStored c ls a → stored a = some (c'.mem a)
  kept : ∀ a, ¬ T.HasStored c ls a → c'.mem a = c.mem a

variable [DecidableEq ι] {T : Thread S A V} {c c' c'' : Threads ι S A V}
  {stored : A → Option V} {ls : List ι} {i : ι}

/-! ## One thread -/

section Solo

variable {m : Memory A V} {P : S → Prop} {s t u : S} {n n' k : ℕ} {a : A}

lemma solo_cons (T : Thread S A V) (m : Memory A V) (s : S) (k : ℕ) :
    T.solo m s (k + 1) = (T.next s m).bind fun t => T.solo m t k := by
  induction k with
  | zero => cases h : T.next s m <;> simp [solo, h]
  | succ k ih =>
      rw [solo, ih, Option.bind_assoc]
      rfl

/-- A thread that has ended makes no further step. -/
lemma solo_none_add (h : T.solo m s k = none) (d : ℕ) : T.solo m s (k + d) = none := by
  induction d with
  | zero => exact h
  | succ d ih => rw [← Nat.add_assoc, Thread.solo, ih, Option.bind_none]

/-- Before its end a thread can make a step. -/
lemma next_isSome_of_solo (hn : T.solo m s n = some t) (hk : k < n)
    (hu : T.solo m s k = some u) : (T.next u m).isSome := by
  by_contra hnone
  rw [Option.not_isSome_iff_eq_none] at hnone
  obtain ⟨d, rfl⟩ : ∃ d, n = k + 1 + d := ⟨n - (k + 1), by omega⟩
  have hk' : T.solo m s (k + 1) = none := by rw [Thread.solo, hu, Option.bind_some, hnone]
  rw [solo_none_add hk' d] at hn
  cases hn

lemma StoresBy.mono (h : T.StoresBy m s n a) (hn : n ≤ n') : T.StoresBy m s n' a := by
  obtain ⟨k, t, hk, ht⟩ := h
  exact ⟨k, t, hk.trans_le hn, ht⟩

lemma StoresBy.head (h : a ∈ (T.stores s).map Prod.fst) : T.StoresBy m s (n + 1) a :=
  ⟨0, s, Nat.succ_pos n, rfl, h⟩

lemma StoresBy.next (hnext : T.next s m = some t) (h : T.StoresBy m t n a) :
    T.StoresBy m s (n + 1) a := by
  obtain ⟨k, u, hk, hu, ha⟩ := h
  refine ⟨k + 1, u, Nat.succ_lt_succ hk, ?_, ha⟩
  rw [solo_cons, hnext, Option.bind_some, hu]

namespace Passes

lemma storesBy (h : T.Passes m P s n t) (ha : T.StoresBy m t n' a) :
    T.StoresBy m s (n + n') a := by
  induction h with
  | nil => rwa [Nat.zero_add]
  | cons _ hnext _ ih =>
      rw [Nat.add_right_comm]
      exact (ih ha).next hnext

lemma append (h : T.Passes m P s n t) (h' : T.Passes m P t n' u) :
    T.Passes m P s (n + n') u := by
  induction h with
  | nil => rwa [Nat.zero_add]
  | cons hs hnext _ ih =>
      rw [Nat.add_right_comm]
      exact .cons hs hnext (ih h')

lemma single (hs : P s) (h : T.next s m = some t) : T.Passes m P s 1 t := .cons hs h (.nil t)

lemma solo (h : T.Passes m P s n t) : T.solo m s n = some t := by
  induction h with
  | nil => rfl
  | cons _ hnext _ ih => rw [solo_cons, hnext, Option.bind_some, ih]

/-- A thread that ends is in one of the states it passes, or in the last. -/
lemma of_solo (h : T.Passes m P s n t) (hend : T.next t m = none) (ht : P t)
    (hu : T.solo m s k = some u) : P u := by
  induction h generalizing k with
  | nil =>
      cases k with
      | zero => exact Option.some.inj hu ▸ ht
      | succ k =>
          rw [solo_cons, hend, Option.bind_none] at hu
          cases hu
  | cons hs hnext _ ih =>
      cases k with
      | zero => exact Option.some.inj hu ▸ hs
      | succ k =>
          rw [solo_cons, hnext, Option.bind_some] at hu
          exact ih hend ht hu

end Passes

end Solo

/-! ## Together -/

namespace Reached

/-- A cell nothing is stored to keeps its value. -/
lemma untouched (h : T.Reached c stored ls c') {a : A} (ha : stored a = none) :
    c'.mem a = c.mem a := by
  refine h.kept a fun hst => ?_
  rw [h.stored a hst] at ha
  cases ha

/-- What a thread loads is as it was at first. -/
lemma next_eq (hagree : T.Agree c stored) (h : T.Reached c stored ls c') (i : ι) :
    T.next (c'.thread i) c'.mem = T.next (c'.thread i) c.mem := by
  refine T.next_congr _ _ _ fun a ha => h.untouched ?_
  exact (hagree (h.thread i)).loads a ha

/-- A thread that ends after `n` steps has not made more. -/
lemma count_le (h : T.Reached c stored ls c') {n : ℕ} {s : S}
    (hn : T.solo c.mem (c.thread i) n = some s) (hend : T.next s c.mem = none) :
    ls.count i ≤ n := by
  by_contra hlt
  have hnone : T.solo c.mem (c.thread i) (n + 1) = none := by
    rw [solo, hn, Option.bind_some, hend]
  obtain ⟨d, hd⟩ : ∃ d, ls.count i = n + 1 + d := ⟨ls.count i - (n + 1), by omega⟩
  have hthread := h.thread i
  rw [hd, solo_none_add hnone] at hthread
  cases hthread

end Reached

/-! ## The steps -/

variable [DecidableEq A]

lemma writeAll_agree {is : List (A × V)} (h : ∀ x ∈ is, stored x.1 = some x.2) (m : Memory A V)
    {a : A} (ha : stored a = some (m a) ∨ a ∈ is.map Prod.fst) :
    stored a = some (m.writeAll Prod.fst Prod.snd is a) := by
  induction is generalizing m with
  | nil => simpa using ha
  | cons x is ih =>
      simp only [List.mem_cons, forall_eq_or_imp] at h
      rw [Memory.writeAll_cons]
      refine ih h.2 _ ?_
      by_cases hx : a = x.1
      · refine .inl ?_
        rw [hx, Memory.write_same]
        exact h.1
      · rw [Memory.write_of_ne _ _ hx]
        simpa [hx] using ha

lemma hasStored_snoc (hthread : T.solo c.mem (c.thread i) (ls.count i) = some (c'.thread i))
    (a : A) : T.HasStored c (ls ++ [i]) a ↔
      T.HasStored c ls a ∨ a ∈ (T.stores (c'.thread i)).map Prod.fst := by
  constructor
  · rintro ⟨j, k, s, hk, hs, ha⟩
    by_cases hlt : k < ls.count j
    · exact .inl ⟨j, k, s, hlt, hs, ha⟩
    · refine .inr ?_
      rw [List.count_append, List.count_singleton] at hk
      by_cases hj : i = j
      · subst hj
        obtain rfl : k = ls.count i := by
          rw [if_pos BEq.rfl] at hk
          omega
        rw [hthread, Option.some.injEq] at hs
        rwa [hs]
      · rw [if_neg (by simpa using hj)] at hk
        omega
  · rintro (⟨j, hj⟩ | ha)
    · refine ⟨j, hj.mono ?_⟩
      rw [List.count_append]
      exact Nat.le_add_right ..
    · refine ⟨i, ls.count i, c'.thread i, ?_, hthread, ha⟩
      rw [List.count_append, List.count_singleton_self]
      exact Nat.lt_succ_self _

/-- One step of any thread. -/
lemma Reached.step (hagree : T.Agree c stored) (h : T.Reached c stored ls c')
    (hstep : T.step c' i = some c'') : T.Reached c stored (ls ++ [i]) c'' := by
  obtain ⟨s, hs, rfl⟩ := Option.map_eq_some_iff.mp hstep
  rw [h.next_eq hagree] at hs
  refine ⟨fun j => ?_, fun a ha => ?_, fun a ha => ?_⟩
  · show T.solo c.mem (c.thread j) _ = some (Function.update c'.thread i s j)
    rw [List.count_append, List.count_singleton]
    by_cases hj : i = j
    · subst hj
      rw [if_pos BEq.rfl, Function.update_self, solo, h.thread i, Option.bind_some, hs]
    · rw [if_neg (by simpa using hj), Nat.add_zero, Function.update_of_ne (Ne.symm hj), h.thread]
  · refine writeAll_agree ((hagree (h.thread i)).stores) _ ?_
    exact ((hasStored_snoc (h.thread i) a).mp ha).imp_left (h.stored a)
  · rw [hasStored_snoc (h.thread i), not_or] at ha
    refine Eq.trans (Memory.writeAll_of_notMem _ _ _ fun x hx he => ha.2 ?_) (h.kept a ha.1)
    exact List.mem_map.mpr ⟨x, hx, he⟩

/-- **Every interleaving** of threads that agree. -/
theorem Agree.reached (hagree : T.Agree c stored)
    (hr : Run (fun c i c' => T.step c i = some c') c ls c') : T.Reached c stored ls c' := by
  refine hr.history_invariant (fun ls t i t' h hstep => h.step hagree hstep) ?_
  exact ⟨fun i => rfl, fun a ⟨_, _, _, hk, _⟩ => absurd hk (Nat.not_lt_zero _), fun a _ => rfl⟩

/-- A thread that ends by itself: in every interleaving it makes the same steps, and is never kept
from making the next one. -/
lemma Reached.of_solo (hagree : T.Agree c stored) (h : T.Reached c stored ls c') {n : ℕ} {t : S}
    (hn : T.solo c.mem (c.thread i) n = some t) (hend : T.next t c.mem = none) :
    ls.count i ≤ n ∧ (ls.count i < n → (T.step c' i).isSome) ∧
      (ls.count i = n → c'.thread i = t) := by
  refine ⟨h.count_le hn hend, fun hlt => ?_, fun heq => ?_⟩
  · rw [Thread.step, Option.isSome_map, h.next_eq hagree]
    exact next_isSome_of_solo hn hlt (h.thread i)
  · have hthread := h.thread i
    rw [heq, hn] at hthread
    exact (Option.some.inj hthread).symm

end Thread

end Framework
