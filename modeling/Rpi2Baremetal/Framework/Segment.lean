import Mathlib.Tactic
import Mathlib.Logic.Function.Basic

/-!
# Linked segments

`Seg next p ws z` says that following `next` from the pointer `p` visits exactly the nodes
`ws` and then reaches `z`.  A circular list through `a` is `Seg next (next a) ws a`.

`seg_append` splits a segment, `Seg.congr` moves it to another link function that agrees on
its nodes, `Seg.relink` redirects the last link of a segment, which is how a node is unlinked,
and `Seg.splice` is how one is inserted.
-/

namespace Framework

variable {α : Type*} {next next' : α → α}

/-- Following `next` from `p` visits `ws` and then reaches `z`. -/
def Seg (next : α → α) : α → List α → α → Prop
  | p, [], z => p = z
  | p, w :: ws, z => p = w ∧ Seg next (next w) ws z

@[simp] lemma seg_nil {p z : α} : Seg next p [] z ↔ p = z := Iff.rfl

@[simp] lemma seg_cons {p w z : α} {ws : List α} :
    Seg next p (w :: ws) z ↔ p = w ∧ Seg next (next w) ws z := Iff.rfl

/-- A segment splits at any node. -/
lemma seg_append {p z : α} {us vs : List α} :
    Seg next p (us ++ vs) z ↔ ∃ y, Seg next p us y ∧ Seg next y vs z := by
  induction us generalizing p with
  | nil => simp
  | cons u us ih => simp [ih, and_assoc]

/-- A segment reads only the links of its nodes. -/
lemma Seg.congr {p z : α} {ws : List α} (h : ∀ w ∈ ws, next' w = next w)
    (hs : Seg next p ws z) : Seg next' p ws z := by
  induction ws generalizing p with
  | nil => exact hs
  | cons w ws ih =>
      simp only [List.mem_cons, forall_eq_or_imp] at h
      refine ⟨hs.1, ?_⟩
      rw [h.1]
      exact ih h.2 hs.2

/-- A segment that does not pass where it ends is determined by where it starts and ends. -/
lemma Seg.unique {p z : α} {us vs : List α} (hus : Seg next p us z) (hvs : Seg next p vs z)
    (hz : z ∉ us) (hz' : z ∉ vs) : us = vs := by
  induction us generalizing p vs with
  | nil =>
      rw [seg_nil] at hus
      cases vs with
      | nil => rfl
      | cons v vs => exact absurd (by simp [← hus, hvs.1]) hz'
  | cons u us ih =>
      cases vs with
      | nil =>
          rw [seg_nil] at hvs
          exact absurd (by simp [← hvs, hus.1]) hz
      | cons v vs =>
          obtain rfl : u = v := hus.1.symm.trans hvs.1
          rw [ih hus.2 hvs.2 (fun h => hz (List.mem_cons_of_mem _ h))
            fun h => hz' (List.mem_cons_of_mem _ h)]

/-- A list has the elements it has without one in its middle. -/
lemma mem_middle {p q : α} {pre post : List α} (h : q ∈ pre ++ post) : q ∈ pre ++ p :: post :=
  List.perm_middle.mem_iff.mpr (List.mem_cons_of_mem p h)

lemma mem_of_mem_middle {p q : α} {pre post : List α} (h : q ∈ pre ++ p :: post) (hne : q ≠ p) :
    q ∈ pre ++ post :=
  List.mem_of_ne_of_mem hne (List.perm_middle.mem_iff.mp h)

/-- The last node reached by a segment that starts after `a`. -/
lemma getLastD_mem (a : α) (ws : List α) : ws.getLastD a ∈ a :: ws := by
  induction ws generalizing a with
  | nil => simp
  | cons w ws ih =>
      rw [List.getLastD_cons]
      exact List.mem_cons_of_mem _ (ih w)

/-- Redirecting the last link of a segment that starts after `a` makes it end elsewhere. -/
lemma Seg.relink [DecidableEq α] {a y z : α} {ws : List α} (hnd : (a :: ws).Nodup)
    (hs : Seg next (next a) ws y) (h : next' = Function.update next (ws.getLastD a) z) :
    Seg next' (next' a) ws z := by
  induction ws generalizing a with
  | nil => simp [h]
  | cons w ws ih =>
      rw [List.getLastD_cons] at h
      have hne : a ≠ ws.getLastD w := by
        intro he
        have := getLastD_mem w ws
        rw [← he] at this
        exact (List.nodup_cons.mp hnd).1 this
      rw [seg_cons] at hs ⊢
      refine ⟨?_, ih (List.nodup_cons.mp hnd).2 hs.2 h⟩
      rw [h, Function.update_of_ne hne]
      exact hs.1

/-- The last node of a segment links to where the segment ends. -/
lemma Seg.next_getLastD {a z : α} {ws : List α} (hs : Seg next (next a) ws z) :
    next (ws.getLastD a) = z := by
  induction ws generalizing a with
  | nil => exact hs
  | cons w ws ih =>
      rw [List.getLastD_cons]
      exact ih hs.2

/-- Splicing a node `p` with successor `v` in after a segment: the segment now ends where its
last link is redirected to, and the segment that started at `v` is unchanged. -/
lemma Seg.splice [DecidableEq α] {a p v y z t : α} {ws vs : List α} (hnd : (a :: ws).Nodup)
    (hp : p ∉ a :: ws) (hpv : p ∉ vs) (hdisj : ∀ w ∈ a :: ws, w ∉ vs)
    (hs : Seg next (next a) ws y) (hv : Seg next v vs z)
    (h : next' = Function.update (Function.update next p v) (ws.getLastD a) t) :
    Seg next' (next' a) ws t ∧ Seg next' v vs z ∧ next' p = v := by
  have hq := getLastD_mem a ws
  refine ⟨?_, hv.congr fun w hw => ?_, ?_⟩
  · refine Seg.relink (y := y) hnd ?_ h
    have hap : a ≠ p := fun he => hp (he ▸ List.mem_cons_self ..)
    rw [Function.update_of_ne hap]
    refine hs.congr fun w hw => Function.update_of_ne ?_ ..
    rintro rfl
    exact hp (List.mem_cons_of_mem _ hw)
  · rw [h, Function.update_of_ne, Function.update_of_ne]
    · exact fun he => hpv (he ▸ hw)
    · exact fun he => hdisj _ hq (he ▸ hw)
  · rw [h, Function.update_of_ne, Function.update_self]
    exact fun he => hp (he ▸ hq)

end Framework
