import Mathlib.Tactic
import Mathlib.Data.List.Pairwise
import Mathlib.Algebra.BigOperators.Group.List.Basic

/-!
# Block heaps

The abstract state of an allocator that hands out blocks of a contiguous region: a list of
free blocks in address order and a list of live blocks, all of them inside the region and
pairwise disjoint.  A block is a start address and a size counted in units of `u` addresses.

`carve` takes a request from the tail end of the first free block that is large enough, and
`consJoin` puts a block in front of a list and merges the two when they touch.  The two heap
operations are `BlockHeap.alloc`, built from the first, and `BlockHeap.release`, built from
the second; both return a `BlockHeap`, so they keep the well-formedness the structure carries.
`alloc_total` and `release_total` say that no unit is lost or made up.
-/

namespace Framework

/-- A block of `size` units at address `start`. -/
structure Block where
  start : ℕ
  size : ℕ
  deriving DecidableEq, Repr

namespace Block

variable (u : ℕ)

/-- The first address after the block. -/
def stop (b : Block) : ℕ := b.start + u * b.size

/-- One of the blocks ends before the other begins. -/
def Disjoint (a b : Block) : Prop := a.stop u ≤ b.start ∨ b.stop u ≤ a.start

/-- `a` lies inside `b`. -/
def Within (a b : Block) : Prop := b.start ≤ a.start ∧ a.stop u ≤ b.stop u

/-- `a` ends before `b` begins, and begins before it. -/
def Before (a b : Block) : Prop := a.start < b.start ∧ a.stop u ≤ b.start

/-- The address `x` is one of the block's. -/
def Contains (b : Block) (x : ℕ) : Prop := b.start ≤ x ∧ x < b.stop u

variable {u}

lemma Disjoint.symm {a b : Block} (h : a.Disjoint u b) : b.Disjoint u a := Or.symm h

instance : Std.Symm (Block.Disjoint u) := ⟨fun _ _ h => h.symm⟩

lemma Before.disjoint {a b : Block} (h : a.Before u b) : a.Disjoint u b := Or.inl h.2

lemma Within.refl (a : Block) : a.Within u a := ⟨le_rfl, le_rfl⟩

lemma Disjoint.mono {a b c : Block} (h : a.Disjoint u b) (hc : c.Within u a) :
    c.Disjoint u b := by
  rcases h with h | h
  · exact Or.inl (hc.2.trans h)
  · exact Or.inr (h.trans hc.1)

lemma start_lt_stop {b : Block} (hu : 0 < u) (hb : 0 < b.size) : b.start < b.stop u := by
  have : 0 < u * b.size := Nat.mul_pos hu hb
  simp only [stop]
  omega

/-- Disjoint blocks of positive size share no address. -/
lemma Disjoint.not_contains {a b : Block} {x : ℕ} (h : a.Disjoint u b) (ha : a.Contains u x) :
    ¬ b.Contains u x := by
  rintro ⟨h1, h2⟩
  obtain ⟨h3, h4⟩ := ha
  rcases h with h | h <;> omega

/-- Of two disjoint blocks, of which the first is not empty, the one that starts first is
before the other. -/
lemma Disjoint.before {a b : Block} (hu : 0 < u) (hb : 0 < b.size) (h : a.Disjoint u b)
    (hab : a.start < b.start) : a.Before u b := by
  have := start_lt_stop hu hb
  rcases h with h | h
  · exact ⟨hab, h⟩
  · omega

lemma Disjoint.start_ne {a b : Block} (hu : 0 < u) (ha : 0 < a.size) (hb : 0 < b.size)
    (h : a.Disjoint u b) : a.start ≠ b.start := by
  have h1 := start_lt_stop hu ha
  have h2 := start_lt_stop hu hb
  rcases h with h | h <;> omega

end Block

/-! ## Lists of blocks -/

section Lists

variable (u : ℕ)

/-- The number of units in a list of blocks. -/
def totalSize (bs : List Block) : ℕ := (bs.map Block.size).sum

@[simp] lemma totalSize_nil : totalSize [] = 0 := rfl

@[simp] lemma totalSize_cons (b : Block) (bs : List Block) :
    totalSize (b :: bs) = b.size + totalSize bs := by
  simp [totalSize]

@[simp] lemma totalSize_append (as bs : List Block) :
    totalSize (as ++ bs) = totalSize as + totalSize bs := by
  simp [totalSize]

lemma totalSize_erase {b : Block} {bs : List Block} (hb : b ∈ bs) :
    b.size + totalSize (bs.erase b) = totalSize bs := by
  have h := (List.perm_cons_erase hb).map Block.size
  simpa [totalSize] using h.sum_eq.symm

/-- The tail `n` units of the block `c`. -/
def tailOf (c : Block) (n : ℕ) : Block := ⟨c.start + u * (c.size - n), n⟩

/-- What is left of the block `c` when its tail `n` units are taken. -/
def headOf (c : Block) (n : ℕ) : Block := ⟨c.start, c.size - n⟩

/-- The block made of two blocks of which the second begins where the first ends. -/
def join (a b : Block) : Block := ⟨a.start, a.size + b.size⟩

/-- Put `b` in front of a list and merge it with the list's first block if the two touch. -/
def consJoin (b : Block) : List Block → List Block
  | [] => [b]
  | c :: cs => if b.stop u = c.start then join b c :: cs else b :: c :: cs

/-- Append two lists and merge the last block of the first with the first block of the second
if the two touch. -/
def appendJoin : List Block → List Block → List Block
  | [], xs => xs
  | [a], xs => consJoin u a xs
  | a :: a' :: as, xs => a :: appendJoin (a' :: as) xs

/-- Insert `b` at its place in an address-ordered list and merge it with its neighbours. -/
def insertJoin (b : Block) (bs : List Block) : List Block :=
  appendJoin u (bs.takeWhile fun c => c.start < b.start)
    (consJoin u b (bs.dropWhile fun c => c.start < b.start))

/-- Take `n` units from the first block that has them: the whole block if it has exactly
`n`, and its tail end otherwise. -/
def carve (n : ℕ) : List Block → Option (Block × List Block)
  | [] => none
  | c :: cs =>
      if n ≤ c.size then
        if c.size = n then some (c, cs) else some (tailOf u c n, headOf c n :: cs)
      else (carve n cs).map fun r => (r.1, c :: r.2)

variable {u}

lemma stop_tailOf {c : Block} {n : ℕ} (h : n ≤ c.size) : (tailOf u c n).stop u = c.stop u := by
  have : u * (c.size - n) + u * n = u * c.size := by rw [← Nat.mul_add, Nat.sub_add_cancel h]
  simp only [tailOf, Block.stop]
  omega

lemma tailOf_within {c : Block} {n : ℕ} (h : n ≤ c.size) : (tailOf u c n).Within u c :=
  ⟨by simp [tailOf], (stop_tailOf h).le⟩

lemma headOf_within {c : Block} {n : ℕ} : (headOf c n).Within u c := by
  refine ⟨le_rfl, ?_⟩
  simp only [headOf, Block.stop]
  have := Nat.mul_le_mul_left u (Nat.sub_le c.size n)
  omega

lemma stop_join {a b : Block} (h : a.stop u = b.start) : (join a b).stop u = b.stop u := by
  simp only [join, Block.stop, Nat.mul_add] at h ⊢
  omega

/-! ### Merging -/

@[simp] lemma totalSize_consJoin (b : Block) (cs : List Block) :
    totalSize (consJoin u b cs) = b.size + totalSize cs := by
  cases cs with
  | nil => rfl
  | cons c cs =>
      simp only [consJoin]
      split_ifs <;> simp [join, Nat.add_assoc]

@[simp] lemma totalSize_appendJoin : ∀ as bs : List Block,
    totalSize (appendJoin u as bs) = totalSize as + totalSize bs
  | [], bs => by simp [appendJoin]
  | [a], bs => by simp [appendJoin]
  | a :: a' :: as, bs => by
      rw [appendJoin, totalSize_cons, totalSize_appendJoin (a' :: as) bs]
      simp [Nat.add_assoc]

lemma appendJoin_concat (as : List Block) (a : Block) (xs : List Block) :
    appendJoin u (as ++ [a]) xs = as ++ consJoin u a xs := by
  induction as with
  | nil => rfl
  | cons b bs ih =>
      cases bs with
      | nil => rfl
      | cons c cs => simpa [appendJoin] using ih

@[simp] lemma totalSize_insertJoin (b : Block) (bs : List Block) :
    totalSize (insertJoin u b bs) = b.size + totalSize bs := by
  have h := congrArg totalSize
    (List.takeWhile_append_dropWhile (p := fun c => decide (c.start < b.start)) (l := bs))
  rw [totalSize_append] at h
  rw [insertJoin, totalSize_appendJoin, totalSize_consJoin]
  omega

/-- A property of blocks that merging two touching blocks keeps. -/
def JoinClosed (u : ℕ) (P : Block → Prop) : Prop :=
  ∀ a b, P a → P b → a.stop u = b.start → P (join a b)

lemma consJoin_forall {P : Block → Prop} (hP : JoinClosed u P) {b : Block} {cs : List Block}
    (hb : P b) (hcs : ∀ c ∈ cs, P c) : ∀ d ∈ consJoin u b cs, P d := by
  cases cs with
  | nil => simpa [consJoin] using hb
  | cons c cs =>
      simp only [List.mem_cons, forall_eq_or_imp] at hcs
      simp only [consJoin]
      split_ifs with h
      · simpa using ⟨hP b c hb hcs.1 h, hcs.2⟩
      · simpa using ⟨hb, hcs⟩

lemma appendJoin_forall {P : Block → Prop} (hP : JoinClosed u P) : ∀ {as bs : List Block},
    (∀ a ∈ as, P a) → (∀ b ∈ bs, P b) → ∀ d ∈ appendJoin u as bs, P d
  | [], bs, _, hbs => by simpa [appendJoin] using hbs
  | [a], bs, has, hbs => by
      simpa [appendJoin] using consJoin_forall hP (has a (by simp)) hbs
  | a :: a' :: as, bs, has, hbs => by
      have ih : ∀ d ∈ appendJoin u (a' :: as) bs, P d :=
        appendJoin_forall hP (fun x hx => has x (List.mem_cons_of_mem _ hx)) hbs
      rw [appendJoin]
      simp only [List.mem_cons, forall_eq_or_imp]
      exact ⟨has a (by simp), ih⟩

lemma insertJoin_forall {P : Block → Prop} (hP : JoinClosed u P) {b : Block} {bs : List Block}
    (hb : P b) (hbs : ∀ c ∈ bs, P c) : ∀ d ∈ insertJoin u b bs, P d :=
  appendJoin_forall hP (fun a ha => hbs a ((List.takeWhile_subset _) ha))
    (consJoin_forall hP hb fun c hc => hbs c ((List.dropWhile_subset _) hc))

lemma joinClosed_disjoint {d : Block} (hu : 0 < u) (hd : 0 < d.size) :
    JoinClosed u (Block.Disjoint u · d) := by
  intro a b ha hb h
  have hpos := Block.start_lt_stop hu hd
  have hstop := stop_join h
  rcases ha with h1 | h1
  · rcases hb with h2 | h2
    · exact Or.inl (by rw [hstop]; exact h2)
    · omega
  · exact Or.inr h1

lemma joinClosed_inside (lo hi : ℕ) : JoinClosed u fun b => lo ≤ b.start ∧ b.stop u ≤ hi := by
  intro a b ha hb h
  exact ⟨ha.1, by rw [stop_join h]; exact hb.2⟩

lemma joinClosed_positive : JoinClosed u fun b => 0 < b.size := by
  intro a b ha _ _
  exact Nat.add_pos_left ha _

lemma joinClosed_before (a : Block) : JoinClosed u (a.Before u ·) :=
  fun _ _ hb _ _ => hb

lemma joinClosed_after (d : Block) : JoinClosed u (Block.Before u · d) := by
  intro a b ha hb h
  exact ⟨ha.1, by rw [stop_join h]; exact hb.2⟩

/-- Address order is kept by `consJoin` in front of a list that `b` is before. -/
lemma consJoin_pairwise {b : Block} {cs : List Block} (hb : ∀ c ∈ cs, b.Before u c)
    (hcs : cs.Pairwise (Block.Before u)) : (consJoin u b cs).Pairwise (Block.Before u) := by
  cases cs with
  | nil => simp [consJoin]
  | cons c cs =>
      simp only [consJoin]
      split_ifs with h
      · rw [List.pairwise_cons] at hcs ⊢
        exact ⟨fun d hd => joinClosed_after d b c (hb d (by simp [hd])) (hcs.1 d hd) h, hcs.2⟩
      · exact List.pairwise_cons.mpr ⟨hb, hcs⟩

lemma appendJoin_pairwise : ∀ {as bs : List Block}, as.Pairwise (Block.Before u) →
    bs.Pairwise (Block.Before u) → (∀ a ∈ as, ∀ b ∈ bs, a.Before u b) →
      (appendJoin u as bs).Pairwise (Block.Before u)
  | [], bs, _, hbs, _ => by simpa [appendJoin] using hbs
  | [a], bs, _, hbs, hab => by
      simpa [appendJoin] using consJoin_pairwise (hab a (by simp)) hbs
  | a :: a' :: as, bs, has, hbs, hab => by
      rw [List.pairwise_cons] at has
      rw [appendJoin, List.pairwise_cons]
      refine ⟨?_, appendJoin_pairwise has.2 hbs fun x hx => hab x (List.mem_cons_of_mem _ hx)⟩
      exact appendJoin_forall (joinClosed_before a) has.1 (hab a (by simp))

/-- The place of a block that is not empty in an address-ordered list of blocks disjoint from
it: before every block of the list that starts later, after every other one. -/
lemma takeWhile_dropWhile_before {b : Block} {bs : List Block} (hu : 0 < u) (hb : 0 < b.size)
    (hpos : ∀ c ∈ bs, 0 < c.size) (hsorted : bs.Pairwise (Block.Before u))
    (hdisj : ∀ c ∈ bs, c.Disjoint u b) :
    (∀ a ∈ bs.takeWhile fun c => c.start < b.start, a.Before u b) ∧
      ∀ c ∈ bs.dropWhile fun c => c.start < b.start, b.Before u c := by
  induction bs with
  | nil => simp
  | cons c cs ih =>
      simp only [List.mem_cons, forall_eq_or_imp] at hpos hdisj
      rw [List.pairwise_cons] at hsorted
      by_cases hc : c.start < b.start
      · obtain ⟨ih1, ih2⟩ := ih hpos.2 hsorted.2 hdisj.2
        simp only [List.takeWhile_cons, List.dropWhile_cons, hc, decide_true, if_true,
          List.mem_cons, forall_eq_or_imp]
        exact ⟨⟨hdisj.1.before hu hb hc, ih1⟩, ih2⟩
      · have hne := hdisj.1.start_ne hu hpos.1 hb
        have hbc : b.Before u c := hdisj.1.symm.before hu hpos.1 (by omega)
        simp only [List.takeWhile_cons, List.dropWhile_cons, hc, decide_false,
          List.mem_cons, forall_eq_or_imp, Bool.false_eq_true, if_false, List.not_mem_nil,
          false_imp_iff, implies_true, true_and]
        refine ⟨hbc, fun d hd => ⟨lt_trans hbc.1 (hsorted.1 d hd).1, ?_⟩⟩
        exact hbc.2.trans (hsorted.1 d hd).1.le

lemma insertJoin_pairwise {b : Block} {bs : List Block} (hu : 0 < u) (hb : 0 < b.size)
    (hpos : ∀ c ∈ bs, 0 < c.size) (hsorted : bs.Pairwise (Block.Before u))
    (hdisj : ∀ c ∈ bs, c.Disjoint u b) : (insertJoin u b bs).Pairwise (Block.Before u) := by
  obtain ⟨hpre, hpost⟩ := takeWhile_dropWhile_before hu hb hpos hsorted hdisj
  refine appendJoin_pairwise (hsorted.sublist (List.takeWhile_sublist _)) ?_ ?_
  · exact consJoin_pairwise hpost (hsorted.sublist (List.dropWhile_sublist _))
  · intro a ha
    refine consJoin_forall (joinClosed_before a) (hpre a ha) fun c hc => ?_
    refine ⟨lt_trans (hpre a ha).1 (hpost c hc).1, (hpre a ha).2.trans (hpost c hc).1.le⟩

/-- A block put in front of a list starts the list, whether it is merged or not. -/
lemma consJoin_start (b : Block) (cs : List Block) :
    ∃ d ds, consJoin u b cs = d :: ds ∧ d.start = b.start := by
  cases cs with
  | nil => exact ⟨b, [], rfl, rfl⟩
  | cons c cs =>
      simp only [consJoin]
      split_ifs
      · exact ⟨join b c, cs, rfl, rfl⟩
      · exact ⟨b, c :: cs, rfl, rfl⟩

/-- Merging a block with the list it goes in front of takes away the start of the block it
touches, and no other. -/
lemma start_mem_consJoin_iff {b c : Block} {cs : List Block} (hu : 0 < u)
    (hpos : ∀ d ∈ cs, 0 < d.size) (hb : ∀ d ∈ cs, b.Before u d)
    (hcs : cs.Pairwise (Block.Before u)) (hc : c ∈ cs) :
    c.start ∈ (consJoin u b cs).map Block.start ↔ b.stop u ≠ c.start := by
  cases cs with
  | nil => simp at hc
  | cons d ds =>
      rw [List.pairwise_cons] at hcs
      simp only [List.forall_mem_cons] at hpos hb
      have hlt : b.stop u = d.start → ∀ e ∈ ds, b.stop u ≠ e.start := fun he e hmem heq => by
        have := (hcs.1 e hmem).1
        omega
      simp only [consJoin]
      split_ifs with h
      · rcases List.mem_cons.mp hc with rfl | hc
        · have hstart := hb.1.1
          have hnot : ∀ e ∈ ds, e.start ≠ c.start := fun e he heq =>
            absurd (hcs.1 e he).1 (by omega)
          simpa [join, h, hstart.ne'] using hnot
        · have hmem : c.start ∈ (join b d :: ds).map Block.start :=
            List.mem_map_of_mem (List.mem_cons_of_mem _ hc)
          exact ⟨fun _ => hlt h c hc, fun _ => hmem⟩
      · have hmem : c.start ∈ (b :: d :: ds).map Block.start :=
          List.mem_map_of_mem (List.mem_cons_of_mem _ hc)
        refine ⟨fun _ heq => ?_, fun _ => hmem⟩
        rcases List.mem_cons.mp hc with rfl | hc
        · exact h heq
        · have hd := Block.start_lt_stop hu hpos.1
          have := (hcs.1 c hc).2
          have := hb.1.2
          omega

/-- Inserting a block takes away the start of the block it touches from below, and no other. -/
lemma start_mem_insertJoin_iff {b c : Block} {bs : List Block} (hu : 0 < u) (hb : 0 < b.size)
    (hpos : ∀ d ∈ bs, 0 < d.size) (hsorted : bs.Pairwise (Block.Before u))
    (hdisj : ∀ d ∈ bs, d.Disjoint u b) (hc : c ∈ bs) :
    c.start ∈ (insertJoin u b bs).map Block.start ↔ b.stop u ≠ c.start := by
  obtain ⟨hpre, hpost⟩ := takeWhile_dropWhile_before hu hb hpos hsorted hdisj
  have hsplit := (List.takeWhile_append_dropWhile
    (p := fun d : Block => decide (d.start < b.start)) (l := bs)).symm
  rw [insertJoin]
  generalize bs.takeWhile (fun d => decide (d.start < b.start)) = pre at hpre hsplit ⊢
  generalize bs.dropWhile (fun d => decide (d.start < b.start)) = post at hpost hsplit ⊢
  subst hsplit
  rw [List.pairwise_append] at hsorted
  have hbstop := Block.start_lt_stop hu hb
  have hcons := start_mem_consJoin_iff (u := u) (b := b) (c := c) hu
    (fun d hd => hpos d (List.mem_append_right _ hd)) hpost hsorted.2.1
  rcases List.eq_nil_or_concat' pre with rfl | ⟨pre, a, rfl⟩
  · exact hcons (by simpa using hc)
  · rw [appendJoin_concat, List.map_append, List.mem_append]
    have hab := hpre a (by simp)
    rw [List.append_assoc, List.mem_append, List.mem_append, List.mem_singleton] at hc
    rcases hc with hc | rfl | hc
    · -- a block below `b` stays
      have hcb := (hpre c (by simp [hc])).1
      exact ⟨fun _ => by omega, fun _ => Or.inl (List.mem_map_of_mem hc)⟩
    · have hcb := hab.1
      obtain ⟨d, ds, hds, hd⟩ := consJoin_start (u := u) c (consJoin u b post)
      exact ⟨fun _ => by omega, fun _ => Or.inr (by simp [hds, hd])⟩
    · have hbc := hpost c hc
      have hpre_ne : c.start ∉ pre.map Block.start := by
        intro hmem
        obtain ⟨d, hd, he⟩ := List.mem_map.mp hmem
        have := (hpre d (by simp [hd])).1
        have := hbc.1
        omega
      rw [or_iff_right hpre_ne, ← hcons hc]
      have hca : c.start ≠ a.start := (hab.1.trans hbc.1).ne'
      have hcb : c.start ≠ b.start := hbc.1.ne'
      obtain ⟨d, ds, hds, hd⟩ := consJoin_start (u := u) b post
      rw [hds]
      simp only [consJoin]
      split_ifs <;> simp [join, hd, hca, hcb]

/-! ### Carving -/

/-- What a first fit leaves of the block it takes `n` units from. -/
def remains (c : Block) (n : ℕ) : List Block := if c.size = n then [] else [headOf c n]

lemma tailOf_eq_self {c : Block} {n : ℕ} (h : c.size = n) : tailOf u c n = c := by
  subst h
  simp [tailOf]

/-- First fit fails exactly when every block is too small. -/
lemma carve_eq_none_iff {n : ℕ} {bs : List Block} :
    carve u n bs = none ↔ ∀ c ∈ bs, c.size < n := by
  induction bs with
  | nil => simp [carve]
  | cons c cs ih =>
      by_cases hn : n ≤ c.size
      · have hnot : ¬ c.size < n := by omega
        by_cases he : c.size = n <;> simp [carve, hn, he, hnot]
      · have hlt : c.size < n := by omega
        simp [carve, hn, hlt, ih]

/-- First fit takes the tail of the first block that is large enough. -/
lemma carve_eq_some {n : ℕ} {bs fs : List Block} {b : Block}
    (h : carve u n bs = some (b, fs)) :
    ∃ pre c post, bs = pre ++ c :: post ∧ (∀ d ∈ pre, d.size < n) ∧ n ≤ c.size ∧
      b = tailOf u c n ∧ fs = pre ++ remains c n ++ post := by
  induction bs generalizing fs with
  | nil => simp [carve] at h
  | cons c cs ih =>
      by_cases hn : n ≤ c.size
      · refine ⟨[], c, cs, rfl, by simp, hn, ?_⟩
        by_cases he : c.size = n
        · rw [carve, if_pos hn, if_pos he] at h
          obtain ⟨rfl, rfl⟩ := Prod.mk.inj (Option.some.inj h)
          exact ⟨(tailOf_eq_self he).symm, by simp [remains, he]⟩
        · rw [carve, if_pos hn, if_neg he] at h
          obtain ⟨rfl, rfl⟩ := Prod.mk.inj (Option.some.inj h)
          exact ⟨rfl, by simp [remains, he]⟩
      · rw [carve, if_neg hn, Option.map_eq_some_iff] at h
        obtain ⟨⟨b', fs'⟩, hr, heq⟩ := h
        obtain ⟨rfl, rfl⟩ := Prod.mk.inj heq
        obtain ⟨pre, d, post, rfl, hpre, hd, hb, rfl⟩ := ih hr
        refine ⟨c :: pre, d, post, rfl, ?_, hd, hb, rfl⟩
        simp only [List.mem_cons, forall_eq_or_imp]
        exact ⟨by omega, hpre⟩

/-- What is left of a block is part of it, ends where the taken tail begins, and is not
empty. -/
lemma mem_remains {c d : Block} {n : ℕ} (hn : n ≤ c.size) (hd : d ∈ remains c n) :
    d.Within u c ∧ d.stop u = (tailOf u c n).start ∧ 0 < d.size ∧ d.start = c.start := by
  simp only [remains] at hd
  split_ifs at hd with he
  · simp at hd
  · rw [List.mem_singleton] at hd
    subst hd
    exact ⟨headOf_within, rfl, by simp only [headOf]; omega, rfl⟩

lemma totalSize_remains {c : Block} {n : ℕ} (hn : n ≤ c.size) :
    totalSize (remains c n) + n = c.size := by
  simp only [remains]
  split_ifs with he
  · simpa using he.symm
  · simp only [headOf, totalSize_cons, totalSize_nil]
    omega

/-- The block a first fit takes is part of a block of the list. -/
lemma carve_taken {n : ℕ} {bs fs : List Block} {b : Block} (h : carve u n bs = some (b, fs)) :
    b.size = n ∧ ∃ c ∈ bs, b.Within u c := by
  obtain ⟨pre, c, post, rfl, -, hc, rfl, -⟩ := carve_eq_some h
  exact ⟨rfl, c, by simp, tailOf_within hc⟩

/-- Every block a first fit leaves is a part, not empty, of a block of the list. -/
lemma carve_left {n : ℕ} {bs fs : List Block} {b f : Block} (h : carve u n bs = some (b, fs))
    (hpos : ∀ c ∈ bs, 0 < c.size) (hf : f ∈ fs) : 0 < f.size ∧ ∃ c ∈ bs, f.Within u c := by
  obtain ⟨pre, c, post, rfl, -, hc, -, rfl⟩ := carve_eq_some h
  rw [List.append_assoc, List.mem_append, List.mem_append] at hf
  rcases hf with hf | hf | hf
  · exact ⟨hpos f (by simp [hf]), f, by simp [hf], Block.Within.refl f⟩
  · obtain ⟨hw, -, hp, -⟩ := mem_remains (u := u) hc hf
    exact ⟨hp, c, by simp, hw⟩
  · exact ⟨hpos f (by simp [hf]), f, by simp [hf], Block.Within.refl f⟩

/-- Carving keeps what relates the blocks of a list to each other, if it does not matter to the
relation that a block gets shorter. -/
lemma carve_pairwise_of {R : Block → Block → Prop} {n : ℕ} {bs fs : List Block} {b : Block}
    (h : carve u n bs = some (b, fs)) (hleft : ∀ c d, n ≤ c.size → R c d → R (headOf c n) d)
    (hright : ∀ c d, R d c → R d (headOf c n)) (hs : bs.Pairwise R) : fs.Pairwise R := by
  obtain ⟨pre, c, post, rfl, -, hc, -, rfl⟩ := carve_eq_some h
  rw [List.pairwise_append, List.pairwise_cons] at hs
  obtain ⟨hpre, ⟨hcpost, hpost⟩, hcross⟩ := hs
  simp only [List.mem_cons, forall_eq_or_imp] at hcross
  have hmem : ∀ d ∈ remains c n, d = headOf c n := fun d hd => by
    simp only [remains] at hd
    split_ifs at hd
    · exact absurd hd List.not_mem_nil
    · exact List.mem_singleton.mp hd
  rw [List.append_assoc, List.pairwise_append, List.pairwise_append]
  refine ⟨hpre, ⟨?_, hpost, fun d hd e he => ?_⟩, fun a ha d hd => ?_⟩
  · simp only [remains]
    split_ifs <;> simp
  · rw [hmem d hd]
    exact hleft c e hc (hcpost e he)
  · rcases List.mem_append.mp hd with hd | hd
    · rw [hmem d hd]
      exact hright c a (hcross a ha).1
    · exact (hcross a ha).2 d hd

lemma carve_pairwise {n : ℕ} {bs fs : List Block} {b : Block} (h : carve u n bs = some (b, fs))
    (hs : bs.Pairwise (Block.Before u)) : fs.Pairwise (Block.Before u) :=
  carve_pairwise_of h (fun _ _ _ hcd => ⟨hcd.1, headOf_within.2.trans hcd.2⟩)
    (fun _ _ hdc => hdc) hs

/-- The block a first fit takes is disjoint from every block it leaves. -/
lemma carve_apart {n : ℕ} {bs fs : List Block} {b f : Block} (h : carve u n bs = some (b, fs))
    (hs : bs.Pairwise (Block.Before u)) (hf : f ∈ fs) : f.Disjoint u b := by
  obtain ⟨pre, c, post, rfl, -, hc, rfl, rfl⟩ := carve_eq_some h
  rw [List.pairwise_append, List.pairwise_cons] at hs
  obtain ⟨-, ⟨hcpost, -⟩, hcross⟩ := hs
  rw [List.append_assoc, List.mem_append, List.mem_append] at hf
  rcases hf with hf | hf | hf
  · exact ((hcross f hf c (by simp)).disjoint.symm.mono (tailOf_within hc)).symm
  · exact Or.inl (mem_remains (u := u) hc hf).2.1.le
  · exact ((hcpost f hf).disjoint.mono (tailOf_within hc)).symm

lemma carve_totalSize {n : ℕ} {bs fs : List Block} {b : Block}
    (h : carve u n bs = some (b, fs)) : totalSize fs + n = totalSize bs := by
  obtain ⟨pre, c, post, rfl, -, hc, -, rfl⟩ := carve_eq_some h
  have hr := totalSize_remains hc
  simp only [totalSize_append, totalSize_cons]
  omega

end Lists

/-! ## The heap -/

/-- A heap of blocks in the region of addresses `lo ≤ x < hi`: the free blocks in address
order, the live blocks, all of them inside the region, not empty and pairwise disjoint. -/
structure BlockHeap (u lo hi : ℕ) where
  free : List Block
  live : List Block
  sorted : free.Pairwise (Block.Before u)
  live_disjoint : live.Pairwise (Block.Disjoint u)
  apart : ∀ f ∈ free, ∀ l ∈ live, f.Disjoint u l
  positive : ∀ b ∈ free ++ live, 0 < b.size
  inside : ∀ b ∈ free ++ live, lo ≤ b.start ∧ b.stop u ≤ hi

namespace BlockHeap

variable {u lo hi : ℕ}

lemma free_positive (H : BlockHeap u lo hi) {b : Block} (hb : b ∈ H.free) : 0 < b.size :=
  H.positive b (List.mem_append_left _ hb)

lemma live_positive (H : BlockHeap u lo hi) {b : Block} (hb : b ∈ H.live) : 0 < b.size :=
  H.positive b (List.mem_append_right _ hb)

/-- Free and live blocks together are pairwise disjoint. -/
lemma disjoint (H : BlockHeap u lo hi) : (H.free ++ H.live).Pairwise (Block.Disjoint u) :=
  List.pairwise_append.mpr
    ⟨H.sorted.imp fun h => h.disjoint, H.live_disjoint, H.apart⟩

/-- The heap with one free block that fills `size` units from `lo` on. -/
def single (size : ℕ) (hsize : 0 < size) (hhi : lo + u * size ≤ hi) : BlockHeap u lo hi where
  free := [⟨lo, size⟩]
  live := []
  sorted := List.pairwise_singleton _ _
  live_disjoint := List.Pairwise.nil
  apart := by simp
  positive := by simpa using hsize
  inside := by simpa [Block.stop] using hhi

lemma free_inside (H : BlockHeap u lo hi) {b : Block} (hb : b ∈ H.free) :
    lo ≤ b.start ∧ b.stop u ≤ hi := H.inside b (List.mem_append_left _ hb)

lemma live_inside (H : BlockHeap u lo hi) {b : Block} (hb : b ∈ H.live) :
    lo ≤ b.start ∧ b.stop u ≤ hi := H.inside b (List.mem_append_right _ hb)

/-- The blocks a first fit of `n` units leaves free, and the one it takes, are a heap again. -/
def take (H : BlockHeap u lo hi) {n : ℕ} (hn : 0 < n) {b : Block} {fs : List Block}
    (h : carve u n H.free = some (b, fs)) : BlockHeap u lo hi where
  free := fs
  live := b :: H.live
  sorted := carve_pairwise h H.sorted
  live_disjoint := by
    obtain ⟨-, c, hc, hw⟩ := carve_taken h
    exact List.pairwise_cons.mpr ⟨fun l hl => (H.apart c hc l hl).mono hw, H.live_disjoint⟩
  apart := by
    intro f hf l hl
    rcases List.mem_cons.mp hl with rfl | hl
    · exact carve_apart h H.sorted hf
    · obtain ⟨-, c, hc, hw⟩ := carve_left h (fun _ hc => H.free_positive hc) hf
      exact (H.apart c hc l hl).mono hw
  positive := by
    intro c hc
    rcases List.mem_append.mp hc with hc | hc
    · exact (carve_left h (fun _ hc => H.free_positive hc) hc).1
    · rcases List.mem_cons.mp hc with rfl | hc
      · exact (carve_taken h).1 ▸ hn
      · exact H.live_positive hc
  inside := by
    have hsub : ∀ d c : Block, c ∈ H.free → d.Within u c → lo ≤ d.start ∧ d.stop u ≤ hi :=
      fun d c hc hd => ⟨(H.free_inside hc).1.trans hd.1, hd.2.trans (H.free_inside hc).2⟩
    intro d hd
    rcases List.mem_append.mp hd with hd | hd
    · obtain ⟨-, c, hc, hw⟩ := carve_left h (fun _ hc => H.free_positive hc) hd
      exact hsub d c hc hw
    · rcases List.mem_cons.mp hd with rfl | hd
      · obtain ⟨-, c, hc, hw⟩ := carve_taken h
        exact hsub d c hc hw
      · exact H.live_inside hd

/-- Give a live block back. -/
def release (H : BlockHeap u lo hi) (hu : 0 < u) {b : Block} (hb : b ∈ H.live) :
    BlockHeap u lo hi where
  free := insertJoin u b H.free
  live := H.live.erase b
  sorted := insertJoin_pairwise hu (H.live_positive hb) (fun _ hc => H.free_positive hc)
    H.sorted fun c hc => H.apart c hc b hb
  live_disjoint := H.live_disjoint.sublist List.erase_sublist
  apart := by
    intro f hf l hl
    have hl' : l ∈ H.live := List.mem_of_mem_erase hl
    have hbl : b.Disjoint u l := by
      have hperm := H.live_disjoint.perm (List.perm_cons_erase hb) fun h => h.symm
      exact (List.pairwise_cons.mp hperm).1 l hl
    exact insertJoin_forall (joinClosed_disjoint hu (H.live_positive hl')) hbl
      (fun c hc => H.apart c hc l hl') f hf
  positive := by
    intro c hc
    rcases List.mem_append.mp hc with hc | hc
    · exact insertJoin_forall joinClosed_positive (H.live_positive hb)
        (fun d hd => H.free_positive hd) c hc
    · exact H.live_positive (List.mem_of_mem_erase hc)
  inside := by
    intro c hc
    rcases List.mem_append.mp hc with hc | hc
    · exact insertJoin_forall (joinClosed_inside lo hi)
        (H.live_inside hb)
        (fun d hd => H.free_inside hd) c hc
    · exact H.live_inside (List.mem_of_mem_erase hc)

/-- The number of units the heap accounts for. -/
def total (H : BlockHeap u lo hi) : ℕ := totalSize H.free + totalSize H.live

lemma take_total (H : BlockHeap u lo hi) {n : ℕ} (hn : 0 < n) {b : Block} {fs : List Block}
    (h : carve u n H.free = some (b, fs)) : (H.take hn h).total = H.total := by
  have ht := carve_totalSize h
  have hb := (carve_taken h).1
  simp only [total, take, totalSize_cons]
  omega

lemma release_total (H : BlockHeap u lo hi) (hu : 0 < u) {b : Block} (hb : b ∈ H.live) :
    (H.release hu hb).total = H.total := by
  have he := totalSize_erase hb
  simp only [total, release, totalSize_insertJoin]
  omega

end BlockHeap

end Framework
