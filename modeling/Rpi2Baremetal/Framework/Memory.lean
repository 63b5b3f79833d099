import Mathlib.Tactic
import Mathlib.Logic.Function.Basic

/-!
# Memories

A memory is a function from addresses to cells; `Memory.write` changes one cell.  `writeAll`
performs a list of writes in order, which is what a loop that fills a region does, and
`writeAll_apply` reads such a region back: when no address is written twice, the cell at a
written address holds the value written there and every other cell is unchanged.
-/

namespace Framework

/-- A memory of cells `β` at addresses `α`. -/
abbrev Memory (α β : Type*) := α → β

namespace Memory

variable {α β ι : Type*} [DecidableEq α]

/-- The memory after storing `v` at `a`. -/
def write (m : Memory α β) (a : α) (v : β) : Memory α β := Function.update m a v

@[simp] lemma write_same (m : Memory α β) (a : α) (v : β) : m.write a v a = v := by
  simp [write]

@[simp] lemma write_of_ne (m : Memory α β) {a b : α} (v : β) (h : b ≠ a) :
    m.write a v b = m b := by
  simp [write, h]

/-- Store `val i` at `addr i` for every `i` of a list, in order. -/
def writeAll (m : Memory α β) (addr : ι → α) (val : ι → β) (is : List ι) : Memory α β :=
  is.foldl (fun m i => m.write (addr i) (val i)) m

@[simp] lemma writeAll_nil (m : Memory α β) (addr : ι → α) (val : ι → β) :
    m.writeAll addr val [] = m := rfl

@[simp] lemma writeAll_cons (m : Memory α β) (addr : ι → α) (val : ι → β) (i : ι)
    (is : List ι) :
    m.writeAll addr val (i :: is) = (m.write (addr i) (val i)).writeAll addr val is := rfl

/-- A cell no write of the list goes to is unchanged. -/
lemma writeAll_of_notMem (m : Memory α β) (addr : ι → α) (val : ι → β) {is : List ι} {a : α}
    (h : ∀ i ∈ is, addr i ≠ a) : m.writeAll addr val is a = m a := by
  induction is generalizing m with
  | nil => rfl
  | cons i is ih =>
      simp only [List.mem_cons, forall_eq_or_imp] at h
      rw [writeAll_cons, ih _ h.2, write_of_ne m _ (Ne.symm h.1)]

/-- When the addresses of the list are pairwise different, each cell written holds its
value. -/
lemma writeAll_apply (m : Memory α β) (addr : ι → α) (val : ι → β) {is : List ι} {i : ι}
    (hnd : (is.map addr).Nodup) (hi : i ∈ is) : m.writeAll addr val is (addr i) = val i := by
  induction is generalizing m with
  | nil => simp at hi
  | cons j is ih =>
      simp only [List.map_cons, List.nodup_cons, List.mem_map, not_exists, not_and] at hnd
      rw [writeAll_cons]
      rcases List.mem_cons.mp hi with rfl | hi
      · rw [writeAll_of_notMem _ _ _ fun k hk => hnd.1 k hk, write_same]
      · exact ih _ hnd.2 hi

/-- Writes of one value leave a cell as it was or leave the value there. -/
lemma writeAll_const (m : Memory α β) (addr : ι → α) (v : β) (is : List ι) (a : α) :
    m.writeAll addr (fun _ => v) is a = m a ∨ m.writeAll addr (fun _ => v) is a = v := by
  induction is generalizing m with
  | nil => exact .inl rfl
  | cons i is ih =>
      rw [writeAll_cons]
      by_cases ha : a = addr i
      · refine .inr ((ih (m.write (addr i) v)).elim (fun h => h.trans ?_) id)
        rw [ha, write_same]
      · exact (ih (m.write (addr i) v)).imp_left fun h => h.trans (write_of_ne m v ha)

/-- A cell that is written holds the value, however often it is. -/
lemma writeAll_const_of_mem (m : Memory α β) (addr : ι → α) (v : β) {is : List ι} {i : ι}
    (hi : i ∈ is) : m.writeAll addr (fun _ => v) is (addr i) = v := by
  induction is generalizing m with
  | nil => exact absurd hi List.not_mem_nil
  | cons j is ih =>
      rw [writeAll_cons]
      rcases List.mem_cons.mp hi with rfl | hi
      · exact (writeAll_const _ addr v is (addr i)).elim (fun h => h.trans (write_same ..)) id
      · exact ih _ hi

end Memory

end Framework
