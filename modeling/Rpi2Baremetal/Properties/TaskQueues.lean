import Rpi2Baremetal.Framework.Ring
import Rpi2Baremetal.Properties.TaskOps

/-!
# The queues of tasks

A queue is the ring of a head and the tasks of one priority.  `create_task` puts a task at the
end of its queue, and `destroy_task` takes it out, wherever it is.
-/

namespace Rpi2Baremetal

namespace Kernel

open Framework

variable {tcb : Word → TCB} {heads : Set Word} {queue : Word → List Word} {head task : Word}

/-- Each head is in a ring with the tasks of its queue, in order. -/
def TaskQueues (tcb : Word → TCB) (heads : Set Word) (queue : Word → List Word) : Prop :=
  Rings (fun a => (tcb a).next) (fun a => (tcb a).prev) heads queue

/-! ## Putting a task in -/

lemma setLink_self (f : TCB → TCB) (a : Word) (tcb : Word → TCB) :
    setLink f a tcb a = f (tcb a) := Function.update_self ..

lemma setLink_of_ne (f : TCB → TCB) {a b : Word} (tcb : Word → TCB) (h : b ≠ a) :
    setLink f a tcb b = tcb b := Function.update_of_ne h ..

/-- Writing a link leaves a field that does not depend on it. -/
lemma setLink_field {β : Type} (g : TCB → β) {f : TCB → TCB} (hf : ∀ t, g (f t) = g t)
    (a b : Word) (tcb : Word → TCB) : g (setLink f a tcb b) = g (tcb b) :=
  update_field g tcb (hf _) b

@[simp] lemma setLink_setPrev_next (v a b : Word) (tcb : Word → TCB) :
    (setLink (.setPrev v) a tcb b).next = (tcb b).next :=
  setLink_field TCB.next (fun t => TCB.setPrev_next v t) a b tcb

@[simp] lemma setLink_setNext_prev (v a b : Word) (tcb : Word → TCB) :
    (setLink (.setNext v) a tcb b).prev = (tcb b).prev :=
  setLink_field TCB.prev (fun t => TCB.setNext_prev v t) a b tcb

lemma enqueue_bare (tcb : Word → TCB) (head task a : Word) :
    bare (enqueue tcb head task a) = bare (tcb a) := by
  have hprev : ∀ v t, bare (t.setPrev v) = bare t := fun _ _ => rfl
  have hnext : ∀ v t, bare (t.setNext v) = bare t := fun _ _ => rfl
  unfold enqueue
  split_ifs
  · rw [setLink_field bare (hnext _), setLink_field bare (hprev _), setLink_field bare (hnext _),
      setLink_field bare (hprev _)]
  · rw [setLink_field bare (hprev _), setLink_field bare (hnext _), setLink_field bare (hprev _),
      setLink_field bare (hnext _)]

/-- The new task comes after the one that was last. -/
lemma enqueue_next (hhead : task ≠ head) (hlast : task ≠ (tcb head).prev) (x : Word) :
    (enqueue tcb head task x).next =
      if x = task then head else if x = (tcb head).prev then task else (tcb x).next := by
  unfold enqueue
  by_cases hx : x = task
  · rw [hx, if_pos rfl]
    split_ifs
    · rw [setLink_self, TCB.setNext_next]
    · rw [setLink_of_ne _ _ hhead, setLink_self, TCB.setNext_next]
  · rw [if_neg hx]
    split_ifs with hempty hxlast hxlast
    · rw [setLink_of_ne _ _ hx, setLink_of_ne _ _ hx, hxlast, ← hempty, setLink_self,
        TCB.setNext_next]
    · have hxhead : x ≠ head := fun he => hxlast (he.trans hempty)
      rw [setLink_of_ne _ _ hx, setLink_of_ne _ _ hx, setLink_of_ne _ _ hxhead,
        setLink_of_ne _ _ hxhead]
    · rw [hxlast, setLink_of_ne _ _ (Ne.symm hempty), setLink_of_ne _ _ hlast.symm,
        setLink_of_ne _ _ hlast.symm, setLink_self, TCB.setNext_next]
    · rw [setLink_setPrev_next, setLink_of_ne _ _ hx, setLink_of_ne _ _ hx,
        setLink_of_ne _ _ hxlast]

lemma enqueue_prev (hhead : task ≠ head) (x : Word) :
    (enqueue tcb head task x).prev =
      if x = task then (tcb head).prev else if x = head then task else (tcb x).prev := by
  unfold enqueue
  by_cases hx : x = task
  · rw [hx, if_pos rfl]
    split_ifs with hempty
    · rw [setLink_setNext_prev, setLink_self, TCB.setPrev_prev]
      exact hempty
    · rw [setLink_of_ne _ _ hhead, setLink_setNext_prev, setLink_self,
        TCB.setPrev_prev]
  · rw [if_neg hx]
    split_ifs with hempty hxhead hxhead
    · rw [setLink_of_ne _ _ hx, setLink_of_ne _ _ hx, setLink_setNext_prev, hxhead,
        setLink_self, TCB.setPrev_prev]
    · rw [setLink_of_ne _ _ hx, setLink_of_ne _ _ hx, setLink_of_ne _ _ hxhead,
        setLink_of_ne _ _ hxhead]
    · rw [hxhead, setLink_self, TCB.setPrev_prev]
    · rw [setLink_of_ne _ _ hxhead, setLink_of_ne _ _ hx, setLink_of_ne _ _ hx,
        setLink_setNext_prev]

/-- Only the new task and its neighbours change. -/
lemma enqueue_of_ne {x : Word} (htask : x ≠ task) (hhead : x ≠ head)
    (hlast : x ≠ (tcb head).prev) : enqueue tcb head task x = tcb x := by
  unfold enqueue
  split_ifs
  · rw [setLink_of_ne _ _ htask, setLink_of_ne _ _ htask, setLink_of_ne _ _ hhead,
      setLink_of_ne _ _ hhead]
  · rw [setLink_of_ne _ _ hhead, setLink_of_ne _ _ htask, setLink_of_ne _ _ htask,
      setLink_of_ne _ _ hlast]

/-- A new task is put at the end of its queue. -/
lemma TaskQueues.enqueue (h : TaskQueues tcb heads queue) (hhead : head ∈ heads)
    (htask : ¬ Rings.Node heads queue task) :
    TaskQueues (enqueue tcb head task) heads
      (Function.update queue head (queue head ++ [task])) := by
  have hne : task ≠ head := by
    rintro rfl
    exact htask ⟨task, hhead, List.mem_cons_self⟩
  have hlast : task ≠ (tcb head).prev := by
    intro he
    have hmem := Rings.prev_mem h hhead List.mem_cons_self
    exact htask ⟨head, hhead, he ▸ hmem⟩
  have hold : ∀ x, Rings.Node heads queue x → x ≠ task := by
    rintro x hx rfl
    exact htask hx
  apply Rings.push h hhead htask
  · intro x hx
    rw [enqueue_next hne hlast, if_neg (hold x hx)]
  · rw [enqueue_next hne hlast, if_pos rfl]
  · intro x hx
    rw [enqueue_prev hne, if_neg (hold x hx)]
  · rw [enqueue_prev hne, if_pos rfl]

/-! ## Taking a task out -/

lemma unlink_next (tcb : Word → TCB) (task x : Word) : (unlink tcb task x).next =
    if x = (tcb task).prev then (tcb task).next else (tcb x).next := by
  show (setLink _ _ (setLink _ _ tcb) x).next = _
  rw [setLink_setPrev_next]
  split_ifs with hx
  · rw [hx, setLink_self, TCB.setNext_next]
  · rw [setLink_of_ne _ _ hx]

/-- The task keeps its own links when the node before it is linked to the one after it. -/
lemma setLink_prev_next (tcb : Word → TCB) (task : Word) :
    (setLink (.setNext (tcb task).next) (tcb task).prev tcb task).next = (tcb task).next := by
  by_cases hself : task = (tcb task).prev
  · rw [← hself, setLink_self, TCB.setNext_next]
  · rw [setLink_of_ne _ _ hself]

lemma unlink_prev (tcb : Word → TCB) (task x : Word) : (unlink tcb task x).prev =
    if x = (tcb task).next then (tcb task).prev else (tcb x).prev := by
  let tcb' := setLink (.setNext (tcb task).next) (tcb task).prev tcb
  show (setLink (.setPrev (tcb' task).prev) (tcb' task).next tcb' x).prev = _
  rw [setLink_prev_next, setLink_setNext_prev]
  split_ifs with hx
  · rw [hx, setLink_self, TCB.setPrev_prev]
  · rw [setLink_of_ne _ _ hx, setLink_setNext_prev]

/-- A task is taken out of its queue. -/
lemma TaskQueues.unlink (h : TaskQueues tcb heads queue) (hhead : head ∈ heads)
    (htask : task ∈ queue head) :
    TaskQueues (unlink tcb task) heads (Rings.without queue task) := by
  apply Rings.remove h hhead htask
  · exact fun x _ _ => unlink_next tcb task x
  · exact fun x _ _ => unlink_prev tcb task x

/-- Only the links of the neighbours change. -/
lemma unlink_of_ne {x : Word} (hprev : x ≠ (tcb task).prev) (hnext : x ≠ (tcb task).next) :
    Kernel.unlink tcb task x = tcb x := by
  let tcb' := setLink (.setNext (tcb task).next) (tcb task).prev tcb
  show setLink (.setPrev (tcb' task).prev) (tcb' task).next tcb' x = _
  rw [setLink_prev_next, setLink_of_ne _ _ hnext]
  exact setLink_of_ne _ _ hprev

end Kernel

end Rpi2Baremetal
