import Rpi2Baremetal.Model.TaskRam
import Rpi2Baremetal.Properties.TaskQueues

/-!
# TCBs in RAM and TCBs as records

`Shows N m tcb` says that the RAM `m` holds the TCBs `tcb` at the addresses of `N`.  When the TCBs
at these addresses do not overlap each other or the array `task_head` (`Layout`), a store to a
link in RAM is a store to the link of the record (`Shows.setPrev`, `Shows.setNext`), and so
`create_task` and `destroy_task` in RAM change the queues as they do on records
(`Shows.enqueue`, `Shows.unlink`).
-/

namespace Rpi2Baremetal

open Framework

namespace TaskRam

open Kernel

variable {m m' : Mem} {tcb : Word → TCB} {N : Set Word} {taskHead pri task x y : Word}

/-! ## Members -/

lemma offset_injective {f g : Field} (h : f.offset = g.offset) : f = g := by
  cases f <;> cases g <;> first | rfl | exact absurd h (by decide)

/-- The TCBs at the two addresses do not overlap. -/
def Separate (x y : Word) : Prop := ∀ f g : Field, x + f.offset ≠ y + g.offset

lemma Separate.symm (h : Separate x y) : Separate y x := fun f g => (h g f).symm

@[simp] lemma get_set_same (m : Mem) (x v : Word) (f g : Field) :
    get (set m x f v) x g = if g = f then v else get m x g := by
  split_ifs with he
  · rw [he, get, set, Memory.write_same]
  · refine Memory.write_of_ne m v fun hadd => he ?_
    exact offset_injective (by simpa using hadd)

lemma get_set_of_separate (h : Separate x y) (m : Mem) (v : Word) (f g : Field) :
    get (set m x f v) y g = get m y g :=
  Memory.write_of_ne m v (h f g).symm

/-- A TCB is its eight words. -/
lemma tcbAt_congr (h : ∀ f, get m' x f = get m x f) : tcbAt m' x = tcbAt m x := by
  simp only [tcbAt, h]

lemma tcbAt_setPrev (m : Mem) (x v : Word) :
    tcbAt (set m x .prev v) x = (tcbAt m x).setPrev v := by
  simp [tcbAt, TCB.setPrev]

lemma tcbAt_setNext (m : Mem) (x v : Word) :
    tcbAt (set m x .next v) x = (tcbAt m x).setNext v := by
  simp [tcbAt, TCB.setNext]

/-! ## Views -/

/-- The word at `a` is in none of the TCBs at the addresses of `N`. -/
def Outside (N : Set Word) (a : Word) : Prop := ∀ x ∈ N, ∀ f : Field, a ≠ x + f.offset

lemma Outside.set {a : Word} (h : Outside N a) (hx : x ∈ N) (m : Mem) (f : Field) (v : Word) :
    TaskRam.set m x f v a = m a :=
  Memory.write_of_ne m v (h x hx f)

/-- The TCBs at the addresses of `N` overlap neither each other nor `task_head`. -/
structure Layout (taskHead : Word) (N : Set Word) : Prop where
  separate : ∀ x ∈ N, ∀ y ∈ N, x ≠ y → Separate x y
  array : ∀ pri < SMP_MAX_PRI, Outside N (entry taskHead pri)

lemma Layout.mono {N' : Set Word} (h : Layout taskHead N) (hsub : N' ⊆ N) : Layout taskHead N' :=
  ⟨fun x hx y hy => h.separate x (hsub hx) y (hsub hy),
    fun pri hpri x hx => h.array pri hpri x (hsub hx)⟩

/-- RAM holds these TCBs at the addresses of `N`. -/
def Shows (N : Set Word) (m : Mem) (tcb : Word → TCB) : Prop := ∀ x ∈ N, tcbAt m x = tcb x

namespace Shows

lemma prev (h : Shows N m tcb) (hx : x ∈ N) : get m x .prev = (tcb x).prev :=
  congrArg TCB.prev (h x hx)

lemma next (h : Shows N m tcb) (hx : x ∈ N) : get m x .next = (tcb x).next :=
  congrArg TCB.next (h x hx)

/-- A store to a member of a TCB is a store to the record. -/
lemma setLink (h : Shows N m tcb) (hlay : Layout taskHead N) (hx : x ∈ N) {f : Field} {v : Word}
    {g : TCB → TCB} (hg : tcbAt (set m x f v) x = g (tcbAt m x)) :
    Shows N (set m x f v) (setLink g x tcb) := by
  intro y hy
  by_cases hxy : x = y
  · rw [← hxy, hg, setLink_self, h x hx]
  · rw [setLink_of_ne _ _ (Ne.symm hxy), ← h y hy]
    exact tcbAt_congr fun g => get_set_of_separate (hlay.separate x hx y hy hxy) m v f g

lemma setPrev (h : Shows N m tcb) (hlay : Layout taskHead N) (hx : x ∈ N) (v : Word) :
    Shows N (set m x .prev v) (Kernel.setLink (.setPrev v) x tcb) :=
  h.setLink hlay hx (tcbAt_setPrev m x v)

lemma setNext (h : Shows N m tcb) (hlay : Layout taskHead N) (hx : x ∈ N) (v : Word) :
    Shows N (set m x .next v) (Kernel.setLink (.setNext v) x tcb) :=
  h.setLink hlay hx (tcbAt_setNext m x v)

end Shows

/-! ## `create_task` -/

/-- The stores of `create_task` to the queue, when `task_head` is not among them. -/
lemma enqueue_eq (hlay : Layout taskHead N) (hpri : pri < SMP_MAX_PRI) {head last : Word}
    (hentry : m (entry taskHead pri) = head) (hprev : get m head .prev = last)
    (hhead : head ∈ N) (hlast : last ∈ N) (htask : task ∈ N) :
    enqueue taskHead pri task m =
      if head = last then
        set (set (set (set m head .prev task) head .next task) task .prev head) task .next head
      else set (set (set (set m last .next task) task .prev last) task .next head)
        head .prev task := by
  have harray := hlay.array pri hpri
  simp only [enqueue, hentry, hprev, harray.set hhead, harray.set hlast, harray.set htask]

/-- The stores of `create_task` to the queue are stores to the records. -/
lemma Shows.enqueue (h : Shows N m tcb) (hlay : Layout taskHead N) (hpri : pri < SMP_MAX_PRI)
    {head : Word} (hentry : m (entry taskHead pri) = head) (hhead : head ∈ N)
    (hlast : (tcb head).prev ∈ N) (htask : task ∈ N) :
    Shows N (enqueue taskHead pri task m) (Kernel.enqueue tcb head task) := by
  rw [enqueue_eq hlay hpri hentry (h.prev hhead) hhead hlast htask, Kernel.enqueue]
  by_cases hempty : head = (tcb head).prev
  · rw [if_pos hempty, if_pos hempty]
    have hprev := (h.setPrev hlay hhead task).setNext hlay hhead task
    exact (hprev.setPrev hlay htask head).setNext hlay htask head
  · rw [if_neg hempty, if_neg hempty]
    have hnext := (h.setNext hlay hlast task).setPrev hlay htask (tcb head).prev
    exact (hnext.setNext hlay htask head).setPrev hlay hhead task

lemma Outside.enqueue {a : Word} (ha : Outside N a) (hlay : Layout taskHead N)
    (hpri : pri < SMP_MAX_PRI) {head last : Word} (hentry : m (entry taskHead pri) = head)
    (hprev : get m head .prev = last) (hhead : head ∈ N) (hlast : last ∈ N) (htask : task ∈ N) :
    TaskRam.enqueue taskHead pri task m a = m a := by
  rw [enqueue_eq hlay hpri hentry hprev hhead hlast htask]
  split_ifs <;> simp only [ha.set hhead, ha.set hlast, ha.set htask]

/-- The stores of `create_task` to its context are outside of the TCBs. -/
def ContextOutside (N : Set Word) (context : Word) : Prop :=
  Outside N (context + 48) ∧ Outside N (context + 56)

/-- A new task is shown as such, whatever was in its place. -/
lemma Shows.initTask {context func : Word} (h : ∀ x ∈ N, x ≠ task → tcbAt m x = tcb x)
    (hsep : ∀ x ∈ N, x ≠ task → Separate task x) (hcontext : ContextOutside N context) :
    Shows N (initTask task context func pri m)
      (Function.update tcb task ⟨TASK_STATE_READY, pri, 0, 0, 0, NULL, NULL, context⟩) := by
  intro x hx
  by_cases hne : x = task
  · rw [hne, Function.update_self]
    simp [tcbAt, TaskRam.initTask]
  · rw [Function.update_of_ne hne, ← h x hx hne]
    refine tcbAt_congr fun f => ?_
    simp only [TaskRam.initTask, get_set_of_separate (hsep x hx hne)]
    rw [get, Memory.write_of_ne _ _ (hcontext.2 x hx f).symm,
      Memory.write_of_ne _ _ (hcontext.1 x hx f).symm, get]

lemma Outside.initTask {a context func : Word} (ha : Outside N a) (htask : task ∈ N)
    (hcontext : a ≠ context + 48 ∧ a ≠ context + 56) :
    TaskRam.initTask task context func pri m a = m a := by
  simp only [TaskRam.initTask, ha.set htask]
  rw [Memory.write_of_ne _ _ hcontext.2, Memory.write_of_ne _ _ hcontext.1]

/-! ## `destroy_task` -/

/-- The stores of `destroy_task` to the queue. -/
def unlink (task : Word) (m : Mem) : Mem :=
  let m := set m (get m task .prev) .next (get m task .next)
  set m (get m task .next) .prev (get m task .prev)

/-- They go to the neighbours that the task had before. -/
lemma unlink_eq (h : Shows N m tcb) (hlay : Layout taskHead N) (htask : task ∈ N)
    (hprev : (tcb task).prev ∈ N) :
    unlink task m = set (set m (tcb task).prev .next (tcb task).next) (tcb task).next .prev
      (tcb task).prev := by
  have hfirst := h.setNext hlay hprev (tcb task).next
  simp only [unlink, h.prev htask, h.next htask, hfirst.prev htask, hfirst.next htask,
    setLink_prev_next, setLink_setNext_prev]

/-- The stores of `destroy_task` to the queue are stores to the records. -/
lemma Shows.unlink (h : Shows N m tcb) (hlay : Layout taskHead N) (htask : task ∈ N)
    (hprev : (tcb task).prev ∈ N) (hnext : (tcb task).next ∈ N) :
    Shows N (unlink task m) (Kernel.unlink tcb task) := by
  let tcb' := Kernel.setLink (.setNext (tcb task).next) (tcb task).prev tcb
  rw [unlink_eq h hlay htask hprev]
  show Shows N _ (Kernel.setLink (.setPrev (tcb' task).prev) (tcb' task).next tcb')
  rw [setLink_prev_next, setLink_setNext_prev]
  exact (h.setNext hlay hprev _).setPrev hlay hnext _

lemma Outside.unlink {a : Word} (ha : Outside N a) (h : Shows N m tcb) (hlay : Layout taskHead N)
    (htask : task ∈ N) (hprev : (tcb task).prev ∈ N) (hnext : (tcb task).next ∈ N) :
    TaskRam.unlink task m a = m a := by
  rw [unlink_eq h hlay htask hprev, ha.set hnext, ha.set hprev]

/-- The last `r` words of the space. -/
lemma clearPass_loop {ttba : Word} (hfit : ttba.toNat + 0x100000 < 2 ^ 32)
    (hkeep : ∀ j < 0x40000, ttba + .ofNat 32 (4 * j) ≠ task + Field.ttba.offset)
    {j r : ℕ} (hj : j + r = 0x40000) (hm : get m task .ttba = ttba) :
    Loop.Returns (clearPass task) (ttba + .ofNat 32 (4 * j), m)
      (m.writeAll (ttba + ·) (fun _ => 0) ((List.range' j r).map fun j => .ofNat 32 (4 * j))) := by
  have hlt : ∀ j ≤ 0x40000,
      ttba + BitVec.ofNat 32 (4 * j) < ttba + Mmu.SECTION_SIZE ↔ j < 0x40000 := by
    intro j hj
    rw [BitVec.lt_def, BitVec.toNat_add, BitVec.toNat_add, BitVec.toNat_ofNat,
      show Mmu.SECTION_SIZE.toNat = 0x100000 from rfl]
    omega
  induction r generalizing j m with
  | zero =>
      apply Loop.returns_of_leave
      rw [clearPass, hm, if_neg (mt (hlt j (by omega)).mp (by omega))]
      rfl
  | succ r ih =>
      have hnext : ttba + BitVec.ofNat 32 (4 * j) + 4 = ttba + BitVec.ofNat 32 (4 * (j + 1)) := by
        rw [Nat.mul_add, BitVec.ofNat_add, ← BitVec.add_assoc]
        rfl
      have hagain : clearPass task (ttba + .ofNat 32 (4 * j), m) =
          .again (ttba + .ofNat 32 (4 * (j + 1)), m.write (ttba + .ofNat 32 (4 * j)) 0) := by
        rw [clearPass, hm, if_pos ((hlt j (by omega)).mpr (by omega)), hnext]
      refine Loop.returns_of_again hagain ?_
      rw [List.range'_succ, List.map_cons, Memory.writeAll_cons]
      apply ih (by omega)
      rw [get, Memory.write_of_ne _ _ (hkeep j (by omega)).symm]
      exact hm

/-- The loop that writes zeros ends at the end of the space, if it does not clear the `ttba` it
reads. -/
lemma clearPass_returns {ttba : Word} (httba : get m task .ttba = ttba)
    (hkeep : ∀ offset ∈ spaceOffsets ttba, ttba + offset ≠ task + Field.ttba.offset) :
    Loop.Returns (clearPass task) (ttba, m)
      (m.writeAll (ttba + ·) (fun _ => 0) (spaceOffsets ttba)) := by
  by_cases hwrap : ttba + Mmu.SECTION_SIZE < ttba
  · rw [spaceOffsets, if_pos hwrap]
    apply Loop.returns_of_leave
    rw [clearPass, httba, if_neg (BitVec.not_lt.mpr (BitVec.le_of_lt hwrap))]
    rfl
  · rw [spaceOffsets, if_neg hwrap] at hkeep ⊢
    have hfit : ttba.toNat + 0x100000 < 2 ^ 32 := by
      have hlt := ttba.isLt
      rw [BitVec.lt_def, BitVec.toNat_add, show Mmu.SECTION_SIZE.toNat = 0x100000 from rfl]
        at hwrap
      omega
    have hloop := clearPass_loop (j := 0) (r := 0x40000) hfit (fun j hj => hkeep _ ?_) rfl httba
    · rw [List.range_eq_range']
      simpa using hloop
    · exact List.mem_map.mpr ⟨j, List.mem_range.mpr hj, rfl⟩

/-! ## The queues in RAM -/

/-- The sentinels. -/
def heads (head : Word → Word) : Set Word := {h | ∃ pri < SMP_MAX_PRI, head pri = h}

/-- The sentinels and the tasks of the queues. -/
def nodes (head : Word → Word) (queue : Word → List Word) : Set Word :=
  {x | Rings.Node (heads head) queue x}

/-- The words of `task_head` and of the TCBs at the addresses of `N`. -/
def queueWords (taskHead : Word) (N : Set Word) : Set Word :=
  {a | (∃ pri < SMP_MAX_PRI, a = entry taskHead pri) ∨ ∃ x ∈ N, ∃ f : Field, a = x + f.offset}

/-- The two memories have the same queues. -/
def SameQueues (taskHead : Word) (N : Set Word) (m m' : Mem) : Prop :=
  ∀ a ∈ queueWords taskHead N, m' a = m a

lemma SameQueues.mono {N' : Set Word} (h : SameQueues taskHead N' m m') (hsub : N ⊆ N') :
    SameQueues taskHead N m m' := by
  rintro a (ha | ⟨x, hx, hf⟩)
  · exact h a (.inl ha)
  · exact h a (.inr ⟨x, hsub hx, hf⟩)

lemma SameQueues.tcbAt (h : SameQueues taskHead N m m') (hx : x ∈ N) :
    TaskRam.tcbAt m' x = TaskRam.tcbAt m x :=
  tcbAt_congr fun f => h _ (.inr ⟨x, hx, f, rfl⟩)

variable {head : Word → Word} {queue : Word → List Word}

/-- RAM holds the queues: `task_head` points to the sentinels, each of them is in a ring with the
tasks of its queue, and nothing overlaps. -/
structure Holds (taskHead : Word) (head : Word → Word) (queue : Word → List Word) (m : Mem) :
    Prop where
  sentinel : ∀ pri < SMP_MAX_PRI, m (entry taskHead pri) = head pri
  queues : TaskQueues (tcbAt m) (heads head) queue
  layout : Layout taskHead (nodes head queue)

lemma head_mem_heads (hpri : pri < SMP_MAX_PRI) : head pri ∈ heads head := ⟨pri, hpri, rfl⟩

lemma head_mem_nodes (head : Word → Word) (queue : Word → List Word) (hpri : pri < SMP_MAX_PRI) :
    head pri ∈ nodes head queue :=
  ⟨head pri, head_mem_heads hpri, List.mem_cons_self⟩

/-- RAM shows the TCBs of the queues, changed as records are. -/
lemma TaskQueues.of_shows (h : TaskQueues tcb (heads head) queue)
    (hshows : Shows (nodes head queue) m tcb) : TaskQueues (tcbAt m) (heads head) queue := by
  apply Rings.congr h
  · intro x hx
    rw [hshows x hx]
  · intro x hx
    rw [hshows x hx]

lemma Holds.congr (h : Holds taskHead head queue m)
    (hsame : SameQueues taskHead (nodes head queue) m m') : Holds taskHead head queue m' where
  sentinel pri hpri := (hsame _ (.inl ⟨pri, hpri, rfl⟩)).trans (h.sentinel pri hpri)
  queues := TaskQueues.of_shows h.queues fun _ hx => hsame.tcbAt hx
  layout := h.layout

/-- `task` is a new node of the queue of `head pri`, and no other is new. -/
lemma nodes_push (hpri : pri < SMP_MAX_PRI) :
    nodes head (Function.update queue (head pri) (queue (head pri) ++ [task]))
      = insert task (nodes head queue) := by
  ext x
  constructor
  · rintro ⟨h, hh, hx⟩
    rcases List.mem_cons.mp hx with rfl | hx
    · exact .inr ⟨x, hh, List.mem_cons_self⟩
    · exact (Rings.queued_push ⟨h, hh, hx⟩).imp_right Rings.Queued.node
  · rintro (rfl | ⟨h, hh, hx⟩)
    · exact ⟨head pri, head_mem_heads hpri, by simp⟩
    · refine ⟨h, hh, ?_⟩
      by_cases he : h = head pri
      · rw [he, Function.update_self, ← he, ← List.cons_append]
        exact List.mem_append_left _ hx
      · rwa [Function.update_of_ne he]

/-- A TCB apart from the queues can be added to the layout. -/
lemma Layout.insert (h : Layout taskHead N) (hsep : ∀ x ∈ N, Separate task x)
    (harray : ∀ pri < SMP_MAX_PRI, ∀ f : Field, entry taskHead pri ≠ task + f.offset) :
    Layout taskHead (insert task N) := by
  constructor
  · rintro x (rfl | hx) y (rfl | hy) hne
    · exact absurd rfl hne
    · exact hsep y hy
    · exact (hsep x hx).symm
    · exact h.separate x hx y hy hne
  · rintro pri hpri x (rfl | hx) f
    · exact harray pri hpri f
    · exact h.array pri hpri x hx f

/-- The TCB that `create_task` makes. -/
def newTcb (pri context : Word) : TCB := ⟨TASK_STATE_READY, pri, 0, 0, 0, NULL, NULL, context⟩

/-- Where `create_task` may put the TCB and the context of a new task. -/
structure Placeable (taskHead : Word) (head : Word → Word) (queue : Word → List Word)
    (task context : Word) : Prop where
  fresh : task ∉ nodes head queue
  layout : Layout taskHead (insert task (nodes head queue))
  apart : ContextOutside (insert task (nodes head queue)) context
  array : ∀ pri < SMP_MAX_PRI,
    entry taskHead pri ≠ context + 48 ∧ entry taskHead pri ≠ context + 56

section Create

variable {context : Word}

/-- The last task of a queue, or its sentinel, is not the new task. -/
lemma Placeable.prev_mem (hp : Placeable taskHead head queue task context)
    (h : TaskQueues tcb (heads head) queue) (hpri : pri < SMP_MAX_PRI) :
    (Function.update tcb task (newTcb pri context) (head pri)).prev ∈ nodes head queue := by
  have hne : head pri ≠ task := fun he => hp.fresh (he ▸ head_mem_nodes head queue hpri)
  rw [Function.update_of_ne hne]
  exact ⟨head pri, head_mem_heads hpri,
    Rings.prev_mem h (head_mem_heads hpri) List.mem_cons_self⟩

/-- After the stores to the new task `task_head` and the links are as they were. -/
lemma Holds.initTask (h : Holds taskHead head queue m) (func : Word)
    (hp : Placeable taskHead head queue task context)
    (hsame : SameQueues taskHead (nodes head queue) m m') (hpri : pri < SMP_MAX_PRI) :
    initTask task context func pri m' (entry taskHead pri) = head pri ∧
      Shows (insert task (nodes head queue)) (initTask task context func pri m')
        (Function.update (tcbAt m) task (newTcb pri context)) := by
  constructor
  · rw [(hp.layout.array pri hpri).initTask (Set.mem_insert ..) (hp.array pri hpri),
      hsame _ (.inl ⟨pri, hpri, rfl⟩), h.sentinel pri hpri]
  · refine Shows.initTask (fun x hx hne => ?_) (fun x hx hne => ?_) hp.apart
    · exact hsame.tcbAt (Set.mem_of_mem_insert_of_ne hx hne)
    · exact hp.layout.separate task (Set.mem_insert ..) x hx (Ne.symm hne)

/-- The TCBs after `create_task`. -/
lemma Holds.create_shows (h : Holds taskHead head queue m) (func : Word)
    (hp : Placeable taskHead head queue task context)
    (hsame : SameQueues taskHead (nodes head queue) m m') (hpri : pri < SMP_MAX_PRI) :
    Shows (insert task (nodes head queue))
      (enqueue taskHead pri task (TaskRam.initTask task context func pri m'))
      (Kernel.enqueue (Function.update (tcbAt m) task (newTcb pri context)) (head pri) task) := by
  obtain ⟨hentry, hshows⟩ := h.initTask func hp hsame hpri
  have hhead := head_mem_nodes head queue hpri
  refine hshows.enqueue hp.layout hpri hentry (.inr hhead) ?_ (.inl rfl)
  exact .inr (hp.prev_mem h.queues hpri)

/-- The words that `create_task` leaves as the allocator left them. -/
lemma Holds.create_outside (h : Holds taskHead head queue m) (func : Word)
    (hp : Placeable taskHead head queue task context)
    (hsame : SameQueues taskHead (nodes head queue) m m') (hpri : pri < SMP_MAX_PRI) {a : Word}
    (ha : Outside (insert task (nodes head queue)) a)
    (hcontext : a ≠ context + 48 ∧ a ≠ context + 56) :
    enqueue taskHead pri task (TaskRam.initTask task context func pri m') a = m' a := by
  obtain ⟨hentry, hshows⟩ := h.initTask func hp hsame hpri
  have hhead := head_mem_nodes head queue hpri
  rw [ha.enqueue hp.layout hpri hentry (hshows.prev (.inr hhead)) (.inr hhead)
    (.inr (hp.prev_mem h.queues hpri)) (.inl rfl), ha.initTask (.inl rfl) hcontext]

/-- `create_task` puts the new task at the end of its queue. -/
lemma Holds.create (h : Holds taskHead head queue m) (func : Word)
    (hp : Placeable taskHead head queue task context)
    (hsame : SameQueues taskHead (nodes head queue) m m') (hpri : pri < SMP_MAX_PRI) :
    Holds taskHead head (Function.update queue (head pri) (queue (head pri) ++ [task]))
      (enqueue taskHead pri task (TaskRam.initTask task context func pri m')) := by
  have hshows := h.create_shows func hp hsame hpri
  refine ⟨fun pri' hpri' => ?_, ?_, ?_⟩
  · rw [h.create_outside func hp hsame hpri (hp.layout.array pri' hpri') (hp.array pri' hpri'),
      hsame _ (.inl ⟨pri', hpri', rfl⟩), h.sentinel pri' hpri']
  · refine TaskQueues.of_shows ?_ ((nodes_push hpri).symm ▸ hshows)
    apply TaskQueues.enqueue _ (head_mem_heads hpri) hp.fresh
    have hold : ∀ x, Rings.Node (heads head) queue x → x ≠ task := by
      rintro x hx rfl
      exact hp.fresh hx
    refine Rings.congr h.queues (fun x hx => ?_) fun x hx => ?_
    · rw [Function.update_of_ne (hold x hx)]
    · rw [Function.update_of_ne (hold x hx)]
  · rw [nodes_push hpri]
    exact hp.layout

/-- The new TCB, its links apart. -/
lemma Holds.create_new (h : Holds taskHead head queue m) (func : Word)
    (hp : Placeable taskHead head queue task context)
    (hsame : SameQueues taskHead (nodes head queue) m m') (hpri : pri < SMP_MAX_PRI) :
    bare (tcbAt (enqueue taskHead pri task (TaskRam.initTask task context func pri m')) task)
      = newTcb pri context := by
  rw [h.create_shows func hp hsame hpri task (.inl rfl), enqueue_bare, Function.update_self]
  rfl

/-- The TCBs of the queues change in their links only. -/
lemma Holds.create_old (h : Holds taskHead head queue m) (func : Word)
    (hp : Placeable taskHead head queue task context)
    (hsame : SameQueues taskHead (nodes head queue) m m') (hpri : pri < SMP_MAX_PRI)
    (hx : x ∈ nodes head queue) :
    bare (tcbAt (enqueue taskHead pri task (TaskRam.initTask task context func pri m')) x)
      = bare (tcbAt m x) := by
  have hne : x ≠ task := fun he => hp.fresh (he ▸ hx)
  rw [h.create_shows func hp hsame hpri x (.inr hx), enqueue_bare, Function.update_of_ne hne]

end Create

section Destroy

lemma nodes_without : nodes head (Rings.without queue task) ⊆ nodes head queue := by
  rintro x ⟨h, hh, hx⟩
  have hsub : Rings.without queue task h ⊆ queue h := fun y hy => List.mem_of_mem_filter hy
  exact ⟨h, hh, List.cons_subset_cons h hsub hx⟩

/-- `destroy_task` takes the task out of its queue. -/
lemma Holds.unlink (h : Holds taskHead head queue m)
    (htask : Rings.Queued (heads head) queue task) :
    Holds taskHead head (Rings.without queue task) (unlink task m) := by
  obtain ⟨a, ha, hmem⟩ := htask
  have hnode : ∀ {x}, x ∈ a :: queue a → x ∈ nodes head queue := fun hx => ⟨a, ha, hx⟩
  have hmem' := List.mem_cons_of_mem a hmem
  have hprev := hnode (Rings.prev_mem h.queues ha hmem')
  have hnext := hnode (Rings.next_mem h.queues ha hmem')
  have hshows : Shows (nodes head queue) m (tcbAt m) := fun _ _ => rfl
  refine ⟨fun pri hpri => ?_, ?_, h.layout.mono nodes_without⟩
  · rw [(h.layout.array pri hpri).unlink hshows h.layout (hnode hmem') hprev hnext,
      h.sentinel pri hpri]
  · apply TaskQueues.of_shows (TaskQueues.unlink h.queues ha hmem)
    have hunlink := hshows.unlink h.layout (hnode hmem') hprev hnext
    exact fun x hx => hunlink x (nodes_without hx)

end Destroy

/-! ## What the functions do -/

/-- The state with another RAM. -/
def State.withMem (s : State) (m : Mem) : State :=
  { s with kernel := { s.kernel with mem := m } }

section Functions

variable {s s' s₁ s₂ : State} {kmalloc : Word → RamM Word} {kfree : Word → RamM Unit}
  {func context : Word} {lock : LockWord} {fuel : ℕ}

lemma createTask_null (h : taskHead = NULL ∨ func = NULL) :
    createTask kmalloc taskHead func pri lock s = some ((), s) := by
  rw [createTask, if_pos h]
  rfl

/-- `create_task` once it has its memory. -/
lemma createTask_rest (task context func pri : Word) (lock : LockWord) (s : State) :
    (do
      ofKernel (modifyMem (initTask task context func pri))
      ofKernel (spinReq lock)
      guard (pri < SMP_MAX_PRI)
      ofKernel (modifyMem (enqueue taskHead pri task))
      ofKernel (spinRel lock) : RamM Unit) s =
    if pri < SMP_MAX_PRI ∧ s.kernel.held lock = false then
      some ((), s.withMem (enqueue taskHead pri task (initTask task context func pri s.mem)))
    else none := by
  cases hheld : s.kernel.held lock with
  | true => simp [ofKernel, modifyMem, spinReq, bind, StateT.bind, hheld]
  | false =>
      by_cases hpri : pri < SMP_MAX_PRI
      · have hguard : ∀ t, (guard (pri < SMP_MAX_PRI) : RamM Unit) t = some ((), t) := by
          rw [guard, if_pos hpri]
          exact fun _ => rfl
        simp [ofKernel, modifyMem, spinReq, spinRel, bind, StateT.bind, hheld, hpri, hguard,
          State.withMem, State.mem, update_held hheld]
      · have hguard : ∀ t, (guard (pri < SMP_MAX_PRI) : RamM Unit) t = none := by
          rw [guard, if_neg hpri]
          exact fun _ => rfl
        simp [ofKernel, modifyMem, spinReq, bind, StateT.bind, hpri, hguard]

/-- The calls of `create_task` that return. -/
lemma createTask_eq_some_iff (h : ¬ (taskHead = NULL ∨ func = NULL)) :
    createTask kmalloc taskHead func pri lock s = some ((), s') ↔ ∃ task s₁ context s₂,
      kmalloc SIZEOF_TCB s = some (task, s₁) ∧ kmalloc SIZEOF_CONTEXT s₁ = some (context, s₂) ∧
      (pri < SMP_MAX_PRI ∧ s₂.kernel.held lock = false) ∧
      s' = s₂.withMem (enqueue taskHead pri task (initTask task context func pri s₂.mem)) := by
  rw [createTask, if_neg h]
  constructor
  · intro hs
    obtain ⟨⟨task, s₁⟩, h1, hs⟩ := Option.bind_eq_some_iff.mp hs
    obtain ⟨⟨context, s₂⟩, h2, hs⟩ := Option.bind_eq_some_iff.mp hs
    have hs := (createTask_rest task context func pri lock s₂).symm.trans hs
    split_ifs at hs with hok
    exact ⟨task, s₁, context, s₂, h1, h2, hok, by simpa using hs.symm⟩
  · rintro ⟨task, s₁, context, s₂, h1, h2, hok, rfl⟩
    refine Option.bind_eq_some_iff.mpr ⟨_, h1, Option.bind_eq_some_iff.mpr ⟨_, h2, ?_⟩⟩
    exact (createTask_rest task context func pri lock s₂).trans (if_pos hok)

/-- The state in which `destroy_task` calls `kfree`, when clearing the space has left `m`. -/
def detached (task : Word) (m : Mem) (s : State) : State :=
  { s with kernel := { s.kernel with
    tlbOps := (s.kernel.prid, get s.mem task .asid) :: s.kernel.tlbOps
    common := { s.kernel.common with
      asidHead := Function.update s.kernel.common.asidHead (get s.mem task .asid) UNUSED_ASID }
    smpTskAlcMap := Function.update s.kernel.smpTskAlcMap (get m task .mapid).toNat ⟨INIT_MAP, NULL⟩
    mapAccesses := (get m task .mapid).toNat :: (get m task .mapid).toNat :: s.kernel.mapAccesses
    mem := unlink task m } }

@[simp] lemma detached_mem (task : Word) (m : Mem) (s : State) :
    (detached task m s).mem = unlink task m := rfl

lemma detachTask_eq (fuel : ℕ) (task : Word) (s : State) : detachTask fuel task s =
    (Loop.run (clearPass task) fuel (get s.mem task .ttba, s.mem)).bind fun m =>
      if s.kernel.held .smpQueueLock then none else some ((), detached task m s) := by
  cases hrun : Loop.run (clearPass task) fuel (get s.mem task .ttba, s.mem) with
  | none =>
      simp only [State.mem] at hrun
      simp [detachTask, ofKernel, readField, clearSpace, invalidateTlbs, writeAsidHead,
        modifyCommon, bind, StateT.bind, State.mem, hrun]
  | some m =>
      simp only [State.mem] at hrun
      cases hheld : s.kernel.held .smpQueueLock with
      | true =>
          simp [detachTask, ofKernel, readField, clearSpace, invalidateTlbs, writeAsidHead,
            modifyCommon, spinReq, bind, StateT.bind, State.mem, hrun, hheld]
      | false =>
          simp [detachTask, detached, unlink, ofKernel, readField, clearSpace, invalidateTlbs,
            writeAsidHead, modifyCommon, spinReq, spinRel, modifyMap, modifyMem, TaskMap.setState,
            TaskMap.setTask, bind, StateT.bind, State.mem, hrun, hheld, update_held hheld]

/-- The calls of `destroy_task` that return. -/
lemma destroyTask_eq_some_iff : destroyTask fuel kfree task s = some ((), s') ↔ ∃ s₁ s₂,
    detachTask fuel task s = some ((), s₁) ∧
      kfree (get s₁.mem task .context) s₁ = some ((), s₂) ∧ kfree task s₂ = some ((), s') := by
  constructor
  · intro hs
    obtain ⟨⟨⟨⟩, s₁⟩, h1, hs⟩ := Option.bind_eq_some_iff.mp hs
    obtain ⟨⟨⟨⟩, s₂⟩, h2, hs⟩ := Option.bind_eq_some_iff.mp hs
    exact ⟨s₁, s₂, h1, h2, hs⟩
  · rintro ⟨s₁, s₂, h1, h2, hs⟩
    exact Option.bind_eq_some_iff.mpr ⟨_, h1, Option.bind_eq_some_iff.mpr ⟨_, h2, hs⟩⟩

end Functions

end TaskRam

end Rpi2Baremetal
