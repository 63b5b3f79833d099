import Rpi2Baremetal.Framework.Transition
import Rpi2Baremetal.Properties.TaskRam

/-!
# The ready queues

The queue of each priority is a ring of its sentinel and its tasks in the order of their
creation, and `create_task` and `destroy_task` keep it so as long as what `destroy_task` clears
is not part of the queues.  A task that was not started has no space, and for it the first
megabyte of memory is cleared, where the kernel keeps `smp_tcb_head`.
-/

namespace Rpi2Baremetal

open Framework

namespace TaskRam

open Kernel

variable {taskHead pri task x : Word} {head : Word → Word} {queue : Word → List Word}

/-! ## Runs -/

/-- The state, and the tasks of each queue in the order of their creation, by sentinel. -/
abbrev QueueState := State × (Word → List Word)

inductive QueueCall where
  | createTask (func pri : Word) (lock : LockWord)
  | destroyTask (task : Word)

/-- The allocator leaves the queues and the locks alone. -/
structure Keeps (taskHead : Word) (N : Set Word) (s s' : State) : Prop where
  queues : SameQueues taskHead N s.mem s'.mem
  held : s'.kernel.held = s.kernel.held

/-- `kmalloc` has returned a fresh block of `nbytes` bytes: not `NULL`, and without a word of the
queues. -/
structure Allocates (taskHead : Word) (N : Set Word) (nbytes : Word) (s : State) (p : Word)
    (s' : State) : Prop where
  ne_null : p ≠ NULL
  fresh : ∀ i : ℕ, 4 * i < nbytes.toNat → p + .ofNat 32 (4 * i) ∉ queueWords taskHead N
  keeps : Keeps taskHead N s s'

/-- A call that returns. -/
inductive QueueStep (taskHead : Word) (head : Word → Word) :
    QueueState → QueueCall → QueueState → Prop
  | null {s s' : State} {queue : Word → List Word} {kmalloc : Word → RamM Word}
      {taskHead' func pri : Word} {lock : LockWord} :
      taskHead' = NULL ∨ func = NULL →
      createTask kmalloc taskHead' func pri lock s = some ((), s') →
      QueueStep taskHead head (s, queue) (.createTask func pri lock) (s', queue)
  | createTask {s s₁ s₂ s' : State} {queue : Word → List Word} {kmalloc : Word → RamM Word}
      {func pri task context : Word} {lock : LockWord} :
      ¬ (taskHead = NULL ∨ func = NULL) →
      kmalloc SIZEOF_TCB s = some (task, s₁) →
      Allocates taskHead (nodes head queue) SIZEOF_TCB s task s₁ →
      kmalloc SIZEOF_CONTEXT s₁ = some (context, s₂) →
      Allocates taskHead (insert task (nodes head queue)) SIZEOF_CONTEXT s₁ context s₂ →
      createTask kmalloc taskHead func pri lock s = some ((), s') →
      QueueStep taskHead head (s, queue) (.createTask func pri lock)
        (s', Function.update queue (head pri) (queue (head pri) ++ [task]))
  | destroyTask {s s₁ s₂ s' : State} {queue : Word → List Word} {fuel : ℕ}
      {kfree : Word → RamM Unit} {task : Word} :
      Rings.Queued (heads head) queue task →
      detachTask fuel task s = some ((), s₁) →
      kfree (get s₁.mem task .context) s₁ = some ((), s₂) →
      Keeps taskHead (nodes head (Rings.without queue task)) s₁ s₂ →
      kfree task s₂ = some ((), s') →
      Keeps taskHead (nodes head (Rings.without queue task)) s₂ s' →
      destroyTask fuel kfree task s = some ((), s') →
      QueueStep taskHead head (s, queue) (.destroyTask task) (s', Rings.without queue task)

/-- Each entry of `task_head` points to a sentinel of its own, which is linked to itself. -/
structure QueuesInitial (taskHead : Word) (head : Word → Word) (s : QueueState) : Prop where
  sentinel : ∀ pri < SMP_MAX_PRI, s.1.mem (entry taskHead pri) = head pri
  next : ∀ pri < SMP_MAX_PRI, get s.1.mem (head pri) .next = head pri
  prev : ∀ pri < SMP_MAX_PRI, get s.1.mem (head pri) .prev = head pri
  different : ∀ pri < SMP_MAX_PRI, ∀ pri' < SMP_MAX_PRI, head pri = head pri' → pri = pri'
  layout : Layout taskHead (heads head)
  held : ∀ lock, s.1.kernel.held lock = false
  queue : s.2 = fun _ => []

/-- What `destroy_task` clears is not part of the queues. -/
def ClearsNoQueue (taskHead : Word) (head : Word → Word) (s : QueueState) (c : QueueCall) :
    Prop :=
  ∀ task, c = .destroyTask task → ∀ offset ∈ spaceOffsets (get s.1.mem task .ttba),
    get s.1.mem task .ttba + offset ∉ queueWords taskHead (nodes head s.2)

/-- Each priority's list is a circular doubly linked list of the sentinel and the tasks in the
order of their creation. -/
structure Fifo (taskHead : Word) (head : Word → Word) (s : QueueState) : Prop where
  sentinel : ∀ pri < SMP_MAX_PRI, s.1.mem (entry taskHead pri) = head pri
  linked : ∀ pri < SMP_MAX_PRI, DoublyLinked (fun x => get s.1.mem x .next)
    (fun x => get s.1.mem x .prev) (head pri :: s.2 (head pri))
  forth : ∀ pri < SMP_MAX_PRI, ∀ x ∈ head pri :: s.2 (head pri),
    get s.1.mem (get s.1.mem x .prev) .next = x

/-- The call is on another priority. -/
def OtherPriority (head : Word → Word) (s : QueueState) (pri : Word) : QueueCall → Prop
  | .createTask _ pri' _ => pri ≠ pri'
  | .destroyTask task => task ∉ s.2 (head pri)

/-- The list of the priority has the same tasks, and their TCBs are the same. -/
def SameList (head : Word → Word) (pri : Word) (s s' : QueueState) : Prop :=
  s'.2 (head pri) = s.2 (head pri) ∧
    ∀ x ∈ head pri :: s.2 (head pri), tcbAt s'.1.mem x = tcbAt s.1.mem x

/-! ## What a call does -/

variable {s s₁ s₂ : State} {m : Mem} {context func p nbytes : Word} {N : Set Word}
  {lock : LockWord}

/-- The words of a TCB are the words of its block. -/
lemma exists_offset (f : Field) : ∃ i : ℕ, 4 * i < SIZEOF_TCB.toNat ∧
    f.offset = .ofNat 32 (4 * i) := by
  cases f
  exacts [⟨0, by decide, rfl⟩, ⟨1, by decide, rfl⟩, ⟨2, by decide, rfl⟩, ⟨3, by decide, rfl⟩,
    ⟨4, by decide, rfl⟩, ⟨5, by decide, rfl⟩, ⟨6, by decide, rfl⟩, ⟨7, by decide, rfl⟩]

lemma Allocates.tcb_fresh (h : Allocates taskHead N SIZEOF_TCB s p s₁) (f : Field) :
    p + f.offset ∉ queueWords taskHead N := by
  obtain ⟨i, hi, hf⟩ := exists_offset f
  rw [hf]
  exact h.fresh i hi

/-- Fresh memory is a place for a new task. -/
lemma placeable_of_allocates (hlay : Layout taskHead (nodes head queue))
    (h1 : Allocates taskHead (nodes head queue) SIZEOF_TCB s task s₁)
    (h2 : Allocates taskHead (insert task (nodes head queue)) SIZEOF_CONTEXT s₁ context s₂) :
    Placeable taskHead head queue task context := by
  have hsp := h2.fresh 12 (by decide)
  have hpc := h2.fresh 14 (by decide)
  refine ⟨fun hmem => ?_, hlay.insert (fun x hx f g he => ?_) (fun pri hpri f he => ?_),
    ⟨fun x hx f he => ?_, fun x hx f he => ?_⟩, fun pri hpri => ⟨fun he => ?_, fun he => ?_⟩⟩
  · exact h1.tcb_fresh .state (.inr ⟨task, hmem, .state, rfl⟩)
  · exact h1.tcb_fresh f (.inr ⟨x, hx, g, he⟩)
  · exact h1.tcb_fresh f (.inl ⟨pri, hpri, he.symm⟩)
  · exact hsp (.inr ⟨x, hx, f, he⟩)
  · exact hpc (.inr ⟨x, hx, f, he⟩)
  · exact hsp (.inl ⟨pri, hpri, he.symm⟩)
  · exact hpc (.inl ⟨pri, hpri, he.symm⟩)

/-- What clearing the space of a task leaves. -/
def cleared (m : Mem) (task : Word) : Mem :=
  m.writeAll (get m task .ttba + ·) (fun _ => 0) (spaceOffsets (get m task .ttba))

/-- The calls of `destroy_task` come to `kfree`, when the TCB is not cleared. -/
lemma detachTask_cleared (hkeep : ∀ offset ∈ spaceOffsets (get s.mem task .ttba),
      get s.mem task .ttba + offset ≠ task + Field.ttba.offset) :
    (∀ fuel s₁, detachTask fuel task s = some ((), s₁) →
      s₁ = detached task (cleared s.mem task) s) ∧
    (s.kernel.held .smpQueueLock = false →
      ∃ fuel, detachTask fuel task s = some ((), detached task (cleared s.mem task) s)) := by
  obtain ⟨fuel, hclear⟩ := clearPass_returns rfl hkeep
  constructor
  · intro fuel' s₁ hs
    rw [detachTask_eq] at hs
    obtain ⟨m, hm, hs⟩ := Option.bind_eq_some_iff.mp hs
    obtain rfl := Loop.Returns.unique ⟨fuel, hclear⟩ ⟨fuel', hm⟩
    split_ifs at hs
    exact (Prod.mk.inj (Option.some.inj hs)).2.symm
  · intro hheld
    refine ⟨fuel, ?_⟩
    rw [detachTask_eq, hclear, Option.bind_some, hheld]
    rfl

/-- Clearing what is not part of the queues leaves the queues. -/
lemma sameQueues_cleared (h : ∀ offset ∈ spaceOffsets (get m task .ttba),
    get m task .ttba + offset ∉ queueWords taskHead N) :
    SameQueues taskHead N m (cleared m task) := by
  intro a ha
  refine Memory.writeAll_of_notMem m _ _ fun offset hoffset he => ?_
  exact h offset hoffset (he ▸ ha)

/-! ## The invariant -/

/-- RAM holds the queues, and no lock is held. -/
structure QueueInv (taskHead : Word) (head : Word → Word) (s : QueueState) : Prop where
  holds : Holds taskHead head s.2 s.1.mem
  held : ∀ lock, s.1.kernel.held lock = false

variable {q q' : QueueState} {c : QueueCall}

lemma nodes_nil (head : Word → Word) : nodes head (fun _ => []) = heads head := by
  ext x
  constructor
  · rintro ⟨a, ha, hx⟩
    exact List.mem_singleton.mp hx ▸ ha
  · exact fun hx => ⟨x, hx, List.mem_singleton_self x⟩

lemma QueuesInitial.inv (h : QueuesInitial taskHead head q) : QueueInv taskHead head q := by
  refine ⟨⟨h.sentinel, ?_, ?_⟩, h.held⟩ <;> rw [h.queue]
  swap
  · exact (nodes_nil head).symm ▸ h.layout
  apply Rings.of_self
  · rintro a ⟨pri, hpri, rfl⟩
    exact h.next pri hpri
  · rintro a ⟨pri, hpri, rfl⟩
    exact h.prev pri hpri

lemma QueueInv.fifo (h : QueueInv taskHead head q) : Fifo taskHead head q where
  sentinel := h.holds.sentinel
  linked _ hpri := h.holds.queues.linked _ (head_mem_heads hpri)
  forth _ hpri _ hx := (h.holds.queues.linked _ (head_mem_heads hpri)).forth hx

lemma ClearsNoQueue.cleared (h : ClearsNoQueue taskHead head q (.destroyTask task))
    (htask : task ∈ nodes head q.2) :
    SameQueues taskHead (nodes head q.2) q.1.mem (cleared q.1.mem task) ∧
      ∀ offset ∈ spaceOffsets (get q.1.mem task .ttba),
        get q.1.mem task .ttba + offset ≠ task + Field.ttba.offset := by
  refine ⟨sameQueues_cleared (h task rfl), fun offset hoffset he => ?_⟩
  exact h task rfl offset hoffset (.inr ⟨task, htask, .ttba, he⟩)

/-- What a call can do, when what `destroy_task` clears is not part of the queues. -/
lemma QueueInv.step_cases (h : QueueInv taskHead head q) (hclear : ClearsNoQueue taskHead head q c)
    (hs : QueueStep taskHead head q c q') :
    q'.1.kernel.held = q.1.kernel.held ∧
      (q' = q ∨
        (∃ func pri task context lock m, c = .createTask func pri lock ∧ pri < SMP_MAX_PRI ∧
          Placeable taskHead head q.2 task context ∧
          SameQueues taskHead (nodes head q.2) q.1.mem m ∧
          q'.1.mem = enqueue taskHead pri task (initTask task context func pri m) ∧
          q'.2 = Function.update q.2 (head pri) (q.2 (head pri) ++ [task])) ∨
        ∃ task m, c = .destroyTask task ∧ Rings.Queued (heads head) q.2 task ∧
          SameQueues taskHead (nodes head q.2) q.1.mem m ∧
          SameQueues taskHead (nodes head (Rings.without q.2 task)) (unlink task m) q'.1.mem ∧
          q'.2 = Rings.without q.2 task) := by
  cases hs with
  | null hnull hs =>
      rw [createTask_null hnull] at hs
      cases hs
      exact ⟨rfl, .inl rfl⟩
  | createTask hnull hk1 h1 hk2 h2 hs =>
      obtain ⟨task', s₁', context', s₂', hk1', hk2', ⟨hpri, -⟩, rfl⟩ :=
        (createTask_eq_some_iff hnull).mp hs
      cases hk1.symm.trans hk1'
      cases hk2.symm.trans hk2'
      have hsame := h2.keeps.queues.mono (Set.subset_insert _ _)
      exact ⟨h2.keeps.held.trans h1.keeps.held, .inr (.inl ⟨_, _, _, _, _, _, rfl, hpri,
        placeable_of_allocates h.holds.layout h1 h2,
        fun a ha => (hsame a ha).trans (h1.keeps.queues a ha), rfl, rfl⟩)⟩
  | destroyTask htask hd hk1 h1 hk2 h2 hs =>
      obtain ⟨hsame, hkeep⟩ := hclear.cleared htask.node
      obtain rfl := (detachTask_cleared hkeep).1 _ _ hd
      exact ⟨h2.held.trans h1.held, .inr (.inr ⟨_, _, rfl, htask, hsame,
        fun a ha => (h2.queues a ha).trans (h1.queues a ha), rfl⟩)⟩

/-- **Step lemma.**  A call keeps the invariant, when what `destroy_task` clears is not part of the
queues. -/
lemma QueueInv.step (h : QueueInv taskHead head q) (hclear : ClearsNoQueue taskHead head q c)
    (hs : QueueStep taskHead head q c q') : QueueInv taskHead head q' := by
  obtain ⟨hheld, hcases⟩ := h.step_cases hclear hs
  refine ⟨?_, hheld ▸ h.held⟩
  obtain rfl | ⟨func, pri, task, context, lock, m, -, hpri, hp, hsame, hmem, hqueue⟩ |
    ⟨task, m, -, htask, hsame, hfreed, hqueue⟩ := hcases
  · exact h.holds
  · rw [hmem, hqueue]
    exact h.holds.create func hp hsame hpri
  · rw [hqueue]
    exact Holds.congr ((h.holds.congr hsame).unlink htask) hfreed

/-- The calls of a state return, if their calls of the allocator do. -/
structure CallsReturn (taskHead : Word) (head : Word → Word) (q : QueueState) : Prop where
  createTask : ∀ (kmalloc : Word → RamM Word) (func pri task context : Word) (lock : LockWord)
    (s₁ s₂ : State), pri < SMP_MAX_PRI →
      kmalloc SIZEOF_TCB q.1 = some (task, s₁) →
      Allocates taskHead (nodes head q.2) SIZEOF_TCB q.1 task s₁ →
      kmalloc SIZEOF_CONTEXT s₁ = some (context, s₂) →
      Allocates taskHead (insert task (nodes head q.2)) SIZEOF_CONTEXT s₁ context s₂ →
      ∃ s', TaskRam.createTask kmalloc taskHead func pri lock q.1 = some ((), s')
  destroyTask : ∀ task, Rings.Queued (heads head) q.2 task →
    ClearsNoQueue taskHead head q (.destroyTask task) →
    ∃ fuel s', detachTask fuel task q.1 = some ((), s')

lemma QueueInv.callsReturn (h : QueueInv taskHead head q) : CallsReturn taskHead head q := by
  constructor
  · intro kmalloc func pri task context lock s₁ s₂ hpri hk1 h1 hk2 h2
    by_cases hnull : taskHead = NULL ∨ func = NULL
    · exact ⟨q.1, createTask_null hnull⟩
    · refine ⟨_, (createTask_eq_some_iff hnull).mpr ⟨task, s₁, context, s₂, hk1, hk2, ⟨hpri, ?_⟩,
        rfl⟩⟩
      exact (congrFun (h2.keeps.held.trans h1.keeps.held) lock).trans (h.held lock)
  · intro task htask hclear
    obtain ⟨-, hkeep⟩ := hclear.cleared htask.node
    obtain ⟨fuel, hd⟩ := (detachTask_cleared hkeep).2 (h.held _)
    exact ⟨fuel, _, hd⟩

/-- `create_task` changes no TCB of another ring. -/
lemma Holds.create_other {m' : Mem} {pri' : Word} (h : Holds taskHead head queue m) (func : Word)
    (hp : Placeable taskHead head queue task context)
    (hsame : SameQueues taskHead (nodes head queue) m m') (hpri : pri < SMP_MAX_PRI)
    (hpri' : pri' < SMP_MAX_PRI) (hne : head pri ≠ head pri')
    (hx : x ∈ head pri :: queue (head pri)) :
    tcbAt (enqueue taskHead pri' task (TaskRam.initTask task context func pri' m')) x
      = tcbAt m x := by
  have hnode : x ∈ nodes head queue := ⟨head pri, head_mem_heads hpri, hx⟩
  have hother : x ∉ head pri' :: queue (head pri') := fun hx' =>
    hne (Rings.eq_of_mem h.queues (head_mem_heads hpri) (head_mem_heads hpri') hx hx')
  have hnew : ∀ {y}, y ∈ nodes head queue → y ≠ task := by
    rintro y hy rfl
    exact hp.fresh hy
  have hlast := Rings.prev_mem h.queues (head_mem_heads hpri') List.mem_cons_self
  rw [h.create_shows func hp hsame hpri' x (.inr hnode), enqueue_of_ne (hnew hnode),
    Function.update_of_ne (hnew hnode)]
  · rintro rfl
    exact hother List.mem_cons_self
  · rw [Function.update_of_ne (hnew (head_mem_nodes head queue hpri'))]
    rintro rfl
    exact hother hlast

/-- `destroy_task` changes no TCB of another ring. -/
lemma Holds.unlink_other (h : Holds taskHead head queue m)
    (htask : Rings.Queued (heads head) queue task) (hpri : pri < SMP_MAX_PRI)
    (hnot : task ∉ queue (head pri)) (hx : x ∈ head pri :: queue (head pri)) :
    tcbAt (TaskRam.unlink task m) x = tcbAt m x := by
  obtain ⟨a, ha, hmem⟩ := htask
  have hmem' := List.mem_cons_of_mem a hmem
  have hprev := Rings.prev_mem h.queues ha hmem'
  have hnext := Rings.next_mem h.queues ha hmem'
  have hother : x ∉ a :: queue a := by
    intro hx'
    obtain rfl := Rings.eq_of_mem h.queues (head_mem_heads hpri) ha hx hx'
    exact hnot hmem
  have hshows : Shows (nodes head queue) m (tcbAt m) := fun _ _ => rfl
  rw [hshows.unlink h.layout ⟨a, ha, hmem'⟩ ⟨a, ha, hprev⟩ ⟨a, ha, hnext⟩ x
    ⟨head pri, head_mem_heads hpri, hx⟩]
  apply unlink_of_ne
  · rintro rfl
    exact hother hprev
  · rintro rfl
    exact hother hnext

/-- A call changes no list of another priority. -/
lemma QueueInv.sameList (h : QueueInv taskHead head q)
    (hclear : ClearsNoQueue taskHead head q c) (hs : QueueStep taskHead head q c q')
    (hdiff : ∀ pri < SMP_MAX_PRI, ∀ pri' < SMP_MAX_PRI, head pri = head pri' → pri = pri')
    (hpri : pri < SMP_MAX_PRI) (hother : OtherPriority head q pri c) : SameList head pri q q' := by
  obtain ⟨-, hcases⟩ := h.step_cases hclear hs
  obtain rfl | ⟨func, pri', task, context, lock, m, rfl, hpri', hp, hsame, hmem, hqueue⟩ |
    ⟨task, m, rfl, htask, hsame, hfreed, hqueue⟩ := hcases
  · exact ⟨rfl, fun _ _ => rfl⟩
  · have hne := fun he => hother (hdiff _ hpri _ hpri' he)
    rw [SameList, hmem, hqueue]
    exact ⟨Function.update_of_ne hne ..,
      fun x hx => h.holds.create_other func hp hsame hpri hpri' hne hx⟩
  · have hwithout := Rings.without_of_notMem hother
    rw [SameList, hqueue]
    refine ⟨hwithout, fun x hx => ?_⟩
    have hnode : x ∈ nodes head (Rings.without q.2 task) :=
      ⟨head pri, head_mem_heads hpri, hwithout.symm ▸ hx⟩
    rw [hfreed.tcbAt hnode, (h.holds.congr hsame).unlink_other htask hpri hother hx]
    exact hsame.tcbAt ⟨head pri, head_mem_heads hpri, hx⟩

/-- **Ready queues.**  In every state that calls of `create_task` and `destroy_task` lead to, when
no call of `destroy_task` clears part of the queues: each priority's list is a circular doubly
linked list of its tasks in the order of their creation, the calls return if those of the
allocator do, and a call changes no list of another priority. -/
theorem ready_queues_fifo {q₀ : QueueState} {cs : List QueueCall}
    (hinit : QueuesInitial taskHead head q₀)
    (hrun : Run (guarded (ClearsNoQueue taskHead head) (QueueStep taskHead head)) q₀ cs q) :
    Fifo taskHead head q ∧ CallsReturn taskHead head q ∧
      ∀ c q', guarded (ClearsNoQueue taskHead head) (QueueStep taskHead head) q c q' →
        ∀ pri < SMP_MAX_PRI, OtherPriority head q pri c → SameList head pri q q' := by
  have hinv : QueueInv taskHead head q :=
    hrun.guarded_invariant (fun _ _ _ h hclear hs => h.step hclear hs) hinit.inv
  refine ⟨hinv.fifo, hinv.callsReturn, fun c q' hs pri hpri hother => ?_⟩
  exact hinv.sameList hs.1 hs.2 hinit.different hpri hother

/-! ## Sentinels in the kernel heap -/

/-- The sentinel of a priority. -/
def sentinelAt (pri : Word) : Word := 0x22001000 + 64 * pri

/-- RAM with `task_head` at the given address and with sentinels linked to themselves. -/
def emptyQueues (taskHead : Word) : Mem := fun a =>
  if taskHead ≤ a ∧ a < taskHead + 512 then 0x22001000 + 16 * (a - taskHead)
  else 0x22001000 + 64 * ((a - 0x22001000) / 64)

/-- The state at boot with these queues. -/
def withQueues (taskHead : Word) : QueueState :=
  (⟨{ atBoot with mem := emptyQueues taskHead }, []⟩, fun _ => [])

lemma toNat_offset_le (f : Field) : f.offset.toNat ≤ 28 := by
  cases f <;> decide

lemma toNat_entry {pri : Word} (hhead : taskHead.toNat + 512 ≤ 0x22001000)
    (hpri : pri < SMP_MAX_PRI) : (entry taskHead pri).toNat = taskHead.toNat + 4 * pri.toNat := by
  have hlt : pri.toNat < 128 := hpri
  rw [entry]
  bv_omega

lemma toNat_sentinelAt_add (hpri : pri < SMP_MAX_PRI) (f : Field) :
    (sentinelAt pri + f.offset).toNat = 0x22001000 + 64 * pri.toNat + f.offset.toNat := by
  have hlt : pri.toNat < 128 := hpri
  have hf := toNat_offset_le f
  rw [sentinelAt]
  bv_omega

lemma emptyQueues_entry (hhead : taskHead.toNat + 512 ≤ 0x22001000) (hpri : pri < SMP_MAX_PRI) :
    emptyQueues taskHead (entry taskHead pri) = sentinelAt pri := by
  have hlt : pri.toNat < 128 := hpri
  have hentry := toNat_entry hhead hpri
  have hin : taskHead ≤ entry taskHead pri ∧ entry taskHead pri < taskHead + 512 := by
    constructor <;> bv_omega
  rw [emptyQueues, if_pos hin, sentinelAt, entry]
  bv_omega

lemma emptyQueues_sentinel (hhead : taskHead.toNat + 512 ≤ 0x22001000)
    (hpri : pri < SMP_MAX_PRI) (f : Field) :
    get (emptyQueues taskHead) (sentinelAt pri) f = sentinelAt pri := by
  have hlt : pri.toNat < 128 := hpri
  have hadd := toNat_sentinelAt_add hpri f
  have hf := toNat_offset_le f
  have hout : ¬ (taskHead ≤ sentinelAt pri + f.offset ∧
      sentinelAt pri + f.offset < taskHead + 512) := by
    rintro ⟨-, hlt⟩
    bv_omega
  have hindex : (sentinelAt pri + f.offset - 0x22001000) / 64 = pri := by
    apply BitVec.eq_of_toNat_eq
    have hsub : (sentinelAt pri + f.offset - 0x22001000).toNat
        = 64 * pri.toNat + f.offset.toNat := by
      bv_omega
    rw [BitVec.toNat_udiv, hsub, show BitVec.toNat (64 : Word) = 64 from rfl]
    omega
  rw [get, emptyQueues, if_neg hout, hindex, sentinelAt]

lemma withQueues_initial (taskHead : Word) (hhead : taskHead.toNat + 512 ≤ 0x22001000) :
    QueuesInitial taskHead sentinelAt (withQueues taskHead) := by
  have hadd : ∀ pri < SMP_MAX_PRI, ∀ f : Field, pri.toNat < 128 ∧ f.offset.toNat ≤ 28 ∧
      (sentinelAt pri + f.offset).toNat = 0x22001000 + 64 * pri.toNat + f.offset.toNat :=
    fun pri hpri f => ⟨hpri, toNat_offset_le f, toNat_sentinelAt_add hpri f⟩
  refine ⟨fun pri hpri => emptyQueues_entry hhead hpri,
    fun pri hpri => emptyQueues_sentinel hhead hpri .next,
    fun pri hpri => emptyQueues_sentinel hhead hpri .prev,
    fun pri hpri pri' hpri' he => ?_, ⟨?_, ?_⟩, fun lock => rfl, rfl⟩
  · obtain ⟨hlt, -, -⟩ := hadd pri hpri .state
    obtain ⟨hlt', -, -⟩ := hadd pri' hpri' .state
    rw [sentinelAt, sentinelAt] at he
    bv_omega
  · rintro x ⟨pri, hpri, rfl⟩ y ⟨pri', hpri', rfl⟩ hne f g he
    obtain ⟨hlt, hf, hx⟩ := hadd pri hpri f
    obtain ⟨hlt', hg, hy⟩ := hadd pri' hpri' g
    rw [he] at hx
    have hpris : pri.toNat ≠ pri'.toNat := fun h => hne (by rw [BitVec.eq_of_toNat_eq h])
    omega
  · rintro pri hpri x ⟨pri', hpri', rfl⟩ f he
    obtain ⟨hlt, hf, hx⟩ := hadd pri' hpri' f
    have hentry := toNat_entry hhead hpri
    have hlt' : pri.toNat < 128 := hpri
    rw [← he, hentry] at hx
    omega

/-- The words of these queues. -/
lemma toNat_of_mem_queueWords {a : Word} (hhead : taskHead.toNat + 512 ≤ 0x22001000)
    (ha : a ∈ queueWords taskHead (heads sentinelAt)) :
    taskHead.toNat ≤ a.toNat ∧ a.toNat < 0x22010000 := by
  rcases ha with ⟨pri, hpri, rfl⟩ | ⟨x, ⟨pri, hpri, rfl⟩, f, rfl⟩
  · have hlt : pri.toNat < 128 := hpri
    have hentry := toNat_entry hhead hpri
    omega
  · have hlt : pri.toNat < 128 := hpri
    have hadd := toNat_sentinelAt_add hpri f
    have hf := toNat_offset_le f
    omega

/-- The words of these queues and of a task at `0x22010000`. -/
lemma toNat_of_mem_insert {a : Word} (hhead : taskHead.toNat + 512 ≤ 0x22001000)
    (ha : a ∈ queueWords taskHead (insert 0x22010000 (heads sentinelAt))) :
    taskHead.toNat ≤ a.toNat ∧ a.toNat < 0x22020000 := by
  rcases ha with ha | ⟨x, rfl | hx, f, rfl⟩
  · have hbound := toNat_of_mem_queueWords hhead (.inl ha)
    omega
  · have hf := toNat_offset_le f
    have hadd : ((0x22010000 : Word) + f.offset).toNat = 0x22010000 + f.offset.toNat := by bv_omega
    omega
  · have hbound := toNat_of_mem_queueWords hhead (.inr ⟨x, hx, f, rfl⟩)
    omega

/-- A `kmalloc` that returns these two blocks. -/
def twoBlocks (nbytes : Word) : RamM Word := fun s =>
  some (if nbytes = SIZEOF_TCB then 0x22010000 else 0x22020000, s)

/-- The queues with the task at `0x22010000`, of priority 0. -/
def oneTask : Word → List Word := Function.update (fun _ => []) (sentinelAt 0) [0x22010000]

lemma nodes_oneTask : nodes sentinelAt oneTask = insert 0x22010000 (heads sentinelAt) := by
  rw [← nodes_nil]
  exact nodes_push (show (0 : Word) < SMP_MAX_PRI by decide)

lemma oneTask_queued : Rings.Queued (heads sentinelAt) oneTask 0x22010000 :=
  ⟨sentinelAt 0, head_mem_heads (by decide), by simp [oneTask]⟩

/-- The first call of `create_task`. -/
lemma withQueues_create (taskHead : Word) (hnull : taskHead ≠ NULL)
    (hhead : taskHead.toNat + 512 ≤ 0x22001000) :
    ∃ s', QueueStep taskHead sentinelAt (withQueues taskHead) (.createTask 4 0 .smpQueueLock)
        (s', oneTask) ∧
      get s'.mem 0x22010000 .ttba = 0 := by
  have hinv := (withQueues_initial taskHead hhead).inv
  have hpri : (0 : Word) < SMP_MAX_PRI := by decide
  have hargs : ¬ (taskHead = NULL ∨ (4 : Word) = NULL) := by
    rintro (h | h)
    · exact hnull h
    · exact absurd h (by decide)
  have h1 : Allocates taskHead (nodes sentinelAt (withQueues taskHead).2) SIZEOF_TCB
      (withQueues taskHead).1 0x22010000 (withQueues taskHead).1 := by
    refine ⟨by decide, fun i hi hmem => ?_, fun _ _ => rfl, rfl⟩
    have hbound := toNat_of_mem_queueWords hhead (nodes_nil sentinelAt ▸ hmem)
    rw [show SIZEOF_TCB.toNat = 32 from rfl] at hi
    bv_omega
  have h2 : Allocates taskHead (insert 0x22010000 (nodes sentinelAt (withQueues taskHead).2))
      SIZEOF_CONTEXT (withQueues taskHead).1 0x22020000 (withQueues taskHead).1 := by
    refine ⟨by decide, fun i hi hmem => ?_, fun _ _ => rfl, rfl⟩
    have hbound := toNat_of_mem_insert hhead (nodes_nil sentinelAt ▸ hmem)
    rw [show SIZEOF_CONTEXT.toNat = 64 from rfl] at hi
    bv_omega
  obtain ⟨s', hs'⟩ := hinv.callsReturn.createTask twoBlocks 4 0 _ _ .smpQueueLock _ _ hpri rfl h1
    rfl h2
  refine ⟨s', .createTask hargs rfl h1 rfl h2 hs', ?_⟩
  obtain ⟨_, _, _, _, hk1, hk2, -, rfl⟩ := (createTask_eq_some_iff hargs).mp hs'
  cases hk1
  cases hk2
  have hp := placeable_of_allocates hinv.holds.layout h1 h2
  exact congrArg TCB.ttba (hinv.holds.create_new 4 hp (fun _ _ => rfl) hpri)

/-- A `kfree` that writes nothing. -/
def quietFree : Word → RamM Unit := fun _ s => some ((), s)

lemma QueueStep.quiet {fuel : ℕ} (taskHead : Word) (htask : Rings.Queued (heads head) queue task)
    (hd : detachTask fuel task s = some ((), s₁)) :
    QueueStep taskHead head (s, queue) (.destroyTask task) (s₁, Rings.without queue task) := by
  have hfree : ∀ ap, quietFree ap s₁ = some ((), s₁) := fun _ => rfl
  have hkeeps : ∀ N, Keeps taskHead N s₁ s₁ := fun N => ⟨fun _ _ => rfl, rfl⟩
  exact .destroyTask htask hd (hfree _) (hkeeps _) (hfree _) (hkeeps _)
    (destroyTask_eq_some_iff.mpr ⟨s₁, s₁, hd, hfree _, hfree _⟩)

/-- `task_head` in the kernel heap: a task is created and destroyed, and the first megabyte of
memory that is cleared for it is not part of the queues. -/
theorem ready_queues_fifo_heap : ∃ q₁ q₂,
    QueueStep 0x22000000 sentinelAt (withQueues 0x22000000) (.createTask 4 0 .smpQueueLock) q₁ ∧
      QueueStep 0x22000000 sentinelAt q₁ (.destroyTask 0x22010000) q₂ ∧
      Fifo 0x22000000 sentinelAt q₁ ∧ Fifo 0x22000000 sentinelAt q₂ := by
  obtain ⟨s', hcreate, httba⟩ := withQueues_create 0x22000000 (by decide) (by decide)
  have hinit := withQueues_initial 0x22000000 (by decide)
  have hguard : ClearsNoQueue 0x22000000 sentinelAt (withQueues 0x22000000)
      (.createTask 4 0 .smpQueueLock) := fun _ h => QueueCall.noConfusion h
  have hrun₁ : Run (guarded (ClearsNoQueue 0x22000000 sentinelAt) _) _ _ _ :=
    Run.single ⟨hguard, hcreate⟩
  obtain ⟨hfifo₁, hreturn, -⟩ := ready_queues_fifo hinit hrun₁
  have hclear : ClearsNoQueue 0x22000000 sentinelAt (s', oneTask) (.destroyTask 0x22010000) := by
    rintro task heq offset hoffset hmem
    cases heq
    rw [httba] at hoffset hmem
    have hbound := toNat_of_mem_insert (by decide) (nodes_oneTask ▸ hmem)
    obtain ⟨j, hj, rfl⟩ := List.mem_map.mp hoffset
    rw [List.mem_range] at hj
    bv_omega
  obtain ⟨fuel, s₁, hd⟩ := hreturn.destroyTask _ oneTask_queued hclear
  have hstep := QueueStep.quiet 0x22000000 oneTask_queued hd
  have hrun₂ := hrun₁.snoc ⟨hclear, hstep⟩
  exact ⟨_, _, hcreate, hstep, hfifo₁, (ready_queues_fifo hinit hrun₂).1⟩

/-- Clearing the first megabyte does not reach the task at `0x22010000`, but the words of an
array at `0xE008`. -/
lemma cleared_low (hzero : get m 0x22010000 .ttba = 0) :
    (∀ offset ∈ spaceOffsets (get m 0x22010000 .ttba), ∀ f : Field,
      get m 0x22010000 .ttba + offset ≠ 0x22010000 + f.offset) ∧
      cleared m 0x22010000 (entry 0xE008 0) = 0 := by
  constructor
  · intro offset hoffset f he
    rw [hzero] at hoffset he
    obtain ⟨j, hj, rfl⟩ := List.mem_map.mp hoffset
    have hf := toNat_offset_le f
    rw [List.mem_range] at hj
    bv_omega
  · have hmem : (0xE008 : Word) ∈ spaceOffsets (get m 0x22010000 .ttba) := by
      rw [hzero]
      exact List.mem_map.mpr ⟨0x3802, List.mem_range.mpr (by decide), rfl⟩
    have hclear := Memory.writeAll_const_of_mem m (get m 0x22010000 .ttba + ·) (0 : Word) hmem
    have haddr : get m 0x22010000 .ttba + 0xE008 = entry 0xE008 0 := by
      rw [hzero]
      rfl
    rw [haddr] at hclear
    exact hclear

/-- `task_head` at the address of `smp_tcb_head`: destroying a task that was not started clears
it. -/
theorem ready_queues_lost : ¬ ∀ (taskHead : Word) (head : Word → Word) (q₀ q : QueueState)
    (cs : List QueueCall), QueuesInitial taskHead head q₀ →
      Run (QueueStep taskHead head) q₀ cs q → Fifo taskHead head q := by
  intro hall
  obtain ⟨s', hcreate, httba⟩ := withQueues_create 0xE008 (by decide) (by decide)
  have hinit := withQueues_initial 0xE008 (by decide)
  have hinv := hinit.inv.step (fun _ h => QueueCall.noConfusion h) hcreate
  obtain ⟨hkeep, hclear⟩ := cleared_low httba
  obtain ⟨fuel, hd⟩ := (detachTask_cleared fun offset h => hkeep offset h .ttba).2 (hinv.held _)
  have hstep := QueueStep.quiet 0xE008 oneTask_queued hd
  have hrun := (Run.single hcreate).snoc hstep
  have hsentinel := (hall _ _ _ _ _ hinit hrun).sentinel 0 (by decide)
  rw [detached_mem] at hsentinel
  -- the stores to the queue leave `task_head`, which is cleared
  have hsame : tcbAt (cleared s'.mem 0x22010000) 0x22010000 = tcbAt s'.mem 0x22010000 :=
    tcbAt_congr fun f => Memory.writeAll_of_notMem _ _ _ fun offset h => hkeep offset h f
  generalize cleared s'.mem 0x22010000 = m at hclear hsame hsentinel
  have hhead : sentinelAt 0 ∈ heads sentinelAt := head_mem_heads (by decide)
  have hmem : (0x22010000 : Word) ∈ sentinelAt 0 :: oneTask (sentinelAt 0) := by simp [oneTask]
  have hprev := Rings.prev_mem hinv.holds.queues hhead hmem
  have hnext := Rings.next_mem hinv.holds.queues hhead hmem
  have hshows : Shows (nodes sentinelAt oneTask) m (tcbAt m) := fun _ _ => rfl
  have hunlink := (hinv.holds.layout.array 0 (by decide)).unlink hshows hinv.holds.layout
    ⟨_, hhead, hmem⟩ (by rw [hsame]; exact ⟨_, hhead, hprev⟩)
    (by rw [hsame]; exact ⟨_, hhead, hnext⟩)
  rw [hunlink, hclear] at hsentinel
  exact absurd hsentinel (by decide)

end TaskRam

end Rpi2Baremetal
