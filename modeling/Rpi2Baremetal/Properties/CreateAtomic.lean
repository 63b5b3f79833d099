import Rpi2Baremetal.Properties.HeapPair
import Rpi2Baremetal.Properties.KernelHeap
import Rpi2Baremetal.Properties.ReadyQueues

/-!
# Failing calls of `create_task`

`create_task` looks neither at what its two calls of `kmalloc` return nor at `pri`.  So it is atomic
exactly when it has nothing to undo: its arguments are `NULL` and it returns at once, or the
priority is one of a queue and the heap has room for both blocks.  Otherwise it writes the TCB or
the context over the vector table, keeps the block of the first call, or reads `task_head` past its
end with the lock held.
-/

namespace Rpi2Baremetal

open Framework

namespace TaskRam

open Kernel

variable {array taskHead pri task context func : Word} {head : Word → Word}
  {queue : Word → List Word} {ws : List Word} {ssi : SysStructInfo} {s s' s₁ s₂ : State}
  {lock : LockWord}

/-! ## What the call should do -/

/-- The entry of `SYSStructTop` for the executing core and the mode. -/
def InForce (ssi : SysStructInfo) (s : State) : Prop :=
  ∃ i, getSysStructInfo s.kernel.prid s.kernel.common.pm = some i ∧
    s.kernel.sysStructTop i = ssi

/-- RAM holds the queues at `array` and the free list of the kernel heap, whose nodes are `ws` and
the one that `kmalloc` starts from.  The words of the queues are apart from the free list and from
the vector table. -/
structure QueuesAndHeap (array : Word) (head : Word → Word) (queue : Word → List Word)
    (ssi : SysStructInfo) (ws : List Word) (s : State) : Prop where
  inForce : InForce ssi s
  queues : Holds array head queue s.mem
  freeList : ssi.kernelHeapFreep ≠ NULL →
    FreeList s.mem ssi.kernelHeapArea.bottom (ws ++ [ssi.kernelHeapFreep])
  spares : ssi.kernelHeapFreep ≠ NULL →
    Spares (queueWords array (nodes head queue)) s.mem (ws ++ [ssi.kernelHeapFreep])
  bottom : ∀ a ∈ queueWords array (nodes head queue),
    a ≠ ssi.kernelHeapArea.bottom ∧ a ≠ ssi.kernelHeapArea.bottom + 4
  vectors : ∀ a ∈ queueWords array (nodes head queue), 64 ≤ a.toNat

/-- One of the two calls of `kmalloc` returns `NULL`. -/
def KmallocFails (s : State) : Prop :=
  (∃ fuel s₁, kmalloc fuel SIZEOF_TCB s = some (NULL, s₁)) ∨
    ∃ fuel task s₁ s₂, kmalloc fuel SIZEOF_TCB s = some (task, s₁) ∧
      kmalloc fuel SIZEOF_CONTEXT s₁ = some (NULL, s₂)

/-- The call should fail. -/
def Fails (taskHead func pri : Word) (s : State) : Prop :=
  taskHead = NULL ∨ func = NULL ∨ SMP_MAX_PRI ≤ pri ∨ KmallocFails s

/-- The ready queues, the memory outside of the heap and the live blocks are as before. -/
structure Unchanged (array : Word) (head : Word → Word) (queue : Word → List Word)
    (ssi : SysStructInfo) (s s' : State) : Prop where
  queues : SameQueues array (nodes head queue) s.mem s'.mem
  outside : ∀ a, ¬ ssi.kernelHeapArea.Contains a → s'.mem a = s.mem a
  live : s'.live = s.live

/-- The queue of `pri` has one more task, which is ready, and nothing else about the queues has
changed. -/
structure Added (array : Word) (head : Word → Word) (queue : Word → List Word)
    (pri task context : Word) (s s' : State) : Prop where
  fresh : task ∉ nodes head queue
  queues : Holds array head (Function.update queue (head pri) (queue (head pri) ++ [task])) s'.mem
  new : bare (tcbAt s'.mem task) = newTcb pri context
  old : ∀ x ∈ nodes head queue, bare (tcbAt s'.mem x) = bare (tcbAt s.mem x)
  live : s'.live = context :: task :: s.live

/-- The call returns with the lock free.  It has changed nothing if it should fail, and has added a
task otherwise. -/
def Atomic (array : Word) (head : Word → Word) (queue : Word → List Word) (ssi : SysStructInfo)
    (taskHead func pri : Word) (lock : LockWord) (s : State) : Prop :=
  ∃ fuel s', createTask (kmalloc fuel) taskHead func pri lock s = some ((), s') ∧
    s'.kernel.held lock = false ∧
    (Fails taskHead func pri s → Unchanged array head queue ssi s s') ∧
    (¬ Fails taskHead func pri s → ∃ task context, Added array head queue pri task context s s')

/-! ## The calls of `kmalloc` -/

/-- The state after `kmalloc` has left the RAM `m` and returned `r`. -/
def State.allocated (s : State) (m : Mem) (r : Option Word) : State :=
  ⟨{ s.kernel with mem := m }, r.toList ++ s.live⟩

lemma InForce.allocated (h : InForce ssi s) (m : Mem) (r : Option Word) :
    InForce ssi (s.allocated m r) := h

lemma kmalloc_eq (h : InForce ssi s) (fuel : ℕ) (nbytes : Word) : kmalloc fuel nbytes s =
    (malloc fuel s.mem ssi.kernelHeapArea.bottom ssi.kernelHeapFreep nbytes).map fun mr =>
      (mr.2.getD NULL, s.allocated mr.1 mr.2) := by
  obtain ⟨i, hi, rfl⟩ := h
  rw [kmalloc, Kernel.kmalloc, hi, Option.bind_eq_bind, Option.bind_some]
  rcases hm : malloc fuel s.mem (s.kernel.sysStructTop i).kernelHeapArea.bottom
    (s.kernel.sysStructTop i).kernelHeapFreep nbytes with _ | ⟨m, _ | ap⟩
  all_goals
    rw [State.mem] at hm
    simp only [hm]
    rfl

lemma kmalloc_eq_some_iff (h : InForce ssi s) {fuel : ℕ} {nbytes p : Word} :
    kmalloc fuel nbytes s = some (p, s') ↔ ∃ m r,
      malloc fuel s.mem ssi.kernelHeapArea.bottom ssi.kernelHeapFreep nbytes = some (m, r) ∧
        p = r.getD NULL ∧ s' = s.allocated m r := by
  rw [kmalloc_eq h, Option.map_eq_some_iff]
  constructor
  · rintro ⟨⟨m, r⟩, hm, he⟩
    obtain ⟨rfl, rfl⟩ := Prod.mk.inj he
    exact ⟨m, r, hm, rfl, rfl⟩
  · rintro ⟨m, r, hm, rfl, rfl⟩
    exact ⟨(m, r), hm, rfl⟩

/-! ## Two blocks -/

section Blocks

variable {N U : Set Word} {m m₁ m₂ : Mem} {n nbytes ap ap₁ ap₂ : Word} {fuel : ℕ}

/-- A block of the free list that is apart from the queues is fresh memory. -/
lemma allocates_of_gives (h : Gives U s.mem n m ap) (hU : queueWords array N ⊆ U)
    (hn : nbytes.toNat ≤ 8 * (n.toNat - 1)) :
    Allocates array N nbytes s ap (s.allocated m (some ap)) where
  ne_null := h.ne_null
  fresh i hi hmem := h.fresh _ ⟨i, by omega, rfl⟩ (hU hmem)
  keeps := ⟨fun a ha => h.same a (hU ha), rfl⟩

/-- The words of a new TCB are those of its block. -/
lemma queueWords_insert (array task : Word) (N : Set Word) : queueWords array (insert task N) ⊆
    queueWords array N ∪ blockWords task (mallocUnits SIZEOF_TCB) := by
  rintro a (ha | ⟨x, rfl | hx, f, rfl⟩)
  · exact .inl (.inl ha)
  · obtain ⟨i, hi, hf⟩ := exists_offset f
    exact .inr ⟨i, hi, by rw [hf]⟩
  · exact .inl (.inr ⟨x, hx, f, rfl⟩)

/-- Without a first node the free list gives nothing. -/
lemma malloc_ne_null (hm : malloc fuel m (ssi.kernelHeapArea.bottom) ssi.kernelHeapFreep nbytes =
    some (m₁, some ap)) : ssi.kernelHeapFreep ≠ NULL := by
  intro hnull
  rw [hnull] at hm
  cases Arena.malloc_unique hm (malloc_null 0 m _ nbytes)

/-- The two calls of `kmalloc` return fresh memory for the TCB and for the context. -/
lemma QueuesAndHeap.allocates (h : QueuesAndHeap array head queue ssi ws s)
    (hm₁ : malloc fuel s.mem ssi.kernelHeapArea.bottom ssi.kernelHeapFreep SIZEOF_TCB =
      some (m₁, some ap₁))
    (hm₂ : malloc fuel m₁ ssi.kernelHeapArea.bottom ssi.kernelHeapFreep SIZEOF_CONTEXT =
      some (m₂, some ap₂)) :
    Allocates array (nodes head queue) SIZEOF_TCB s ap₁ (s.allocated m₁ (some ap₁)) ∧
      Allocates array (insert ap₁ (nodes head queue)) SIZEOF_CONTEXT
        (s.allocated m₁ (some ap₁)) ap₂ ((s.allocated m₁ (some ap₁)).allocated m₂ (some ap₂)) := by
  have hfreep := malloc_ne_null hm₁
  obtain ⟨h₁, h₂⟩ := (h.freeList hfreep).gives_twice hfreep (by decide) (by decide)
    (h.spares hfreep) hm₁ hm₂
  exact ⟨allocates_of_gives h₁ subset_rfl (by decide),
    allocates_of_gives h₂ (queueWords_insert array ap₁ _) (by decide)⟩

/-- With both blocks `create_task` adds a task. -/
lemma QueuesAndHeap.added (h : QueuesAndHeap array head queue ssi ws s)
    (hm₁ : malloc fuel s.mem ssi.kernelHeapArea.bottom ssi.kernelHeapFreep SIZEOF_TCB =
      some (m₁, some ap₁))
    (hm₂ : malloc fuel m₁ ssi.kernelHeapArea.bottom ssi.kernelHeapFreep SIZEOF_CONTEXT =
      some (m₂, some ap₂)) (hheld : s.kernel.held lock = false)
    (hargs : ¬ (array = NULL ∨ func = NULL)) (hpri : pri < SMP_MAX_PRI) :
    ∃ s', createTask (kmalloc fuel) array func pri lock s = some ((), s') ∧
      s'.kernel.held lock = false ∧ Added array head queue pri ap₁ ap₂ s s' := by
  obtain ⟨h₁, h₂⟩ := h.allocates hm₁ hm₂
  have hp := placeable_of_allocates h.queues.layout h₁ h₂
  have hsame : SameQueues array (nodes head queue) s.mem m₂ := fun a ha =>
    ((h₂.keeps.queues.mono (Set.subset_insert _ _)) a ha).trans (h₁.keeps.queues a ha)
  have hk₁ := (kmalloc_eq_some_iff h.inForce).mpr ⟨m₁, some ap₁, hm₁, rfl, rfl⟩
  have hk₂ := (kmalloc_eq_some_iff (h.inForce.allocated m₁ (some ap₁))).mpr
    ⟨m₂, some ap₂, hm₂, rfl, rfl⟩
  refine ⟨_, (createTask_eq_some_iff hargs).mpr ⟨_, _, _, _, hk₁, hk₂, ⟨hpri, hheld⟩, rfl⟩, hheld,
    hp.fresh, ?_, ?_, fun x hx => ?_, rfl⟩
  · exact h.queues.create func hp hsame hpri
  · exact h.queues.create_new func hp hsame hpri
  · exact h.queues.create_old func hp hsame hpri hx

/-- When both calls return a block, neither returns `NULL`. -/
lemma QueuesAndHeap.not_kmallocFails (h : QueuesAndHeap array head queue ssi ws s)
    (hm₁ : malloc fuel s.mem ssi.kernelHeapArea.bottom ssi.kernelHeapFreep SIZEOF_TCB =
      some (m₁, some ap₁))
    (hm₂ : malloc fuel m₁ ssi.kernelHeapArea.bottom ssi.kernelHeapFreep SIZEOF_CONTEXT =
      some (m₂, some ap₂)) : ¬ KmallocFails s := by
  obtain ⟨h₁, h₂⟩ := h.allocates hm₁ hm₂
  rintro (⟨fuel', s₁, hk⟩ | ⟨fuel', task, s₁, s₂, hk, hk'⟩)
  · obtain ⟨m, r, hm, hnull, -⟩ := (kmalloc_eq_some_iff h.inForce).mp hk
    cases Arena.malloc_unique hm hm₁
    exact h₁.ne_null hnull.symm
  · obtain ⟨m, r, hm, -, rfl⟩ := (kmalloc_eq_some_iff h.inForce).mp hk
    cases Arena.malloc_unique hm hm₁
    obtain ⟨m, r, hm, hnull, -⟩ := (kmalloc_eq_some_iff (h.inForce.allocated _ _)).mp hk'
    cases Arena.malloc_unique hm hm₂
    exact h₂.ne_null hnull.symm

end Blocks

/-! ## No block -/

/-- A new task changes its queue. -/
lemma Holds.not_sameQueues {m m' : Mem} (h : Holds array head queue m) (func : Word)
    (hp : Placeable array head queue task context)
    (hsame : SameQueues array (nodes head queue) m m') (hpri : pri < SMP_MAX_PRI) :
    ¬ SameQueues array (nodes head queue) m
      (enqueue array pri task (TaskRam.initTask task context func pri m')) := by
  intro hcon
  have hhead : head pri ∈ heads head := head_mem_heads hpri
  have hnew := ((h.create func hp hsame hpri).queues.linked _ hhead).prev_first
  have hold := Rings.prev_mem h.queues hhead List.mem_cons_self
  rw [hcon.tcbAt (head_mem_nodes head queue hpri), Function.update_self] at hnew
  rw [hnew] at hold
  exact hp.fresh ⟨head pri, hhead, by simpa using hold⟩

/-- The TCB and the context that are written over the vector table are apart from the queues. -/
lemma QueuesAndHeap.placeable_null (h : QueuesAndHeap array head queue ssi ws s) :
    Placeable array head queue NULL NULL := by
  have hlow : ∀ a ∈ queueWords array (nodes head queue), ∀ b : Word, b.toNat < 64 → b ≠ a := by
    rintro a ha b hb rfl
    exact absurd (h.vectors b ha) (by omega)
  have hfield : ∀ f : Field, (NULL + f.offset).toNat < 64 ∧
      NULL + 48 ≠ NULL + f.offset ∧ NULL + 56 ≠ NULL + f.offset := by
    intro f
    cases f <;> decide
  have hentry : ∀ pri < SMP_MAX_PRI, entry array pri ∈ queueWords array (nodes head queue) :=
    fun pri hpri => .inl ⟨pri, hpri, rfl⟩
  have hword : ∀ x ∈ nodes head queue, ∀ f : Field,
      x + f.offset ∈ queueWords array (nodes head queue) := fun x hx f => .inr ⟨x, hx, f, rfl⟩
  refine ⟨fun hmem => ?_, h.queues.layout.insert (fun x hx f g => ?_) (fun pri hpri f => ?_),
    ⟨?_, ?_⟩, fun pri hpri => ⟨?_, ?_⟩⟩
  · exact hlow _ (hword NULL hmem .state) _ (hfield .state).1 rfl
  · exact hlow _ (hword x hx g) _ (hfield f).1
  · exact (hlow _ (hentry pri hpri) _ (hfield f).1).symm
  · rintro x (rfl | hx) f
    · exact (hfield f).2.1
    · exact hlow _ (hword x hx f) _ (by decide)
  · rintro x (rfl | hx) f
    · exact (hfield f).2.2
    · exact hlow _ (hword x hx f) _ (by decide)
  · exact (hlow _ (hentry pri hpri) _ (by decide)).symm
  · exact (hlow _ (hentry pri hpri) _ (by decide)).symm

/-- A call of `kmalloc` that returns `NULL` leaves the queues and the heap. -/
lemma QueuesAndHeap.null (h : QueuesAndHeap array head queue ssi ws s) {m : Mem} {fuel : ℕ}
    {nbytes : Word} (hm : malloc fuel s.mem ssi.kernelHeapArea.bottom ssi.kernelHeapFreep nbytes =
      some (m, none)) :
    SameQueues array (nodes head queue) s.mem m ∧
      QueuesAndHeap array head queue ssi ws (s.allocated m none) := by
  by_cases hfreep : ssi.kernelHeapFreep = NULL
  · have hempty : m = emptyFreeList s.mem ssi.kernelHeapArea.bottom := by
      rw [hfreep] at hm
      cases Arena.malloc_unique hm (malloc_null 0 s.mem _ nbytes)
      rfl
    have hsame : SameQueues array (nodes head queue) s.mem m := by
      intro a ha
      obtain ⟨h0, h4⟩ := h.bottom a ha
      rw [hempty, emptyFreeList, setSize, Memory.write_of_ne _ _ h4, setPtr,
        Memory.write_of_ne _ _ h0]
    exact ⟨hsame, h.inForce, h.queues.congr hsame, fun hne => absurd hfreep hne,
      fun hne => absurd hfreep hne, h.bottom, h.vectors⟩
  · obtain rfl := (h.freeList hfreep).eq_of_malloc_null hfreep hm
    exact ⟨fun _ _ => rfl, h.inForce, h.queues, h.freeList, h.spares, h.bottom, h.vectors⟩

/-! ## When the call is atomic -/

/-- A call that is atomic and gets past its first test has room for both blocks. -/
lemma QueuesAndHeap.room_of_atomic (h : QueuesAndHeap array head queue ssi ws s)
    (hargs : ¬ (array = NULL ∨ func = NULL))
    (hatomic : Atomic array head queue ssi array func pri lock s) :
    pri < SMP_MAX_PRI ∧ ssi.kernelHeapFreep ≠ NULL ∧ HasRoom s.mem (ws ++ [ssi.kernelHeapFreep])
      (mallocUnits SIZEOF_TCB) (mallocUnits SIZEOF_CONTEXT) := by
  obtain ⟨fuel, s', hs, -, hunchanged, -⟩ := hatomic
  obtain ⟨task, s₁, context, s₂, hk₁, hk₂, ⟨hpri, -⟩, rfl⟩ := (createTask_eq_some_iff hargs).mp hs
  refine ⟨hpri, ?_⟩
  obtain ⟨m₁, r₁, hm₁, rfl, rfl⟩ := (kmalloc_eq_some_iff h.inForce).mp hk₁
  obtain ⟨m₂, r₂, hm₂, rfl, rfl⟩ := (kmalloc_eq_some_iff (h.inForce.allocated m₁ r₁)).mp hk₂
  cases r₁ with
  | none =>
      have hfails : Fails array func pri s := .inr (.inr (.inr (.inl ⟨fuel, _, hk₁⟩)))
      obtain ⟨hsame₁, h₁⟩ := h.null hm₁
      cases r₂ with
      | none =>
          -- the task at `NULL` is in the queue
          obtain ⟨hsame₂, -⟩ := h₁.null hm₂
          have hsame : SameQueues array (nodes head queue) s.mem m₂ := fun a ha =>
            (hsame₂ a ha).trans (hsame₁ a ha)
          exact absurd (hunchanged hfails).queues
            (h.queues.not_sameQueues func h.placeable_null hsame hpri)
      | some ap =>
          have hlive := congrArg List.length (hunchanged hfails).live
          simp [State.withMem, State.allocated] at hlive
  | some ap₁ =>
      cases r₂ with
      | none =>
          -- the block of the first call stays live
          have hfails : Fails array func pri s :=
            .inr (.inr (.inr (.inr ⟨fuel, _, _, _, hk₁, hk₂⟩)))
          have hlive := congrArg List.length (hunchanged hfails).live
          simp [State.withMem, State.allocated] at hlive
      | some ap₂ =>
          have hfreep := malloc_ne_null hm₁
          exact ⟨hfreep, (malloc_twice_iff (h.freeList hfreep) hfreep (by decide)).mp
            ⟨fuel, m₁, ap₁, m₂, ap₂, hm₁, hm₂⟩⟩

/-- A call with `NULL` for one of its arguments does nothing. -/
lemma atomic_of_null (hheld : s.kernel.held lock = false) (hnull : taskHead = NULL ∨ func = NULL) :
    Atomic array head queue ssi taskHead func pri lock s := by
  have hfails : Fails taskHead func pri s := hnull.imp_right Or.inl
  exact ⟨0, s, createTask_null hnull, hheld,
    fun _ => ⟨fun _ _ => rfl, fun _ _ => rfl, rfl⟩, fun hnot => absurd hfails hnot⟩

/-- A call with room for both blocks adds a task. -/
lemma QueuesAndHeap.atomic_of_room (h : QueuesAndHeap array head queue ssi ws s)
    (hheld : s.kernel.held lock = false) (hargs : ¬ (array = NULL ∨ func = NULL))
    (hpri : pri < SMP_MAX_PRI) (hfreep : ssi.kernelHeapFreep ≠ NULL)
    (hroom : HasRoom s.mem (ws ++ [ssi.kernelHeapFreep]) (mallocUnits SIZEOF_TCB)
      (mallocUnits SIZEOF_CONTEXT)) :
    Atomic array head queue ssi array func pri lock s := by
  obtain ⟨fuel, m₁, ap₁, m₂, ap₂, hm₁, hm₂⟩ :=
    (malloc_twice_iff (h.freeList hfreep) hfreep (by decide)).mpr hroom
  obtain ⟨s', hs, hheld', hadded⟩ := h.added hm₁ hm₂ hheld hargs hpri
  refine ⟨fuel, s', hs, hheld', fun hfails => ?_, fun _ => ⟨ap₁, ap₂, hadded⟩⟩
  rcases hfails with hnull | hnull | hlarge | hfails
  · exact absurd (.inl hnull) hargs
  · exact absurd (.inr hnull) hargs
  · exact absurd hpri (BitVec.not_lt.mpr hlarge)
  · exact absurd hfails (h.not_kmallocFails hm₁ hm₂)

/-- **`create_task` is atomic** if and only if it returns at once, its `task_head` or `func` being
`NULL`, or `pri` is one of the priorities and the free list has room for the TCB and the context. -/
theorem create_task_atomic_iff (h : QueuesAndHeap array head queue ssi ws s)
    (hheld : s.kernel.held lock = false) (hhead : taskHead = NULL ∨ taskHead = array)
    (func pri : Word) :
    Atomic array head queue ssi taskHead func pri lock s ↔
      taskHead = NULL ∨ func = NULL ∨ pri < SMP_MAX_PRI ∧ ssi.kernelHeapFreep ≠ NULL ∧
        HasRoom s.mem (ws ++ [ssi.kernelHeapFreep]) (mallocUnits SIZEOF_TCB)
          (mallocUnits SIZEOF_CONTEXT) := by
  rw [← or_assoc]
  by_cases hargs : taskHead = NULL ∨ func = NULL
  · exact ⟨fun _ => .inl hargs, fun _ => atomic_of_null hheld hargs⟩
  · obtain rfl := hhead.resolve_left fun hnull => hargs (.inl hnull)
    constructor
    · exact fun hatomic => .inr (h.room_of_atomic hargs hatomic)
    · rintro (hnull | ⟨hpri, hfreep, hroom⟩)
      · exact absurd hnull hargs
      · exact h.atomic_of_room hheld hargs hpri hfreep hroom

/-! ## A heap of one block -/

/-- Empty queues at `0x22000100`, and before them the free list of the kernel heap: its sentinel
and one block. -/
def oneBlockMem (units : Word) : Mem :=
  setSize (setPtr (setSize (setPtr (emptyQueues 0x22000100) 0x22000000 0x22000008) 0x22000000 0)
    0x22000008 0x22000000) 0x22000008 units

/-- The state at boot with these queues and this heap. -/
def withOneBlock (units : Word) : State :=
  ⟨{ atBoot with
      sysStructTop := fun i => { initSysinfos TTBA_BASE i with kernelHeapFreep := 0x22000000 }
      mem := oneBlockMem units }, []⟩

/-- Its entry of `SYSStructTop`. -/
def oneBlockSsi : SysStructInfo :=
  { initSysinfos TTBA_BASE 4 with kernelHeapFreep := 0x22000000 }

lemma oneBlockMem_same (units : Word) :
    SameQueues 0x22000100 (heads sentinelAt) (emptyQueues 0x22000100) (oneBlockMem units) := by
  intro a ha
  have hbound := (toNat_of_mem_queueWords (by decide) ha).1
  have hne : ∀ b : Word, b.toNat < 0x22000100 → a ≠ b := by
    rintro b hb rfl
    exact absurd hbound (Nat.not_le.mpr hb)
  simp only [oneBlockMem, setPtr, setSize]
  rw [Memory.write_of_ne _ _ (hne _ (by decide)), Memory.write_of_ne _ _ (hne _ (by decide)),
    Memory.write_of_ne _ _ (hne _ (by decide)), Memory.write_of_ne _ _ (hne _ (by decide))]

/-- The sentinel is a header, and the block lies behind it. -/
lemma extent_oneBlockMem (units : Word) :
    extent (oneBlockMem units) 0x22000000 = ⟨0x22000000, 1⟩ ∧
      extent (oneBlockMem units) 0x22000008 = ⟨0x22000008, max 1 units.toNat⟩ := by
  have hsize : size (oneBlockMem units) 0x22000008 = units := size_setSize_same ..
  have hbase : size (oneBlockMem units) 0x22000000 = 0 := rfl
  rw [extent, extent, hsize, hbase]
  exact ⟨rfl, rfl⟩

lemma oneBlockMem_freeList {units : Word} (hunits : units.toNat ≤ 31) :
    FreeList (oneBlockMem units) 0x22000000 ([0x22000008] ++ [0x22000000]) := by
  obtain ⟨hbase, hblock⟩ := extent_oneBlockMem units
  refine ⟨⟨rfl, rfl⟩, by simp, rfl, ?_, ?_⟩
  · simp only [List.cons_append, List.nil_append, List.map_cons, List.map_nil,
      List.pairwise_pair, hbase, hblock]
    exact .inr le_rfl
  · simp only [List.cons_append, List.nil_append, List.forall_mem_cons, List.not_mem_nil,
      false_imp_iff, implies_true, and_true, hbase, hblock, Block.stop]
    omega

/-- The words of the queues come behind the block. -/
lemma withOneBlock_queuesAndHeap {units : Word} (hunits : units.toNat ≤ 31) :
    QueuesAndHeap 0x22000100 sentinelAt (fun _ => []) oneBlockSsi [0x22000008]
      (withOneBlock units) := by
  have hinv := (withQueues_initial 0x22000100 (by decide)).inv
  have hbound : ∀ a ∈ queueWords 0x22000100 (nodes sentinelAt fun _ => []),
      0x22000100 ≤ a.toNat := by
    intro a ha
    rw [nodes_nil] at ha
    exact (toNat_of_mem_queueWords (by decide) ha).1
  have hne : ∀ a ∈ queueWords 0x22000100 (nodes sentinelAt fun _ => []), ∀ b : Word,
      b.toNat < 0x22000100 → a ≠ b := by
    rintro a ha b hb rfl
    exact absurd (hbound a ha) (Nat.not_le.mpr hb)
  have hssi : getSysStructInfo PCore ALL_SMP_MODE = some 4 := by decide
  have hsame := oneBlockMem_same units
  rw [← nodes_nil] at hsame
  refine ⟨⟨4, hssi, rfl⟩, hinv.holds.congr hsame, fun _ => oneBlockMem_freeList hunits,
    fun _ a ha q hq hin => ?_, fun a ha => ⟨hne a ha _ (by decide), hne a ha _ (by decide)⟩,
    fun a ha => le_trans (by norm_num) (hbound a ha)⟩
  have hword := hbound a ha
  obtain ⟨hbase, hblock⟩ := extent_oneBlockMem units
  have hstop := hin.2
  rcases List.mem_pair.mp hq with rfl | rfl
  · change a.toNat < (extent (oneBlockMem units) 0x22000008).stop 8 at hstop
    simp only [hblock, Block.stop] at hstop
    omega
  · change a.toNat < (extent (oneBlockMem units) 0x22000000).stop 8 at hstop
    simp only [hbase, Block.stop] at hstop
    omega

/-- A block of 14 units has room for the TCB and the context of a new task. -/
theorem create_task_atomic_iff_room :
    Atomic 0x22000100 sentinelAt (fun _ => []) oneBlockSsi 0x22000100 4 0 .smpQueueLock
      (withOneBlock 14) := by
  refine (create_task_atomic_iff (withOneBlock_queuesAndHeap (by decide)) rfl (.inr rfl) 4 0).mpr
    (.inr (.inr ⟨by decide, by decide, [], 0x22000008, [0x22000000], rfl, ?_, ?_, .inl ?_⟩))
  · exact fun q hq => absurd hq List.not_mem_nil
  · exact show mallocUnits SIZEOF_TCB ≤ 14 by decide
  · exact show (mallocUnits SIZEOF_TCB).toNat + (mallocUnits SIZEOF_CONTEXT).toNat ≤ 14 by decide

/-- With a unit less the second call of `kmalloc` returns `NULL`, and the block of the first stays
live. -/
theorem create_task_leaks : ¬ ∀ (array taskHead func pri : Word) (head : Word → Word)
    (queue : Word → List Word) (ssi : SysStructInfo) (ws : List Word) (lock : LockWord)
    (s : State), QueuesAndHeap array head queue ssi ws s → s.kernel.held lock = false →
      (taskHead = NULL ∨ taskHead = array) →
      Atomic array head queue ssi taskHead func pri lock s := by
  intro hall
  have h := withOneBlock_queuesAndHeap (show (13 : Word).toNat ≤ 31 by decide)
  have hatomic := hall 0x22000100 0x22000100 4 0 _ _ _ _ .smpQueueLock _ h rfl (.inr rfl)
  obtain ⟨-, -, pre, p, post, hsplit, hpre, -, hroom⟩ := h.room_of_atomic (by decide) hatomic
  have hblock : size (withOneBlock 13).mem 0x22000008 = 13 := size_setSize_same ..
  have hbase : size (withOneBlock 13).mem 0x22000000 = 0 := rfl
  cases pre with
  | nil =>
      obtain ⟨rfl, rfl⟩ := List.cons.inj hsplit
      rcases hroom with hroom | ⟨q, hq, hlarge⟩
      · rw [hblock] at hroom
        exact absurd hroom (by decide)
      · obtain rfl : q = 0x22000000 := List.mem_singleton.mp hq
        rw [hbase] at hlarge
        exact absurd hlarge (by decide)
  | cons x xs =>
      obtain ⟨rfl, -⟩ := List.cons.inj hsplit
      have hsmall := hpre 0x22000008 List.mem_cons_self
      rw [hblock] at hsmall
      exact absurd hsmall (by decide)

end TaskRam

end Rpi2Baremetal
