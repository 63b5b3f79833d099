import Rpi2Baremetal.Framework.Transition
import Rpi2Baremetal.Model.TaskRam
import Rpi2Baremetal.Properties.CoreTasks
import Rpi2Baremetal.Properties.FreeFromNull
import Rpi2Baremetal.Properties.Reset
import Rpi2Baremetal.Properties.TaskPlacement
import Rpi2Baremetal.Properties.TaskQueues
import Rpi2Baremetal.Properties.TaskSpaces

/-!
# What a task owns

`destroy_task` gives back what the TCB names: the section at `ttba`, the slot `mapid` and the
ASID `asid`.  In a task that was created and not started these are 0, and so they are in a task
that was started when no slot was free; but 0 names something as well, the first megabyte of
memory with the kernel in it, slot 0 and ASID 0.  A task that has a slot owns its section and its
slot; its ASID may have been given to another task since it ended.

Last of all it calls `kfree` for the context and for the TCB.  With `kernel_heap_freep` at `NULL`
that writes the address of a block over the reset vector, whatever task it is.

The map, `asid_head`, the lock words and the TCBs are not part of RAM here.  In a task without a
section the megabyte that is cleared has the kernel's data in it, and so these as well; what is
said of them is about a cleared section that holds none of them.
-/

namespace Rpi2Baremetal

namespace Kernel

open Framework

/-- The kernel, and the tasks of each queue in the order of their creation. -/
abbrev LifeState := Kernel × (Word → List Word)

variable {k k' : Kernel} {heads sizes : Set Word} {queue : Word → List Word} {task t a : Word}
  {s s' : LifeState} {cpuid : Word}

/-- The task has a section of its own. -/
def HasSpace (k : Kernel) (task : Word) : Prop := (k.tcb task).ttba ≠ 0

/-- The address lies in user RAM of the current mode. -/
def UserRam (k : Kernel) (a : Word) : Prop :=
  ∃ cpuid < 4, ∃ i, getSysStructInfo cpuid k.common.pm = some i ∧
    (k.sysStructTop i).userRamArea.Contains a

/-- The address lies in a kernel heap of the current mode. -/
def HeapRam (k : Kernel) (a : Word) : Prop :=
  ∃ cpuid < 4, ∃ i, getSysStructInfo cpuid k.common.pm = some i ∧
    (k.sysStructTop i).kernelHeapArea.Contains a

/-- A block of a kernel heap: the two words of its header lie there. -/
def HeapBlock (k : Kernel) (ap : Word) : Prop :=
  HeapRam k (ap - HEAP_UNIT_SIZE) ∧ HeapRam k (ap - HEAP_UNIT_SIZE + 4)

/-- What `destroy_task` should do: it clears words of the task's own section and frees its own
slot and its own ASID, it takes the task out of its queue, and nothing of another task
changes.  In the kernel heap the headers of blocks may change. -/
structure TouchesOwn (heads : Set Word) (queue : Word → List Word) (task : Word)
    (k k' : Kernel) : Prop where
  mem : ∀ a, k'.mem a ≠ k.mem a → HeapRam k a ∨ k'.mem a = 0 ∧ HasSpace k task ∧ UserRam k a ∧
    Mmu.InSpace (k.tcb task).ttba a
  slot : ∀ i, k'.smpTskAlcMap i ≠ k.smpTskAlcMap i → (k.smpTskAlcMap i).task = task
  asid : ∀ asid, k'.common.asidHead asid ≠ k.common.asidHead asid →
    asid ≠ 0 ∧ asid = (k.tcb task).asid
  queues : TaskQueues k'.tcb heads (Rings.without queue task)
  bare : ∀ t, bare (k'.tcb t) = bare (k.tcb t)
  links : ∀ t, t ≠ (k.tcb task).prev → t ≠ (k.tcb task).next → k'.tcb t = k.tcb t
  context : k'.context = k.context
  others : ∀ t, Rings.Queued heads queue t → t ≠ task →
    (HasSpace k t → ∀ a, Mmu.InSpace (k.tcb t).ttba a → k'.mem a = k.mem a) ∧
    (∀ i, (k.smpTskAlcMap i).task = t → k'.smpTskAlcMap i = k.smpTskAlcMap i) ∧
    ((k.tcb t).asid ≠ 0 →
      k'.common.asidHead (k.tcb t).asid = k.common.asidHead (k.tcb t).asid)
  kernel : ∀ a, ¬ UserRam k a → ¬ HeapRam k a → k'.mem a = k.mem a

/-- The task has a section, and it has a nonzero ASID that no other task holds, or one that is
not in use anyway. -/
def OwnsNamed (heads : Set Word) (s : LifeState) (task : Word) : Prop :=
  HasSpace s.1 task ∧ (s.1.common.asidHead (s.1.tcb task).asid = UNUSED_ASID ∨
    (s.1.tcb task).asid ≠ 0 ∧
      ∀ t, Rings.Queued heads s.2 t → t ≠ task → (s.1.tcb t).asid ≠ (s.1.tcb task).asid)

/-- A call of `destroy_task` returns and does what it should. -/
def DestroyMeets (kfree : Word → Kernel → Option Kernel) (heads : Set Word) (s : LifeState)
    (cpuid task : Word) : Prop :=
  ∃ k', destroyTaskFreeing kfree task (s.1.onCore cpuid) = some k' ∧
    TouchesOwn heads s.2 task (s.1.onCore cpuid) k'

/-! ## Life -/

/-- `create_task` gets the head of a queue and two blocks of the kernel heap, the first of which
belongs to no task and the second of which has the header that `malloc` writes, and the other
calls get a task that exists. -/
def LifeLegal (heads : Set Word) (s : LifeState) : TaskCall → Prop
  | .createTask taskHead _ pri _ task context => ∀ th, taskHead = some th →
      th pri ∈ heads ∧ ¬ Rings.Node heads s.2 task ∧
        HeapBlock s.1 task ∧ HeapBlock s.1 context ∧ context ≠ task ∧
        size s.1.mem (context - HEAP_UNIT_SIZE) = mallocUnits TaskRam.SIZEOF_CONTEXT
  | .endTask task => Rings.Queued heads s.2 task
  | .setUserAsid task _ _ => Rings.Queued heads s.2 task
  | _ => False

def lifeNext (s : LifeState) : TaskCall → Word → List Word
  | .createTask (some th) func pri _ task _ =>
      if func = NULL then s.2 else Function.update s.2 (th pri) (s.2 (th pri) ++ [task])
  | _ => s.2

/-- `start_task` as it is supposed to be: it claims one free slot, or leaves the slot and the
section of the task as they are when none is free. -/
structure StartsOne (k : Kernel) (task : Word) (ssi : SysStructInfo) (k' : Kernel) : Prop where
  slot : (∃ slot, FreeSlot k ssi slot ∧ ClaimsSlot k task ssi slot k') ∨
    (∀ slot, ¬ FreeSlot k ssi slot) ∧ k'.smpTskAlcMap = k.smpTskAlcMap ∧ k'.mem = k.mem ∧
      (k'.tcb task).mapid = (k.tcb task).mapid ∧ (k'.tcb task).ttba = (k.tcb task).ttba
  held : k'.held = k.held
  common : k'.common = k.common
  sysStructTop : k'.sysStructTop = k.sysStructTop
  prev : (k'.tcb task).prev = (k.tcb task).prev
  next : (k'.tcb task).next = (k.tcb task).next
  context : (k'.tcb task).context = (k.tcb task).context
  other : ∀ t, t ≠ task → k'.tcb t = k.tcb t

/-- A call that returns, with this `kfree` for `destroy_task`. -/
inductive LifeStep (kfree : Word → Kernel → Option Kernel) (heads : Set Word) :
    LifeState → Word × TaskCall → LifeState → Prop
  | call {s : LifeState} {cpuid : Word} {call : TaskCall} {k' : Kernel} :
      cpuid < 4 → LifeLegal heads s call → call.run (s.1.onCore cpuid) = .ok () k' →
      LifeStep kfree heads s (cpuid, call) (k', lifeNext s call)
  | start {s : LifeState} {cpuid task : Word} {lock : LockWord} {j : Fin NUM_SYS_STRUCT}
      {k' : Kernel} :
      cpuid < 4 → Rings.Queued heads s.2 task →
      getSysStructInfo cpuid s.1.common.pm = some j →
      StartsOne (s.1.onCore cpuid) task (s.1.sysStructTop j) k' →
      LifeStep kfree heads s (cpuid, .startTask task lock) (k', s.2)
  | destroy {s : LifeState} {cpuid task : Word} {k' : Kernel} :
      cpuid < 4 → Rings.Queued heads s.2 task →
      destroyTaskFreeing kfree task (s.1.onCore cpuid) = some k' →
      LifeStep kfree heads s (cpuid, .destroyTask task) (k', Rings.without s.2 task)

/-- No task has been created, and the vectors are where `_reset_` has put them. -/
structure LifeInitial (heads : Set Word) (s : LifeState) : Prop where
  sysinfos : ∃ baseTtba, s.1.sysStructTop = initSysinfos baseTtba
  pm : isValidPm s.1.common.pm = true
  held : s.1.held .smpQueueLock = false
  vectors : Reset.VectorsAt s.1.mem 0
  self : ∀ head ∈ heads, (s.1.tcb head).next = head ∧ (s.1.tcb head).prev = head
  queue : s.2 = fun _ => []

/-- A call of `destroy_task` gets a task that owns what it names. -/
def DestroysOwn (heads : Set Word) (s : LifeState) (c : Word × TaskCall) : Prop :=
  ∀ task, c.2 = .destroyTask task → OwnsNamed heads s task

/-- A call of `destroy_task` does what it should. -/
def DestroysMeet (kfree : Word → Kernel → Option Kernel) (heads : Set Word) (s : LifeState)
    (c : Word × TaskCall) : Prop :=
  ∀ task, c.2 = .destroyTask task → DestroyMeets kfree heads s c.1 task

/-! ## Slots and sections -/

/-- The task has a slot of an entry that the mode uses, and the section of that slot. -/
def Placed (k : Kernel) (task : Word) : Prop :=
  ∃ cpuid < 4, ∃ j slot, getSysStructInfo cpuid k.common.pm = some j ∧
    slot < (k.sysStructTop j).maxNumTaskSpace.toNat ∧
    (k.tcb task).mapid = .ofNat 32 slot ∧ (k.tcb task).ttba = slotBase (k.sysStructTop j) slot ∧
    InUse k slot ∧ (k.smpTskAlcMap slot).task = task

/-- The entries of one mode have disjoint user RAM. -/
lemma mode_areas_disjoint {pm cpuid' : Word} {i i' : Fin NUM_SYS_STRUCT}
    (hpm : isValidPm pm = true) (hc : cpuid < 4) (hc' : cpuid' < 4)
    (hi : getSysStructInfo cpuid pm = some i) (hi' : getSysStructInfo cpuid' pm = some i') :
    i = i' ∨ (uramAreas i).limit.toNat < (uramAreas i').bottom.toNat ∨
      (uramAreas i').limit.toNat < (uramAreas i).bottom.toNat :=
  getSysStructInfo_pairs
    (P := fun i i' => i = i' ∨ (uramAreas i).limit.toNat < (uramAreas i').bottom.toNat ∨
      (uramAreas i').limit.toNat < (uramAreas i).bottom.toNat)
    (by decide) hc hc' hpm hi hi'

/-- The addresses of the section of a slot. -/
lemma inSpace_slotBase_iff (baseTtba : Word) (j : Fin NUM_SYS_STRUCT) {slot : ℕ}
    (hslot : slot < (initSysinfos baseTtba j).maxNumTaskSpace.toNat) (a : Word) :
    Mmu.InSpace (slotBase (initSysinfos baseTtba j) slot) a ↔
      (uramAreas j).bottom.toNat + slot * 2 ^ 20 ≤ a.toNat ∧
        a.toNat < (uramAreas j).bottom.toNat + (slot + 1) * 2 ^ 20 := by
  obtain ⟨-, hfit⟩ := maxNumTaskSpace_fits baseTtba j
  have hsize : Mmu.SECTION_SIZE.toNat = 2 ^ 20 := rfl
  have hlimit := (uramAreas j).limit.isLt
  rw [Mmu.InSpace, BitVec.le_def, BitVec.lt_def, BitVec.toNat_add, slotBase_toNat baseTtba j hslot,
    hsize]
  rw [hsize] at hfit
  omega

/-- User RAM and the kernel heaps of a mode have no address in common. -/
lemma UserRam.not_heapRam {baseTtba : Word} (h : UserRam k a)
    (hpm : isValidPm k.common.pm = true) (hsys : k.sysStructTop = initSysinfos baseTtba) :
    ¬ HeapRam k a := by
  obtain ⟨cpuid, hc, i, hi, hbottom, hlimit⟩ := h
  rintro ⟨cpuid', hc', i', hi', hbottom', hlimit'⟩
  have hareas := getSysStructInfo_pairs
    (P := fun i i' => (uramAreas i).limit.toNat < (kheapAreas i').bottom.toNat ∨
      (kheapAreas i').limit.toNat < (uramAreas i).bottom.toNat)
    (by decide) hc hc' hpm hi hi'
  rw [hsys, BitVec.le_def] at hbottom hlimit hbottom' hlimit'
  have hbottom : (uramAreas i).bottom.toNat ≤ a.toNat := hbottom
  have hlimit : a.toNat ≤ (uramAreas i).limit.toNat := hlimit
  have hbottom' : (kheapAreas i').bottom.toNat ≤ a.toNat := hbottom'
  have hlimit' : a.toNat ≤ (kheapAreas i').limit.toNat := hlimit'
  omega

lemma HeapRam.inKernelHeap {baseTtba : Word} (h : HeapRam k a)
    (hsys : k.sysStructTop = initSysinfos baseTtba) : InKernelHeap a := by
  obtain ⟨-, -, i, -, hcontains⟩ := h
  rw [hsys] at hcontains
  exact ⟨i, hcontains⟩

lemma HeapRam.congr (h : HeapRam k a) (hpm : k'.common.pm = k.common.pm)
    (hsys : k'.sysStructTop = k.sysStructTop) : HeapRam k' a := by
  rwa [HeapRam, hpm, hsys]

lemma HeapBlock.congr {ap : Word} (h : HeapBlock k ap) (hpm : k'.common.pm = k.common.pm)
    (hsys : k'.sysStructTop = k.sysStructTop) : HeapBlock k' ap :=
  ⟨h.1.congr hpm hsys, h.2.congr hpm hsys⟩

/-- User RAM is above the vectors. -/
lemma UserRam.above_vectors {baseTtba : Word} (h : UserRam k a)
    (hsys : k.sysStructTop = initSysinfos baseTtba) : 64 ≤ a.toNat := by
  have hall : ∀ i, 64 ≤ (uramAreas i).bottom.toNat := by decide
  obtain ⟨-, -, i, -, hbottom, -⟩ := h
  rw [hsys, BitVec.le_def] at hbottom
  exact (hall i).trans hbottom

/-- A section is part of the user RAM of its entry. -/
lemma contains_of_inSpace (baseTtba : Word) (j : Fin NUM_SYS_STRUCT) {slot : ℕ}
    (hslot : slot < (initSysinfos baseTtba j).maxNumTaskSpace.toNat)
    (ha : Mmu.InSpace (slotBase (initSysinfos baseTtba j) slot) a) :
    (initSysinfos baseTtba j).userRamArea.Contains a := by
  rw [inSpace_slotBase_iff baseTtba j hslot] at ha
  obtain ⟨-, hfit⟩ := maxNumTaskSpace_fits baseTtba j
  have hsize : Mmu.SECTION_SIZE.toNat = 2 ^ 20 := rfl
  rw [hsize] at hfit
  show (uramAreas j).bottom ≤ a ∧ a ≤ (uramAreas j).limit
  rw [BitVec.le_def, BitVec.le_def]
  omega

/-- A section that belongs to a task lies in user RAM. -/
lemma Placed.userRam {baseTtba : Word} (h : Placed k task)
    (hsys : k.sysStructTop = initSysinfos baseTtba) (ha : Mmu.InSpace (k.tcb task).ttba a) :
    UserRam k a := by
  obtain ⟨cpuid, hc, j, slot, hj, hslot, -, httba, -⟩ := h
  refine ⟨cpuid, hc, j, hj, ?_⟩
  rw [hsys] at hslot httba ⊢
  rw [httba] at ha
  exact contains_of_inSpace baseTtba j hslot ha

/-- Two tasks have no address in common. -/
lemma Placed.disjoint {baseTtba : Word} (h : Placed k task) (h' : Placed k t) (hne : t ≠ task)
    (hpm : isValidPm k.common.pm = true) (hsys : k.sysStructTop = initSysinfos baseTtba)
    (ha : Mmu.InSpace (k.tcb t).ttba a) : ¬ Mmu.InSpace (k.tcb task).ttba a := by
  obtain ⟨cpuid, hc, j, slot, hj, hslot, -, httba, -, htask⟩ := h
  obtain ⟨cpuid', hc', j', slot', hj', hslot', -, httba', -, htask'⟩ := h'
  have hslots : slot ≠ slot' := by
    rintro rfl
    exact hne (htask'.symm.trans htask)
  rw [hsys] at hslot hslot' httba httba'
  rw [httba', inSpace_slotBase_iff baseTtba j' hslot'] at ha
  rw [httba, inSpace_slotBase_iff baseTtba j hslot]
  obtain ⟨-, hfit⟩ := maxNumTaskSpace_fits baseTtba j
  obtain ⟨-, hfit'⟩ := maxNumTaskSpace_fits baseTtba j'
  have hsize : Mmu.SECTION_SIZE.toNat = 2 ^ 20 := rfl
  rw [hsize] at hfit hfit'
  obtain rfl | hareas := mode_areas_disjoint hpm hc hc' hj hj'
  · omega
  · omega

/-- The slot of a task. -/
lemma Placed.slot (h : Placed k task) : InUse k (k.tcb task).mapid.toNat ∧
    (k.smpTskAlcMap (k.tcb task).mapid.toNat).task = task := by
  obtain ⟨cpuid, -, j, slot, -, hslot, hid, -, huse, htask⟩ := h
  have hlt := (k.sysStructTop j).maxNumTaskSpace.isLt
  rw [hid, BitVec.toNat_ofNat, Nat.mod_eq_of_lt (by omega)]
  exact ⟨huse, htask⟩

/-- What a task has stays its own when its slot and its section do and the slot is kept. -/
lemma Placed.congr (h : Placed k task) (hpm : k'.common.pm = k.common.pm)
    (hsys : k'.sysStructTop = k.sysStructTop)
    (hmapid : (k'.tcb task).mapid = (k.tcb task).mapid)
    (httba : (k'.tcb task).ttba = (k.tcb task).ttba)
    (hmap : ∀ i, InUse k i → (k.smpTskAlcMap i).task = task →
      InUse k' i ∧ (k'.smpTskAlcMap i).task = task) : Placed k' task := by
  obtain ⟨cpuid, hc, j, slot, hj, hslot, hid, hbase, huse, htask⟩ := h
  obtain ⟨huse', htask'⟩ := hmap slot huse htask
  refine ⟨cpuid, hc, j, slot, ?_, ?_, hmapid.trans hid, ?_, huse', htask'⟩
  · rw [hpm, hj]
  · rwa [hsys]
  · rw [httba, hbase, hsys]

/-! ## The invariant -/

/-- The TCB of the task and its context are two blocks of the kernel heap, and the header of the
context has one of the sizes. -/
structure TwoBlocks (sizes : Set Word) (k : Kernel) (task : Word) : Prop where
  tcb : HeapBlock k task
  context : HeapBlock k (k.tcb task).context
  ne : (k.tcb task).context ≠ task
  header : size k.mem ((k.tcb task).context - HEAP_UNIT_SIZE) ∈ sizes

lemma TwoBlocks.congr (h : TwoBlocks sizes k task) (hpm : k'.common.pm = k.common.pm)
    (hsys : k'.sysStructTop = k.sysStructTop)
    (hcontext : (k'.tcb task).context = (k.tcb task).context)
    (hheader : size k'.mem ((k.tcb task).context - HEAP_UNIT_SIZE) ∈ sizes) :
    TwoBlocks sizes k' task := by
  refine ⟨h.tcb.congr hpm hsys, ?_, ?_, ?_⟩
  · rw [hcontext]
    exact h.context.congr hpm hsys
  · rw [hcontext]
    exact h.ne
  · rwa [hcontext]

/-- The queues are rings, every task has the two blocks it was created in, one that has a section
has it from a slot of its own, and the vectors are in place. -/
structure LifeInv (heads sizes : Set Word) (s : LifeState) : Prop where
  sysinfos : ∃ baseTtba, s.1.sysStructTop = initSysinfos baseTtba
  pm : isValidPm s.1.common.pm = true
  held : s.1.held .smpQueueLock = false
  vectors : Reset.VectorsAt s.1.mem 0
  queues : TaskQueues s.1.tcb heads s.2
  blocks : ∀ t, Rings.Queued heads s.2 t → TwoBlocks sizes s.1 t
  placed : ∀ t, Rings.Queued heads s.2 t → HasSpace s.1 t → Placed s.1 t

/-- The vectors stay in place when the words from 0 to 63 do. -/
lemma vectorsAt_congr {m m' : Mem} (h : Reset.VectorsAt m 0)
    (hlow : ∀ a : Word, a.toNat < 64 → m' a = m a) : Reset.VectorsAt m' 0 := by
  have hcode : ∀ k, (Reset.vectorAt 0 k).toNat < 64 := by decide
  have hliteral : ∀ k, (Reset.vectorAt (0 + 32) k).toNat < 64 := by decide
  exact ⟨fun k => (hlow _ (hcode k)).trans (h.code k),
    fun k => (hlow _ (hliteral k)).trans (h.literal k)⟩

/-- A change that does not concern the links, after which the tasks have what they should, and which
writes in user RAM only. -/
lemma LifeInv.of_placed (h : LifeInv heads sizes s) (hsys : k'.sysStructTop = s.1.sysStructTop)
    (hpm : k'.common.pm = s.1.common.pm) (hheld : k'.held = s.1.held)
    (hmem : ∀ a, ¬ UserRam s.1 a → k'.mem a = s.1.mem a)
    (hnext : ∀ t, (k'.tcb t).next = (s.1.tcb t).next)
    (hprev : ∀ t, (k'.tcb t).prev = (s.1.tcb t).prev)
    (hcontext : ∀ t, (k'.tcb t).context = (s.1.tcb t).context)
    (hplaced : ∀ t, Rings.Queued heads s.2 t → HasSpace k' t → Placed k' t) :
    LifeInv heads sizes (k', s.2) := by
  obtain ⟨baseTtba, hbase⟩ := h.sysinfos
  refine ⟨⟨baseTtba, hsys.trans hbase⟩, ?_, ?_, ?_, Rings.congr h.queues (fun t _ => hnext t)
    fun t _ => hprev t, fun t ht => ?_, hplaced⟩
  · show isValidPm k'.common.pm = true
    rw [hpm]
    exact h.pm
  · show k'.held .smpQueueLock = false
    rw [hheld]
    exact h.held
  · refine vectorsAt_congr h.vectors fun a ha => hmem a fun huser => ?_
    have habove := huser.above_vectors hbase
    omega
  · have hblocks := h.blocks t ht
    refine hblocks.congr hpm hsys (hcontext t) ?_
    rw [show size k'.mem ((s.1.tcb t).context - HEAP_UNIT_SIZE)
      = size s.1.mem ((s.1.tcb t).context - HEAP_UNIT_SIZE) from
      hmem _ fun huser => huser.not_heapRam h.pm hbase hblocks.context.2]
    exact hblocks.header

/-- A change that concerns neither RAM nor the links, the sections and the slots of tasks. -/
lemma LifeInv.congr (h : LifeInv heads sizes s) (hsys : k'.sysStructTop = s.1.sysStructTop)
    (hpm : k'.common.pm = s.1.common.pm) (hheld : k'.held = s.1.held) (hmem : k'.mem = s.1.mem)
    (hnext : ∀ t, (k'.tcb t).next = (s.1.tcb t).next)
    (hprev : ∀ t, (k'.tcb t).prev = (s.1.tcb t).prev)
    (hcontext : ∀ t, (k'.tcb t).context = (s.1.tcb t).context)
    (hmapid : ∀ t, (k'.tcb t).mapid = (s.1.tcb t).mapid)
    (httba : ∀ t, (k'.tcb t).ttba = (s.1.tcb t).ttba)
    (hmap : ∀ i, InUse s.1 i → InUse k' i ∧
      (k'.smpTskAlcMap i).task = (s.1.smpTskAlcMap i).task) : LifeInv heads sizes (k', s.2) := by
  refine h.of_placed hsys hpm hheld (fun a _ => congrFun hmem a) hnext hprev hcontext
    fun t ht hspace => ?_
  have hspace' : HasSpace s.1 t := fun he => hspace ((httba t).trans he)
  refine (h.placed t ht hspace').congr hpm hsys (hmapid t) (httba t) fun i huse htask => ?_
  obtain ⟨huse', htask'⟩ := hmap i huse
  exact ⟨huse', htask'.trans htask⟩

lemma LifeInitial.inv (h : LifeInitial heads s) (sizes : Set Word) : LifeInv heads sizes s := by
  have hnone : ∀ t, ¬ Rings.Queued heads s.2 t := by
    rintro t ⟨head, -, hmem⟩
    rw [h.queue] at hmem
    exact absurd hmem List.not_mem_nil
  refine ⟨h.sysinfos, h.pm, h.held, h.vectors, ?_, fun t ht => absurd ht (hnone t),
    fun t ht => absurd ht (hnone t)⟩
  rw [h.queue]
  apply Rings.of_self
  · exact fun head hhead => (h.self head hhead).1
  · exact fun head hhead => (h.self head hhead).2

/-! ## Steps -/

lemma enqueueTask_held {taskHead : Word → Word} {pri : Word} {lock : LockWord}
    (h : k.held lock = true) :
    enqueueTask taskHead pri lock task k = .error (.spins lock) k := by
  rw [enqueueTask, bind_error (spinReq_held h)]

/-- What a call of `create_task` that makes a task and returns has done. -/
lemma createTask_returns {taskHead : Word → Word} {func pri context : Word} {lock : LockWord}
    (hfunc : func ≠ NULL)
    (hok : createTask (some taskHead) func pri lock task context k = .ok () k') :
    k' = { initTask func pri task context k with
      tcb := enqueue (initTask func pri task context k).tcb (taskHead pri) task } := by
  have hheld : (initTask func pri task context k).held = k.held := rfl
  rw [createTask_some taskHead hfunc] at hok
  cases hlock : k.held lock with
  | true =>
      rw [← hheld] at hlock
      rw [enqueueTask_held hlock] at hok
      cases hok
  | false =>
      rw [← hheld] at hlock
      by_cases hpri : pri < SMP_MAX_PRI
      · rw [enqueueTask_ok hpri hlock] at hok
        cases hok
        rfl
      · rw [enqueueTask_outOfBounds hpri hlock] at hok
        cases hok

/-- A new task has no section, and comes last in its queue. -/
lemma LifeInv.createTask (h : LifeInv heads sizes s) {taskHead : Word → Word}
    {func pri context : Word} {lock : LockWord} (hfunc : func ≠ NULL)
    (hhead : taskHead pri ∈ heads) (hfresh : ¬ Rings.Node heads s.2 task)
    (htask : HeapBlock s.1 task) (hcontext : HeapBlock s.1 context) (hne : context ≠ task)
    (hheader : size s.1.mem (context - HEAP_UNIT_SIZE) ∈ sizes)
    (hok : Kernel.createTask (some taskHead) func pri lock task context (s.1.onCore cpuid)
      = .ok () k') :
    LifeInv heads sizes
      (k', Function.update s.2 (taskHead pri) (s.2 (taskHead pri) ++ [task])) := by
  rw [createTask_returns hfunc hok]
  have hinit : ∀ t, Rings.Node heads s.2 t →
      (initTask func pri task context (s.1.onCore cpuid)).tcb t = s.1.tcb t := by
    rintro t ht
    apply initTask_tcb_of_ne
    rintro rfl
    exact hfresh ht
  have hqueues : TaskQueues (initTask func pri task context (s.1.onCore cpuid)).tcb heads s.2 := by
    apply Rings.congr h.queues
    · exact fun t ht => congrArg TCB.next (hinit t ht)
    · exact fun t ht => congrArg TCB.prev (hinit t ht)
  refine ⟨h.sysinfos, h.pm, h.held, h.vectors, TaskQueues.enqueue hqueues hhead hfresh,
    fun t ht => ?_, fun t ht hspace => ?_⟩
  · have hbare := enqueue_bare (initTask func pri task context (s.1.onCore cpuid)).tcb
      (taskHead pri) task t
    obtain rfl | hold := Rings.queued_push ht
    · rw [initTask_tcb_self] at hbare
      have hc := context_of_bare hbare
      exact ⟨htask, by rwa [hc], by rwa [hc], by rwa [hc]⟩
    · rw [hinit t hold.node] at hbare
      exact (h.blocks t hold).congr rfl rfl (context_of_bare hbare) (h.blocks t hold).header
  have hbare := enqueue_bare (initTask func pri task context (s.1.onCore cpuid)).tcb
    (taskHead pri) task t
  obtain rfl | hold := Rings.queued_push ht
  · rw [initTask_tcb_self] at hbare
    exact absurd (ttba_of_bare hbare) hspace
  · rw [hinit t hold.node] at hbare
    have httba := ttba_of_bare hbare
    have hspace' : HasSpace s.1 t := fun he => hspace (httba.trans he)
    exact (h.placed t hold hspace').congr rfl rfl (mapid_of_bare hbare) httba
      fun i huse htask => ⟨huse, htask⟩

lemma LifeInv.onCore (h : LifeInv heads sizes s) (cpuid : Word) :
    LifeInv heads sizes (s.1.onCore cpuid, s.2) :=
  ⟨h.sysinfos, h.pm, h.held, h.vectors, h.queues,
    fun t ht => (h.blocks t ht).congr rfl rfl rfl (h.blocks t ht).header, h.placed⟩

lemma LifeInv.endTask (h : LifeInv heads sizes s)
    (hok : Kernel.endTask task (s.1.onCore cpuid) = .ok () k') :
    LifeInv heads sizes (k', s.2) := by
  rw [endTask_ok] at hok
  cases hok
  refine h.congr rfl rfl rfl rfl ?_ ?_ ?_ ?_ ?_ ?_
  · exact update_field TCB.next s.1.tcb rfl
  · exact update_field TCB.prev s.1.tcb rfl
  · exact update_field TCB.context s.1.tcb rfl
  · exact update_field TCB.mapid s.1.tcb rfl
  · exact update_field TCB.ttba s.1.tcb rfl
  · -- the slot that waits stays in use
    intro i huse
    let slot := (s.1.tcb task).mapid.toNat
    show (Function.update s.1.smpTskAlcMap slot _ i).state ≠ INIT_MAP ∧
      (Function.update s.1.smpTskAlcMap slot _ i).task = _
    by_cases hi : i = slot
    · rw [hi, Function.update_self]
      exact ⟨show WAIT_INIT_MAP ≠ INIT_MAP by decide, rfl⟩
    · rw [Function.update_of_ne hi]
      exact ⟨huse, rfl⟩

lemma LifeInv.setUserAsid (h : LifeInv heads sizes s) {core pm asid : Word}
    (hok : Kernel.setUserAsid task core pm (s.1.onCore cpuid) = .ok asid k') :
    LifeInv heads sizes (k', s.2) := by
  obtain ⟨e, hk⟩ | ⟨r, -, hk⟩ | ⟨r, -, -, -, hk⟩ :=
    setUserAsid_cases task core pm (s.1.onCore cpuid)
  · rw [hk] at hok
    cases hok
  · rw [hk] at hok
    cases hok
    exact h.onCore cpuid
  · rw [hk] at hok
    cases hok
    refine h.congr rfl rfl rfl rfl ?_ ?_ ?_ ?_ ?_ ?_
    · exact update_field TCB.next s.1.tcb rfl
    · exact update_field TCB.prev s.1.tcb rfl
    · exact update_field TCB.context s.1.tcb rfl
    · exact update_field TCB.mapid s.1.tcb rfl
    · exact update_field TCB.ttba s.1.tcb rfl
    · exact fun i huse => ⟨huse, rfl⟩

/-- `start_task` writes in user RAM only. -/
lemma StartsOne.mem {j : Fin NUM_SYS_STRUCT} {baseTtba : Word}
    (hs : StartsOne (k.onCore cpuid) task (k.sysStructTop j) k') (hc : cpuid < 4)
    (hj : getSysStructInfo cpuid k.common.pm = some j)
    (hsys : k.sysStructTop = initSysinfos baseTtba) (ha : ¬ UserRam k a) :
    k'.mem a = k.mem a := by
  obtain ⟨slot, ⟨hslot, -⟩, hclaim⟩ | ⟨-, -, hmem, -⟩ := hs.slot
  · refine hclaim.mem a fun hin => ha ⟨cpuid, hc, j, hj, ?_⟩
    rw [hsys] at hslot hin ⊢
    obtain ⟨hlow, hhigh⟩ := hin
    have hbase := slotBase_toNat baseTtba j hslot
    have htable : SECTION_TBL_SIZE.toNat = 2 ^ 14 := rfl
    apply contains_of_inSpace baseTtba j hslot
    rw [inSpace_slotBase_iff baseTtba j hslot]
    omega
  · exact congrFun hmem a

/-- A task that is started gets a slot that belongs to no other task, or it stays as it is. -/
lemma LifeInv.start (h : LifeInv heads sizes s) {j : Fin NUM_SYS_STRUCT} (hc : cpuid < 4)
    (hj : getSysStructInfo cpuid s.1.common.pm = some j)
    (hs : StartsOne (s.1.onCore cpuid) task (s.1.sysStructTop j) k') :
    LifeInv heads sizes (k', s.2) := by
  have hpm : k'.common.pm = s.1.common.pm := congrArg SysCommonInfo.pm hs.common
  obtain ⟨baseTtba, hsys⟩ := h.sysinfos
  refine h.of_placed hs.sysStructTop hpm hs.held (fun a ha => hs.mem hc hj hsys ha) (fun t => ?_)
    (fun t => ?_) (fun t => ?_) fun t ht hspace => ?_
  · by_cases htt : t = task
    · rw [htt]
      exact hs.next
    · exact congrArg TCB.next (hs.other t htt)
  · by_cases htt : t = task
    · rw [htt]
      exact hs.prev
    · exact congrArg TCB.prev (hs.other t htt)
  · by_cases htt : t = task
    · rw [htt]
      exact hs.context
    · exact congrArg TCB.context (hs.other t htt)
  · have hother : t ≠ task → HasSpace s.1 t := by
      intro htt he
      exact hspace ((congrArg TCB.ttba (hs.other t htt)).trans he)
    obtain ⟨slot, ⟨hslot, hfree⟩, hclaim⟩ | ⟨-, hmap, -, hmapid, httba⟩ := hs.slot
    · by_cases htt : t = task
      · -- the slot was free, and now it is the task's
        refine ⟨cpuid, hc, j, slot, ?_, ?_, htt ▸ hclaim.mapid, ?_, ?_⟩
        · rw [hpm, hj]
        · rw [hs.sysStructTop]
          exact hslot
        · rw [hs.sysStructTop, htt]
          exact hclaim.ttba
        · rw [InUse, hclaim.smpTskAlcMap, Function.update_self, htt]
          exact ⟨show RUNNING_MAP ≠ INIT_MAP by decide, rfl⟩
      · refine (h.placed t ht (hother htt)).congr hpm hs.sysStructTop
          (congrArg TCB.mapid (hs.other t htt)) (congrArg TCB.ttba (hs.other t htt)) ?_
        intro i huse htask
        have hne : i ≠ slot := by
          rintro rfl
          exact huse hfree
        rw [InUse, hclaim.smpTskAlcMap, Function.update_of_ne hne]
        exact ⟨huse, htask⟩
    · have hplaced : ∀ i, InUse s.1 i → (s.1.smpTskAlcMap i).task = t →
          InUse k' i ∧ (k'.smpTskAlcMap i).task = t := by
        intro i huse htask
        rw [InUse, hmap]
        exact ⟨huse, htask⟩
      by_cases htt : t = task
      · subst htt
        have hold : HasSpace s.1 t := fun he => hspace (httba.trans he)
        exact (h.placed t ht hold).congr hpm hs.sysStructTop hmapid httba hplaced
      · exact (h.placed t ht (hother htt)).congr hpm hs.sysStructTop
          (congrArg TCB.mapid (hs.other t htt)) (congrArg TCB.ttba (hs.other t htt)) hplaced

/-- Every call that is not `start_task` or `destroy_task` keeps the invariant. -/
lemma LifeInv.call (h : LifeInv heads sizes s) {call : TaskCall}
    (hsizes : mallocUnits TaskRam.SIZEOF_CONTEXT ∈ sizes) (hlegal : LifeLegal heads s call)
    (hok : call.run (s.1.onCore cpuid) = .ok () k') :
    LifeInv heads sizes (k', lifeNext s call) := by
  cases call with
  | createTask taskHead func pri lock task context =>
      cases taskHead with
      | none =>
          cases hok
          exact h.onCore cpuid
      | some taskHead =>
          obtain ⟨hhead, hfresh, htask, hcontext, hne, hheader⟩ := hlegal taskHead rfl
          rw [← hheader] at hsizes
          by_cases hfunc : func = NULL
          · rw [TaskCall.run, Kernel.createTask, if_pos hfunc] at hok
            cases hok
            rw [lifeNext, if_pos hfunc]
            exact h.onCore cpuid
          · rw [lifeNext, if_neg hfunc]
            exact h.createTask hfunc hhead hfresh htask hcontext hne hsizes hok
  | endTask task => exact h.endTask hok
  | setUserAsid task core pm =>
      obtain ⟨asid, hk⟩ := of_discard_ok hok
      exact h.setUserAsid hk
  | _ => exact hlegal.elim

/-! ## What `destroy_task` touches -/

/-- The kernel with other contents of RAM. -/
def withMem (m : Mem) (k : Kernel) : Kernel := { k with mem := m }

lemma withMem_withMem (m m' : Mem) (k : Kernel) : withMem m (withMem m' k) = withMem m k := rfl

/-- The state in which `destroy_task` calls `kfree`. -/
def destroyed (task : Word) (k : Kernel) : Kernel := { releaseAsid task k with
  smpTskAlcMap := Function.update k.smpTskAlcMap (k.tcb task).mapid.toNat ⟨INIT_MAP, NULL⟩
  mapAccesses := (k.tcb task).mapid.toNat :: (k.tcb task).mapid.toNat :: k.mapAccesses
  tcb := unlink k.tcb task
  freed := task :: (unlink k.tcb task task).context :: k.freed }

lemma destroyTask_eq (task : Word) (h : k.held .smpQueueLock = false) :
    destroyTask task k = .ok () (destroyed task k) := destroyTask_free task h

lemma destroyTaskFreeing_eq (kfree : Word → Kernel → Option Kernel) (task : Word)
    (h : k.held .smpQueueLock = false) :
    destroyTaskFreeing kfree task k
      = (kfree (k.tcb task).context (destroyed task k)).bind (kfree task) := by
  have hcontext : ((destroyed task k).tcb task).context = (k.tcb task).context :=
    context_of_bare (unlink_bare k.tcb task task)
  rw [destroyTaskFreeing, destroyTask_eq task h]
  exact congrArg (fun c => (kfree c (destroyed task k)).bind (kfree task)) hcontext

/-- A task that owns what it names: up to the calls of `kfree` nothing else is touched. -/
lemma LifeInv.touchesOwn (h : LifeInv heads sizes s) (htask : Rings.Queued heads s.2 task)
    (hown : OwnsNamed heads s task) (cpuid : Word) :
    TouchesOwn heads s.2 task (s.1.onCore cpuid) (destroyed task (s.1.onCore cpuid)) := by
  obtain ⟨hspace, hasid⟩ := hown
  have hplaced := h.placed task htask hspace
  obtain ⟨-, hslot⟩ := hplaced.slot
  obtain ⟨baseTtba, hsys⟩ := h.sysinfos
  obtain ⟨head, hhead, hmem⟩ := htask
  have hframe : ∀ a, ¬ Mmu.InSpace (s.1.tcb task).ttba a →
      s.1.mem.writeAll ((s.1.tcb task).ttba + ·) (fun _ => 0) (spaceOffsets (s.1.tcb task).ttba) a
        = s.1.mem a := fun a ha => clear_frame s.1.mem ha
  have hslots : ∀ i, (s.1.smpTskAlcMap i).task ≠ task →
      Function.update s.1.smpTskAlcMap (s.1.tcb task).mapid.toNat ⟨INIT_MAP, NULL⟩ i
        = s.1.smpTskAlcMap i := by
    intro i hi
    apply Function.update_of_ne
    rintro rfl
    exact hi hslot
  refine ⟨fun a ha => .inr ?_, fun i hi => ?_, fun asid hne => ?_, ?_,
    fun t => unlink_bare s.1.tcb task t, fun t hp hn => unlink_of_ne hp hn, rfl,
    fun t ht htt => ?_, fun a ha _ => hframe a fun hin => ha (hplaced.userRam hsys hin)⟩
  · have hin : Mmu.InSpace (s.1.tcb task).ttba a := by
      by_contra hout
      exact ha (hframe a hout)
    refine ⟨?_, hspace, hplaced.userRam hsys hin, hin⟩
    exact (Memory.writeAll_const s.1.mem _ 0 _ a).resolve_left ha
  · by_contra htask
    exact hi (hslots i htask)
  · have heq : asid = (s.1.tcb task).asid := by
      by_contra hother
      exact hne (Function.update_of_ne hother _ _)
    rcases hasid with hunused | ⟨hzero, -⟩
    · refine absurd ?_ hne
      rw [heq]
      exact (Function.update_self ..).trans hunused.symm
    · exact ⟨heq ▸ hzero, heq⟩
  · exact TaskQueues.unlink h.queues hhead hmem
  · refine ⟨fun hspace' a ha => hframe a ?_, fun i hi => hslots i ?_, fun hzero => ?_⟩
    · exact hplaced.disjoint (h.placed t ht hspace') htt h.pm hsys ha
    · rintro hi'
      exact htt (hi.symm.trans hi')
    · show Function.update s.1.common.asidHead (s.1.tcb task).asid UNUSED_ASID (s.1.tcb t).asid
        = s.1.common.asidHead (s.1.tcb t).asid
      rcases hasid with hunused | ⟨-, hother⟩
      · rw [← hunused, Function.update_eq_self]
      · exact Function.update_of_ne (hother t ht htt) _ _

/-- What is written in the kernel heap does not count. -/
lemma LifeInv.touchesOwn_heap (h : LifeInv heads sizes s) {m : Mem}
    (htouch : TouchesOwn heads s.2 task (s.1.onCore cpuid) k')
    (hheap : ∀ a, ¬ HeapRam s.1 a → m a = k'.mem a) :
    TouchesOwn heads s.2 task (s.1.onCore cpuid) (withMem m k') := by
  obtain ⟨baseTtba, hsys⟩ := h.sysinfos
  refine { htouch with
    mem := fun a ha => ?_
    others := fun t ht htt => ?_
    kernel := fun a huser hnot => (hheap a hnot).trans (htouch.kernel a huser hnot) }
  · by_cases hin : HeapRam s.1 a
    · exact .inl hin
    · rw [show (withMem m k').mem a = k'.mem a from hheap a hin] at ha ⊢
      exact htouch.mem a ha
  · obtain ⟨hmem, hslot, hasid⟩ := htouch.others t ht htt
    refine ⟨fun hspace a ha => ?_, hslot, hasid⟩
    have huser := (h.placed t ht hspace).userRam hsys ha
    exact (hheap a (huser.not_heapRam h.pm hsys)).trans (hmem hspace a ha)

/-- A call that touches only what its task owns keeps the invariant, but for the headers. -/
lemma LifeInv.of_touchesOwn (h : LifeInv heads Set.univ s)
    (htouch : TouchesOwn heads s.2 task (s.1.onCore cpuid) k')
    (hsys : k'.sysStructTop = s.1.sysStructTop) (hpm : k'.common.pm = s.1.common.pm)
    (hheld : k'.held .smpQueueLock = false) :
    LifeInv heads Set.univ (k', Rings.without s.2 task) := by
  obtain ⟨baseTtba, hbase⟩ := h.sysinfos
  refine ⟨⟨baseTtba, hsys.trans hbase⟩, ?_, hheld, ?_, htouch.queues, fun t ht => ?_,
    fun t ht hspace => ?_⟩
  · show isValidPm k'.common.pm = true
    rw [hpm]
    exact h.pm
  · refine vectorsAt_congr h.vectors fun a ha => htouch.kernel a (fun huser => ?_) fun hheap => ?_
    · have habove := UserRam.above_vectors huser hbase
      omega
    · have hbounds := (HeapRam.inKernelHeap hheap hbase).bounds
      omega
  · obtain ⟨ht, -⟩ := Rings.queued_without.mp ht
    exact (h.blocks t ht).congr hpm hsys (context_of_bare (htouch.bare t)) (Set.mem_univ _)
  · obtain ⟨ht, hne⟩ := Rings.queued_without.mp ht
    have httba := ttba_of_bare (htouch.bare t)
    have hold : HasSpace s.1 t := fun he => hspace (httba.trans he)
    refine (h.placed t ht hold).congr hpm hsys (mapid_of_bare (htouch.bare t)) httba
      fun i huse hi => ?_
    rw [InUse, (htouch.others t ht hne).2.1 i hi]
    exact ⟨huse, hi⟩

/-- `kfree` gives a block of the kernel heap back: it returns, and what it writes is in the kernel
heap. -/
def FreesInHeap (kfree : Word → Kernel → Option Kernel) : Prop :=
  ∀ ap k, HeapBlock k ap →
    ∃ m, kfree ap k = some (withMem m k) ∧ ∀ a, ¬ HeapRam k a → m a = k.mem a

/-- `destroy_task` with a `kfree` that writes in the kernel heap only. -/
lemma LifeInv.destroyTask_frees (h : LifeInv heads sizes s)
    {kfree : Word → Kernel → Option Kernel} (hkfree : FreesInHeap kfree)
    (htask : Rings.Queued heads s.2 task) (cpuid : Word) :
    ∃ m, destroyTaskFreeing kfree task (s.1.onCore cpuid)
        = some (withMem m (destroyed task (s.1.onCore cpuid))) ∧
      ∀ a, ¬ HeapRam s.1 a → m a = (destroyed task (s.1.onCore cpuid)).mem a := by
  have hblocks := h.blocks task htask
  obtain ⟨m₁, hfree₁, hm₁⟩ := hkfree (s.1.tcb task).context (destroyed task (s.1.onCore cpuid))
    (hblocks.context.congr rfl rfl)
  obtain ⟨m₂, hfree₂, hm₂⟩ := hkfree task (withMem m₁ (destroyed task (s.1.onCore cpuid)))
    (hblocks.tcb.congr rfl rfl)
  refine ⟨m₂, ?_, fun a ha => (hm₂ a ha).trans (hm₁ a ha)⟩
  rw [destroyTaskFreeing_eq kfree task (show (s.1.onCore cpuid).held .smpQueueLock = false from
    h.held)]
  rw [withMem_withMem] at hfree₂
  exact Option.bind_eq_some_iff.mpr ⟨_, hfree₁, hfree₂⟩

/-- A word is kept or cleared. -/
lemma destroyed_mem (k : Kernel) (task a : Word) :
    (destroyed task k).mem a = k.mem a ∨ (destroyed task k).mem a = 0 :=
  Memory.writeAll_const k.mem _ 0 _ a

/-- The first word of memory is cleared if the task has no section. -/
lemma destroyed_mem_zero (hzero : (k.tcb task).ttba = 0) : (destroyed task k).mem 0 = 0 := by
  have hmem : (0 : Word) ∈ spaceOffsets (k.tcb task).ttba := by
    rw [hzero]
    exact List.mem_map.mpr ⟨0, List.mem_range.mpr (by decide), rfl⟩
  have hclear := Memory.writeAll_const_of_mem k.mem ((k.tcb task).ttba + ·) (0 : Word) hmem
  have hfirst : (k.tcb task).ttba + 0 = 0 := by
    rw [hzero]
    rfl
  rw [hfirst] at hclear
  exact hclear

/-- With a `kfree` that writes in the kernel heap only, a call of `destroy_task` that touches only
what the task owns gets a task that owns what it names. -/
lemma LifeInv.ownsNamed (h : LifeInv heads sizes s) {kfree : Word → Kernel → Option Kernel}
    (hkfree : FreesInHeap kfree) (htask : Rings.Queued heads s.2 task)
    (hmeets : DestroyMeets kfree heads s cpuid task) : OwnsNamed heads s task := by
  obtain ⟨baseTtba, hsys⟩ := h.sysinfos
  obtain ⟨k', hfreeing, htouch⟩ := hmeets
  obtain ⟨m, hfreeing', hheap⟩ := h.destroyTask_frees hkfree htask cpuid
  obtain rfl := Option.some.inj (hfreeing.symm.trans hfreeing')
  constructor
  · -- otherwise the first vector is cleared, and `kfree` leaves it
    intro hzero
    have hlow : ¬ HeapRam s.1 0 := fun hin =>
      absurd (hin.inKernelHeap hsys).bounds.1 (by decide)
    have hclear : m 0 = 0 :=
      (hheap 0 hlow).trans (destroyed_mem_zero (k := s.1.onCore cpuid) hzero)
    have hvector : s.1.mem 0 = Reset.ldrPcWord := h.vectors.code 0
    have hchange : m 0 ≠ s.1.mem 0 := by
      rw [hclear, hvector]
      decide
    obtain hin | ⟨-, hspace, -⟩ := htouch.mem 0 hchange
    · exact hlow hin
    · exact hspace hzero
  · by_cases hunused : s.1.common.asidHead (s.1.tcb task).asid = UNUSED_ASID
    · exact .inl hunused
    · have hchange : Function.update s.1.common.asidHead (s.1.tcb task).asid UNUSED_ASID
          (s.1.tcb task).asid ≠ s.1.common.asidHead (s.1.tcb task).asid := by
        rw [Function.update_self]
        exact Ne.symm hunused
      obtain ⟨hzero, -⟩ := htouch.asid _ hchange
      refine .inr ⟨hzero, fun t ht htt hsame => ?_⟩
      have hstatus := (htouch.others t ht htt).2.2
      have hasid : (s.1.tcb t).asid ≠ 0 := hsame ▸ hzero
      have heq := hstatus hasid
      rw [show (s.1.onCore cpuid).tcb t = s.1.tcb t from rfl, hsame] at heq
      exact hchange heq

/-- With such a `kfree`, a task that owns what it names is destroyed as it should be. -/
lemma LifeInv.destroyTask_own (h : LifeInv heads sizes s) {kfree : Word → Kernel → Option Kernel}
    (hkfree : FreesInHeap kfree) (htask : Rings.Queued heads s.2 task)
    (hown : OwnsNamed heads s task) (cpuid : Word) :
    ∃ m, destroyTaskFreeing kfree task (s.1.onCore cpuid)
        = some (withMem m (destroyed task (s.1.onCore cpuid))) ∧
      TouchesOwn heads s.2 task (s.1.onCore cpuid)
        (withMem m (destroyed task (s.1.onCore cpuid))) := by
  obtain ⟨m, hfreeing, hheap⟩ := h.destroyTask_frees hkfree htask cpuid
  exact ⟨m, hfreeing, h.touchesOwn_heap (h.touchesOwn htask hown cpuid) hheap⟩

/-- With such a `kfree` every step keeps the invariant, if `destroy_task` gets a task that owns what
it names. -/
lemma LifeInv.step_own {c : Word × TaskCall} {kfree : Word → Kernel → Option Kernel}
    (h : LifeInv heads Set.univ s) (hkfree : FreesInHeap kfree) (hguard : DestroysOwn heads s c)
    (hs : LifeStep kfree heads s c s') : LifeInv heads Set.univ s' := by
  cases hs with
  | call _ hlegal hok => exact h.call (Set.mem_univ _) hlegal hok
  | start hc _ hj hstarts => exact h.start hc hj hstarts
  | @destroy cpuid task k' _ htask hfreeing =>
      obtain ⟨m, hfreeing', htouch⟩ := h.destroyTask_own hkfree htask (hguard task rfl) cpuid
      obtain rfl := Option.some.inj (hfreeing.symm.trans hfreeing')
      exact h.of_touchesOwn htouch rfl rfl h.held

/-! ## The code's own `kfree` -/

/-- `kfree` is `_free` with a free list that begins at `NULL`. -/
lemma kfree_eq_some {baseTtba ap : Word} {fuel : ℕ}
    (hsys : k.sysStructTop = initSysinfos baseTtba) (h : kfree fuel ap k = some k') :
    ∃ m, free fuel k.mem NULL ap = some m ∧ k' = withMem m k := by
  obtain ⟨i, -, h⟩ := Option.bind_eq_some_iff.mp h
  obtain ⟨m, hm, h⟩ := Option.bind_eq_some_iff.mp h
  rw [hsys] at hm
  exact ⟨m, hm, (Option.some.inj h).symm⟩

/-- One `kfree` after the other. -/
lemma kfree_twice_eq_some {baseTtba ap ap' : Word} {fuel : ℕ}
    (hsys : k.sysStructTop = initSysinfos baseTtba)
    (h : (kfree fuel ap k).bind (kfree fuel ap') = some k') :
    ∃ m₁ m₂, free fuel k.mem NULL ap = some m₁ ∧ free fuel m₁ NULL ap' = some m₂ ∧
      k' = withMem m₂ k := by
  obtain ⟨k₁, hfree₁, hfree₂⟩ := Option.bind_eq_some_iff.mp h
  obtain ⟨m₁, hm₁, rfl⟩ := kfree_eq_some hsys hfree₁
  obtain ⟨m₂, hm₂, rfl⟩ := kfree_eq_some (k := withMem m₁ k) hsys hfree₂
  exact ⟨m₁, m₂, hm₁, hm₂, rfl⟩

/-- `destroy_task` gives the context back and then the TCB. -/
lemma destroyTaskFreeing_kfree {baseTtba : Word} {fuel : ℕ}
    (hsys : k.sysStructTop = initSysinfos baseTtba) (hheld : k.held .smpQueueLock = false)
    (h : destroyTaskFreeing (kfree fuel) task k = some k') :
    ∃ m₁ m₂, free fuel (destroyed task k).mem NULL (k.tcb task).context = some m₁ ∧
      free fuel m₁ NULL task = some m₂ ∧ k' = withMem m₂ (destroyed task k) := by
  rw [destroyTaskFreeing_eq _ task hheld] at h
  exact kfree_twice_eq_some hsys h

/-- The code of a vector, taken for the size of a block at address 0, ends it in no heap. -/
lemma vector_size_not_heap {p w : Word} (hw : w = Reset.ldrPcWord ∨ w = 0) (hp : InKernelHeap p) :
    hdrAdd NULL w ≠ p := by
  have hvector : ∀ i, ¬ (kheapAreas i).Contains (hdrAdd NULL Reset.ldrPcWord) := by decide
  have hzero : ∀ i, ¬ (kheapAreas i).Contains (hdrAdd NULL 0) := by decide
  rintro rfl
  obtain ⟨i, hi⟩ := hp
  obtain rfl | rfl := hw
  · exact hvector i hi
  · exact hzero i hi

/-- The block of a context ends below the code of a vector. -/
lemma context_end_ne {p n w : Word} (hp : InKernelHeap p)
    (hn : n = mallocUnits TaskRam.SIZEOF_CONTEXT ∨ n = 0) (hw : w = Reset.ldrPcWord ∨ w = 0) :
    hdrAdd p n ≠ w := by
  obtain ⟨hlow, hhigh⟩ := hp.bounds
  have hunits : n * HEAP_UNIT_SIZE = 72 ∨ n * HEAP_UNIT_SIZE = 0 := by
    obtain rfl | rfl := hn
    · exact .inl (by decide)
    · exact .inr rfl
  rintro rfl
  have hend : (hdrAdd p n).toNat = p.toNat + (n * HEAP_UNIT_SIZE).toNat := by
    rw [hdrAdd, BitVec.toNat_add]
    obtain h | h := hunits <;> rw [h] <;> simp <;> omega
  obtain h | h := hw <;> rw [h] at hend
  · rw [show Reset.ldrPcWord.toNat = 0xE59FF018 from rfl] at hend
    obtain h | h := hunits <;> rw [h] at hend <;> simp at hend <;> omega
  · rw [show (0 : Word).toNat = 0 from rfl] at hend
    omega

/-- With the vectors in place `destroy_task` overwrites the first of them. -/
lemma LifeInv.not_touchesOwn (h : LifeInv heads {mallocUnits TaskRam.SIZEOF_CONTEXT} s)
    (htask : Rings.Queued heads s.2 task) {fuel : ℕ}
    (hfreeing : destroyTaskFreeing (kfree fuel) task (s.1.onCore cpuid) = some k') :
    ¬ TouchesOwn heads s.2 task (s.1.onCore cpuid) k' := by
  obtain ⟨baseTtba, hsys⟩ := h.sysinfos
  obtain ⟨htcb, hcontext, hne, hheader⟩ := h.blocks task htask
  have hheader := Set.mem_singleton_iff.mp hheader
  have hheapc : InKernelHeap ((s.1.tcb task).context - 8) := HeapRam.inKernelHeap hcontext.1 hsys
  have hheapt : InKernelHeap (task - 8) := HeapRam.inKernelHeap htcb.1 hsys
  have hct : task - 8 ≠ (s.1.tcb task).context - 8 := fun he => hne (by bv_omega)
  obtain ⟨m₁, m₂, hm₁, hm₂, rfl⟩ :=
    destroyTaskFreeing_kfree (k := s.1.onCore cpuid) hsys h.held hfreeing
  have hback : ∀ ap : Word, ap = ap - 8 + 8 := fun ap => (BitVec.sub_add_cancel ap 8).symm
  rw [show ((s.1.onCore cpuid).tcb task).context = (s.1.tcb task).context - 8 + 8
    from hback _] at hm₁
  rw [hback task] at hm₂
  -- the words that `kfree` reads are those of the vectors and of the header, or were cleared
  have hcleared := destroyed_mem (s.1.onCore cpuid) task
  generalize (destroyed task (s.1.onCore cpuid)).mem = m₀ at hm₁ hcleared
  have hcode : s.1.mem 0 = Reset.ldrPcWord := h.vectors.code 0
  have hcode' : s.1.mem 4 = Reset.ldrPcWord := h.vectors.code 1
  have hzero : m₀ 0 = Reset.ldrPcWord ∨ m₀ 0 = 0 := (hcleared 0).imp_left (·.trans hcode)
  have hfour : m₀ 4 = Reset.ldrPcWord ∨ m₀ 4 = 0 := (hcleared 4).imp_left (·.trans hcode')
  have hfirst : (∀ p, InKernelHeap p → p < m₀ 0) ∨ m₀ 0 = 0 := by
    refine hzero.imp_left fun hkept p hp => ?_
    rw [hkept, BitVec.lt_def, show Reset.ldrPcWord.toNat = 0xE59FF018 from rfl]
    have hbounds := hp.bounds
    omega
  have hunits : size m₀ ((s.1.tcb task).context - 8) = mallocUnits TaskRam.SIZEOF_CONTEXT ∨
      size m₀ ((s.1.tcb task).context - 8) = 0 := by
    rw [← hheader]
    exact hcleared ((s.1.tcb task).context - 8 + 4)
  have hlast := free_null_twice hheapc hheapt hct hfirst
    (fun p hp => vector_size_not_heap hfour hp) (context_end_ne hheapc hunits hzero) hm₁ hm₂
  have hblock : InKernelHeap (m₂ 0) := by
    obtain he | he := hlast <;> rwa [he]
  obtain ⟨hlow, hhigh⟩ := hblock.bounds
  intro htouch
  have hchange : m₂ 0 ≠ s.1.mem 0 := by
    intro he
    rw [he, hcode, show Reset.ldrPcWord.toNat = 0xE59FF018 from rfl] at hhigh
    omega
  obtain hin | ⟨hclear, -⟩ := htouch.mem 0 hchange
  · exact absurd (HeapRam.inKernelHeap (k := s.1) hin hsys).bounds.1 (by decide)
  · rw [show m₂ 0 = 0 from hclear, show (0 : Word).toNat = 0 from rfl] at hlow
    omega

/-- With the code's own `kfree` every step keeps the invariant, if `destroy_task` does what it
should: it never does. -/
lemma LifeInv.step_first {c : Word × TaskCall} {fuel : ℕ}
    (h : LifeInv heads {mallocUnits TaskRam.SIZEOF_CONTEXT} s)
    (hguard : DestroysMeet (kfree fuel) heads s c) (hs : LifeStep (kfree fuel) heads s c s') :
    LifeInv heads {mallocUnits TaskRam.SIZEOF_CONTEXT} s' := by
  cases hs with
  | call _ hlegal hok => exact h.call (Set.mem_singleton _) hlegal hok
  | start hc _ hj hstarts => exact h.start hc hj hstarts
  | destroy _ htask hfreeing =>
      obtain ⟨k', hfreeing', htouch⟩ := hguard _ rfl
      exact absurd htouch (h.not_touchesOwn htask hfreeing')

/-- **What `destroy_task` touches.**  With the code's own `kfree`, which writes over the reset
vector: in no run does a call of `destroy_task` touch only what its task owns, unless a call before
it has touched more.  With a `kfree` that writes in the kernel heap only: in each state that a run
reaches in which every call of `destroy_task` gets a task that owns what it names, a call of
`destroy_task` touches only what its task owns exactly if the task owns what it names.  Messages are
taken to return (`Model/Kernel.lean`). -/
theorem destroy_touches_own_iff (hinit : LifeInitial heads s) :
    (∀ fuel cs s', Run (guarded (DestroysMeet (kfree fuel) heads) (LifeStep (kfree fuel) heads))
        s cs s' → ∀ cpuid task, Rings.Queued heads s'.2 task →
      ¬ DestroyMeets (kfree fuel) heads s' cpuid task) ∧
    ∀ kfree, FreesInHeap kfree → ∀ cs s',
      Run (guarded (DestroysOwn heads) (LifeStep kfree heads)) s cs s' →
      ∀ cpuid task, Rings.Queued heads s'.2 task →
        (DestroyMeets kfree heads s' cpuid task ↔ OwnsNamed heads s' task) := by
  refine ⟨fun fuel cs s' hrun cpuid task htask => ?_,
    fun kfree hkfree cs s' hrun cpuid task htask => ?_⟩
  · have hinv : LifeInv heads {mallocUnits TaskRam.SIZEOF_CONTEXT} s' :=
      hrun.guarded_invariant (fun _ _ _ h hguard hs => h.step_first hguard hs) (hinit.inv _)
    rintro ⟨k', hfreeing, htouch⟩
    exact hinv.not_touchesOwn htask hfreeing htouch
  · have hinv : LifeInv heads Set.univ s' :=
      hrun.guarded_invariant (fun _ _ _ h hguard hs => h.step_own hkfree hguard hs) (hinit.inv _)
    refine ⟨hinv.ownsNamed hkfree htask, fun hown => ?_⟩
    obtain ⟨m, hfreeing, htouch⟩ := hinv.destroyTask_own hkfree htask hown cpuid
    exact ⟨_, hfreeing, htouch⟩

/-- With at most one slot free, `start_task` is as it is supposed to be. -/
lemma startTask_startsOne {lock : LockWord} {j : Fin NUM_SYS_STRUCT} {baseTtba : Word}
    (hsys : k.sysStructTop = initSysinfos baseTtba) (hheld : k.held lock = false)
    (hj : getSysStructInfo k.prid k.common.pm = some j)
    (hone : ∀ slot slot', FreeSlot k (k.sysStructTop j) slot →
      FreeSlot k (k.sysStructTop j) slot' → slot = slot') :
    ∃ k', startTask task lock k = .ok () k' ∧ StartsOne k task (k.sysStructTop j) k' := by
  obtain ⟨k', hok, hstarts⟩ := startTask_ok task hheld hj
  have hrun := hok
  rw [startTask_eq hj] at hrun
  by_cases hfree : ∃ slot, FreeSlot k (k.sysStructTop j) slot
  · obtain ⟨slot, hslot⟩ := hfree
    have hiff : ∀ i, FreeSlot k (k.sysStructTop j) i ↔ i = slot :=
      fun i => ⟨fun hi => hone i slot hi hslot, fun he => he ▸ hslot⟩
    have hclaim := startTask_one baseTtba hsys hheld hj hiff hok
    obtain ⟨k₁, hforM, -, htcb, -⟩ := forM_startTaskPass_one task hheld hiff
    rw [bind_ok hforM] at hrun
    have htask : k'.tcb task = (k₁.tcb task).setState TASK_STATE_RUNNING := by
      rw [← (EStateM.Result.ok.inj hrun).2]
      exact Function.update_self ..
    refine ⟨k', hok, .inl ⟨slot, hslot, hclaim⟩, hstarts.held, hstarts.common,
      hstarts.sysStructTop, ?_, ?_, ?_, hstarts.other⟩
    · simp [htask, htcb, place]
    · simp [htask, htcb, place]
    · simp [htask, htcb, place]
  · have hnone := not_exists.mp hfree
    have hforM := forM_startTaskPass_used task (k.sysStructTop j) hheld
      (l := List.range (k.sysStructTop j).maxNumTaskSpace.toNat)
      fun i hi hstate => hnone i ⟨List.mem_range.mp hi, hstate⟩
    rw [bind_ok hforM] at hrun
    have hk := (EStateM.Result.ok.inj hrun).2
    have htask : k'.tcb task = (k.tcb task).setState TASK_STATE_RUNNING := by
      rw [← hk]
      exact Function.update_self ..
    refine ⟨k', hok, .inr ⟨hnone, ?_, ?_, ?_, ?_⟩, hstarts.held, hstarts.common,
      hstarts.sysStructTop, ?_, ?_, ?_, hstarts.other⟩
    · rw [← hk]
    · rw [← hk]
    all_goals rw [htask]
    · exact TCB.setState_mapid _ _
    · exact TCB.setState_ttba _ _
    · exact TCB.setState_prev _ _
    · exact TCB.setState_next _ _
    · exact TCB.setState_context _ _

/-! ## A task in slot 5 -/

/-- The blocks for a TCB and for its context, one after the other in the heap of four cores. -/
def tcbBlock : Word := 0x22000008
def contextBlock : Word := 0x22000030

/-- RAM with the vectors in place and the header of the context. -/
def vectorsRam (a : Word) : Word :=
  if a = contextBlock - HEAP_UNIT_SIZE + 4 then mallocUnits TaskRam.SIZEOF_CONTEXT
  else Reset.handedOver.mem (a + Reset.startBase)

lemma vectorsRam_vectors : Reset.VectorsAt vectorsRam 0 := ⟨by decide, by decide⟩

lemma vectorsRam_header : size vectorsRam (contextBlock - HEAP_UNIT_SIZE)
    = mallocUnits TaskRam.SIZEOF_CONTEXT := by
  rw [size, vectorsRam, if_pos rfl]

/-- The kernel at boot with only slot 5 free, and the TCB at 64 as the head of a queue. -/
def oneHead : LifeState :=
  ({ atBoot with
    smpTskAlcMap := onlyFive
    tcb := fun _ => ⟨0, 0, 0, 0, 0, 64, 64, NULL⟩
    mem := vectorsRam }, fun _ => [])

lemma oneHead_initial : LifeInitial {64} oneHead := by
  have hpm : isValidPm atBoot.common.pm = true := by decide
  refine ⟨⟨TTBA_BASE, rfl⟩, hpm, rfl, vectorsRam_vectors, fun head hhead => ?_, rfl⟩
  rw [Set.mem_singleton_iff.mp hhead]
  exact ⟨rfl, rfl⟩

/-- A `kfree` that only cuts the block off. -/
def cutOff (ap : Word) (k : Kernel) : Option Kernel :=
  some (withMem (setPtr k.mem (ap - HEAP_UNIT_SIZE) NULL) k)

lemma cutOff_freesInHeap : FreesInHeap cutOff := by
  refine fun ap k hblock => ⟨_, rfl, fun a ha => ?_⟩
  apply Memory.write_of_ne
  rintro rfl
  exact ha hblock.1

/-- The kernel on core 0 after `create_task` has made a task, with the queue. -/
def created : LifeState :=
  let k := initTask 4 0 tcbBlock contextBlock (oneHead.1.onCore 0)
  ({ k with tcb := enqueue k.tcb 64 tcbBlock }, Function.update (fun _ => []) 64 [tcbBlock])

lemma created_step (kfree : Word → Kernel → Option Kernel) : LifeStep kfree {64} oneHead
    (0, .createTask (some fun _ => 64) 4 0 .smpQueueLock tcbBlock contextBlock) created := by
  have hfunc : (4 : Word) ≠ NULL := by decide
  have hok : createTask (some fun _ => 64) 4 0 .smpQueueLock tcbBlock contextBlock
      (oneHead.1.onCore 0) = .ok () created.1 := by
    rw [createTask_some _ hfunc]
    exact enqueueTask_ok (by decide) rfl tcbBlock
  have hentry : getSysStructInfo 0 oneHead.1.common.pm = some 4 := by
    show getSysStructInfo 0 atBoot.common.pm = some 4
    decide
  have hheap : ∀ a : Word, 0x22000000 ≤ a ∧ a ≤ 0x23FFFFFF → HeapRam oneHead.1 a :=
    fun a ha => ⟨0, by decide, 4, hentry, ha⟩
  refine .call (by decide) ?_ hok
  rintro th heq
  obtain rfl := Option.some.inj heq
  refine ⟨Set.mem_singleton _, ?_, ⟨hheap _ (by decide), hheap _ (by decide)⟩,
    ⟨hheap _ (by decide), hheap _ (by decide)⟩, by decide, vectorsRam_header⟩
  rintro ⟨head, hhead, hmem⟩
  rw [Set.mem_singleton_iff.mp hhead] at hmem
  exact absurd (List.mem_singleton.mp hmem) (by decide)

lemma created_bare :
    bare (created.1.tcb tcbBlock) = ⟨TASK_STATE_READY, 0, 0, 0, 0, NULL, NULL, contextBlock⟩ := by
  have hbare := enqueue_bare (initTask 4 0 tcbBlock contextBlock (oneHead.1.onCore 0)).tcb
    64 tcbBlock tcbBlock
  rw [initTask_tcb_self] at hbare
  exact hbare

lemma created_queued : Rings.Queued {64} created.2 tcbBlock :=
  ⟨64, Set.mem_singleton _, List.mem_singleton_self tcbBlock⟩

/-- The task is created and started. -/
def createAndStart : List (Word × TaskCall) :=
  [(0, .createTask (some fun _ => 64) 4 0 .smpQueueLock tcbBlock contextBlock),
    (0, .startTask tcbBlock .smpQueueLock)]

/-- The task gets slot 5.  `kfree` is what makes `destroy_task` touch more than is its own. -/
theorem destroy_touches_own_iff_slot5 : ∃ s',
    (∀ fuel, Run (LifeStep (kfree fuel) {64}) oneHead createAndStart s' ∧
      ¬ DestroyMeets (kfree fuel) {64} s' 0 tcbBlock) ∧
    Run (LifeStep cutOff {64}) oneHead createAndStart s' ∧
      DestroyMeets cutOff {64} s' 0 tcbBlock := by
  have hj : getSysStructInfo 0 created.1.common.pm = some 4 := by decide
  have hone : ∀ slot, FreeSlot (created.1.onCore 0) (created.1.sysStructTop 4) slot →
      slot = 5 := by
    intro slot hslot
    by_contra hne
    have hstate : (onlyFive slot).state = INIT_MAP := hslot.2
    rw [onlyFive, if_neg hne] at hstate
    exact absurd (show RUNNING_MAP = INIT_MAP from hstate) (by decide)
  obtain ⟨k₂, -, hstarts⟩ : ∃ k', startTask tcbBlock .smpQueueLock (created.1.onCore 0)
      = .ok () k' ∧ StartsOne (created.1.onCore 0) tcbBlock (created.1.sysStructTop 4) k' :=
    startTask_startsOne (show created.1.sysStructTop = initSysinfos TTBA_BASE from rfl)
      (show created.1.held .smpQueueLock = false from rfl) hj
      fun slot slot' hslot hslot' => (hone slot hslot).trans (hone slot' hslot').symm
  have hstart : ∀ kfree, LifeStep kfree {64} created (0, .startTask tcbBlock .smpQueueLock)
      (k₂, created.2) := fun kfree => .start (by decide) created_queued hj hstarts
  have hrun : ∀ kfree, Run (LifeStep kfree {64}) oneHead createAndStart (k₂, created.2) :=
    fun kfree => (Run.single (created_step kfree)).snoc (hstart kfree)
  have hnone : ∀ c ∈ createAndStart, ∀ task, c.2 ≠ .destroyTask task := by
    simp [createAndStart]
  have hguarded : ∀ kfree (G : LifeState → Word × TaskCall → Prop),
      (∀ s c, (∀ task, c.2 ≠ .destroyTask task) → G s c) →
      Run (guarded G (LifeStep kfree {64})) oneHead createAndStart (k₂, created.2) :=
    fun kfree G hG => ((hrun kfree).guarded_of_forall hnone).mono
      fun s c s' h => ⟨hG s c h.1, h.2⟩
  obtain ⟨hnever, hiff⟩ := destroy_touches_own_iff oneHead_initial
  refine ⟨(k₂, created.2), fun fuel => ⟨hrun _, ?_⟩, hrun _, ?_⟩
  · exact hnever fuel createAndStart _
      (hguarded _ _ fun s c hc task htask => absurd htask (hc task)) 0 tcbBlock created_queued
  · refine (hiff cutOff cutOff_freesInHeap createAndStart _
      (hguarded _ _ fun s c hc task htask => absurd htask (hc task)) 0 tcbBlock
      created_queued).mpr ⟨?_, ?_⟩
    · obtain ⟨slot, hslot, hclaim⟩ | ⟨hfull, -⟩ := hstarts.slot
      · intro hzero
        have httba : (k₂.tcb tcbBlock).ttba = _ := hclaim.ttba
        rw [hone slot hslot, show (k₂.tcb tcbBlock).ttba = 0 from hzero] at httba
        exact absurd httba (by decide)
      · exact absurd ⟨show 5 < (created.1.sysStructTop 4).maxNumTaskSpace.toNat by decide, rfl⟩
          (hfull 5)
    · exact .inl (congrFun (congrArg SysCommonInfo.asidHead hstarts.common) _)

/-- A task that was not started: `destroy_task` clears the first megabyte of memory, and then
`kfree` writes over the reset vector.  With a `kfree` that keeps to the kernel heap the first
megabyte is cleared all the same. -/
theorem destroy_task_clears_low_memory :
    (∀ fuel, ¬ ∀ (heads : Set Word) (s s' : LifeState) (cs : List (Word × TaskCall)),
      LifeInitial heads s → Run (LifeStep (kfree fuel) heads) s cs s' → ∀ cpuid < 4, ∀ task,
        Rings.Queued heads s'.2 task → DestroyMeets (kfree fuel) heads s' cpuid task) ∧
    ∀ kfree, FreesInHeap kfree →
      ¬ ∀ (heads : Set Word) (s s' : LifeState) (cs : List (Word × TaskCall)),
        LifeInitial heads s → Run (LifeStep kfree heads) s cs s' → ∀ cpuid < 4, ∀ task,
          Rings.Queued heads s'.2 task → DestroyMeets kfree heads s' cpuid task := by
  have hrun : ∀ kfree, Run (LifeStep kfree {64}) oneHead _ created := fun kfree =>
    Run.single (created_step kfree)
  have hguard : DestroysOwn {64} oneHead
      (0, .createTask (some fun _ => 64) 4 0 .smpQueueLock tcbBlock contextBlock) :=
    fun _ h => TaskCall.noConfusion h
  constructor
  · intro fuel hmeets
    obtain ⟨k', hfreeing, htouch⟩ := hmeets {64} _ _ _ oneHead_initial (hrun (kfree fuel)) 0
      (by decide) tcbBlock created_queued
    have hinv := (oneHead_initial.inv {mallocUnits TaskRam.SIZEOF_CONTEXT}).step_first
      (fun _ h => TaskCall.noConfusion h) (created_step (kfree fuel))
    exact hinv.not_touchesOwn created_queued hfreeing htouch
  · -- otherwise the task would have a section
    intro kfree hkfree hmeets
    have hinv := (oneHead_initial.inv Set.univ).step_own hkfree hguard (created_step kfree)
    have hown := hinv.ownsNamed hkfree created_queued
      (hmeets {64} _ _ _ oneHead_initial (hrun kfree) 0 (by decide) tcbBlock created_queued)
    exact hown.1 (congrArg TCB.ttba created_bare)

end Kernel

end Rpi2Baremetal
