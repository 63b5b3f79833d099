import Rpi2Baremetal.Model.Task
import Rpi2Baremetal.Properties.KernelOps

/-!
# What the functions of `task.c` do

One lemma for each function and each way it can go: the state it ends in, or the one it spins
in.
-/

namespace Rpi2Baremetal

namespace Kernel

open Framework

variable {k : Kernel} {task : Word} {lock : LockWord}

lemma CallStep.of_returns {γ : Type} {legal : Kernel × γ → TaskCall → Prop}
    {next : Kernel × γ → Word × TaskCall → γ} {s : Kernel × γ} {cpuid : Word} {call : TaskCall}
    (hc : cpuid < 4) (hlegal : legal s call)
    (hk : call.run (s.1.onCore cpuid) = .ok () (s.1.after cpuid call)) :
    CallStep legal next s (cpuid, call) (afterCall next s (cpuid, call)) :=
  .returns hc hlegal hk

/-- What a call does to the state and to the ghost state. -/
lemma CallStep.cases {γ : Type} {legal : Kernel × γ → TaskCall → Prop}
    {next : Kernel × γ → Word × TaskCall → γ} {s s' : Kernel × γ} {cpuid : Word}
    {call : TaskCall} (h : CallStep legal next s (cpuid, call) s') :
    cpuid < 4 ∧ legal s call ∧ s'.1 = s.1.after cpuid call ∧
      ((∃ k', call.run (s.1.onCore cpuid) = .ok () k') ∧ s'.2 = next s (cpuid, call) ∨
        (∃ e k', call.run (s.1.onCore cpuid) = .error e k') ∧ s'.2 = s.2) := by
  cases h with
  | returns hc hlegal hk =>
      exact ⟨hc, hlegal, (lastState_ok hk).symm, .inl ⟨⟨_, hk⟩, rfl⟩⟩
  | spins hc hlegal hk =>
      exact ⟨hc, hlegal, (lastState_error hk).symm, .inr ⟨⟨_, _, hk⟩, rfl⟩⟩

/-! ## `set_user_asid` -/

section UserAsid

variable {i : Fin NUM_SYS_STRUCT} {asid : Word} {asids : List Word}

/-- The state after `set_user_asid` has given `asid` to `task`. -/
def takeAsid (task asid : Word) (k : Kernel) : Kernel :=
  let status := k.common.asidHead asid
  { k with
    common := { k.common with
      asidHead := if status = UNUSED_ASID ∨ status = FINISHED_ASID then
          Function.update k.common.asidHead asid ACTIVE_ASID
        else k.common.asidHead }
    tlbOps := if status = FINISHED_ASID then (k.prid, asid) :: k.tlbOps else k.tlbOps
    tcb := Function.update k.tcb task ((k.tcb task).setAsid asid) }

lemma userAsidLoop_held (h : k.held (.ssiLock i) = true) :
    userAsidLoop i task (asid :: asids) k = .error (.spins (.ssiLock i)) k := by
  rw [userAsidLoop, bind_error (spinReq_held h)]

lemma userAsidLoop_skip (h : k.held (.ssiLock i) = false)
    (ha : asid = RESERVED_ASID_NUM ∨ k.common.asidHead asid = ACTIVE_ASID) :
    userAsidLoop i task (asid :: asids) k = userAsidLoop i task asids k := by
  simp [userAsidLoop, spinReq, spinRel, readAsidHead, bind, EStateM.bind, h, ha, update_held h]

lemma userAsidLoop_take (h : k.held (.ssiLock i) = false) (hreserved : asid ≠ RESERVED_ASID_NUM)
    (hactive : k.common.asidHead asid ≠ ACTIVE_ASID) :
    userAsidLoop i task (asid :: asids) k = .ok asid (takeAsid task asid k) := by
  have hua : UNUSED_ASID ≠ ACTIVE_ASID := by decide
  have huf : UNUSED_ASID ≠ FINISHED_ASID := by decide
  have hfa : FINISHED_ASID ≠ ACTIVE_ASID := by decide
  by_cases hunused : k.common.asidHead asid = UNUSED_ASID
  · simp [userAsidLoop, spinReq, spinRel, readAsidHead, writeAsidHead, modifyCommon, modifyTcb,
      takeAsid, bind, EStateM.bind, pure, EStateM.pure, h, hreserved, hunused, hua, huf,
      update_held h]
  · by_cases hfinished : k.common.asidHead asid = FINISHED_ASID
    · simp [userAsidLoop, spinReq, spinRel, readAsidHead, writeAsidHead, modifyCommon,
        invalidateTlbs, modifyTcb, takeAsid, bind, EStateM.bind, pure, EStateM.pure, h, hreserved,
        hfinished, hfa, huf.symm, update_held h]
    · simp [userAsidLoop, spinReq, spinRel, readAsidHead, modifyTcb, takeAsid, bind, EStateM.bind,
        pure, EStateM.pure, h, hreserved, hactive, hunused, hfinished, update_held h]

/-- The loop changes nothing, or gives the task an ASID that is not in use. -/
lemma userAsidLoop_cases (i : Fin NUM_SYS_STRUCT) (task : Word) (asids : List Word) (k : Kernel) :
    (∃ e, userAsidLoop i task asids k = .error e k) ∨
    userAsidLoop i task asids k = .ok ERROR_ASID_NUM k ∨
    ∃ asid ∈ asids, asid ≠ RESERVED_ASID_NUM ∧ k.common.asidHead asid ≠ ACTIVE_ASID ∧
      userAsidLoop i task asids k = .ok asid (takeAsid task asid k) := by
  induction asids with
  | nil => exact .inr (.inl rfl)
  | cons asid asids ih =>
      cases h : k.held (.ssiLock i) with
      | true => exact .inl ⟨_, userAsidLoop_held h⟩
      | false =>
          by_cases ha : asid = RESERVED_ASID_NUM ∨ k.common.asidHead asid = ACTIVE_ASID
          · rw [userAsidLoop_skip h ha]
            refine ih.imp_right (Or.imp_right ?_)
            rintro ⟨a, hmem, hk⟩
            exact ⟨a, List.mem_cons_of_mem _ hmem, hk⟩
          · obtain ⟨hreserved, hactive⟩ := not_or.mp ha
            exact .inr (.inr ⟨asid, List.mem_cons_self, hreserved, hactive,
              userAsidLoop_take h hreserved hactive⟩)

lemma mem_asidsFrom {first limit : Word} :
    asid ∈ asidsFrom first limit ↔ first ≤ asid ∧ asid < limit := by
  rw [asidsFrom, List.mem_map, BitVec.le_def, BitVec.lt_def]
  constructor
  · rintro ⟨n, hn, rfl⟩
    rw [List.mem_range'_1] at hn
    have hlimit := limit.isLt
    rw [BitVec.toNat_ofNat, Nat.mod_eq_of_lt (by omega)]
    omega
  · rintro ⟨hfirst, hlimit⟩
    refine ⟨asid.toNat, List.mem_range'_1.mpr (by omega), ?_⟩
    exact BitVec.ofNat_toNat 32 asid

/-- The first ASID of an area that is neither reserved nor the kernel's. -/
def firstUserAsid (ssi : SysStructInfo) : Word :=
  if ssi.asidArea.bottom = RESERVED_ASID_NUM then ssi.asidArea.bottom + 2
  else ssi.asidArea.bottom + 1

lemma setUserAsid_ok {cpuid pm : Word} (hi : getSysStructInfo cpuid pm = some i)
    (h0 : (k.tcb task).asid = 0) :
    setUserAsid task cpuid pm k = userAsidLoop i task
      (asidsFrom (firstUserAsid (k.sysStructTop i)) (k.sysStructTop i).asidArea.limit) k := by
  simp [setUserAsid, readTcb, ssiIndex, readSsi, firstUserAsid, hi, bind, EStateM.bind, pure,
    EStateM.pure, h0]

/-- `set_user_asid` changes nothing, or gives the task an ASID that is not in use. -/
lemma setUserAsid_cases (task cpuid pm : Word) (k : Kernel) :
    (∃ e, setUserAsid task cpuid pm k = .error e k) ∨
    (∃ r, (r = ERROR_ASID_NUM ∨ (k.tcb task).asid ≠ 0 ∧ r = (k.tcb task).asid) ∧
      setUserAsid task cpuid pm k = .ok r k) ∨
    ∃ asid, (k.tcb task).asid = 0 ∧ asid ≠ RESERVED_ASID_NUM ∧
      k.common.asidHead asid ≠ ACTIVE_ASID ∧
      setUserAsid task cpuid pm k = .ok asid (takeAsid task asid k) := by
  by_cases h0 : (k.tcb task).asid = 0
  · cases hi : getSysStructInfo cpuid pm with
    | none =>
        refine .inl ⟨.outOfBounds, ?_⟩
        rw [setUserAsid, bind_ok (show readTcb task k = .ok (k.tcb task) k from rfl),
          if_neg (not_not.mpr h0)]
        exact bind_error (ssiIndex_none hi)
    | some i =>
        rw [setUserAsid_ok hi h0]
        obtain herror | hnone | ⟨asid, -, hreserved, hactive, hk⟩ := userAsidLoop_cases i task _ k
        · exact .inl herror
        · exact .inr (.inl ⟨_, .inl rfl, hnone⟩)
        · exact .inr (.inr ⟨asid, h0, hreserved, hactive, hk⟩)
  · refine .inr (.inl ⟨(k.tcb task).asid, .inr ⟨h0, rfl⟩, ?_⟩)
    rw [setUserAsid, bind_ok (show readTcb task k = .ok (k.tcb task) k from rfl), if_pos h0]
    rfl

/-- The ASID that a task is given is one of the area. -/
lemma setUserAsid_mem {cpuid pm : Word} (hi : getSysStructInfo cpuid pm = some i)
    (h0 : (k.tcb task).asid = 0)
    (hok : setUserAsid task cpuid pm k = .ok asid (takeAsid task asid k)) :
    firstUserAsid (k.sysStructTop i) ≤ asid ∧ asid < (k.sysStructTop i).asidArea.limit := by
  rw [setUserAsid_ok hi h0] at hok
  obtain ⟨e, hk⟩ | hk | ⟨a, hmem, -, -, hk⟩ := userAsidLoop_cases i task
    (asidsFrom (firstUserAsid (k.sysStructTop i)) (k.sysStructTop i).asidArea.limit) k
  · cases hok.symm.trans hk
  · -- a task that fails to get an ASID keeps the 0 it has
    obtain ⟨hasid, hsame⟩ := EStateM.Result.ok.inj (hok.symm.trans hk)
    have htask : ((takeAsid task asid k).tcb task).asid = asid := by simp [takeAsid]
    rw [hsame, h0, hasid] at htask
    exact absurd htask (by decide)
  · obtain ⟨rfl, -⟩ := EStateM.Result.ok.inj (hok.symm.trans hk)
    exact mem_asidsFrom.mp hmem

end UserAsid

/-! ## `end_task` and `destroy_task` -/

lemma endTask_ok (task : Word) (k : Kernel) :
    endTask task k = .ok () { k with
      common := { k.common with
        asidHead := Function.update k.common.asidHead (k.tcb task).asid FINISHED_ASID }
      smpTskAlcMap := Function.update k.smpTskAlcMap (k.tcb task).mapid.toNat
        ((k.smpTskAlcMap (k.tcb task).mapid.toNat).setState WAIT_INIT_MAP)
      mapAccesses := (k.tcb task).mapid.toNat :: k.mapAccesses
      tcb := Function.update k.tcb task ((k.tcb task).setState TASK_STATE_FINISHED) } := rfl

/-- The TCBs after taking `task` out of its queue. -/
def unlink (tcb : Word → TCB) (task : Word) : Word → TCB :=
  let tcb' := Function.update tcb (tcb task).prev ((tcb (tcb task).prev).setNext (tcb task).next)
  Function.update tcb' (tcb' task).next ((tcb' (tcb' task).next).setPrev (tcb' task).prev)

/-- The state in which `destroy_task` asks for the queue lock. -/
def releaseAsid (task : Word) (k : Kernel) : Kernel := { k with
  tlbOps := (k.prid, (k.tcb task).asid) :: k.tlbOps
  common := { k.common with
    asidHead := Function.update k.common.asidHead (k.tcb task).asid UNUSED_ASID }
  mem := k.mem.writeAll ((k.tcb task).ttba + ·) (fun _ => 0) (spaceOffsets (k.tcb task).ttba) }

lemma destroyTask_held (task : Word) (h : k.held .smpQueueLock = true) :
    destroyTask task k = .error (.spins .smpQueueLock) (releaseAsid task k) := by
  simp [destroyTask, releaseAsid, readTcb, invalidateTlbs, writeAsidHead, modifyCommon, clearSpace,
    modifyMem, spinReq, bind, EStateM.bind, h]

lemma destroyTask_free (task : Word) (h : k.held .smpQueueLock = false) :
    destroyTask task k = .ok () { releaseAsid task k with
      smpTskAlcMap := Function.update k.smpTskAlcMap (k.tcb task).mapid.toNat ⟨INIT_MAP, NULL⟩
      mapAccesses := (k.tcb task).mapid.toNat :: (k.tcb task).mapid.toNat :: k.mapAccesses
      tcb := unlink k.tcb task
      freed := task :: (unlink k.tcb task task).context :: k.freed } := by
  simp [destroyTask, releaseAsid, readTcb, invalidateTlbs, writeAsidHead, modifyCommon, clearSpace,
    modifyMem, spinReq, spinRel, modifyMap, TaskMap.setState, TaskMap.setTask, modifyTcb,
    kfreeBlock, unlink, bind, EStateM.bind, h]

/-- When a TCB is replaced, a field that is as before for it is so for all of them. -/
lemma update_field {β : Type} (field : TCB → β) (tcb : Word → TCB) {task : Word} {t : TCB}
    (h : field t = field (tcb task)) (a : Word) :
    field (Function.update tcb task t a) = field (tcb a) := by
  by_cases ha : a = task
  · rw [ha, Function.update_self, h]
  · rw [Function.update_of_ne ha]

/-- Taking a task out of its queue changes links only. -/
lemma unlink_field {β : Type} (f : TCB → β) (hprev : ∀ v t, f (t.setPrev v) = f t)
    (hnext : ∀ v t, f (t.setNext v) = f t) (tcb : Word → TCB) (task a : Word) :
    f (unlink tcb task a) = f (tcb a) := by
  rw [unlink, update_field f _ (hprev _ _), update_field f _ (hnext _ _)]

/-- A TCB without its links. -/
def bare (t : TCB) : TCB := { t with prev := NULL, next := NULL }

lemma mapid_of_bare {t t' : TCB} (h : bare t = bare t') : t.mapid = t'.mapid := by
  have hmapid := congrArg TCB.mapid h
  exact hmapid

lemma ttba_of_bare {t t' : TCB} (h : bare t = bare t') : t.ttba = t'.ttba := by
  have httba := congrArg TCB.ttba h
  exact httba

lemma context_of_bare {t t' : TCB} (h : bare t = bare t') : t.context = t'.context := by
  have hcontext := congrArg TCB.context h
  exact hcontext

lemma unlink_bare (tcb : Word → TCB) (task a : Word) :
    bare (unlink tcb task a) = bare (tcb a) :=
  unlink_field bare (fun _ _ => rfl) (fun _ _ => rfl) tcb task a

@[simp] lemma unlink_state (tcb : Word → TCB) (task a : Word) :
    (unlink tcb task a).state = (tcb a).state :=
  unlink_field TCB.state (fun _ _ => rfl) (fun _ _ => rfl) tcb task a

@[simp] lemma unlink_mapid (tcb : Word → TCB) (task a : Word) :
    (unlink tcb task a).mapid = (tcb a).mapid :=
  unlink_field TCB.mapid (fun _ _ => rfl) (fun _ _ => rfl) tcb task a

@[simp] lemma unlink_ttba (tcb : Word → TCB) (task a : Word) :
    (unlink tcb task a).ttba = (tcb a).ttba :=
  unlink_field TCB.ttba (fun _ _ => rfl) (fun _ _ => rfl) tcb task a

@[simp] lemma unlink_asid (tcb : Word → TCB) (task a : Word) :
    (unlink tcb task a).asid = (tcb a).asid :=
  unlink_field TCB.asid (fun _ _ => rfl) (fun _ _ => rfl) tcb task a

/-- What `destroy_task` does to the tasks and the ASIDs, whether it gets the queue lock or
not. -/
lemma lastState_destroyTask (task : Word) (k : Kernel) :
    (∀ t, ((lastState (destroyTask task) k).tcb t).state = (k.tcb t).state) ∧
    (∀ t, ((lastState (destroyTask task) k).tcb t).ttba = (k.tcb t).ttba) ∧
    (∀ t, ((lastState (destroyTask task) k).tcb t).asid = (k.tcb t).asid) ∧
    (lastState (destroyTask task) k).common.asidHead
      = Function.update k.common.asidHead (k.tcb task).asid UNUSED_ASID ∧
    (lastState (destroyTask task) k).sysStructTop = k.sysStructTop := by
  cases hheld : k.held .smpQueueLock with
  | true =>
      rw [lastState_error (destroyTask_held task hheld)]
      exact ⟨fun _ => rfl, fun _ => rfl, fun _ => rfl, rfl, rfl⟩
  | false =>
      rw [lastState_ok (destroyTask_free task hheld)]
      exact ⟨unlink_state k.tcb task, unlink_ttba k.tcb task, unlink_asid k.tcb task, rfl, rfl⟩

/-- What `destroy_task` does to the map: it frees the slot the task names, once it has the queue
lock. -/
lemma lastState_destroyTask_map (task : Word) (k : Kernel) :
    (∀ t, ((lastState (destroyTask task) k).tcb t).mapid = (k.tcb t).mapid) ∧
    (lastState (destroyTask task) k).common.pm = k.common.pm ∧
    (∀ i, i ≠ (k.tcb task).mapid.toNat →
      (lastState (destroyTask task) k).smpTskAlcMap i = k.smpTskAlcMap i) ∧
    (k.held .smpQueueLock = true →
      (lastState (destroyTask task) k).smpTskAlcMap = k.smpTskAlcMap) := by
  cases hheld : k.held .smpQueueLock with
  | true =>
      rw [lastState_error (destroyTask_held task hheld)]
      exact ⟨fun _ => rfl, rfl, fun _ _ => rfl, fun _ => rfl⟩
  | false =>
      rw [lastState_ok (destroyTask_free task hheld)]
      exact ⟨fun t => mapid_of_bare (unlink_bare k.tcb task t), rfl,
        fun i hi => Function.update_of_ne hi _ _, fun h => absurd h Bool.false_ne_true⟩

/-! ## `create_task` -/

/-- Two states that differ in locks and in the links of TCBs only. -/
structure SameTasks (k k' : Kernel) : Prop where
  common : k'.common = k.common
  sysStructTop : k'.sysStructTop = k.sysStructTop
  smpTskAlcMap : k'.smpTskAlcMap = k.smpTskAlcMap
  mapEntries : k'.mapEntries = k.mapEntries
  mapAccesses : k'.mapAccesses = k.mapAccesses
  state : ∀ t, (k'.tcb t).state = (k.tcb t).state
  mapid : ∀ t, (k'.tcb t).mapid = (k.tcb t).mapid
  ttba : ∀ t, (k'.tcb t).ttba = (k.tcb t).ttba

lemma SameTasks.refl (k : Kernel) : SameTasks k k :=
  ⟨rfl, rfl, rfl, rfl, rfl, fun _ => rfl, fun _ => rfl, fun _ => rfl⟩

/-- Writing a link of a TCB. -/
lemma SameTasks.setLink {k₀ : Kernel} (h : SameTasks k₀ k) (t : Word) {f : TCB → TCB}
    (hstate : (f (k.tcb t)).state = (k.tcb t).state)
    (hmapid : (f (k.tcb t)).mapid = (k.tcb t).mapid)
    (httba : (f (k.tcb t)).ttba = (k.tcb t).ttba) :
    SameTasks k₀ { k with tcb := Function.update k.tcb t (f (k.tcb t)) } := by
  refine ⟨h.common, h.sysStructTop, h.smpTskAlcMap, h.mapEntries, h.mapAccesses, ?_, ?_, ?_⟩
  · exact fun a => (update_field TCB.state k.tcb hstate a).trans (h.state a)
  · exact fun a => (update_field TCB.mapid k.tcb hmapid a).trans (h.mapid a)
  · exact fun a => (update_field TCB.ttba k.tcb httba a).trans (h.ttba a)

lemma triple_setPrev (k₀ : Kernel) (t v : Word) :
    Triple (SameTasks k₀) (modifyTcb t (.setPrev v)) (fun _ => SameTasks k₀) (SameTasks k₀) :=
  fun _ h => h.setLink t rfl rfl rfl

lemma triple_setNext (k₀ : Kernel) (t v : Word) :
    Triple (SameTasks k₀) (modifyTcb t (.setNext v)) (fun _ => SameTasks k₀) (SameTasks k₀) :=
  fun _ h => h.setLink t rfl rfl rfl

lemma triple_spinReq (k₀ : Kernel) (lock : LockWord) :
    Triple (SameTasks k₀) (spinReq lock) (fun _ => SameTasks k₀) (SameTasks k₀) := by
  intro k h
  cases hheld : k.held lock with
  | true =>
      rw [spinReq_held hheld]
      exact h
  | false =>
      rw [spinReq_free hheld]
      exact ⟨h.1, h.2, h.3, h.4, h.5, h.6, h.7, h.8⟩

lemma triple_spinRel (k₀ : Kernel) (lock : LockWord) :
    Triple (SameTasks k₀) (spinRel lock) (fun _ => SameTasks k₀) (SameTasks k₀) := by
  intro k h
  cases hheld : k.held lock with
  | true =>
      rw [spinRel_held hheld]
      exact ⟨h.1, h.2, h.3, h.4, h.5, h.6, h.7, h.8⟩
  | false =>
      rw [spinRel, hheld]
      exact h

/-- The state in which `create_task` asks for the lock of the queue. -/
def initTask (func pri task context : Word) (k : Kernel) : Kernel := { k with
  context := Function.update k.context context ⟨0, func⟩
  tcb := Function.update k.tcb task ⟨TASK_STATE_READY, pri, 0, 0, 0, NULL, NULL, context⟩ }

@[simp] lemma initTask_tcb_self (func pri task context : Word) (k : Kernel) :
    (initTask func pri task context k).tcb task
      = ⟨TASK_STATE_READY, pri, 0, 0, 0, NULL, NULL, context⟩ :=
  Function.update_self ..

lemma initTask_tcb_of_ne (func pri context : Word) (k : Kernel) {t : Word} (h : t ≠ task) :
    (initTask func pri task context k).tcb t = k.tcb t :=
  Function.update_of_ne h ..

lemma triple_enqueueTask (k₀ : Kernel) (taskHead : Word → Word) (pri : Word) (lock : LockWord)
    (task : Word) :
    Triple (SameTasks k₀) (enqueueTask taskHead pri lock task) (fun _ => SameTasks k₀)
      (SameTasks k₀) := by
  refine (triple_spinReq k₀ lock).bind fun _ => ?_
  refine Triple.bind (Q := fun _ => SameTasks k₀) ?_ fun head => ?_
  · exact .ite (fun _ => .pure _ fun _ h => h) fun _ => .throw _ fun _ h => h
  refine Triple.bind (Q := fun _ => SameTasks k₀) (.ok (fun _ => rfl) fun _ h => h) fun t => ?_
  refine .ite (fun _ => ?_) fun _ => ?_
  · exact (triple_setPrev k₀ _ _).bind fun _ => (triple_setNext k₀ _ _).bind fun _ =>
      (triple_setPrev k₀ _ _).bind fun _ => (triple_setNext k₀ _ _).bind fun _ =>
        triple_spinRel k₀ lock
  · exact (triple_setNext k₀ _ _).bind fun _ => (triple_setPrev k₀ _ _).bind fun _ =>
      (triple_setNext k₀ _ _).bind fun _ => (triple_setPrev k₀ _ _).bind fun _ =>
        triple_spinRel k₀ lock

/-- Writing one TCB. -/
def setLink (f : TCB → TCB) (a : Word) (tcb : Word → TCB) : Word → TCB :=
  Function.update tcb a (f (tcb a))

/-- The TCBs after putting `task` at the end of the queue that begins with `head`. -/
def enqueue (tcb : Word → TCB) (head task : Word) : Word → TCB :=
  let last := (tcb head).prev
  if head = last then
    setLink (.setNext head) task (setLink (.setPrev head) task
      (setLink (.setNext task) head (setLink (.setPrev task) head tcb)))
  else
    setLink (.setPrev task) head (setLink (.setNext head) task
      (setLink (.setPrev last) task (setLink (.setNext task) last tcb)))

lemma enqueueTask_ok {taskHead : Word → Word} {pri : Word} (hpri : pri < SMP_MAX_PRI)
    (h : k.held lock = false) (task : Word) :
    enqueueTask taskHead pri lock task k
      = .ok () { k with tcb := enqueue k.tcb (taskHead pri) task } := by
  by_cases hlast : taskHead pri = (k.tcb (taskHead pri)).prev
  · simp [enqueueTask, enqueue, spinReq, readTaskHead, readTcb, modifyTcb, setLink, spinRel, bind,
      EStateM.bind, pure, EStateM.pure, h, hpri, ← hlast, update_held h]
  · simp [enqueueTask, enqueue, spinReq, readTaskHead, readTcb, modifyTcb, setLink, spinRel, bind,
      EStateM.bind, pure, EStateM.pure, h, hpri, hlast, update_held h]

/-- `task_head` is read past its end. -/
lemma enqueueTask_outOfBounds {taskHead : Word → Word} {pri : Word} (hpri : ¬ pri < SMP_MAX_PRI)
    (h : k.held lock = false) (task : Word) :
    enqueueTask taskHead pri lock task k
      = .error .outOfBounds { k with held := Function.update k.held lock true } := by
  have hthrow : readTaskHead taskHead pri = throw .outOfBounds := if_neg hpri
  rw [enqueueTask, bind_ok (spinReq_free h), hthrow]
  rfl

lemma createTask_some (taskHead : Word → Word) {func : Word} (hfunc : func ≠ NULL) (pri : Word)
    (lock : LockWord) (task context : Word) (k : Kernel) :
    createTask (some taskHead) func pri lock task context k
      = enqueueTask taskHead pri lock task (initTask func pri task context k) := by
  rw [createTask, if_neg hfunc]
  rfl

/-- A call of `create_task` that makes a task, whether it gets the lock or not. -/
lemma createTask_sameTasks (taskHead : Word → Word) {func : Word} (hfunc : func ≠ NULL)
    (pri : Word) (lock : LockWord) (task context : Word) (k : Kernel) :
    SameTasks (initTask func pri task context k)
      (lastState (createTask (some taskHead) func pri lock task context) k) := by
  rw [lastState, createTask_some taskHead hfunc]
  exact (triple_enqueueTask _ taskHead pri lock task).lastState (.refl _)

/-! ## `start_task` -/

section Start

variable {ssi : SysStructInfo} {i : ℕ}

/-- The TCB of a task that has been given a slot. -/
def place (ssi : SysStructInfo) (slot : ℕ) (t : TCB) : TCB :=
  (t.setMapid (.ofNat 32 slot)).setTtba
    (.ofNat 32 slot * Mmu.SECTION_SIZE + ssi.userRamArea.bottom)

/-- The state after `start_task` has given slot `i` to `task`. -/
def claimSlot (task : Word) (ssi : SysStructInfo) (i : ℕ) (k : Kernel) : Kernel :=
  let t := place ssi i (k.tcb task)
  { k with
    smpTskAlcMap := Function.update k.smpTskAlcMap i ⟨RUNNING_MAP, task⟩
    mapAccesses := i :: i :: i :: k.mapAccesses
    tcb := Function.update k.tcb task t
    mem := (Mmu.creUsrTbl 4096 t.ttba k.mem).getD k.mem }

lemma startTaskPass_held (h : k.held lock = true) :
    startTaskPass task lock ssi i k = .error (.spins lock) k := by
  rw [startTaskPass, bind_error (spinReq_held h)]

lemma startTaskPass_used (h : k.held lock = false) (hi : (k.smpTskAlcMap i).state ≠ INIT_MAP) :
    startTaskPass task lock ssi i k = .ok () { k with mapAccesses := i :: k.mapAccesses } := by
  simp [startTaskPass, spinReq, readMap, spinRel, bind, EStateM.bind, h, hi, update_held h]

lemma startTaskPass_free (h : k.held lock = false) (hi : (k.smpTskAlcMap i).state = INIT_MAP) :
    startTaskPass task lock ssi i k = .ok () (claimSlot task ssi i k) := by
  simp [startTaskPass, spinReq, readMap, modifyMap, modifyTcb, readTcb, creUsrTbl, modifyMem,
    spinRel, claimSlot, place, TaskMap.setState, TaskMap.setTask, bind, EStateM.bind, h, hi,
    update_held h]

/-- The last free slot of a list. -/
def lastFree (map : ℕ → TaskMap) (l : List ℕ) : Option ℕ :=
  (l.filter fun i => (map i).state = INIT_MAP).getLast?

lemma lastFree_append_used {map : ℕ → TaskMap} (hi : (map i).state ≠ INIT_MAP) (l : List ℕ) :
    lastFree map (l ++ [i]) = lastFree map l := by
  simp [lastFree, hi]

lemma lastFree_append_free {map : ℕ → TaskMap} (hi : (map i).state = INIT_MAP) (l : List ℕ) :
    lastFree map (l ++ [i]) = some i := by
  simp [lastFree, hi]

/-- A task with the slot it was given last. -/
def placeLast (ssi : SysStructInfo) (slot : Option ℕ) (t : TCB) : TCB :=
  slot.elim t fun slot => place ssi slot t

/-- The scan of `start_task` for `task` has come from `k` to `k'` over the slots `done`: it has
claimed the free ones, and the task has the last of them. -/
structure Scanned (task : Word) (ssi : SysStructInfo) (k : Kernel) (done : List ℕ)
    (k' : Kernel) : Prop where
  held : k'.held = k.held
  common : k'.common = k.common
  sysStructTop : k'.sysStructTop = k.sysStructTop
  mapEntries : k'.mapEntries = k.mapEntries
  tcb : k'.tcb = Function.update k.tcb task
    (placeLast ssi (lastFree k.smpTskAlcMap done) (k.tcb task))
  smpTskAlcMap : ∀ i, k'.smpTskAlcMap i =
    if i ∈ done ∧ (k.smpTskAlcMap i).state = INIT_MAP then ⟨RUNNING_MAP, task⟩
    else k.smpTskAlcMap i
  mapAccesses : ∀ i ∈ done, i ∈ k'.mapAccesses

lemma Scanned.refl (task : Word) (ssi : SysStructInfo) (k : Kernel) : Scanned task ssi k [] k :=
  ⟨rfl, rfl, rfl, rfl, (Function.update_eq_self task k.tcb).symm, fun i => by simp,
    fun _ h => absurd h List.not_mem_nil⟩

lemma Scanned.pass {k' : Kernel} {done : List ℕ} (h : Scanned task ssi k done k')
    (hheld : k.held lock = false) (hi : i ∉ done) :
    ∃ k'', startTaskPass task lock ssi i k' = .ok () k'' ∧
      Scanned task ssi k (done ++ [i]) k'' := by
  have hheld' : k'.held lock = false := h.held ▸ hheld
  have hmap : k'.smpTskAlcMap i = k.smpTskAlcMap i := by
    rw [h.smpTskAlcMap, if_neg fun hmem => hi hmem.1]
  have hmem : ∀ j, j ≠ i → (j ∈ done ++ [i] ↔ j ∈ done) := by
    intro j hj
    simp [hj]
  have haccess : ∀ j ∈ done ++ [i], j = i ∨ j ∈ k'.mapAccesses := by
    intro j hj
    exact (List.mem_append.mp hj).symm.imp List.mem_singleton.mp (h.mapAccesses j)
  by_cases hfree : (k.smpTskAlcMap i).state = INIT_MAP
  · refine ⟨_, startTaskPass_free hheld' (hmap ▸ hfree), h.held, h.common, h.sysStructTop,
      h.mapEntries, ?_, ?_, fun j hj => ?_⟩
    · show Function.update k'.tcb task (place ssi i (k'.tcb task)) = _
      rw [lastFree_append_free hfree, h.tcb, Function.update_self, Function.update_idem]
      cases lastFree k.smpTskAlcMap done <;> rfl
    · intro j
      show Function.update k'.smpTskAlcMap i _ j = _
      by_cases hj : j = i
      · rw [hj, Function.update_self, if_pos ⟨by simp, hfree⟩]
      · rw [Function.update_of_ne hj, h.smpTskAlcMap]
        simp only [hmem j hj]
    · show j ∈ i :: i :: i :: k'.mapAccesses
      rcases haccess j hj with rfl | hj'
      · exact List.mem_cons_self
      · simp [hj']
  · refine ⟨_, startTaskPass_used hheld' (hmap ▸ hfree), h.held, h.common, h.sysStructTop,
      h.mapEntries, ?_, ?_, fun j hj => ?_⟩
    · rw [lastFree_append_used hfree]
      exact h.tcb
    · intro j
      show k'.smpTskAlcMap j = _
      by_cases hj : j = i
      · rw [hj, hmap, if_neg fun hmem => hfree hmem.2]
      · rw [h.smpTskAlcMap]
        simp only [hmem j hj]
    · exact List.mem_cons.mpr (haccess j hj)

lemma Scanned.forM (task : Word) (ssi : SysStructInfo) (hheld : k.held lock = false) {l : List ℕ}
    (hl : l.Nodup) :
    ∃ k', forM l (startTaskPass task lock ssi) k = .ok () k' ∧ Scanned task ssi k l k' :=
  forM_returns_of_nodup hl (Scanned.refl task ssi k) fun _ _ hi _ h => h.pass hheld hi

/-- `start_task` once it has looked up its `SysStructInfo`. -/
lemma startTask_eq {j : Fin NUM_SYS_STRUCT} (hj : getSysStructInfo k.prid k.common.pm = some j) :
    startTask task lock k = (do
      forM (List.range (k.sysStructTop j).maxNumTaskSpace.toNat)
        (startTaskPass task lock (k.sysStructTop j))
      modifyTcb task (.setState TASK_STATE_RUNNING)) k := by
  rw [startTask, bind_ok (show getPrid k = .ok k.prid k from rfl),
    bind_ok (show getPm k = .ok k.common.pm k from rfl), bind_ok (ssiIndex_ok hj)]
  rfl

/-- `start_task` has started `task` under entry `j`: it has claimed every free slot, and the task
has the last of them. -/
structure Starts (k : Kernel) (task : Word) (j : Fin NUM_SYS_STRUCT) (k' : Kernel) : Prop where
  held : k'.held = k.held
  common : k'.common = k.common
  sysStructTop : k'.sysStructTop = k.sysStructTop
  other : ∀ t, t ≠ task → k'.tcb t = k.tcb t
  tcb : k'.tcb task = (placeLast (k.sysStructTop j) (lastFree k.smpTskAlcMap
    (List.range (k.sysStructTop j).maxNumTaskSpace.toNat)) (k.tcb task)).setState TASK_STATE_RUNNING
  smpTskAlcMap : ∀ i, k'.smpTskAlcMap i =
    if i < (k.sysStructTop j).maxNumTaskSpace.toNat ∧ (k.smpTskAlcMap i).state = INIT_MAP then
      ⟨RUNNING_MAP, task⟩ else k.smpTskAlcMap i
  mapEntries : k'.mapEntries = k.mapEntries
  mapAccesses : ∀ i < (k.sysStructTop j).maxNumTaskSpace.toNat, i ∈ k'.mapAccesses

/-- `start_task` returns if its lock is free. -/
lemma startTask_ok {j : Fin NUM_SYS_STRUCT} (task : Word) {lock : LockWord}
    (hheld : k.held lock = false) (hj : getSysStructInfo k.prid k.common.pm = some j) :
    ∃ k', startTask task lock k = .ok () k' ∧ Starts k task j k' := by
  obtain ⟨k₁, hforM, hscan⟩ := Scanned.forM task (k.sysStructTop j) hheld
    (l := List.range (k.sysStructTop j).maxNumTaskSpace.toNat) List.nodup_range
  have htask : k₁.tcb task = placeLast (k.sysStructTop j) (lastFree k.smpTskAlcMap
      (List.range (k.sysStructTop j).maxNumTaskSpace.toNat)) (k.tcb task) := by
    rw [hscan.tcb, Function.update_self]
  refine ⟨{ k₁ with
    tcb := Function.update k₁.tcb task ((k₁.tcb task).setState TASK_STATE_RUNNING) }, ?_,
    hscan.held, hscan.common, hscan.sysStructTop, fun t ht => ?_, ?_, fun i => ?_,
    hscan.mapEntries, fun i hi => ?_⟩
  · rw [startTask_eq hj, bind_ok hforM]
    rfl
  · show Function.update k₁.tcb task _ t = k.tcb t
    rw [Function.update_of_ne ht, hscan.tcb, Function.update_of_ne ht]
  · show Function.update k₁.tcb task _ task = _
    rw [Function.update_self, htask]
  · simpa using hscan.smpTskAlcMap i
  · exact hscan.mapAccesses i (by simpa using hi)

lemma Starts.state {j : Fin NUM_SYS_STRUCT} {k' : Kernel} (h : Starts k task j k') :
    (k'.tcb task).state = TASK_STATE_RUNNING := by
  rw [h.tcb, TCB.setState_state]

lemma startTask_held {j : Fin NUM_SYS_STRUCT} (task : Word) (hheld : k.held lock = true)
    (hj : getSysStructInfo k.prid k.common.pm = some j)
    (hspace : 0 < (k.sysStructTop j).maxNumTaskSpace.toNat) :
    startTask task lock k = .error (.spins lock) k := by
  obtain ⟨n, hn⟩ := Nat.exists_eq_succ_of_ne_zero hspace.ne'
  rw [startTask_eq hj, hn, List.range_succ_eq_map, List.forM_cons]
  exact bind_error (bind_error (startTaskPass_held hheld))

end Start

/-! ## `init_smp_kernel` -/

/-- The map `init_smp_kernel` sets up has as many entries as entry 0 has task spaces. -/
lemma initSmpKernel_ok {j : Fin NUM_SYS_STRUCT} (hprid : k.prid = PCore)
    (hj : getSysStructInfo k.prid k.common.pm = some j) (map : Word) (content : ℕ → TaskMap) :
    ∃ freed, initSmpKernel map content k = .ok () { k with
      held := Function.update k.held .smpQueueLock false
      freed := freed
      smpTskAlcMap := content
      mapAddress := map
      mapEntries := (k.sysStructTop 0).maxNumTaskSpace.toNat } := by
  rw [hprid] at hj
  by_cases hold : k.mapAddress = NULL
  · refine ⟨k.freed, ?_⟩
    simp [initSmpKernel, getPrid, getPm, ssiIndex, sysStructTopEntry, ALL_SMP_MODE, bind,
      EStateM.bind, pure, EStateM.pure, NUM_CPU, hprid, hj, hold]
  · refine ⟨k.mapAddress :: k.freed, ?_⟩
    simp [initSmpKernel, getPrid, getPm, ssiIndex, sysStructTopEntry, kfreeBlock, ALL_SMP_MODE,
      bind, EStateM.bind, pure, EStateM.pure, NUM_CPU, hprid, hj, hold]

end Kernel

end Rpi2Baremetal
