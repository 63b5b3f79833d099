import Rpi2Baremetal.Framework.Transition
import Rpi2Baremetal.Properties.TaskOps

/-!
# Who holds an ASID

An ASID is taken by `set_user_asid`, which makes its status `ACTIVE_ASID`, and given back by
`end_task` and `destroy_task`.  Both write the status of the number the TCB holds, and the TCB
keeps it: between the two calls another task can take the number, and `destroy_task` then
marks as unused what that task still holds.
-/

namespace Rpi2Baremetal

namespace Kernel

open Framework

/-- A kernel and the tasks that have been ended. -/
abbrev AsidState := Kernel × List Word

/-- A task is ended once, and destroyed after that. -/
def AsidCallLegal (s : AsidState) : TaskCall → Prop
  | .setUserAsid _ cpuid pm => cpuid < 4 ∧ isValidPm pm = true
  | .endTask task => task ∉ s.2
  | .destroyTask task => task ∈ s.2
  | _ => False

instance (s : AsidState) (call : TaskCall) : Decidable (AsidCallLegal s call) := by
  unfold AsidCallLegal; split <;> infer_instance

def endedNext (s : AsidState) : Word × TaskCall → List Word
  | (_, .endTask task) => task :: s.2
  | _ => s.2

abbrev AsidStep := CallStep AsidCallLegal endedNext

structure AsidInitial (s : AsidState) : Prop where
  unused : ∀ asid, s.1.common.asidHead asid = UNUSED_ASID
  asid : ∀ task, (s.1.tcb task).asid = 0
  ended : s.2 = []

/-- A task that has an ASID and has not been ended. -/
def Holds (s : AsidState) (task : Word) : Prop := task ∉ s.2 ∧ (s.1.tcb task).asid ≠ 0

instance (s : AsidState) (task : Word) : Decidable (Holds s task) := by
  unfold Holds; infer_instance

/-- Tasks that have not been ended hold different ASIDs, which are active. -/
structure AsidExclusive (s : AsidState) : Prop where
  distinct : ∀ task task', Holds s task → Holds s task' → task ≠ task' →
    (s.1.tcb task).asid ≠ (s.1.tcb task').asid
  active : ∀ task, Holds s task → s.1.common.asidHead (s.1.tcb task).asid = ACTIVE_ASID

/-- No task holds the ASID of a task that is being destroyed. -/
def AsidReleased (s : AsidState) : Word × TaskCall → Prop
  | (_, .destroyTask task) => ∀ task', Holds s task' → (s.1.tcb task').asid ≠ (s.1.tcb task).asid
  | _ => True

structure AsidInv (s : AsidState) : Prop extends AsidExclusive s where
  status : ∀ asid, s.1.common.asidHead asid = UNUSED_ASID ∨
    s.1.common.asidHead asid = ACTIVE_ASID ∨ s.1.common.asidHead asid = FINISHED_ASID

section Step

variable {k k' : Kernel} {ended ended' : List Word} {task : Word}

/-- What the invariant depends on. -/
lemma AsidInv.congr (h : AsidInv (k, ended)) (hasid : ∀ t, (k'.tcb t).asid = (k.tcb t).asid)
    (hhead : k'.common.asidHead = k.common.asidHead) : AsidInv (k', ended) := by
  refine ⟨⟨?_, ?_⟩, ?_⟩
  · intro t t' ht ht'
    simp only [Holds, hasid] at ht ht' ⊢
    exact h.distinct t t' ht ht'
  · intro t ht
    simp only [Holds, hasid, hhead] at ht ⊢
    exact h.active t ht
  · simpa only [hhead] using h.status

/-- `set_user_asid` takes an ASID no task holds. -/
lemma AsidInv.take (h : AsidInv (k, ended)) {asid : Word}
    (hactive : k.common.asidHead asid ≠ ACTIVE_ASID) : AsidInv (takeAsid task asid k, ended) := by
  have hhead : (takeAsid task asid k).common.asidHead
      = Function.update k.common.asidHead asid ACTIVE_ASID :=
    if_pos ((h.status asid).imp_right fun hs => hs.resolve_left hactive)
  have htask : ((takeAsid task asid k).tcb task).asid = asid := by
    simp [takeAsid]
  have hother : ∀ t, t ≠ task → (takeAsid task asid k).tcb t = k.tcb t := by
    intro t ht
    simp [takeAsid, ht]
  have hnew : ∀ t, t ≠ task → Holds (takeAsid task asid k, ended) t →
      Holds (k, ended) t ∧ (k.tcb t).asid ≠ asid := by
    intro t ht hholds
    have hholds' : Holds (k, ended) t := by
      simpa only [Holds, hother t ht] using hholds
    exact ⟨hholds', fun heq => hactive (heq ▸ h.active t hholds')⟩
  refine ⟨⟨?_, ?_⟩, ?_⟩
  · intro t t' ht ht' hne
    show ((takeAsid task asid k).tcb t).asid ≠ ((takeAsid task asid k).tcb t').asid
    by_cases htt : t = task
    · subst htt
      rw [htask, hother t' (Ne.symm hne)]
      exact (hnew t' (Ne.symm hne) ht').2.symm
    · rw [hother t htt]
      by_cases htt' : t' = task
      · subst htt'
        rw [htask]
        exact (hnew t htt ht).2
      · rw [hother t' htt']
        exact h.distinct t t' (hnew t htt ht).1 (hnew t' htt' ht').1 hne
  · intro t ht
    show (takeAsid task asid k).common.asidHead ((takeAsid task asid k).tcb t).asid = ACTIVE_ASID
    rw [hhead]
    by_cases htt : t = task
    · rw [htt, htask, Function.update_self]
    · rw [hother t htt, Function.update_of_ne (hnew t htt ht).2]
      exact h.active t (hnew t htt ht).1
  · intro a
    show _ ∨ _ ∨ _
    rw [hhead]
    by_cases ha : a = asid
    · rw [ha, Function.update_self]
      exact .inr (.inl rfl)
    · rw [Function.update_of_ne ha]
      exact h.status a

/-- Changing the status of an ASID no task holds. -/
lemma AsidInv.release (h : AsidInv (k, ended)) {asid status : Word}
    (hstatus : status = UNUSED_ASID ∨ status = FINISHED_ASID) (hended : ended ⊆ ended')
    (hfree : ∀ t, Holds (k, ended') t → (k.tcb t).asid ≠ asid)
    (hasid : ∀ t, (k'.tcb t).asid = (k.tcb t).asid)
    (hhead : k'.common.asidHead = Function.update k.common.asidHead asid status) :
    AsidInv (k', ended') := by
  have hold : ∀ t, Holds (k', ended') t → Holds (k, ended) t ∧ (k.tcb t).asid ≠ asid := by
    intro t ht
    have ht' : Holds (k, ended') t := by
      simpa only [Holds, hasid] using ht
    exact ⟨⟨fun hmem => ht'.1 (hended hmem), ht'.2⟩, hfree t ht'⟩
  refine ⟨⟨?_, ?_⟩, ?_⟩
  · intro t t' ht ht' hne
    simp only [hasid]
    exact h.distinct t t' (hold t ht).1 (hold t' ht').1 hne
  · intro t ht
    simp only [hasid, hhead]
    rw [Function.update_of_ne (hold t ht).2]
    exact h.active t (hold t ht).1
  · intro a
    simp only [hhead]
    by_cases ha : a = asid
    · rw [ha, Function.update_self]
      exact hstatus.imp_right .inr
    · rw [Function.update_of_ne ha]
      exact h.status a

lemma AsidInv.endTask (h : AsidInv (k, ended)) (hlegal : task ∉ ended)
    (hk : endTask task k = .ok () k') : AsidInv (k', task :: ended) := by
  rw [endTask_ok] at hk
  cases hk
  refine h.release (.inr rfl) (List.subset_cons_self task ended) ?_ ?_ rfl
  · intro t ht heq
    have hne : t ≠ task := fun htt => ht.1 (htt ▸ List.mem_cons_self)
    have ht' : Holds (k, ended) t := ⟨fun hmem => ht.1 (List.mem_cons_of_mem task hmem), ht.2⟩
    exact h.distinct t task ht' ⟨hlegal, heq ▸ ht.2⟩ hne heq
  · intro t
    by_cases htt : t = task
    · simp [htt]
    · simp [htt]

lemma AsidInv.destroyTask (h : AsidInv (k, ended))
    (hfree : ∀ t, Holds (k, ended) t → (k.tcb t).asid ≠ (k.tcb task).asid) :
    AsidInv (lastState (destroyTask task) k, ended) := by
  obtain ⟨-, -, hasid, hhead, -⟩ := lastState_destroyTask task k
  exact h.release (.inl rfl) (List.Subset.refl ended) hfree hasid hhead

lemma AsidInv.setUserAsid (h : AsidInv (k, ended)) (task cpuid pm : Word) :
    AsidInv (lastState (setUserAsid task cpuid pm) k, ended) := by
  obtain ⟨e, hk⟩ | ⟨r, -, hk⟩ | ⟨asid, -, -, hactive, hk⟩ := setUserAsid_cases task cpuid pm k
  · rwa [lastState_error hk]
  · rwa [lastState_ok hk]
  · rw [lastState_ok hk]
    exact h.take hactive

variable {s s' : AsidState} {cpuid : Word} {call : TaskCall}

/-- Every call preserves the invariant, if a task that is destroyed has an ASID to itself. -/
lemma AsidInv.run (h : AsidInv s) (hlegal : AsidCallLegal s call)
    (hguard : AsidReleased s (cpuid, call)) :
    AsidInv (lastState call.run (s.1.onCore cpuid), endedNext s (cpuid, call)) := by
  have hcore : AsidInv (s.1.onCore cpuid, s.2) := h.congr (fun _ => rfl) rfl
  cases call with
  | setUserAsid task c pm =>
      rw [TaskCall.run, lastState_discard]
      exact hcore.setUserAsid task c pm
  | endTask task => exact hcore.endTask hlegal rfl
  | destroyTask task => exact hcore.destroyTask hguard
  | _ => exact hlegal.elim

/-- A task whose `end_task` has not returned is not ended; but `end_task` always returns. -/
lemma endedNext_of_error {k' : Kernel} {e : Halt}
    (hk : call.run (s.1.onCore cpuid) = .error e k') : endedNext s (cpuid, call) = s.2 := by
  cases call with
  | endTask task => cases (endTask_ok task _).symm.trans hk
  | _ => rfl

lemma AsidInv.step {c : Word × TaskCall} (h : AsidInv s) (hguard : AsidReleased s c)
    (hs : AsidStep s c s') : AsidInv s' := by
  cases hs with
  | returns hc hlegal hk =>
      rw [← lastState_ok hk]
      exact h.run hlegal hguard
  | spins hc hlegal hk =>
      rw [← endedNext_of_error hk, ← lastState_error hk]
      exact h.run hlegal hguard

/-- The condition on a step is necessary: a step that breaks it leaves a task with an ASID
that is not active. -/
theorem destroy_released {c : Word × TaskCall} (hs : AsidStep s c s') (hex : AsidExclusive s') :
    AsidReleased s c := by
  obtain ⟨cpuid, call⟩ := c
  cases call with
  | destroyTask task =>
      obtain ⟨-, -, hafter, hended⟩ := hs.cases
      have hended' : s'.2 = s.2 := hended.elim And.right And.right
      obtain ⟨-, -, hasid, hhead, -⟩ := lastState_destroyTask task (s.1.onCore cpuid)
      have hafter' : s'.1 = lastState (Kernel.destroyTask task) (s.1.onCore cpuid) := hafter
      rw [← hafter'] at hasid hhead
      intro t ht heq
      have ht' : Holds s' t := ⟨hended' ▸ ht.1, (hasid t).symm ▸ ht.2⟩
      have heq' : ((s.1.onCore cpuid).tcb t).asid = ((s.1.onCore cpuid).tcb task).asid := heq
      have hactive := hex.active t ht'
      rw [hhead, hasid, heq', Function.update_self] at hactive
      exact absurd hactive (by decide)
  | _ => trivial

lemma AsidInitial.inv {s : AsidState} (h : AsidInitial s) : AsidInv s :=
  ⟨⟨fun task _ ht _ _ => absurd (h.asid task) ht.2, fun task ht => absurd (h.asid task) ht.2⟩,
    fun asid => .inl (h.unused asid)⟩

end Step

/-- **ASIDs of tasks.**  In every run of `set_user_asid`, `end_task` and `destroy_task` calls
on any cores that destroys a task only while no other task has its ASID, tasks that have not
been ended hold different ASIDs, and these are active.  Messages are taken to return, and the
sections cleared to hold no `asid_head` (`Model/Kernel.lean`, `Model/Task.lean`). -/
theorem asids_exclusive {s s' : AsidState} {cs : List (Word × TaskCall)} (h0 : AsidInitial s)
    (hr : Run (guarded AsidReleased AsidStep) s cs s') : AsidExclusive s' :=
  (hr.guarded_invariant (fun _ _ _ h hguard hs => h.step hguard hs) h0.inv).toAsidExclusive

/-- The kernel at boot, with tasks that have sections in user RAM; those of tasks 8, 16 and 24
follow one another. -/
def placedTasks : Kernel := { atBoot with
  tcb := fun task => { atBoot.tcb task with
    ttba := (uramAreas 4).bottom + task / 8 * Mmu.SECTION_SIZE } }

lemma placedTasks_asidInitial : AsidInitial (placedTasks, []) :=
  ⟨fun _ => rfl, fun _ => rfl, rfl⟩

/-- A task is destroyed while another one holds an ASID of its own. -/
theorem asids_exclusive_two : ∃ s', AsidExclusive s' ∧ Holds s' 16 ∧
    Run (guarded AsidReleased AsidStep) (placedTasks, [])
      [(0, .setUserAsid 8 0 0), (1, .setUserAsid 16 1 0), (0, .endTask 8), (2, .destroyTask 8)]
      s' := by
  have hrun : Run (guarded AsidReleased AsidStep) (placedTasks, [])
      [(0, .setUserAsid 8 0 0), (1, .setUserAsid 16 1 0), (0, .endTask 8), (2, .destroyTask 8)]
      _ := Run.of_foldl (afterCall endedNext)
    ⟨⟨trivial, .of_returns (by decide) ⟨by decide, rfl⟩ rfl⟩,
      ⟨trivial, .of_returns (by decide) ⟨by decide, rfl⟩ rfl⟩,
      ⟨trivial, .of_returns (by decide) (by decide) rfl⟩,
      ⟨?_, .of_returns (by decide) (by decide) rfl⟩, trivial⟩
  · exact ⟨_, asids_exclusive placedTasks_asidInitial hrun, by decide, hrun⟩
  · intro task' hholds
    by_cases h8 : task' = 8
    · exact absurd (h8 ▸ List.mem_cons_self) hholds.1
    · by_cases h16 : task' = 16
      · rw [h16]
        decide
      · refine absurd ?_ hholds.2
        show (Function.update (Function.update (Function.update placedTasks.tcb 8 _) 16 _) 8 _
          task').asid = 0
        rw [Function.update_of_ne h8, Function.update_of_ne h16, Function.update_of_ne h8]
        rfl

/-- Task 8 is ended, task 16 takes its ASID, and task 8 is destroyed: task 24 takes the ASID
that task 16 holds. -/
theorem asid_held_twice :
    ¬ ∀ (s s' : AsidState) (cs : List (Word × TaskCall)),
      AsidInitial s → Run AsidStep s cs s' → AsidExclusive s' := by
  intro hclaim
  have hrun : Run AsidStep (placedTasks, []) [(0, .setUserAsid 8 0 0), (0, .endTask 8),
      (0, .setUserAsid 16 0 0), (0, .destroyTask 8), (0, .setUserAsid 24 0 0)] _ :=
    Run.of_foldl (afterCall endedNext)
    ⟨.of_returns (by decide) ⟨by decide, rfl⟩ rfl,
      .of_returns (by decide) (by decide) rfl,
      .of_returns (by decide) ⟨by decide, rfl⟩ rfl,
      .of_returns (by decide) (by decide) rfl,
      .of_returns (by decide) ⟨by decide, rfl⟩ rfl, trivial⟩
  have hex := hclaim _ _ _ placedTasks_asidInitial hrun
  exact hex.distinct 16 24 (by decide) (by decide) (by decide) rfl

end Kernel

end Rpi2Baremetal
