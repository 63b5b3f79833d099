import Rpi2Baremetal.Model.Tlb
import Rpi2Baremetal.Framework.Transition
import Rpi2Baremetal.Properties.AsidExclusivity
import Mathlib.Tactic

/-!
# ASIDs in the TLBs

An ASID that has been given back goes to another task, and the entries it has in the TLBs with
it.  `set_user_asid` and `destroy_task` invalidate those of one core, the one they run on.
On every core, what counts is what it has installed with an ASID since it invalidated that ASID
itself.
-/

namespace Rpi2Baremetal

namespace Tlb

open Kernel Framework

/-! ## A core -/

namespace CoreTlb

@[simp] lemma asid_note (c : CoreTlb) : c.note.asid = c.asid := rfl

/-- `sync_user_ttba_change` sets the ASID to the low byte of the number it has. -/
@[simp] lemma asid_setAsid (asid : Word) (c : CoreTlb) : (c.setAsid asid).asid = asid &&& 0xFF := by
  show ((c.contextidr &&& 0xFFFFFF00) ||| asid) &&& 0xFF = asid &&& 0xFF
  rw [BitVec.and_or_distrib_right, BitVec.and_assoc]
  simp

end CoreTlb

namespace TlbPc

/-- The core is between the two writes of its ASID. -/
def Switches : TlbPc → Prop
  | .writeTtbr0 _ _ => True
  | .writeTtbr1 _ _ => True
  | .writeAsid _ => True
  | _ => False

/-- The ways in which an access changes the registers of its core. -/
inductive Effect : TlbPc → TlbPc → Option MmuOp → Prop
  | none {pc pc' : TlbPc} : ¬ pc'.Switches → Effect pc pc' .none
  | invalidate {pc pc' : TlbPc} (asid : Word) :
      ¬ pc'.Switches → Effect pc pc' (some (.invalidateTlbs asid))
  | reserve {pc pc' : TlbPc} : Effect pc pc' (some (.setAsid RESERVED_ASID_NUM))
  | ttbr0 {pc pc' : TlbPc} (ttbr : Word) : pc.Switches → Effect pc pc' (some (.setTtbr0 ttbr))
  | ttbr1 {pc pc' : TlbPc} (ttbr : Word) : pc.Switches → Effect pc pc' (some (.setTtbr1 ttbr))
  | asid (asid : Word) : Effect (.writeAsid asid) .idle (some (.setAsid asid))

lemma not_switches_scan (task : Word) (ssi : Fin NUM_SYS_STRUCT) (asids : List Word) :
    ¬ (scan task ssi asids).Switches := by
  cases asids with
  | nil => exact id
  | cons asid asids => exact id

end TlbPc

/-! ## One access -/

/-- The core and the tables of the tasks are those of `k₀`. -/
structure SameTables (k₀ k : Kernel) : Prop where
  prid : k.prid = k₀.prid
  ttba : ∀ task, (k.tcb task).ttba = (k₀.tcb task).ttba

/-- A computation that does not change the table of a task. -/
def KeepsTables {α : Type} (x : KernelM α) : Prop :=
  ∀ k₀, Triple (SameTables k₀) x (fun _ => SameTables k₀) (SameTables k₀)

lemma KeepsTables.bind {α β : Type} {x : KernelM α} {f : α → KernelM β} (hx : KeepsTables x)
    (hf : ∀ a, KeepsTables (f a)) : KeepsTables (x >>= f) :=
  fun k₀ => (hx k₀).bind fun a => hf a k₀

lemma keepsTables_of_tcb {α : Type} {x : KernelM α} {f : Kernel → Kernel} {a : Kernel → α}
    (hx : ∀ k, x k = .ok (a k) (f k)) (hprid : ∀ k, (f k).prid = k.prid)
    (htcb : ∀ k, (f k).tcb = k.tcb) : KeepsTables x := by
  intro k₀
  refine .ok hx fun k hk => ⟨?_, ?_⟩
  · rw [hprid, hk.prid]
  · rw [htcb]
    exact hk.ttba

lemma keepsTables_modifyTcb (task : Word) (f : TCB → TCB) (hf : ∀ t, (f t).ttba = t.ttba) :
    KeepsTables (modifyTcb task f) := by
  intro k₀ k hk
  refine ⟨hk.prid, fun a => ?_⟩
  show (Function.update k.tcb task (f (k.tcb task)) a).ttba = (k₀.tcb a).ttba
  by_cases ha : a = task
  · rw [ha, Function.update_self, hf, hk.ttba]
  · rw [Function.update_of_ne ha, hk.ttba]

lemma keepsTables_spinReq (lock : LockWord) : KeepsTables (spinReq lock) := by
  intro k₀ k hk
  unfold spinReq
  cases k.held lock with
  | true => exact hk
  | false => exact ⟨hk.prid, hk.ttba⟩

lemma keepsTables_spinRel (lock : LockWord) : KeepsTables (spinRel lock) := by
  intro k₀ k hk
  unfold spinRel
  cases k.held lock with
  | true => exact ⟨hk.prid, hk.ttba⟩
  | false => exact hk

lemma keepsTables_modifyMap (i : ℕ) (f : TaskMap → TaskMap) : KeepsTables (modifyMap i f) :=
  keepsTables_of_tcb (fun _ => rfl) (fun _ => rfl) fun _ => rfl

lemma keepsTables_readTcb (task : Word) : KeepsTables (readTcb task) :=
  keepsTables_of_tcb (fun _ => rfl) (fun _ => rfl) fun _ => rfl

lemma keepsTables_readAsidHead (asid : Word) : KeepsTables (readAsidHead asid) :=
  keepsTables_of_tcb (fun _ => rfl) (fun _ => rfl) fun _ => rfl

lemma keepsTables_writeAsidHead (asid v : Word) : KeepsTables (writeAsidHead asid v) :=
  keepsTables_of_tcb (fun _ => rfl) (fun _ => rfl) fun _ => rfl

lemma keepsTables_invalidateTlbs (asid : Word) : KeepsTables (Kernel.invalidateTlbs asid) :=
  keepsTables_of_tcb (fun _ => rfl) (fun _ => rfl) fun _ => rfl

lemma keepsTables_kfreeBlock (ap : Word) : KeepsTables (kfreeBlock ap) :=
  keepsTables_of_tcb (fun _ => rfl) (fun _ => rfl) fun _ => rfl

lemma keepsTables_clearSpace (bottom : Word) : KeepsTables (clearSpace bottom) :=
  keepsTables_of_tcb (fun _ => rfl) (fun _ => rfl) fun _ => rfl

lemma keepsTables_endTaskRest (task : Word) : KeepsTables (endTaskRest task) := by
  refine (keepsTables_readTcb task).bind fun _ => ?_
  refine (keepsTables_modifyMap _ _).bind fun _ => ?_
  exact keepsTables_modifyTcb task _ fun _ => rfl

lemma keepsTables_destroyTaskRest (task : Word) (t : TCB) :
    KeepsTables (destroyTaskRest task t) := by
  refine (keepsTables_clearSpace t.ttba).bind fun _ => ?_
  refine (keepsTables_spinReq .smpQueueLock).bind fun _ => ?_
  refine (keepsTables_modifyMap _ _).bind fun _ => (keepsTables_modifyMap _ _).bind fun _ => ?_
  refine (keepsTables_modifyTcb t.prev (.setNext t.next) fun _ => rfl).bind fun _ => ?_
  refine (keepsTables_readTcb task).bind fun t' => ?_
  refine (keepsTables_modifyTcb t'.next (.setPrev t'.prev) fun _ => rfl).bind fun _ => ?_
  refine (keepsTables_spinRel .smpQueueLock).bind fun _ => ?_
  refine (keepsTables_readTcb task).bind fun t' => ?_
  exact (keepsTables_kfreeBlock t'.context).bind fun _ => keepsTables_kfreeBlock task

/-- What an access leaves: the tables as they were, and one of the effects on the core. -/
def After (k₀ : Kernel) (pc : TlbPc) (r : TlbPc × Option MmuOp) (k : Kernel) : Prop :=
  SameTables k₀ k ∧ pc.Effect r.1 r.2

lemma triple_run (k₀ : Kernel) (pc : TlbPc) :
    Triple (SameTables k₀) pc.run (After k₀ pc) (SameTables k₀) := by
  have quiet : ∀ {α : Type} {x : KernelM α} {pc' : α → TlbPc}, KeepsTables x →
      (∀ a, ¬ (pc' a).Switches) →
      Triple (SameTables k₀) (do let a ← x; pure (pc' a, none)) (After k₀ pc) (SameTables k₀) :=
    fun hx hpc => (hx k₀).bind fun a => .pure _ fun _ hk => ⟨hk, .none (hpc a)⟩
  cases pc with
  | idle => exact .pure _ fun _ hk => ⟨hk, .none id⟩
  | acquire v => exact quiet (keepsTables_spinReq _) fun _ => id
  | testActive v =>
      refine (keepsTables_readAsidHead v.asid k₀).bind fun status => .ite (fun _ => ?_) fun _ => ?_
      · exact .pure _ fun _ hk => ⟨hk, .none id⟩
      · exact .pure _ fun _ hk => ⟨hk, .none id⟩
  | skip v => exact quiet (keepsTables_spinRel _) fun _ => TlbPc.not_switches_scan _ _ _
  | testUnused v =>
      refine quiet (keepsTables_readAsidHead v.asid) fun status => ?_
      split_ifs <;> exact id
  | activateUnused v => exact quiet (keepsTables_writeAsidHead _ _) fun _ => id
  | testFinished v =>
      refine quiet (keepsTables_readAsidHead v.asid) fun status => ?_
      split_ifs <;> exact id
  | activateFinished v => exact quiet (keepsTables_writeAsidHead _ _) fun _ => id
  | invalidate v =>
      exact (keepsTables_invalidateTlbs v.asid k₀).bind fun _ =>
        .pure _ fun _ hk => ⟨hk, .invalidate v.asid id⟩
  | release v => exact quiet (keepsTables_spinRel _) fun _ => id
  | store v => exact quiet (keepsTables_modifyTcb v.task _ fun _ => rfl) fun _ => id
  | reserve task asid => exact .pure _ fun _ hk => ⟨hk, .reserve⟩
  | writeTtbr0 task asid =>
      exact (keepsTables_readTcb task k₀).bind fun t =>
        .pure _ fun _ hk => ⟨hk, .ttbr0 _ trivial⟩
  | writeTtbr1 task asid =>
      exact (keepsTables_readTcb task k₀).bind fun t =>
        .pure _ fun _ hk => ⟨hk, .ttbr1 _ trivial⟩
  | writeAsid asid => exact .pure _ fun _ hk => ⟨hk, .asid asid⟩
  | endHead task asid => exact quiet (keepsTables_writeAsidHead _ _) fun _ => id
  | endRest task => exact quiet (keepsTables_endTaskRest task) fun _ => id
  | destroyAsid task => exact quiet (keepsTables_readTcb task) fun _ => id
  | destroyHead task asid => exact quiet (keepsTables_writeAsidHead _ _) fun _ => id
  | destroyRest task =>
      exact (keepsTables_readTcb task k₀).bind fun t =>
        quiet (keepsTables_destroyTaskRest task t) fun _ => id

lemma triple_start (k₀ : Kernel) (call : TlbCall) :
    Triple (SameTables k₀) call.start (After k₀ .idle) (SameTables k₀) := by
  cases call with
  | syncUserTtbaChange task cpuid pm =>
      refine (keepsTables_readTcb task k₀).bind fun t => .ite (fun _ => ?_) fun _ => ?_
      · exact .pure _ fun _ hk => ⟨hk, .none id⟩
      · refine Triple.bind (Q := fun _ => SameTables k₀) ?_ fun i => ?_
        · unfold ssiIndex
          cases getSysStructInfo cpuid pm with
          | none => exact .throw _ fun _ hk => hk
          | some i => exact .pure _ fun _ hk => hk
        · exact (keepsTables_of_tcb (fun _ => rfl) (fun _ => rfl) (fun _ => rfl) k₀).bind fun ssi =>
            .pure _ fun _ hk => ⟨hk, .none (TlbPc.not_switches_scan _ _ _)⟩
  | endTask task =>
      exact (keepsTables_readTcb task k₀).bind fun t => .pure _ fun _ hk => ⟨hk, .none id⟩
  | destroyTask task =>
      exact (keepsTables_readTcb task k₀).bind fun t =>
        (keepsTables_invalidateTlbs t.asid k₀).bind fun _ =>
          .pure _ fun _ hk => ⟨hk, .invalidate t.asid id⟩

/-! ## Stale entries -/

namespace TlbState

/-- One of the pairs has the ASID with the table of a task, which is another table. -/
def Stale (s : TlbState) (pairs : List (Word × Word)) (asid table : Word) : Prop :=
  ∃ task ∈ s.tasks, s.table task ≠ table ∧ (asid, s.table task) ∈ pairs

/-- The table is that of a task that has not been ended. -/
def LiveTable (s : TlbState) (table : Word) : Prop :=
  ∃ task ∈ s.tasks, task ∉ s.ended ∧ s.table task = table

/-- A core that has the ASID and the table of a task installed has no entry in its TLB with the
ASID and the table of another one. -/
def NoStale (s : TlbState) : Prop :=
  ∀ cpuid, ∀ task ∈ s.tasks, task ∉ s.ended → (s.kernel.tcb task).asid ≠ 0 →
    (s.core cpuid).pair = ((s.kernel.tcb task).asid, s.table task) →
    ¬ s.Stale (s.core cpuid).tlb (s.kernel.tcb task).asid (s.table task)

/-- The core that is about to set an ASID with the table of a task has not installed the ASID
with the table of another one since its last `invalidate_tlbs` of it. -/
def InstallsFresh (s : TlbState) : TlbAction → Prop
  | .next cpuid =>
      match s.pc cpuid with
      | .writeAsid asid =>
          asid &&& 0xFF ≠ 0 → s.LiveTable (s.core cpuid).ttbr0 →
            ¬ s.Stale (s.core cpuid).installed (asid &&& 0xFF) (s.core cpuid).ttbr0
      | _ => True
  | _ => True

/-- The cores before any of these calls, with empty TLBs. -/
structure Initial (s : TlbState) : Prop where
  idle : ∀ cpuid, s.pc cpuid = .idle
  tlb : ∀ cpuid, (s.core cpuid).tlb = []
  installed : ∀ cpuid, (s.core cpuid).installed = [(s.core cpuid).pair]

variable {s s' : TlbState}

lemma Stale.mono {l l' : List (Word × Word)} {asid table : Word} (h : s.Stale l asid table)
    (hl : l ⊆ l') : s.Stale l' asid table := by
  obtain ⟨task, htask, hne, hmem⟩ := h
  exact ⟨task, htask, hne, hl hmem⟩

/-- The pair installed is not stale itself. -/
lemma stale_cons {l : List (Word × Word)} {asid table : Word} :
    s.Stale ((asid, table) :: l) asid table ↔ s.Stale l asid table := by
  constructor
  · rintro ⟨task, htask, hne, hmem⟩
    refine ⟨task, htask, hne, (List.mem_cons.mp hmem).resolve_left ?_⟩
    intro heq
    exact hne (Prod.mk.inj heq).2
  · intro h
    exact h.mono (List.subset_cons_self _ _)

/-! ## The invariant -/

/-- The TLB of a core has only what the core has installed, and what it has installed with its
ASID is not stale. -/
structure Clean (s : TlbState) (pc : TlbPc) (c : CoreTlb) : Prop where
  current : c.pair ∈ c.installed
  tlb : c.tlb ⊆ c.installed
  switching : pc.Switches → c.asid = 0
  fresh : c.asid ≠ 0 → s.LiveTable c.ttbr0 → ¬ s.Stale c.installed c.asid c.ttbr0

/-- The tasks and their tables are the same, and ended tasks stay ended. -/
structure Keeps (s s' : TlbState) : Prop where
  tasks : s'.tasks = s.tasks
  table : ∀ task, s'.table task = s.table task
  ended : s.ended ⊆ s'.ended

lemma Keeps.stale_iff (h : Keeps s s') {l : List (Word × Word)} {asid table : Word} :
    s'.Stale l asid table ↔ s.Stale l asid table := by
  unfold Stale
  simp only [h.tasks, h.table]

lemma Keeps.liveTable (h : Keeps s s') {table : Word} (ht : s'.LiveTable table) :
    s.LiveTable table := by
  obtain ⟨task, htask, hended, heq⟩ := ht
  rw [h.tasks] at htask
  rw [h.table] at heq
  exact ⟨task, htask, fun hmem => hended (h.ended hmem), heq⟩

variable {pc pc' : TlbPc} {c : CoreTlb}

lemma Clean.keeps (hc : Clean s pc c) (h : Keeps s s') : Clean s' pc c where
  current := hc.current
  tlb := hc.tlb
  switching := hc.switching
  fresh := by
    intro hasid hlive
    rw [h.stale_iff]
    exact hc.fresh hasid (h.liveTable hlive)

lemma Clean.fill (hc : Clean s pc c) : Clean s pc c.fill where
  current := hc.current
  tlb := List.cons_subset.mpr ⟨hc.current, hc.tlb⟩
  switching := hc.switching
  fresh := hc.fresh

/-- Installing a pair that is not stale. -/
lemma clean_note (htlb : c.tlb ⊆ c.installed) (hswitch : pc.Switches → c.asid = 0)
    (hfresh : c.asid ≠ 0 → s.LiveTable c.ttbr0 → ¬ s.Stale c.installed c.asid c.ttbr0) :
    Clean s pc c.note where
  current := List.mem_cons_self
  tlb := List.subset_cons_of_subset _ htlb
  switching := hswitch
  fresh := by
    intro hasid hlive
    exact stale_cons.not.mpr (hfresh hasid hlive)

lemma Clean.invalidateTlbs (hc : Clean s pc c) (asid : Word) (hpc : ¬ pc'.Switches) :
    Clean s pc' (c.invalidateTlbs asid) := by
  apply clean_note
  · exact List.filter_subset _ hc.tlb
  · intro h
    exact absurd h hpc
  · intro hasid hlive hstale
    exact hc.fresh hasid hlive (hstale.mono List.filter_sublist.subset)

/-- An access keeps its core clean, if an ASID that it sets is fresh. -/
lemma Clean.effect (hc : Clean s pc c) {op : Option MmuOp} (he : pc.Effect pc' op)
    (hguard : ∀ asid, pc = .writeAsid asid → asid &&& 0xFF ≠ 0 → s.LiveTable c.ttbr0 →
      ¬ s.Stale c.installed (asid &&& 0xFF) c.ttbr0) :
    Clean s pc' (op.elim id MmuOp.run c) := by
  cases he with
  | none hpc => exact ⟨hc.current, hc.tlb, fun h => absurd h hpc, hc.fresh⟩
  | invalidate asid hpc => exact hc.invalidateTlbs asid hpc
  | reserve =>
      have hzero : (c.setAsid RESERVED_ASID_NUM).asid = 0 := CoreTlb.asid_setAsid _ c
      exact clean_note hc.tlb (fun _ => hzero) fun h => absurd hzero h
  | ttbr0 ttbr hpc =>
      have hzero : c.asid = 0 := hc.switching hpc
      exact clean_note hc.tlb (fun _ => hzero) fun h => absurd hzero h
  | ttbr1 ttbr hpc => exact ⟨hc.current, hc.tlb, fun _ => hc.switching hpc, hc.fresh⟩
  | asid asid =>
      have hasid : (c.setAsid asid).asid = asid &&& 0xFF := CoreTlb.asid_setAsid asid c
      refine clean_note hc.tlb (fun h => h.elim) ?_
      rw [← CoreTlb.asid_note, ← CoreTlb.setAsid, hasid]
      exact hguard asid rfl

/-! ## Steps -/

/-- An access has an effect on its core, and on no other. -/
lemma exec_cases {cpuid : Fin NUM_CPU} {x : KernelM (TlbPc × Option MmuOp)}
    (hx : ∀ k₀, Triple (SameTables k₀) x (After k₀ (s.pc cpuid)) (SameTables k₀))
    (h : s.exec cpuid x = some s') : ∃ pc op, (s.pc cpuid).Effect pc op ∧ Keeps s s' ∧
      s'.pc = Function.update s.pc cpuid pc ∧
      s'.core = Function.update s.core cpuid (op.elim id MmuOp.run (s.core cpuid)) := by
  have hafter := hx (s.kernel.onCore (.ofNat 32 cpuid)) _ ⟨rfl, fun _ => rfl⟩
  unfold exec at h
  cases hr : x (s.kernel.onCore (.ofNat 32 cpuid)) with
  | error e k' =>
      rw [hr] at h
      cases h
  | ok r k' =>
      rw [hr] at h hafter
      obtain rfl := Option.some.inj h
      refine ⟨r.1, r.2, hafter.2, ⟨rfl, fun task => ?_, List.subset_append_right _ _⟩, rfl, rfl⟩
      exact congrArg (0x4a ||| ·) (hafter.1.ttba task)

/-- Every core is clean. -/
def AllClean (s : TlbState) : Prop := ∀ cpuid, Clean s (s.pc cpuid) (s.core cpuid)

lemma Initial.allClean (h : Initial s) : s.AllClean := by
  intro cpuid
  refine ⟨?_, ?_, ?_, ?_⟩
  · rw [h.installed]
    exact List.mem_cons_self
  · rw [h.tlb]
    exact List.nil_subset _
  · rw [h.idle]
    exact False.elim
  · intro _ _
    rw [h.installed]
    rintro ⟨task, -, hne, hmem⟩
    exact hne (Prod.mk.inj (List.mem_singleton.mp hmem)).2

/-- What one core does keeps all cores clean if it keeps its own. -/
lemma AllClean.update (h : s.AllClean) (hk : Keeps s s') {cpuid : Fin NUM_CPU} {pc : TlbPc}
    {c : CoreTlb} (hpc : s'.pc = Function.update s.pc cpuid pc)
    (hcore : s'.core = Function.update s.core cpuid c) (hc : Clean s pc c) : s'.AllClean := by
  intro other
  rw [hpc, hcore]
  by_cases hother : other = cpuid
  · subst hother
    rw [Function.update_self, Function.update_self]
    exact hc.keeps hk
  · rw [Function.update_of_ne hother, Function.update_of_ne hother]
    exact (h other).keeps hk

lemma AllClean.step {a : TlbAction} (h : s.AllClean) (hguard : s.InstallsFresh a)
    (hstep : tlbStep s a = some s') : s'.AllClean := by
  cases a with
  | fill cpuid =>
      obtain rfl := Option.some.inj hstep
      refine h.update ⟨rfl, fun _ => rfl, List.Subset.refl _⟩ ?_ rfl (h cpuid).fill
      exact (Function.update_eq_self cpuid s.pc).symm
  | call cpuid call =>
      obtain ⟨⟨hidle, -⟩, hexec⟩ := Option.ite_none_right_eq_some.mp hstep
      obtain ⟨pc, op, he, hk, hpc, hcore⟩ :=
        exec_cases (fun k₀ => hidle.symm ▸ triple_start k₀ call) hexec
      refine h.update hk hpc hcore ((h cpuid).effect he ?_)
      intro asid hasid
      rw [hidle] at hasid
      cases hasid
  | next cpuid =>
      obtain ⟨pc, op, he, hk, hpc, hcore⟩ := exec_cases (fun k₀ => triple_run k₀ _) hstep
      refine h.update hk hpc hcore ((h cpuid).effect he ?_)
      intro asid hasid
      simp only [InstallsFresh, hasid] at hguard
      exact hguard

lemma AllClean.noStale (h : s.AllClean) : s.NoStale := by
  intro cpuid task htask hended hasid hpair hstale
  obtain ⟨hcasid, httbr⟩ := Prod.mk.inj hpair
  rw [← hcasid, ← httbr] at hstale
  rw [← hcasid] at hasid
  have hlive : s.LiveTable (s.core cpuid).ttbr0 := ⟨task, htask, hended, httbr.symm⟩
  exact (h cpuid).fresh hasid hlive (hstale.mono (h cpuid).tlb)

end TlbState

open TlbState

/-- **ASIDs in the TLBs.**  In every interleaving in which no core sets an ASID that it has had
installed with the table of another task since it last invalidated it, a core that runs a task
has no entry of another task with its ASID.  Messages are taken to return
(`Model/Kernel.lean`). -/
theorem tlb_tags_fresh {s s' : TlbState} {as : List TlbAction} (h0 : s.Initial)
    (hr : Run (guarded InstallsFresh fun s a s' => tlbStep s a = some s') s as s') :
    s'.NoStale :=
  (hr.guarded_invariant (fun _ _ _ h => h.step) h0.allClean).noStale

/-! ## Runs -/

namespace TlbState

-- The instances run through the tasks; the default ones would run through all addresses.
instance (s : TlbState) (pairs : List (Word × Word)) (asid table : Word) :
    Decidable (s.Stale pairs asid table) :=
  List.decidableBEx (fun task => s.table task ≠ table ∧ (asid, s.table task) ∈ pairs) s.tasks

instance (s : TlbState) (table : Word) : Decidable (s.LiveTable table) :=
  List.decidableBEx (fun task => task ∉ s.ended ∧ s.table task = table) s.tasks

instance (s : TlbState) : Decidable s.NoStale :=
  have _ (cpuid : Fin NUM_CPU) := List.decidableBAll (fun task => task ∉ s.ended →
    (s.kernel.tcb task).asid ≠ 0 →
    (s.core cpuid).pair = ((s.kernel.tcb task).asid, s.table task) →
    ¬ s.Stale (s.core cpuid).tlb (s.kernel.tcb task).asid (s.table task)) s.tasks
  Nat.decidableForallFin _

instance (s : TlbState) (a : TlbAction) : Decidable (s.InstallsFresh a) := by
  unfold InstallsFresh
  split
  · split <;> infer_instance
  · infer_instance

end TlbState

/-- Two tasks in a kernel at boot, whose cores have not used their TLBs. -/
def twoTasks : TlbState where
  kernel := { atBoot with
    tcb task := ⟨0, 0, 0, if task = 8 then 0x24000000 else 0x24100000, 0, NULL, NULL, NULL⟩ }
  tasks := [8, 16]
  ended := []
  pc _ := .idle
  core _ := ⟨0, 0x4a ||| TTBA_BASE, 0x4a ||| TTBA_BASE, [], [(0, 0x4a ||| TTBA_BASE)]⟩

lemma twoTasks_initial : twoTasks.Initial :=
  ⟨fun _ => rfl, fun _ => rfl, fun _ => by simp [twoTasks, CoreTlb.pair, CoreTlb.asid]⟩

/-- Task 8, task 16 and again task 8 on core 1. -/
def oneCore : List TlbAction :=
  .call 1 (.syncUserTtbaChange 8 1 0) :: List.replicate 10 (.next 1) ++ [.fill 1] ++
    .call 1 (.syncUserTtbaChange 16 1 0) :: List.replicate 13 (.next 1) ++
    .call 1 (.syncUserTtbaChange 8 1 0) :: List.replicate 4 (.next 1)

set_option maxRecDepth 2000 in
/-- Each task has an ASID of its own in that run. -/
theorem tlb_tags_fresh_oneCore : ∃ s, s.NoStale ∧ (s.core 1).pair = (2, s.table 8) ∧
    Run (guarded InstallsFresh fun s a s' => tlbStep s a = some s') twoTasks oneCore s := by
  have hrun : ((oneCore.foldlM (fun s a => if InstallsFresh s a then tlbStep s a else none)
      twoTasks).any fun s : TlbState => (s.core 1).pair = (2, s.table 8)) = true := by
    decide
  obtain ⟨s, hs, hpair⟩ := (Option.any_eq_true _ _).mp hrun
  have hr := Run.guarded_of_foldlM hs
  exact ⟨s, tlb_tags_fresh twoTasks_initial hr, of_decide_eq_true hpair, hr⟩

/-! ## Tasks that change cores -/

namespace TlbState

/-- Tasks that have not been ended have different ASIDs. -/
def AsidsDistinct (s : TlbState) : Prop :=
  ∀ task ∈ s.tasks, ∀ task' ∈ s.tasks, task ≠ task' → task ∉ s.ended → task' ∉ s.ended →
    (s.kernel.tcb task).asid ≠ 0 → (s.kernel.tcb task).asid ≠ (s.kernel.tcb task').asid

instance (s : TlbState) : Decidable s.AsidsDistinct :=
  have _ (task : Word) := List.decidableBAll (fun task' => task ≠ task' → task ∉ s.ended →
    task' ∉ s.ended → (s.kernel.tcb task).asid ≠ 0 →
    (s.kernel.tcb task).asid ≠ (s.kernel.tcb task').asid) s.tasks
  List.decidableBAll _ s.tasks

end TlbState

/-- A step after which tasks that have not been ended have different ASIDs. -/
def distinctStep (s : TlbState) (a : TlbAction) : Option TlbState :=
  (tlbStep s a).filter fun s' => s'.AsidsDistinct

/-- On core 0, task 8 runs and is ended, and task 16 is given its ASID and runs.  Between the
`invalidate_tlbs` of `set_user_asid` and the write of the reserved ASID the core translates with
the table of task 8, which is still installed. -/
def reuse : List TlbAction :=
  .call 0 (.syncUserTtbaChange 8 0 0) :: List.replicate 10 (.next 0) ++
    .call 0 (.endTask 8) :: List.replicate 2 (.next 0) ++
    .call 0 (.syncUserTtbaChange 16 0 0) :: List.replicate 6 (.next 0) ++ [.fill 0] ++
    List.replicate 6 (.next 0)

set_option maxRecDepth 2000 in
/-- In that run the translation comes back that `set_user_asid` has invalidated. -/
theorem tlb_tags_stale : ¬ ∀ (s s' : TlbState) (as : List TlbAction), s.Initial →
    AsidInitial (s.kernel, s.ended) → Run (fun s a s' => distinctStep s a = some s') s as s' →
    s'.NoStale := by
  intro hclaim
  have hrun : ((reuse.foldlM distinctStep twoTasks).any fun s => !decide s.NoStale) = true := by
    decide
  obtain ⟨s, hs, hstale⟩ := (Option.any_eq_true _ _).mp hrun
  have hinit : AsidInitial (twoTasks.kernel, twoTasks.ended) := ⟨fun _ => rfl, fun _ => rfl, rfl⟩
  have hfresh := hclaim _ _ _ twoTasks_initial hinit (Run.of_foldlM hs)
  simp [hfresh] at hstale

/-! ## The condition is needed

A core may fill its TLB whenever it likes, so every run goes along with one in which the TLBs
have all that is installed.
-/

/-- The core has made a translation with every pair it has installed. -/
def CoreTlb.cached (c : CoreTlb) : CoreTlb := { c with tlb := c.installed }

/-- A fill brings the TLB up to date after a write, if the write installs a pair. -/
lemma MmuOp.run_cached (op : MmuOp) (c : CoreTlb) :
    op.run c.cached = (op.run c).cached ∨ (op.run c.cached).fill = (op.run c).cached := by
  cases op with
  | setAsid asid => exact .inr rfl
  | setTtbr0 ttbr => exact .inr rfl
  | setTtbr1 ttbr => exact .inl rfl
  | invalidateTlbs asid => exact .inr rfl

namespace TlbState

/-- The state with up-to-date TLBs. -/
def cached (s : TlbState) : TlbState := { s with core := fun cpuid => (s.core cpuid).cached }

lemma AsidsDistinct.congr {s s' : TlbState} (h : s.AsidsDistinct) (hkernel : s'.kernel = s.kernel)
    (htasks : s'.tasks = s.tasks) (hended : s'.ended = s.ended) : s'.AsidsDistinct := by
  unfold AsidsDistinct
  rwa [hkernel, htasks, hended]

end TlbState

abbrev DistinctRun := Run fun s a s' => distinctStep s a = some s'

variable {s s' : TlbState} {as : List TlbAction}

lemma distinctStep_iff {a : TlbAction} :
    distinctStep s a = some s' ↔ tlbStep s a = some s' ∧ s'.AsidsDistinct := by
  rw [distinctStep, Option.filter_eq_some_iff, decide_eq_true_iff]

lemma distinctStep_fill (cpuid : Fin NUM_CPU) (h : s.AsidsDistinct) :
    distinctStep s (.fill cpuid)
      = some { s with core := Function.update s.core cpuid (s.core cpuid).fill } :=
  distinctStep_iff.mpr ⟨rfl, h.congr rfl rfl rfl⟩

/-- An access from up-to-date TLBs, and a fill if it installs a pair. -/
lemma exec_cached {cpuid : Fin NUM_CPU} {x : KernelM (TlbPc × Option MmuOp)}
    (h : s.exec cpuid x = some s') : ∃ t, s.cached.exec cpuid x = some t ∧
      t.kernel = s'.kernel ∧ t.tasks = s'.tasks ∧ t.ended = s'.ended ∧
      (t = s'.cached ∨
        { t with core := Function.update t.core cpuid (t.core cpuid).fill } = s'.cached) := by
  unfold exec at h ⊢
  have hkernel : s.cached.kernel = s.kernel := rfl
  rw [hkernel]
  cases hr : x (s.kernel.onCore (.ofNat 32 cpuid)) with
  | error e k' =>
      rw [hr] at h
      cases h
  | ok r k' =>
      rw [hr] at h
      obtain rfl := Option.some.inj h
      have hcore : ∀ c, Function.update s.cached.core cpuid c.cached
          = fun other => (Function.update s.core cpuid c other).cached := by
        intro c
        funext other
        exact (Function.apply_update (fun _ => CoreTlb.cached) s.core cpuid c other).symm
      refine ⟨_, rfl, rfl, rfl, rfl, ?_⟩
      obtain ⟨pc, _ | op⟩ := r
      · left
        exact congrArg _ (hcore _)
      · rcases op.run_cached (s.core cpuid) with hop | hop
        · left
          exact congrArg _ ((congrArg (Function.update s.cached.core cpuid) hop).trans (hcore _))
        · right
          have hfill : ∀ c, Function.update (Function.update s.cached.core cpuid c) cpuid
              (Function.update s.cached.core cpuid c cpuid).fill
                = Function.update s.cached.core cpuid c.fill := by
            intro c
            rw [Function.update_self, Function.update_idem]
          refine congrArg _ ((hfill _).trans ?_)
          exact (congrArg (Function.update s.cached.core cpuid) hop).trans (hcore _)

/-- A step goes along with a run between the states with up-to-date TLBs. -/
lemma distinctStep_cached {a : TlbAction} (h : distinctStep s a = some s') :
    ∃ as, DistinctRun s.cached as s'.cached := by
  obtain ⟨hstep, hdistinct⟩ := distinctStep_iff.mp h
  have hrun : ∀ {cpuid : Fin NUM_CPU} {x : KernelM (TlbPc × Option MmuOp)},
      s.exec cpuid x = some s' →
      (∀ t, s.cached.exec cpuid x = some t → tlbStep s.cached a = some t) →
      ∃ as, DistinctRun s.cached as s'.cached := by
    intro cpuid x hx hcached
    obtain ⟨t, ht, hkernel, htasks, hended, hfill⟩ := exec_cached hx
    have htd : t.AsidsDistinct := hdistinct.congr hkernel htasks hended
    have hfirst : DistinctRun s.cached [a] t := .single (distinctStep_iff.mpr ⟨hcached t ht, htd⟩)
    rcases hfill with rfl | hfill
    · exact ⟨_, hfirst⟩
    · exact ⟨_, hfirst.snoc (a := .fill cpuid) (hfill ▸ distinctStep_fill cpuid htd)⟩
  cases a with
  | fill cpuid =>
      obtain rfl := Option.some.inj hstep
      refine ⟨[], ?_⟩
      have hcore : ∀ other, (Function.update s.core cpuid (s.core cpuid).fill other).cached
          = (s.core other).cached := by
        intro other
        by_cases hother : other = cpuid
        · rw [hother, Function.update_self]
          rfl
        · rw [Function.update_of_ne hother]
      have hsame : ({ s with core := Function.update s.core cpuid (s.core cpuid).fill }
          : TlbState).cached = s.cached :=
        congrArg (fun core => ({ s with core := core } : TlbState)) (funext hcore)
      rw [hsame]
      exact .nil _
  | call cpuid call =>
      obtain ⟨hready, hexec⟩ := Option.ite_none_right_eq_some.mp hstep
      exact hrun hexec fun t ht => (if_pos hready).trans ht
  | next cpuid => exact hrun hstep fun t ht => ht

lemma distinctRun_cached (hr : DistinctRun s as s') :
    ∃ as', DistinctRun s.cached as' s'.cached := by
  induction hr with
  | nil => exact ⟨[], .nil _⟩
  | snoc _ ha ih =>
      obtain ⟨as₁, h₁⟩ := ih
      obtain ⟨as₂, h₂⟩ := distinctStep_cached ha
      exact ⟨as₁ ++ as₂, h₁.append h₂⟩

/-- The cores bring their TLBs up to date before the first call. -/
lemma TlbState.Initial.fill (h0 : s.Initial) (hd : s.AsidsDistinct) :
    DistinctRun s [.fill 0, .fill 1, .fill 2, .fill 3] s.cached := by
  have hfill : ∀ cpuid, (s.core cpuid).fill = (s.core cpuid).cached := by
    intro cpuid
    unfold CoreTlb.fill CoreTlb.cached
    rw [h0.installed, h0.tlb]
  have hlast : Function.update (Function.update (Function.update (Function.update s.core 0
      (s.core 0).fill) 1 (s.core 1).fill) 2 (s.core 2).fill) 3 (s.core 3).fill
        = fun cpuid => (s.core cpuid).cached := by
    funext cpuid
    fin_cases cpuid <;> exact hfill _
  have hstep : ∀ core core' cpuid, core' = Function.update core cpuid (core cpuid).fill →
      distinctStep { s with core := core } (.fill cpuid) = some { s with core := core' } := by
    rintro core _ cpuid rfl
    exact distinctStep_fill cpuid (hd.congr rfl rfl rfl)
  unfold TlbState.cached
  rw [← hlast]
  exact .cons (hstep _ _ 0 rfl) (.cons (hstep _ _ 1 rfl) (.cons (hstep _ _ 2 rfl)
    (.single (hstep _ _ 3 rfl))))

/-- **The condition is needed.**  Where a core is about to set the ASID of a task that has not
been ended and the condition fails, there is a run that leaves a stale entry. -/
theorem stale_of_not_fresh (h0 : s.Initial) (hd : s.AsidsDistinct) (hr : DistinctRun s as s')
    (hd' : s'.AsidsDistinct) {cpuid : Fin NUM_CPU} {task asid : Word}
    (hpc : s'.pc cpuid = .writeAsid asid) (htask : task ∈ s'.tasks) (hended : task ∉ s'.ended)
    (hasid : (s'.kernel.tcb task).asid = asid &&& 0xFF)
    (httbr : (s'.core cpuid).ttbr0 = s'.table task) (hnot : ¬ s'.InstallsFresh (.next cpuid)) :
    ∃ as t, DistinctRun s as t ∧ ¬ t.NoStale := by
  simp only [InstallsFresh, hpc, not_forall, not_not] at hnot
  obtain ⟨hne, -, hstale⟩ := hnot
  obtain ⟨as', hcached⟩ := distinctRun_cached hr
  have hnext : distinctStep s'.cached (.next cpuid) = some { s'.cached with
      kernel := s'.kernel.onCore (.ofNat 32 cpuid)
      pc := Function.update s'.pc cpuid .idle
      core := Function.update s'.cached.core cpuid ((s'.core cpuid).cached.setAsid asid) } := by
    refine distinctStep_iff.mpr ⟨?_, ?_⟩
    · show s'.cached.exec cpuid (s'.pc cpuid).run = _
      unfold exec
      rw [show s'.cached.pc cpuid = .writeAsid asid from hpc, hpc]
      rfl
    · exact hd'
  refine ⟨_, _, ((h0.fill hd).append hcached).snoc hnext, fun hno => ?_⟩
  have hself : Function.update s'.cached.core cpuid ((s'.core cpuid).cached.setAsid asid) cpuid
      = (s'.core cpuid).cached.setAsid asid := Function.update_self ..
  refine hno cpuid task htask hended (hasid.trans_ne hne) ?_ ?_
  · refine (congrArg CoreTlb.pair hself).trans (Prod.ext ?_ httbr)
    exact (CoreTlb.asid_setAsid asid _).trans hasid.symm
  · rw [httbr, ← hasid] at hstale
    exact (congrArg CoreTlb.tlb hself) ▸ hstale

end Tlb

end Rpi2Baremetal
