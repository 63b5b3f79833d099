import Rpi2Baremetal.Framework.Transition
import Rpi2Baremetal.Model.StartSecondary
import Mathlib.Tactic

/-!
# The handshake with the secondary cores

`start_secondary_core` deals with the cores one after the other, and with the next only when the
last has answered: it writes the entry address of a core once, to a mailbox it has found empty, and
takes the mailbox being empty again for the answer.  An answer is thus a write of other bits than 0
to the `CLR` register, and `sys_init_secondary` writes 0.
-/

namespace Rpi2Baremetal

namespace Multicore

open Framework Console

/-! ## What the trace of a run is made of -/

/-- Some reads of a register, none of which has found it empty. -/
inductive Polled (reg : Word) : ℕ → List StartEvent → Prop
  | nil : Polled reg 0 []
  | snoc {k : ℕ} {es : List StartEvent} {value : Word} (prints : List Cmd) :
      Polled reg k es → value ≠ 0 →
      Polled reg (k + 1) (es ++ .read reg value :: prints.map .print)

/-- A core has answered within the time limits. -/
structure Answered (nCore : ℕ) (es : List StartEvent) : Prop where
  exists_polled : ∃ k ≤ 1000000, ∃ k' ≤ 1000000, ∃ p p', Polled (nMbClr nCore) k p ∧
    Polled (nMbClr nCore) k' p' ∧
    es = p ++ [.read (nMbClr nCore) 0, .write (nMbSet nCore) Reset.secondaryStartBase]
      ++ (p' ++ [.read (nMbClr nCore) 0])

/-- The cores before `nCore` have answered, one after the other. -/
inductive AllAnswered (start : List StartEvent) : ℕ → List StartEvent → Prop
  | nil : AllAnswered start 1 start
  | snoc {nCore : ℕ} {es e : List StartEvent} :
      AllAnswered start nCore es → Answered nCore e → AllAnswered start (nCore + 1) (es ++ e)

/-- A core has a mailbox that does not become empty in a million and one reads, before the entry
address is written to it or after. -/
inductive GaveUp (nCore : ℕ) : List StartEvent → Prop
  | occupied {k : ℕ} {p : List StartEvent} :
      k = 1000001 → Polled (nMbClr nCore) k p →
      GaveUp nCore (p ++ noAnswer nCore "does not respond\n")
  | unanswered {k k' : ℕ} {p p' : List StartEvent} :
      k ≤ 1000000 → Polled (nMbClr nCore) k p → k' = 1000001 → Polled (nMbClr nCore) k' p' →
      GaveUp nCore
        (p ++ [.read (nMbClr nCore) 0, .write (nMbSet nCore) Reset.secondaryStartBase]
          ++ (p' ++ noAnswer nCore "did not start\n"))

/-! ## One access -/

/-- What has been done on the way to each place of `start_secondary_core`. -/
inductive Progress (start : List StartEvent) : StartPc → List StartEvent → Prop
  | awaitEmpty {nCore nTimeout : ℕ} {es p : List StartEvent} :
      nCore < 4 → nTimeout ≤ 1000000 → AllAnswered start nCore es →
      Polled (nMbClr nCore) nTimeout p → Progress start (.awaitEmpty nCore nTimeout) (es ++ p)
  | setMailbox {nCore k : ℕ} {es p : List StartEvent} :
      nCore < 4 → k ≤ 1000000 → AllAnswered start nCore es → Polled (nMbClr nCore) k p →
      Progress start (.setMailbox nCore) (es ++ (p ++ [.read (nMbClr nCore) 0]))
  | awaitAnswer {nCore nTimeout k : ℕ} {es p p' : List StartEvent} :
      nCore < 4 → nTimeout ≤ 1000000 → k ≤ 1000000 → AllAnswered start nCore es →
      Polled (nMbClr nCore) k p → Polled (nMbClr nCore) nTimeout p' →
      Progress start (.awaitAnswer nCore nTimeout)
        (es ++ (p ++ [.read (nMbClr nCore) 0, .write (nMbSet nCore) Reset.secondaryStartBase]
          ++ p'))
  | started {es : List StartEvent} :
      AllAnswered start 4 es → Progress start (.returned true) es
  | gaveUp {nCore : ℕ} {es e : List StartEvent} :
      nCore < 4 → AllAnswered start nCore es → GaveUp nCore e →
      Progress start (.returned false) (es ++ e)

/-- The accesses that `start_secondary_core` makes at most before it returns. -/
def StartPc.remaining : StartPc → ℕ
  | .awaitEmpty nCore nTimeout => (3 - nCore) * 2000003 + (1000001 - nTimeout) + 1000002
  | .setMailbox nCore => (3 - nCore) * 2000003 + 1000002
  | .awaitAnswer nCore nTimeout => (3 - nCore) * 2000003 + (1000001 - nTimeout)
  | .returned _ => 0

variable {s s' : StartState} {start : List StartEvent}

lemma Progress.next (h : Progress start s.pc s.trace) (hs : startNext s = some s') :
    Progress start s'.pc s'.trace ∧ s'.pc.remaining + 1 ≤ s.pc.remaining := by
  obtain ⟨mailbox3, pc, trace⟩ := s
  cases h with
  | @awaitEmpty nCore nTimeout es p hcore htimeout hes hp =>
      simp only [startNext] at hs
      split_ifs at hs with hvalue hlast <;> obtain rfl := Option.some.inj hs
      · have hpolled :=
          hp.snoc [.registerValuePuts (cstr "n_timeout: ") (.ofNat 32 nTimeout)] hvalue
        refine ⟨?_, by simp only [StartPc.remaining]; omega⟩
        simpa using Progress.gaveUp hcore hes (.occupied (by omega) hpolled)
      · have hpolled :=
          hp.snoc [.registerValuePuts (cstr "n_timeout: ") (.ofNat 32 nTimeout)] hvalue
        refine ⟨?_, by simp only [StartPc.remaining]; omega⟩
        simpa using Progress.awaitEmpty hcore (by omega) hes hpolled
      · refine ⟨?_, by simp only [StartPc.remaining]; omega⟩
        have hnext := Progress.setMailbox hcore htimeout hes hp
        rw [not_not.mp hvalue]
        simpa using hnext
  | @setMailbox nCore k es p hcore hk hes hp =>
      obtain rfl := Option.some.inj hs
      refine ⟨?_, by simp only [StartPc.remaining]; omega⟩
      simpa using Progress.awaitAnswer hcore (Nat.zero_le _) hk hes hp .nil
  | @awaitAnswer nCore nTimeout k es p p' hcore htimeout hk hes hp hp' =>
      simp only [startNext] at hs
      split_ifs at hs with hvalue hlast hmore <;> obtain rfl := Option.some.inj hs
      · have hpolled := hp'.snoc [] hvalue
        refine ⟨?_, by simp only [StartPc.remaining]; omega⟩
        simpa using Progress.gaveUp hcore hes (.unanswered hk hp (by omega) hpolled)
      · have hpolled := hp'.snoc [] hvalue
        refine ⟨?_, by simp only [StartPc.remaining]; omega⟩
        simpa using Progress.awaitAnswer hcore (by omega) hk hes hp hpolled
      · have hall := hes.snoc ⟨k, hk, nTimeout, htimeout, p, p', hp, hp', rfl⟩
        have hnext := Progress.awaitEmpty hmore (Nat.zero_le _) hall .nil
        refine ⟨?_, by unfold CORES at hmore; simp only [StartPc.remaining]; omega⟩
        rw [not_not.mp hvalue]
        simpa using hnext
      · have hall := hes.snoc ⟨k, hk, nTimeout, htimeout, p, p', hp, hp', rfl⟩
        obtain rfl : nCore = 3 := by unfold CORES at hmore; omega
        refine ⟨?_, by simp only [StartPc.remaining]; omega⟩
        rw [not_not.mp hvalue]
        simpa using Progress.started hall
  | started hes => cases hs
  | gaveUp hcore hes he => cases hs

lemma startNext_isSome (h : ∀ result, s.pc ≠ .returned result) : (startNext s).isSome := by
  obtain ⟨mailbox3, pc, trace⟩ := s
  cases pc with
  | awaitEmpty nCore nTimeout =>
      simp only [startNext]
      split_ifs <;> rfl
  | setMailbox nCore => rfl
  | awaitAnswer nCore nTimeout =>
      simp only [startNext]
      split_ifs <;> rfl
  | returned result => exact absurd rfl (h result)

/-! ## Whole runs -/

/-- The accesses of `start_secondary_core` in a run. -/
def accesses (labels : List StartAct) : ℕ := labels.count .primary

/-- What holds after every step of a run. -/
structure StartInv (start : List StartEvent) (labels : List StartAct) (s : StartState) : Prop where
  progress : Progress start s.pc s.trace
  accesses : accesses labels + s.pc.remaining ≤ 6000009

lemma StartInv.step {labels : List StartAct} {act : StartAct} (h : StartInv start labels s)
    (hs : startStep s act = some s') : StartInv start (labels ++ [act]) s' := by
  have hcount := h.accesses
  cases act with
  | primary =>
      obtain ⟨hnext, hless⟩ := h.progress.next hs
      refine ⟨hnext, ?_⟩
      simp only [Multicore.accesses, List.count_append, List.count_singleton_self] at hcount ⊢
      omega
  | write reg value =>
      obtain rfl := Option.some.inj hs
      refine ⟨h.progress, ?_⟩
      simpa [Multicore.accesses] using hcount

lemma startInv_start (nRouting : Word) (mailbox3 : Fin NUM_CPU → Word) :
    StartInv (startSecondaryCore nRouting mailbox3).trace []
      (startSecondaryCore nRouting mailbox3) where
  progress := by
    have hnil : Progress (startSecondaryCore nRouting mailbox3).trace (.awaitEmpty 1 0)
        ((startSecondaryCore nRouting mailbox3).trace ++ []) :=
      .awaitEmpty (by omega) (Nat.zero_le _) .nil .nil
    rwa [List.append_nil] at hnil
  accesses := by simp [accesses, startSecondaryCore, StartPc.remaining]

/-- **The handshake.**  Whatever the mailboxes hold and whatever the other cores write to them, at
any time: `start_secondary_core` returns after at most 6000009 accesses.  It deals with the cores in
order, and with each as `Answered` says; it returns `TRUE` when the last core has answered, and
`FALSE` after the messages on the first core that it has given up. -/
theorem start_secondary_core_handshake {nRouting : Word} {mailbox3 : Fin NUM_CPU → Word}
    {labels : List StartAct}
    (hr : Run (fun s a s' => startStep s a = some s') (startSecondaryCore nRouting mailbox3)
      labels s) :
    accesses labels ≤ 6000009 ∧
      ((∀ result, s.pc ≠ .returned result) → (startStep s .primary).isSome) ∧
      (s.pc = .returned true →
        AllAnswered (startSecondaryCore nRouting mailbox3).trace 4 s.trace) ∧
      (s.pc = .returned false → ∃ nCore < 4, ∃ es e,
        AllAnswered (startSecondaryCore nRouting mailbox3).trace nCore es ∧ GaveUp nCore e ∧
          s.trace = es ++ e) := by
  have hinv := hr.history_invariant (fun _ _ _ _ hI hs => StartInv.step hI hs)
    (startInv_start nRouting mailbox3)
  have hprogress := hinv.progress
  refine ⟨by have := hinv.accesses; omega, startNext_isSome, fun hpc => ?_, fun hpc => ?_⟩
  · rw [hpc] at hprogress
    generalize s.trace = es at hprogress
    cases hprogress with
    | started hes => exact hes
  · rw [hpc] at hprogress
    generalize s.trace = es at hprogress
    cases hprogress with
    | gaveUp hcore hes he => exact ⟨_, hcore, _, _, hes, he, rfl⟩

/-- The accesses to the mailbox of a core that answers at once. -/
def answering (core : ℕ) : List StartAct :=
  [.primary, .primary, .write (nMbClr core) (BitVec.allOnes 32), .primary]

theorem start_secondary_core_handshake_answering :
    ∃ s : StartState, s.pc = .returned true ∧
      AllAnswered (startSecondaryCore 0 fun _ => 0).trace 4 s.trace := by
  have hpc : ((answering 1 ++ answering 2 ++ answering 3).foldlM startStep
      (startSecondaryCore 0 fun _ => 0)).map (·.pc) = some (.returned true) := by decide
  obtain ⟨s, hs, hpc⟩ := Option.map_eq_some_iff.mp hpc
  exact ⟨s, hpc, (start_secondary_core_handshake (Run.of_foldlM hs)).2.2.1 hpc⟩

/-! ## The mailboxes -/

section Registers

variable (mailbox3 : Fin NUM_CPU → Word) (other value : Word) (core : Fin NUM_CPU)

lemma readMailbox3_clr : readMailbox3 mailbox3 other (nMbClr core) = mailbox3 core := by
  fin_cases core <;> rfl

lemma writeMailbox3_set :
    writeMailbox3 mailbox3 (nMbSet core) value =
      Function.update mailbox3 core (mailbox3 core ||| value) := by
  have hset : ∀ core c : Fin NUM_CPU, nMbSet core = armLocalMailbox3Set c ↔ c = core := by decide
  have hclr : ∀ core c : Fin NUM_CPU, nMbSet core ≠ armLocalMailbox3Clr c := by decide
  funext c
  rw [writeMailbox3, if_neg (hclr core c), Function.update_apply]
  simp only [hset]
  split_ifs with heq
  · rw [heq]
  · rfl

lemma writeMailbox3_clr :
    writeMailbox3 mailbox3 (nMbClr core) value =
      Function.update mailbox3 core (mailbox3 core &&& ~~~value) := by
  have hset : ∀ core c : Fin NUM_CPU, nMbClr core ≠ armLocalMailbox3Set c := by decide
  have hclr : ∀ core c : Fin NUM_CPU, nMbClr core = armLocalMailbox3Clr c ↔ c = core := by decide
  funext c
  rw [writeMailbox3, if_neg (hset core c), Function.update_apply]
  simp only [hclr]
  split_ifs with heq
  · rw [heq]
  · rfl

end Registers

/-- The write of `sys_init_secondary` clears nothing: a bit is cleared by writing a 1 to it. -/
lemma startStep_clearMailbox3 (cpuid : Fin NUM_CPU) (s : StartState) :
    startStep s (clearMailbox3 cpuid) = some s := by
  have hsame : writeMailbox3 s.mailbox3 (nMbClr cpuid) 0#32 = s.mailbox3 := by
    rw [writeMailbox3_clr, BitVec.not_zero, BitVec.and_allOnes, Function.update_eq_self]
  exact congrArg (fun mailbox3 => some { s with mailbox3 := mailbox3 }) hsame

/-- The mailboxes after the entry address has been written to that of core 1. -/
def entryWritten : Fin NUM_CPU → Word := Function.update (fun _ => 0) 1 Reset.secondaryStartBase

/-- Where `start_secondary_core` is after some accesses when nobody clears a mailbox. -/
inductive Unanswered : ℕ → (Fin NUM_CPU → Word) → StartPc → Prop
  | awaitEmpty : Unanswered 0 (fun _ => 0) (.awaitEmpty 1 0)
  | setMailbox : Unanswered 1 (fun _ => 0) (.setMailbox 1)
  | awaitAnswer {nTimeout : ℕ} {mailbox3 : Fin NUM_CPU → Word} :
      nTimeout ≤ 1000000 → mailbox3 = entryWritten →
      Unanswered (nTimeout + 2) mailbox3 (.awaitAnswer 1 nTimeout)
  | gaveUp {k : ℕ} {mailbox3 : Fin NUM_CPU → Word} :
      k = 1000003 → mailbox3 = entryWritten → Unanswered k mailbox3 (.returned false)

lemma Unanswered.next {k : ℕ} (h : Unanswered k s.mailbox3 s.pc) (hs : startNext s = some s') :
    Unanswered (k + 1) s'.mailbox3 s'.pc := by
  obtain ⟨mailbox3, pc, trace⟩ := s
  cases h with
  | awaitEmpty =>
      have hread : readMailbox3 (fun _ => 0) 0 (nMbClr 1) = 0 := readMailbox3_clr _ 0 1
      simp only [startNext, hread, ne_eq, not_true_eq_false, if_false] at hs
      obtain rfl := Option.some.inj hs
      exact .setMailbox
  | setMailbox =>
      obtain rfl := Option.some.inj hs
      have hwrite : writeMailbox3 (fun _ => 0) (nMbSet 1) Reset.secondaryStartBase =
          entryWritten :=
        writeMailbox3_set (fun _ => 0) Reset.secondaryStartBase 1
      exact .awaitAnswer (Nat.zero_le _) hwrite
  | @awaitAnswer nTimeout _ htimeout hentry =>
      change mailbox3 = entryWritten at hentry
      have hread : readMailbox3 mailbox3 0 (nMbClr 1) ≠ 0 := by
        have hcore : readMailbox3 mailbox3 0 (nMbClr 1) = mailbox3 1 := readMailbox3_clr _ 0 1
        rw [hcore, hentry]
        decide
      simp only [startNext] at hs
      rw [if_pos hread] at hs
      split_ifs at hs with hlast <;> obtain rfl := Option.some.inj hs
      · exact .gaveUp (by omega) hentry
      · exact .awaitAnswer (by omega) hentry
  | gaveUp hk => cases hs

/-- **Nobody answers.**  With empty mailboxes, and with no other accesses to them than the write by
which `sys_init_secondary` means to clear the mailbox of its core, on any cores and at any time:
`start_secondary_core` never returns `TRUE`.  It gives up on core 1 after 1000003 accesses, and the
mailboxes of cores 2 and 3 stay empty. -/
theorem start_secondary_core_unanswered {nRouting : Word} {labels : List StartAct}
    (hr : Run (fun s a s' => startStep s a = some s') (startSecondaryCore nRouting fun _ => 0)
      labels s)
    (hlabels : ∀ act ∈ labels, act = .primary ∨ ∃ cpuid, act = clearMailbox3 cpuid) :
    s.pc ≠ .returned true ∧ (∀ core ≠ 1, s.mailbox3 core = 0) ∧ accesses labels ≤ 1000003 ∧
      (accesses labels = 1000003 → s.pc = .returned false) := by
  have hinv : Unanswered (accesses labels) s.mailbox3 s.pc := by
    have hstart : Unanswered (accesses []) (fun _ => 0) (.awaitEmpty 1 0) := .awaitEmpty
    refine (hr.guarded_of_forall hlabels).history_invariant
      (I := fun labels s => Unanswered (accesses labels) s.mailbox3 s.pc)
      (fun labels t act t' ht hs => ?_) hstart
    obtain ⟨rfl | ⟨cpuid, rfl⟩, hs⟩ := hs
    · rw [accesses, List.count_append, List.count_singleton_self]
      exact ht.next hs
    · obtain rfl := Option.some.inj ((startStep_clearMailbox3 cpuid t).symm.trans hs)
      have hcount : accesses (labels ++ [clearMailbox3 cpuid]) = accesses labels := by
        simp [accesses, clearMailbox3]
      rwa [hcount]
  have hempty : ∀ mailbox3, mailbox3 = entryWritten → ∀ core ≠ 1, mailbox3 core = 0 := by
    rintro _ rfl core hcore
    exact Function.update_of_ne hcore ..
  generalize accesses labels = k at hinv ⊢
  generalize s.mailbox3 = mailbox3 at hinv ⊢
  generalize s.pc = pc at hinv ⊢
  cases hinv with
  | awaitEmpty => exact ⟨by simp, fun _ _ => rfl, by omega, fun h => by omega⟩
  | setMailbox => exact ⟨by simp, fun _ _ => rfl, by omega, fun h => by omega⟩
  | awaitAnswer htimeout hentry =>
      exact ⟨by simp, hempty _ hentry, by omega, fun h => by omega⟩
  | gaveUp hk hentry => exact ⟨by simp, hempty _ hentry, hk.le, fun _ => rfl⟩

theorem start_secondary_core_unanswered_clear :
    ∃ s : StartState, s.pc = .awaitAnswer 1 1 ∧ s.pc ≠ .returned true := by
  have hpc : ([.primary, .primary, clearMailbox3 1, .primary].foldlM startStep
      (startSecondaryCore 0 fun _ => 0)).map (·.pc) = some (.awaitAnswer 1 1) := by decide
  obtain ⟨s, hs, hpc⟩ := Option.map_eq_some_iff.mp hpc
  refine ⟨s, hpc, (start_secondary_core_unanswered (Run.of_foldlM hs) fun act hact => ?_).1⟩
  obtain rfl | rfl | rfl | rfl : act = .primary ∨ act = .primary ∨ act = clearMailbox3 1 ∨
      act = .primary := by simpa using hact
  · exact .inl rfl
  · exact .inl rfl
  · exact .inr ⟨1, rfl⟩
  · exact .inl rfl

end Multicore

end Rpi2Baremetal
