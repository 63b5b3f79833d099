import Rpi2Baremetal.Framework.Transition
import Rpi2Baremetal.Model.BootCalls
import Rpi2Baremetal.Properties.ConsoleOutput
import Mathlib.Tactic

/-!
# The boot does not get past its barrier

A core other than core 0 prints through `uart_puts` after it has turned its MMU on.  From then on
the command on top of its stack is always one that prints or takes a lock (`Printing`), and under
it is another: the core never returns to the call it made.  So `waking_cores` counts core 0 alone,
and core 0 waits for four.
-/

namespace Rpi2Baremetal

open Framework

namespace Console

open CallStack

variable {env : Env} {s s' : State} {c : Cmd} {body k : List Cmd}

/-! ## Commands that leave the counter alone -/

lemma counts_body (env : Env) (h : c.counts = false) : ∀ d ∈ c.body env, d.counts = false := by
  have hcommon : ∀ d : Cmd, d.common = true → d.counts = false := by
    intro d hd
    cases d <;> first | rfl | cases hd
  by_cases hsend : ∃ b, c = .uartSend b
  · obtain ⟨b, rfl⟩ := hsend
    rw [Cmd.body]
    split_ifs <;> simp [Cmd.counts]
  · have hbody := common_of_mem_body env (not_exists.mp hsend) (c := c)
      (by rintro rfl; cases h) (by rintro rfl; cases h)
    exact fun d hd => hcommon d (hbody d hd)

/-- The counter, and what was last read from it, are the same. -/
def SameCounter (s s' : State) : Prop :=
  s'.wakingCores = s.wakingCores ∧ s'.wakingCoresRead = s.wakingCoresRead

lemma exec_counts (env : Env) (h : c.counts = false) (s : State) :
    match exec env c s with
    | .call body s' => (∀ d ∈ body, d.counts = false) ∧ SameCounter s s'
    | .wait s' => SameCounter s s' := by
  have hbody := counts_body env h
  cases c with
  | getWakingCores => cases h
  | incWakingCores => cases h
  | readWakingCores => cases h
  | addWakingCores => cases h
  | asmSpinReq lock =>
      rw [exec]
      split_ifs <;> simp [SameCounter]
  | asmSpinRel lock =>
      rw [exec]
      split_ifs <;> simp [SameCounter]
  | waitTxEmpty =>
      simp only [exec]
      split_ifs <;> simp [SameCounter]
  | waitRxReady =>
      simp only [exec]
      split_ifs <;> simp [SameCounter]
  | writeIo c => simp [exec, SameCounter]
  | echoIo => simp [exec, SameCounter, Cmd.counts]
  | write32 reg value => simp [exec, SameCounter]
  | auxIntHandler =>
      simp only [exec]
      split_ifs <;> simp [SameCounter, Cmd.counts]
  | _ => exact ⟨hbody, rfl, rfl⟩

/-- A step of commands that leave the counter alone. -/
lemma step_counts (env : Env) (h : ∀ c ∈ k, c.counts = false) (s : State) :
    (∀ c ∈ (step (exec env) (k, s)).1, c.counts = false) ∧
      SameCounter s (step (exec env) (k, s)).2 := by
  cases k with
  | nil => exact ⟨h, rfl, rfl⟩
  | cons c k =>
      have hc := exec_counts env (h c List.mem_cons_self) s
      have hk : ∀ d ∈ k, d.counts = false := fun d hd => h d (List.mem_cons_of_mem c hd)
      cases hexec : exec env c s with
      | call body s' =>
          rw [hexec] at hc
          rw [step_call hexec]
          exact ⟨List.forall_mem_append.mpr ⟨hc.1, hk⟩, hc.2⟩
      | wait s' =>
          rw [hexec] at hc
          rw [step_wait hexec]
          exact ⟨h, hc⟩

/-! ## Printing on another core with the MMU on -/

/-- The next command prints or takes a lock, or it is a `_spin_req` that printing follows. -/
def Printing : List Cmd → Prop
  | .asmSpinReq _ :: .registerValuePuts _ _ :: _ => True
  | .spinReq _ :: _ => True
  | .uartPuts _ :: _ => True
  | .registerValuePuts _ _ :: _ => True
  | _ => False

lemma Printing.ne_nil (h : Printing k) : k ≠ [] := by
  rintro rfl
  exact h

/-- Each of these functions begins with another of them, and a lock that is taken is announced:
the core goes on printing, and changes nothing but the lock words. -/
lemma Printing.step (hp : env.prid ≠ 0) (hmmu : env.mmuEnabled = true) (h : Printing k)
    (s : State) :
    Printing (step (exec env) (k, s)).1 ∧ SameCounter s (step (exec env) (k, s)).2 := by
  match k, h with
  | .asmSpinReq lock :: .registerValuePuts str hex :: k, h =>
      by_cases hheld : s.held lock = true
      · have hexec : exec env (.asmSpinReq lock) s = .wait s := by simp [exec, hheld]
        rw [step_wait hexec]
        exact ⟨h, rfl, rfl⟩
      · have hexec : exec env (.asmSpinReq lock) s
            = .call [] { s with held := Function.update s.held lock true } := by
          simp [exec, hheld]
        rw [step_call hexec]
        exact ⟨trivial, rfl, rfl⟩
  | .spinReq lock :: k, _ =>
      have hexec : exec env (.spinReq lock) s = .call (Cmd.body env (.spinReq lock)) s := rfl
      rw [step_call hexec, Cmd.body, if_pos hp]
      exact ⟨trivial, rfl, rfl⟩
  | .uartPuts str :: k, _ =>
      have hexec : exec env (.uartPuts str) s = .call (Cmd.body env (.uartPuts str)) s := rfl
      rw [step_call hexec, Cmd.body, if_pos hmmu]
      exact ⟨trivial, rfl, rfl⟩
  | .registerValuePuts str hex :: k, _ => exact ⟨trivial, rfl, rfl⟩

/-! ## The increments to come -/

/-- The increments of the counter that the commands will make. -/
def stackIncrements (k : List Cmd) : ℕ :=
  k.countP fun
    | .incWakingCores | .addWakingCores => true
    | _ => false

lemma stackIncrements_append (k l : List Cmd) :
    stackIncrements (k ++ l) = stackIncrements k + stackIncrements l :=
  List.countP_append

lemma stackIncrements_eq_zero (h : ∀ c ∈ k, c.counts = false) : stackIncrements k = 0 := by
  refine List.countP_eq_zero.mpr fun c hc => ?_
  have hcounts := h c hc
  cases c <;> simp_all [Cmd.counts]

/-- What a command adds to the counter and what it leaves to do come to what there was to do. -/
lemma exec_stackIncrements (s : State) (hfit : s.wakingCores.toNat + 1 < 2 ^ 32)
    (h : exec env c s = .call body s') :
    s'.wakingCores.toNat + stackIncrements body = s.wakingCores.toNat + stackIncrements [c] := by
  by_cases hcounts : c.counts = false
  · have hc := exec_counts env hcounts s
    rw [h] at hc
    rw [stackIncrements_eq_zero hc.1, stackIncrements_eq_zero (k := [c]) (by simpa using hcounts),
      hc.2.1]
  · cases c with
    | getWakingCores =>
        obtain ⟨rfl, rfl⟩ := Effect.call.inj h
        rfl
    | incWakingCores =>
        obtain ⟨rfl, rfl⟩ := Effect.call.inj h
        rfl
    | readWakingCores =>
        obtain ⟨rfl, rfl⟩ := Effect.call.inj h
        rfl
    | addWakingCores =>
        obtain ⟨rfl, rfl⟩ := Effect.call.inj h
        exact BitVec.toNat_add_of_lt (x := s.wakingCores) (y := 1) hfit
    | _ => exact absurd rfl hcounts

/-- What is read from the counter is its value. -/
lemma exec_wakingCoresRead (s : State) (h : exec env c s = .call body s') :
    s'.wakingCoresRead = s.wakingCoresRead ∨ s'.wakingCoresRead = s.wakingCores := by
  by_cases hcounts : c.counts = false
  · have hc := exec_counts env hcounts s
    rw [h] at hc
    exact .inl hc.2.2
  · cases c with
    | readWakingCores =>
        obtain ⟨rfl, rfl⟩ := Effect.call.inj h
        exact .inr rfl
    | getWakingCores | incWakingCores | addWakingCores =>
        obtain ⟨rfl, rfl⟩ := Effect.call.inj h
        exact .inl rfl
    | _ => exact absurd rfl hcounts

/-- A step of any commands. -/
lemma step_stackIncrements (env : Env) (k : List Cmd) (s : State)
    (hfit : s.wakingCores.toNat + 1 < 2 ^ 32) :
    (step (exec env) (k, s)).2.wakingCores.toNat + stackIncrements (step (exec env) (k, s)).1
        = s.wakingCores.toNat + stackIncrements k ∧
      ((step (exec env) (k, s)).2.wakingCoresRead = s.wakingCoresRead ∨
        (step (exec env) (k, s)).2.wakingCoresRead = s.wakingCores) := by
  cases k with
  | nil => exact ⟨rfl, .inl rfl⟩
  | cons c k =>
      cases hexec : exec env c s with
      | call body s' =>
          have hadd := exec_stackIncrements s hfit hexec
          have hsplit := stackIncrements_append [c] k
          rw [List.singleton_append] at hsplit
          rw [step_call hexec, stackIncrements_append, hsplit]
          exact ⟨by rw [← Nat.add_assoc, hadd, Nat.add_assoc], exec_wakingCoresRead s hexec⟩
      | wait s' =>
          have hcounts : c.counts = false := by
            cases c <;> first | rfl | cases hexec
          have hsame := exec_counts env hcounts s
          rw [hexec] at hsame
          rw [step_wait hexec]
          exact ⟨by rw [hsame.1], .inl hsame.2⟩

end Console

namespace Startup

open Console

/-! ## The steps of a core -/

/-- What a step makes of a core that has started, and of what the cores share. -/
inductive CoreStep (cpuid : Fin NUM_CPU) (c : BootCore) (shared : Console.State) :
    BootCore → Console.State → Prop
  | enter {call : InitCall} {other cmds : List Cmd} :
      (program cpuid)[c.pc]? = some call → call.cmds other = some cmds → c.inCall = false →
      c.stack = [] → CoreStep cpuid c shared { c with inCall := true, stack := cmds } shared
  | exec {env : Env} {k : List Cmd} {shared' : Console.State} :
      env.prid = .ofNat 32 cpuid → env.mmuEnabled = c.mmuOn →
      CallStack.step (Console.exec env)
        (c.stack, { shared with wakingCoresRead := c.wakingCoresRead }) = (k, shared') →
      CoreStep cpuid c shared
        { c with stack := k, wakingCoresRead := shared'.wakingCoresRead } shared'
  | irq (i : Interrupt.IrqInput) :
      CoreStep cpuid c shared { c with stack := .interruptHandler i :: c.stack } shared
  | enableMmu :
      (program cpuid)[c.pc]? = some .startMmuNoLock → c.inCall = true → c.stack = [] →
      CoreStep cpuid c shared
        { c with mmuOn := true, stack := [.uartPuts (cstr "Enable MMU\n")] } shared
  | again :
      (program cpuid)[c.pc]? = some .waitWakingCores → c.inCall = true → c.stack = [] →
      CoreStep cpuid c shared { c with stack := [.getWakingCores] } shared
  | ret {call : InitCall} {held : LockWord → Bool} :
      (program cpuid)[c.pc]? = some call → c.inCall = true → c.stack = [] →
      (call = .startMmuNoLock → c.mmuOn = true) →
      (call = .waitWakingCores → c.wakingCoresRead ≥ 4) →
      CoreStep cpuid c shared { c with pc := c.pc + 1, inCall := false }
        { shared with held := held }

variable {s s' : BootState} {c c' : BootCore} {cpuid : Fin NUM_CPU} {act : BootAct}
variable {shared shared' : Console.State}

@[simp] lemma BootState.set_core (s : BootState) (cpuid : Fin NUM_CPU) (c : BootCore) :
    (s.set cpuid c).core cpuid = some c := Function.update_self ..

lemma BootState.set_core_of_ne (s : BootState) {cpuid i : Fin NUM_CPU} (hi : i ≠ cpuid)
    (c : BootCore) : (s.set cpuid c).core i = s.core i := Function.update_of_ne hi ..

lemma coreStep_of_step (h : c.step cpuid s act = some s') :
    ∃ c' shared', CoreStep cpuid c s.shared c' shared' ∧
      s' = { s with shared := shared' }.set cpuid c' := by
  cases act with
  | start => cases h
  | enter other =>
      obtain ⟨call, hcall, h⟩ := Option.bind_eq_some_iff.mp h
      obtain ⟨cmds, hcmds, h⟩ := Option.bind_eq_some_iff.mp h
      obtain ⟨⟨hin, hstack⟩, h⟩ := Option.ite_none_right_eq_some.mp h
      exact ⟨_, _, .enter hcall hcmds hin (List.isEmpty_iff.mp hstack), (Option.some.inj h).symm⟩
  | exec env =>
      obtain ⟨⟨hprid, hmmu⟩, h⟩ := Option.ite_none_right_eq_some.mp h
      exact ⟨_, _, .exec hprid hmmu rfl, (Option.some.inj h).symm⟩
  | irq i => exact ⟨_, _, .irq i, (Option.some.inj h).symm⟩
  | enableMmu =>
      obtain ⟨call, hcall, h⟩ := Option.bind_eq_some_iff.mp h
      obtain ⟨⟨hmmu, hin, hstack, -⟩, h⟩ := Option.ite_none_right_eq_some.mp h
      exact ⟨_, _, .enableMmu (hmmu ▸ hcall) hin (List.isEmpty_iff.mp hstack),
        (Option.some.inj h).symm⟩
  | ret =>
      obtain ⟨call, hcall, h⟩ := Option.bind_eq_some_iff.mp h
      obtain ⟨⟨hin, hstack, hmmu⟩, h⟩ := Option.ite_none_right_eq_some.mp h
      split_ifs at h with hwait
      · exact ⟨_, _, .again (hwait.1 ▸ hcall) hin (List.isEmpty_iff.mp hstack),
          (Option.some.inj h).symm⟩
      · refine ⟨_, _, .ret hcall hin (List.isEmpty_iff.mp hstack) hmmu fun hw => ?_,
          (Option.some.inj h).symm⟩
        by_contra hread
        exact hwait ⟨hw, hread⟩

/-! ## The programs -/

lemma counts_cmds {call : InitCall} {other cmds : List Cmd} (h : call.cmds other = some cmds)
    (hinc : ∀ site, call ≠ .incWakingCores site) (hwait : call ≠ .waitWakingCores) :
    ∀ c ∈ cmds, c.counts = false := by
  have hother : (if other.all fun c => !c.counts then some other else none) = some cmds := by
    cases call with
    | incWakingCores site => exact absurd rfl (hinc site)
    | waitWakingCores => exact absurd rfl hwait
    | _ => exact h
  obtain ⟨hall, hcmds⟩ := Option.ite_none_right_eq_some.mp hother
  cases hcmds
  simpa using hall

/-- Until `start_mmu_no_lock` has returned, a secondary core calls nothing that counts. -/
lemma secondary_program (h : cpuid ≠ 0) {n : ℕ} (hn : n ≤ 4) {call : InitCall}
    (hcall : (program cpuid)[n]? = some call) :
    (call = .startMmuNoLock ↔ n = 4) ∧ (∀ site, call ≠ .incWakingCores site) ∧
      call ≠ .waitWakingCores := by
  have hprog : program cpuid = sysInitSecondary cpuid :=
    if_neg fun hzero => h (Fin.ext hzero)
  rw [hprog, sysInitSecondary] at hcall
  interval_cases n <;> cases hcall <;> simp

/-- Where the primary core counts itself in, and where it waits. -/
lemma primary_program {n : ℕ} {call : InitCall} (hcall : (program 0)[n]? = some call) :
    (n = 10 ↔ ∃ site, call = .incWakingCores site) ∧ (n = 15 ↔ call = .waitWakingCores) := by
  obtain ⟨hlt, rfl⟩ := List.getElem?_eq_some_iff.mp hcall
  have hlt : n < 17 := hlt
  interval_cases n <;> simp [program, sysInitPrimary, initSmpKernel, PCore]

/-! ## A secondary core -/

/-- The core has not yet turned its MMU on. -/
structure BootCore.Before (c : BootCore) : Prop where
  pc : c.pc ≤ 4
  mmuOn : c.mmuOn = false
  stack : ∀ d ∈ c.stack, d.counts = false

/-- The core is in `start_mmu_no_lock` with its MMU on, and prints under what IRQs have put on
top. -/
structure BootCore.Hung (c : BootCore) : Prop where
  pc : c.pc = 4
  inCall : c.inCall = true
  mmuOn : c.mmuOn = true
  stack : ∃ k d, c.stack = k ++ d ∧ (∀ q ∈ k, q.counts = false) ∧ Printing d

lemma BootCore.Hung.stack_ne_nil (h : c.Hung) : c.stack ≠ [] := by
  obtain ⟨k, d, heq, -, hd⟩ := h.stack
  rw [heq]
  exact List.append_ne_nil_of_right_ne_nil k hd.ne_nil

lemma BootCore.Before.step (h : c.Before) (hcore : cpuid ≠ 0)
    (hs : CoreStep cpuid c shared c' shared') :
    (c'.Before ∨ c'.Hung) ∧ shared'.wakingCores = shared.wakingCores := by
  cases hs with
  | enter hcall hcmds hin hnil =>
      obtain ⟨-, hinc, hwait⟩ := secondary_program hcore h.pc hcall
      exact ⟨.inl ⟨h.pc, h.mmuOn, counts_cmds hcmds hinc hwait⟩, rfl⟩
  | @exec env k _ hprid hmmu hstep =>
      obtain ⟨hk, hsame⟩ := step_counts env h.stack
        { shared with wakingCoresRead := c.wakingCoresRead }
      rw [hstep] at hk hsame
      exact ⟨.inl ⟨h.pc, h.mmuOn, hk⟩, hsame.1⟩
  | irq i => exact ⟨.inl ⟨h.pc, h.mmuOn, List.forall_mem_cons.mpr ⟨rfl, h.stack⟩⟩, rfl⟩
  | enableMmu hcall hin hnil =>
      have hpc := (secondary_program hcore h.pc hcall).1.mp rfl
      exact ⟨.inr ⟨hpc, hin, rfl, [], _, rfl, by simp, trivial⟩, rfl⟩
  | again hcall hin hnil => exact absurd rfl (secondary_program hcore h.pc hcall).2.2
  | ret hcall hin hnil hmmu hread =>
      have hpc : c.pc ≠ 4 := fun hpc => by
        cases h.mmuOn.symm.trans (hmmu ((secondary_program hcore h.pc hcall).1.mpr hpc))
      exact ⟨.inl ⟨by have := h.pc; show c.pc + 1 ≤ 4; omega, h.mmuOn, h.stack⟩, rfl⟩

lemma BootCore.Hung.step (h : c.Hung) (hcore : cpuid ≠ 0)
    (hs : CoreStep cpuid c shared c' shared') :
    c'.Hung ∧ shared'.wakingCores = shared.wakingCores := by
  cases hs with
  | enter hcall hcmds hin hnil => exact absurd hnil h.stack_ne_nil
  | @exec env _ _ hprid hmmu hstep =>
      have hne : env.prid ≠ 0 := by
        rw [hprid]
        revert hcore
        fin_cases cpuid <;> simp
      obtain ⟨k, d, heq, hk, hd⟩ := h.stack
      rw [heq] at hstep
      cases k with
      | nil =>
          obtain ⟨hd', hsame⟩ := hd.step hne (hmmu.trans h.mmuOn)
            { shared with wakingCoresRead := c.wakingCoresRead }
          rw [List.nil_append] at hstep
          rw [hstep] at hd' hsame
          exact ⟨⟨h.pc, h.inCall, h.mmuOn, [], _, rfl, by simp, hd'⟩, hsame.1⟩
      | cons q k =>
          obtain ⟨hk', hsame⟩ := step_counts env hk
            { shared with wakingCoresRead := c.wakingCoresRead }
          rw [CallStack.step_append (by simp)] at hstep
          obtain ⟨rfl, rfl⟩ := Prod.mk.inj hstep
          exact ⟨⟨h.pc, h.inCall, h.mmuOn, _, d, rfl, hk', hd⟩, hsame.1⟩
  | irq i =>
      obtain ⟨k, d, heq, hk, hd⟩ := h.stack
      exact ⟨⟨h.pc, h.inCall, h.mmuOn, .interruptHandler i :: k, d, by simp [heq],
        List.forall_mem_cons.mpr ⟨rfl, hk⟩, hd⟩, rfl⟩
  | enableMmu hcall hin hnil => exact absurd hnil h.stack_ne_nil
  | again hcall hin hnil => exact absurd hnil h.stack_ne_nil
  | ret hcall hin hnil hmmu hread => exact absurd hnil h.stack_ne_nil

/-! ## The primary core -/

/-- The increments that the primary core has entered. -/
def BootCore.entered (c : BootCore) : ℕ := if 10 < c.pc ∨ c.pc = 10 ∧ c.inCall = true then 1 else 0

lemma BootCore.entered_le (c : BootCore) : c.entered ≤ 1 := by
  unfold entered
  split_ifs <;> omega

/-- The primary core has not left its loop, and the counter shows its own increments. -/
structure BootCore.Waits (c : BootCore) (shared : Console.State) : Prop where
  pc : c.pc ≤ 15
  counted : shared.wakingCores.toNat + stackIncrements c.stack = c.entered
  read : c.wakingCoresRead.toNat ≤ 1

lemma BootCore.Waits.counter_le (h : c.Waits shared) : shared.wakingCores.toNat ≤ 1 := by
  have hcounted := h.counted
  have hentered := c.entered_le
  omega

/-- Entering a call enters the increment that is in it. -/
lemma entered_enter {call : InitCall} {other cmds : List Cmd}
    (hcall : (program 0)[c.pc]? = some call) (hcmds : call.cmds other = some cmds)
    (hin : c.inCall = false) :
    c.entered + stackIncrements cmds = { c with inCall := true, stack := cmds }.entered := by
  obtain ⟨hten, -⟩ := primary_program hcall
  by_cases hpc : c.pc = 10
  · obtain ⟨site, rfl⟩ := hten.mp hpc
    cases hcmds
    simp [BootCore.entered, hpc, hin, stackIncrements]
  · have hzero : stackIncrements cmds = 0 := by
      by_cases hwait : call = .waitWakingCores
      · subst hwait
        cases hcmds
        rfl
      · refine stackIncrements_eq_zero (counts_cmds hcmds (fun site hsite => ?_) hwait)
        exact hpc (hten.mpr ⟨site, hsite⟩)
    simp [BootCore.entered, hpc, hzero]

lemma BootCore.Waits.step (h : c.Waits shared) (hs : CoreStep 0 c shared c' shared') :
    c'.Waits shared' := by
  have hle := h.counter_le
  have hcounted := h.counted
  cases hs with
  | enter hcall hcmds hin hnil =>
      refine ⟨h.pc, ?_, h.read⟩
      rw [hnil] at hcounted
      rw [← entered_enter hcall hcmds hin, ← hcounted]
      rfl
  | @exec env k _ hprid hmmu hstep =>
      obtain ⟨hadd, hread⟩ := step_stackIncrements env c.stack
        { shared with wakingCoresRead := c.wakingCoresRead }
        (by show shared.wakingCores.toNat + 1 < 2 ^ 32; omega)
      rw [hstep] at hadd hread
      refine ⟨h.pc, hadd.trans hcounted, ?_⟩
      rcases hread with hread | hread
      · show _ ≤ _
        rw [hread]
        exact h.read
      · show _ ≤ _
        rw [hread]
        exact hle
  | irq i => exact ⟨h.pc, hcounted, h.read⟩
  | enableMmu hcall hin hnil =>
      rw [hnil] at hcounted
      exact ⟨h.pc, hcounted, h.read⟩
  | again hcall hin hnil =>
      rw [hnil] at hcounted
      exact ⟨h.pc, hcounted, h.read⟩
  | ret hcall hin hnil hmmu hread =>
      have hpc : c.pc ≠ 15 := fun hpc => by
        have hfour : 4 ≤ c.wakingCoresRead.toNat := hread ((primary_program hcall).2.mp hpc)
        have hone := h.read
        omega
      refine ⟨by have := h.pc; show c.pc + 1 ≤ 15; omega, hcounted.trans ?_, h.read⟩
      simp only [BootCore.entered, hin, and_true, Bool.false_eq_true, and_false, or_false]
      exact if_congr (by omega) rfl rfl

/-! ## All cores -/

/-- No secondary core has got past `start_mmu_no_lock`, and core 0 waits. -/
structure BootState.Inv (s : BootState) : Prop where
  secondary : ∀ cpuid ≠ 0, ∀ c, s.core cpuid = some c → c.Before ∨ c.Hung
  primary : ∃ c, s.core 0 = some c ∧ c.Waits s.shared

lemma BootState.inv_start : BootState.start.Inv where
  secondary cpuid hcore c hc := by
    exact absurd (by simpa [BootState.start] using hc : cpuid = 0 ∧ _).1 hcore
  primary := ⟨.start, rfl, by simp [BootCore.start], by
    simp [BootState.start, BootCore.start, BootCore.entered, stackIncrements], by
    simp [BootCore.start]⟩

lemma BootCore.before_start : BootCore.start.Before :=
  ⟨by simp [BootCore.start], rfl, by simp [BootCore.start]⟩

lemma bootStep_cases (h : bootStep s (cpuid, act) = some s') :
    (∃ c c' shared', s.core cpuid = some c ∧ CoreStep cpuid c s.shared c' shared' ∧
        s' = { s with shared := shared' }.set cpuid c') ∨
      s.core cpuid = none ∧ s' = s.set cpuid .start := by
  unfold bootStep at h
  cases hc : s.core cpuid with
  | some c =>
      simp only [hc] at h
      obtain ⟨c', shared', hs, rfl⟩ := coreStep_of_step h
      exact .inl ⟨c, c', shared', rfl, hs, rfl⟩
  | none =>
      simp only [hc] at h
      cases act with
      | start => exact .inr ⟨rfl, (Option.some.inj h).symm⟩
      | _ => cases h

lemma BootState.Inv.step (h : s.Inv) (hs : bootStep s (cpuid, act) = some s') : s'.Inv := by
  obtain ⟨p, hp, hwaits⟩ := h.primary
  rcases bootStep_cases hs with ⟨c, c', shared', hc, hstep, rfl⟩ | ⟨hnone, rfl⟩
  · by_cases hcore : cpuid = 0
    · subst hcore
      obtain rfl : p = c := Option.some.inj (hp.symm.trans hc)
      refine ⟨fun i hi d hd => h.secondary i hi d ?_, c', BootState.set_core .., hwaits.step hstep⟩
      rwa [BootState.set_core_of_ne _ hi] at hd
    · obtain ⟨hc', hcounter⟩ : (c'.Before ∨ c'.Hung) ∧
          shared'.wakingCores = s.shared.wakingCores := by
        rcases h.secondary cpuid hcore c hc with hb | hh
        · exact hb.step hcore hstep
        · exact (hh.step hcore hstep).imp_left .inr
      refine ⟨fun i hi d hd => ?_, p, ?_, hwaits.pc, ?_, hwaits.read⟩
      · by_cases hic : i = cpuid
        · subst hic
          rw [BootState.set_core] at hd
          exact Option.some.inj hd ▸ hc'
        · rw [BootState.set_core_of_ne _ hic] at hd
          exact h.secondary i hi d hd
      · rwa [BootState.set_core_of_ne _ (Ne.symm hcore)]
      · show shared'.wakingCores.toNat + _ = _
        rw [hcounter]
        exact hwaits.counted
  · have hcore : cpuid ≠ 0 := by
      rintro rfl
      cases hnone.symm.trans hp
    refine ⟨fun i hi d hd => ?_, p, ?_, hwaits⟩
    · by_cases hic : i = cpuid
      · subst hic
        rw [BootState.set_core] at hd
        exact Option.some.inj hd ▸ .inl BootCore.before_start
      · rw [BootState.set_core_of_ne _ hic] at hd
        exact h.secondary i hi d hd
    · rwa [BootState.set_core_of_ne _ (Ne.symm hcore)]

/-- Every state of a run keeps the invariant. -/
lemma BootState.inv_of_run {labels : List (Fin NUM_CPU × BootAct)}
    (hr : Run (fun s a s' => bootStep s a = some s') .start labels s) : s.Inv :=
  hr.invariant (fun _ _ _ hI hs => hI.step hs) BootState.inv_start

/-- A secondary core has completed calls before `start_mmu_no_lock` only, and core 0 calls before
its loop. -/
lemma BootState.Inv.done_index (h : s.Inv) {call : InitCall} (hdone : s.Done cpuid call) :
    ∃ n < if cpuid = 0 then 15 else 4, (program cpuid)[n]? = some call := by
  obtain ⟨c, hc, hmem⟩ := hdone
  have hpc : c.pc ≤ if cpuid = 0 then 15 else 4 := by
    by_cases hcore : cpuid = 0
    · subst hcore
      obtain ⟨p, hp, hwaits⟩ := h.primary
      obtain rfl : p = c := Option.some.inj (hp.symm.trans hc)
      exact hwaits.pc
    · rw [if_neg hcore]
      rcases h.secondary cpuid hcore c hc with hb | hh
      · exact hb.pc
      · exact hh.pc.le
  obtain ⟨n, hn, hget⟩ := List.mem_take_iff_getElem.mp hmem
  exact ⟨n, by omega, List.getElem?_eq_some_iff.mpr ⟨by omega, hget⟩⟩

/-- Core 0 has not left its loop. -/
lemma BootState.Inv.not_left (h : s.Inv) : ¬ s.Done 0 .waitWakingCores := by
  intro hdone
  obtain ⟨n, hn, hcall⟩ := h.done_index hdone
  have hfifteen := (primary_program hcall).2.mpr rfl
  rw [if_pos rfl] at hn
  omega

/-- **The boot hangs.**  In every interleaving of the commands of the four cores, with IRQs
accepted anywhere and with any behaviour of the devices: no secondary core returns from
`start_mmu_no_lock`, `waking_cores` never exceeds 1, and the primary core never leaves the loop of
`init_smp_kernel`. -/
theorem boot_hangs {labels : List (Fin NUM_CPU × BootAct)}
    (hr : Run (fun s a s' => bootStep s a = some s') .start labels s) :
    (∀ cpuid ≠ 0, ¬ s.Done cpuid .startMmuNoLock) ∧ s.shared.wakingCores.toNat ≤ 1 ∧
      ¬ s.Done 0 .waitWakingCores := by
  have hinv := BootState.inv_of_run hr
  obtain ⟨p, -, hwaits⟩ := hinv.primary
  refine ⟨fun cpuid hcore hdone => ?_, hwaits.counter_le, hinv.not_left⟩
  obtain ⟨n, hn, hcall⟩ := hinv.done_index hdone
  rw [if_neg hcore] at hn
  have hfour := (secondary_program hcore hn.le hcall).1.mp rfl
  omega

/-- A core starts, turns its MMU on and executes six commands. -/
def printsOn (cpuid : Fin NUM_CPU) : List (Fin NUM_CPU × BootAct) :=
  [(cpuid, .start)] ++ (List.replicate 4 [(cpuid, .enter []), (cpuid, .ret)]).flatten
    ++ [(cpuid, .enter []), (cpuid, .enableMmu)]
    ++ List.replicate 6 (cpuid, .exec (readyEnv (.ofNat 32 cpuid) true))

/-- Core 1 holds `uart_lock` and requests it. -/
theorem boot_hangs_core1 : ∃ s c k,
    Run (fun s a s' => bootStep s a = some s') .start (printsOn 1) s ∧ s.core 1 = some c ∧
    c.stack = .asmSpinReq .uartLock :: k ∧ s.shared.held .uartLock = true ∧
    ¬ s.Done 1 .startMmuNoLock ∧ s.shared.wakingCores.toNat ≤ 1 ∧ ¬ s.Done 0 .waitWakingCores := by
  have hrun : ((printsOn 1).foldlM bootStep .start).isSome := rfl
  obtain ⟨s, hs⟩ := Option.isSome_iff_exists.mp hrun
  have hr := Run.of_foldlM hs
  obtain ⟨hsecondary, hrest⟩ := boot_hangs hr
  cases hs
  exact ⟨_, _, _, hr, rfl, rfl, rfl, hsecondary 1 (by decide), hrest⟩

end Startup

end Rpi2Baremetal
