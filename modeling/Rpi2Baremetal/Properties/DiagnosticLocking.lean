import Rpi2Baremetal.Model.Console

/-!
# Self-deadlock of the diagnostic functions

`spin_req` and `spin_rel` print on every core but core 0, and the print functions lock
`uart_lock` through them when the MMU is on.  So with the MMU on a core other than 0 ends up
requesting `uart_lock` while it holds it, whatever it calls; on core 0, and on any core with
the MMU off, every call returns with the locks it should leave behind.
-/

namespace Rpi2Baremetal

namespace Console

open Framework CallStack

variable {env : Env} {s : State}

/-- The UART's transmitter is found empty again and again. -/
def TransmitterDrains (env : Env) : Prop := ∀ n, ∃ m ≥ n, env.muLsr m &&& 0x20 ≠ 0

/-! ## Calls that complete -/

/-- The commands complete from `s` and leave the core with the locks it had. -/
def Balanced (env : Env) (cs : List Cmd) (s : State) : Prop :=
  ∃ s', Completes (exec env) cs s s' ∧ s'.held = s.held

lemma Balanced.append {cs ds : List Cmd} (h : Balanced env cs s)
    (h' : ∀ s' : State, s'.held = s.held → Balanced env ds s') :
    Balanced env (cs ++ ds) s := by
  obtain ⟨s1, h1, hheld1⟩ := h
  obtain ⟨s2, h2, hheld2⟩ := h' s1 hheld1
  exact ⟨s2, h1.append h2, hheld2.trans hheld1⟩

lemma Balanced.call {c : Cmd} (hc : exec env c s = .call (c.body env) s)
    (h : Balanced env (c.body env) s) : Balanced env [c] s := by
  obtain ⟨s', h1, hheld⟩ := h
  exact ⟨s', h1.call hc, hheld⟩

lemma balanced_waitTxEmpty (hfair : TransmitterDrains env) (s : State) :
    Balanced env [.waitTxEmpty] s := by
  obtain ⟨m, hm, hready⟩ := hfair s.reads
  -- induction on the number of reads before the transmitter is empty
  obtain ⟨d, hd⟩ := Nat.exists_eq_add_of_le hm
  induction d generalizing s with
  | zero =>
      obtain rfl : m = s.reads := by omega
      have hexec : exec env .waitTxEmpty s = .call [] { s with reads := s.reads + 1 } := by
        simp only [exec, if_pos hready]
      exact ⟨_, Completes.call hexec (.nil _), rfl⟩
  | succ d ih =>
      by_cases hnow : env.muLsr s.reads &&& 0x20 ≠ 0
      · have hexec : exec env .waitTxEmpty s = .call [] { s with reads := s.reads + 1 } := by
          simp only [exec, if_pos hnow]
        exact ⟨_, Completes.call hexec (.nil _), rfl⟩
      · have hexec : exec env .waitTxEmpty s = .wait { s with reads := s.reads + 1 } := by
          simp only [exec, if_neg hnow]
        obtain ⟨s', hs', hheld⟩ := ih { s with reads := s.reads + 1 } (by simp; omega)
          (by simp; omega)
        exact ⟨s', Completes.wait hexec hs', hheld⟩

lemma balanced_writeIo (c : Byte) (s : State) : Balanced env [.writeIo c] s :=
  ⟨_, Completes.call rfl (.nil _), rfl⟩

lemma balanced_uartSend (hfair : TransmitterDrains env) (c : Byte) (s : State) :
    Balanced env [.uartSend c] s := by
  refine .call rfl ?_
  by_cases hc : c = newline ∨ c = carriageReturn
  · rw [Cmd.body, if_pos hc]
    refine (balanced_waitTxEmpty hfair s).append fun s1 _ => ?_
    refine (balanced_writeIo newline s1).append fun s2 _ => ?_
    exact (balanced_waitTxEmpty hfair s2).append fun s3 _ => balanced_writeIo _ s3
  · rw [Cmd.body, if_neg hc]
    exact (balanced_waitTxEmpty hfair s).append fun s1 _ => balanced_writeIo c s1

lemma balanced_uartSends (hfair : TransmitterDrains env) (cs : List Byte) (s : State) :
    Balanced env (cs.map .uartSend) s := by
  induction cs generalizing s with
  | nil => exact ⟨s, .nil s, rfl⟩
  | cons c cs ih => exact (balanced_uartSend hfair c s).append fun s' _ => ih s'

/-- On core 0 `spin_req` takes a free lock and prints nothing. -/
lemma completes_spinReq (hp : env.prid = 0) {lock : LockWord} (hfree : s.held lock = false) :
    Completes (exec env) [.spinReq lock] s
      { s with held := Function.update s.held lock true } := by
  have hexec : exec env (.asmSpinReq lock) s
      = .call [] { s with held := Function.update s.held lock true } := by
    simp [exec, hfree]
  refine Completes.call rfl ?_
  simpa [Cmd.body, hp] using Completes.call hexec (.nil _)

/-- On core 0 `spin_rel` releases a lock the core holds and prints nothing. -/
lemma completes_spinRel (hp : env.prid = 0) {lock : LockWord} (hheld : s.held lock = true) :
    Completes (exec env) [.spinRel lock] s
      { s with held := Function.update s.held lock false } := by
  have hexec : exec env (.asmSpinRel lock) s
      = .call [] { s with held := Function.update s.held lock false } := by
    simp [exec, hheld]
  refine Completes.call rfl ?_
  simpa [Cmd.body, hp] using Completes.call hexec (.nil _)

/-- A critical section of core 0 is balanced when its body is. -/
lemma balanced_critical (hp : env.prid = 0) {lock : LockWord} (hfree : s.held lock = false)
    {body : List Cmd} (hbody : ∀ s, Balanced env body s) :
    Balanced env (.spinReq lock :: body ++ [.spinRel lock]) s := by
  obtain ⟨s', hs', hheld⟩ := hbody { s with held := Function.update s.held lock true }
  have hlock : s'.held lock = true := by rw [hheld]; simp
  refine ⟨_, ((completes_spinReq hp hfree).append hs').append (completes_spinRel hp hlock), ?_⟩
  simp [hheld, Function.update_eq_self_iff, hfree]

/-- The core can print: with the MMU off, or on core 0 when it does not hold `uart_lock`. -/
def CanPrint (env : Env) (s : State) : Prop :=
  env.mmuEnabled = false ∨ env.prid = 0 ∧ s.held .uartLock = false

lemma CanPrint.congr {s' : State} (h : CanPrint env s) (hheld : s'.held = s.held) :
    CanPrint env s' := by
  rwa [CanPrint, hheld]

lemma balanced_uartPuts (hfair : TransmitterDrains env) (h : CanPrint env s)
    (str : List Byte) : Balanced env [.uartPuts str] s := by
  refine .call rfl ?_
  by_cases hmmu : env.mmuEnabled
  · obtain ⟨hp, hfree⟩ := h.resolve_left (by simp [hmmu])
    rw [Cmd.body, if_pos hmmu]
    exact balanced_critical hp hfree (balanced_uartSends hfair str)
  · rw [Cmd.body, if_neg hmmu]
    exact balanced_uartSends hfair str s

lemma balanced_hexstring (hfair : TransmitterDrains env) (h : CanPrint env s) (d : Word) :
    Balanced env [.hexstring d] s := by
  have hbody : ∀ s, Balanced env ((hexDigits d).map .uartSend ++ [.uartSend 0x20]) s :=
    fun s => (balanced_uartSends hfair _ s).append fun s' _ => balanced_uartSend hfair _ s'
  refine .call rfl ?_
  by_cases hmmu : env.mmuEnabled
  · obtain ⟨hp, hfree⟩ := h.resolve_left (by simp [hmmu])
    rw [Cmd.body, if_pos hmmu]
    simpa using balanced_critical hp hfree hbody
  · rw [Cmd.body, if_neg hmmu]
    exact hbody s

lemma balanced_registerValuePuts (hfair : TransmitterDrains env) (h : CanPrint env s)
    (str : List Byte) (hex : Word) : Balanced env [.registerValuePuts str hex] s := by
  refine .call rfl ?_
  refine (balanced_uartPuts hfair h str).append fun s1 h1 => ?_
  refine (balanced_hexstring hfair (h.congr h1) hex).append fun s2 _ => ?_
  exact balanced_uartSend hfair newline s2

/-- `spin_req` of a free lock returns with the lock held. -/
lemma completes_spinReq_free (hfair : TransmitterDrains env)
    (h : env.prid = 0 ∨ env.mmuEnabled = false) {lock : LockWord}
    (hfree : s.held lock = false) :
    ∃ s', Completes (exec env) [.spinReq lock] s s' ∧
      s'.held = Function.update s.held lock true := by
  by_cases hp : env.prid = 0
  · exact ⟨_, completes_spinReq hp hfree, rfl⟩
  · have hexec : exec env (.asmSpinReq lock) s
        = .call [] { s with held := Function.update s.held lock true } := by
      simp [exec, hfree]
    obtain ⟨s', hs', hheld⟩ := balanced_registerValuePuts hfair
      (s := { s with held := Function.update s.held lock true })
      (.inl (h.resolve_left hp)) (cstr "get lock from: ") env.prid
    refine ⟨s', Completes.call rfl ?_, hheld⟩
    rw [Cmd.body, if_pos hp]
    exact (Completes.call hexec (.nil _)).cons hs'

/-- `spin_rel` of a held lock returns with the lock free. -/
lemma completes_spinRel_held (hfair : TransmitterDrains env)
    (h : env.prid = 0 ∨ env.mmuEnabled = false) {lock : LockWord}
    (hheld : s.held lock = true) :
    ∃ s', Completes (exec env) [.spinRel lock] s s' ∧
      s'.held = Function.update s.held lock false := by
  by_cases hp : env.prid = 0
  · exact ⟨_, completes_spinRel hp hheld, rfl⟩
  · have hexec : exec env (.asmSpinRel lock) s
        = .call [] { s with held := Function.update s.held lock false } := by
      simp [exec, hheld]
    obtain ⟨s', hs', hheld'⟩ := balanced_registerValuePuts hfair
      (s := { s with held := Function.update s.held lock false })
      (.inl (h.resolve_left hp)) (cstr "release lock from: ") env.prid
    refine ⟨s', Completes.call rfl ?_, hheld'⟩
    rw [Cmd.body, if_pos hp]
    exact (Completes.call hexec (.nil _)).cons hs'

/-! ## Calls that get stuck -/

/-- The core executes `_spin_req` on a lock word it already holds. -/
def SelfDeadlock : List Cmd × State → Prop := At fun c s => RequestsHeld s.held c

lemma exec_of_requestsHeld (c : Cmd) (s : State) (h : RequestsHeld s.held c) :
    exec env c s = .wait s := by
  obtain ⟨lock, rfl, hheld⟩ := h
  simp [exec, hheld]

/-- The program gets to a `_spin_req` of a lock word the core holds. -/
def Deadlocks (env : Env) (cs : List Cmd) (s : State) : Prop :=
  ∃ b, Reaches (exec env) (cs, s) b ∧ SelfDeadlock b

lemma Deadlocks.call {c : Cmd} {k body : List Cmd} {s' : State}
    (hc : exec env c s = .call body s') (h : Deadlocks env (body ++ k) s') :
    Deadlocks env (c :: k) s := by
  obtain ⟨b, hb, hbad⟩ := h
  exact ⟨b, hb.call hc, hbad⟩

lemma deadlocks_asmSpinReq {lock : LockWord} (hheld : s.held lock = true) (k : List Cmd) :
    Deadlocks env (.asmSpinReq lock :: k) s :=
  ⟨_, .refl _, _, k, rfl, lock, rfl, hheld⟩

section OtherCore

variable (hp : env.prid ≠ 0) (hmmu : env.mmuEnabled = true)
include hp hmmu

/-- On another core with the MMU on, a request of `uart_lock` that succeeds is followed by
printing, which requests it again. -/
lemma deadlocks_spinReq_uartLock (s : State) (k : List Cmd) :
    Deadlocks env (.spinReq .uartLock :: k) s := by
  refine .call rfl ?_
  rw [Cmd.body, if_pos hp]
  by_cases hheld : s.held .uartLock = true
  · exact deadlocks_asmSpinReq hheld _
  · have hexec : exec env (.asmSpinReq .uartLock) s
        = .call [] { s with held := Function.update s.held .uartLock true } := by
      simp [exec, hheld]
    refine .call hexec (.call rfl (.call rfl ?_))
    rw [Cmd.body, if_pos hmmu]
    exact .call rfl (deadlocks_asmSpinReq (by simp) _)

lemma deadlocks_uartPuts (str : List Byte) (s : State) (k : List Cmd) :
    Deadlocks env (.uartPuts str :: k) s := by
  refine .call rfl ?_
  rw [Cmd.body, if_pos hmmu]
  exact deadlocks_spinReq_uartLock hp hmmu s _

lemma deadlocks_hexstring (d : Word) (s : State) (k : List Cmd) :
    Deadlocks env (.hexstring d :: k) s := by
  refine .call rfl ?_
  rw [Cmd.body, if_pos hmmu]
  exact deadlocks_spinReq_uartLock hp hmmu s _

lemma deadlocks_registerValuePuts (str : List Byte) (hex : Word) (s : State) (k : List Cmd) :
    Deadlocks env (.registerValuePuts str hex :: k) s :=
  .call rfl (deadlocks_uartPuts hp hmmu str s _)

lemma deadlocks_spinReq (lock : LockWord) (s : State) (k : List Cmd) :
    Deadlocks env (.spinReq lock :: k) s := by
  refine .call rfl ?_
  rw [Cmd.body, if_pos hp]
  by_cases hheld : s.held lock = true
  · exact deadlocks_asmSpinReq hheld _
  · have hexec : exec env (.asmSpinReq lock) s
        = .call [] { s with held := Function.update s.held lock true } := by
      simp [exec, hheld]
    exact .call hexec (deadlocks_registerValuePuts hp hmmu _ _ _ _)

lemma deadlocks_spinRel {lock : LockWord} (hheld : s.held lock = true) (k : List Cmd) :
    Deadlocks env (.spinRel lock :: k) s := by
  have hexec : exec env (.asmSpinRel lock) s
      = .call [] { s with held := Function.update s.held lock false } := by
    simp [exec, hheld]
  refine .call rfl ?_
  rw [Cmd.body, if_pos hp]
  exact .call hexec (deadlocks_registerValuePuts hp hmmu _ _ _ _)

end OtherCore

/-! ## The five functions -/

/-- The diagnostic functions, called with no lock held by this core (`spin_rel`: with exactly
the lock it releases). -/
inductive DiagnosticCall : Cmd → (LockWord → Bool) → Prop
  | spinReq (lock : LockWord) : DiagnosticCall (.spinReq lock) fun _ => false
  | spinRel (lock : LockWord) : DiagnosticCall (.spinRel lock) fun l => decide (l = lock)
  | uartPuts (str : List Byte) : DiagnosticCall (.uartPuts str) fun _ => false
  | hexstring (d : Word) : DiagnosticCall (.hexstring d) fun _ => false
  | registerValuePuts (str : List Byte) (hex : Word) :
      DiagnosticCall (.registerValuePuts str hex) fun _ => false

/-- The call terminates, and at no point executes `_spin_req` on a lock word the core
holds. -/
def NeverSelfDeadlocks (env : Env) (c : Cmd) (s : State) : Prop :=
  (∃ n, ((step (exec env))^[n] ([c], s)).1 = []) ∧
    ∀ n, ¬ SelfDeadlock ((step (exec env))^[n] ([c], s))

lemma neverSelfDeadlocks_of_completes {c : Cmd} {s' : State}
    (h : Completes (exec env) [c] s s') : NeverSelfDeadlocks env c s := by
  obtain ⟨n, hn⟩ := h []
  have hend : ((step (exec env))^[n] ([c], s)).1 = [] := congrArg Prod.fst hn
  refine ⟨⟨n, hend⟩, fun m hm => ?_⟩
  exact not_ends_of_reaches exec_of_requestsHeld ⟨m, rfl⟩ hm n hend

/-- **Diagnostic locking.**  On every core, with the MMU on or off, for every string, value
and lock word: a call of a diagnostic function never deadlocks on its own core if and only if
the core is core 0 or its MMU is off. -/
theorem diagnostic_call_safe_iff {c : Cmd} (hfair : TransmitterDrains env)
    (hc : DiagnosticCall c s.held) :
    NeverSelfDeadlocks env c s ↔ env.prid = 0 ∨ env.mmuEnabled = false := by
  constructor
  · rintro ⟨-, hnever⟩
    by_contra hcore
    obtain ⟨hp, hmmu⟩ := not_or.mp hcore
    have hmmu : env.mmuEnabled = true := by simpa using hmmu
    have hdead : Deadlocks env [c] s := by
      generalize hheld : s.held = held at hc
      cases hc with
      | spinReq lock => exact deadlocks_spinReq hp hmmu lock s []
      | spinRel lock => exact deadlocks_spinRel hp hmmu (by simp [hheld]) []
      | uartPuts str => exact deadlocks_uartPuts hp hmmu str s []
      | hexstring d => exact deadlocks_hexstring hp hmmu d s []
      | registerValuePuts str hex => exact deadlocks_registerValuePuts hp hmmu str hex s []
    obtain ⟨_, ⟨n, rfl⟩, hbad⟩ := hdead
    exact hnever n hbad
  · intro hcore
    have hprint : s.held .uartLock = false → CanPrint env s := fun hfree =>
      hcore.symm.imp_right fun hp => ⟨hp, hfree⟩
    obtain ⟨s', hs'⟩ : ∃ s', Completes (exec env) [c] s s' := by
      generalize hheld : s.held = held at hc
      cases hc with
      | spinReq lock =>
          have hfree : s.held lock = false := by simp [hheld]
          obtain ⟨s', h, -⟩ := completes_spinReq_free hfair hcore hfree
          exact ⟨s', h⟩
      | spinRel lock =>
          have hlock : s.held lock = true := by simp [hheld]
          obtain ⟨s', h, -⟩ := completes_spinRel_held hfair hcore hlock
          exact ⟨s', h⟩
      | uartPuts str =>
          obtain ⟨s', h, -⟩ := balanced_uartPuts hfair (hprint (by simp [hheld])) str
          exact ⟨s', h⟩
      | hexstring d =>
          obtain ⟨s', h, -⟩ := balanced_hexstring hfair (hprint (by simp [hheld])) d
          exact ⟨s', h⟩
      | registerValuePuts str hex =>
          obtain ⟨s', h, -⟩ :=
            balanced_registerValuePuts hfair (hprint (by simp [hheld])) str hex
          exact ⟨s', h⟩
    exact neverSelfDeadlocks_of_completes hs'

/-- A core with a UART that is always ready and no faults. -/
def readyEnv (prid : Word) (mmuEnabled : Bool) : Env where
  prid := prid
  mmuEnabled := mmuEnabled
  muLsr _ := 0x20
  muIir _ := 1
  muIo _ := 0
  load _ := .ok 0
  irqHandlerTable := 0

lemma readyEnv_drains (prid : Word) (mmuEnabled : Bool) :
    TransmitterDrains (readyEnv prid mmuEnabled) :=
  fun n => ⟨n, le_rfl, by show (0x20 : Word) &&& 0x20 ≠ 0; decide⟩

/-- A core that holds no lock. -/
def idle : State := ⟨fun _ => false, 0, 0, [], [], 0⟩

/-- Core 0 with its MMU on may take and announce `uart_lock`. -/
theorem diagnostic_call_safe_core0 :
    NeverSelfDeadlocks (readyEnv 0 true) (.spinReq .uartLock) idle :=
  (diagnostic_call_safe_iff (readyEnv_drains 0 true) (.spinReq .uartLock)).mpr (.inl rfl)

/-- Core 1 with its MMU on deadlocks on `uart_puts`. -/
theorem diagnostic_call_deadlocks_core1 :
    ¬ ∀ (env : Env) (c : Cmd) (s : State), TransmitterDrains env → DiagnosticCall c s.held →
      NeverSelfDeadlocks env c s := by
  intro hclaim
  obtain ⟨-, hnever⟩ := hclaim (readyEnv 1 true) (.uartPuts (cstr "dsb finished\n")) idle
    (readyEnv_drains 1 true) (.uartPuts _)
  have hdead : Deadlocks (readyEnv 1 true) [.uartPuts (cstr "dsb finished\n")] idle :=
    deadlocks_uartPuts (by decide) rfl _ _ []
  obtain ⟨_, ⟨n, rfl⟩, hbad⟩ := hdead
  exact hnever n hbad

end Console

end Rpi2Baremetal
