import Rpi2Baremetal.Properties.DiagnosticLocking
import Rpi2Baremetal.Properties.DispatchEffects

/-!
# Interrupts against the locks of the code they interrupt

The lock functions leave IRQs enabled and the interrupt path prints, so an IRQ accepted while
the interrupted code holds `uart_lock` makes the same core request it again.  What the path
requests is a function of the registers it reads: `uart_lock` when it prints, `exp_lock` when
it runs `output_access_policy`, and nothing else.
-/

namespace Rpi2Baremetal

namespace Console

open Framework CallStack Interrupt

variable {env : Env} {s : State} {held : LockWord → Bool}

/-! ## The dispatch without its messages -/

/-- What a command in the body of `call_irq_handler` does outside: it calls the handler of the UART
or disables a line, or it prints. -/
def Cmd.action (t : IrqTable) : Cmd → Option Action
  | .auxIntHandler => some (callLine t 0x1d)
  | .write32 (.irqsDisable bank) value => some (.write (disableRegister bank) value)
  | _ => none

lemma handled_initIrqHandler {auxIntHandler : Word} (haux : auxIntHandler ≠ 0) :
    (initIrqHandler auxIntHandler).handled = handled := by
  funext nIrq
  by_cases h : nIrq = 0x1d
  · have hsome : auxIntHandler ≠ 0#32 := haux
    simp [initIrqHandler, IrqTable.handled, handled, mApIrqHandler, h, hsome]
  · simp [initIrqHandler, IrqTable.handled, handled, mApIrqHandler, h]

/-- `call_irq_handler` without its messages. -/
lemma callIrqHandler_actions {auxIntHandler : Word} (haux : auxIntHandler ≠ 0) (nIrq : ℕ) :
    ((Cmd.callIrqHandler nIrq).body env).filterMap (Cmd.action (initIrqHandler auxIntHandler))
      = [lineAction (initIrqHandler auxIntHandler) nIrq] := by
  rw [lineAction, handled_initIrqHandler haux, Cmd.body]
  by_cases h : nIrq = 0x1d
  · have hhandler : mApIrqHandler nIrq = some .auxIntHandler := if_pos h
    rw [handled, hhandler, h]
    rfl
  · have hnone : mApIrqHandler nIrq = none := if_neg h
    rw [handled, hnone]
    rfl

/-- The interrupt path of `Model/Interrupt.lean` is the one here without its messages: it calls
the same handlers and disables the same lines, in the same order. -/
lemma interruptHandler_actions {auxIntHandler : Word} (haux : auxIntHandler ≠ 0) {i : IrqInput}
    (hlocal : localIpi i = none) :
    interruptHandler 32 (initIrqHandler auxIntHandler) i
      = some ([.localInt, .read IRQ_PEND1, .read IRQ_PEND2, .read IRQ_BASIC_PEND]
        ++ ((Cmd.interruptHandler i).body env).flatMap fun c =>
          (c.body env).filterMap (Cmd.action (initIrqHandler auxIntHandler))) := by
  have hbody : (Cmd.interruptHandler i).body env
      = (calledLines handled i).map .callIrqHandler := by
    rw [Cmd.body, hlocal]
  rw [interruptHandler_eq (Option.isSome_eq_false_iff.mpr (Option.isNone_iff_eq_none.mpr hlocal)),
    handled_initIrqHandler haux, hbody, List.flatMap_map]
  simp only [callIrqHandler_actions haux, ← List.map_eq_flatMap]

/-! ## What the path requests -/

/-- The lowest pending line has no handler. -/
def UnhandledFirst (i : IrqInput) : Prop :=
  ∃ m, Pending i m ∧ handled m = false ∧ ∀ l < m, Pending i l → handled l = false

/-- The interrupt prints: IPI 1 or 2 is served, or a line without a handler comes first. -/
def Prints (i : IrqInput) : Prop :=
  (LocalPending i ∧ (LowestBit i.mailbox 1 ∨ LowestBit i.mailbox 2)) ∨
    (¬ LocalPending i ∧ UnhandledFirst i)

/-- The interrupt serves IPI 2, which runs `output_access_policy`. -/
def RunsPolicy (i : IrqInput) : Prop := LocalPending i ∧ LowestBit i.mailbox 2

/-- The interrupted code holds neither a lock that printing needs nor one that
`output_access_policy` needs, as far as this interrupt does either. -/
structure SafeToTake (held : LockWord → Bool) (i : IrqInput) : Prop where
  print : Prints i → held .uartLock = false
  policy : RunsPolicy i → held .expLock = false

/-! ## Paths that stay clear of the locks held -/

/-- On core 0 the command requests none of the locks of `held`. -/
def Avoids (held : LockWord → Bool) : Cmd → Prop
  | .asmSpinReq lock => held lock = false
  | .spinReq lock => held lock = false
  | .getWakingCores => held .sysCommonLock = false
  | .incWakingCores => held .sysCommonLock = false
  | .uartPuts _ => held .uartLock = false
  | .hexstring _ => held .uartLock = false
  | .registerValuePuts _ _ => held .uartLock = false
  | .checkAddress _ => held .uartLock = false
  | .checkAddressesFrom _ => held .uartLock = false
  | .dataAbortVector _ _ => held .uartLock = false
  | .outputAccessPolicy => held .expLock = false ∧ held .uartLock = false
  | .callIrqHandler nIrq => handled nIrq = false → held .uartLock = false
  | .ipiHandler _ nIpi =>
      (nIpi = 1 → held .uartLock = false) ∧
        (nIpi = 2 → held .expLock = false ∧ held .uartLock = false)
  | .interruptHandler i => SafeToTake held i
  | _ => True

lemma avoids_faultText (h : held .uartLock = false) (fs : Word) :
    ∀ d ∈ faultText fs, Avoids held d := by
  intro d hd
  obtain ⟨text, -, rfl⟩ := List.mem_map.mp hd
  exact h

/-- The interrupt path requests what `SafeToTake` allows for. -/
lemma avoids_interruptHandler {i : IrqInput} (h : SafeToTake held i) :
    ∀ d ∈ Cmd.body env (.interruptHandler i), Avoids held d := by
  rw [Cmd.body]
  cases hl : localIpi i with
  | some nIpi =>
      obtain ⟨hloc, hlow⟩ := localIpi_eq_some.mp hl
      simp only [List.mem_cons, List.not_mem_nil, or_false, forall_eq_or_imp, forall_eq]
      refine ⟨trivial, ?_, ?_⟩
      · rintro rfl
        exact h.print (.inl ⟨hloc, .inl hlow⟩)
      · rintro rfl
        exact ⟨h.policy ⟨hloc, hlow⟩, h.print (.inl ⟨hloc, .inr hlow⟩)⟩
  | none =>
      have hloc := localIpi_eq_none.mp hl
      intro d hd
      obtain ⟨m, hm, rfl⟩ := List.mem_map.mp hd
      intro hun
      obtain ⟨hp, hlow⟩ := (mem_calledLines i m).mp hm
      exact h.print (.inr ⟨hloc, m, hp, hun, hlow⟩)

lemma avoids_uartSends (cs : List Byte) : ∀ d ∈ cs.map Cmd.uartSend, Avoids held d := by
  intro d hd
  obtain ⟨c, -, rfl⟩ := List.mem_map.mp hd
  trivial

/-- What a function of core 0 calls requests no lock the function itself does not. -/
lemma avoids_body (hp : env.prid = 0) {c : Cmd} (h : Avoids held c) :
    ∀ d ∈ c.body env, Avoids held d := by
  have hreq : ∀ lock, Cmd.body env (.spinReq lock) = [.asmSpinReq lock] := by simp [Cmd.body, hp]
  have hrel : ∀ lock, Cmd.body env (.spinRel lock) = [.asmSpinRel lock] := by simp [Cmd.body, hp]
  have hsends : ∀ cs : List Byte, ∀ d ∈ cs.map Cmd.uartSend, Avoids held d :=
    avoids_uartSends
  cases c with
  | interruptHandler i => exact avoids_interruptHandler h
  | spinReq lock =>
      rw [hreq]
      simpa [Avoids] using h
  | spinRel lock =>
      rw [hrel]
      simp [Avoids]
  | uartSend c =>
      rw [Cmd.body]
      split_ifs <;> simp [Avoids]
  | uartPuts str =>
      rw [Cmd.body]
      split_ifs
      · simp only [List.cons_append, List.forall_mem_cons, List.forall_mem_append]
        exact ⟨h, hsends str, by simp [Avoids]⟩
      · exact hsends str
  | hexstring d =>
      rw [Cmd.body]
      split_ifs
      · simp only [List.cons_append, List.forall_mem_cons, List.forall_mem_append]
        exact ⟨h, hsends _, by simp [Avoids]⟩
      · rw [List.forall_mem_append]
        exact ⟨hsends _, by simp [Avoids]⟩
  | checkAddress address =>
      have habort : ∀ d ∈ (read32 env address).1, Avoids held d := by
        unfold read32
        split
        · simp
        · simpa [Avoids] using h
      simp only [Cmd.body, List.forall_mem_append]
      refine ⟨⟨?_, habort⟩, ?_⟩ <;> simpa [Avoids] using h
  | checkAddressesFrom i =>
      rw [Cmd.body]
      split_ifs
      · simpa [Avoids] using h
      · simp
  | dataAbortVector address status =>
      have hfault := avoids_faultText h (status &&& 0x40F)
      simp only [Cmd.body, List.forall_mem_append]
      refine ⟨⟨⟨⟨?_, ?_⟩, ?_⟩, hfault⟩, ?_⟩
      · simpa [Avoids] using h
      · split_ifs
        · simpa [Avoids] using h
        · simp
      · simpa [Avoids] using h
      · simpa [Avoids] using h
  | callIrqHandler nIrq =>
      by_cases hn : nIrq = 0x1d
      · simp [Cmd.body, mApIrqHandler, hn, Avoids]
      · have hfree := h (by simp [handled, mApIrqHandler, hn])
        simpa [Cmd.body, mApIrqHandler, hn, Avoids] using hfree
  | ipiHandler nCore nIpi =>
      rw [Cmd.body]
      split_ifs with h1 h2
      · simpa [Avoids] using h.1 h1
      · simpa [Avoids] using h.2 h2
      · simp
  | outputAccessPolicy => simpa [Cmd.body, Avoids] using h
  | registerValuePuts str hex => simpa [Cmd.body, Avoids] using h
  | getWakingCores => simpa [Cmd.body, Avoids] using h
  | incWakingCores => simpa [Cmd.body, Avoids] using h
  | _ => simp [Cmd.body]

/-- The same of everything a command puts on the stack. -/
lemma avoids_exec (hp : env.prid = 0) (c : Cmd) (s : State) (body : List Cmd) (s' : State)
    (h : Avoids held c) (hexec : exec env c s = .call body s') : ∀ d ∈ body, Avoids held d := by
  have key : body = [] ∨ body = c.body env ∨ (∃ b, body = [.uartSend b]) ∨
      body = [.waitRxReady, .echoIo, .auxIntHandler] := by
    cases c <;> simp only [exec] at hexec <;> (try split_ifs at hexec) <;> cases hexec <;> simp
  rcases key with rfl | rfl | ⟨b, rfl⟩ | rfl
  · simp
  · exact avoids_body hp h
  · simp [Avoids]
  · simp [Avoids]

/-! ## Paths that run into one -/

/-- The program gets to a `_spin_req` of a lock word of `held`. -/
def Requests (env : Env) (held : LockWord → Bool) (cs : List Cmd) (s : State) : Prop :=
  ∃ b, Reaches (exec env) (cs, s) b ∧ At (fun c _ => RequestsHeld held c) b

lemma Requests.call {c : Cmd} {k body : List Cmd} {s' : State}
    (hc : exec env c s = .call body s') (h : Requests env held (body ++ k) s') :
    Requests env held (c :: k) s := by
  obtain ⟨b, hb, hbad⟩ := h
  exact ⟨b, hb.call hc, hbad⟩

lemma requests_spinReq {lock : LockWord} (hheld : held lock = true) (k : List Cmd) :
    Requests env held (.spinReq lock :: k) s :=
  .call rfl ⟨_, .refl _, _, _, rfl, lock, rfl, hheld⟩

lemma requests_uartPuts (hmmu : env.mmuEnabled = true) (huart : held .uartLock = true)
    (str : List Byte) (s : State) (k : List Cmd) :
    Requests env held (.uartPuts str :: k) s := by
  refine .call rfl ?_
  rw [Cmd.body, if_pos hmmu]
  exact requests_spinReq huart _

lemma requests_registerValuePuts (hmmu : env.mmuEnabled = true)
    (huart : held .uartLock = true) (str : List Byte) (hex : Word) (s : State)
    (k : List Cmd) : Requests env held (.registerValuePuts str hex :: k) s :=
  .call rfl (requests_uartPuts hmmu huart str s _)

/-- `output_access_policy` requests `exp_lock`, and then `uart_lock`. -/
lemma requests_outputAccessPolicy (hp : env.prid = 0) (hmmu : env.mmuEnabled = true)
    (h : s.held .expLock = true ∨ s.held .uartLock = true) (k : List Cmd) :
    Requests env s.held (.outputAccessPolicy :: k) s := by
  refine .call rfl ?_
  by_cases hexp : s.held .expLock = true
  · exact requests_spinReq hexp _
  · have hreq : exec env (.spinReq .expLock) s = .call [.asmSpinReq .expLock] s := by
      simp [exec, Cmd.body, hp]
    have hasm : exec env (.asmSpinReq .expLock) s
        = .call [] { s with held := Function.update s.held .expLock true } := by
      simp [exec, hexp]
    exact .call hreq (.call hasm (requests_uartPuts hmmu (h.resolve_left hexp) _ _ _))

/-- An interrupt that is not safe to take requests a lock the interrupted code holds. -/
lemma requests_interruptHandler (hp : env.prid = 0) (hmmu : env.mmuEnabled = true)
    {i : IrqInput} (h : ¬ SafeToTake s.held i) :
    Requests env s.held [.interruptHandler i] s := by
  have hcases : (Prints i ∧ s.held .uartLock = true) ∨
      (RunsPolicy i ∧ s.held .expLock = true) := by
    by_contra hno
    obtain ⟨h1, h2⟩ := not_or.mp hno
    exact h ⟨fun hpr => by simpa [hpr] using h1, fun hpo => by simpa [hpo] using h2⟩
  -- serving an IPI
  have hipi : ∀ n, LocalPending i → LowestBit i.mailbox n →
      (∀ s' : State, s'.held = s.held → Requests env s.held [.ipiHandler env.prid n] s') →
      Requests env s.held [.interruptHandler i] s := by
    intro n hloc hlow hreq
    refine .call rfl ?_
    rw [Cmd.body, localIpi_eq_some.mpr ⟨hloc, hlow⟩]
    exact .call rfl (hreq _ rfl)
  have hpolicy : ∀ s' : State, s'.held = s.held →
      (s.held .expLock = true ∨ s.held .uartLock = true) →
      Requests env s.held [.ipiHandler env.prid 2] s' := by
    intro s' hs' hor
    refine .call rfl ?_
    rw [← hs'] at hor ⊢
    exact requests_outputAccessPolicy hp hmmu hor _
  rcases hcases with
    ⟨⟨hloc, hlow | hlow⟩ | ⟨hloc, m, hm, hun, hlow⟩, huart⟩ | ⟨⟨hloc, hlow⟩, hexp⟩
  · refine hipi 1 hloc hlow fun s' _ => .call rfl ?_
    exact requests_registerValuePuts hmmu huart _ _ _ _
  · exact hipi 2 hloc hlow fun s' hs' => hpolicy s' hs' (.inr huart)
  · refine .call rfl ?_
    rw [Cmd.body, localIpi_eq_none.mpr hloc]
    have hmem : m ∈ calledLines handled i := (mem_calledLines i m).mpr ⟨hm, hlow⟩
    cases hlines : calledLines handled i with
    | nil => simp [hlines] at hmem
    | cons h t =>
        have hh : handled h = false := by
          by_contra hh
          have ht := scanRegs_head hlines (by simpa using hh)
          rw [hlines, ht, List.mem_singleton] at hmem
          rw [hmem] at hun
          exact hh hun
        have hbody : ∀ k, Requests env s.held (.callIrqHandler h :: k) s := by
          intro k
          refine .call rfl ?_
          have hnone : mApIrqHandler h = none := by simpa [handled] using hh
          rw [Cmd.body, hnone]
          exact requests_uartPuts hmmu huart _ _ _
        exact hbody _
  · exact hipi 2 hloc hlow fun s' hs' => hpolicy s' hs' (.inl hexp)

/-! ## Every interruption point -/

/-- The interrupt path entered in `s` never executes `_spin_req` on a lock word that the
interrupted code holds. -/
def IrqPathSafe (env : Env) (s : State) (i : IrqInput) : Prop :=
  ∀ n, ¬ At (fun c _ => RequestsHeld s.held c)
    ((step (exec env))^[n] ([.interruptHandler i], s))

/-- **Interrupts and locks on core 0.**  For every execution of code that prints or takes
locks, every point at which it is interrupted, every mailbox and every pending registers: the
interrupt path requests no lock word the interrupted code holds if and only if the code does
not hold `uart_lock` while the interrupt prints, nor `exp_lock` while it runs
`output_access_policy`. -/
theorem irq_path_safe_iff (hp : env.prid = 0) (hmmu : env.mmuEnabled = true)
    (program : List Cmd) (s₀ : State) (n : ℕ) (i : IrqInput) :
    IrqPathSafe env ((step (exec env))^[n] (program, s₀)).2 i ↔
      SafeToTake ((step (exec env))^[n] (program, s₀)).2.held i := by
  generalize ((step (exec env))^[n] (program, s₀)).2 = s
  constructor
  · intro hsafe
    by_contra hno
    obtain ⟨_, ⟨m, rfl⟩, hbad⟩ := requests_interruptHandler hp hmmu hno
    exact hsafe m hbad
  · rintro hsafe m ⟨c, k, hck, lock, rfl, hheld⟩
    have hstart : ∀ c ∈ [Cmd.interruptHandler i], Avoids s.held c := by
      simpa [Avoids] using hsafe
    have hall := stack_invariant (P := Avoids s.held) (avoids_exec hp) s hstart m
    have hfree : s.held lock = false := hall (.asmSpinReq lock) (by rw [hck]; simp)
    rw [hheld] at hfree
    exact absurd hfree (by decide)

/-- The functions of the kernel that print or update the waking-core counter. -/
inductive KernelCode : Cmd → Prop
  | uartSend (c : Byte) : KernelCode (.uartSend c)
  | uartPuts (str : List Byte) : KernelCode (.uartPuts str)
  | hexstring (d : Word) : KernelCode (.hexstring d)
  | registerValuePuts (str : List Byte) (hex : Word) : KernelCode (.registerValuePuts str hex)
  | getWakingCores : KernelCode .getWakingCores
  | incWakingCores : KernelCode .incWakingCores
  | outputAccessPolicy : KernelCode .outputAccessPolicy

/-- IPI 1 is pending, and nothing else. -/
def helloIpi : IrqInput := ⟨0x10, 0x2, 0, 0, 0⟩

/-- Core 0 after three steps of a program. -/
def afterThree (program : List Cmd) : State :=
  ((step (exec (readyEnv 0 true)))^[3] (program, idle)).2

/-- IPI 1 may be taken while the waking-core counter is locked. -/
theorem irq_path_safe_incWakingCores :
    (afterThree [.incWakingCores]).held .sysCommonLock = true ∧
      IrqPathSafe (readyEnv 0 true) (afterThree [.incWakingCores]) helloIpi :=
  ⟨rfl, (irq_path_safe_iff rfl rfl _ _ _ _).mpr ⟨fun _ => rfl, fun _ => rfl⟩⟩

/-- IPI 1 deadlocks core 0 in the middle of `uart_puts`. -/
theorem irq_path_deadlocks_uartPuts :
    ¬ ∀ (env : Env) (program : List Cmd) (n : ℕ) (i : IrqInput), env.prid = 0 →
      env.mmuEnabled = true → (∀ c ∈ program, KernelCode c) →
      IrqPathSafe env ((step (exec env))^[n] (program, idle)).2 i := by
  intro hclaim
  have hsafe := hclaim (readyEnv 0 true) [.uartPuts (cstr "A")] 3 helloIpi rfl rfl
    (by simpa using KernelCode.uartPuts _)
  have hlow : LowestBit helloIpi.mailbox 1 := ⟨rfl, by decide⟩
  have hlocal : LocalPending helloIpi := by unfold LocalPending; decide
  have hno : ¬ SafeToTake (afterThree [.uartPuts (cstr "A")]).held helloIpi :=
    fun h => absurd (h.print (.inl ⟨hlocal, .inl hlow⟩)) (by decide)
  have hreq : Requests (readyEnv 0 true) _ _ _ := requests_interruptHandler rfl rfl hno
  obtain ⟨_, ⟨m, rfl⟩, hbad⟩ := hreq
  exact hsafe m hbad

end Console

end Rpi2Baremetal
