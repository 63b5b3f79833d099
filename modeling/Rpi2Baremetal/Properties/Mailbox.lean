import Rpi2Baremetal.Model.Mailbox
import Rpi2Baremetal.Framework.Transition
import Rpi2Baremetal.Properties.Dispatch

/-!
# Delivery of inter-processor interrupts

A bit of a mailbox that is set was sent and not cleared since.  The handler clears a bit before
it calls `ipi_handler` for it, so a send that comes after the clearing sets the bit again, and
one that comes before is served by the call.
-/

namespace Rpi2Baremetal

namespace Multicore

open Framework Interrupt

/-! ## The registers -/

section Registers

variable (mailbox0 : Fin NUM_CPU → Word) (other value : Word) (core : Fin NUM_CPU)

lemma read32_clr :
    read32 mailbox0 other (armLocalMailbox0Clr 0 + 0x10 * .ofNat 32 core) = mailbox0 core := by
  fin_cases core <;> rfl

lemma write32_set :
    write32 mailbox0 (armLocalMailbox0Set 0 + 0x10 * .ofNat 32 core) value =
      Function.update mailbox0 core (mailbox0 core ||| value) := by
  have hset : ∀ core c : Fin NUM_CPU,
      armLocalMailbox0Set 0 + 0x10 * .ofNat 32 core = armLocalMailbox0Set c ↔ c = core := by
    decide
  have hclr : ∀ core c : Fin NUM_CPU,
      armLocalMailbox0Set 0 + 0x10 * .ofNat 32 core ≠ armLocalMailbox0Clr c := by
    decide
  funext c
  rw [write32, if_neg (hclr core c), Function.update_apply]
  simp only [hset]
  split_ifs with heq
  · rw [heq]
  · rfl

lemma write32_clr :
    write32 mailbox0 (armLocalMailbox0Clr 0 + 0x10 * .ofNat 32 core) value =
      Function.update mailbox0 core (mailbox0 core &&& ~~~value) := by
  have hset : ∀ core c : Fin NUM_CPU,
      armLocalMailbox0Clr 0 + 0x10 * .ofNat 32 core ≠ armLocalMailbox0Set c := by
    decide
  have hclr : ∀ core c : Fin NUM_CPU,
      armLocalMailbox0Clr 0 + 0x10 * .ofNat 32 core = armLocalMailbox0Clr c ↔ c = core := by
    decide
  funext c
  rw [write32, if_neg (hset core c), Function.update_apply]
  simp only [hclr]
  split_ifs with heq
  · rw [heq]
  · rfl

lemma getLsbD_one_shiftLeft {k : ℕ} (hk : k < 32) (j : ℕ) :
    ((1 : Word) <<< k).getLsbD j ↔ j = k := by
  change ((1#32) <<< k).getLsbD j ↔ j = k
  rw [BitVec.getLsbD_shiftLeft, BitVec.getLsbD_one]
  simp only [Bool.and_eq_true, Bool.not_eq_true', decide_eq_true_eq, decide_eq_false_iff_not]
  omega

/-- `send_ipi` sets one bit. -/
lemma sendIpi_bit (k : Fin 32) (c : Fin NUM_CPU) (j : ℕ) :
    (sendIpi mailbox0 (.ofNat 32 core) (.ofNat 32 k) c).getLsbD j ↔
      (mailbox0 c).getLsbD j ∨ c = core ∧ j = k := by
  have hshift : (1 : Word) <<< (BitVec.ofNat 32 k) = (1 : Word) <<< (k : ℕ) := by
    rw [BitVec.shiftLeft_eq', BitVec.toNat_ofNat, Nat.mod_eq_of_lt (by omega)]
  rw [sendIpi, hshift, write32_set, Function.update_apply]
  split_ifs with hc
  · rw [hc, BitVec.getLsbD_or, Bool.or_eq_true, getLsbD_one_shiftLeft k.isLt,
      and_iff_right rfl]
  · rw [or_iff_left fun h => hc h.1]

/-- The write of the handler clears one bit. -/
lemma clear_bit {k : ℕ} (hk : k < 32) (c : Fin NUM_CPU) (j : ℕ) :
    (write32 mailbox0 (armLocalMailbox0Clr 0 + 0x10 * .ofNat 32 core) ((1 : Word) <<< k)
      c).getLsbD j ↔ (mailbox0 c).getLsbD j ∧ ¬ (c = core ∧ j = k) := by
  rw [write32_clr, Function.update_apply]
  split_ifs with hc
  · rw [hc, BitVec.getLsbD_and, Bool.and_eq_true, BitVec.getLsbD_not, Bool.and_eq_true,
      Bool.not_eq_true', ← Bool.not_eq_true, getLsbD_one_shiftLeft hk, and_iff_right rfl,
      decide_eq_true_eq]
    exact and_congr_right fun hbit => and_iff_right (BitVec.lt_of_getLsbD hbit)
  · rw [and_iff_left fun h => hc h.1]

end Registers

/-! ## Events -/

section Events

variable {t t₁ t₂ : List MailboxEvent} {event : MailboxEvent} {core : Fin NUM_CPU} {exec k : ℕ}

/-- Execution `exec` of the handler on a core clears bit `k` of the core's mailbox. -/
def ClearedIn (t : List MailboxEvent) (core : Fin NUM_CPU) (exec k : ℕ) : Prop :=
  ∃ bits, MailboxEvent.clear core exec bits ∈ t ∧ (bits core).getLsbD k

lemma clearedIn_snoc :
    ClearedIn (t ++ [event]) core exec k ↔
      ClearedIn t core exec k ∨ ∃ bits, event = .clear core exec bits ∧ (bits core).getLsbD k := by
  simp only [ClearedIn, List.mem_append, List.mem_singleton, or_and_right, exists_or,
    eq_comm (a := event)]

lemma ClearedIn.snoc (h : ClearedIn t core exec k) (event : MailboxEvent) :
    ClearedIn (t ++ [event]) core exec k :=
  clearedIn_snoc.mpr (.inl h)

/-- The last send of bit `k` to the core has not been followed by a clearing. -/
def Unserved (t : List MailboxEvent) (core : Fin NUM_CPU) (k : ℕ) : Prop :=
  ∃ t₁ t₂, t = t₁ ++ .send core k :: t₂ ∧ ∀ exec, ¬ ClearedIn t₂ core exec k

lemma Unserved.snoc (h : Unserved t core k)
    (hevent : ∀ exec bits, event = .clear core exec bits → ¬ (bits core).getLsbD k) :
    Unserved (t ++ [event]) core k := by
  obtain ⟨t₁, t₂, rfl, hnot⟩ := h
  refine ⟨t₁, t₂ ++ [event], by rw [List.append_assoc, List.cons_append], fun exec hc => ?_⟩
  rcases clearedIn_snoc.mp hc with hold | ⟨bits, heq, hbit⟩
  · exact hnot exec hold
  · exact hevent exec bits heq hbit

/-- A send of bit `k` to the core has been followed by the clearing of execution `exec` only. -/
def ServedBy (t : List MailboxEvent) (core : Fin NUM_CPU) (exec k : ℕ) : Prop :=
  ∃ t₁ t₂, t = t₁ ++ .send core k :: t₂ ∧ ∀ exec', ClearedIn t₂ core exec' k ↔ exec' = exec

lemma ServedBy.snoc (h : ServedBy t core exec k)
    (hevent : ∀ exec bits, event ≠ .clear core exec bits) :
    ServedBy (t ++ [event]) core exec k := by
  obtain ⟨t₁, t₂, rfl, honly⟩ := h
  refine ⟨t₁, t₂ ++ [event], by rw [List.append_assoc, List.cons_append], fun exec' => ?_⟩
  rw [clearedIn_snoc, ← honly exec']
  exact or_iff_left fun ⟨bits, heq, _⟩ => hevent exec' bits heq

/-- The clearing serves the send. -/
lemma Unserved.clear (h : Unserved t core k) {bits : Fin NUM_CPU → Word}
    (hbit : (bits core).getLsbD k) : ServedBy (t ++ [.clear core exec bits]) core exec k := by
  obtain ⟨t₁, t₂, rfl, hnot⟩ := h
  refine ⟨t₁, t₂ ++ [.clear core exec bits], by rw [List.append_assoc, List.cons_append],
    fun exec' => ?_⟩
  rw [clearedIn_snoc, or_iff_right (hnot exec')]
  constructor
  · rintro ⟨bits', heq, -⟩
    cases heq
    rfl
  · rintro rfl
    exact ⟨bits, rfl, hbit⟩

/-- An event of a trace that grows by one event is the new one or an old one. -/
lemma split_snoc {α : Type*} {t t₁ t₂ : List α} {a b : α} :
    t ++ [b] = t₁ ++ a :: t₂ ↔
      (t₂ = [] ∧ a = b ∧ t₁ = t) ∨ ∃ u, t₂ = u ++ [b] ∧ t = t₁ ++ a :: u := by
  constructor
  · intro h
    rcases List.eq_nil_or_concat t₂ with rfl | ⟨u, c, rfl⟩
    · obtain ⟨h1, h2⟩ := List.append_inj' h rfl
      exact .inl ⟨rfl, (List.singleton_inj.mp h2).symm, h1.symm⟩
    · rw [List.concat_eq_append, ← List.cons_append, ← List.append_assoc] at h
      obtain ⟨h1, h2⟩ := List.append_inj' h rfl
      obtain rfl := List.singleton_inj.mp h2
      exact .inr ⟨u, List.concat_eq_append, h1⟩
  · rintro (⟨rfl, rfl, rfl⟩ | ⟨u, rfl, rfl⟩)
    · rfl
    · rw [List.append_assoc, List.cons_append]

end Events

/-! ## Delivery -/

namespace MailboxState

/-- What has become of a send of bit `k` to the core, when the events `t` have followed it: the
bit is still set, or an execution of the handler has cleared it and calls `ipi_handler` later
than the send, unless it is about to. -/
def Kept (s : MailboxState) (core : Fin NUM_CPU) (k : ℕ) (t : List MailboxEvent) : Prop :=
  (s.mailbox0 core).getLsbD k ∨ ∃ exec, ClearedIn t core exec k ∧
    (.call core exec k ∈ t ∨ s.executions core = exec ∧ s.handler core = .cleared k)

/-- Sends, calls of `ipi_handler` and clearings match.  Each call is preceded by a send that its
execution has cleared and that no execution with an earlier call has. -/
structure Delivered (s : MailboxState) : Prop where
  kept : ∀ t₁ t₂ core k, s.trace = t₁ ++ .send core k :: t₂ → s.Kept core k t₂
  sent : ∀ t₁ t₂ core exec k, s.trace = t₁ ++ .call core exec k :: t₂ →
    ∃ u₁ u₂, t₁ = u₁ ++ .send core k :: u₂ ∧ ClearedIn u₂ core exec k ∧
      ∀ exec', .call core exec' k ∈ t₁ → ¬ ClearedIn u₂ core exec' k
  lowest : ∀ t₁ t₂ core exec bits, s.trace = t₁ ++ .clear core exec bits :: t₂ →
    ∃ mask k, .read core exec mask ∈ t₁ ∧ LowestBit mask k ∧
      ∀ c j, (bits c).getLsbD j ↔ c = core ∧ j = k

/-- What holds of a core before each step of its handler. -/
def HandlerInv (s : MailboxState) (core : Fin NUM_CPU) : Prop :=
  match s.handler core with
  | .idle => True
  | .pending => True
  | .scanned mask => .read core (s.executions core) mask ∈ s.trace ∧ mask ≠ 0 ∧
      ∀ k, mask.getLsbD k → (s.mailbox0 core).getLsbD k
  | .cleared k => ServedBy s.trace core (s.executions core) k

/-- The invariant: the bits that are set have been sent and not served, and an execution makes
its call before it is counted. -/
structure Inv (s : MailboxState) : Prop extends s.Delivered where
  unserved : ∀ core k, (s.mailbox0 core).getLsbD k → Unserved s.trace core k
  handler : ∀ core, s.HandlerInv core
  called : ∀ core exec k, .call core exec k ∈ s.trace → exec < s.executions core

lemma Inv.start : start.Inv where
  kept t₁ t₂ core k h := by cases t₁ <;> cases h
  sent t₁ t₂ core exec k h := by cases t₁ <;> cases h
  lowest t₁ t₂ core exec bits h := by cases t₁ <;> cases h
  unserved core k h := absurd h (by simp [MailboxState.start])
  handler core := trivial
  called core exec k h := by cases h

/-! ## One step -/

section Step

variable {s s' : MailboxState} {event : MailboxEvent} {core : Fin NUM_CPU} {k : ℕ}
  {t : List MailboxEvent}

lemma Kept.snoc (h : s.Kept core k t)
    (hbit : (s.mailbox0 core).getLsbD k → (s'.mailbox0 core).getLsbD k)
    (hcall : s.handler core = .cleared k → event = .call core (s.executions core) k ∨
      s'.executions core = s.executions core ∧ s'.handler core = .cleared k) :
    s'.Kept core k (t ++ [event]) := by
  rcases h with hset | ⟨exec, hcleared, hmem | ⟨hexec, hpc⟩⟩
  · exact .inl (hbit hset)
  · exact .inr ⟨exec, hcleared.snoc event, .inl (List.mem_append_left _ hmem)⟩
  · refine .inr ⟨exec, hcleared.snoc event, ?_⟩
    rcases hcall hpc with rfl | ⟨hexec', hpc'⟩
    · refine .inl (List.mem_append_right _ ?_)
      rw [hexec]
      exact List.mem_singleton_self _
    · exact .inr ⟨hexec'.trans hexec, hpc'⟩

lemma HandlerInv.snoc (h : s.HandlerInv core) (htrace : s'.trace = s.trace ++ [event])
    (hpc : s'.handler core = s.handler core) (hexec : s'.executions core = s.executions core)
    (hbit : ∀ k, (s.mailbox0 core).getLsbD k → (s'.mailbox0 core).getLsbD k)
    (hevent : ∀ exec bits, event ≠ .clear core exec bits) : s'.HandlerInv core := by
  unfold HandlerInv at h ⊢
  rw [hpc, hexec, htrace]
  cases hc : s.handler core with
  | idle => trivial
  | pending => trivial
  | scanned mask =>
      rw [hc] at h
      exact ⟨List.mem_append_left _ h.1, h.2.1, fun k hk => hbit k (h.2.2 k hk)⟩
  | cleared k =>
      rw [hc] at h
      exact ServedBy.snoc h hevent

/-- The properties of the trace after one more event. -/
lemma Delivered.snoc (h : s.Delivered) (htrace : s'.trace = s.trace ++ [event])
    (hkept : ∀ core k t, s.Kept core k t → s'.Kept core k (t ++ [event]))
    (hsend : ∀ core k, event = .send core k → (s'.mailbox0 core).getLsbD k)
    (hcall : ∀ core exec k, event = .call core exec k → ServedBy s.trace core exec k ∧
      ∀ exec', .call core exec' k ∈ s.trace → exec' ≠ exec)
    (hclear : ∀ core exec bits, event = .clear core exec bits →
      ∃ mask k, .read core exec mask ∈ s.trace ∧ LowestBit mask k ∧
        ∀ c j, (bits c).getLsbD j ↔ c = core ∧ j = k) : s'.Delivered where
  kept t₁ t₂ core k hsplit := by
    rw [htrace, split_snoc] at hsplit
    rcases hsplit with ⟨rfl, hevent, -⟩ | ⟨u, rfl, hsplit⟩
    · exact .inl (hsend core k hevent.symm)
    · exact hkept core k u (h.kept t₁ u core k hsplit)
  sent t₁ t₂ core exec k hsplit := by
    rw [htrace, split_snoc] at hsplit
    rcases hsplit with ⟨-, hevent, rfl⟩ | ⟨u, rfl, hsplit⟩
    · obtain ⟨⟨u₁, u₂, hu, honly⟩, hother⟩ := hcall core exec k hevent.symm
      refine ⟨u₁, u₂, hu, (honly exec).mpr rfl, fun exec' hmem hcleared => ?_⟩
      exact hother exec' hmem ((honly exec').mp hcleared)
    · exact h.sent t₁ u core exec k hsplit
  lowest t₁ t₂ core exec bits hsplit := by
    rw [htrace, split_snoc] at hsplit
    rcases hsplit with ⟨-, hevent, rfl⟩ | ⟨u, rfl, hsplit⟩
    · exact hclear core exec bits hevent.symm
    · exact h.lowest t₁ u core exec bits hsplit

end Step

lemma Inv.send {s : MailboxState} (h : s.Inv) (nCore : Fin NUM_CPU) (nIpi : Fin 32) :
    (mailboxStep s (.send nCore nIpi)).Inv := by
  have hbits := sendIpi_bit s.mailbox0 nCore nIpi
  constructor
  · refine h.toDelivered.snoc rfl ?_ ?_ nofun nofun
    · intro core k t hkept
      exact hkept.snoc (fun hset => (hbits core k).mpr (.inl hset)) fun hpc => .inr ⟨rfl, hpc⟩
    · intro core k hevent
      cases hevent
      exact (hbits _ _).mpr (.inr ⟨rfl, rfl⟩)
  · intro core k hset
    rcases (hbits core k).mp hset with hold | ⟨rfl, rfl⟩
    · exact (h.unserved core k hold).snoc nofun
    · exact ⟨s.trace, [], rfl, fun exec ⟨bits, hmem, _⟩ => List.not_mem_nil hmem⟩
  · intro core
    exact (h.handler core).snoc rfl rfl rfl (fun k hk => (hbits core k).mpr (.inl hk)) nofun
  · intro core exec k hmem
    exact h.called core exec k ((List.mem_append.mp hmem).resolve_right (by simp))

/-- A step of the handler on `core` leaves the handlers of the other cores alone. -/
structure OnCore (s : MailboxState) (core : Fin NUM_CPU) (s' : MailboxState) : Prop where
  handler : ∀ c, c ≠ core → s'.handler c = s.handler c
  executions : ∀ c, c ≠ core → s'.executions c = s.executions c

section Handler

variable {s s' t : MailboxState} {event : MailboxEvent} {core : Fin NUM_CPU}

lemma OnCore.goOn (hhandler : t.handler = s.handler) (hexec : t.executions = s.executions)
    (pc : HandlerPc) : OnCore s core (t.goOn core pc) where
  handler c hc := (Function.update_of_ne hc _ _).trans (congrFun hhandler c)
  executions c _ := congrFun hexec c

lemma OnCore.ret (hhandler : t.handler = s.handler) (hexec : t.executions = s.executions) :
    OnCore s core (t.ret core) where
  handler c hc := (Function.update_of_ne hc _ _).trans (congrFun hhandler c)
  executions c hc := (Function.update_of_ne hc _ _).trans (congrFun hexec c)

/-- A step that reads a register. -/
lemma Inv.look (h : s.Inv) (hcore : OnCore s core s')
    (hnot : ∀ k, s.handler core ≠ .cleared k) (hmailbox : s'.mailbox0 = s.mailbox0)
    (htrace : s'.trace = s.trace ++ [event])
    (hevent : ∃ exec value, event = .check core exec value ∨ event = .read core exec value)
    (hexec : s.executions core ≤ s'.executions core) (hown : s'.HandlerInv core) : s'.Inv := by
  obtain ⟨e, v, hevent⟩ := hevent
  have hbit : ∀ c k, (s.mailbox0 c).getLsbD k → (s'.mailbox0 c).getLsbD k := by
    intro c k hset
    rwa [hmailbox]
  have hclear : ∀ c exec bits, event ≠ .clear c exec bits := by
    rcases hevent with rfl | rfl <;> exact nofun
  have hcall : ∀ c exec k, event ≠ .call c exec k := by
    rcases hevent with rfl | rfl <;> exact nofun
  constructor
  · refine h.toDelivered.snoc htrace ?_ ?_ (fun c exec k he => absurd he (hcall c exec k))
      fun c exec bits he => absurd he (hclear c exec bits)
    · intro c k t hkept
      refine hkept.snoc (hbit c k) fun hpc => .inr ?_
      have hc : c ≠ core := fun heq => hnot k (heq ▸ hpc)
      exact ⟨hcore.executions c hc, (hcore.handler c hc).trans hpc⟩
    · rcases hevent with rfl | rfl <;> exact nofun
  · intro c k hset
    rw [hmailbox] at hset
    rw [htrace]
    exact (h.unserved c k hset).snoc fun exec bits he => absurd he (hclear c exec bits)
  · intro c
    by_cases hc : c = core
    · exact hc ▸ hown
    · exact (h.handler c).snoc htrace (hcore.handler c hc) (hcore.executions c hc) (hbit c)
        (hclear c)
  · intro c exec k hmem
    rw [htrace, List.mem_append, List.mem_singleton] at hmem
    have hlt := h.called c exec k (hmem.resolve_right fun he => hcall c exec k he.symm)
    by_cases hc : c = core
    · subst hc
      exact hlt.trans_le hexec
    · rwa [hcore.executions c hc]

/-- The handler reads the pending register. -/
lemma Inv.check (h : s.Inv) (hpc : s.handler core = .idle) (other : Word) :
    (localIntHandler s core other).Inv := by
  have hnot : ∀ k, s.handler core ≠ .cleared k := by
    rw [hpc]
    exact nofun
  unfold localIntHandler
  simp only [hpc]
  split_ifs
  · refine h.look (.ret (by rfl) (by rfl)) hnot rfl rfl ⟨_, _, .inl rfl⟩ ?_ ?_
    · simp [ret, record]
    · simp [HandlerInv, ret, MailboxState.goOn]
  · refine h.look (.goOn (by rfl) (by rfl) _) hnot rfl rfl ⟨_, _, .inl rfl⟩ le_rfl ?_
    simp [HandlerInv, MailboxState.goOn]

/-- The handler reads the mailbox. -/
lemma Inv.read (h : s.Inv) (hpc : s.handler core = .pending) (other : Word) :
    (localIntHandler s core other).Inv := by
  have hnot : ∀ k, s.handler core ≠ .cleared k := by
    rw [hpc]
    exact nofun
  unfold localIntHandler
  simp only [hpc, read32_clr]
  split_ifs with hzero
  · refine h.look (.ret (by rfl) (by rfl)) hnot rfl rfl ⟨_, _, .inr rfl⟩ ?_ ?_
    · simp [ret, record]
    · simp [HandlerInv, ret, MailboxState.goOn]
  · refine h.look (.goOn (by rfl) (by rfl) _) hnot rfl rfl ⟨_, _, .inr rfl⟩ le_rfl ?_
    simpa [HandlerInv, MailboxState.goOn, record] using hzero

/-- A step that clears the lowest bit of the mask read before, `bits` being what it has
cleared. -/
lemma Inv.clear (h : s.Inv) (hcore : OnCore s core s') {mask : Word} {k : ℕ}
    {bits : Fin NUM_CPU → Word} (hpc : s.handler core = .scanned mask)
    (hpc' : s'.handler core = .cleared k) (hlow : LowestBit mask k)
    (hexec : s'.executions core = s.executions core)
    (htrace : s'.trace = s.trace ++ [.clear core (s.executions core) bits])
    (hmailbox : ∀ c j, (s'.mailbox0 c).getLsbD j ↔
      (s.mailbox0 c).getLsbD j ∧ ¬ (c = core ∧ j = k))
    (hbits : ∀ c j, (bits c).getLsbD j ↔ c = core ∧ j = k) : s'.Inv := by
  have hown := h.handler core
  unfold HandlerInv at hown
  rw [hpc] at hown
  obtain ⟨hread, -, hsub⟩ := hown
  have hexecs : ∀ c, s'.executions c = s.executions c := by
    intro c
    by_cases hc : c = core
    · rw [hc, hexec]
    · exact hcore.executions c hc
  constructor
  · refine h.toDelivered.snoc htrace ?_ nofun nofun ?_
    · intro c j t hkept
      by_cases hcj : c = core ∧ j = k
      · -- the send is now served by this execution, which has not made its call yet
        obtain ⟨rfl, rfl⟩ := hcj
        refine .inr ⟨_, clearedIn_snoc.mpr (.inr ⟨bits, rfl, (hbits _ _).mpr ⟨rfl, rfl⟩⟩), ?_⟩
        exact .inr ⟨hexec, hpc'⟩
      · refine hkept.snoc (fun hset => (hmailbox c j).mpr ⟨hset, hcj⟩) fun hclr => ?_
        have hc : c ≠ core := by
          rintro rfl
          cases hclr.symm.trans hpc
        exact .inr ⟨hexecs c, (hcore.handler c hc).trans hclr⟩
    · intro c exec bits' he
      cases he
      exact ⟨mask, k, hread, hlow, hbits⟩
  · intro c j hset
    obtain ⟨hold, hne⟩ := (hmailbox c j).mp hset
    rw [htrace]
    refine (h.unserved c j hold).snoc fun exec bits' he hbit => ?_
    cases he
    exact hne ((hbits _ j).mp hbit)
  · intro c
    by_cases hc : c = core
    · subst hc
      unfold HandlerInv
      rw [hpc', htrace, hexec]
      exact (h.unserved c k (hsub k hlow.1)).clear ((hbits c k).mpr ⟨rfl, rfl⟩)
    · refine (h.handler c).snoc htrace (hcore.handler c hc) (hexecs c) (fun j hset => ?_) ?_
      · exact (hmailbox c j).mpr ⟨hset, fun hcj => hc hcj.1⟩
      · intro exec bits' he
        cases he
        exact hc rfl
  · intro c exec j hmem
    rw [htrace, List.mem_append] at hmem
    rw [hexecs]
    exact h.called c exec j (hmem.resolve_right (by simp))

/-- The step that calls `ipi_handler`. -/
lemma Inv.call (h : s.Inv) (hcore : OnCore s core s') {k : ℕ}
    (hpc : s.handler core = .cleared k) (hpc' : s'.handler core = .idle)
    (hexec : s'.executions core = s.executions core + 1) (hmailbox : s'.mailbox0 = s.mailbox0)
    (htrace : s'.trace = s.trace ++ [.call core (s.executions core) k]) : s'.Inv := by
  have hserved := h.handler core
  unfold HandlerInv at hserved
  rw [hpc] at hserved
  have hbit : ∀ c j, (s.mailbox0 c).getLsbD j → (s'.mailbox0 c).getLsbD j := by
    intro c j hset
    rwa [hmailbox]
  constructor
  · refine h.toDelivered.snoc htrace ?_ nofun ?_ nofun
    · intro c j t hkept
      refine hkept.snoc (hbit c j) fun hclr => ?_
      by_cases hc : c = core
      · subst hc
        obtain rfl : k = j := HandlerPc.cleared.inj (hpc.symm.trans hclr)
        exact .inl rfl
      · exact .inr ⟨hcore.executions c hc, (hcore.handler c hc).trans hclr⟩
    · intro c exec j he
      cases he
      exact ⟨hserved, fun exec' hmem => (h.called core exec' k hmem).ne⟩
  · intro c j hset
    rw [hmailbox] at hset
    rw [htrace]
    exact (h.unserved c j hset).snoc nofun
  · intro c
    by_cases hc : c = core
    · subst hc
      unfold HandlerInv
      rw [hpc']
      trivial
    · exact (h.handler c).snoc htrace (hcore.handler c hc) (hcore.executions c hc) (hbit c) nofun
  · intro c exec j hmem
    rw [htrace, List.mem_append, List.mem_singleton] at hmem
    by_cases hc : c = core
    · subst hc
      rw [hexec]
      rcases hmem with hold | heq
      · exact (h.called c exec j hold).trans (Nat.lt_succ_self _)
      · cases heq
        exact Nat.lt_succ_self _
    · rw [hcore.executions c hc]
      refine h.called c exec j (hmem.resolve_right fun heq => ?_)
      cases heq
      exact hc rfl

lemma Inv.localIntHandler (h : s.Inv) (core : Fin NUM_CPU) (other : Word) :
    (localIntHandler s core other).Inv := by
  cases hpc : s.handler core with
  | idle => exact h.check hpc other
  | pending => exact h.read hpc other
  | scanned mask =>
      have hown := h.handler core
      unfold HandlerInv at hown
      rw [hpc] at hown
      obtain ⟨-, hne, hsub⟩ := hown
      obtain ⟨k, hscan, hlow⟩ := ipiScan_spec 32 mask 0 hne mask.isLt
      rw [Nat.zero_add] at hscan
      have hset := hsub k hlow.1
      have hk : k < 32 := BitVec.lt_of_getLsbD hset
      unfold Multicore.localIntHandler
      simp only [hpc, hscan]
      refine h.clear (.goOn (by rfl) (by rfl) _) hpc (Function.update_self _ _ _) hlow rfl rfl
        (clear_bit s.mailbox0 core hk) fun c j => ?_
      rw [BitVec.getLsbD_and, BitVec.getLsbD_not, Bool.and_eq_true, Bool.and_eq_true,
        Bool.not_eq_true', ← Bool.not_eq_true, clear_bit s.mailbox0 core hk, decide_eq_true_eq]
      constructor
      · rintro ⟨hold, -, hnot⟩
        by_contra hne
        exact hnot ⟨hold, hne⟩
      · rintro ⟨rfl, rfl⟩
        exact ⟨hset, hk, fun h => h.2 ⟨rfl, rfl⟩⟩
  | cleared k =>
      unfold Multicore.localIntHandler
      simp only [hpc]
      exact h.call (.ret (by rfl) (by rfl)) hpc (Function.update_self _ _ _)
        (Function.update_self _ _ _) rfl rfl

end Handler

/-- Every step keeps the invariant. -/
lemma Inv.step {s : MailboxState} (h : s.Inv) (a : MailboxAction) : (mailboxStep s a).Inv := by
  cases a with
  | send nCore nIpi => exact h.send nCore nIpi
  | handler core other => exact h.localIntHandler core other

end MailboxState

/-- **Delivery.**  In every interleaving of sends and of the steps of `local_int_handler` on all
cores, no inter-processor interrupt is lost or misdelivered. -/
theorem ipis_delivered {ls : List MailboxAction} {s : MailboxState}
    (hr : Run (fun s a s' => mailboxStep s a = s') .start ls s) : s.Delivered :=
  (hr.invariant (fun _ a _ hI hs => hs ▸ hI.step a) MailboxState.Inv.start).toDelivered

/-- Core 1 is sent IPI 2, and IPI 1 while its handler is about to clear the first. -/
def twoSends : List MailboxAction :=
  [.send 1 2, .handler 1 0, .handler 1 0, .send 1 1, .handler 1 0, .handler 1 0]

/-- In that run the handler has served IPI 2, and IPI 1 is still pending. -/
theorem ipis_delivered_twoSends : ∃ s,
    Run (fun s a s' => mailboxStep s a = s') .start twoSends s ∧ s.Delivered ∧
      .call 1 0 2 ∈ s.trace ∧ (s.mailbox0 1).getLsbD 1 := by
  have hr : Run (fun s a s' => mailboxStep s a = s') .start twoSends
      (twoSends.foldl mailboxStep .start) :=
    Run.of_foldl mailboxStep (by simp [StepsAlong, twoSends])
  refine ⟨_, hr, ipis_delivered hr, ?_, ?_⟩
  · exact List.mem_append_right _ (List.mem_singleton_self _)
  · rfl

end Multicore

end Rpi2Baremetal
