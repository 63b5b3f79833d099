import Rpi2Baremetal.Model.Reset

/-!
# From reset to C, in every interleaving

Each core executes straight-line code with two or three branches, whose effect on the core is
computed block by block.  The only words any core loads are those of the image at `_start`, and
the only ones stored are the sixteen at address 0, by core 0; so the cores do together what each
does by itself.
-/

namespace Rpi2Baremetal

open Framework

namespace Reset

/-! ## Fields of the status register -/

section Fields

variable (a b : Word)

/-- A field that is written holds what was written. -/
lemma and_field {mask field : Word} (h : ~~~ mask &&& field = 0) (h' : mask &&& field = field) :
    ((a &&& ~~~ mask) ||| (b &&& mask)) &&& field = b &&& field := by
  rw [BitVec.and_or_distrib_right, BitVec.and_assoc, BitVec.and_assoc, h, h']
  simp

lemma mode_control : ((a &&& ~~~ controlMask) ||| (b &&& controlMask)) &&& modeMask
    = b &&& modeMask :=
  and_field a b (by decide) (by decide)

/-- The value that the macro computes has supervisor mode with both masks, whatever it is
computed from. -/
lemma svc_control : ((a &&& ~~~ 0x1F) ||| 0xD3) &&& controlMask = 0xD3 := by
  ext i hi
  simp only [controlMask, BitVec.getElem_and, BitVec.getElem_or]
  interval_cases i <;> simp

/-- The macro finds hypervisor mode by clearing its number. -/
lemma hyp_test : ((a &&& readMask) ^^^ 0x1A) &&& 0x1F = 0 ↔ a &&& modeMask = PSR_HYP := by
  have hxor : ((a &&& readMask) ^^^ 0x1A) &&& 0x1F = (a &&& modeMask) ^^^ PSR_HYP := by
    ext i hi
    simp only [readMask, modeMask, PSR_HYP, BitVec.getElem_and, BitVec.getElem_xor]
    interval_cases i <;> simp
  rw [hxor]
  exact BitVec.xor_eq_zero_iff

end Fields

namespace Core

variable (s : Core) (v : Word)

/-- The flags are no field of the other bits. -/
lemma and_setNz {field : Word} (h : 0x3FFFFFFF &&& field = field) :
    (s.setNz v).cpsr &&& field = s.cpsr &&& field := by
  have hflag : ∀ flag : Word, flag &&& 0x3FFFFFFF = 0 → flag &&& field = 0 := by
    intro flag hflag
    rw [← h, ← BitVec.and_assoc, hflag]
    exact BitVec.zero_and
  have hn : (if v.msb then 0x80000000 else 0 : Word) &&& field = 0 := by
    split
    · exact hflag _ (by decide)
    · exact BitVec.zero_and
  have hz : (if v = 0 then 0x40000000 else 0 : Word) &&& field = 0 := by
    split
    · exact hflag _ (by decide)
    · exact BitVec.zero_and
  rw [setNz, BitVec.and_or_distrib_right, BitVec.and_or_distrib_right, hn, hz, BitVec.and_assoc, h]
  simp

lemma ne_setNz : (s.setNz v).ne = decide (v ≠ 0) := by
  have hn : (if v.msb then 0x80000000 else 0 : Word).getLsbD 30 = false := by split <;> rfl
  rw [ne, setNz, BitVec.getLsbD_or, BitVec.getLsbD_or, BitVec.getLsbD_and, hn]
  by_cases hv : v = 0
  · rw [if_pos hv]
    simp [hv]
  · rw [if_neg hv]
    simpa using hv

end Core

/-! ## The code -/

/-- The instructions `is` lie at `pc`. -/
def At : Word → List Instr → Prop
  | _, [] => True
  | pc, i :: is => fetch pc = some i ∧ At (pc + 4) is

lemma At.append {pc : Word} {is js : List Instr} (h : At pc (is ++ js)) :
    At pc is ∧ At (pc + .ofNat 32 (4 * is.length)) js := by
  induction is generalizing pc with
  | nil => exact ⟨trivial, by simpa using h⟩
  | cons i is ih =>
      obtain ⟨his, hjs⟩ := ih h.2
      refine ⟨⟨h.1, his⟩, ?_⟩
      rw [List.length_cons, Nat.mul_succ, Nat.add_comm, BitVec.ofNat_add, ← BitVec.add_assoc]
      exact hjs

lemma codeAt_add {code : List Instr} (base : Word) {k : ℕ} (hk : 4 * k < 2 ^ 32) :
    codeAt base code (base + .ofNat 32 (4 * k)) = code[k]? := by
  have hdiff : (base + BitVec.ofNat 32 (4 * k) - base).toNat = 4 * k := by
    rw [BitVec.add_comm, BitVec.add_sub_cancel, BitVec.toNat_ofNat, Nat.mod_eq_of_lt hk]
  rw [codeAt, hdiff, if_pos (Nat.mul_mod_right 4 k), Nat.mul_div_cancel_left k (by decide)]

lemma at_of_fetch {base : Word} (is : List Instr)
    (h : ∀ k < is.length, fetch (base + .ofNat 32 (4 * k)) = is[k]?) : At base is := by
  induction is generalizing base with
  | nil => trivial
  | cons i is ih =>
      refine ⟨by simpa using h 0 (Nat.succ_pos _), ih fun k hk => ?_⟩
      have hnext := h (k + 1) (Nat.succ_lt_succ hk)
      rwa [Nat.mul_succ, Nat.add_comm, BitVec.ofNat_add, ← BitVec.add_assoc] at hnext

lemma at_start : At startBase start := by
  refine at_of_fetch start fun k hk => ?_
  rw [fetch, codeAt_add _ (by have : start.length = 8 := rfl; omega), List.getElem?_eq_getElem hk]
  rfl

lemma at_reset : At resetBase reset := by
  refine at_of_fetch reset fun k hk => ?_
  have hlen : reset.length = 43 := rfl
  have hstart : resetBase + .ofNat 32 (4 * k) = startBase + .ofNat 32 (4 * (16 + k)) := by
    rw [Nat.mul_add, BitVec.ofNat_add, ← BitVec.add_assoc]
    rfl
  rw [fetch, codeAt_add _ (by omega), List.getElem?_eq_getElem hk, hstart,
    codeAt_add _ (by omega), List.getElem?_eq_none (by rw [start, List.length_replicate]; omega)]
  rfl

lemma at_secondaryStart : At secondaryStartBase secondaryStart := by
  refine at_of_fetch secondaryStart fun k hk => ?_
  have hlen : secondaryStart.length = 38 := rfl
  have hreset : secondaryStartBase + .ofNat 32 (4 * k) =
      resetBase + .ofNat 32 (4 * (43 + k)) := by
    rw [Nat.mul_add, BitVec.ofNat_add, ← BitVec.add_assoc]
    rfl
  have hstart : secondaryStartBase + .ofNat 32 (4 * k) =
      startBase + .ofNat 32 (4 * (59 + k)) := by
    rw [Nat.mul_add, BitVec.ofNat_add, ← BitVec.add_assoc]
    rfl
  rw [fetch, codeAt_add _ (by omega), hreset, codeAt_add _ (by omega), ← hreset, hstart,
    codeAt_add _ (by omega), List.getElem?_eq_none (by rw [start, List.length_replicate]; omega),
    List.getElem?_eq_none (show reset.length ≤ 43 + k from Nat.le_add_right 43 k)]
  rfl

/-! ## Blocks -/

/-- The instruction may set `pc`. -/
def Instr.branches : Instr → Bool
  | .ldrPc _ | .eret | .bne _ | .b _ | .bl _ => true
  | _ => false

/-- The instruction loads or stores. -/
def Instr.accesses : Instr → Bool
  | .ldrPc _ | .ldmia _ _ | .stmia _ _ => true
  | _ => false

/-- The instructions of a block, one after the other. -/
def Does (m : Mem) (is : List Instr) (s t : Core) : Prop := is.foldlM (Core.exec m) s = some t

section Blocks

variable {m : Mem} {is js : List Instr} {i : Instr} {s t u : Core}
  {stored : Word → Option Word}

lemma Does.append (h : Does m is s t) (h' : Does m js t u) : Does m (is ++ js) s u := by
  rw [Does, List.foldlM_append, show is.foldlM (Core.exec m) s = some t from h]
  exact h'

lemma exec_pc (hi : i.branches = false) (h : s.exec m i = some t) : t.pc = s.pc + 4 := by
  cases i with
  | ldrPc _ | eret | bne _ | b _ | bl _ => cases hi
  | msrSpsr rn =>
      rw [Core.exec] at h
      split at h
      · cases h
      · rw [← Option.some.inj h]
        rfl
  | msrElrHyp =>
      rw [Core.exec] at h
      split at h
      · rw [← Option.some.inj h]
        rfl
      · cases h
  | msrCpsrC rn =>
      rw [Core.exec] at h
      split at h
      · rw [← Option.some.inj h]
        rfl
      · split at h
        · cases h
        · rw [← Option.some.inj h]
          rfl
  | mrcMpidr rd =>
      rw [Core.exec] at h
      split at h
      · cases h
      · rw [← Option.some.inj h]
        rfl
  | _ =>
      rw [← Option.some.inj h]
      rfl

lemma safe_of_fetch (hf : fetch s.pc = some i) (hi : i.accesses = false) :
    code.Safe stored s := by
  constructor
  · intro x hx
    change x ∈ s.stores at hx
    rw [Core.stores, hf] at hx
    cases i with
    | stmia rn rs => cases hi
    | _ => exact absurd hx List.not_mem_nil
  · intro a ha
    change a ∈ s.loads at ha
    rw [Core.loads, hf] at ha
    cases i with
    | ldrPc imm => cases hi
    | ldmia rn rs => cases hi
    | _ => exact absurd ha List.not_mem_nil

lemma safe_of_end (hf : fetch s.pc = none) : code.Safe stored s := by
  constructor
  · intro x hx
    change x ∈ s.stores at hx
    rw [Core.stores, hf] at hx
    exact absurd hx List.not_mem_nil
  · intro a ha
    change a ∈ s.loads at ha
    rw [Core.loads, hf] at ha
    exact absurd ha List.not_mem_nil

lemma next_of_fetch (hf : fetch s.pc = some i) (h : s.exec m i = some t) :
    code.next s m = some t := by
  show s.fetchExec m = _
  rw [Core.fetchExec, hf, Option.bind_some, h]

lemma passes_one (hf : fetch s.pc = some i) (hi : i.accesses = false)
    (h : s.exec m i = some t) : code.Passes m (code.Safe stored) s 1 t :=
  .single (safe_of_fetch hf hi) (next_of_fetch hf h)

/-- A block only whose last instruction may branch. -/
lemma passes_block (hat : At s.pc is) (hbranch : ∀ i ∈ is.dropLast, i.branches = false)
    (haccess : ∀ i ∈ is, i.accesses = false) (h : Does m is s t) :
    code.Passes m (code.Safe stored) s is.length t := by
  induction is generalizing s with
  | nil =>
      obtain rfl := Option.some.inj h
      exact .nil s
  | cons i is ih =>
      obtain ⟨s', hs', ht⟩ := Option.bind_eq_some_iff.mp h
      refine .cons (safe_of_fetch hat.1 (haccess i List.mem_cons_self)) (next_of_fetch hat.1 hs') ?_
      cases is with
      | nil =>
          obtain rfl := Option.some.inj ht
          exact .nil _
      | cons j js =>
          rw [List.dropLast_cons_cons] at hbranch
          refine ih ?_ (fun k hk => hbranch k (List.mem_cons_of_mem _ hk))
            (fun k hk => haccess k (List.mem_cons_of_mem _ hk)) ht
          rw [exec_pc (hbranch i List.mem_cons_self) hs']
          exact hat.2

end Blocks

/-! ## The macro -/

/-- The modes a core may be handed over in. -/
def privilegedModes : List Word :=
  [PSR_FIQ, PSR_IRQ, PSR_SVC, PSR_MON, PSR_ABT, PSR_HYP, PSR_UND, PSR_SYS]

/-- What the macro leaves: supervisor mode with both masks set, and of the core what matters
later. -/
structure Masked (s t : Core) : Prop where
  control : t.cpsr &&& controlMask = 0xD3
  bankedSp : t.bankedSp = s.bankedSp
  mpidr : t.mpidr = s.mpidr

def hypTest (reg : Fin 13) : List Instr :=
  [.mrsCpsr reg, .eor reg reg 0x1A, .tst reg 0x1F, .bic reg reg 0x1F, .orr reg reg 0xD3]

def leaveHyp (reg : Fin 13) : List Instr :=
  [.orr reg reg 0x100, .adrLr 12, .msrSpsr reg, .msrElrHyp, .eret]

section Macro

variable {m : Mem} {s : Core} {reg : Fin 13} {one : Word} {stored : Word → Option Word}

/-- The value the macro computes from `CPSR`. -/
def svcValue (cpsr : Word) : Word :=
  (((cpsr &&& readMask) ^^^ 0x1A) &&& ~~~ 0x1F) ||| 0xD3

lemma does_hypTest (m : Mem) (s : Core) (reg : Fin 13) : ∃ t, Does m (hypTest reg) s t ∧
    t.pc = s.pc + 20 ∧ t.r reg = svcValue s.cpsr ∧ t.mode = s.mode ∧
    t.ne = decide (s.mode ≠ PSR_HYP) ∧ t.bankedSp = s.bankedSp ∧ t.mpidr = s.mpidr := by
  let s₂ := ((s.setReg reg (s.cpsr &&& readMask)).next.setReg reg
    (Function.update s.r reg (s.cpsr &&& readMask) reg ^^^ 0x1A)).next
  have hr : s₂.r reg = (s.cpsr &&& readMask) ^^^ 0x1A := by
    simp [s₂, Core.next, Core.setReg]
  refine ⟨_, rfl, ?_, ?_, ?_, ?_, rfl, rfl⟩
  · simp only [Core.next, Core.setReg, Core.setNz, BitVec.add_assoc]
    rfl
  · simp [Core.next, Core.setReg, Core.setNz, svcValue]
  · exact Core.and_setNz s₂ (s₂.r reg &&& 0x1F) (by decide)
  · refine (Core.ne_setNz s₂ (s₂.r reg &&& 0x1F)).trans ?_
    rw [hr, decide_eq_decide, ne_eq, hyp_test]
    rfl

/-- In hypervisor mode the macro goes on by returning from an exception that there was not. -/
lemma does_leaveHyp (m : Mem) (s : Core) (reg : Fin 13) (hmode : s.mode = PSR_HYP)
    (hr : s.r reg &&& controlMask = 0xD3) :
    ∃ t, Does m (leaveHyp reg) s t ∧ t.pc = s.pc + 24 ∧ Masked s t := by
  have hcpsr : s.cpsr &&& modeMask = PSR_HYP := hmode
  have hbanked : ¬ (PSR_HYP = PSR_USR ∨ PSR_HYP = PSR_SYS) := by decide
  simp only [Does, leaveHyp, List.foldlM_cons, List.foldlM_nil, Core.exec, Core.next,
    Core.setReg, Core.setLr, Core.lrBank, Core.mode, hcpsr, if_neg hbanked, if_true,
    Option.bind_eq_bind, Option.bind_some, Option.pure_def, Option.some.injEq, exists_eq_left',
    Function.update_self, or_true]
  refine ⟨?_, ?_, rfl, rfl⟩
  · rw [BitVec.add_assoc, BitVec.add_assoc]
    rfl
  · rw [and_field _ _ (by decide) (by decide), and_field _ _ (by decide) (by decide),
      BitVec.and_or_distrib_right, hr]
    rfl

/-- The branch that is not hypervisor mode. -/
lemma exec_msrCpsrC (m : Mem) (s : Core) (reg : Fin 13) (husr : s.mode ≠ PSR_USR)
    (hhyp : s.mode ≠ PSR_HYP) : s.exec m (.msrCpsrC reg) = some
      { s with cpsr := (s.cpsr &&& ~~~ controlMask) ||| (s.r reg &&& controlMask) }.next := by
  rw [Core.exec, if_neg husr, if_neg hhyp]

/-- The macro, out of every mode but user mode. -/
lemma passes_macro (stored : Word → Option Word) {base : Word} (hpc : s.pc = base)
    (hat : At base (safeSvcmodeMaskall reg (base + 44))) (hmode : s.mode ∈ privilegedModes) :
    ∃ n t, n ≤ 12 ∧ code.Passes m (code.Safe stored) s n t ∧ t.pc = base + 52 ∧
      Masked s t := by
  have hsplit : safeSvcmodeMaskall reg (base + 44) = hypTest reg ++ ([.bne (base + 44)] ++
      (leaveHyp reg ++ ([.msrCpsrC reg] ++ [.nop]))) := rfl
  rw [hsplit] at hat
  obtain ⟨hatTest, hat⟩ := hat.append
  obtain ⟨hatBne, hat⟩ := hat.append
  obtain ⟨hatHyp, hat⟩ := hat.append
  obtain ⟨hatMsr, hatNop⟩ := hat.append
  simp only [BitVec.add_assoc] at hatHyp hatMsr hatNop
  obtain ⟨t₁, hdoes, hpc₁, hr₁, hmode₁, hne₁, hsp₁, hmpidr₁⟩ := does_hypTest m s reg
  have hcontrol₁ : t₁.r reg &&& controlMask = 0xD3 := by
    rw [hr₁]
    exact svc_control _
  have htest : code.Passes m (code.Safe stored) s 5 t₁ :=
    passes_block (hpc ▸ hatTest) (by simp [hypTest, Instr.branches])
      (by simp [hypTest, Instr.accesses]) hdoes
  rw [hpc] at hpc₁
  have hbne : fetch t₁.pc = some (.bne (base + 44)) := by
    rw [hpc₁]
    exact hatBne.1
  -- to label `2`, on either side of the branch
  obtain ⟨n, t, hn, hpasses, hpct, hmasked⟩ : ∃ n t, n ≤ 6 ∧
      code.Passes m (code.Safe stored) t₁ n t ∧ t.pc = base + 48 ∧ Masked t₁ t := by
    by_cases hhyp : s.mode = PSR_HYP
    · have hexec : t₁.exec m (.bne (base + 44)) = some t₁.next := by
        rw [Core.exec, hne₁, hhyp]
        rfl
      have hpc₂ : t₁.next.pc = base + 24 := by
        rw [Core.next, hpc₁, BitVec.add_assoc]
        rfl
      obtain ⟨t, hdoes', hpct, hmasked⟩ := does_leaveHyp m t₁.next reg (hmode₁.trans hhyp) hcontrol₁
      refine ⟨1 + 5, t, le_rfl, (passes_one hbne rfl hexec).append
        (passes_block (hpc₂ ▸ hatHyp) (by simp [leaveHyp, Instr.branches])
          (by simp [leaveHyp, Instr.accesses]) hdoes'), ?_, ?_⟩
      · rw [hpct, hpc₂, BitVec.add_assoc]
        rfl
      · exact ⟨hmasked.control, hmasked.bankedSp, hmasked.mpidr⟩
    · have hexec : t₁.exec m (.bne (base + 44)) = some { t₁ with pc := base + 44 } := by
        rw [Core.exec, hne₁, decide_eq_true hhyp]
        rfl
      have husr : s.mode ≠ PSR_USR := by
        intro husr
        rw [husr] at hmode
        exact absurd hmode (by decide)
      have hmsr := exec_msrCpsrC m { t₁ with pc := base + 44 } reg (hmode₁ ▸ husr) (hmode₁ ▸ hhyp)
      refine ⟨1 + 1, _, by decide, (passes_one hbne rfl hexec).append
        (passes_one hatMsr.1 rfl hmsr), ?_, ?_, rfl, rfl⟩
      · rw [Core.next, BitVec.add_assoc]
        rfl
      · exact (and_field _ _ (by decide) (by decide)).trans hcontrol₁
  have hnop : fetch t.pc = some .nop := by
    rw [hpct]
    exact hatNop.1
  refine ⟨5 + n + 1, t.next, by omega, (htest.append hpasses).append
    (passes_one hnop rfl rfl), ?_, hmasked.control, ?_, ?_⟩
  · rw [Core.next, hpct, BitVec.add_assoc]
    rfl
  · exact hmasked.bankedSp.trans hsp₁
  · exact hmasked.mpidr.trans hmpidr₁

end Macro

/-! ## The vectors -/

section Vectors

variable {m : Mem} {s t : Core}

lemma wordsFrom_length (a : Word) (n : ℕ) : (wordsFrom a n).length = n := by
  induction n generalizing a with
  | zero => rfl
  | succ n ih => rw [wordsFrom, List.length_cons, ih]

lemma wordsFrom_append (a : Word) (n k : ℕ) :
    wordsFrom a (n + k) = wordsFrom a n ++ wordsFrom (a + .ofNat 32 (4 * n)) k := by
  induction n generalizing a with
  | zero => simp [wordsFrom]
  | succ n ih =>
      rw [Nat.add_right_comm, wordsFrom, wordsFrom, ih, Nat.mul_succ, Nat.add_comm (4 * n),
        BitVec.ofNat_add, ← BitVec.add_assoc]
      rfl

/-- The words of another block are at the same distance each. -/
lemma wordsFrom_add (a d : Word) (n : ℕ) : wordsFrom (a + d) n = (wordsFrom a n).map (· + d) := by
  induction n generalizing a with
  | zero => rfl
  | succ n ih =>
      rw [wordsFrom, wordsFrom, List.map_cons, ← ih, BitVec.add_assoc a 4, BitVec.add_comm 4,
        ← BitVec.add_assoc]

lemma wordsFrom_bounds {a b : Word} {n : ℕ} (hn : a.toNat + 4 * n ≤ 2 ^ 32)
    (hb : b ∈ wordsFrom a n) : a.toNat ≤ b.toNat ∧ b.toNat < a.toNat + 4 * n := by
  induction n generalizing a with
  | zero => exact absurd hb List.not_mem_nil
  | succ n ih =>
      rcases List.mem_cons.mp hb with rfl | hb
      · omega
      · rcases Nat.eq_zero_or_pos n with rfl | hpos
        · exact absurd hb List.not_mem_nil
        · have hnext : (a + 4).toNat = a.toNat + 4 := by
            rw [BitVec.toNat_add, show (4 : Word).toNat = 4 from rfl, Nat.mod_eq_of_lt (by omega)]
          have := ih (by omega) hb
          omega

/-- The two halves of the sixteen words. -/
lemma mem_halves {a : Word} :
    a ∈ wordsFrom 0 16 ↔ a ∈ wordsFrom 0 8 ∨ a ∈ wordsFrom 32 8 := by
  rw [wordsFrom_append 0 8 8, List.mem_append]
  rfl

/-- The image does not overlap the vectors at 0. -/
lemma image_notMem {a b : Word} (ha : startBase.toNat ≤ a.toNat) (hn : a.toNat + 32 ≤ 2 ^ 32)
    (hb : b ∈ wordsFrom a 8) : b ∉ wordsFrom 0 16 := by
  intro hmem
  have := wordsFrom_bounds (by omega) hb
  have hlow := wordsFrom_bounds (a := 0) (n := 16) (by decide) hmem
  rw [show startBase.toNat = 0x8000 from rfl] at ha
  rw [show (0 : Word).toNat = 0 from rfl] at hlow
  omega

lemma setRegs_of_notMem (r : Fin 13 → Word) (rs : List (Fin 13)) (ws : List Word) {k : Fin 13}
    (hk : k ∉ rs) : Arm.setRegs r rs ws k = r k := by
  induction rs generalizing r ws with
  | nil => rfl
  | cons j rs ih =>
      rw [List.mem_cons, not_or] at hk
      cases ws with
      | nil => rfl
      | cons w ws => exact (ih _ ws hk.2).trans (Function.update_of_ne hk.1 ..)

/-- Registers that were loaded together, stored together. -/
lemma map_setRegs (r : Fin 13 → Word) {rs : List (Fin 13)} {ws : List Word} (hnd : rs.Nodup)
    (hlen : ws.length = rs.length) : rs.map (Arm.setRegs r rs ws) = ws := by
  induction rs generalizing r ws with
  | nil => exact (List.length_eq_zero_iff.mp hlen).symm
  | cons j rs ih =>
      obtain ⟨w, ws, rfl⟩ := List.exists_cons_of_length_eq_add_one hlen
      rw [List.nodup_cons] at hnd
      rw [List.map_cons]
      congr 1
      · exact (setRegs_of_notMem _ rs ws hnd.1).trans (Function.update_self ..)
      · exact ih _ hnd.2 (Nat.succ.inj hlen)

/-- Where `_reset_` stores, and what: the sixteen words of the image go to address 0. -/
def vectors (m : Mem) (a : Word) : Option Word :=
  if a ∈ wordsFrom 0 16 then some (m (a + startBase)) else none

/-- Eight words of the image that are stored where they belong. -/
lemma vectors_zip (m : Mem) {a : Word} (h : ∀ b ∈ wordsFrom a 8, b ∈ wordsFrom 0 16) :
    ∀ x ∈ (wordsFrom a 8).zip ((wordsFrom (a + startBase) 8).map m),
      vectors m x.1 = some x.2 := by
  intro x hx
  rw [wordsFrom_add, List.map_map, ← List.map_prod_left_eq_zip, List.mem_map] at hx
  obtain ⟨b, hb, rfl⟩ := hx
  exact if_pos (h b hb)

def vectorRegs : List (Fin 13) := [2, 3, 4, 5, 6, 7, 8, 9]

/-- One half of the copy: eight words from `r0` on to `r1` on. -/
lemma passes_copy {base a : Word} (hpc : s.pc = base) (hr0 : s.r 0 = a + startBase)
    (hr1 : s.r 1 = a) (hload : fetch base = some (.ldmia 0 vectorRegs))
    (hstore : fetch (base + 4) = some (.stmia 1 vectorRegs))
    (h : ∀ b ∈ wordsFrom a 8, b ∈ wordsFrom 0 16)
    (h' : ∀ b ∈ wordsFrom (a + startBase) 8, b ∉ wordsFrom 0 16) :
    ∃ t, code.Passes m (code.Safe (vectors m)) s 2 t ∧
      (∀ b ∈ wordsFrom a 8, code.StoresBy m s 2 b) ∧ t.pc = base + 8 ∧
      t.r 0 = a + startBase + 32 ∧ t.r 1 = a + 32 ∧ t.cpsr = s.cpsr ∧
      t.bankedSp = s.bankedSp ∧ t.mpidr = s.mpidr := by
  let ws := (wordsFrom (s.r 0) 8).map m
  let u : Core :=
    { s with r := Function.update (Arm.setRegs s.r vectorRegs ws) 0 (s.r 0 + 32) }.next
  have hfetch : fetch s.pc = some (.ldmia 0 vectorRegs) := by rw [hpc, hload]
  have hfetch' : fetch u.pc = some (.stmia 1 vectorRegs) := by
    rw [← hstore, ← hpc]
    rfl
  have hlen : ws.length = vectorRegs.length := by
    rw [List.length_map, wordsFrom_length]
    rfl
  have hr1' : u.r 1 = a := by
    have hne : (1 : Fin 13) ≠ 0 := by decide
    have hnotMem : (1 : Fin 13) ∉ vectorRegs := by decide
    show Function.update (Arm.setRegs s.r vectorRegs ws) 0 (s.r 0 + 32) 1 = a
    rw [Function.update_of_ne hne, setRegs_of_notMem _ _ _ hnotMem, hr1]
  have hregs : vectorRegs.map u.r = ws := by
    rw [← map_setRegs s.r (by decide) hlen]
    refine List.map_congr_left fun k hk => Function.update_of_ne ?_ ..
    rintro rfl
    exact absurd hk (by decide)
  have hstores : code.stores u =
      (wordsFrom a 8).zip ((wordsFrom (a + startBase) 8).map m) := by
    change u.stores = _
    rw [Core.stores, hfetch', ← hr0]
    show (wordsFrom (u.r 1) 8).zip (vectorRegs.map u.r) = _
    rw [hregs, hr1']
  have hsafe : code.Safe (vectors m) s := by
    constructor
    · intro x hx
      change x ∈ s.stores at hx
      rw [Core.stores, hfetch] at hx
      exact absurd hx List.not_mem_nil
    · intro b hb
      change b ∈ s.loads at hb
      rw [Core.loads, hfetch] at hb
      refine if_neg (h' b ?_)
      rw [← hr0]
      exact hb
  have hsafe' : code.Safe (vectors m) u := by
    constructor
    · rw [hstores]
      exact vectors_zip m h
    · intro b hb
      change b ∈ u.loads at hb
      rw [Core.loads, hfetch'] at hb
      exact absurd hb List.not_mem_nil
  have hnext : code.next s m = some u := next_of_fetch hfetch rfl
  have hnext' : code.next u m = some (u.setReg 1 (u.r 1 + 32)).next := next_of_fetch hfetch' rfl
  refine ⟨_, .cons hsafe hnext (.single hsafe' hnext'), fun b hb => ?_, ?_, ?_, ?_, rfl, rfl, rfl⟩
  · refine Thread.StoresBy.next hnext (Thread.StoresBy.head ?_)
    rw [hstores, List.map_fst_zip]
    · exact hb
    · rw [List.length_map, wordsFrom_length, wordsFrom_length]
  · show s.pc + 4 + 4 = _
    rw [hpc, BitVec.add_assoc]
    rfl
  · rw [← hr0]
    rfl
  · show u.r 1 + 32 = _
    rw [hr1']

/-- What the rest of the code relies on is not touched. -/
structure Same (s t : Core) : Prop where
  cpsr : t.cpsr = s.cpsr
  bankedSp : t.bankedSp = s.bankedSp
  mpidr : t.mpidr = s.mpidr

lemma passes_copyVectors {base : Word} (hpc : s.pc = base) (hat : At base copyVectors) :
    ∃ t, code.Passes m (code.Safe (vectors m)) s 6 t ∧
      (∀ b ∈ wordsFrom 0 16, code.StoresBy m s 6 b) ∧ t.pc = base + 24 ∧ Same s t := by
  have hsplit : copyVectors = [.mov 0 0x8000, .mov 1 0x0000] ++
      ([.ldmia 0 vectorRegs, .stmia 1 vectorRegs] ++
        [.ldmia 0 vectorRegs, .stmia 1 vectorRegs]) := rfl
  rw [hsplit] at hat
  obtain ⟨hatMov, hat⟩ := hat.append
  obtain ⟨hatFst, hatSnd⟩ := hat.append
  rw [BitVec.add_assoc] at hatSnd
  let s₂ := ((s.setReg 0 0x8000).next.setReg 1 0).next
  have hdoes : Does m [.mov 0 0x8000, .mov 1 0x0000] s s₂ := rfl
  have hmov : code.Passes m (code.Safe (vectors m)) s 2 s₂ :=
    passes_block (hpc ▸ hatMov) (by simp [Instr.branches]) (by simp [Instr.accesses]) hdoes
  have hpc₂ : s₂.pc = base + 8 := by
    rw [← hpc]
    exact BitVec.add_assoc ..
  obtain ⟨t₁, hpasses₁, hstores₁, hpc₁, hr0, hr1, hcpsr₁, hsp₁, hmpidr₁⟩ :=
    passes_copy (m := m) (a := 0) hpc₂ rfl rfl hatFst.1 hatFst.2.1
      (fun b hb => mem_halves.mpr (.inl hb)) fun b hb => image_notMem (by decide) (by decide) hb
  have hpc₁' : t₁.pc = base + 16 := by
    rw [hpc₁]
    exact BitVec.add_assoc ..
  obtain ⟨t, hpasses, hstores, hpct, -, -, hcpsr, hsp, hmpidr⟩ :=
    passes_copy (m := m) (a := 32) hpc₁' hr0 hr1 hatSnd.1 hatSnd.2.1
      (fun b hb => mem_halves.mpr (.inr hb)) fun b hb => image_notMem (by decide) (by decide) hb
  refine ⟨t, hmov.append (hpasses₁.append hpasses), fun b hb => ?_, ?_, ?_⟩
  · rcases mem_halves.mp hb with hb | hb
    · exact hmov.storesBy ((hstores₁ b hb).mono (Nat.le_add_right 2 2))
    · exact hmov.storesBy (hpasses₁.storesBy (hstores b hb))
  · rw [hpct]
    exact BitVec.add_assoc ..
  · exact ⟨hcpsr.trans hcpsr₁, hsp.trans hsp₁, hmpidr.trans hmpidr₁⟩

end Vectors

/-! ## The stacks -/

section Stacks

variable {m : Mem} {s t : Core} {stored : Word → Option Word}

def setStack (rv rs : Fin 13) (md : Word) : List Instr :=
  [.mov rv (md ||| PSR_I ||| PSR_F), .msrCpsrC rv, .movSp rs]

/-- The stack pointer of the mode `md` is set to `top`, and the core is in that mode. -/
structure StackSet (md top : Word) (s t : Core) : Prop where
  control : t.cpsr &&& controlMask = md ||| PSR_I ||| PSR_F
  bankedSp : t.bankedSp = Function.update s.bankedSp md top
  mpidr : t.mpidr = s.mpidr

/-- The modes the stacks are for. -/
def stackModes : List Word := [PSR_FIQ, PSR_IRQ, PSR_ABT, PSR_SVC]

lemma does_setStack (m : Mem) {rv rs : Fin 13} {md : Word} (hne : rs ≠ rv)
    (hmd : md ∈ stackModes) (hs : s.mode ∈ stackModes) :
    ∃ t, Does m (setStack rv rs md) s t ∧ t.r rs = s.r rs ∧ t.mode ∈ stackModes ∧
      StackSet md (s.r rs) s t := by
  have husr : s.mode ≠ PSR_USR := by
    intro husr
    rw [husr] at hs
    exact absurd hs (by decide)
  have hhyp : s.mode ≠ PSR_HYP := by
    intro hhyp
    rw [hhyp] at hs
    exact absurd hs (by decide)
  have hfields : (md ||| PSR_I ||| PSR_F) &&& modeMask = md ∧
      (md ||| PSR_I ||| PSR_F) &&& controlMask = md ||| PSR_I ||| PSR_F ∧ md ≠ PSR_SYS := by
    simp only [stackModes, List.mem_cons, List.not_mem_nil, or_false] at hmd
    rcases hmd with rfl | rfl | rfl | rfl <;> decide
  let s₁ := (s.setReg rv (md ||| PSR_I ||| PSR_F)).next
  let s₂ := { s₁ with cpsr := (s₁.cpsr &&& ~~~ controlMask) ||| (s₁.r rv &&& controlMask) }.next
  have hrv : s₁.r rv = md ||| PSR_I ||| PSR_F := Function.update_self ..
  have hrs : s₂.r rs = s.r rs := Function.update_of_ne hne ..
  have hmode : s₂.mode = md := by
    rw [← hfields.1, ← hrv]
    exact mode_control ..
  have hmsr : s₁.exec m (.msrCpsrC rv) = some s₂ := exec_msrCpsrC m s₁ rv husr hhyp
  refine ⟨(s₂.setSp (s₂.r rs)).next, ?_, hrs, ?_, ?_, ?_, rfl⟩
  · rw [Does, setStack, List.foldlM_cons]
    show (some s₁).bind _ = _
    rw [Option.bind_some, List.foldlM_cons, hmsr]
    rfl
  · rw [← hmode] at hmd
    exact hmd
  · refine Eq.trans ?_ hfields.2.1
    rw [← hrv]
    exact and_field _ _ (by decide) (by decide)
  · show Function.update s.bankedSp s₂.spBank (s₂.r rs) = _
    rw [Core.spBank, hmode, if_neg hfields.2.2, hrs]

def setStacks (rv rs : Fin 13) : List Instr :=
  setStack rv rs PSR_FIQ ++ ([.add rs rs STACK_SIZE] ++ (setStack rv rs PSR_IRQ ++
    ([.add rs rs STACK_SIZE] ++ (setStack rv rs PSR_ABT ++
      ([.add rs rs STACK_SIZE, .sub rs rs 0x4] ++ setStack rv rs PSR_SVC)))))

/-- The stack pointers of the four modes, the first of which is at `top`. -/
def stacksFrom (bankedSp : Word → Word) (top : Word) : Word → Word :=
  Function.update (Function.update (Function.update (Function.update bankedSp PSR_FIQ top)
    PSR_IRQ (top + STACK_SIZE)) PSR_ABT (top + STACK_SIZE + STACK_SIZE))
    PSR_SVC (top + STACK_SIZE + STACK_SIZE + STACK_SIZE - 4)

lemma stacksFrom_modes (bankedSp : Word → Word) (top : Word) :
    stacksFrom bankedSp top PSR_FIQ = top ∧
      stacksFrom bankedSp top PSR_IRQ = top + STACK_SIZE ∧
      stacksFrom bankedSp top PSR_ABT = top + STACK_SIZE + STACK_SIZE ∧
      stacksFrom bankedSp top PSR_SVC = top + STACK_SIZE + STACK_SIZE + STACK_SIZE - 4 :=
  ⟨rfl, rfl, rfl, rfl⟩

/-- What `setStacks` leaves. -/
structure StacksSet (top : Word) (s t : Core) : Prop where
  control : t.cpsr &&& controlMask = PSR_SVC ||| PSR_I ||| PSR_F
  bankedSp : t.bankedSp = stacksFrom s.bankedSp top
  mpidr : t.mpidr = s.mpidr

lemma does_setStacks (m : Mem) {rv rs : Fin 13} (hne : rs ≠ rv) (hs : s.mode ∈ stackModes) :
    ∃ t, Does m (setStacks rv rs) s t ∧ StacksSet (s.r rs) s t := by
  obtain ⟨t₁, hdoes₁, hr₁, hmode₁, hset₁⟩ :=
    does_setStack m (s := s) hne (show PSR_FIQ ∈ stackModes by decide) hs
  obtain ⟨t₂, hdoes₂, hr₂, hmode₂, hset₂⟩ :=
    does_setStack m (s := (t₁.setReg rs (t₁.r rs + STACK_SIZE)).next) hne
      (show PSR_IRQ ∈ stackModes by decide) hmode₁
  obtain ⟨t₃, hdoes₃, hr₃, hmode₃, hset₃⟩ :=
    does_setStack m (s := (t₂.setReg rs (t₂.r rs + STACK_SIZE)).next) hne
      (show PSR_ABT ∈ stackModes by decide) hmode₂
  let u := (t₃.setReg rs (t₃.r rs + STACK_SIZE)).next
  obtain ⟨t₄, hdoes₄, hr₄, hmode₄, hset₄⟩ :=
    does_setStack m (s := (u.setReg rs (u.r rs - 0x4)).next) hne
      (show PSR_SVC ∈ stackModes by decide) hmode₃
  have hup : ∀ (t : Core) (v : Word), (t.setReg rs v).next.r rs = v :=
    fun t v => Function.update_self ..
  rw [hup] at hr₂ hr₃ hset₂ hset₃ hset₄
  rw [hup] at hset₄
  rw [hr₁] at hr₂ hset₂
  rw [hr₂] at hr₃ hset₃
  rw [hr₃] at hset₄
  refine ⟨t₄, hdoes₁.append (Does.append rfl (hdoes₂.append (Does.append rfl (hdoes₃.append
    (Does.append (t := (u.setReg rs (u.r rs - 0x4)).next) rfl hdoes₄))))), hset₄.control, ?_, ?_⟩
  · have hsp : ∀ (t : Core) (v : Word), (t.setReg rs v).next.bankedSp = t.bankedSp :=
      fun _ _ => rfl
    rw [hset₄.bankedSp, hsp, hsp, hset₃.bankedSp, hsp, hset₂.bankedSp, hsp, hset₁.bankedSp]
    rfl
  · exact hset₄.mpidr.trans (hset₃.mpidr.trans (hset₂.mpidr.trans hset₁.mpidr))

lemma mode_of_control (h : s.cpsr &&& controlMask = 0xD3) : s.mode = PSR_SVC := by
  have hsub : controlMask &&& modeMask = modeMask := by decide
  rw [Core.mode, ← hsub, ← BitVec.and_assoc, h]
  rfl

lemma exec_mrcMpidr (m : Mem) (rd : Fin 13) (h : s.cpsr &&& controlMask = 0xD3) :
    s.exec m (.mrcMpidr rd) = some (s.setReg rd s.mpidr).next := by
  have husr : ¬ s.mode = PSR_USR := by
    rw [mode_of_control h]
    decide
  rw [Core.exec, if_neg husr]

/-- A last block: `first` leaves the first stack in `rs`, and after the stacks comes the call. -/
lemma does_stacks {first : List Instr} (rv rs : Fin 13) (target : Word) {top : Word}
    (hne : rs ≠ rv) (hfirst : Does m first s t) (htop : t.r rs = top) (hsame : Same s t)
    (hcontrol : s.cpsr &&& controlMask = 0xD3) :
    ∃ u, Does m (first ++ (setStacks rv rs ++ [.bl target])) s u ∧ u.pc = target ∧
      StacksSet top s u := by
  have hmode : t.mode ∈ stackModes := by
    rw [mode_of_control (hsame.cpsr ▸ hcontrol)]
    decide
  obtain ⟨u, hdoes, hset⟩ := does_setStacks m hne hmode
  refine ⟨{ u.setLr (u.pc + 4) with pc := target },
    hfirst.append (hdoes.append rfl), rfl, hset.control, ?_, ?_⟩
  · rw [← htop, ← hsame.bankedSp]
    exact hset.bankedSp
  · exact hset.mpidr.trans hsame.mpidr

end Stacks

/-! ## Each core by itself -/

/-- The handlers of the vectors: `_reset_`, `undefined_instruction_vector`, `_svc_handler`,
`prefetch_abort_vector`, `_dabort`, `_reset_`, `_irq` and `fast_interrupt_vector`. -/
def handlers : Fin 8 → Word :=
  ![0x8040, 0x8AA4, 0x81B4, 0x8B1C, 0x8198, 0x8040, 0x8184, 0x8D08]

/-- The address of a vector in the image, or with `base` 0 that where the processor looks for
it. -/
def vectorAt (base : Word) (k : Fin 8) : Word := base + .ofNat 32 (4 * k)

/-- The code of `ldr pc, [pc, #24]`. -/
def ldrPcWord : Word := 0xE59FF018

/-- The vectors are at `base`, and their literals after them. -/
structure VectorsAt (m : Mem) (base : Word) : Prop where
  code : ∀ k, m (vectorAt base k) = ldrPcWord
  literal : ∀ k, m (vectorAt (base + 32) k) = handlers k

/-- A core as it is handed over to the code, in any mode but user mode.  The secondary cores may
also be sent to `_secondary_start`. -/
structure Entered (c : Fin NUM_CPU) (s : Core) : Prop where
  mpidr : s.mpidr &&& 3 = .ofNat 32 c
  mode : s.mode ∈ privilegedModes
  pc : s.pc = startBase ∨ s.pc = resetBase ∨ c ≠ 0 ∧ s.pc = secondaryStartBase

/-- The first stack of a core. -/
def stackTop (c : Fin NUM_CPU) : Word :=
  STACK_BASE_ADDR + .ofNat 32 c * STACK_BASE_ADDR + STACK_SIZE

/-- A core that is about to execute C. -/
structure ReadyForC (c : Fin NUM_CPU) (s t : Core) : Prop where
  pc : t.pc = if c = 0 then sysInitPrimary else sysInitSecondary
  set : StacksSet (stackTop c) s t

section Solo

variable {m : Mem} {s : Core} {c : Fin NUM_CPU} {stored : Word → Option Word}

/-- `_secondary_start`. -/
lemma passes_secondary (stored : Word → Option Word) (hpc : s.pc = secondaryStartBase)
    (hmode : s.mode ∈ privilegedModes)
    (hmpidr : s.mpidr &&& 3 = .ofNat 32 c) :
    ∃ n t, n ≤ 36 ∧ code.Passes m (code.Safe stored) s n t ∧ t.pc = sysInitSecondary ∧
      StacksSet (stackTop c) s t := by
  have hat := at_secondaryStart
  rw [secondaryStart, List.append_assoc] at hat
  obtain ⟨hatMacro, hat⟩ := hat.append
  obtain ⟨hatStacks, -⟩ := hat.append
  obtain ⟨n, t, hn, hpasses, hpct, hmasked⟩ :=
    passes_macro (m := m) stored hpc hatMacro hmode
  let first : List Instr := [.and 1 1 0x3, .mov 0 STACK_BASE_ADDR, .mov 3 STACK_BASE_ADDR,
    .mul 4 1 3, .addReg 0 0 4, .add 0 0 STACK_SIZE]
  let t₁ := (t.setReg 1 t.mpidr).next
  obtain ⟨t₂, ht₂⟩ : ∃ t₂, Does m first t₁ t₂ := ⟨_, rfl⟩
  have hfirst : Does m (.mrcMpidr 1 :: first) t t₂ := by
    rw [Does, List.foldlM_cons, exec_mrcMpidr m 1 hmasked.control, Option.bind_eq_bind,
      Option.bind_some]
    exact ht₂
  have htop : t₂.r 0 = stackTop c ∧ Same t t₂ := by
    rw [stackTop, ← hmpidr, ← hmasked.mpidr]
    obtain rfl := Option.some.inj ht₂
    refine ⟨?_, rfl, rfl, rfl⟩
    simp [Core.next, Core.setReg, t₁]
  obtain ⟨u, hdoes, hpcu, hset⟩ :=
    does_stacks 2 0 sysInitSecondary (by decide) hfirst htop.1 htop.2 hmasked.control
  have hstacks : code.Passes m (code.Safe stored) t secondaryStacks.length u :=
    passes_block (hpct ▸ hatStacks) (by simp [secondaryStacks, Instr.branches])
      (by simp [secondaryStacks, Instr.accesses]) hdoes
  refine ⟨n + 24, u, by omega, hpasses.append hstacks, hpcu, hset.control, ?_, ?_⟩
  · rw [hset.bankedSp, hmasked.bankedSp]
  · exact hset.mpidr.trans hmasked.mpidr

/-- `_reset_` on core 0, after the branch. -/
lemma passes_primary (hpc : s.pc = 0x8080) (hcontrol : s.cpsr &&& controlMask = 0xD3)
    (hat : At 0x8080 (copyVectors ++ primaryStacks)) :
    ∃ t, code.Passes m (code.Safe (vectors m)) s 25 t ∧
      (∀ b ∈ wordsFrom 0 16, code.StoresBy m s 25 b) ∧ t.pc = sysInitPrimary ∧
      StacksSet (stackTop 0) s t := by
  obtain ⟨hatCopy, hatStacks⟩ := hat.append
  obtain ⟨t, hcopy, hstores, hpct, hsame⟩ := passes_copyVectors (m := m) hpc hatCopy
  have hcontrol' : t.cpsr &&& controlMask = 0xD3 := by rw [hsame.cpsr, hcontrol]
  let first : List Instr := [.mov 1 STACK_BASE_ADDR, .add 1 1 STACK_SIZE]
  have hfirst : Does m first t ((t.setReg 1 STACK_BASE_ADDR).next.setReg 1
      ((t.setReg 1 STACK_BASE_ADDR).next.r 1 + STACK_SIZE)).next := rfl
  have htop : ((t.setReg 1 STACK_BASE_ADDR).next.setReg 1
      ((t.setReg 1 STACK_BASE_ADDR).next.r 1 + STACK_SIZE)).next.r 1 = stackTop 0 := by
    simp [Core.next, Core.setReg]
    rfl
  obtain ⟨u, hdoes, hpcu, hset⟩ :=
    does_stacks 0 1 sysInitPrimary (by decide) hfirst htop ⟨rfl, rfl, rfl⟩ hcontrol'
  have hstacks : code.Passes m (code.Safe (vectors m)) t primaryStacks.length u :=
    passes_block (hpct ▸ hatStacks) (by simp [primaryStacks, Instr.branches])
      (by simp [primaryStacks, Instr.accesses]) hdoes
  refine ⟨u, hcopy.append hstacks, fun b hb => (hstores b hb).mono (by decide), hpcu,
    hset.control, ?_, ?_⟩
  · rw [hset.bankedSp, hsame.bankedSp]
  · exact hset.mpidr.trans hsame.mpidr

/-- How a core gets from a state to C by itself, and what it has stored then. -/
def GetsReady (m : Mem) (c : Fin NUM_CPU) (s : Core) (bound : ℕ) : Prop :=
  ∃ n t, n ≤ bound ∧ code.Passes m (code.Safe (vectors m)) s n t ∧ ReadyForC c s t ∧
    (c = 0 → ∀ b ∈ wordsFrom 0 16, code.StoresBy m s n b)

/-- What a core does before, in states it does not lose by it. -/
lemma GetsReady.after {n k bound : ℕ} {t : Core} (ht : GetsReady m c t bound)
    (h : code.Passes m (code.Safe (vectors m)) s n t) (hn : n ≤ k)
    (hsp : t.bankedSp = s.bankedSp) (hmpidr : t.mpidr = s.mpidr) :
    GetsReady m c s (k + bound) := by
  obtain ⟨j, u, hj, hpasses, hready, hstores⟩ := ht
  refine ⟨n + j, u, by omega, h.append hpasses, ⟨hready.pc, hready.set.control, ?_, ?_⟩,
    fun hc b hb => h.storesBy (hstores hc b hb)⟩
  · rw [hready.set.bankedSp, hsp]
  · exact hready.set.mpidr.trans hmpidr

lemma getsReady_secondary (hc : c ≠ 0) (hpc : s.pc = secondaryStartBase)
    (hmode : s.mode ∈ privilegedModes) (hmpidr : s.mpidr &&& 3 = .ofNat 32 c) :
    GetsReady m c s 36 := by
  obtain ⟨n, t, hn, hpasses, hpct, hset⟩ :=
    passes_secondary (vectors m) hpc hmode hmpidr
  exact ⟨n, t, hn, hpasses, ⟨hpct.trans (if_neg hc).symm, hset⟩, fun h => absurd h hc⟩

/-- `_reset_`. -/
lemma getsReady_reset (hpc : s.pc = resetBase) (hmode : s.mode ∈ privilegedModes)
    (hmpidr : s.mpidr &&& 3 = .ofNat 32 c) : GetsReady m c s (12 + (3 + 36)) := by
  have hat := at_reset
  rw [reset, List.append_assoc, List.append_assoc, List.append_assoc] at hat
  obtain ⟨hatMacro, hat⟩ := hat.append
  obtain ⟨hatTest, hat⟩ := hat.append
  rw [← List.append_assoc] at hat
  obtain ⟨hatPrimary, -⟩ := hat.append
  obtain ⟨n, t, hn, hpasses, hpct, hmasked⟩ :=
    passes_macro (vectors m) hpc hatMacro hmode
  suffices hready : GetsReady m c t (3 + 36) from
    hready.after hpasses hn hmasked.bankedSp hmasked.mpidr
  let t₁ := (t.setReg 0 t.mpidr).next
  let t₂ := ((t₁.setReg 0 (t₁.r 0 &&& 0x3)).setNz (t₁.r 0 &&& 0x3)).next
  have hpct₂ : t₂.pc = 0x807C := by
    show t.pc + 4 + 4 = _
    rw [hpct]
    rfl
  have hr : t₁.r 0 &&& 0x3 = .ofNat 32 c := by
    show t.mpidr &&& 0x3 = _
    rw [hmasked.mpidr, hmpidr]
  have hdoes : Does m [.mrcMpidr 0, .ands 0 0 0x3] t t₂ := by
    rw [Does, List.foldlM_cons, exec_mrcMpidr m 0 hmasked.control]
    rfl
  have hatTwo : At t.pc [.mrcMpidr 0, .ands 0 0 0x3] := hpct ▸ ⟨hatTest.1, hatTest.2.1, trivial⟩
  have htest : code.Passes m (code.Safe (vectors m)) t 2 t₂ :=
    passes_block hatTwo (by simp [Instr.branches]) (by simp [Instr.accesses]) hdoes
  have hbne : fetch t₂.pc = some (.bne secondaryStartBase) := hpct₂ ▸ hatTest.2.2.1
  have hne : t₂.ne = decide (t₁.r 0 &&& 0x3 ≠ 0) := Core.ne_setNz (t₁.setReg 0 _) _
  have hcontrol : t₂.cpsr &&& controlMask = 0xD3 :=
    (Core.and_setNz (t₁.setReg 0 _) _ (by decide)).trans hmasked.control
  rw [hr] at hne
  by_cases hc : c = 0
  · subst hc
    have hexec : t₂.exec m (.bne secondaryStartBase) = some t₂.next := by
      rw [Core.exec, hne]
      rfl
    have hpc₃ : t₂.next.pc = 0x8080 := by
      rw [Core.next, hpct₂]
      rfl
    obtain ⟨u, hprimary, hstores, hpcu, hset⟩ := passes_primary (m := m) hpc₃ hcontrol hatPrimary
    have hready : GetsReady m 0 t₂.next 36 :=
      ⟨25, u, by decide, hprimary, ⟨hpcu, hset⟩, fun _ => hstores⟩
    exact hready.after (htest.append (passes_one hbne rfl hexec)) le_rfl rfl rfl
  · have hnz : BitVec.ofNat 32 c.val ≠ 0 := by
      intro hz
      have hval := congrArg BitVec.toNat hz
      have hlt : c.val < 4 := c.isLt
      rw [BitVec.toNat_ofNat, Nat.mod_eq_of_lt (by omega)] at hval
      exact hc (Fin.ext hval)
    have hexec : t₂.exec m (.bne secondaryStartBase) =
        some { t₂ with pc := secondaryStartBase } := by
      rw [Core.exec, hne, decide_eq_true hnz]
      rfl
    have hmode₃ : t₂.mode ∈ privilegedModes := by
      rw [mode_of_control hcontrol]
      decide
    have hready : GetsReady m c { t₂ with pc := secondaryStartBase } 36 :=
      getsReady_secondary hc rfl hmode₃ (by rw [← hmpidr, ← hmasked.mpidr]; rfl)
    exact hready.after (htest.append (passes_one hbne rfl hexec)) le_rfl rfl rfl

/-- Every core that is handed over. -/
lemma getsReady_of_entered (himage : m (startBase + 32) = resetBase) (h : Entered c s) :
    GetsReady m c s 52 := by
  rcases h.pc with hpc | hpc | ⟨hc, hpc⟩
  · have hfetch : fetch s.pc = some (.ldrPc 24) := hpc ▸ at_start.1
    have hexec : s.exec m (.ldrPc 24) = some { s with pc := resetBase } := by
      rw [Core.exec, hpc, show startBase + 8 + 24 = startBase + 32 from rfl, himage]
      rfl
    have hsafe : code.Safe (vectors m) s := by
      constructor
      · intro x hx
        change x ∈ s.stores at hx
        rw [Core.stores, hfetch] at hx
        exact absurd hx List.not_mem_nil
      · intro b hb
        change b ∈ s.loads at hb
        rw [Core.loads, hfetch, hpc] at hb
        refine if_neg (image_notMem (a := startBase + 32) (by decide) (by decide) ?_)
        rw [List.mem_singleton.mp hb]
        exact List.mem_cons_self
    have hready : GetsReady m c { s with pc := resetBase } (12 + (3 + 36)) :=
      getsReady_reset rfl h.mode h.mpidr
    exact hready.after (.single hsafe (next_of_fetch hfetch hexec)) le_rfl rfl rfl
  · obtain ⟨n, t, hn, hready⟩ := getsReady_reset (m := m) hpc h.mode h.mpidr
    exact ⟨n, t, by omega, hready⟩
  · obtain ⟨n, t, hn, hready⟩ := getsReady_secondary (m := m) hc hpc h.mode h.mpidr
    exact ⟨n, t, by omega, hready⟩

end Solo

/-! ## The cores together -/

lemma vectors_eq_none_iff {m : Mem} {a : Word} : vectors m a = none ↔ a ∉ wordsFrom 0 16 := by
  rw [vectors]
  split <;> simp_all

/-- An exception leads to its handler. -/
lemma VectorsAt.exec {m : Mem} {base : Word} (h : VectorsAt m base) (k : Fin 8) {s : Core}
    (hpc : s.pc = vectorAt base k) :
    s.exec m (.ldrPc 24) = some { s with pc := handlers k } := by
  have haddr : s.pc + 8 + 24 = vectorAt (base + 32) k := by
    rw [hpc, vectorAt, vectorAt, BitVec.add_assoc, BitVec.add_assoc, BitVec.add_assoc,
      BitVec.add_comm (.ofNat 32 _)]
    rfl
  have halign : ∀ k, handlers k &&& 3 = 0 := by decide
  rw [Core.exec, haddr, h.literal, if_pos (halign k)]

lemma vectorAt_mem {base : Word} {k : Fin 8} : vectorAt base k ∈ wordsFrom base 8 := by
  obtain ⟨n, hn⟩ := Nat.exists_eq_add_of_lt k.isLt
  rw [hn, Nat.add_assoc, wordsFrom_append]
  exact List.mem_append_right _ List.mem_cons_self

/-- The vectors are at 0 once the words from `startBase` on are there. -/
lemma VectorsAt.copied {m m' : Mem} (h : VectorsAt m startBase)
    (hcopy : ∀ a ∈ wordsFrom 0 16, m' a = m (a + startBase)) : VectorsAt m' 0 := by
  have hshift : ∀ (base : Word) (k : Fin 8),
      vectorAt base k + startBase = vectorAt (base + startBase) k := by
    intro base k
    rw [vectorAt, vectorAt, BitVec.add_assoc, BitVec.add_assoc, BitVec.add_comm startBase]
  refine ⟨fun k => ?_, fun k => ?_⟩
  · rw [hcopy _ (mem_halves.mpr (.inl vectorAt_mem)), hshift]
    exact h.code k
  · show m' (vectorAt 32 k) = _
    rw [hcopy _ (mem_halves.mpr (.inr vectorAt_mem)), hshift]
    exact h.literal k

/-- **From reset to C.**  Whatever privileged modes the cores are handed over in and however
their instructions interleave, each core executes a fixed number of instructions, is never
stuck before, and then is at its entry into C in supervisor mode, with both masks set and four
stacks of its own.  No word is stored but the sixteen of the vectors; when core 0 is done they
are the image's, so that every exception leads to its handler. -/
theorem reset_every_interleaving {cs : Cores} (himage : VectorsAt cs.mem startBase)
    (henter : ∀ c, Entered c (cs.thread c)) :
    ∃ n : Fin NUM_CPU → ℕ, (∀ c, n c ≤ 52) ∧ ∀ ls cs',
      Run (fun cs c cs' => code.step cs c = some cs') cs ls cs' →
      (∀ c, ls.count c ≤ n c ∧ (ls.count c < n c → (code.step cs' c).isSome) ∧
        (ls.count c = n c → ReadyForC c (cs.thread c) (cs'.thread c))) ∧
      (∀ a ∉ wordsFrom 0 16, cs'.mem a = cs.mem a) ∧
      (∀ a ∈ wordsFrom 0 16, cs'.mem a = cs.mem a ∨ cs'.mem a = cs.mem (a + startBase)) ∧
      (ls.count 0 = n 0 → VectorsAt cs'.mem 0 ∧ ∀ (k : Fin 8) (s : Core), s.pc = vectorAt 0 k →
        s.exec cs'.mem (.ldrPc 24) = some { s with pc := handlers k }) := by
  have hready : ∀ c, GetsReady cs.mem c (cs.thread c) 52 :=
    fun c => getsReady_of_entered (himage.literal 0) (henter c)
  choose n t hn hpasses hreadyC hstores using hready
  have hfetch : ∀ c, fetch (t c).pc = none := by
    intro c
    rw [(hreadyC c).pc]
    split <;> rfl
  have hend : ∀ c, code.next (t c) cs.mem = none := by
    intro c
    show (t c).fetchExec cs.mem = none
    rw [Core.fetchExec, hfetch c, Option.bind_none]
  have hagree : code.Agree cs (vectors cs.mem) :=
    fun {c _ _} hs => (hpasses c).of_solo (hend c) (safe_of_end (hfetch c)) hs
  refine ⟨n, hn, fun ls cs' hr => ?_⟩
  have hreached := hagree.reached hr
  have hcopied : ∀ a ∈ wordsFrom 0 16, code.HasStored cs ls a →
      cs'.mem a = cs.mem (a + startBase) := by
    intro a ha hst
    have hstored := hreached.stored a hst
    rw [vectors, if_pos ha] at hstored
    exact (Option.some.inj hstored).symm
  refine ⟨fun c => ?_, fun a ha => ?_, fun a ha => ?_, fun hcount => ?_⟩
  · obtain ⟨hle, hgo, hthere⟩ := hreached.of_solo hagree (hpasses c).solo (hend c)
    exact ⟨hle, hgo, fun heq => hthere heq ▸ hreadyC c⟩
  · exact hreached.untouched (vectors_eq_none_iff.mpr ha)
  · by_cases hst : code.HasStored cs ls a
    · exact .inr (hcopied a ha hst)
    · exact .inl (hreached.kept a hst)
  · have hvectors : VectorsAt cs'.mem 0 := by
      refine himage.copied fun a ha => hcopied a ha ⟨0, ?_⟩
      rw [hcount]
      exact hstores 0 rfl a ha
    exact ⟨hvectors, fun k s hpc => hvectors.exec k hpc⟩

/-- The image and four cores in hypervisor mode. -/
def handedOver : Cores where
  thread c :=
    { r := fun _ => 0
      bankedSp := fun _ => 0
      bankedLr := fun _ => 0
      spsr := fun _ => 0
      cpsr := PSR_HYP ||| PSR_I ||| PSR_F
      elrHyp := 0
      mpidr := 0x80000F00 ||| .ofNat 32 c
      pc := if c = 0 then startBase else secondaryStartBase }
  mem a :=
    if a < startBase + 32 then ldrPcWord else handlers (.ofNat 8 ((a.toNat - 0x8020) / 4))

/-- From hypervisor mode every core gets to its entry. -/
theorem reset_every_interleaving_hyp : ∃ n : Fin NUM_CPU → ℕ, ∀ ls cs',
    Run (fun cs c cs' => code.step cs c = some cs') handedOver ls cs' →
    ∀ c, ls.count c = n c → ReadyForC c (handedOver.thread c) (cs'.thread c) := by
  have himage : VectorsAt handedOver.mem startBase := ⟨by decide, by decide⟩
  have henter : ∀ c, Entered c (handedOver.thread c) := by
    intro c
    fin_cases c
    · exact ⟨by decide, by decide, .inl rfl⟩
    all_goals exact ⟨by decide, by decide, .inr (.inr ⟨by decide, rfl⟩)⟩
  obtain ⟨n, -, hrun⟩ := reset_every_interleaving himage henter
  exact ⟨n, fun ls cs' hr c => ((hrun ls cs' hr).1 c).2.2⟩

end Reset

end Rpi2Baremetal
