import Rpi2Baremetal.Model.Abort
import Rpi2Baremetal.Properties.IrqTransparency

/-!
# Where an aborted access comes back

`_dabort` adds 4 to the link register, which already is 8 beyond the access, so that execution
goes on 12 bytes after the aborted instruction.  For `read32` that is the `bx lr` of `write32`.
For `write32` it is the `ldrex` of `_inc_cores`, with the address that has just faulted in `r0`:
the `ldrex` or the `strexeq` after it aborts again, or the loop `_try` never ends.
-/

namespace Rpi2Baremetal

open Framework

namespace Arm

/-! ## Passes -/

section Passes

variable {F : Faults} {vector : Machine → Machine} {s s' : ProbeCore}
  {i : ProbeInstr} {pc : Word}

lemma probePass_of_fetch (hpc : s.m.pc = pc) (hf : fetch pc = some i) (hi : i ≠ .bxLr) :
    probePass F vector s = .again (s.exec F vector i) := by
  rw [probePass, hpc, hf]
  cases i with
  | bxLr => exact absurd rfl hi
  | _ => rfl

lemma probePass_bxLr (hpc : s.m.pc = pc) (hf : fetch pc = some .bxLr) :
    probePass F vector s = .leave (some { s with m := { s.m with pc := s.m.lr } }) := by
  rw [probePass, hpc, hf]
  rfl

lemma aborts_read (s : ProbeCore) (F : Faults) (a : Word) {k : ProbeCore → ProbeCore}
    (hk : (k s).aborts = s.aborts) : s.aborts ≤ (s.read F a k).aborts := by
  rw [ProbeCore.read]
  split
  · exact Nat.le_succ s.aborts
  · exact hk.ge

lemma aborts_write (s : ProbeCore) (F : Faults) (a : Word) {k : ProbeCore → ProbeCore}
    (hk : ∀ s, (k s).aborts = s.aborts) : s.aborts ≤ (s.write F a k).aborts := by
  rw [ProbeCore.write]
  split
  · exact Nat.le_succ s.aborts
  · exact (hk s.logStore).ge

lemma aborts_strex (s : ProbeCore) (rd : Fin 13) (a v : Word) :
    (s.strex rd a v).aborts = s.aborts := by
  rw [ProbeCore.strex]
  split <;> rfl

/-- No instruction takes an abort back. -/
lemma aborts_exec (F : Faults) (vector : Machine → Machine) (s : ProbeCore) (i : ProbeInstr) :
    s.aborts ≤ (s.exec F vector i).aborts := by
  cases i with
  | instr i => cases i <;> exact le_rfl
  | ldr rt rn => exact aborts_read s F _ rfl
  | ldrex rt rn => exact aborts_read s F _ rfl
  | str rt rn => exact aborts_write s F _ fun _ => rfl
  | strexeq rd rt rn =>
      rw [ProbeCore.exec]
      split
      · exact aborts_write s F _ fun s => aborts_strex s rd _ _
      · exact le_rfl
  | cmpeq rn imm =>
      rw [ProbeCore.exec]
      split <;> exact le_rfl
  | bne target =>
      rw [ProbeCore.exec]
      split <;> exact le_rfl
  | _ => exact le_rfl

lemma probePass_cases (F : Faults) (vector : Machine → Machine) (s : ProbeCore) :
    probePass F vector s = .leave none ∨
      probePass F vector s = .leave (some (s.exec F vector .bxLr)) ∨
      ∃ i, probePass F vector s = .again (s.exec F vector i) := by
  rw [probePass]
  split
  · exact .inl rfl
  · exact .inr (.inl rfl)
  · exact .inr (.inr ⟨_, rfl⟩)

lemma aborts_again (h : probePass F vector s = .again s') : s.aborts ≤ s'.aborts := by
  rcases probePass_cases F vector s with hb | hb | ⟨i, hb⟩ <;> rw [hb] at h
  · cases h
  · cases h
  · obtain rfl := Pass.again.inj h
    exact aborts_exec F vector s i

lemma aborts_leave (h : probePass F vector s = .leave (some s')) : s'.aborts = s.aborts := by
  rcases probePass_cases F vector s with hb | hb | ⟨i, hb⟩ <;> rw [hb] at h
  · cases h
  · obtain rfl := Option.some.inj (Pass.leave.inj h)
    rfl
  · cases h

end Passes

/-! ## From the abort to the resumption -/

section Resumption

variable {F : Faults} {vector : Machine → Machine} {stack : Word → Prop} {s : ProbeCore}

/-- The words `_dabort` saves: the general registers and the address it returns to. -/
def abortFrame (s : Machine) : List Word := allRegs.map s.r ++ [s.pc + 12]

/-- The first two instructions of `_dabort`. -/
def abortPushed (s : ProbeCore) (F : Faults) (vector : Machine → Machine) (a : Word)
    (write : Bool) : ProbeCore :=
  ((s.abort F a write).exec F vector (.instr (.subLr (-4)))).exec F vector
    (.instr (.stmfd allRegs))

/-- The next three, up to the entry of `data_abort_vector`. -/
def passFault (t : ProbeCore) (F : Faults) (vector : Machine → Machine) : ProbeCore :=
  (t.exec F vector (.mrcDfar 0)).exec F vector (.mrcDfsr 1)

/-- What `data_abort_vector` finds, for the access of `s`. -/
structure AbortCall (s c : Machine) : Prop where
  mode : c.cpsr.mode = .abt
  lr : c.lr = 0x81AC
  spsr : c.spsr .abt = s.cpsr
  sp_abt : c.bankedSp .abt = s.bankedSp .abt - frameSize allRegs
  sp_other : ∀ b, b ≠ .abt → c.bankedSp b = s.bankedSp b
  lr_svc : c.bankedLr .svc = s.bankedLr .svc
  mem : c.mem = storeWords s.mem (s.bankedSp .abt - frameSize allRegs) (abortFrame s)

lemma abortCall_spec (s : ProbeCore) (F : Faults) (vector : Machine → Machine) (a : Word)
    (write : Bool) :
    AbortCall s.m ((passFault (abortPushed s F vector a write) F vector).m.exec .bl) := by
  let t := s.m.takeAbort.exec (.subLr (-4))
  have hmem : (abortPushed s F vector a write).m.mem = (t.exec (.stmfd allRegs)).mem := rfl
  have hsp : t.sp = s.m.bankedSp .abt := rfl
  have hlr : t.lr = s.m.pc + 12 := by
    have hsub : t.lr = s.m.pc + 8 - (-4) := rfl
    rw [hsub, BitVec.sub_eq_add_neg, BitVec.add_assoc]
    rfl
  constructor
  · rfl
  · rfl
  · rfl
  · rfl
  · intro b hb
    exact Function.update_of_ne hb _ _
  · rfl
  · refine hmem.trans ?_
    rw [exec_stmfd_mem, hsp, hlr, abortFrame]
    rfl

/-- `t` goes on after the aborted access of `s`, 12 bytes beyond it. -/
structure Resumed (stack : Word → Prop) (s t : ProbeCore) : Prop where
  pc : t.m.pc = s.m.pc + 12
  cpsr : t.m.cpsr = s.m.cpsr
  r : t.m.r = s.m.r
  sp : t.m.bankedSp = s.m.bankedSp
  lr_svc : t.m.bankedLr .svc = s.m.bankedLr .svc
  mem : ∀ b, ¬ stack b → t.m.mem b = s.m.mem b
  aborts : t.aborts = s.aborts + 1
  stores : t.stores = s.stores ++ [0x819C]

/-- The frame of `_dabort` changes nothing off the abort stack. -/
lemma AbortCall.mem_off {c : Machine} (hc : AbortCall s.m c) (hframe : FrameOn stack s.m)
    {b : Word} (hb : ¬ stack b) : c.mem b = s.m.mem b := by
  rw [hc.mem, storeWords_of_ne]
  intro k hk heq
  have hlen : (abortFrame s.m).length = 14 := by simp [abortFrame, allRegs]
  rw [hlen] at hk
  exact hb (heq ▸ hframe k hk)

/-- `cpsie i` and the exception return, after `data_abort_vector`. -/
lemma resumed_of_call (hobeys : VectorObeys stack vector) (hframe : FrameOn stack s.m)
    {t : ProbeCore} (hc : AbortCall s.m (t.m.exec .bl))
    (haborts : t.aborts = s.aborts + 1) (hstores : t.stores = s.stores ++ [0x819C]) :
    Resumed stack s (((t.exec F vector (.instr .bl)).exec F vector (.instr .cpsieI)).exec F vector
      (.instr (.ldmfdPc allRegs))) := by
  let c := t.m.exec .bl
  obtain ⟨hret, hkeep⟩ := hobeys c hc.mode
  let u := (vector c).exec .cpsieI
  obtain ⟨hmode, hspsr, hsame⟩ := hret.kept hc.mode rfl
  have humode : u.cpsr.mode = .abt := hmode
  have hsp : u.bankedSp = c.bankedSp := hret.sp
  have hload : loadWords u.mem (u.bankedSp .abt) (allRegs.length + 1)
      = allRegs.map s.m.r ++ [s.m.pc + 12] := by
    refine hsame.trans ?_
    rw [hc.mem, hc.sp_abt]
    exact loadWords_storeWords _ _ (abortFrame s.m) (by simp [abortFrame, allRegs])
  have hup : u.bankedSp .abt + frameSize allRegs = s.m.bankedSp .abt := by
    rw [hsp, hc.sp_abt, BitVec.sub_add_cancel]
  have hother : ∀ b, b ≠ .abt → u.bankedSp b = s.m.bankedSp b := by
    intro b hb
    rw [hsp, hc.sp_other b hb]
  have hend : ((t.exec F vector (.instr .bl)).exec F vector (.instr .cpsieI)).exec F vector
      (.instr (.ldmfdPc allRegs)) = { t with m := u.exec (.ldmfdPc allRegs) } := rfl
  rw [hend, exec_ldmfdPc humode rfl hload hup hother]
  constructor
  · rfl
  · exact hspsr.trans hc.spsr
  · funext k
    exact if_pos (List.mem_finRange k)
  · rfl
  · exact hret.lr_svc.trans hc.lr_svc
  · intro b hb
    exact (hkeep b hb).trans (hc.mem_off hframe hb)
  · exact haborts
  · exact hstores

/-- An abort in SVC mode comes back 12 bytes beyond the access that was aborted. -/
lemma returns_abort (hobeys : VectorObeys stack vector) (hframe : FrameOn stack s.m) (a : Word)
    (write : Bool) :
    ∃ t, Resumed stack s t ∧ ∀ res, Loop.Returns (probePass F vector) (s.abort F a write) res ↔
      Loop.Returns (probePass F vector) t res := by
  let t₀ := s.abort F a write
  let t₁ := t₀.exec F vector (.instr (.subLr (-4)))
  let t₂ := abortPushed s F vector a write
  let t₃ := t₂.exec F vector (.mrcDfar 0)
  let t₄ := passFault t₂ F vector
  let t₅ := t₄.exec F vector (.instr .bl)
  let t₆ := t₅.exec F vector (.instr .cpsieI)
  let t₇ := t₆.exec F vector (.instr (.ldmfdPc allRegs))
  have hc : AbortCall s.m (t₄.m.exec .bl) := abortCall_spec s F vector a write
  have hpc₀ : t₀.m.pc = 0x8198 := rfl
  have hpc₁ : t₁.m.pc = 0x819C := rfl
  have hpc₂ : t₂.m.pc = 0x81A0 := rfl
  have hpc₃ : t₃.m.pc = 0x81A4 := rfl
  have hpc₄ : t₄.m.pc = 0x81A8 := rfl
  have hpc₅ : t₅.m.pc = 0x81AC := (hobeys _ hc.mode).1.pc.trans hc.lr
  have hpc₆ : t₆.m.pc = 0x81B0 := congrArg (· + 4) hpc₅
  -- the seven instructions of `_dabort`
  have h₀ : probePass F vector t₀ = .again t₁ := probePass_of_fetch hpc₀ rfl ProbeInstr.noConfusion
  have h₁ : probePass F vector t₁ = .again t₂ := probePass_of_fetch hpc₁ rfl ProbeInstr.noConfusion
  have h₂ : probePass F vector t₂ = .again t₃ := probePass_of_fetch hpc₂ rfl ProbeInstr.noConfusion
  have h₃ : probePass F vector t₃ = .again t₄ := probePass_of_fetch hpc₃ rfl ProbeInstr.noConfusion
  have h₄ : probePass F vector t₄ = .again t₅ := probePass_of_fetch hpc₄ rfl ProbeInstr.noConfusion
  have h₅ : probePass F vector t₅ = .again t₆ := probePass_of_fetch hpc₅ rfl ProbeInstr.noConfusion
  have h₆ : probePass F vector t₆ = .again t₇ := probePass_of_fetch hpc₆ rfl ProbeInstr.noConfusion
  refine ⟨t₇, resumed_of_call hobeys hframe hc rfl rfl, fun res => ?_⟩
  rw [Loop.returns_again_iff h₀, Loop.returns_again_iff h₁, Loop.returns_again_iff h₂,
    Loop.returns_again_iff h₃, Loop.returns_again_iff h₄, Loop.returns_again_iff h₅,
    Loop.returns_again_iff h₆]

end Resumption

/-! ## `read32` -/

section Read32

variable {F : Faults} {vector : Machine → Machine} {stack : Word → Prop} {s : ProbeCore}
  {a : Word}

lemma exec_ldr (F : Faults) (vector : Machine → Machine) (s : ProbeCore) (rt rn : Fin 13) :
    s.exec F vector (.ldr rt rn)
      = s.read F (s.m.r rn) fun s => (s.setReg rt (s.m.mem (s.m.r rn))).next := rfl

/-- A `read32` that aborts comes back to the `bx lr` of `write32`. -/
lemma returns_read32_abort (hobeys : VectorObeys stack vector) (hframe : FrameOn stack s.m)
    (hpc : s.m.pc = Accessor.read32.entry) (hf : F.read (s.m.r 0) = true) :
    ∃ t, Resumed stack s t ∧
      Loop.Returns (probePass F vector) s (some { t with m := { t.m with pc := t.m.lr } }) := by
  obtain ⟨t, ht, hiff⟩ := returns_abort (F := F) hobeys hframe (s.m.r 0) false
  have hload : probePass F vector s = .again (s.abort F (s.m.r 0) false) := by
    rw [probePass_of_fetch hpc rfl ProbeInstr.noConfusion, exec_ldr, ProbeCore.read, if_pos hf]
  have hpc' : t.m.pc = 0x82C8 := by
    rw [ht.pc, hpc]
    rfl
  refine ⟨t, ht, ?_⟩
  rw [Loop.returns_again_iff hload, hiff]
  exact Loop.returns_of_leave (probePass_bxLr hpc' rfl)

lemma Resumed.keeps {t : ProbeCore} (h : Resumed stack s t) (pc : Word) :
    s.m.Keeps { t.m with pc := pc } where
  mode := congrArg Psr.mode h.cpsr
  sp := h.sp
  saved k _ _ := congrFun h.r k

lemma skipped_read32 (hobeys : VectorObeys stack vector) (hframe : FrameOn stack s.m)
    (hpc : s.m.pc = Accessor.read32.entry) (hmode : s.m.cpsr.mode = .svc)
    (haborts : s.aborts = 0) (hstores : s.stores = []) (hf : F.read (s.m.r 0) = true) :
    ∃ s', Loop.Returns (probePass F vector) s (some s') ∧ Skipped stack .read32 s s' := by
  obtain ⟨t, ht, hret⟩ := returns_read32_abort hobeys hframe hpc hf
  have hlr : t.m.lr = s.m.lr := by
    rw [Machine.lr, ht.cpsr, hmode, Machine.lr, hmode]
    exact ht.lr_svc
  refine ⟨_, hret, hlr, ?_, ht.keeps _, ht.mem, ?_⟩
  · exact ht.aborts.trans (by rw [haborts])
  · intro pc hmem
    have hlist : t.stores = [0x819C] := by
      rw [ht.stores, hstores]
      rfl
    obtain rfl := List.mem_singleton.mp (hlist ▸ hmem)
    exact .inr ⟨1, by decide, rfl⟩

/-- Whether it aborts or not, `read32` returns. -/
lemma returns_read32 (hobeys : VectorObeys stack vector) (hframe : FrameOn stack s.m)
    (hpc : s.m.pc = Accessor.read32.entry) :
    ∃ s', Loop.Returns (probePass F vector) s (some s') ∧ s.m.Keeps s'.m := by
  by_cases hf : F.read (s.m.r 0) = true
  · obtain ⟨t, ht, hret⟩ := returns_read32_abort (F := F) hobeys hframe hpc hf
    exact ⟨_, hret, ht.keeps _⟩
  · let t := (s.setReg 0 (s.m.mem (s.m.r 0))).next
    have hload : probePass F vector s = .again t := by
      rw [probePass_of_fetch hpc rfl ProbeInstr.noConfusion, exec_ldr, ProbeCore.read, if_neg hf]
    have hpc' : t.m.pc = 0x82C0 := congrArg (· + 4) hpc
    refine ⟨_, Loop.returns_of_again hload (Loop.returns_of_leave (probePass_bxLr hpc' rfl)),
      rfl, rfl, fun k hk _ => ?_⟩
    exact Function.update_of_ne (ne_zero_of_saved hk) _ _

end Read32

/-! ## `write32` -/

section Write32

variable {F : Faults} {vector : Machine → Machine} {stack : Word → Prop} {s s' : ProbeCore}
  {a : Word}

lemma exec_str (F : Faults) (vector : Machine → Machine) (s : ProbeCore) (rt rn : Fin 13) :
    s.exec F vector (.str rt rn)
      = s.write F (s.m.r rn) fun s => (s.store (s.m.r rn) (s.m.r rt)).next := rfl

/-- In the loop `_try` of `_inc_cores`, with the address that has aborted in `r0`. -/
structure Trying (a : Word) (s : ProbeCore) : Prop where
  aborts : s.aborts = 1
  r0 : s.m.r 0 = a
  place : s.m.pc = 0x82D0 ∨ s.m.pc = 0x82D4 ∨ s.m.pc = 0x82D8 ∨
    (s.m.pc = 0x82DC ∨ s.m.pc = 0x82E0) ∧ s.eq = false

/-- In that loop, or in a second abort or beyond. -/
def Astray (a : Word) (s : ProbeCore) : Prop := 2 ≤ s.aborts ∨ Trying a s

lemma astray_abort (s : ProbeCore) (hs : s.aborts = 1) (F : Faults) (b : Word) (write : Bool) :
    Astray a (s.abort F b write) := .inl (Nat.succ_le_succ hs.ge)

/-- The loop goes round, or aborts again: a store to `a` does. -/
lemma Trying.step (h : Trying a s) (vector : Machine → Machine) (hf : F.write a = true) :
    ∃ s', probePass F vector s = .again s' ∧ Astray a s' := by
  have hpc : ∀ {s' : ProbeCore} {pc : Word}, s'.m.pc = s.m.pc + 4 → s.m.pc = pc →
      s'.m.pc = pc + 4 := fun h h' => h.trans (congrArg (· + 4) h')
  rcases h.place with h₁ | h₂ | h₃ | ⟨h₄ | h₅, hne⟩
  · -- `ldrex r2, [r0]`
    refine ⟨_, probePass_of_fetch h₁ rfl ProbeInstr.noConfusion, ?_⟩
    rw [ProbeCore.exec, ProbeCore.read]
    split
    · exact astray_abort s h.aborts _ _ _
    · exact .inr ⟨h.aborts, h.r0, .inr (.inl (hpc rfl h₁))⟩
  · -- `cmp r2, #0`
    refine ⟨_, probePass_of_fetch h₂ rfl ProbeInstr.noConfusion, ?_⟩
    exact .inr ⟨h.aborts, h.r0, .inr (.inr (.inl (hpc rfl h₂)))⟩
  · -- `strexeq r2, r3, [r0]`
    refine ⟨_, probePass_of_fetch h₃ rfl ProbeInstr.noConfusion, ?_⟩
    rw [ProbeCore.exec]
    split
    · rw [ProbeCore.write, h.r0, if_pos hf]
      exact astray_abort s.logStore h.aborts _ _ _
    · next hne =>
      have hne' : s.eq = false := Bool.eq_false_iff.mpr hne
      exact .inr ⟨h.aborts, h.r0, .inr (.inr (.inr ⟨.inl (hpc rfl h₃), hne'⟩))⟩
  · -- `cmpeq r2, #0`
    refine ⟨_, probePass_of_fetch h₄ rfl ProbeInstr.noConfusion, ?_⟩
    rw [ProbeCore.exec, hne]
    exact .inr ⟨h.aborts, h.r0, .inr (.inr (.inr ⟨.inr (hpc rfl h₄), hne⟩))⟩
  · -- `bne _try`
    refine ⟨_, probePass_of_fetch h₅ rfl ProbeInstr.noConfusion, ?_⟩
    rw [ProbeCore.exec, hne]
    exact .inr ⟨h.aborts, h.r0, .inl rfl⟩

/-- Whatever returns from there has aborted at least twice. -/
lemma astray_returns (hf : F.write a = true) (hs : Astray a s)
    (h : Loop.Returns (probePass F vector) s (some s')) : 2 ≤ s'.aborts := by
  have hagain : ∀ s s', Astray a s → probePass F vector s = .again s' → Astray a s' := by
    rintro s s' (h2 | htry) hb
    · exact .inl (h2.trans (aborts_again hb))
    · obtain ⟨s'', hb', hs''⟩ := htry.step vector hf
      obtain rfl := Pass.again.inj (hb'.symm.trans hb)
      exact hs''
  have hleave : ∀ s r, Astray a s → probePass F vector s = .leave r →
      ∀ s', r = some s' → 2 ≤ s'.aborts := by
    rintro s r (h2 | htry) hb s' rfl
    · rwa [aborts_leave hb]
    · obtain ⟨s'', hb', -⟩ := htry.step vector hf
      cases hb'.symm.trans hb
  exact Loop.Returns.of_invariant hagain hleave hs h s' rfl

/-- No `write32` that aborts comes back after this one abort. -/
lemma not_skipped_write32 (hobeys : VectorObeys stack vector) (hframe : FrameOn stack s.m)
    (hpc : s.m.pc = Accessor.write32.entry) (haborts : s.aborts = 0)
    (hf : F.write (s.m.r 0) = true) (hret : Loop.Returns (probePass F vector) s (some s')) :
    s'.aborts ≠ 1 := by
  obtain ⟨t, ht, hiff⟩ := @returns_abort F vector stack s.logStore hobeys hframe (s.m.r 0) true
  have hstore : probePass F vector s = .again (s.logStore.abort F (s.m.r 0) true) := by
    rw [probePass_of_fetch hpc rfl ProbeInstr.noConfusion, exec_str, ProbeCore.write, if_pos hf]
  have hpc' : t.m.pc = 0x82D0 := by
    have hlog : s.logStore.m.pc = Accessor.write32.entry := hpc
    rw [ht.pc, hlog]
    rfl
  have ht1 : t.aborts = 1 := ht.aborts.trans (congrArg (· + 1) haborts)
  have htry : Trying (s.m.r 0) t := ⟨ht1, congrFun ht.r 0, .inl hpc'⟩
  rw [Loop.returns_again_iff hstore, hiff] at hret
  have h2 := astray_returns hf (.inr htry) hret
  omega

end Write32

/-! ## The probes -/

section Probes

variable {F : Faults} {vector : Machine → Machine} {stack : Word → Prop} {P : Prints}
  {s : ProbeCore}

lemma Machine.Keeps.trans {s t u : Machine} (h : s.Keeps t) (h' : t.Keeps u) : s.Keeps u where
  mode := h'.mode.trans h.mode
  sp := h'.sp.trans h.sp
  saved k h4 h11 := (h'.saved k h4 h11).trans (h.saved k h4 h11)

lemma FrameOn.of_keeps {s t : Machine} (h : FrameOn stack s) (hk : s.Keeps t) :
    FrameOn stack t := by
  intro k hlt
  rw [hk.sp]
  exact h k hlt

lemma keeps_callRead32 (a : Word) (s : Machine) : s.Keeps (callRead32 a s) where
  mode := rfl
  sp := rfl
  saved _ hk _ := Function.update_of_ne (ne_zero_of_saved hk) _ _

/-- `check_address` returns. -/
lemma checkAddress_returns (F : Faults) (hobeys : VectorObeys stack vector) (hP : PrintsObey P)
    (hmode : s.m.cpsr.mode = .svc) (hframe : FrameOn stack s.m) (a : Word) :
    ∃ s', CheckAddress F vector P a s s' ∧ s.m.Keeps s'.m := by
  have hhex := hP.hexstring a s.m hmode
  have hcolon := hhex.trans (hP.uartPuts ": " _ (hhex.mode.trans hmode))
  have hcall := hcolon.trans (keeps_callRead32 a _)
  obtain ⟨r, hret, hread⟩ := returns_read32 (F := F)
    (s := ((s.call (P.hexstring a)).call (P.uartPuts ": ")).call (callRead32 a))
    hobeys (hframe.of_keeps hcall) rfl
  have hr := hcall.trans hread
  have hvalue := hr.trans (hP.hexstring (r.m.r 0) r.m (hr.mode.trans hmode))
  refine ⟨_, ⟨r, hret, rfl⟩, ?_⟩
  exact hvalue.trans (hP.uartPuts "\n" _ (hvalue.mode.trans hmode))

/-- The start of section `k`. -/
def probed (k : ℕ) : Word := .ofNat 32 (k * 0x00100000)

lemma probed_lt {k : ℕ} (hk : k ≤ 0x430) : probed k < 0x43000000 ↔ k < 0x430 := by
  have hbound : (0x43000000 : Word).toNat = 0x43000000 := rfl
  rw [BitVec.lt_def, probed, BitVec.toNat_ofNat, hbound]
  omega

/-- The loop of `output_access_policy` from section `k` on. -/
lemma policy_returns (F : Faults) (hobeys : VectorObeys stack vector) (hP : PrintsObey P) {n k : ℕ}
    (hn : k + n = 0x430) (hmode : s.m.cpsr.mode = .svc) (hframe : FrameOn stack s.m) :
    ∃ t, OutputAccessPolicy F vector P (probed k) s ((List.range' k n).map probed) t ∧
      s.m.Keeps t.m := by
  induction n generalizing k s with
  | zero =>
      have hend : ¬ probed k < 0x43000000 := by
        rw [probed_lt (by omega)]
        omega
      exact ⟨s, .done hend, rfl, rfl, fun _ _ _ => rfl⟩
  | succ n ih =>
      have hlt : probed k < 0x43000000 := (probed_lt (by omega)).mpr (by omega)
      have hnext : probed k + 0x00100000 = probed (k + 1) := by
        rw [probed, probed, Nat.succ_mul, BitVec.ofNat_add]
        rfl
      obtain ⟨s', hcheck, hkeep⟩ := checkAddress_returns F hobeys hP hmode hframe (probed k)
      obtain ⟨t, hloop, hkeep'⟩ :=
        ih (k := k + 1) (by omega) (hkeep.mode.trans hmode) (hframe.of_keeps hkeep)
      rw [← hnext] at hloop
      refine ⟨t, ?_, hkeep.trans hkeep'⟩
      rw [List.range'_succ, List.map_cons]
      exact .check hlt hcheck hloop

end Probes

/-- **Skipping a faulting probe.**  Called in SVC mode at an address whose access faults, an
accessor returns to its caller after this one abort, with nothing changed but the abort stack and
without a foreign store, if and only if it is `read32`.  The probes use `read32` alone, and
`output_access_policy` gets through all its sections whatever faults. -/
theorem probe_skipped_iff {F : Faults} {vector : Machine → Machine} {stack : Word → Prop}
    {P : Prints} (hobeys : VectorObeys stack vector) (hP : PrintsObey P) :
    (∀ acc a v s, Called acc a v s → acc.faults F a = true → FrameOn stack s.m →
      ((∃ s', Loop.Returns (probePass F vector) s (some s') ∧ Skipped stack acc s s') ↔
        acc = .read32)) ∧
    ∀ s : ProbeCore, s.m.cpsr.mode = .svc → FrameOn stack s.m →
      ∃ t, OutputAccessPolicy F vector P 0 s ((List.range 0x430).map probed) t ∧
        s.m.Keeps t.m := by
  refine ⟨fun acc a v s hcall hf hframe => ⟨?_, ?_⟩, fun s hmode hframe => ?_⟩
  · rintro ⟨s', hret, hskip⟩
    cases acc with
    | read32 => rfl
    | write32 =>
        have hf' : F.write (s.m.r 0) = true := by
          rw [hcall.r0]
          exact hf
        exact absurd hskip.aborts
          (not_skipped_write32 hobeys hframe hcall.pc hcall.aborts hf' hret)
  · rintro rfl
    have hf' : F.read (s.m.r 0) = true := by
      rw [hcall.r0]
      exact hf
    exact skipped_read32 hobeys hframe hcall.pc hcall.mode hcall.aborts hcall.stores hf'
  · have hloop := policy_returns F hobeys hP (n := 0x430) (k := 0) rfl hmode hframe
    rwa [← List.range_eq_range'] at hloop

/-- The stack of ABT mode of the first core. -/
def abortStack (b : Word) : Prop := 0x180000 ≤ b ∧ b < 0x1C0000

/-- Kernel code has called an accessor for an address beyond the peripherals. -/
def probeCall (acc : Accessor) : ProbeCore where
  m := { kernelCode with
    r := Function.update kernelCode.r 0 0x50000000
    pc := acc.entry }
  dfar := 0
  dfsr := 0
  exclusive := false
  aborts := 0
  stores := []

/-- No access beyond the peripherals is mapped. -/
def beyondFaults : Faults where
  read a := 0x43000000 ≤ a
  write a := 0x43000000 ≤ a
  status _ write := if write then 0x805 else 0x5

lemma returnVector_obeys : VectorObeys abortStack fun s => { s with pc := s.lr } :=
  fun _ _ => ⟨⟨rfl, rfl, fun _ _ _ => rfl, rfl, rfl, rfl, rfl, rfl⟩, fun _ _ => rfl⟩

lemma called_probeCall (acc : Accessor) : Called acc 0x50000000 1 (probeCall acc) :=
  ⟨rfl, rfl, fun _ => rfl, rfl, rfl, rfl⟩

lemma frameOn_probeCall (acc : Accessor) : FrameOn abortStack (probeCall acc).m := by
  have hall : ∀ k < 14, 0x180000 ≤ (0x1C0000 : Word) - 56 + .ofNat 32 (4 * k) ∧
      (0x1C0000 : Word) - 56 + .ofNat 32 (4 * k) < 0x1C0000 := by decide
  exact hall

/-- Printing that has no effect on the registers. -/
def silent : Prints := ⟨fun _ s => s, fun _ s => s⟩

lemma silent_obeys : PrintsObey silent :=
  ⟨fun _ _ _ => ⟨rfl, rfl, fun _ _ _ => rfl⟩, fun _ _ _ => ⟨rfl, rfl, fun _ _ _ => rfl⟩⟩

/-- Beyond the peripherals `read32` is skipped and `write32` is not. -/
theorem probe_skipped_beyond :
    (∃ s', Loop.Returns (probePass beyondFaults fun s => { s with pc := s.lr })
        (probeCall .read32) (some s') ∧ Skipped abortStack .read32 (probeCall .read32) s') ∧
      ¬ ∃ s', Loop.Returns (probePass beyondFaults fun s => { s with pc := s.lr })
        (probeCall .write32) (some s') ∧ Skipped abortStack .write32 (probeCall .write32) s' := by
  obtain ⟨hskip, -⟩ :=
    probe_skipped_iff (F := beyondFaults) returnVector_obeys silent_obeys
  refine ⟨?_, fun h => ?_⟩
  · exact (hskip .read32 _ _ _ (called_probeCall _) (by decide) (frameOn_probeCall _)).mpr rfl
  · have hread := (hskip .write32 _ _ _ (called_probeCall _) (by decide) (frameOn_probeCall _)).mp h
    exact absurd hread (by decide)

/-- The `write32` of that probe is not skipped. -/
theorem write32_not_skipped :
    ¬ ∀ (F : Faults) (vector : Machine → Machine) (stack : Word → Prop) (acc : Accessor)
      (a v : Word) (s : ProbeCore), VectorObeys stack vector → Called acc a v s →
      acc.faults F a = true → FrameOn stack s.m →
      ∃ s', Loop.Returns (probePass F vector) s (some s') ∧ Skipped stack acc s s' := by
  intro hall
  obtain ⟨s', hret, hskip⟩ := hall beyondFaults _ abortStack .write32 _ _ _ returnVector_obeys
    (called_probeCall .write32) (by decide) (frameOn_probeCall _)
  exact not_skipped_write32 returnVector_obeys (frameOn_probeCall _) rfl rfl (by decide) hret
    hskip.aborts

end Arm

end Rpi2Baremetal
