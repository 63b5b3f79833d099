import Rpi2Baremetal.Model.Svc
import Rpi2Baremetal.Properties.ExceptionFrames

/-!
# Where a supervisor call comes back

`_svc_handler` saves `r1` to `r12` and the return address, and everything else that belongs to a
caller in USR or SYS mode is banked.  The link register of a caller in SVC mode is the one the
exception overwrites, and then the call of `software_interrupt_handler` once more; nothing saves
it, so that `get_prid` does not find back to a caller in SVC mode.
-/

namespace Rpi2Baremetal

namespace Arm

open Framework

/-! ## Up to the call of the handler -/

/-- The words `_svc_handler` saves: `r1` to `r12` and the return address. -/
def svcFrame (s : Machine) : List Word := svcRegs.map s.r ++ [s.pc + 4]

/-- The number of the call in `r0`, and `bl software_interrupt_handler`. -/
def passNumber (t : Machine) : Machine :=
  ((t.execSvc id .ldrR0Lr).execSvc id (.bicR0 0xFF000000)).exec .bl

/-- The entry of `software_interrupt_handler`. -/
def svcCall (entry : Word) (s : Machine) : Machine :=
  passNumber ((s.takeSvc entry).exec (.stmfd svcRegs))

variable {entry : Word} {s : Machine} {result : Word → Word} {handler : Machine → Machine}

lemma svc_eq (entry : Word) (handler : Machine → Machine) (s : Machine) :
    s.svc entry handler = (handler (svcCall entry s)).exec (.ldmfdPc svcRegs) := rfl

/-- The word of an `svc` with the number `imm`. -/
def svcWord (imm : BitVec 24) : Word := 0xEF000000 ||| imm.setWidth 32

/-- The handler gets the number in the instruction, unless the frame lies over it. -/
lemma svcNumber_svcWord {imm : BitVec 24} (hpc : s.mem s.pc = svcWord imm)
    (hframe : ∀ k < 13, s.bankedSp .svc - frameSize svcRegs + .ofNat 32 (4 * k) ≠ s.pc) :
    s.svcNumber = imm.setWidth 32 := by
  have hmask : ∀ i : Fin 32, ((~~~ 0xFF000000 : Word)).getLsbD i = decide (i.val < 24) := by
    decide
  have hhigh : ∀ i : Fin 32, i.val < 24 → (0xEF000000 : Word).getLsbD i = false := by decide
  have hlen : (svcRegs.map s.r ++ [s.pc + 4]).length = 13 := rfl
  rw [Machine.svcNumber, storeWords_of_ne _ _ _ _ (by rwa [hlen]), hpc, svcWord]
  refine BitVec.eq_of_getLsbD_eq fun i hi => ?_
  rw [BitVec.getLsbD_and, BitVec.getLsbD_or, hmask ⟨i, hi⟩]
  by_cases h24 : i < 24
  · rw [hhigh ⟨i, hi⟩ h24]
    simp [h24]
  · simp [h24, BitVec.getLsbD_of_ge imm i (by omega)]

/-- What the handler finds, for the `svc` of `s`. -/
structure SvcCall (s t : Machine) : Prop where
  mode : t.cpsr.mode = .svc
  spsr : t.spsr .svc = s.cpsr
  r0 : t.r 0 = s.svcNumber
  sp_svc : t.bankedSp .svc = s.bankedSp .svc - frameSize svcRegs
  sp_other : ∀ b, b ≠ .svc → t.bankedSp b = s.bankedSp b
  lr_usr : t.bankedLr .usr = s.bankedLr .usr
  frame : loadWords t.mem (t.bankedSp .svc) 13 = svcFrame s

lemma passNumber_r0 (t : Machine) :
    (passNumber t).r 0 = t.mem (t.lr - 4) &&& ~~~ 0xFF000000 := rfl

lemma passNumber_mem (t : Machine) : (passNumber t).mem = t.mem := rfl

lemma passNumber_lr {t : Machine} {b : Mode} (hb : b ≠ t.cpsr.mode.bank) :
    (passNumber t).bankedLr b = t.bankedLr b := Function.update_of_ne hb _ _

lemma svcCall_spec (entry : Word) (s : Machine) : SvcCall s (svcCall entry s) := by
  let t := s.takeSvc entry
  have hlr : t.lr = s.pc + 4 := rfl
  have hsp : t.sp = s.bankedSp .svc := rfl
  have hmem : (svcCall entry s).mem
      = storeWords s.mem (s.bankedSp .svc - frameSize svcRegs) (svcFrame s) := by
    rw [svcCall, passNumber_mem, exec_stmfd_mem, hlr, hsp, svcFrame]
    rfl
  have hsp' : (svcCall entry s).bankedSp .svc = s.bankedSp .svc - frameSize svcRegs := rfl
  constructor
  · rfl
  · rfl
  · have hpushed : (t.exec (.stmfd svcRegs)).lr = s.pc + 4 := rfl
    have hnumber : (svcCall entry s).r 0 = (svcCall entry s).mem s.pc &&& ~~~ 0xFF000000 := by
      rw [svcCall, passNumber_r0, hpushed, BitVec.add_sub_cancel, passNumber_mem]
    rw [hnumber, hmem, Machine.svcNumber, svcFrame]
  · exact hsp'
  · intro b hb
    exact Function.update_of_ne hb _ _
  · exact passNumber_lr Mode.noConfusion
  · rw [hsp', hmem]
    exact loadWords_storeWords _ _ (svcFrame s) (by simp [svcFrame, svcRegs])

/-! ## After the handler -/

lemma Machine.ReturnsSvc.kept {n : ℕ} {t : Machine} (h : s.ReturnsSvc n t)
    (hmode : s.cpsr.mode = .svc) :
    t.cpsr.mode = .svc ∧ t.spsr .svc = s.spsr .svc ∧
      loadWords t.mem (t.bankedSp .svc) n = loadWords s.mem (s.bankedSp .svc) n := by
  have hret : s.Returns n _ := h
  exact hret.kept hmode rfl

/-- Everything but the link register of SVC mode comes back. -/
structure SvcReturn (result : Word → Word) (s t : Machine) : Prop where
  pc : t.pc = s.pc + 4
  cpsr : t.cpsr = s.cpsr
  r0 : t.r 0 = result s.svcNumber
  r : ∀ k, k ≠ 0 → t.r k = s.r k
  sp : t.bankedSp = s.bankedSp
  lr_usr : t.bankedLr .usr = s.bankedLr .usr

lemma svc_return (hobeys : SvcHandlerObeys result handler) (entry : Word) (s : Machine) :
    SvcReturn result s (s.svc entry handler) := by
  have hcall := svcCall_spec entry s
  obtain ⟨hret, hresult⟩ := hobeys (svcCall entry s) hcall.mode
  let t := handler (svcCall entry s)
  obtain ⟨hmode, hspsr, hsame⟩ := hret.kept hcall.mode
  have hsp : t.bankedSp = (svcCall entry s).bankedSp := hret.sp
  have hload : loadWords t.mem (t.bankedSp .svc) (svcRegs.length + 1) = svcFrame s :=
    hsame.trans hcall.frame
  have hup : t.bankedSp .svc + frameSize svcRegs = s.bankedSp .svc := by
    rw [hsp, hcall.sp_svc, BitVec.sub_add_cancel]
  have hother : ∀ b, b ≠ .svc → t.bankedSp b = s.bankedSp b := by
    intro b hb
    rw [hsp, hcall.sp_other b hb]
  have hregs : ∀ k : Fin 13, k ≠ 0 → k ∈ svcRegs := by decide
  rw [svc_eq, exec_ldmfdPc hmode rfl hload hup hother]
  constructor
  · rfl
  · exact hspsr.trans hcall.spsr
  · exact hresult.trans (congrArg result hcall.r0)
  · intro k hk
    exact if_pos (hregs k hk)
  · rfl
  · exact hret.lr_usr.trans hcall.lr_usr

lemma SvcReturn.sp_eq {t : Machine} (h : SvcReturn result s t) : t.sp = s.sp := by
  rw [Machine.sp, h.cpsr, h.sp]
  rfl

/-- Outside SVC mode the link register of the caller is banked. -/
lemma SvcReturn.lr_eq {t : Machine} (h : SvcReturn result s t)
    (hm : s.cpsr.mode = .usr ∨ s.cpsr.mode = .sys) : t.lr = s.lr := by
  have hbank : s.cpsr.mode.bank = .usr := by
    rcases hm with hm | hm <;> rw [hm] <;> rfl
  rw [Machine.lr, h.cpsr, hbank, h.lr_usr, Machine.lr, hbank]

lemma roundTrip_of_banked (hobeys : SvcHandlerObeys result handler) (entry : Word)
    (hm : s.cpsr.mode = .usr ∨ s.cpsr.mode = .sys) :
    RoundTrip s (s.svc entry handler) (result s.svcNumber) := by
  have hret := svc_return hobeys entry s
  exact ⟨hret.pc, hret.cpsr, hret.r0, hret.r, hret.sp_eq, hret.lr_eq hm⟩

lemma pridReturned_of_banked {mpidr : Word}
    (hobeys : SvcHandlerObeys (softwareInterruptHandler mpidr) handler) (entry : Word)
    (hm : s.cpsr.mode = .usr ∨ s.cpsr.mode = .sys) :
    PridReturned mpidr s (s.getPrid entry handler) := by
  have hret := svc_return hobeys entry s
  have hr : ∀ k, k ≠ 0 → (s.getPrid entry handler).r k = (s.svc entry handler).r k :=
    fun k hk => Function.update_of_ne hk _ _
  have hr0 : (s.getPrid entry handler).r 0 = (s.svc entry handler).r 0 &&& 3 := rfl
  constructor
  · exact hret.lr_eq hm
  · exact hret.cpsr
  · rw [hr0, hret.r0, softwareInterruptHandler, asmGetPrid, BitVec.and_assoc, BitVec.and_self]
  · intro k hk
    rw [hr k hk, hret.r k hk]
  · exact hret.sp_eq

/-! ## A caller in SVC mode -/

/-- A handler that returns at once with `v` in its link register. -/
def leaveLr (result : Word → Word) (v : Word) (s : Machine) : Machine :=
  { s with
    r := Function.update s.r 0 (result (s.r 0))
    bankedLr := Function.update s.bankedLr .svc v
    pc := s.lr }

lemma leaveLr_obeys (result : Word → Word) (v : Word) :
    SvcHandlerObeys result (leaveLr result v) := by
  intro s hm
  refine ⟨⟨rfl, rfl, fun k hk _ => ?_, rfl, rfl, rfl, rfl, rfl⟩, rfl⟩
  exact Function.update_of_ne (ne_zero_of_saved hk) _ _

lemma svc_leaveLr_lr (hm : s.cpsr.mode = .svc) (result : Word → Word) (v entry : Word) :
    (s.svc entry (leaveLr result v)).lr = v := by
  have hret := svc_return (leaveLr_obeys result v) entry s
  rw [Machine.lr, hret.cpsr, hm]
  rfl

/-- The exception overwrites the link register of SVC mode, so that nothing after it depends on
its value. -/
lemma svc_setLr (hm : s.cpsr.mode = .svc) (v entry : Word) (handler : Machine → Machine) :
    (s.setLr v).svc entry handler = s.svc entry handler := by
  have htake : (s.setLr v).takeSvc entry = s.takeSvc entry := by
    simp only [Machine.takeSvc, Machine.setLr, hm, Mode.bank, Function.update_idem]
  rw [Machine.svc, htake, Machine.svc]

/-- **Round trip of a supervisor call.**  A caller in USR, SYS or SVC mode goes on after its
`svc` as if that had set `r0` alone, whatever a handler does that obeys the procedure-call
standard, if and only if it is not in SVC mode; and the same holds of the return of `get_prid` to
its caller.  In SVC mode no handler could put the link register back: what follows does not
depend on it. -/
theorem svc_round_trip_iff (entry : Word) (s : Machine)
    (hm : s.cpsr.mode = .usr ∨ s.cpsr.mode = .sys ∨ s.cpsr.mode = .svc) :
    ((∀ result handler, SvcHandlerObeys result handler →
        RoundTrip s (s.svc entry handler) (result s.svcNumber)) ↔ s.cpsr.mode ≠ .svc) ∧
    ((∀ mpidr handler, SvcHandlerObeys (softwareInterruptHandler mpidr) handler →
        PridReturned mpidr s (s.getPrid entry handler)) ↔ s.cpsr.mode ≠ .svc) ∧
    (s.cpsr.mode = .svc → ∀ handler v,
      (s.setLr v).svc entry handler = s.svc entry handler) := by
  have hbanked : s.cpsr.mode ≠ .svc → s.cpsr.mode = .usr ∨ s.cpsr.mode = .sys := by
    intro hsvc
    rcases hm with hm | hm | hm
    · exact .inl hm
    · exact .inr hm
    · exact absurd hm hsvc
  have hne : s.lr + 1 ≠ s.lr := by
    intro heq
    have h0 := (BitVec.add_right_inj s.lr).mp (heq.trans (BitVec.add_zero s.lr).symm)
    exact absurd h0 (by decide)
  refine ⟨⟨fun htrip hsvc => ?_, fun hsvc result handler hobeys => ?_⟩,
    ⟨fun hprid hsvc => ?_, fun hsvc mpidr handler hobeys => ?_⟩, fun hsvc handler v => ?_⟩
  · have hlr := (htrip id _ (leaveLr_obeys id (s.lr + 1))).lr
    rw [svc_leaveLr_lr hsvc] at hlr
    exact hne hlr
  · exact roundTrip_of_banked hobeys entry (hbanked hsvc)
  · have hpc := (hprid 0 _ (leaveLr_obeys (softwareInterruptHandler 0) (s.lr + 1))).pc
    exact hne ((svc_leaveLr_lr hsvc _ _ entry).symm.trans hpc)
  · exact pridReturned_of_banked hobeys entry (hbanked hsvc)
  · exact svc_setLr hsvc v entry handler

/-- A user program before its `svc #10`, with the kernel's stacks set up. -/
def userCall : Machine where
  r k := .ofNat 32 k
  bankedSp := fun
    | .svc => 0x1FFFFC
    | _ => 0x1C0000
  bankedLr _ := 0x8A58
  spsr _ := ⟨.usr, false, 0⟩
  cpsr := ⟨.usr, false, 0x60000000⟩
  pc := 0x840C
  mem a := if a = 0x840C then svcWord 10 else 0

/-- For a user program both come back. -/
theorem svc_round_trip_user :
    RoundTrip userCall (userCall.svc 0x81B4 (leaveLr id 0x81C4)) userCall.svcNumber ∧
      PridReturned 0x80000F02 userCall
        (userCall.getPrid 0x81B4 (leaveLr (softwareInterruptHandler 0x80000F02) 0x81C4)) := by
  obtain ⟨htrip, hprid, -⟩ := svc_round_trip_iff 0x81B4 userCall (.inl rfl)
  have husr : userCall.cpsr.mode ≠ .svc := Mode.noConfusion
  exact ⟨htrip.mpr husr _ _ (leaveLr_obeys _ _), hprid.mpr husr _ _ (leaveLr_obeys _ _)⟩

/-- The same code in SVC mode.  The handler leaves the return address of `_svc_handler`'s `bl`
in the link register, and `get_prid` goes there. -/
theorem get_prid_lost_in_svc :
    ¬ ∀ (entry : Word) (s : Machine),
      s.cpsr.mode = .usr ∨ s.cpsr.mode = .sys ∨ s.cpsr.mode = .svc →
      (∀ result handler, SvcHandlerObeys result handler →
        RoundTrip s (s.svc entry handler) (result s.svcNumber)) ∧
      ∀ mpidr handler, SvcHandlerObeys (softwareInterruptHandler mpidr) handler →
        PridReturned mpidr s (s.getPrid entry handler) := by
  intro hall
  let s : Machine := { userCall with cpsr := ⟨.svc, false, 0x60000000⟩ }
  obtain ⟨-, hprid⟩ := hall 0x81B4 s (.inr (.inr rfl))
  have hsvc : s.cpsr.mode = .svc := rfl
  have hpc := (hprid 0x80000F02 _ (leaveLr_obeys _ 0x81C4)).pc
  have hlost : (0x81C4 : Word) = 0x8A58 :=
    (svc_leaveLr_lr hsvc (softwareInterruptHandler 0x80000F02) _ 0x81B4).symm.trans hpc
  exact absurd hlost (by decide)

end Arm

end Rpi2Baremetal
