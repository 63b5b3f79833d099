import Rpi2Baremetal.Framework.Transition
import Rpi2Baremetal.Properties.KernelOps
import Rpi2Baremetal.Properties.Modes

/-!
# The processing mode in force

`set_pm` and `set_prev_pm` check their argument, `change_pm` does not.  The modes in
`SysCommonInfo` stay valid as long as `change_pm` is called with valid ones.
-/

namespace Rpi2Baremetal

namespace Kernel

open Framework

/-- The calls that write a mode. -/
inductive ModeCall where
  | changePm (pm : Word)
  | setPm (pm : Word)
  | setPrevPm (pm : Word)

@[simp] def ModeCall.run : ModeCall → KernelM Word
  | .changePm pm => Kernel.changePm pm
  | .setPm pm => Kernel.setPm pm
  | .setPrevPm pm => Kernel.setPrevPm pm

@[simp] def ModeCall.pm : ModeCall → Word
  | .changePm pm => pm
  | .setPm pm => pm
  | .setPrevPm pm => pm

def ModeStep (k : Kernel) (call : ModeCall) (k' : Kernel) : Prop := ∃ r, call.run k = .ok r k'

structure ModeInitial (k : Kernel) : Prop where
  pm : k.common.pm = ALL_SMP_MODE
  prevPm : k.common.prevPm = ALL_SMP_MODE
  unlocked : k.held .sysCommonLock = false

/-- Both modes are valid, so every core has an entry under the mode in force. -/
structure ModesValid (k : Kernel) : Prop where
  pm : isValidPm k.common.pm = true
  prevPm : isValidPm k.common.prevPm = true
  lookup : ∀ cpuid < 4, (getSysStructInfo cpuid k.common.pm).isSome

/-- A call returns; the modes are valid afterwards; it reports failure and leaves
`SysCommonInfo` alone if its argument is invalid; and a `change_pm` that succeeds records the
mode before it. -/
def CallMeets (k : Kernel) (call : ModeCall) : Prop :=
  ∃ r k', call.run k = .ok r k' ∧ ModesValid k' ∧
    (isValidPm call.pm = false → r = -1 ∧ k'.common = k.common) ∧
    ∀ pm, call = .changePm pm → r = 1 →
      k'.common.pm = pm ∧ k'.common.prevPm = k.common.pm

/-- The modes are valid before the first call of a sequence, and every call does what it should
in the state it is made in. -/
def RunMeets (k : Kernel) (calls : List ModeCall) : Prop :=
  ModesValid k ∧ ∀ before call after, calls = before ++ call :: after →
    ∀ k', Run ModeStep k before k' → CallMeets k' call

/-! ## One call -/

section Step

variable {k k' : Kernel} {pm : Word}

lemma setPm_invalid (h : isValidPm pm = false) (k : Kernel) : setPm pm k = .ok (-1) k := by
  simp [setPm, h, pure, EStateM.pure]

lemma setPm_valid (h : isValidPm pm = true) (hfree : k.held .sysCommonLock = false) :
    setPm pm k = .ok pm { k with common := { k.common with pm := pm } } := by
  simp [setPm, h, spinReq, spinRel, modifyCommon, bind, EStateM.bind, pure, EStateM.pure, hfree,
    update_held hfree]

lemma setPrevPm_invalid (h : isValidPm pm = false) (k : Kernel) :
    setPrevPm pm k = .ok (-1) k := by
  simp [setPrevPm, h, pure, EStateM.pure]

lemma setPrevPm_valid (h : isValidPm pm = true) (hfree : k.held .sysCommonLock = false) :
    setPrevPm pm k = .ok pm { k with common := { k.common with prevPm := pm } } := by
  simp [setPrevPm, h, spinReq, spinRel, modifyCommon, bind, EStateM.bind, pure, EStateM.pure,
    hfree, update_held hfree]

/-- The modes a call leaves; a call of `set_pm` or `set_prev_pm` with an invalid one leaves
everything. -/
lemma ModeCall.run_ok (hfree : k.held .sysCommonLock = false) (call : ModeCall) :
    ∃ r k', call.run k = .ok r k' ∧ k'.held = k.held ∧
      match call with
      | .changePm pm => r = 1 ∧ k'.common.pm = pm ∧ k'.common.prevPm = k.common.pm
      | .setPm pm => if isValidPm pm then
          k'.common.pm = pm ∧ k'.common.prevPm = k.common.prevPm else r = -1 ∧ k' = k
      | .setPrevPm pm => if isValidPm pm then
          k'.common.pm = k.common.pm ∧ k'.common.prevPm = pm else r = -1 ∧ k' = k := by
  cases call with
  | changePm pm => exact ⟨_, _, changePm_free pm hfree, rfl, rfl, rfl, rfl⟩
  | setPm pm =>
      cases h : isValidPm pm with
      | false => exact ⟨_, _, setPm_invalid h k, rfl, by simp [h]⟩
      | true => exact ⟨_, _, setPm_valid h hfree, rfl, by simp [h]⟩
  | setPrevPm pm =>
      cases h : isValidPm pm with
      | false => exact ⟨_, _, setPrevPm_invalid h k, rfl, by simp [h]⟩
      | true => exact ⟨_, _, setPrevPm_valid h hfree, rfl, by simp [h]⟩

/-- The lock is free between calls, so that every sequence of calls has a run. -/
lemma exists_run (hfree : k.held .sysCommonLock = false) (calls : List ModeCall) :
    ∃ k', Run ModeStep k calls k' ∧ k'.held .sysCommonLock = false := by
  induction calls using List.reverseRecOn with
  | nil => exact ⟨k, .nil k, hfree⟩
  | append_singleton calls call ih =>
      obtain ⟨k₁, hrun, hfree₁⟩ := ih
      obtain ⟨r, k₂, hk, hheld, -⟩ := ModeCall.run_ok hfree₁ call
      exact ⟨k₂, hrun.snoc ⟨r, hk⟩, hheld ▸ hfree₁⟩

/-- Valid modes, with the lock free. -/
structure ModeInv (k : Kernel) : Prop where
  pm : isValidPm k.common.pm = true
  prevPm : isValidPm k.common.prevPm = true
  unlocked : k.held .sysCommonLock = false

lemma ModeInv.modesValid (h : ModeInv k) : ModesValid k := by
  refine ⟨h.pm, h.prevPm, fun cpuid hc => ?_⟩
  obtain ⟨i, hi, -⟩ := getSysStructInfo_valid hc h.pm
  rw [hi, Option.isSome_some]

/-- The argument of `change_pm` is valid. -/
def ChangesToValid (call : ModeCall) : Prop :=
  ∀ pm, call = .changePm pm → isValidPm pm = true

lemma ModeInv.call (h : ModeInv k) {call : ModeCall} (hvalid : ChangesToValid call) :
    ∃ r k', call.run k = .ok r k' ∧ ModeInv k' ∧
      (isValidPm call.pm = false → r = -1 ∧ k'.common = k.common) ∧
      ∀ pm, call = .changePm pm → k'.common.pm = pm ∧ k'.common.prevPm = k.common.pm := by
  obtain ⟨r, k', hk, hheld, hcase⟩ := ModeCall.run_ok h.unlocked call
  have hfree : k'.held .sysCommonLock = false := hheld ▸ h.unlocked
  refine ⟨r, k', hk, ?_⟩
  cases call with
  | changePm pm =>
      obtain ⟨-, hpm, hprev⟩ := hcase
      have hok := hvalid pm rfl
      refine ⟨⟨hpm ▸ hok, hprev ▸ h.pm, hfree⟩, fun hno => ?_, ?_⟩
      · exact absurd hok (by simpa using hno)
      · rintro _ ⟨⟩
        exact ⟨hpm, hprev⟩
  | setPm pm =>
      dsimp only at hcase
      split at hcase
      · next hok =>
          obtain ⟨hpm, hprev⟩ := hcase
          refine ⟨⟨hpm ▸ hok, hprev ▸ h.prevPm, hfree⟩, fun hno => ?_, nofun⟩
          exact absurd hok (by simpa using hno)
      · obtain ⟨hr, rfl⟩ := hcase
        exact ⟨h, fun _ => ⟨hr, rfl⟩, nofun⟩
  | setPrevPm pm =>
      dsimp only at hcase
      split at hcase
      · next hok =>
          obtain ⟨hpm, hprev⟩ := hcase
          refine ⟨⟨hpm ▸ h.pm, hprev ▸ hok, hfree⟩, fun hno => ?_, nofun⟩
          exact absurd hok (by simpa using hno)
      · obtain ⟨hr, rfl⟩ := hcase
        exact ⟨h, fun _ => ⟨hr, rfl⟩, nofun⟩

lemma ModeInv.step {call : ModeCall} (h : ModeInv k) (hvalid : ChangesToValid call)
    (hs : ModeStep k call k') : ModeInv k' := by
  obtain ⟨r, hk⟩ := hs
  obtain ⟨r', k'', hk', hinv, -⟩ := h.call hvalid
  rw [hk] at hk'
  cases hk'
  exact hinv

lemma ModeInitial.inv (h : ModeInitial k) : ModeInv k := by
  have hsmp : isValidPm ALL_SMP_MODE = true := by decide
  exact ⟨h.pm ▸ hsmp, h.prevPm ▸ hsmp, h.unlocked⟩

end Step

/-- **Modes.**  From boot, a sequence of calls of `change_pm`, `set_pm` and `set_prev_pm` does
what it should throughout if and only if every mode given to `change_pm` is valid.  Messages are
taken to return (`Model/Kernel.lean`). -/
theorem modes_valid_iff {k : Kernel} (h0 : ModeInitial k) (calls : List ModeCall) :
    RunMeets k calls ↔ ∀ pm, .changePm pm ∈ calls → isValidPm pm = true := by
  constructor
  · rintro ⟨-, hcalls⟩ pm hmem
    obtain ⟨before, after, hsplit⟩ := List.append_of_mem hmem
    obtain ⟨k₁, hrun, hfree⟩ := exists_run h0.unlocked before
    obtain ⟨r, k₂, hk, hvalid, -⟩ := hcalls before _ after hsplit k₁ hrun
    have hpm : k₂.common.pm = pm := by
      rw [changePm_cases hk]
    exact hpm ▸ hvalid.pm
  · intro hvalid
    refine ⟨h0.inv.modesValid, fun before call after hsplit k₁ hrun => ?_⟩
    have hmem : ∀ c ∈ before ++ call :: after, ChangesToValid c := by
      rintro c hc pm rfl
      exact hvalid pm (hsplit ▸ hc)
    have hinv : ModeInv k₁ :=
      (hrun.guarded_of_forall fun c hc => hmem c (List.mem_append_left _ hc)).guarded_invariant
        (fun _ _ _ h hc hs => h.step hc hs) h0.inv
    obtain ⟨r, k₂, hk, hinv₂, hinvalid, hchange⟩ :=
      hinv.call (hmem call (List.mem_append_right _ List.mem_cons_self))
    exact ⟨r, k₂, hk, hinv₂.modesValid, hinvalid, fun pm hcall _ => hchange pm hcall⟩

lemma atBoot_modeInitial : ModeInitial atBoot := ⟨rfl, rfl, rfl⟩

/-- An SMP kernel of three cores is set up. -/
theorem modes_valid_iff_threeCores :
    RunMeets atBoot [.setPm 0xE, .changePm 0x8, .setPrevPm 0xC] :=
  (modes_valid_iff atBoot_modeInitial _).mpr fun pm hmem => by
    obtain rfl : pm = 0x8 := by simpa using hmem
    decide

/-- `change_pm` puts a mode into force in which core 0 is the only SMP core. -/
theorem changePm_breaks_mode : ¬ ∀ k calls, ModeInitial k → RunMeets k calls := by
  intro hclaim
  obtain ⟨-, hcalls⟩ := hclaim atBoot [.changePm 0xE] atBoot_modeInitial
  obtain ⟨r, k, hk, hvalid, -⟩ := hcalls [] _ [] rfl atBoot (.nil _)
  have hpm : k.common.pm = 0xE := by
    rw [changePm_cases hk]
  have hinvalid : ¬ isValidPm 0xE = true := by decide
  exact hinvalid (hpm ▸ hvalid.pm)

end Kernel

end Rpi2Baremetal
