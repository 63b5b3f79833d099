import Rpi2Baremetal.Properties.BootHang

/-!
# The boot barrier

The primary core may leave the loop of `init_smp_kernel` only when every core has made the call of
`inc_waking_cores` in its `sys_init` function.  The secondary cores never get as far as that call:
`start_mmu_no_lock` comes before it.  So the loop would have to be left with the one increment of
the primary core, and it is not.

The counter alone would not do: core 1 calls `inc_waking_cores` a second time in
`init_smp_kernel`, so with calls of `start_mmu_no_lock` that return, four increments could be
those of three cores.
-/

namespace Rpi2Baremetal

namespace Startup

open Framework Console

variable {s : BootState} {cpuid : Fin NUM_CPU}

/-- A secondary core has not made the call of its `sys_init` function. -/
lemma BootState.Inv.not_done_inc (h : s.Inv) (hcore : cpuid ≠ 0) :
    ¬ s.Done cpuid (.incWakingCores .sysInit) := by
  intro hdone
  obtain ⟨n, hn, hcall⟩ := h.done_index hdone
  rw [if_neg hcore] at hn
  exact (secondary_program hcore hn.le hcall).2.1 .sysInit rfl

/-- What the primary core has last read from the counter is at most its own increment. -/
lemma BootState.Inv.read_le (h : s.Inv) {c : BootCore} (hc : s.core 0 = some c) :
    c.wakingCoresRead.toNat ≤ 1 := by
  obtain ⟨p, hp, hwaits⟩ := h.primary
  obtain rfl : p = c := Option.some.inj (hp.symm.trans hc)
  exact hwaits.read

/-- **Boot barrier.**  In every interleaving of the initialisation of the four cores: if the
primary core has left the loop on `get_waking_cores() >= 4`, every core has completed the
`inc_waking_cores` call of its `sys_init` function.  The primary core does not leave it: no
secondary core completes that call, and no check finds the counter above 1. -/
theorem boot_barrier {labels : List (Fin NUM_CPU × BootAct)}
    (hr : Run (fun s a s' => bootStep s a = some s') .start labels s) :
    (s.Done 0 .waitWakingCores → ∀ cpuid, s.Done cpuid (.incWakingCores .sysInit)) ∧
      (∀ cpuid ≠ 0, ¬ s.Done cpuid (.incWakingCores .sysInit)) ∧
      ∀ c, s.core 0 = some c → c.wakingCoresRead.toNat ≤ 1 := by
  have hinv := BootState.inv_of_run hr
  exact ⟨fun hleft => absurd hleft hinv.not_left, fun _ hcore => hinv.not_done_inc hcore,
    fun _ hc => hinv.read_le hc⟩

/-! ## A run to the loop -/

/-- Core `cpuid` executes some commands, with a transmitter that is ready. -/
def executes (cpuid : Fin NUM_CPU) (mmuOn : Bool) (n : ℕ) : List (Fin NUM_CPU × BootAct) :=
  List.replicate n (cpuid, .exec (readyEnv (.ofNat 32 cpuid) mmuOn))

/-- Core `cpuid` makes some calls that print nothing. -/
def quietCalls (cpuid : Fin NUM_CPU) (n : ℕ) : List (Fin NUM_CPU × BootAct) :=
  (List.replicate n [(cpuid, .enter []), (cpuid, .ret)]).flatten

/-- Core 0 gets to its loop and checks the counter. -/
def toTheLoop : List (Fin NUM_CPU × BootAct) :=
  quietCalls 0 9 ++ [(0, .enter []), (0, .enableMmu)] ++ executes 0 true 40 ++ [(0, .ret)]
    ++ [(0, .enter [])] ++ executes 0 true 6 ++ [(0, .ret)] ++ quietCalls 0 4
    ++ [(0, .enter [])] ++ executes 0 true 6 ++ [(0, .ret)]

/-- It has read 1 and goes round again. -/
theorem boot_barrier_toTheLoop : ∃ s c,
    Run (fun s a s' => bootStep s a = some s') .start toTheLoop s ∧ s.core 0 = some c ∧
      c.stack = [.getWakingCores] ∧ s.Done 0 (.incWakingCores .sysInit) ∧
      (s.Done 0 .waitWakingCores → ∀ cpuid, s.Done cpuid (.incWakingCores .sysInit)) ∧
      (∀ cpuid ≠ 0, ¬ s.Done cpuid (.incWakingCores .sysInit)) ∧
      c.wakingCoresRead.toNat ≤ 1 := by
  have hrun : (toTheLoop.foldlM bootStep .start).isSome := rfl
  obtain ⟨s, hs⟩ := Option.isSome_iff_exists.mp hrun
  have hr := Run.of_foldlM hs
  obtain ⟨hbarrier, hsecondary, hread⟩ := boot_barrier hr
  cases hs
  have hfifteen : .incWakingCores .sysInit ∈ (program 0).take 15 := by decide
  exact ⟨_, _, hr, rfl, rfl, ⟨_, rfl, hfifteen⟩, hbarrier, hsecondary, hread _ rfl⟩

end Startup

end Rpi2Baremetal
