import Rpi2Baremetal.Properties.SpinLockSteps

/-!
# Progress of the lock routines

`_spin_rel` never repeats an instruction: while the core that has the lock is in it, no other core
can store to the lock word, so its monitor stays set (`LockCore.Straight`).

`_spin_req` may repeat, but with the lock free it repeats only after it has found its monitor
cleared, which takes a store.  `LockCore.rank` bounds the instructions a core executes before it
stores, as long as no other core does; with the lock free no core can be about to release it.
-/

namespace Rpi2Baremetal

namespace Boot

open Framework

/-! ## `_spin_rel` -/

namespace LockCore

/-- A core in `_spin_rel` that has not repeated an instruction. -/
def Straight (c : LockCore) : Prop :=
  match c.pc with
  | 0 | 1 | 7 | 8 => True
  | 2 => c.r2 = 1 ∧ c.monitor
  | 3 | 4 => c.z ∧ c.monitor
  | 5 => c.z ∧ c.r2 = 0
  | 6 => c.z
  | _ => False

variable {w : Word} {c : LockCore} {instr : Instr}

/-- The next instruction of `_spin_rel` is the one that follows, and after the last the core has
returned. -/
lemma Straight.exec (h : c.Straight) (hI : c.Inv w) (hw : c.stored → w = 1)
    (hr : c.routine = some .spinRel) (hf : c.fetch = some instr) :
    if c.pc = 8 then (c.exec w instr).routine = none
    else (c.exec w instr).routine = some .spinRel ∧ (c.exec w instr).pc = c.pc + 1 ∧
      (c.exec w instr).Straight := by
  rw [fetch_spinRel hr] at hf
  obtain ⟨routine, pc, r1, r2, z, monitor, stored, critical⟩ := c
  obtain rfl : routine = some .spinRel := hr
  match pc with
  | 1 =>
      obtain rfl := Option.some.inj hf
      exact ⟨rfl, rfl, hw hI.2.1, rfl⟩
  | 2 =>
      obtain rfl := Option.some.inj hf
      exact ⟨rfl, rfl, by simpa [LockCore.exec] using h.1, h.2⟩
  | 4 =>
      obtain rfl := Option.some.inj hf
      obtain ⟨rfl, rfl⟩ : z = true ∧ monitor = true := h
      exact ⟨rfl, rfl, rfl, rfl⟩
  | 5 =>
      obtain rfl := Option.some.inj hf
      obtain ⟨rfl, rfl⟩ : z = true ∧ r2 = 0 := h
      exact ⟨rfl, rfl, rfl⟩
  | 6 =>
      obtain rfl := Option.some.inj hf
      obtain rfl : z = true := h
      exact ⟨rfl, rfl, trivial⟩
  | 0 | 3 | 7 =>
      obtain rfl := Option.some.inj hf
      exact ⟨rfl, rfl, h⟩
  | 8 =>
      obtain rfl := Option.some.inj hf
      rfl
  | _ + 9 => exact h.elim

/-- In `_spin_rel` before its store the core has the lock. -/
lemma Inv.stored_spinRel (h : c.Inv w) (hr : c.routine = some .spinRel) :
    if c.pc ≤ 4 then c.stored = true else c.Straight → c.stored = false := by
  obtain ⟨routine, pc, r1, r2, z, monitor, stored, critical⟩ := c
  obtain rfl : routine = some .spinRel := hr
  match pc with
  | 0 => exact h.1
  | 1 | 2 | 3 | 4 => exact h.2.1
  | 5 =>
      intro hs
      obtain ⟨rfl, rfl⟩ : z = true ∧ r2 = 0 := hs
      exact h.2.1
  | 6 =>
      intro hs
      obtain rfl : z = true := hs
      exact h.2.1
  | 7 | 8 => exact fun _ => h.1
  | _ + 9 => exact h.elim

/-- After its store the monitor does not matter. -/
lemma Straight.clear (h : c.Straight) (hpc : ¬ c.pc ≤ 4) :
    { c with monitor := false }.Straight := by
  obtain ⟨routine, pc, r1, r2, z, monitor, stored, critical⟩ := c
  match pc with
  | 0 | 1 | 2 | 3 | 4 => simp at hpc
  | 5 | 6 | 7 | 8 => exact h
  | _ + 9 => exact h.elim

end LockCore

variable {ι : Type*} [DecidableEq ι] {s s' : LockState ι} {i j : ι}

/-- Another core cannot disturb one in `_spin_rel`. -/
lemma straight_other (hI : s.Inv) {a : LockAction} (hs : lockStep s (j, a) = some s') (hij : i ≠ j)
    (hr : (s.core i).routine = some .spinRel) (h : (s.core i).Straight) :
    (s'.core i).routine = some .spinRel ∧ (s'.core i).pc = (s.core i).pc ∧
      (s'.core i).Straight := by
  rcases lockStep_core_of_ne hs hij with heq | ⟨heq, hst⟩
  · rw [heq]
    exact ⟨hr, rfl, h⟩
  · have hpc : ¬ (s.core i).pc ≤ 4 := by
      intro hle
      have hstored := (hI.core i).stored_spinRel hr
      rw [if_pos hle] at hstored
      exact hij (hI.storing_excl hst hstored)
    rw [heq]
    exact ⟨hr, rfl, h.clear hpc⟩

/-- The instructions that core `i` executes. -/
def instrsOf (i : ι) (ls : List (ι × LockAction)) : ℕ :=
  ls.countP fun
    | (j, .instr) => j = i
    | _ => false

lemma instrsOf_append (ls : List (ι × LockAction)) (l : ι × LockAction) :
    instrsOf i (ls ++ [l]) = instrsOf i ls + instrsOf i [l] := by
  simp [instrsOf]

/-- What holds of a core that has called `_spin_rel` while it executes the routine. -/
structure Releasing (i : ι) (n : ℕ) (s : LockState ι) : Prop where
  routine : (s.core i).routine = some .spinRel
  pc : (s.core i).pc = n
  straight : (s.core i).Straight

/-- After `n` of its instructions the core is at the next one, or has returned. -/
lemma Releasing.step (hI : s.Inv) {n : ℕ} (h : n ≤ 8 → Releasing i n s) {l : ι × LockAction}
    (hs : lockStep s l = some s') (hn : n + instrsOf i [l] ≤ 8) :
    Releasing i (n + instrsOf i [l]) s' := by
  obtain ⟨j, a⟩ := l
  obtain ⟨hr, hpc, hst⟩ := h (by omega)
  by_cases hij : i = j
  · subst hij
    cases a with
    | callReq => simp [lockStep, hr] at hs
    | callRel => simp [lockStep, hr] at hs
    | instr =>
        obtain ⟨instr, hf, heq⟩ := lockStep_instr hs
        have hone : instrsOf i [(i, LockAction.instr)] = 1 := by simp [instrsOf]
        rw [hone] at hn ⊢
        have hw : (s.core i).stored → s.word = 1 := fun hstored => hI.safe.word.mpr ⟨i, hstored⟩
        have hexec := hst.exec (hI.core i) hw hr hf
        rw [if_neg (by omega), ← heq, hpc] at hexec
        exact ⟨hexec.1, hexec.2.1, hexec.2.2⟩
  · have hzero : instrsOf i [(j, a)] = 0 := by
      cases a <;> simp [instrsOf, Ne.symm hij]
    obtain ⟨hr', hpc', hst'⟩ := straight_other hI hs hij hr hst
    rw [hzero]
    exact ⟨hr', hpc'.trans hpc, hst'⟩

/-- **`_spin_rel` is wait-free.**  Whatever the other cores do, a core that has called it executes
its nine instructions once each, can always execute the next one, has given the lock back after the
fifth and has returned after the ninth. -/
theorem spin_rel_wait_free {s0 t t' : LockState ι} {ls ls' : List (ι × LockAction)}
    (h0 : s0.Initial) (hr : Run (fun s a s' => lockStep s a = some s') s0 ls s)
    (hcall : lockStep s (i, .callRel) = some t)
    (hr' : Run (fun s a s' => lockStep s a = some s') t ls' t') (hn : instrsOf i ls' ≤ 8) :
    (t'.core i).routine = some .spinRel ∧ (t'.core i).pc = instrsOf i ls' ∧
      (5 ≤ instrsOf i ls' → (t'.core i).stored = false) ∧
      ∃ t'', lockStep t' (i, .instr) = some t'' ∧
        (instrsOf i ls' = 8 → (t''.core i).routine = none) := by
  have hI : s.Inv := hr.invariant (fun _ _ _ hI hs => hI.step hs) h0.inv
  have hIt : t.Inv := hI.step hcall
  have hstart : Releasing i 0 t := by
    simp only [lockStep, Option.ite_none_right_eq_some] at hcall
    obtain ⟨-, heq⟩ := hcall
    obtain rfl := Option.some.inj heq
    constructor <;> simp [LockState.set, LockCore.Straight]
  obtain ⟨hI', hrel⟩ := hr'.history_invariant
    (I := fun ls s => s.Inv ∧ (instrsOf i ls ≤ 8 → Releasing i (instrsOf i ls) s))
    (fun ls s l s' h hs => ⟨h.1.step hs, fun hle => by
      rw [instrsOf_append] at hle ⊢
      exact Releasing.step h.1 h.2 hs hle⟩)
    ⟨hIt, fun _ => hstart⟩
  obtain ⟨hroutine, hpc, hst⟩ := hrel hn
  have hstored := (hI'.core i).stored_spinRel hroutine
  obtain ⟨instr, hf⟩ : ∃ instr, (t'.core i).fetch = some instr := by
    rw [LockCore.fetch_spinRel hroutine, hpc]
    exact ⟨_, List.getElem?_eq_getElem (by simpa [spinRelCode] using Nat.lt_succ_of_le hn)⟩
  obtain ⟨t'', ht''⟩ : ∃ t'', lockStep t' (i, .instr) = some t'' := by
    simp [lockStep, hf]
  refine ⟨hroutine, hpc, fun hge => ?_, t'', ht'', fun h8 => ?_⟩
  · rw [if_neg (by omega)] at hstored
    exact hstored hst
  · obtain ⟨instr', hf', heq⟩ := lockStep_instr ht''
    have hw : (t'.core i).stored → t'.word = 1 := fun h => hI'.safe.word.mpr ⟨i, h⟩
    have hexec := hst.exec (hI'.core i) hw hroutine hf'
    rwa [if_pos (by omega), ← heq] at hexec

/-- Core `i` takes the lock. -/
def takesLock (i : Fin 2) : List (Fin 2 × LockAction) :=
  (i, .callReq) :: List.replicate 8 (i, .instr)

/-- Core `j` gets through six instructions of `_spin_req` while core `i` gets through eight of
`_spin_rel`. -/
def givesBack (i j : Fin 2) : List (Fin 2 × LockAction) :=
  (j, .callReq) :: List.replicate 4 (i, .instr) ++ List.replicate 6 (j, .instr)
    ++ List.replicate 4 (i, .instr)

/-- Core 1 returns with its ninth instruction. -/
theorem spin_rel_wait_free_givesBack : ∃ t' t'', instrsOf 1 (givesBack 1 0) = 8 ∧
    Run (fun s a s' => lockStep s a = some s') twoCores
      (takesLock 1 ++ [(1, .callRel)] ++ givesBack 1 0) t' ∧
    lockStep t' (1, .instr) = some t'' ∧ (t''.core 1).routine = none := by
  have hrun : ((takesLock 1 ++ [(1, LockAction.callRel)] ++ givesBack 1 0).foldlM lockStep
      twoCores).isSome := rfl
  obtain ⟨t', ht'⟩ := Option.isSome_iff_exists.mp hrun
  rw [List.foldlM_append, List.foldlM_append] at ht'
  obtain ⟨t, ht, ht'⟩ := Option.bind_eq_some_iff.mp ht'
  obtain ⟨s, hs, ht⟩ := Option.bind_eq_some_iff.mp ht
  have hcall : lockStep s (1, .callRel) = some t := by simpa using ht
  have hr := Run.of_foldlM hs
  have hr' := Run.of_foldlM ht'
  obtain ⟨-, -, -, t'', hstep, hret⟩ :=
    spin_rel_wait_free ⟨rfl, fun _ => rfl, fun _ => rfl, fun _ => rfl⟩ hr hcall hr' (by decide)
  exact ⟨t', t'', rfl, (hr.append (.single hcall)).append hr', hstep, hret rfl⟩

/-! ## `_spin_req` -/

namespace LockCore

/-- With the lock free and nobody storing, the number of instructions a core executes before it
has stored or returned. -/
def rank (c : LockCore) : ℕ :=
  match c.routine, c.pc with
  | none, _ => 0
  | some .spinReq, 0 => 4
  | some .spinReq, 1 => 3
  | some .spinReq, 2 => if c.monitor then 2 else 7
  | some .spinReq, 3 => if c.z ∧ c.monitor then 1 else 6
  | some .spinReq, 4 => 5
  | some .spinReq, 5 => 4
  | some .spinReq, _ => 0
  | some .spinRel, pc => 9 - pc

variable {w : Word} {c : LockCore} {instr : Instr}

/-- With the lock free, a core that has not stored has at most seven instructions to go. -/
lemma Inv.rank_le (h : c.Inv w) (hstored : c.stored = false) : c.rank ≤ 7 := by
  obtain ⟨routine, pc, r1, r2, z, monitor, stored, critical⟩ := c
  unfold rank
  split <;> try omega
  · split_ifs <;> omega
  · split_ifs <;> omega
  · rename_i hr
    obtain rfl : routine = some .spinRel := hr
    have hlow := h.stored_spinRel rfl
    by_cases hle : pc ≤ 4
    · rw [if_pos hle] at hlow
      exact absurd (hlow.symm.trans hstored) (by decide)
    · change 9 - pc ≤ 7
      omega

/-- A core in `_spin_req` that has not stored has an instruction to go. -/
lemma Inv.rank_pos (h : c.Inv w) (hr : c.routine = some .spinReq) (hstored : c.stored = false)
    (hf : c.fetch = some instr) : 1 ≤ c.rank := by
  rw [fetch_spinReq hr] at hf
  obtain ⟨routine, pc, r1, r2, z, monitor, stored, critical⟩ := c
  obtain rfl : routine = some .spinReq := hr
  obtain rfl : stored = false := hstored
  match pc with
  | 0 | 1 | 4 | 5 => simp [rank]
  | 2 => simp only [rank]; split_ifs <;> omega
  | 3 => simp only [rank]; split_ifs <;> omega
  | 6 | 7 => exact absurd h (by simp [Inv, Acquiring])
  | _ + 8 => exact h.elim

/-- An instruction of `_spin_req` with the lock free stores, or brings the core one instruction
nearer. -/
lemma Inv.rank_exec_spinReq (h : c.Inv 0) (hr : c.routine = some .spinReq)
    (hstored : c.stored = false) (hf : c.fetch = some instr) (hst : c.storing = none) :
    (c.exec 0 instr).rank + 1 ≤ c.rank := by
  have hstore := fun rd rt (h : instr = .strexeq rd rt) => storing_strexeq (h ▸ hf)
  rw [fetch_spinReq hr] at hf
  obtain ⟨routine, pc, r1, r2, z, monitor, stored, critical⟩ := c
  obtain rfl : routine = some .spinReq := hr
  obtain rfl : stored = false := hstored
  match pc with
  | 0 | 1 =>
      obtain rfl := Option.some.inj hf
      simp [exec, rank]
  | 2 =>
      obtain rfl := Option.some.inj hf
      obtain ⟨-, -, hm⟩ := h
      cases monitor
      · simp only [exec, rank]
        split_ifs <;> simp_all
      · obtain rfl : r2 = 0 := hm rfl
        simp [exec, rank]
  | 3 =>
      obtain rfl := Option.some.inj hf
      have hzm : ¬ (z = true ∧ monitor = true) := by simpa [hstore _ _ rfl] using hst
      cases z <;> cases monitor <;> simp_all [exec, rank]
  | 4 =>
      obtain rfl := Option.some.inj hf
      cases z <;> simp [exec, rank]
  | 5 =>
      -- the flag is clear, since the core has not stored
      obtain rfl := Option.some.inj hf
      cases z
      · simp [exec, rank]
      · exact absurd h.2 (by simp [Acquiring])
  | 6 | 7 => exact absurd h (by simp [Inv, Acquiring])
  | _ + 8 => exact h.elim

/-- An instruction of `_spin_rel` after its store brings the core one instruction nearer. -/
lemma Inv.rank_exec_spinRel (h : c.Inv 0) (hr : c.routine = some .spinRel)
    (hstored : c.stored = false) (hf : c.fetch = some instr) :
    (c.exec 0 instr).rank + 1 ≤ c.rank := by
  have hlow := h.stored_spinRel hr
  rw [fetch_spinRel hr] at hf
  obtain ⟨routine, pc, r1, r2, z, monitor, stored, critical⟩ := c
  obtain rfl : routine = some .spinRel := hr
  obtain rfl : stored = false := hstored
  match pc with
  | 0 | 1 | 2 | 3 | 4 => simp at hlow
  | 5 =>
      obtain rfl := Option.some.inj hf
      cases z <;> simp [exec, rank]
  | 6 =>
      obtain rfl := Option.some.inj hf
      cases z
      · exact absurd h.2 (by simp [LockCore.Releasing])
      · simp [exec, rank]
  | 7 | 8 =>
      obtain rfl := Option.some.inj hf
      simp [exec, rank]
  | _ + 9 => exact h.elim

/-- An instruction with the lock free stores, or brings the core one instruction nearer. -/
lemma Inv.rank_exec (h : c.Inv 0) (hstored : c.stored = false) (hf : c.fetch = some instr)
    (hst : c.storing = none) : (c.exec 0 instr).rank + 1 ≤ c.rank := by
  cases hr : c.routine with
  | none => simp [fetch, hr] at hf
  | some f =>
      cases f with
      | spinReq => exact h.rank_exec_spinReq hr hstored hf hst
      | spinRel => exact h.rank_exec_spinRel hr hstored hf

end LockCore

/-! ## All cores -/

/-- The instructions of all cores. -/
def instrs (ls : List (ι × LockAction)) : ℕ := ls.countP fun
  | (_, .instr) => true
  | _ => false

/-- The calls of `_spin_req`. -/
def requests (ls : List (ι × LockAction)) : ℕ := ls.countP fun
  | (_, .callReq) => true
  | _ => false

/-- What the cores have to go in all, until one of them stores. -/
def LockState.potential [Fintype ι] (s : LockState ι) : ℕ :=
  if s.word = 0 then ∑ i, (s.core i).rank else 0

omit [DecidableEq ι] in
lemma LockState.Inv.not_stored (h : s.Inv) (hw : s.word = 0) (i : ι) :
    (s.core i).stored = false := by
  rcases h.word with ⟨h1, -⟩ | ⟨-, h0⟩
  · rw [hw] at h1
    exact absurd h1 (by decide)
  · exact h0 i

lemma sum_rank_set [Fintype ι] (s : LockState ι) (i : ι) (c : LockCore) :
    ∑ j, ((s.set i c).core j).rank + (s.core i).rank = ∑ j, (s.core j).rank + c.rank := by
  have hrest : ∑ j ∈ Finset.univ.erase i, ((s.set i c).core j).rank =
      ∑ j ∈ Finset.univ.erase i, (s.core j).rank := by
    refine Finset.sum_congr rfl fun j hj => ?_
    simp [LockState.set, Finset.ne_of_mem_erase hj]
  rw [← Finset.add_sum_erase _ _ (Finset.mem_univ i),
    ← Finset.add_sum_erase _ (fun j => (s.core j).rank) (Finset.mem_univ i), hrest]
  simp only [LockState.set, Function.update_self]
  omega

/-- A step with the lock free costs an instruction of those the cores have to go; a call of
`_spin_req` adds four. -/
lemma potential_step [Fintype ι] (hI : s.Inv) (hw : s.word = 0) {l : ι × LockAction}
    (hs : lockStep s l = some s') :
    instrs [l] + s'.potential ≤ s.potential + 4 * requests [l] := by
  obtain ⟨i, a⟩ := l
  have hpot : s.potential = ∑ j, (s.core j).rank := if_pos hw
  cases a with
  | callReq =>
      simp only [lockStep, Option.ite_none_right_eq_some] at hs
      obtain ⟨hout, heq⟩ := hs
      obtain rfl := Option.some.inj heq
      have hsum := sum_rank_set s i ((s.core i).enter .spinReq)
      have hpot' : (s.set i ((s.core i).enter .spinReq)).potential =
          ∑ j, ((s.set i ((s.core i).enter .spinReq)).core j).rank := if_pos hw
      have hrank : ((s.core i).enter .spinReq).rank = 4 := rfl
      have hzero : (s.core i).rank = 0 := by simp [LockCore.rank, hout]
      have hinstrs : instrs [(i, LockAction.callReq)] = 0 := rfl
      have hrequests : requests [(i, LockAction.callReq)] = 1 := rfl
      rw [hinstrs, hrequests, hpot, hpot']
      omega
  | callRel =>
      -- only a core that has stored calls `_spin_rel`
      simp only [lockStep, Option.ite_none_right_eq_some] at hs
      have hstored := (hI.core i).stored_of_critical hs.1.2
      rw [hI.not_stored hw i] at hstored
      exact absurd hstored (by decide)
  | instr =>
      obtain ⟨instr, hf, rfl⟩ := Option.map_eq_some_iff.mp hs
      have hstored := hI.not_stored hw i
      have hi := hI.core i
      have hinstrs : instrs [(i, LockAction.instr)] = 1 := rfl
      rw [hinstrs, hpot]
      cases hst : (s.core i).storing with
      | none =>
          rw [hw] at hi ⊢
          have hrank := hi.rank_exec hstored hf hst
          have hsum := sum_rank_set s i ((s.core i).exec 0 instr)
          have hpot' : (s.set i ((s.core i).exec 0 instr)).potential =
              ∑ j, ((s.set i ((s.core i).exec 0 instr)).core j).rank := if_pos hw
          dsimp only
          omega
      | some rt =>
          obtain ⟨hv, hpos⟩ : (s.core i).reg rt = 1 ∧ 1 ≤ (s.core i).rank := by
            cases hr : (s.core i).routine with
            | none => simp [LockCore.fetch, hr] at hf
            | some f =>
                cases f with
                | spinReq => exact ⟨(hi.store_spinReq hr hf hst).2.1, hi.rank_pos hr hstored hf⟩
                | spinRel =>
                    have hother := (hi.store_spinRel hr hf hst).2.1
                    rw [hstored] at hother
                    exact absurd hother (by decide)
          have hle := Finset.single_le_sum (fun j _ => Nat.zero_le (s.core j).rank)
            (Finset.mem_univ i)
          have hzero : (s.store i ((s.core i).reg rt) ((s.core i).exec s.word instr)).potential =
              0 := if_neg (by rw [hv]; exact (by decide : (1 : Word) ≠ 0))
          dsimp only
          omega

/-- **The lock is lock-free.**  While the lock is free, no more than seven instructions of each core
and four for each call of `_spin_req` are executed before some core takes it, in whatever order. -/
theorem spin_lock_lock_free [Fintype ι] {s0 : LockState ι} {ls ls' : List (ι × LockAction)}
    (h0 : s0.Initial) (hr : Run (fun s a s' => lockStep s a = some s') s0 ls s)
    (hr' : Run (guarded (fun s _ => s.word = 0) fun s a s' => lockStep s a = some s') s ls' s') :
    instrs ls' ≤ 7 * Fintype.card ι + 4 * requests ls' := by
  have hI : s.Inv := hr.invariant (fun _ _ _ hI hs => hI.step hs) h0.inv
  have hsum := hr'.potential LockState.Inv LockState.potential _ _ 4
    (fun _ _ _ hI hs => ⟨hI.step hs.2, potential_step hI hs.1 hs.2⟩) hI
  have hle : s.potential ≤ 7 * Fintype.card ι := by
    unfold LockState.potential
    split_ifs with hw
    · have hsum := Finset.sum_le_card_nsmul Finset.univ (fun i => (s.core i).rank) 7
        fun i _ => (hI.core i).rank_le (hI.not_stored hw i)
      rwa [Finset.card_univ, smul_eq_mul, Nat.mul_comm] at hsum
    · exact Nat.zero_le _
  unfold instrs requests
  omega

/-- Both cores come as far as their `strexeq`. -/
def bothRequest (i j : Fin 2) : List (Fin 2 × LockAction) :=
  (i, .callReq) :: (j, .callReq) :: List.replicate 3 (i, .instr) ++ List.replicate 3 (j, .instr)

/-- Neither core has taken the lock after these six instructions. -/
theorem spin_lock_lock_free_bothRequest : ∃ s', instrs (bothRequest 0 1) = 6 ∧
    Run (guarded (fun s _ => s.word = 0) fun s a s' => lockStep s a = some s') twoCores
      (bothRequest 0 1) s' ∧
    instrs (bothRequest 0 1) ≤ 7 * Fintype.card (Fin 2) + 4 * requests (bothRequest 0 1) := by
  have hrun : ((bothRequest 0 1).foldlM (fun s l => if s.word = 0 then lockStep s l else none)
      twoCores).isSome := rfl
  obtain ⟨s', hs'⟩ := Option.isSome_iff_exists.mp hrun
  have hr := Run.guarded_of_foldlM hs'
  exact ⟨s', rfl, hr, spin_lock_lock_free ⟨rfl, fun _ => rfl, fun _ => rfl, fun _ => rfl⟩
    (.nil twoCores) hr⟩

end Boot

end Rpi2Baremetal
