import Rpi2Baremetal.Model.DataCache
import Rpi2Baremetal.Properties.ExceptionFrames

/-!
# Every set and every way

`invalidate_data_cache_l10_only` counts the ways down inside the sets, and goes round again while
the counter it has just used is above zero, so that it ends after way 0 and after set 0.  The
flags of `subs` are read five instructions later; nothing between them writes flags.
-/

namespace Rpi2Baremetal

open Framework

namespace Arm

/-! ## Cache geometry -/

/-- The number of sets minus 1, bits 27:13 of the cache size register. -/
def setsField (ccsidr : Word) : Word := 0x7FFF &&& ccsidr >>> 13

/-- The number of ways minus 1, bits 12:3. -/
def waysField (ccsidr : Word) : Word := 0x3FF &&& ccsidr >>> 3

/-- The line size field, bits 2:0. -/
def lineField (ccsidr : Word) : Word := ccsidr &&& 0x7

def numSets (ccsidr : Word) : ℕ := (setsField ccsidr).toNat + 1

def numWays (ccsidr : Word) : ℕ := (waysField ccsidr).toNat + 1

def setShift (ccsidr : Word) : ℕ := (lineField ccsidr).toNat + 4

def wayShift (ccsidr : Word) : ℕ := (waysField ccsidr).clz.toNat

/-- The operand of the set/way operation for a set and a way, at level 0. -/
def setWayOperand (ccsidr : Word) (set way : ℕ) : Word :=
  (BitVec.ofNat 32 way <<< wayShift ccsidr) ||| (BitVec.ofNat 32 set <<< setShift ccsidr)

/-- The set field ends below the way field, which reaches up to bit 31; with a single way it ends
below bit 32. -/
def FieldsFit (ccsidr : Word) : Prop :=
  (numSets ccsidr - 1) * 2 ^ setShift ccsidr < 2 ^ wayShift ccsidr

section Geometry

variable {v : Word}

lemma setsField_lt (v : Word) : (setsField v).toNat < 2 ^ 15 := by
  rw [setsField, BitVec.toNat_and]
  exact Nat.lt_of_le_of_lt Nat.and_le_left (by decide)

lemma waysField_lt (v : Word) : (waysField v).toNat < 2 ^ 10 := by
  rw [waysField, BitVec.toNat_and]
  exact Nat.lt_of_le_of_lt Nat.and_le_left (by decide)

lemma lineField_lt (v : Word) : (lineField v).toNat < 8 := by
  rw [lineField, BitVec.toNat_and]
  exact Nat.lt_of_le_of_lt Nat.and_le_right (by decide)

lemma wayShift_le (v : Word) : wayShift v ≤ 32 := by
  have hle := BitVec.le_def.mp (BitVec.clz_le (x := waysField v))
  exact hle

/-- A way number fits above its shift. -/
lemma way_lt {way : ℕ} (hw : way < numWays v) : way < 2 ^ (32 - wayShift v) := by
  have hlt := BitVec.toNat_lt_two_pow_sub_clz (x := waysField v)
  exact Nat.lt_of_lt_of_le hw hlt

/-- Ten bits for the ways leave the low 22 bits to the sets. -/
lemma wayShift_ge (v : Word) : 22 ≤ wayShift v := by
  by_contra hlt
  have hne : waysField v ≠ 0 := by
    intro h0
    rw [wayShift, h0] at hlt
    exact hlt (by decide)
  have hle := BitVec.two_pow_sub_clz_le_toNat_of_ne_zero (by decide) hne
  have hpow : 2 ^ 10 ≤ 2 ^ (32 - 1 - (waysField v).clz.toNat) := by
    refine Nat.pow_le_pow_right (by decide) ?_
    rw [wayShift] at hlt
    omega
  have hfield := waysField_lt v
  omega

lemma setShift_bounds (v : Word) : 4 ≤ setShift v ∧ setShift v ≤ 11 := by
  have hlt := lineField_lt v
  rw [setShift]
  omega

/-- The level, in bits 3:1 of an operand, is 0. -/
lemma level_setWayOperand (v : Word) (set way : ℕ) : setWayOperand v set way &&& 0xE = 0 := by
  have hway := wayShift_ge v
  have hset := (setShift_bounds v).1
  have hlow : ∀ j : Fin 32, 4 ≤ j.val → (0xE : Word).getLsbD j = false := by decide
  refine BitVec.eq_of_getLsbD_eq fun i hi => ?_
  by_cases h4 : 4 ≤ i
  · rw [BitVec.getLsbD_and, hlow ⟨i, hi⟩ h4, Bool.and_false]
    exact BitVec.getLsbD_zero.symm
  · have h1 : i < wayShift v := by omega
    have h2 : i < setShift v := by omega
    simp [setWayOperand, h1, h2]

/-- In a geometry whose fields fit the operand is the way above the set. -/
lemma toNat_setWayOperand (hfit : FieldsFit v) {set way : ℕ} (hs : set < numSets v)
    (hw : way < numWays v) :
    set * 2 ^ setShift v < 2 ^ wayShift v ∧
      (setWayOperand v set way).toNat = 2 ^ wayShift v * way + set * 2 ^ setShift v := by
  have hbelow : set * 2 ^ setShift v < 2 ^ wayShift v :=
    Nat.lt_of_le_of_lt (Nat.mul_le_mul_right _ (Nat.le_sub_one_of_lt hs)) hfit
  have hle := wayShift_le v
  have hpow : 2 ^ wayShift v * 2 ^ (32 - wayShift v) = 2 ^ 32 := by
    rw [← Nat.pow_add, Nat.add_sub_cancel' hle]
  have hwayfit : 2 ^ wayShift v * way < 2 ^ 32 := by
    rw [← hpow]
    exact Nat.mul_lt_mul_of_pos_left (way_lt hw) (Nat.two_pow_pos _)
  have hsetfit : set * 2 ^ setShift v < 2 ^ 32 :=
    Nat.lt_of_lt_of_le hbelow (Nat.pow_le_pow_right (by decide) hle)
  have hset32 : set < 2 ^ 32 :=
    Nat.lt_of_le_of_lt (Nat.le_mul_of_pos_right _ (Nat.two_pow_pos _)) hsetfit
  have hway32 : way < 2 ^ 32 :=
    Nat.lt_of_le_of_lt (Nat.le_mul_of_pos_left _ (Nat.two_pow_pos _)) hwayfit
  refine ⟨hbelow, ?_⟩
  rw [setWayOperand, BitVec.toNat_or, BitVec.toNat_shiftLeft, BitVec.toNat_shiftLeft,
    BitVec.toNat_ofNat, BitVec.toNat_ofNat, Nat.mod_eq_of_lt hset32, Nat.mod_eq_of_lt hway32,
    Nat.shiftLeft_eq, Nat.shiftLeft_eq, Nat.mul_comm way, Nat.mod_eq_of_lt hwayfit,
    Nat.mod_eq_of_lt hsetfit, Nat.two_pow_add_eq_or_of_lt hbelow]

lemma setWayOperand_inj (hfit : FieldsFit v) {set way set' way' : ℕ} (hs : set < numSets v)
    (hw : way < numWays v) (hs' : set' < numSets v) (hw' : way' < numWays v)
    (heq : setWayOperand v set way = setWayOperand v set' way') : set = set' ∧ way = way' := by
  obtain ⟨hlow, hnat⟩ := toNat_setWayOperand hfit hs hw
  obtain ⟨hlow', hnat'⟩ := toNat_setWayOperand hfit hs' hw'
  have hsum : 2 ^ wayShift v * way + set * 2 ^ setShift v
      = 2 ^ wayShift v * way' + set' * 2 ^ setShift v := by
    rw [← hnat, ← hnat', heq]
  have hways : way = way' := by
    have hdiv := congrArg (· / 2 ^ wayShift v) hsum
    simpa only [Nat.mul_add_div (Nat.two_pow_pos _), Nat.div_eq_of_lt hlow,
      Nat.div_eq_of_lt hlow', Nat.add_zero] using hdiv
  refine ⟨?_, hways⟩
  rw [hways] at hsum
  exact Nat.eq_of_mul_eq_mul_right (Nat.two_pow_pos _) (Nat.add_left_cancel hsum)

end Geometry

/-! ## Flags -/

/-- Between counters the condition `gt` is the order of the numbers. -/
lemma gt_flagsOfSub {a b : ℕ} (ha : a < 2 ^ 31) (hb : b ≤ a) :
    (flagsOfSub (.ofNat 32 a) (.ofNat 32 b)).gt = decide (b < a) := by
  have hsub : BitVec.ofNat 32 a - .ofNat 32 b = .ofNat 32 (a - b) := by
    apply BitVec.eq_of_toNat_eq
    rw [BitVec.toNat_sub, BitVec.toNat_ofNat, BitVec.toNat_ofNat, BitVec.toNat_ofNat]
    omega
  have hmsb : ∀ n, n < 2 ^ 31 → (BitVec.ofNat 32 n).msb = false := by
    intro n hn
    rw [BitVec.msb_eq_false_iff_two_mul_lt, BitVec.toNat_ofNat]
    omega
  have hzero : BitVec.ofNat 32 (a - b) = 0 ↔ ¬ b < a := by
    rw [← BitVec.toNat_inj, BitVec.toNat_ofNat, show (0 : Word).toNat = 0 from rfl]
    omega
  simp only [flagsOfSub, Flags.gt, hsub, hmsb a ha, hmsb b (by omega), hmsb (a - b) (by omega),
    hzero]
  by_cases hlt : b < a <;> simp [hlt]


/-! ## The loops -/

/-- The state inside the loops: `p` but for the general registers, the flags and the operands. -/
def inLoop (p : CacheCore) (ρ : Fin 13 → Word) (f : Flags) (ops : List Word) : CacheCore :=
  { p with m := { p.m with r := ρ }, flags := f, dcisw := ops }

/-- The registers the loops do not change. -/
structure LoopRegs (v : Word) (r ρ : Fin 13 → Word) : Prop where
  r0 : ρ 0 = lineField v + 4
  r1 : ρ 1 = (waysField v).clz
  r4 : ρ 4 = waysField v + 1
  high : ∀ k : Fin 13, 7 ≤ k.val → ρ k = r k

section Loops

variable {ccsidr : Word → Word} {v : Word} {p : CacheCore} {r ρ : Fin 13 → Word} {f : Flags}
  {ops : List Word} {res : Option CacheCore} {set t : ℕ}

/-- Writing the counters and the scratch registers. -/
lemma LoopRegs.update (h : LoopRegs v r ρ) {k : Fin 13} (hk : k = 2 ∨ k = 3 ∨ k = 5 ∨ k = 6)
    (w : Word) : LoopRegs v r (Function.update ρ k w) := by
  have hne : ∀ j : Fin 13, j = 0 ∨ j = 1 ∨ j = 4 ∨ 7 ≤ j.val → j ≠ k := by
    rintro j hj rfl
    rcases hk with rfl | rfl | rfl | rfl <;> revert hj <;> decide
  constructor
  · rw [Function.update_of_ne (hne 0 (by decide)), h.r0]
  · rw [Function.update_of_ne (hne 1 (by decide)), h.r1]
  · rw [Function.update_of_ne (hne 4 (by decide)), h.r4]
  · intro j hj
    rw [Function.update_of_ne (hne j (.inr (.inr (.inr hj)))), h.high j hj]

/-- A shift amount of the loops is its low byte. -/
lemma low_byte {w : Word} (h : w.toNat ≤ 32) : (w &&& 0xFF).toNat = w.toNat := by
  rw [BitVec.toNat_and, show (0xFF : Word).toNat = 2 ^ 8 - 1 from rfl,
    Nat.and_two_pow_sub_one_eq_mod]
  omega

/-- The operand the loop body computes. -/
lemma LoopRegs.operand (h : LoopRegs v r ρ) (set t : ℕ) :
    BitVec.ofNat 32 t <<< (ρ 1 &&& 0xFF).toNat ||| BitVec.ofNat 32 set <<< (ρ 0 &&& 0xFF).toNat
      = setWayOperand v set t := by
  have hline := lineField_lt v
  have hadd : (lineField v + 4).toNat = setShift v := by
    rw [BitVec.toNat_add, show (4 : Word).toNat = 4 from rfl, setShift]
    omega
  have hset := (setShift_bounds v).2
  have hset' : (lineField v + 4).toNat ≤ 32 := by omega
  rw [h.r1, h.r0, low_byte (wayShift_le v), low_byte hset', hadd]
  rfl

/-- One pass of the inner loop, from the label `2` to its branch. -/
lemma returns_pass (h : LoopRegs v r ρ) (h2 : ρ 2 = .ofNat 32 set) (h3 : ρ 3 = .ofNat 32 (t + 1))
    (ht : t < 2 ^ 10)
    (hnext : ∀ ρ' f', LoopRegs v r ρ' → ρ' 2 = .ofNat 32 set → ρ' 3 = .ofNat 32 t →
      Loop.Returns (cachePass ccsidr) (if 0 < t then 15 else 21,
        inLoop p ρ' f' (ops ++ [setWayOperand v set t])) res) :
    Loop.Returns (cachePass ccsidr) (15, inLoop p ρ f ops) res := by
  have hcount : ρ 3 - 1 = .ofNat 32 t := by
    rw [h3, BitVec.ofNat_add]
    exact BitVec.add_sub_cancel _ _
  have hgt : (flagsOfSub (ρ 3) 1).gt = decide (0 < t) := by
    have h31 : t + 1 < 2 ^ 31 := by omega
    rw [h3]
    exact (gt_flagsOfSub h31 (Nat.le_add_left 1 t)).trans (by simp)
  -- `subs`, the two shifts, `orr`, `mcr` and the branch
  let ρ₁ := Function.update ρ 3 (ρ 3 - 1)
  let ρ₂ := Function.update ρ₁ 5 (ρ₁ 3 <<< (ρ₁ 1 &&& 0xFF).toNat)
  let ρ₃ := Function.update ρ₂ 6 (ρ₂ 2 <<< (ρ₂ 0 &&& 0xFF).toNat)
  let ρ₄ := Function.update ρ₃ 5 (ρ₃ 5 ||| ρ₃ 6)
  let f' := flagsOfSub (ρ 3) 1
  have h₁ : cachePass ccsidr (15, inLoop p ρ f ops) = .again (16, inLoop p ρ₁ f' ops) := rfl
  have h₂ : cachePass ccsidr (16, inLoop p ρ₁ f' ops) = .again (17, inLoop p ρ₂ f' ops) := rfl
  have h₃ : cachePass ccsidr (17, inLoop p ρ₂ f' ops) = .again (18, inLoop p ρ₃ f' ops) := rfl
  have h₄ : cachePass ccsidr (18, inLoop p ρ₃ f' ops) = .again (19, inLoop p ρ₄ f' ops) := rfl
  have h₅ : cachePass ccsidr (19, inLoop p ρ₄ f' ops)
      = .again (20, inLoop p ρ₄ f' (ops ++ [ρ₄ 5])) := rfl
  have h₆ : cachePass ccsidr (20, inLoop p ρ₄ f' (ops ++ [ρ₄ 5]))
      = .again (if f'.gt then 15 else 21, inLoop p ρ₄ f' (ops ++ [ρ₄ 5])) := rfl
  have hop : ρ₄ 5 = setWayOperand v set t := by
    rw [← h.operand, ← hcount, ← h2]
    rfl
  have hregs : LoopRegs v r ρ₄ :=
    (((h.update (by decide) _).update (by decide) _).update (by decide) _).update (by decide) _
  have hloop := hnext ρ₄ f' hregs h2 hcount
  rw [← hop] at hloop
  have hbranch : (if f'.gt then 15 else 21) = if 0 < t then 15 else 21 := by
    rw [show f'.gt = decide (0 < t) from hgt]
    by_cases h0 : 0 < t <;> simp [h0]
  rw [hbranch] at h₆
  exact Loop.returns_of_again h₁ (Loop.returns_of_again h₂ (Loop.returns_of_again h₃
    (Loop.returns_of_again h₄ (Loop.returns_of_again h₅ (Loop.returns_of_again h₆ hloop)))))

/-- The operands for one set: its ways downwards. -/
def wayOperands (v : Word) (set ways : ℕ) : List Word :=
  (List.range ways).reverse.map (setWayOperand v set)

lemma wayOperands_succ (v : Word) (set t : ℕ) :
    wayOperands v set (t + 1) = setWayOperand v set t :: wayOperands v set t := by
  simp [wayOperands, List.range_succ]

/-- The inner loop goes through the ways from `t` down. -/
lemma returns_inner (h : LoopRegs v r ρ) (h2 : ρ 2 = .ofNat 32 set)
    (h3 : ρ 3 = .ofNat 32 (t + 1)) (ht : t < 2 ^ 10)
    (hnext : ∀ ρ' f', LoopRegs v r ρ' → ρ' 2 = .ofNat 32 set →
      Loop.Returns (cachePass ccsidr) (21, inLoop p ρ' f' (ops ++ wayOperands v set (t + 1))) res) :
    Loop.Returns (cachePass ccsidr) (15, inLoop p ρ f ops) res := by
  induction t generalizing ρ f ops with
  | zero =>
      refine returns_pass h h2 h3 ht fun ρ' f' hρ' h2' _ => ?_
      exact hnext ρ' f' hρ' h2'
  | succ t ih =>
      refine returns_pass h h2 h3 ht fun ρ' f' hρ' h2' h3' => ?_
      refine ih hρ' h2' h3' (by omega) fun ρ'' f'' hρ'' h2'' => ?_
      rw [List.append_assoc, List.singleton_append, ← wayOperands_succ]
      exact hnext ρ'' f'' hρ'' h2''

/-- The operands for the sets below `sets`, downwards. -/
def setOperands (v : Word) (sets : ℕ) : List Word :=
  (List.range sets).reverse.flatMap fun set => wayOperands v set (numWays v)

lemma setOperands_succ (v : Word) (n : ℕ) :
    setOperands v (n + 1) = wayOperands v n (numWays v) ++ setOperands v n := by
  simp [setOperands, List.range_succ]

/-- One pass of the outer loop, from the label `1` to its branch. -/
lemma returns_set (h : LoopRegs v r ρ) (h2 : ρ 2 = .ofNat 32 (set + 1)) (hset : set < 2 ^ 15)
    (hnext : ∀ ρ', LoopRegs v r ρ' → ρ' 2 = .ofNat 32 set →
      Loop.Returns (cachePass ccsidr) (if 0 < set then 13 else 23,
        inLoop p ρ' (flagsOfSub (.ofNat 32 set) 0) (ops ++ wayOperands v set (numWays v))) res) :
    Loop.Returns (cachePass ccsidr) (13, inLoop p ρ f ops) res := by
  have hcount : ρ 2 - 1 = .ofNat 32 set := by
    rw [h2, BitVec.ofNat_add]
    exact BitVec.add_sub_cancel _ _
  have hways : ρ 4 = .ofNat 32 ((waysField v).toNat + 1) := by
    rw [h.r4, BitVec.ofNat_add, BitVec.ofNat_toNat]
    rfl
  let ρ₁ := Function.update ρ 2 (ρ 2 - 1)
  let ρ₂ := Function.update ρ₁ 3 (ρ₁ 4)
  have h₁ : cachePass ccsidr (13, inLoop p ρ f ops) = .again (14, inLoop p ρ₁ f ops) := rfl
  have h₂ : cachePass ccsidr (14, inLoop p ρ₁ f ops) = .again (15, inLoop p ρ₂ f ops) := rfl
  have hregs : LoopRegs v r ρ₂ := (h.update (by decide) _).update (by decide) _
  refine Loop.returns_of_again h₁ (Loop.returns_of_again h₂ ?_)
  refine returns_inner hregs hcount hways (waysField_lt v) fun ρ' f' hρ' h2' => ?_
  -- `cmp` and the branch
  have h₃ : cachePass ccsidr (21, inLoop p ρ' f' (ops ++ wayOperands v set (numWays v)))
      = .again (22, inLoop p ρ' (flagsOfSub (.ofNat 32 set) 0)
        (ops ++ wayOperands v set (numWays v))) := by
    rw [← h2']
    rfl
  have hgt : (flagsOfSub (.ofNat 32 set) 0).gt = decide (0 < set) := by
    have h31 : set < 2 ^ 31 := by omega
    exact gt_flagsOfSub h31 (Nat.zero_le set)
  have hbranch : (if (flagsOfSub (.ofNat 32 set) 0).gt then 13 else 23)
      = if 0 < set then 13 else 23 := by
    rw [hgt]
    by_cases h0 : 0 < set <;> simp [h0]
  have hloop := hnext ρ' hρ' h2'
  rw [← hbranch] at hloop
  exact Loop.returns_of_again h₃ (Loop.returns_of_again rfl hloop)

/-- The outer loop goes through the sets from `set` down. -/
lemma returns_outer (h : LoopRegs v r ρ) (h2 : ρ 2 = .ofNat 32 (set + 1)) (hset : set < 2 ^ 15)
    (hnext : ∀ ρ', LoopRegs v r ρ' → Loop.Returns (cachePass ccsidr)
      (23, inLoop p ρ' (flagsOfSub 0 0) (ops ++ setOperands v (set + 1))) res) :
    Loop.Returns (cachePass ccsidr) (13, inLoop p ρ f ops) res := by
  induction set generalizing ρ f ops with
  | zero =>
      refine returns_set h h2 hset fun ρ' hρ' _ => ?_
      have hexit := hnext ρ' hρ'
      rwa [setOperands_succ, show setOperands v 0 = [] from rfl, List.append_nil] at hexit
  | succ set ih =>
      refine returns_set h h2 hset fun ρ' hρ' h2' => ?_
      refine ih hρ' h2' (by omega) fun ρ'' hρ'' => ?_
      rw [List.append_assoc, ← setOperands_succ]
      exact hnext ρ'' hρ''

end Loops

/-! ## The routine -/

/-- `{r0-r6}` -/
def lowRegs : List (Fin 13) := [0, 1, 2, 3, 4, 5, 6]

/-- The state after the routine. -/
def invalidated (ccsidr : Word → Word) (s : CacheCore) : CacheCore where
  m := { s.m with
    mem := storeWords s.m.mem (s.m.sp - 28) (lowRegs.map s.m.r)
    pc := s.m.lr }
  flags := flagsOfSub 0 0
  csselr := 0
  dcisw := s.dcisw ++ setOperands (ccsidr 0) (numSets (ccsidr 0))

section Routine

variable {ccsidr : Word → Word} {s : CacheCore}

/-- The state after the push and the selection of the cache. -/
def pushed (s : CacheCore) : CacheCore :=
  { s with
    m := { s.m.setSp (s.m.sp - 28) with
      mem := storeWords s.m.mem (s.m.sp - 28) (lowRegs.map s.m.r) }
    csselr := 0 }

/-- The end of the routine, from the first barrier on. -/
lemma returns_exit {ρ : Fin 13 → Word} {ops : List Word} {v : Word}
    (h : LoopRegs v s.m.r ρ) (hops : ops = setOperands (ccsidr 0) (numSets (ccsidr 0))) :
    Loop.Returns (cachePass ccsidr)
      (23, inLoop (pushed s) ρ (flagsOfSub 0 0) (s.dcisw ++ ops))
      (some (invalidated ccsidr s)) := by
  have hframe : loadWords (storeWords s.m.mem (s.m.sp - 28) (lowRegs.map s.m.r)) (s.m.sp - 28) 7
      = lowRegs.map s.m.r :=
    loadWords_storeWords _ _ (lowRegs.map s.m.r) (by simp [lowRegs])
  have hregs : setRegs ρ lowRegs (lowRegs.map s.m.r) = s.m.r := by
    funext k
    have hset := setRegs_map ρ s.m.r lowRegs [] k
    rw [List.append_nil] at hset
    rw [hset]
    split_ifs with hk
    · rfl
    · refine h.high k ?_
      have hall : ∀ j : Fin 13, j ∉ lowRegs → 7 ≤ j.val := by decide
      exact hall k hk
  let s₂ := inLoop (pushed s) ρ (flagsOfSub 0 0) (s.dcisw ++ ops)
  have hsp : s₂.m.sp = s.m.sp - 28 := Function.update_self _ _ _
  have hup : s₂.m.setSp (s₂.m.sp + 28) = { s₂.m with bankedSp := s.m.bankedSp } := by
    rw [Machine.setSp, hsp, BitVec.sub_add_cancel]
    congr 1
    exact (Function.update_idem _ _ _).trans (Function.update_eq_self _ _)
  have hpop : s₂.exec ccsidr (.pop lowRegs)
      = { s₂ with m := { s₂.m with r := s.m.r, bankedSp := s.m.bankedSp } } := by
    have hload : loadWords s₂.m.mem s₂.m.sp lowRegs.length = lowRegs.map s.m.r := by
      rw [hsp]
      exact hframe
    have hlen : BitVec.ofNat 32 (4 * lowRegs.length) = 28 := rfl
    have hr : s₂.m.r = ρ := rfl
    simp only [CacheCore.exec, hload, hlen, hup, hr, hregs]
  -- two barriers, `pop`, `bx lr`
  have h₁ : cachePass ccsidr (23, s₂) = .again (24, s₂) := rfl
  have h₂ : cachePass ccsidr (24, s₂) = .again (25, s₂) := rfl
  have h₃ : cachePass ccsidr (25, s₂) = .again (26, s₂.exec ccsidr (.pop lowRegs)) := rfl
  have h₄ : cachePass ccsidr (26, s₂.exec ccsidr (.pop lowRegs))
      = .leave (some (invalidated ccsidr s)) := by
    rw [hpop, invalidated, ← hops]
    rfl
  exact Loop.returns_of_again h₁ (Loop.returns_of_again h₂ (Loop.returns_of_again h₃
    (Loop.returns_of_leave h₄)))

/-- The registers at the label `1`. -/
def loopRegs (v : Word) (r : Fin 13 → Word) : Fin 13 → Word :=
  let r := Function.update (Function.update r 0 0) 0 v
  let r := Function.update r 1 0x7FFF
  let r := Function.update r 2 (setsField v)
  let r := Function.update r 1 0x3FF
  let r := Function.update r 3 (waysField v)
  let r := Function.update r 2 (setsField v + 1)
  let r := Function.update r 0 (lineField v)
  let r := Function.update r 0 (lineField v + 4)
  let r := Function.update r 1 (waysField v).clz
  Function.update r 4 (waysField v + 1)

lemma loopRegs_spec (v : Word) (r : Fin 13 → Word) : LoopRegs v r (loopRegs v r) := by
  refine ⟨rfl, rfl, rfl, fun k hk => ?_⟩
  have hne : ∀ j : Fin 13, j.val < 7 → k ≠ j := by
    rintro j hj rfl
    omega
  simp only [loopRegs, Function.update_of_ne (hne 0 (by decide)),
    Function.update_of_ne (hne 1 (by decide)), Function.update_of_ne (hne 2 (by decide)),
    Function.update_of_ne (hne 3 (by decide)), Function.update_of_ne (hne 4 (by decide))]

/-- The instructions before the label `1`. -/
lemma returns_entry {res : Option CacheCore}
    (hloop : Loop.Returns (cachePass ccsidr)
      (13, inLoop (pushed s) (loopRegs (ccsidr 0) s.m.r) s.flags s.dcisw) res) :
    Loop.Returns (cachePass ccsidr) (0, s) res := by
  let v := ccsidr 0
  let r₀ := Function.update s.m.r 0 0
  let r₁ := Function.update r₀ 0 v
  let r₂ := Function.update r₁ 1 0x7FFF
  let r₃ := Function.update r₂ 2 (setsField v)
  let r₄ := Function.update r₃ 1 0x3FF
  let r₅ := Function.update r₄ 3 (waysField v)
  let r₆ := Function.update r₅ 2 (setsField v + 1)
  let r₇ := Function.update r₆ 0 (lineField v)
  let r₈ := Function.update r₇ 0 (lineField v + 4)
  let r₉ := Function.update r₈ 1 (waysField v).clz
  let state := fun r => inLoop (pushed s) r s.flags s.dcisw
  have h₃ : Loop.Returns (cachePass ccsidr) (3, state r₀) res := by
    have h₃ : cachePass ccsidr (3, state r₀) = .again (4, state r₁) := rfl
    have h₄ : cachePass ccsidr (4, state r₁) = .again (5, state r₂) := rfl
    have h₅ : cachePass ccsidr (5, state r₂) = .again (6, state r₃) := rfl
    have h₆ : cachePass ccsidr (6, state r₃) = .again (7, state r₄) := rfl
    have h₇ : cachePass ccsidr (7, state r₄) = .again (8, state r₅) := rfl
    have h₈ : cachePass ccsidr (8, state r₅) = .again (9, state r₆) := rfl
    have h₉ : cachePass ccsidr (9, state r₆) = .again (10, state r₇) := rfl
    have h₁₀ : cachePass ccsidr (10, state r₇) = .again (11, state r₈) := rfl
    have h₁₁ : cachePass ccsidr (11, state r₈) = .again (12, state r₉) := rfl
    have h₁₂ : cachePass ccsidr (12, state r₉)
        = .again (13, state (loopRegs v s.m.r)) := rfl
    exact Loop.returns_of_again h₃ (Loop.returns_of_again h₄ (Loop.returns_of_again h₅
      (Loop.returns_of_again h₆ (Loop.returns_of_again h₇ (Loop.returns_of_again h₈
      (Loop.returns_of_again h₉ (Loop.returns_of_again h₁₀ (Loop.returns_of_again h₁₁
      (Loop.returns_of_again h₁₂ hloop)))))))))
  exact Loop.returns_of_again rfl (Loop.returns_of_again rfl (Loop.returns_of_again rfl h₃))

end Routine

/-! ## Coverage -/

/-- The sets and ways in the order of the routine. -/
def setWays (sets ways : ℕ) : List (ℕ × ℕ) :=
  (List.range sets).reverse ×ˢ (List.range ways).reverse

lemma nodup_setWays (sets ways : ℕ) : (setWays sets ways).Nodup :=
  (List.nodup_reverse.mpr List.nodup_range).product (List.nodup_reverse.mpr List.nodup_range)

lemma mem_setWays {sets ways set way : ℕ} :
    (set, way) ∈ setWays sets ways ↔ set < sets ∧ way < ways := by
  simp [setWays]

lemma setOperands_eq_map (v : Word) (sets : ℕ) :
    setOperands v sets
      = (setWays sets (numWays v)).map fun x => setWayOperand v x.1 x.2 := by
  have hproduct : setWays sets (numWays v) = (List.range sets).reverse.flatMap fun set =>
      (List.range (numWays v)).reverse.map (Prod.mk set) := rfl
  rw [hproduct, List.map_flatMap, setOperands]
  refine List.flatMap_congr fun set _ => ?_
  rw [List.map_map, wayOperands]
  rfl

/-- The routine returns and issues the set/way operation once for every set and way, at level 0
and, when the fields of the operand fit, with operands that differ.  Apart from the program
counter and the words of its frame below the stack pointer, the machine is as before. -/
theorem data_cache_covered (ccsidr : Word → Word) (s : CacheCore) :
    ∃ (s' : CacheCore) (pairs : List (ℕ × ℕ)),
      Loop.Returns (cachePass ccsidr) (0, s) (some s') ∧
      s'.dcisw = s.dcisw ++ pairs.map (fun x => setWayOperand (ccsidr 0) x.1 x.2) ∧
      pairs.Nodup ∧
      (∀ set way, (set, way) ∈ pairs ↔
        set < numSets (ccsidr 0) ∧ way < numWays (ccsidr 0)) ∧
      (∀ x ∈ pairs, setWayOperand (ccsidr 0) x.1 x.2 &&& 0xE = 0) ∧
      (FieldsFit (ccsidr 0) →
        (pairs.map fun x => setWayOperand (ccsidr 0) x.1 x.2).Nodup) ∧
      s'.csselr = 0 ∧
      s'.m = { s.m with
        mem := storeWords s.m.mem (s.m.sp - 28) (lowRegs.map s.m.r)
        pc := s.m.lr } := by
  let v := ccsidr 0
  have hentry : (loopRegs v s.m.r) 2 = .ofNat 32 ((setsField v).toNat + 1) := by
    rw [BitVec.ofNat_add, BitVec.ofNat_toNat]
    rfl
  refine ⟨invalidated ccsidr s, setWays (numSets v) (numWays v), ?_, ?_, nodup_setWays _ _,
    fun set way => mem_setWays, fun x _ => level_setWayOperand v x.1 x.2, fun hfit => ?_, rfl, rfl⟩
  · refine returns_entry (returns_outer (loopRegs_spec v s.m.r) hentry (setsField_lt v) ?_)
    exact fun ρ hρ => returns_exit hρ rfl
  · rw [← setOperands_eq_map]
    rfl
  · refine (nodup_setWays _ _).map_on fun x hx y hy heq => ?_
    obtain ⟨hs, hw⟩ := mem_setWays.mp hx
    obtain ⟨hs', hw'⟩ := mem_setWays.mp hy
    obtain ⟨hset, hway⟩ := setWayOperand_inj hfit hs hw hs' hw' heq
    exact Prod.ext hset hway

/-- The Cortex-A7's level 1 data cache: 128 sets, 4 ways, lines of 64 bytes. -/
example : FieldsFit 0x700FE01A := by
  unfold FieldsFit
  decide

end Arm

end Rpi2Baremetal
