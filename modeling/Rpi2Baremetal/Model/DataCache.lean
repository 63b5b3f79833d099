import Rpi2Baremetal.Framework.Loop
import Rpi2Baremetal.Model.Arm

/-!
# Invalidating the data cache (`boot.s`)

The instructions of `invalidate_data_cache_l10_only` with the condition flags its two branches
read, and the routine as code over them.  What reaches the cache is the list of operands of the
set/way operation `DCISW`, in the order in which they were issued.
-/

namespace Rpi2Baremetal

open Framework

namespace Arm

/-- The `N`, `Z` and `V` flags; nothing here reads `C`. -/
structure Flags where
  n : Bool
  z : Bool
  v : Bool
  deriving DecidableEq

/-- The flags of `a - b`. -/
def flagsOfSub (a b : Word) : Flags where
  n := (a - b).msb
  z := a - b = 0
  v := a.msb != b.msb && (a - b).msb != a.msb

/-- The condition `gt`. -/
def Flags.gt (f : Flags) : Bool := !f.z && f.n == f.v

/-- The second operand of a data-processing instruction. -/
inductive Operand where
  | imm (v : Word)
  | reg (rm : Fin 13)
  /-- `rm, lsl rs`: the amount is the low byte of `rs`. -/
  | lslReg (rm rs : Fin 13)
  /-- `rm, lsr #n` -/
  | lsrImm (rm : Fin 13) (n : ℕ)

def Operand.eval (r : Fin 13 → Word) : Operand → Word
  | imm v => v
  | reg rm => r rm
  | lslReg rm rs => r rm <<< (r rs &&& 0xFF).toNat
  | lsrImm rm n => r rm >>> n

/-- The instructions of the routine. -/
inductive CacheInstr where
  | push (rs : List (Fin 13))
  | pop (rs : List (Fin 13))
  | mov (rd : Fin 13) (op : Operand)
  | and (rd rn : Fin 13) (op : Operand)
  | orr (rd rn : Fin 13) (op : Operand)
  | add (rd rn : Fin 13) (op : Operand)
  | sub (rd rn : Fin 13) (op : Operand)
  | subs (rd rn : Fin 13) (op : Operand)
  | cmp (rn : Fin 13) (op : Operand)
  | clz (rd rm : Fin 13)
  /-- `mcr p15,2,rt,c0,c0,0` -/
  | mcrCsselr (rt : Fin 13)
  /-- `mrc p15,1,rt,c0,c0,0` -/
  | mrcCcsidr (rt : Fin 13)
  /-- `mcr p15,0,rt,c7,c6,2` -/
  | mcrDcisw (rt : Fin 13)
  /-- `bgt`, to the instruction with this number -/
  | bgt (target : ℕ)
  /-- `dsb` and `isb` -/
  | barrier
  | bxLr

structure CacheCore where
  m : Machine
  flags : Flags
  csselr : Word
  /-- The operands of the set/way operations, in order. -/
  dcisw : List Word

namespace CacheCore

def setReg (s : CacheCore) (rd : Fin 13) (v : Word) : CacheCore :=
  { s with m := { s.m with r := Function.update s.m.r rd v } }

/-- An instruction other than a branch; `ccsidr` is the cache size register by `CSSELR`. -/
def exec (ccsidr : Word → Word) (s : CacheCore) : CacheInstr → CacheCore
  | .push rs =>
      let sp := s.m.sp - .ofNat 32 (4 * rs.length)
      { s with m := { s.m.setSp sp with mem := storeWords s.m.mem sp (rs.map s.m.r) } }
  | .pop rs =>
      let ws := loadWords s.m.mem s.m.sp rs.length
      { s with m := { s.m.setSp (s.m.sp + .ofNat 32 (4 * rs.length)) with
        r := setRegs s.m.r rs ws } }
  | .mov rd op => s.setReg rd (op.eval s.m.r)
  | .and rd rn op => s.setReg rd (s.m.r rn &&& op.eval s.m.r)
  | .orr rd rn op => s.setReg rd (s.m.r rn ||| op.eval s.m.r)
  | .add rd rn op => s.setReg rd (s.m.r rn + op.eval s.m.r)
  | .sub rd rn op => s.setReg rd (s.m.r rn - op.eval s.m.r)
  | .subs rd rn op =>
      { s.setReg rd (s.m.r rn - op.eval s.m.r) with
        flags := flagsOfSub (s.m.r rn) (op.eval s.m.r) }
  | .cmp rn op => { s with flags := flagsOfSub (s.m.r rn) (op.eval s.m.r) }
  | .clz rd rm => s.setReg rd (s.m.r rm).clz
  | .mcrCsselr rt => { s with csselr := s.m.r rt }
  | .mrcCcsidr rt => s.setReg rt (ccsidr s.csselr)
  | .mcrDcisw rt => { s with dcisw := s.dcisw ++ [s.m.r rt] }
  | .bgt _ | .barrier => s
  | .bxLr => { s with m := { s.m with pc := s.m.lr } }

end CacheCore

/-- `invalidate_data_cache_l10_only`. -/
def invalidateDataCacheL10Only : List CacheInstr :=
  [.push [0, 1, 2, 3, 4, 5, 6],
   .mov 0 (.imm 0),
   .mcrCsselr 0,
   .mrcCcsidr 0,
   .mov 1 (.imm 0x7FFF),
   .and 2 1 (.lsrImm 0 13),
   .mov 1 (.imm 0x3FF),
   .and 3 1 (.lsrImm 0 3),
   .add 2 2 (.imm 1),
   .and 0 0 (.imm 0x7),
   .add 0 0 (.imm 4),
   .clz 1 3,
   .add 4 3 (.imm 1),
   -- 13, the label `1`
   .sub 2 2 (.imm 1),
   .mov 3 (.reg 4),
   -- 15, the label `2`
   .subs 3 3 (.imm 1),
   .mov 5 (.lslReg 3 1),
   .mov 6 (.lslReg 2 0),
   .orr 5 5 (.reg 6),
   .mcrDcisw 5,
   .bgt 15,
   .cmp 2 (.imm 0),
   .bgt 13,
   .barrier,
   .barrier,
   .pop [0, 1, 2, 3, 4, 5, 6],
   .bxLr]

/-- One instruction of the routine, by its number.  It leaves at `bx lr`, and with `none` where
there is no code. -/
def cachePass (ccsidr : Word → Word) :
    ℕ × CacheCore → Pass (ℕ × CacheCore) (Option CacheCore)
  | (k, s) =>
      match invalidateDataCacheL10Only[k]? with
      | none => .leave none
      | some .bxLr => .leave (some (s.exec ccsidr .bxLr))
      | some (.bgt target) => .again (if s.flags.gt then target else k + 1, s)
      | some i => .again (k + 1, s.exec ccsidr i)

end Arm

end Rpi2Baremetal
