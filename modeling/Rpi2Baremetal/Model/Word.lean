import Rpi2Baremetal.Framework.Memory

/-!
# Words and RAM

The machine is a 32-bit ARM: addresses, registers and `uint32_t` are all `Word`.  RAM is read
and written one word at a time (`RAM.read32`, `RAM.write32`), so a `Mem` maps the byte
address of a word to the word stored there.
-/

namespace Rpi2Baremetal

open Framework

/-- `uint32_t`, and every pointer. -/
abbrev Word := BitVec 32

instance : @LawfulBEq Word instBEqOfDecidableEq := inferInstance

/-- RAM by word address. -/
abbrev Mem := Memory Word Word

/-- `NULL`. -/
def NULL : Word := 0

end Rpi2Baremetal
