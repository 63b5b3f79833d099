import Rpi2Baremetal.Framework.Memory
import Rpi2Baremetal.Model.Word

/-!
# Copying bytes (`memcpy` in `util.c`)

The copy goes upwards, one byte at a time, and a byte is read after the bytes below it have been
written.
-/

namespace Rpi2Baremetal

open Framework

/-- A memory of bytes. -/
abbrev ByteMem : Type := Memory Word (BitVec 8)

/-- `while (n--) *p1++ = *p2++`. -/
def memcpyLoop : ℕ → Word → Word → ByteMem → ByteMem
  | 0, _, _, m => m
  | n + 1, p1, p2, m => memcpyLoop n (p1 + 1) (p2 + 1) (m.write p1 (m p2))

/-- `memcpy`, with the memory it leaves and the pointer it returns. -/
def memcpy (m : ByteMem) (dst src n : Word) : ByteMem × Word :=
  (memcpyLoop n.toNat dst src m, dst)

end Rpi2Baremetal
