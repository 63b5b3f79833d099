import Rpi2Baremetal.Framework.Loop
import Rpi2Baremetal.Model.Word

/-!
# The block allocator (`util.c`)

A `HEADER` is two words: the pointer `s.ptr` to the next block of a circular free list, and
the size `s.size` of the block in units of `HEAP_UNIT_SIZE`, the header included.  `malloc`
is the source's `_malloc` and `free` its `_free`, both with the free list and its start node
as arguments; `kmalloc` and `kfree` (`Model/Kernel.lean`) supply them from the
`SysStructInfo` in force.

The search loops of the two functions are `Framework.Loop` bodies, so each function takes a
bound on the number of passes and returns `none` when the bound is too small.

The pointer that `malloc` returns is `none` where the source returns `NULL` by name.  The source
cannot tell that from the address 0 of a block, which is one that has a header only and ends at
the end of the address space.  No C object does; below that end the two are the same
(`malloc_first_fit`).
-/

namespace Rpi2Baremetal

open Framework

/-- `HEAP_UNIT_SIZE`, that is `sizeof(HEADER)`. -/
def HEAP_UNIT_SIZE : Word := 8

/-- `p->s.ptr`. -/
def ptr (m : Mem) (p : Word) : Word := m p

/-- `p->s.size`. -/
def size (m : Mem) (p : Word) : Word := m (p + 4)

/-- `p->s.ptr = v`. -/
def setPtr (m : Mem) (p v : Word) : Mem := m.write p v

/-- `p->s.size = v`. -/
def setSize (m : Mem) (p v : Word) : Mem := m.write (p + 4) v

/-- Pointer arithmetic on `HEADER *`: the address of `p + k`. -/
def hdrAdd (p k : Word) : Word := p + k * HEAP_UNIT_SIZE

/-- The `nunits` a request of `nbytes` comes to, in 32-bit arithmetic. -/
def mallocUnits (nbytes : Word) : Word := (nbytes + HEAP_UNIT_SIZE - 1) / HEAP_UNIT_SIZE + 1

/-- One pass of the `for` loop of `_malloc`, over its variables `prevp` and `p`.  The loop
leaves with the updated memory and the pointer returned, `none` standing for `NULL`. -/
def mallocPass (m : Mem) (freep nunits : Word) :
    Word × Word → Pass (Word × Word) (Mem × Option Word)
  | (prevp, p) =>
      if nunits ≤ size m p then
        if size m p = nunits then
          .leave (setPtr m prevp (ptr m p), some (hdrAdd p 1))
        else
          -- the tail end: the block shrinks in place and the new header goes behind it
          let m := setSize m p (size m p - nunits)
          let q := hdrAdd p (size m p)
          let m := setSize m q nunits
          .leave (m, some (hdrAdd q 1))
      else if p = freep then .leave (m, none)
      else .again (p, ptr m p)

/-- `_malloc (base, freep, nbytes)`. -/
def malloc (fuel : ℕ) (m : Mem) (base freep nbytes : Word) : Option (Mem × Option Word) :=
  let nunits := mallocUnits nbytes
  if freep = NULL then
    let m := setSize (setPtr m base base) base 0
    Loop.run (mallocPass m base nunits) fuel (base, ptr m base)
  else
    Loop.run (mallocPass m freep nunits) fuel (freep, ptr m freep)

/-- One pass of the search loop of `_free`: leave at the node `prevp` after which the block
`p` goes. -/
def freePass (m : Mem) (p prevp : Word) : Pass Word Word :=
  if prevp < p ∧ p < ptr m prevp then .leave prevp
  else if ptr m prevp ≤ prevp ∧ (prevp < p ∨ p < ptr m prevp) then .leave prevp
  else .again (ptr m prevp)

/-- The first `if` of `_free`: link `p` to the successor of `prevp`, or merge it with that
successor when it begins where `p` ends. -/
def freeUpper (m : Mem) (p prevp : Word) : Mem :=
  if hdrAdd p (size m p) = ptr m prevp then
    let m := setSize m p (size m p + size m (ptr m prevp))
    setPtr m p (ptr m (ptr m prevp))
  else setPtr m p (ptr m prevp)

/-- The second `if` of `_free`: link `prevp` to `p`, or merge `p` into `prevp` when it begins
where `prevp` ends. -/
def freeLower (m : Mem) (p prevp : Word) : Mem :=
  if hdrAdd prevp (size m prevp) = p then
    let m := setSize m prevp (size m prevp + size m p)
    setPtr m prevp (ptr m p)
  else setPtr m prevp p

/-- `_free (freep, ap)`. -/
def free (fuel : ℕ) (m : Mem) (freep ap : Word) : Option Mem :=
  let p := ap - HEAP_UNIT_SIZE
  (Loop.run (freePass m p) fuel freep).map fun prevp => freeLower (freeUpper m p prevp) p prevp

end Rpi2Baremetal
