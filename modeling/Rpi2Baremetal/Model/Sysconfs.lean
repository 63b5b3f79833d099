import Rpi2Baremetal.Model.Word

/-!
# The memory and ASID areas of `sysconfs.c`

Entries 0 to 3 configure the AMP kernel of each core, entries 4 to 6 the SMP kernel of four,
three and two cores.
-/

namespace Rpi2Baremetal

/-- `ram_area_t`, `heap_area_t` and `asid_area_t`: the first and the last address of a RAM or
heap area, the first ASID and the one after the last of an ASID area. -/
structure Area where
  bottom : Word
  limit : Word
  deriving DecidableEq

abbrev NUM_CPU : ℕ := 4

instance : NeZero NUM_CPU := ⟨by decide⟩

abbrev NUM_ASID : ℕ := 256
abbrev ASID_SIZE : ℕ := NUM_ASID / NUM_CPU

/-- The number of `SysStructInfo` entries, `2 * NUM_CPU - 1`. -/
abbrev NUM_SYS_STRUCT : ℕ := 2 * NUM_CPU - 1

instance : NeZero NUM_SYS_STRUCT := ⟨by decide⟩

/-- `kram_areas`. -/
def kramAreas : Fin NUM_SYS_STRUCT → Area :=
  ![⟨0x1F000000, 0x1FFFFFFF⟩,
    ⟨0x27000000, 0x27FFFFFF⟩,
    ⟨0x2F000000, 0x2FFFFFFF⟩,
    ⟨0x37000000, 0x37FFFFFF⟩,
    ⟨0x1F000000, 0x21FFFFFF⟩,
    ⟨0x1F000000, 0x21FFFFFF⟩,
    ⟨0x1F000000, 0x21FFFFFF⟩]

/-- `kheap_areas`. -/
def kheapAreas : Fin NUM_SYS_STRUCT → Area :=
  ![⟨0x20000000, 0x20FFFFFF⟩,
    ⟨0x28000000, 0x28FFFFFF⟩,
    ⟨0x30000000, 0x30FFFFFF⟩,
    ⟨0x38000000, 0x38FFFFFF⟩,
    ⟨0x22000000, 0x23FFFFFF⟩,
    ⟨0x22000000, 0x23FFFFFF⟩,
    ⟨0x22000000, 0x23FFFFFF⟩]

/-- `uram_areas`. -/
def uramAreas : Fin NUM_SYS_STRUCT → Area :=
  ![⟨0x21000000, 0x26FFFFFF⟩,
    ⟨0x29000000, 0x2EFFFFFF⟩,
    ⟨0x31000000, 0x36FFFFFF⟩,
    ⟨0x39000000, 0x3EFFFFFF⟩,
    ⟨0x24000000, 0x3EFFFFFF⟩,
    ⟨0x24000000, 0x36FFFFFF⟩,
    ⟨0x24000000, 0x2EFFFFFF⟩]

/-- `asid_areas`, from `ASID_SIZE * i` to `ASID_SIZE * j`. -/
def asidAreas : Fin NUM_SYS_STRUCT → Area :=
  let area (i j : ℕ) : Area := ⟨.ofNat 32 (ASID_SIZE * i), .ofNat 32 (ASID_SIZE * j)⟩
  ![area 0 1, area 1 2, area 2 3, area 3 4, area 0 4, area 0 3, area 0 2]

/-- The addresses of a RAM or heap area, its limit included. -/
def Area.Contains (a : Area) (va : Word) : Prop := a.bottom ≤ va ∧ va ≤ a.limit

instance (a : Area) (va : Word) : Decidable (a.Contains va) := by
  unfold Area.Contains; infer_instance

end Rpi2Baremetal
