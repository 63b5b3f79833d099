import Rpi2Baremetal.Model.Memcpy
import Mathlib.Tactic

/-!
# What `memcpy` does to regions that overlap

Where the destination begins inside the source, the copy reads bytes that it has written itself, and
repeats the bytes from the source up to the destination.  `memcpy_apply` says which byte is where,
for any two regions.
-/

namespace Rpi2Baremetal

open Framework

variable (m : ByteMem) (dst src : Word)

/-- The last byte is copied last. -/
lemma memcpyLoop_succ (k : ℕ) :
    memcpyLoop (k + 1) dst src m =
      (memcpyLoop k dst src m).write (dst + .ofNat 32 k)
        (memcpyLoop k dst src m (src + .ofNat 32 k)) := by
  induction k generalizing m dst src with
  | zero => simp [memcpyLoop]
  | succ k ih =>
      have hshift : ∀ p : Word, p + 1 + .ofNat 32 k = p + .ofNat 32 (k + 1) := fun p => by
        rw [BitVec.ofNat_add, BitVec.add_assoc, BitVec.add_comm 1]
        rfl
      rw [memcpyLoop, ih, hshift, hshift]
      rfl

lemma add_ofNat_inj {p : Word} {i j : ℕ} (hi : i < 2 ^ 32) (hj : j < 2 ^ 32) :
    p + .ofNat 32 i = p + .ofNat 32 j ↔ i = j := by
  rw [BitVec.add_right_inj]
  refine ⟨fun h => ?_, congrArg _⟩
  have htoNat := congrArg BitVec.toNat h
  rwa [BitVec.toNat_ofNat, BitVec.toNat_ofNat, Nat.mod_eq_of_lt hi, Nat.mod_eq_of_lt hj] at htoNat

/-- The destination, from the source. -/
lemma src_add_sub (i : ℕ) :
    dst + .ofNat 32 i = src + .ofNat 32 ((dst - src).toNat + i) := by
  rw [BitVec.ofNat_add, BitVec.ofNat_toNat, BitVec.setWidth_eq, ← BitVec.add_assoc]
  congr 1
  rw [BitVec.add_comm, BitVec.sub_add_cancel]

/-- What has been copied after `k` bytes. -/
structure Copied (k : ℕ) (m' : ByteMem) : Prop where
  copied : ∀ i < k, m' (dst + .ofNat 32 i) = m (src + .ofNat 32 (i % (dst - src).toNat))
  other : ∀ a, (∀ i < k, a ≠ dst + .ofNat 32 i) → m' a = m a

lemma copied_memcpyLoop (k : ℕ) (hk : k ≤ 2 ^ 32) :
    Copied m dst src k (memcpyLoop k dst src m) := by
  induction k with
  | zero => exact ⟨fun i hi => absurd hi (Nat.not_lt_zero i), fun a _ => rfl⟩
  | succ k ih =>
      have hcopied := ih (by omega)
      have hlt := (dst - src).isLt
      -- what is read for the byte: one that has been copied, or one of the source as it was
      have hread : memcpyLoop k dst src m (src + .ofNat 32 k)
          = m (src + .ofNat 32 (k % (dst - src).toNat)) := by
        by_cases hback : 0 < (dst - src).toNat ∧ (dst - src).toNat ≤ k
        · obtain ⟨j, hj⟩ := Nat.exists_eq_add_of_le hback.2
          have hsame : src + .ofNat 32 k = dst + .ofNat 32 j := by
            rw [src_add_sub dst src j, ← hj]
          rw [hsame, hcopied.copied j (by omega), hj, Nat.add_mod_left]
        · have hmod : k % (dst - src).toNat = k := by
            rcases Nat.eq_zero_or_pos (dst - src).toNat with hzero | hpos
            · rw [hzero, Nat.mod_zero]
            · exact Nat.mod_eq_of_lt (by omega)
          rw [hmod]
          refine hcopied.other _ fun i hi heq => ?_
          rw [src_add_sub dst src i, BitVec.add_right_inj] at heq
          have htoNat := congrArg BitVec.toNat heq
          rw [BitVec.toNat_ofNat, BitVec.toNat_ofNat] at htoNat
          omega
      rw [memcpyLoop_succ]
      refine ⟨fun i hi => ?_, fun a ha => ?_⟩
      · rcases Nat.lt_succ_iff_lt_or_eq.mp hi with hlt' | rfl
        · rw [Memory.write_of_ne, hcopied.copied i hlt']
          rw [Ne, add_ofNat_inj (by omega) (by omega)]
          omega
        · rw [Memory.write_same, hread]
      · rw [Memory.write_of_ne _ _ (ha k (Nat.lt_succ_self k))]
        exact hcopied.other a fun i hi => ha i (by omega)

/-- **Overlapping regions.**  For any regions, whatever they hold: each byte of the destination
comes from the source as it was, from the offset modulo the distance from the source up to the
destination, and no other byte changes.  So the destination is a copy of the source for every
content exactly when it does not begin inside it. -/
theorem memcpy_overlap (n : Word) :
    (∀ i < n.toNat, (memcpy m dst src n).1 (dst + .ofNat 32 i)
        = m (src + .ofNat 32 (i % (dst - src).toNat))) ∧
      (∀ a, (∀ i < n.toNat, a ≠ dst + .ofNat 32 i) → (memcpy m dst src n).1 a = m a) ∧
      ((∀ m' i, i < n.toNat →
          (memcpy m' dst src n).1 (dst + .ofNat 32 i) = m' (src + .ofNat 32 i)) ↔
        dst = src ∨ n ≤ dst - src) := by
  have hn := n.isLt
  have hcopied : ∀ m, Copied m dst src n.toNat (memcpy m dst src n).1 := fun m =>
    copied_memcpyLoop m dst src n.toNat hn.le
  refine ⟨(hcopied m).copied, (hcopied m).other, fun hcopy => ?_, fun hapart m' i hi => ?_⟩
  · by_contra hoverlap
    obtain ⟨hne, hlt⟩ := not_or.mp hoverlap
    rw [BitVec.not_le, BitVec.lt_def] at hlt
    -- the byte at the distance is the first byte of the source again
    have hat := hcopy (Function.update (fun _ => 0) src 1) (dst - src).toNat hlt
    rw [(hcopied _).copied _ hlt, Nat.mod_self, BitVec.ofNat_toNat, BitVec.setWidth_eq] at hat
    have hfirst : src + .ofNat 32 0 = src := BitVec.add_zero src
    have hlast : src + (dst - src) = dst := by rw [BitVec.add_comm, BitVec.sub_add_cancel]
    rw [hfirst, hlast, Function.update_self, Function.update_of_ne hne] at hat
    exact absurd hat (by decide)
  · rw [(hcopied m').copied i hi]
    have hmod : i % (dst - src).toNat = i := by
      rcases hapart with rfl | hle
      · rw [BitVec.sub_self, BitVec.toNat_zero, Nat.mod_zero]
      · exact Nat.mod_eq_of_lt (hi.trans_le (BitVec.le_def.mp hle))
    rw [hmod]

end Rpi2Baremetal
