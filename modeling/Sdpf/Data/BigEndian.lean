import Mathlib.Algebra.Ring.Nat
import Mathlib.Data.List.Basic

/-!
# Big-endian numbers

Unsigned numbers of a fixed byte width in network order, and the fact that reading
back what was written recovers the number modulo the width.
-/

namespace Sdpf.Data

/-- The low `width` bytes of a number, most significant first. -/
def beBytes : Nat → Nat → List UInt8
  | 0, _ => []
  | width + 1, n => beBytes width (n / 256) ++ [UInt8.ofNat n]

/-- The number a sequence of bytes denotes in network order. -/
def beValue (bytes : List UInt8) : Nat := bytes.foldl (fun value byte => value * 256 + byte.toNat) 0

/-- A number of some width has as many bytes. -/
@[simp] theorem length_beBytes (width n : Nat) : (beBytes width n).length = width := by
  induction width generalizing n with
  | zero => rfl
  | succ width ih => simp [beBytes, ih]

/-- The last byte counts least. -/
@[simp] theorem beValue_concat (bytes : List UInt8) (byte : UInt8) :
    beValue (bytes ++ [byte]) = beValue bytes * 256 + byte.toNat := by
  simp [beValue, List.foldl_append]

/-- Only the low bytes of a number are written. -/
theorem beBytes_mod (width n : Nat) : beBytes width (n % 256 ^ width) = beBytes width n := by
  induction width generalizing n with
  | zero => rfl
  | succ width ih =>
      have low : UInt8.ofNat (n % 256 ^ (width + 1)) = UInt8.ofNat n := by
        apply UInt8.toNat_inj.mp
        rw [UInt8.toNat_ofNat', UInt8.toNat_ofNat', Nat.pow_succ]
        exact Nat.mod_mul_left_mod n (256 ^ width) 256
      rw [beBytes, low, Nat.pow_succ, Nat.mod_mul_left_div_self, ih, beBytes]

/-- A number of a fixed width survives the round trip. -/
theorem beValue_beBytes (width : Nat) {n : Nat} (fits : n < 256 ^ width) :
    beValue (beBytes width n) = n := by
  induction width generalizing n with
  | zero =>
      have zero : n = 0 := by simpa using fits
      subst zero
      rfl
  | succ width ih =>
      have high : n / 256 < 256 ^ width := by
        apply Nat.div_lt_of_lt_mul
        rw [Nat.mul_comm, ← Nat.pow_succ]
        exact fits
      rw [beBytes, beValue_concat, ih high, UInt8.toNat_ofNat']
      exact Nat.div_add_mod' n 256

end Sdpf.Data
