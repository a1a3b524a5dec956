/-
  Little-endian numbers in a fixed number of bytes, and slices of byte strings.
-/
import Mathlib.Algebra.Group.Nat.Defs
import Mathlib.Data.List.Basic

namespace GoudaMatrix.Lib

/-! ## Little-endian numbers -/

/-- The lowest `width` bytes of the number, the lowest first. -/
def toLeBytes : (width : Nat) → Nat → List UInt8
  | 0, _ => []
  | width + 1, n => UInt8.ofNat n :: toLeBytes width (n / 256)

def fromLeBytes : List UInt8 → Nat
  | [] => 0
  | byte :: bytes => byte.toNat + 256 * fromLeBytes bytes

@[simp] theorem length_toLeBytes (width n : Nat) : (toLeBytes width n).length = width := by
  induction width generalizing n with
  | zero => rfl
  | succ width ih => rw [toLeBytes, List.length_cons, ih]

theorem fromLeBytes_toLeBytes (width : Nat) {n : Nat} (h : n < 256 ^ width) :
    fromLeBytes (toLeBytes width n) = n := by
  induction width generalizing n with
  | zero =>
    rw [Nat.pow_zero] at h
    rw [Nat.lt_one_iff.mp h]
    rfl
  | succ width ih =>
    have hdiv : n / 256 < 256 ^ width := by
      rw [Nat.pow_succ, Nat.mul_comm] at h
      exact Nat.div_lt_of_lt_mul h
    have hbyte : (UInt8.ofNat n).toNat = n % 256 := rfl
    rw [toLeBytes, fromLeBytes, ih hdiv, hbyte]
    omega

/-! ## Slices -/

section Slices

variable {α : Type}

/-- `&xs[..n]`, which panics beyond the end. -/
def sliceTo (xs : List α) (n : Nat) : Option (List α) :=
  if n ≤ xs.length then some (xs.take n) else none

/-- `&xs[n..]`, which panics beyond the end. -/
def sliceFrom (xs : List α) (n : Nat) : Option (List α) :=
  if n ≤ xs.length then some (xs.drop n) else none

theorem sliceTo_append {xs : List α} {n : Nat} (h : xs.length = n) (ys : List α) :
    sliceTo (xs ++ ys) n = some xs := by
  have hle : n ≤ (xs ++ ys).length := by rw [List.length_append]; omega
  rw [sliceTo, if_pos hle, ← h, List.take_left]

theorem sliceFrom_append {xs : List α} {n : Nat} (h : xs.length = n) (ys : List α) :
    sliceFrom (xs ++ ys) n = some ys := by
  have hle : n ≤ (xs ++ ys).length := by rw [List.length_append]; omega
  rw [sliceFrom, if_pos hle, ← h, List.drop_left]

end Slices

end GoudaMatrix.Lib
