import Mathlib.Algebra.Group.Nat.Defs
import StackMachine.Bytes

/-!
# Bytes — numbers and their little-endian forms

A number of a fixed width has exactly one written form of that width:

* `Bytes.toNatLE_ofNatLE` — reading what was written gives the number back, up to its width;
* `Bytes.ofNatLE_toNatLE` — writing what was read gives the bytes back;
* `Bytes.toNatLE_fewestLE` — the shortest form of a number denotes it;
* `Bytes.fewestLE_toNatLE_eq_iff` — a string is the shortest form of its number unless it ends with
  a zero byte.
-/

namespace StackMachine
namespace Bytes

/-! ## Reading and writing -/

/-- The number of some bytes is below the power of so many bytes. -/
theorem toNatLE_lt (bs : Bytes) : bs.toNatLE < 256 ^ bs.length := by
  induction bs with
  | nil => simp [toNatLE]
  | cons b bs ih =>
    have hb : b.toNat < 256 := b.toNat_lt
    rw [toNatLE, List.length_cons, Nat.pow_succ]
    omega

/-- At most eight bytes make a number that fits in a word. -/
theorem toNat_ofNat_toNatLE {bs : Bytes} (hwidth : bs.length ≤ 8) :
    (UInt64.ofNat bs.toNatLE).toNat = bs.toNatLE := by
  refine UInt64.toNat_ofNat_of_lt' ?_
  calc bs.toNatLE < 256 ^ bs.length := bs.toNatLE_lt
    _ ≤ 256 ^ 8 := Nat.pow_le_pow_right (by decide) hwidth

/-- The lowest byte of a number and the bytes above it. -/
theorem mod_pow_succ (width n : Nat) :
    n % 256 + 256 * (n / 256 % 256 ^ width) = n % 256 ^ (width + 1) := by
  rw [Nat.pow_succ, Nat.mul_comm (256 ^ width) 256, Nat.mod_mul]

/-- Of a number, as much is found again as fits in the bytes. -/
theorem toNatLE_ofNatLE (width n : Nat) : toNatLE (ofNatLE width n) = n % 256 ^ width := by
  induction width generalizing n with
  | zero => simp [ofNatLE, toNatLE, Nat.mod_one]
  | succ width ih =>
    have hbyte : (UInt8.ofNat n).toNat = n % 256 := UInt8.toNat_ofNat'
    rw [ofNatLE, toNatLE, ih, hbyte, mod_pow_succ]

/-- The lowest byte of the number that a string denotes is its first one. -/
theorem ofNat_toNatLE_cons (b : UInt8) (bs : Bytes) : UInt8.ofNat (toNatLE (b :: bs)) = b := by
  have hb : b.toNat < 256 := b.toNat_lt
  rw [← UInt8.toNat_inj, UInt8.toNat_ofNat', toNatLE]
  omega

theorem toNatLE_cons_div (b : UInt8) (bs : Bytes) : toNatLE (b :: bs) / 256 = toNatLE bs := by
  have hb : b.toNat < 256 := b.toNat_lt
  rw [toNatLE]
  omega

/-- Bytes are found again from their number and how many they are. -/
theorem ofNatLE_toNatLE (bs : Bytes) : ofNatLE bs.length bs.toNatLE = bs := by
  induction bs with
  | nil => rfl
  | cons b bs ih =>
    rw [List.length_cons, ofNatLE, ofNat_toNatLE_cons, toNatLE_cons_div, ih]

/-! ## Shortest forms -/

theorem length_fewestLE_le (width n : Nat) : (fewestLE width n).length ≤ width := by
  induction width generalizing n with
  | zero => simp [fewestLE]
  | succ width ih =>
    rw [fewestLE]
    split
    · simp
    · simpa using ih (n / 256)

/-- The fewest bytes hold what fits in the width. -/
theorem toNatLE_fewestLE (width n : Nat) : toNatLE (fewestLE width n) = n % 256 ^ width := by
  induction width generalizing n with
  | zero => simp [fewestLE, toNatLE, Nat.mod_one]
  | succ width ih =>
    rw [fewestLE]
    split
    next hzero => simp [hzero, toNatLE]
    next =>
      have hbyte : (UInt8.ofNat n).toNat = n % 256 := UInt8.toNat_ofNat'
      rw [toNatLE, ih, hbyte, mod_pow_succ]

/-- Reading and shortening a string goes byte by byte, until only zero bytes are left. -/
theorem fewestLE_toNatLE_cons (width : Nat) (b : UInt8) (bs : Bytes) :
    fewestLE (width + 1) (toNatLE (b :: bs)) =
      if toNatLE (b :: bs) = 0 then [] else b :: fewestLE width bs.toNatLE := by
  rw [fewestLE, ofNat_toNatLE_cons, toNatLE_cons_div]

/-- The fewest bytes of a number are never more than those that it was read from. -/
theorem length_fewestLE_toNatLE_le (width : Nat) (bs : Bytes) :
    (fewestLE width bs.toNatLE).length ≤ bs.length := by
  induction bs generalizing width with
  | nil =>
    cases width with
    | zero => exact Nat.le_refl 0
    | succ width => exact Nat.le_refl 0
  | cons b bs ih =>
    cases width with
    | zero => exact Nat.zero_le _
    | succ width =>
      rw [fewestLE_toNatLE_cons]
      split
      · exact Nat.zero_le _
      · exact Nat.succ_le_succ (ih width)

/-- The last of some bytes that stand for zero is zero. -/
theorem getLast?_of_toNatLE_eq_zero {bs : Bytes} (hzero : bs.toNatLE = 0) (hne : bs ≠ []) :
    bs.getLast? = some 0 := by
  induction bs with
  | nil => exact absurd rfl hne
  | cons b bs ih =>
    rw [toNatLE] at hzero
    have hb : b = 0 := UInt8.toNat_inj.1 (Nat.eq_zero_of_add_eq_zero_right hzero)
    have hrest : toNatLE bs = 0 := by omega
    cases bs with
    | nil =>
      rw [hb]
      rfl
    | cons c bs =>
      rw [List.getLast?_cons_cons]
      exact ih hrest (List.cons_ne_nil c bs)

/-- A string is the shortest form of its number unless its most significant byte is zero. -/
theorem fewestLE_toNatLE_eq_iff {width : Nat} {bs : Bytes} (hwidth : bs.length ≤ width) :
    fewestLE width bs.toNatLE = bs ↔ bs.getLast? ≠ some 0 := by
  induction bs generalizing width with
  | nil =>
    cases width with
    | zero => simp [fewestLE]
    | succ width => simp [fewestLE, toNatLE]
  | cons b bs ih =>
    cases width with
    | zero => exact absurd hwidth (Nat.not_succ_le_zero _)
    | succ width =>
      have hrest := ih (Nat.le_of_succ_le_succ hwidth)
      rw [fewestLE_toNatLE_cons]
      by_cases hzero : toNatLE (b :: bs) = 0
      · have hlast := getLast?_of_toNatLE_eq_zero hzero (List.cons_ne_nil b bs)
        simp [hzero, hlast]
      · rw [if_neg hzero]
        cases bs with
        | nil =>
          -- the only byte is the most significant one, and the number is not zero
          have hb : b ≠ 0 := by
            rintro rfl
            exact hzero rfl
          have hempty : fewestLE width (toNatLE []) = [] := hrest.2 (by simp)
          rw [hempty]
          simp [hb]
        | cons c bs =>
          rw [List.getLast?_cons_cons, ← hrest]
          simp

end Bytes
end StackMachine
