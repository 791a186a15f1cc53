import StackMachine.Word

/-!
# Float64 — remainders of floating-point words

Binary64 numbers are whole multiples of `2 ^ -1074`. `Float64.magnitude` gives the multiple, so
that the remainder of a division is the remainder of two natural numbers and is exact.

* `Float64.truncatedRemainder x y` — `x - n * y` with `n` the quotient cut toward zero;
* `Float64.nearestRemainder x y` — `x - n * y` with `n` the integer nearest the quotient, ties to
  even, where the parity of `n` is judged on the rounded quotient.
-/

namespace StackMachine
namespace Float64

def sign (w : Word) : Word := w &&& 0x8000000000000000

/-- The word with its sign bit flipped: the negated float, for a NaN too. -/
def negate (w : Word) : Word := w ^^^ 0x8000000000000000

def exponent (w : Word) : Nat := (w.toNat >>> 52) % 2048

def fraction (w : Word) : Nat := w.toNat % (1 <<< 52)

def isNaN (w : Word) : Bool := exponent w == 2047 && fraction w != 0

def isInfinite (w : Word) : Bool := exponent w == 2047 && fraction w == 0

/-- The absolute value of a finite float, in units of `2 ^ -1074`. -/
def magnitude (w : Word) : Nat :=
  match exponent w with
  | 0 => fraction w
  | e + 1 => ((1 <<< 52) + fraction w) <<< e

/-- The float of `n` units of `2 ^ -1074`, for an `n` of at most 53 significant bits. -/
def ofMagnitude (n : Nat) : Word :=
  let shift := n.log2 - 52
  UInt64.ofNat ((n >>> shift) + (shift <<< 52))

/-- The NaN that arithmetic yields. -/
def notANumber : Word := 0x7ff8000000000000

/-- The remainder with the sign of `x` and a magnitude below that of `y`. -/
def truncatedRemainder (x y : Word) : Word :=
  if isNaN x || isNaN y || isInfinite x || magnitude y == 0 then notANumber
  else if isInfinite y then x
  else sign x ||| ofMagnitude (magnitude x % magnitude y)

/-- Whether a float is an even integer; an infinity or a NaN is not. -/
def isEven (w : Word) : Bool :=
  !isNaN w && !isInfinite w && magnitude w % (1 <<< 1075) == 0

/-- The remainder of least magnitude; a tie goes to the even quotient. -/
def nearestRemainder (x y : Word) : Word :=
  let r := truncatedRemainder x y
  let size := (Word.float y).abs
  let half := size / 2
  let excess := (Word.float r).abs
  if excess > half ||
      (excess == half && !isEven (Word.ofFloat ((Word.float x - Word.float r) / Word.float y))) then
    Word.ofFloat (if sign r == 0 then Word.float r - size else Word.float r + size)
  else r

end Float64
end StackMachine
