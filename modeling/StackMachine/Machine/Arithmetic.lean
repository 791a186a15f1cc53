import StackMachine.Float64
import StackMachine.Opcode

/-!
# Arithmetic — what the word operations compute

Integer arithmetic wraps around. Division cuts toward zero and takes the sign of a remainder from
the dividend. Shifts use the low six bits of their amount. Conversions of floats to integers cut
toward zero and stop at the ends of the integer range; a NaN gives zero.
-/

namespace StackMachine

def BinaryOp.eval (op : BinaryOp) (a b : Word) : Word :=
  match op with
  | .add .signed => Word.ofSigned (Word.signed a + Word.signed b)
  | .add .float => Word.ofFloat (Word.float a + Word.float b)
  | .add .unsigned => a + b
  | .sub .signed => Word.ofSigned (Word.signed a - Word.signed b)
  | .sub .float => Word.ofFloat (Word.float a - Word.float b)
  | .sub .unsigned => a - b
  | .mul .signed => Word.ofSigned (Word.signed a * Word.signed b)
  | .mul .float => Word.ofFloat (Word.float a * Word.float b)
  | .mul .unsigned => a * b
  | .less .signed => Word.ofBool (Word.signed a < Word.signed b)
  | .less .float => Word.ofBool (Word.float a < Word.float b)
  | .less .unsigned => Word.ofBool (a < b)
  | .lessEqual .signed => Word.ofBool (Word.signed a ≤ Word.signed b)
  | .lessEqual .float => Word.ofBool (Word.float a ≤ Word.float b)
  | .lessEqual .unsigned => Word.ofBool (a ≤ b)
  | .greater .signed => Word.ofBool (Word.signed a > Word.signed b)
  | .greater .float => Word.ofBool (Word.float a > Word.float b)
  | .greater .unsigned => Word.ofBool (a > b)
  | .greaterEquals .signed => Word.ofBool (Word.signed a ≥ Word.signed b)
  | .greaterEquals .float => Word.ofBool (Word.float a ≥ Word.float b)
  | .greaterEquals .unsigned => Word.ofBool (a ≥ b)
  | .eq => Word.ofBool (a == b)
  | .neq => Word.ofBool (a != b)
  | .and => a &&& b
  | .or => a ||| b
  | .xor => a ^^^ b
  | .lshift => a <<< (b % 64)
  | .rshift => a >>> (b % 64)

/-- Whether a divisor is zero for a division. A float is zero with either sign. -/
def DivisionOp.refuses (op : DivisionOp) (b : Word) : Bool :=
  match op with
  | .div .float | .mod .float => Word.float b == 0.0
  | _ => Word.isZero b

/-- The value of a division by a divisor that is not refused. -/
def DivisionOp.eval (op : DivisionOp) (a b : Word) : Word :=
  match op with
  | .div .signed => Word.ofSigned (Word.signed a / Word.signed b)
  | .div .float => Word.ofFloat (Word.float a / Word.float b)
  | .div .unsigned => a / b
  | .mod .signed => Word.ofSigned (Word.signed a % Word.signed b)
  | .mod .float => Float64.nearestRemainder a b
  | .mod .unsigned => a % b

def UnaryOp.eval (op : UnaryOp) (a : Word) : Word :=
  match op with
  | .neg .signed => Word.ofSigned (-Word.signed a)
  | .neg .float => Float64.negate a
  | .neg .unsigned => -a
  | .not => Word.ofBool (Word.isZero a)
  | .ones => ~~~a
  | .signedToUnsigned | .unsignedToSigned => a
  | .signedToFloat => Word.ofFloat (Word.signed a).toFloat
  | .floatToSigned => Word.ofSigned (Word.float a).toInt64
  | .floatToUnsigned => (Word.float a).toUInt64
  | .unsignedToFloat => Word.ofFloat a.toFloat

end StackMachine
