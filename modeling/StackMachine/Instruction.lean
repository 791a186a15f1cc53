import StackMachine.Bytes
import StackMachine.Opcode
import StackMachine.Word

/-!
# Instruction — one operation with its operand

An instruction keeps its opcode as the raw byte: an unassigned byte is a fault when it is executed,
not an error when it is read. On disk an instruction is its opcode byte followed, exactly for the
operations that carry an operand, by a width byte and that many little-endian operand bytes.
-/

namespace StackMachine

/-- An opcode byte with its operand. -/
structure Instruction where
  opcode : UInt8
  operand : Word := 0
  deriving DecidableEq, Repr, Inhabited

namespace Instruction

def of (op : Opcode) (operand : Word) : Instruction := ⟨op.byte, operand⟩

/-- The written form, with the fewest operand bytes. -/
def encode (i : Instruction) : Bytes :=
  if Opcode.carriesOperand i.opcode then
    let operand := Bytes.fewestLE 8 i.operand.toNat
    i.opcode :: UInt8.ofNat operand.length :: operand
  else [i.opcode]

def text (i : Instruction) : String :=
  match Opcode.ofByte? i.opcode with
  | some op => if op.hasOperand then op.mnemonic ++ " " ++ toString i.operand else op.mnemonic
  | none => "<illegal " ++ Text.hex 2 i.opcode.toNat ++ ">"

end Instruction

end StackMachine
