/-!
# Opcode — the instruction set

The instruction set has sixty-seven operations, each with an opcode byte, a mnemonic and, for some,
a named operand. Operations of one shape are grouped: `BinaryOp` takes two words to one and never
fails, `DivisionOp` does the same and refuses a zero divisor, `UnaryOp` takes one word to one.

* `Opcode.slots` — the table from bytes to operations; byte `0x30` is unassigned;
* `Opcode.byte`, `Opcode.ofByte?` — the two directions of the table;
* `Opcode.mnemonic`, `Opcode.ofMnemonic?` — the names used in listings.
-/

namespace StackMachine

/-! ## Operations of one shape -/

/-- How an operation reads its words. -/
inductive Reading where
  | signed
  | float
  | unsigned
  deriving DecidableEq, Repr

/-- The letter that marks a reading in a mnemonic. -/
def Reading.letter : Reading → String
  | .signed => "I"
  | .float => "F"
  | .unsigned => "U"

/-- Operations from two words to one. -/
inductive BinaryOp where
  | add (r : Reading)
  | sub (r : Reading)
  | mul (r : Reading)
  | less (r : Reading)
  | lessEqual (r : Reading)
  | greater (r : Reading)
  | greaterEquals (r : Reading)
  | eq
  | neq
  | and
  | or
  | xor
  | lshift
  | rshift
  deriving DecidableEq, Repr

/-- Operations from two words to one that refuse a zero divisor. -/
inductive DivisionOp where
  | div (r : Reading)
  | mod (r : Reading)
  deriving DecidableEq, Repr

/-- Operations from one word to one. -/
inductive UnaryOp where
  | neg (r : Reading)
  | not
  | ones
  | signedToUnsigned
  | signedToFloat
  | floatToSigned
  | floatToUnsigned
  | unsignedToSigned
  | unsignedToFloat
  deriving DecidableEq, Repr

inductive Opcode where
  | nop
  | push
  | pop
  | load
  | store
  | mallocPool
  | freePool
  | pushPtr
  | loadPtr
  | storePtr
  | dup
  | pushArray
  | loadArray
  | storeArray
  | binary (op : BinaryOp)
  | division (op : DivisionOp)
  | unary (op : UnaryOp)
  | int
  | jmp
  | jmpZero
  | jmpNotZero
  | call
  | vcall
  | ret
  | loadMemory
  deriving DecidableEq, Repr

/-! ## Mnemonics -/

def BinaryOp.mnemonic : BinaryOp → String
  | .add r => r.letter ++ "ADD"
  | .sub r => r.letter ++ "SUB"
  | .mul r => r.letter ++ "MUL"
  | .less r => r.letter ++ "LESS"
  | .lessEqual r => r.letter ++ "LESS_EQUAL"
  | .greater r => r.letter ++ "GREATER"
  | .greaterEquals r => r.letter ++ "GREATER_EQUALS"
  | .eq => "EQ"
  | .neq => "NEQ"
  | .and => "AND"
  | .or => "OR"
  | .xor => "XOR"
  | .lshift => "LSHIFT"
  | .rshift => "RSHIFT"

def DivisionOp.mnemonic : DivisionOp → String
  | .div r => r.letter ++ "DIV"
  | .mod r => r.letter ++ "MOD"

def UnaryOp.mnemonic : UnaryOp → String
  | .neg r => r.letter ++ "NEG"
  | .not => "NOT"
  | .ones => "ONES"
  | .signedToUnsigned => "ITU"
  | .signedToFloat => "ITF"
  | .floatToSigned => "FTI"
  | .floatToUnsigned => "FTU"
  | .unsignedToSigned => "UTI"
  | .unsignedToFloat => "UTF"

namespace Opcode

def mnemonic : Opcode → String
  | .nop => "NOP"
  | .push => "PUSH"
  | .pop => "POP"
  | .load => "LOAD"
  | .store => "STORE"
  | .mallocPool => "MALLOC_POOL"
  | .freePool => "FREE_POOL"
  | .pushPtr => "PUSH_PTR"
  | .loadPtr => "LOAD_PTR"
  | .storePtr => "STORE_PTR"
  | .dup => "DUP"
  | .pushArray => "PUSH_ARRAY"
  | .loadArray => "LOAD_ARRAY"
  | .storeArray => "STORE_ARRAY"
  | .binary op => op.mnemonic
  | .division op => op.mnemonic
  | .unary op => op.mnemonic
  | .int => "INT"
  | .jmp => "JMP"
  | .jmpZero => "JMP_ZERO"
  | .jmpNotZero => "JMP_NOT_ZERO"
  | .call => "CALL"
  | .vcall => "VCALL"
  | .ret => "RET"
  | .loadMemory => "LOAD_MEMORY"

/-- What the operand of an operation is, for the operations that carry one. -/
def operandName : Opcode → Option String
  | .push => some "value"
  | .load | .store | .pushPtr | .loadMemory => some "offset"
  | .mallocPool => some "key"
  | .loadPtr | .storePtr | .loadArray | .storeArray => some "width"
  | .dup => some "depth"
  | .int => some "code"
  | .jmp | .jmpZero | .jmpNotZero | .call => some "target"
  | _ => none

def hasOperand (op : Opcode) : Bool := op.operandName.isSome

/-! ## Opcode bytes -/

/-- The operations in the order of their bytes. -/
def slots : Array (Option Opcode) := #[
  some .nop, some .push, some .pop, some .load, some .store, some .mallocPool, some .freePool,
  some .pushPtr, some .loadPtr, some .storePtr, some .dup, some .pushArray, some .loadArray,
  some .storeArray,
  some (.binary (.add .signed)), some (.binary (.add .float)), some (.binary (.add .unsigned)),
  some (.binary (.sub .signed)), some (.binary (.sub .float)), some (.binary (.sub .unsigned)),
  some (.binary (.mul .signed)), some (.binary (.mul .float)), some (.binary (.mul .unsigned)),
  some (.division (.div .signed)), some (.division (.div .float)),
  some (.division (.div .unsigned)),
  some (.division (.mod .signed)), some (.division (.mod .float)),
  some (.division (.mod .unsigned)),
  some (.binary (.less .signed)), some (.binary (.less .float)), some (.binary (.less .unsigned)),
  some (.binary (.lessEqual .signed)), some (.binary (.lessEqual .float)),
  some (.binary (.lessEqual .unsigned)),
  some (.binary (.greater .signed)), some (.binary (.greater .float)),
  some (.binary (.greater .unsigned)),
  some (.binary (.greaterEquals .signed)), some (.binary (.greaterEquals .float)),
  some (.binary (.greaterEquals .unsigned)),
  some (.binary .eq), some (.binary .neq), some (.binary .and), some (.binary .or),
  some (.binary .xor), some (.binary .lshift), some (.binary .rshift),
  none,
  some (.unary (.neg .signed)), some (.unary (.neg .float)), some (.unary (.neg .unsigned)),
  some (.unary .not), some (.unary .ones),
  some .int, some .jmp, some .jmpZero, some .jmpNotZero, some .call, some .vcall, some .ret,
  some (.unary .signedToUnsigned), some (.unary .signedToFloat), some (.unary .floatToSigned),
  some (.unary .floatToUnsigned), some (.unary .unsignedToSigned), some (.unary .unsignedToFloat),
  some .loadMemory]

def ofByte? (b : UInt8) : Option Opcode := (slots[b.toNat]?).join

/-- Offset of a reading inside a group of three operations. -/
def rank : Reading → UInt8
  | .signed => 0
  | .float => 1
  | .unsigned => 2

def byte : Opcode → UInt8
  | .nop => 0x00
  | .push => 0x01
  | .pop => 0x02
  | .load => 0x03
  | .store => 0x04
  | .mallocPool => 0x05
  | .freePool => 0x06
  | .pushPtr => 0x07
  | .loadPtr => 0x08
  | .storePtr => 0x09
  | .dup => 0x0A
  | .pushArray => 0x0B
  | .loadArray => 0x0C
  | .storeArray => 0x0D
  | .binary (.add r) => 0x0E + rank r
  | .binary (.sub r) => 0x11 + rank r
  | .binary (.mul r) => 0x14 + rank r
  | .division (.div r) => 0x17 + rank r
  | .division (.mod r) => 0x1A + rank r
  | .binary (.less r) => 0x1D + rank r
  | .binary (.lessEqual r) => 0x20 + rank r
  | .binary (.greater r) => 0x23 + rank r
  | .binary (.greaterEquals r) => 0x26 + rank r
  | .binary .eq => 0x29
  | .binary .neq => 0x2A
  | .binary .and => 0x2B
  | .binary .or => 0x2C
  | .binary .xor => 0x2D
  | .binary .lshift => 0x2E
  | .binary .rshift => 0x2F
  | .unary (.neg r) => 0x31 + rank r
  | .unary .not => 0x34
  | .unary .ones => 0x35
  | .int => 0x36
  | .jmp => 0x37
  | .jmpZero => 0x38
  | .jmpNotZero => 0x39
  | .call => 0x3A
  | .vcall => 0x3B
  | .ret => 0x3C
  | .unary .signedToUnsigned => 0x3D
  | .unary .signedToFloat => 0x3E
  | .unary .floatToSigned => 0x3F
  | .unary .floatToUnsigned => 0x40
  | .unary .unsignedToSigned => 0x41
  | .unary .unsignedToFloat => 0x42
  | .loadMemory => 0x43

def all : List Opcode := slots.toList.filterMap id

def ofMnemonic? (s : String) : Option Opcode := all.find? (·.mnemonic == s)

/-- Whether the operation with a given byte is assigned and carries an operand. -/
def carriesOperand (b : UInt8) : Bool := (ofByte? b).any hasOperand

/-- The table finds every operation at its byte. -/
theorem ofByte?_byte (op : Opcode) : ofByte? op.byte = some op := by
  cases op with
  | binary op =>
    cases op with
    | add r | sub r | mul r | less r | lessEqual r | greater r | greaterEquals r =>
      cases r <;> rfl
    | _ => rfl
  | division op =>
    cases op with
    | div r | mod r => cases r <;> rfl
  | unary op =>
    cases op with
    | neg r => cases r <;> rfl
    | _ => rfl
  | _ => rfl

end Opcode

end StackMachine
