import StackMachine.Address
import StackMachine.Image.Basic
import StackMachine.Image.Error

/-!
# Section — reading an image part by part

The parts of an image are read in a fixed order: header, pool entries, instructions, symbols,
memory, end. Each part has a reader that takes it off the front of the unread bytes; a reader that
fails takes nothing.

* `Section.header` checks the magic and the version before it looks at any other field;
* `Section.program` keeps unassigned opcodes and gives them no operand;
* `Section.image` reads all parts of an image in their order.
-/

namespace StackMachine

/-- A reader of a part of an image. -/
abbrev Section := StateT Bytes (Except LoadError)

namespace Section

def ofDecoder (d : Decoder α) : Section α := fun input =>
  match d input with
  | .ok a rest => .ok (a, rest)
  | .error e _ => .error (.decode e)

/-- Reads `count` records in a row and appends them to `read`. Each is told its index. -/
def many (item : Nat → Section α) : (count : Nat) → (read : Array α) → Section (Array α)
  | 0, read => pure read
  | count + 1, read => fun input =>
    match item read.size input with
    | .ok (a, rest) => many item count (read.push a) rest
    | .error e => .error e

/-- The header, with the right magic and version. -/
def header : Section Header := fun image => do
  let (found, rest) ← ofDecoder (Decoder.block 3) image
  if found ≠ Header.expectedMagic then throw (.badMagic found)
  let (version, _) ← ofDecoder Decoder.uint16 rest
  if version ≠ Header.currentVersion then
    throw (.unsupportedVersion version Header.currentVersion)
  ofDecoder Header.decode image

def pool (h : Header) : Section (Array PoolEntry) := do
  let count ← ofDecoder (Decoder.length h.poolSize)
  many (fun _ => ofDecoder PoolEntry.decode) count #[]

/-- An operand: a width byte of at most eight, then that many bytes. -/
def operand (index : Nat) : Section Word := do
  let width ← ofDecoder Decoder.byte
  if width > 8 then throw (.operandTooWide index width)
  let value ← ofDecoder (Decoder.natLE width.toNat)
  return UInt64.ofNat value

def instruction (index : Nat) : Section Instruction := do
  let opcode ← ofDecoder Decoder.byte
  if Opcode.carriesOperand opcode then
    let value ← operand index
    return ⟨opcode, value⟩
  else
    return ⟨opcode, 0⟩

def program (h : Header) : Section (Array Instruction) := do
  let count ← ofDecoder (Decoder.length h.programSize)
  many instruction count #[]

def symbol (index : Nat) : Section Symbol := do
  let length ← ofDecoder Decoder.uint16
  let bytes ← ofDecoder (Decoder.take length.toNat)
  match Utf8.decode? bytes with
  | none => throw (.invalidSymbolName index)
  | some name =>
    let address ← ofDecoder Decoder.uint64
    return ⟨name, address⟩

def symbols (h : Header) : Section (Array Symbol) := many symbol h.symbolSize.toNat #[]

/-- The raw memory, which has to fit in one region. -/
def memory (h : Header) : Section Bytes := do
  if h.memorySize.toNat > Address.maxRegionLength then
    throw (.memoryTooLarge h.memorySize.toNat Address.maxRegionLength)
  let length ← ofDecoder (Decoder.length h.memorySize)
  ofDecoder (Decoder.take length)

def finish : Section Unit := fun input =>
  if input.isEmpty then .ok ((), input) else .error (.trailingBytes input.length)

/-- All parts of an image, with the header as it was found. -/
def image : Section (Header × Image) := do
  let h ← header
  let entries ← pool h
  let instructions ← program h
  let names ← symbols h
  let bytes ← memory h
  finish
  return (h, ⟨h.flags, h.entry, entries, instructions, names, bytes⟩)

end Section

end StackMachine
