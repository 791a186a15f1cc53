import StackMachine.Image.Header
import StackMachine.Image.Symbol
import StackMachine.Instruction

/-!
# Image — a program on disk

An image is a header followed by four sections: pool entries, instructions, symbols and raw memory.
`Image` holds their contents; `Image.header` counts them and `Image.encode` writes them down.
-/

namespace StackMachine

structure Image where
  flags : Flags := .none
  entry : Word := 0
  pool : Array PoolEntry := #[]
  instructions : Array Instruction := #[]
  symbols : Array Symbol := #[]
  memory : Bytes := []
  deriving DecidableEq, Repr, Inhabited

namespace Image

/-- The header that describes the contents. -/
def header (i : Image) : Header where
  magic := Header.expectedMagic
  version := Header.currentVersion
  flags := i.flags
  entry := i.entry
  poolSize := UInt64.ofNat i.pool.size
  programSize := UInt64.ofNat i.instructions.size
  symbolSize := UInt64.ofNat i.symbols.size
  memorySize := UInt64.ofNat i.memory.length

def encode (i : Image) : Bytes :=
  i.header.encode ++ i.pool.toList.flatMap PoolEntry.encode ++
    i.instructions.toList.flatMap Instruction.encode ++ i.symbols.toList.flatMap Symbol.encode ++
    i.memory

end Image

end StackMachine
