import StackMachine.Decoder
import StackMachine.Image.Flags
import StackMachine.Word

/-!
# Header — the fixed part of an image

An image starts with forty-six bytes: the magic `.CF`, the version, the flags, the entry point and
the sizes of the four sections that follow. Pool entries and symbols are the records of two of
those sections.
-/

namespace StackMachine

/-- The fixed part of an image. -/
structure Header where
  magic : Vector UInt8 3
  version : UInt16
  flags : Flags
  entry : Word
  poolSize : UInt64
  programSize : UInt64
  symbolSize : UInt64
  memorySize : UInt64
  deriving DecidableEq, Repr

namespace Header

/-- The mark at the start of every image. -/
def expectedMagic : Vector UInt8 3 := #v[0x2E, 0x43, 0x46]

def currentVersion : UInt16 := 1

/-- The forty-six bytes of a header. -/
def encode (h : Header) : Bytes :=
  h.magic.toList ++ Bytes.ofUInt16 h.version ++ [h.flags.bits] ++ Bytes.ofUInt64 h.entry ++
    Bytes.ofUInt64 h.poolSize ++ Bytes.ofUInt64 h.programSize ++ Bytes.ofUInt64 h.symbolSize ++
    Bytes.ofUInt64 h.memorySize

def decode : Decoder Header := do
  let magic ← Decoder.block 3
  let version ← Decoder.uint16
  let flags ← Decoder.byte
  let entry ← Decoder.uint64
  let poolSize ← Decoder.uint64
  let programSize ← Decoder.uint64
  let symbolSize ← Decoder.uint64
  let memorySize ← Decoder.uint64
  return ⟨magic, version, ⟨flags⟩, entry, poolSize, programSize, symbolSize, memorySize⟩

end Header

structure PoolEntry where
  address : Word
  size : UInt16
  deriving DecidableEq, Repr

namespace PoolEntry

/-- The ten bytes of a pool entry. -/
def encode (e : PoolEntry) : Bytes := Bytes.ofUInt64 e.address ++ Bytes.ofUInt16 e.size

def decode : Decoder PoolEntry := do
  let address ← Decoder.uint64
  let size ← Decoder.uint16
  return ⟨address, size⟩

end PoolEntry

end StackMachine
