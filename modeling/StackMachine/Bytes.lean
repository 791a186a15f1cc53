/-!
# Bytes — byte strings and little-endian numbers

Images, names and host data are lists of bytes. Numbers inside them are little-endian:

* `Bytes.ofNatLE width n` — the `width` low bytes of `n`, least significant first;
* `Bytes.toNatLE` — the number that a byte string denotes;
* `Bytes.fewestLE width n` — the shortest form of `n`, without most significant zero bytes.
-/

namespace StackMachine

abbrev Bytes := List UInt8

namespace Bytes

/-! ## Little-endian numbers -/

/-- The `width` low bytes of `n`, least significant first. -/
def ofNatLE : (width n : Nat) → Bytes
  | 0, _ => []
  | width + 1, n => UInt8.ofNat n :: ofNatLE width (n / 256)

/-- The number whose little-endian bytes are given. -/
def toNatLE : Bytes → Nat
  | [] => 0
  | b :: bs => b.toNat + 256 * toNatLE bs

/-- The fewest bytes that hold `n`, at most `width` of them; zero needs none. -/
def fewestLE : (width n : Nat) → Bytes
  | 0, _ => []
  | width + 1, n => if n = 0 then [] else UInt8.ofNat n :: fewestLE width (n / 256)

def ofUInt16 (n : UInt16) : Bytes := ofNatLE 2 n.toNat

def ofUInt32 (n : UInt32) : Bytes := ofNatLE 4 n.toNat

def ofUInt64 (n : UInt64) : Bytes := ofNatLE 8 n.toNat

@[simp]
theorem length_ofNatLE (width n : Nat) : (ofNatLE width n).length = width := by
  induction width generalizing n with
  | zero => rfl
  | succ width ih => simp [ofNatLE, ih]

end Bytes

end StackMachine
