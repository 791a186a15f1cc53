import StackMachine.Image.Header
import StackMachine.Proofs.Bytes
import StackMachine.Proofs.Sequence

/-!
# Decoder — values and their written forms

A decoder of a value of fixed width accepts exactly the inputs that start with the written form of
the value, and leaves what follows it:

* `Decoder.natLE_ok_iff` and its instances `Decoder.byte_ok_iff`, `Decoder.uint16_ok_iff` and
  `Decoder.uint64_ok_iff`;
* `Header.decode_ok_iff` and `PoolEntry.decode_ok_iff` for the records of an image.
-/

namespace StackMachine
namespace Decoder

variable {input rest : Bytes}

/-! ## Numbers and blocks -/

/-- The front of the input is taken off, if it is that long. -/
theorem take_ok_iff {n : Nat} {front : Bytes} :
    take n input = .ok front rest ↔ front.length = n ∧ input = front ++ rest := by
  unfold take
  dsimp only
  split
  next hlength =>
    rw [EStateM.Result.ok.injEq]
    constructor
    · rintro ⟨rfl, rfl⟩
      exact ⟨hlength, (List.take_append_drop n input).symm⟩
    · rintro ⟨rfl, rfl⟩
      simp
  next hshort =>
    simp only [reduceCtorEq, false_iff, not_and]
    rintro rfl rfl
    simp at hshort

/-- A number is read exactly if its bytes are in front. -/
theorem natLE_ok_iff {width n : Nat} :
    natLE width input = .ok n rest ↔ n < 256 ^ width ∧ input = Bytes.ofNatLE width n ++ rest := by
  simp only [natLE, bind_ok_iff, take_ok_iff, pure_ok_iff]
  constructor
  · rintro ⟨front, _, ⟨rfl, rfl⟩, rfl, rfl⟩
    exact ⟨front.toNatLE_lt, by rw [Bytes.ofNatLE_toNatLE]⟩
  · rintro ⟨hn, rfl⟩
    refine ⟨Bytes.ofNatLE width n, rest, ⟨Bytes.length_ofNatLE width n, rfl⟩, ?_, rfl⟩
    rw [Bytes.toNatLE_ofNatLE, Nat.mod_eq_of_lt hn]

theorem byte_ok_iff {b : UInt8} : byte input = .ok b rest ↔ input = b :: rest := by
  simp only [byte, bind_ok_iff, natLE_ok_iff, pure_ok_iff]
  constructor
  · rintro ⟨n, _, ⟨-, rfl⟩, rfl, rfl⟩
    rfl
  · rintro rfl
    refine ⟨b.toNat, rest, ⟨b.toNat_lt, ?_⟩, ?_, rfl⟩
    · simp [Bytes.ofNatLE]
    · simp

theorem uint16_ok_iff {n : UInt16} :
    uint16 input = .ok n rest ↔ input = Bytes.ofUInt16 n ++ rest := by
  simp only [uint16, bind_ok_iff, natLE_ok_iff, pure_ok_iff, Bytes.ofUInt16]
  constructor
  · rintro ⟨k, _, ⟨hk, rfl⟩, rfl, rfl⟩
    rw [UInt16.toNat_ofNat_of_lt' hk]
  · rintro rfl
    exact ⟨n.toNat, rest, ⟨n.toNat_lt, rfl⟩, by simp, rfl⟩

theorem uint64_ok_iff {n : UInt64} :
    uint64 input = .ok n rest ↔ input = Bytes.ofUInt64 n ++ rest := by
  simp only [uint64, bind_ok_iff, natLE_ok_iff, pure_ok_iff, Bytes.ofUInt64]
  constructor
  · rintro ⟨k, _, ⟨hk, rfl⟩, rfl, rfl⟩
    rw [UInt64.toNat_ofNat_of_lt' hk]
  · rintro rfl
    exact ⟨n.toNat, rest, ⟨n.toNat_lt, rfl⟩, by simp, rfl⟩

theorem block_ok_iff {n : Nat} {v : Vector UInt8 n} :
    block n input = .ok v rest ↔ input = v.toList ++ rest := by
  unfold block
  dsimp only
  split
  next hlength =>
    rw [EStateM.Result.ok.injEq]
    constructor
    · rintro ⟨rfl, rfl⟩
      exact (List.take_append_drop n input).symm
    · rintro rfl
      refine ⟨?_, ?_⟩
      · simp [← Vector.toList_inj]
      · simp
  next hshort =>
    simp only [reduceCtorEq, false_iff]
    rintro rfl
    simp at hshort

/-- Every count of an image fits in the address space of the host. -/
@[simp]
theorem length_apply (count : UInt64) (input : Bytes) :
    length count input = .ok count.toNat input := by
  have hcount : count.toNat < addressSpace := count.toNat_lt
  simp only [length, hcount, if_true]
  rfl

end Decoder

/-! ## Records -/

/-- A header is read exactly if its written form is in front. -/
theorem Header.decode_ok_iff {input rest : Bytes} {h : Header} :
    Header.decode input = .ok h rest ↔ input = h.encode ++ rest := by
  simp only [Header.decode, bind_ok_iff, Decoder.block_ok_iff, Decoder.uint16_ok_iff,
    Decoder.byte_ok_iff, Decoder.uint64_ok_iff, pure_ok_iff]
  constructor
  · rintro ⟨magic, _, rfl, version, _, rfl, flags, _, rfl, entry, _, rfl, poolSize, _, rfl,
      programSize, _, rfl, symbolSize, _, rfl, memorySize, _, rfl, rfl, rfl⟩
    simp [Header.encode]
  · rintro rfl
    refine ⟨h.magic, _, ?_, h.version, _, rfl, h.flags.bits, _, rfl, h.entry, _, rfl, h.poolSize, _,
      rfl, h.programSize, _, rfl, h.symbolSize, _, rfl, h.memorySize, _, rfl, rfl, rfl⟩
    simp [Header.encode]

/-- A pool record is read exactly if its written form is in front. -/
theorem PoolEntry.decode_ok_iff {input rest : Bytes} {e : PoolEntry} :
    PoolEntry.decode input = .ok e rest ↔ input = e.encode ++ rest := by
  simp only [PoolEntry.decode, bind_ok_iff, Decoder.uint64_ok_iff, Decoder.uint16_ok_iff,
    pure_ok_iff]
  constructor
  · rintro ⟨address, _, rfl, size, _, rfl, rfl, rfl⟩
    simp [PoolEntry.encode]
  · rintro rfl
    refine ⟨e.address, _, ?_, e.size, _, rfl, rfl, rfl⟩
    simp [PoolEntry.encode]

end StackMachine
