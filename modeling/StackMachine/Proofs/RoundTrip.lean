import StackMachine.Proofs.Loading

/-!
# RoundTrip — reading back what was written

`Image.encode` writes an image with the shortest operands. What it writes need not be a layout of
the image: an operand that its opcode does not carry is dropped, and a long name is written after
the low two bytes of its length.

* `Image.Representable` — the images whose written form says all of their contents;
* `Image.writes_encoded` — for these, the written form is a layout of the image;
* `Image.reads_back_iff` — these are the images that are read back as they were.
-/

namespace StackMachine

/-! ## Written parts -/

namespace Instruction

/-- An operand that is not written is read as zero. -/
theorem Written.operand_eq_zero {i : Instruction} {bs : Bytes} (hw : i.Written bs)
    (hbare : Opcode.carriesOperand i.opcode = false) : i.operand = 0 := by
  cases hw with
  | bare => rfl
  | withOperand hcarries =>
    rw [hcarries] at hbare
    cases hbare

/-- An instruction is written in order unless it has an operand that it does not carry. -/
theorem written_encode {i : Instruction}
    (hzero : Opcode.carriesOperand i.opcode = false → i.operand = 0) : i.Written i.encode := by
  rcases i with ⟨opcode, operand⟩
  unfold encode
  split
  next hcarries =>
    have hoperand : UInt64.ofNat (Bytes.toNatLE (Bytes.fewestLE 8 operand.toNat)) = operand := by
      have hlt : operand.toNat < 256 ^ 8 := operand.toNat_lt
      rw [Bytes.toNatLE_fewestLE, Nat.mod_eq_of_lt hlt]
      exact UInt64.ofNat_toNat
    have hw := Written.withOperand hcarries (Bytes.length_fewestLE_le 8 operand.toNat)
    rwa [hoperand] at hw
  next hnone =>
    have hbare : Opcode.carriesOperand opcode = false := by simpa using hnone
    rcases hzero hbare with rfl
    exact .bare hbare

end Instruction

/-- A symbol is written in order exactly if its name is not too long. -/
theorem Symbol.written_encode_iff {s : Symbol} :
    s.Written s.encode ↔ (Utf8.encode s.name).length ≤ 65535 := by
  simp [Symbol.Written, Symbol.encode, Nat.lt_succ_iff]

/-! ## Whole images -/

namespace Image

/-- The contents can be told from the written form: every name has a length of two bytes, the memory
fits in one region, and no operand is lost. -/
structure Representable (i : Image) : Prop where
  names : ∀ s ∈ i.symbols, (Utf8.encode s.name).length ≤ 65535
  memory : i.memory.length ≤ Address.maxRegionLength
  operands : ∀ x ∈ i.instructions, Opcode.carriesOperand x.opcode = false → x.operand = 0

/-- The records of each section can be counted in sixty-four bits, as those of any list in the
memory of a computer can. -/
structure Countable (i : Image) : Prop where
  pool : i.pool.size < UInt64.size
  instructions : i.instructions.size < UInt64.size
  symbols : i.symbols.size < UInt64.size

/-- The written form of an image, cut into the written forms of its parts. -/
def encoded (i : Image) : Layout where
  header := i.header.encode
  pool := i.pool.toList.map PoolEntry.encode
  program := i.instructions.toList.map Instruction.encode
  symbols := i.symbols.toList.map Symbol.encode
  memory := i.memory

/-- The parts one after the other are the written form. -/
theorem bytes_encoded (i : Image) : i.encoded.bytes = i.encode := by
  simp [encoded, Layout.bytes, encode, List.flatMap_def]

/-- Records are written in order if each of them is. -/
theorem forall₂_map {α : Type} {Written : α → Bytes → Prop} {encode : α → Bytes}
    {records : Array α} (h : ∀ a ∈ records, Written a (encode a)) :
    List.Forall₂ Written records.toList (records.toList.map encode) := by
  rw [List.forall₂_map_right_iff, List.forall₂_same]
  simpa using h

/-- What every written record satisfies is satisfied by all records of a layout. -/
theorem forall_mem_of_forall₂ {α : Type} {Written : α → Bytes → Prop} {P : α → Prop}
    {records : Array α} {parts : List Bytes} (h : List.Forall₂ Written records.toList parts)
    (hP : ∀ a bs, Written a bs → P a) : ∀ a ∈ records, P a := by
  intro a ha
  have hboth : List.Forall₂ (fun a bs => P a ∧ Written a bs) records.toList parts :=
    h.imp fun a bs hw => ⟨hP a bs hw, hw⟩
  exact ((List.forall₂_and_left _ _).1 hboth).1 a (by simpa using ha)

/-- The length of memory that fits is told by the header. -/
theorem toNat_memorySize {i : Image} (hi : i.Representable) :
    i.header.memorySize.toNat = i.memory.length := by
  refine UInt64.toNat_ofNat_of_lt' (Nat.lt_of_le_of_lt hi.memory ?_)
  decide

/-- The written form of an image is one of its layouts, if nothing in it is lost. -/
theorem writes_encoded {i : Image} (hcount : i.Countable) (hi : i.Representable) :
    i.encoded.Writes i.header i where
  header := ⟨rfl, rfl, rfl⟩
  flags := rfl
  entry := rfl
  pool_size := (UInt64.toNat_ofNat_of_lt' hcount.pool).symm
  pool := forall₂_map fun _ _ => rfl
  program_size := (UInt64.toNat_ofNat_of_lt' hcount.instructions).symm
  program := forall₂_map fun x hx => Instruction.written_encode (hi.operands x hx)
  symbols_size := (UInt64.toNat_ofNat_of_lt' hcount.symbols).symm
  symbols := forall₂_map fun s hs => Symbol.written_encode_iff.2 (hi.names s hs)
  memory_size := (toNat_memorySize hi).symm
  memory_fits := Nat.le_trans (Nat.le_of_eq (toNat_memorySize hi)) hi.memory
  memory := rfl

/-- Only a representable image has a layout. -/
theorem representable_of_writes {l : Layout} {h : Header} {i : Image} (hw : l.Writes h i) :
    i.Representable where
  names := forall_mem_of_forall₂ hw.symbols fun _ _ hwritten => Nat.le_of_lt_succ hwritten.1
  memory := by
    rw [hw.memory_size]
    exact hw.memory_fits
  operands := forall_mem_of_forall₂ hw.program fun _ _ hwritten => hwritten.operand_eq_zero

/-- An image is read back from its written form, with its header and all of its contents, exactly
if it is representable. -/
theorem reads_back_iff (i : Image) (hcount : i.Countable) :
    Section.image i.encode = .ok ((i.header, i), []) ↔ i.Representable := by
  rw [Section.image_ok_iff]
  constructor
  · rintro ⟨-, l, -, hw⟩
    exact representable_of_writes hw
  · intro hi
    exact ⟨rfl, i.encoded, i.bytes_encoded, writes_encoded hcount hi⟩

/-- A wide operand, an unassigned opcode, a repeated pool key and two names are read back; an
operand of an opcode that carries none is not. -/
theorem reads_back_samples :
    let kept : Image := {
      flags := .executable, entry := 1, pool := #[⟨7, 16⟩, ⟨7, 32⟩],
      instructions := #[.of .push 0x1234567890, ⟨0xFF, 0⟩], symbols := #[⟨"main", 1⟩, ⟨"é", 0⟩],
      memory := [1, 2, 3] }
    let lost : Image := { instructions := #[⟨0xFF, 1⟩] }
    (kept.Countable ∧ Section.image kept.encode = .ok ((kept.header, kept), [])) ∧
      (lost.Countable ∧ Section.image lost.encode ≠ .ok ((lost.header, lost), [])) := by
  intro kept lost
  have hkept : kept.Countable := ⟨by decide, by decide, by decide⟩
  have hlost : lost.Countable := ⟨by decide, by decide, by decide⟩
  refine ⟨⟨hkept, (reads_back_iff kept hkept).2 ⟨by decide, by decide, by decide⟩⟩, hlost, ?_⟩
  intro hread
  have hrepresentable : lost.Representable := (reads_back_iff lost hlost).1 hread
  have hzero := hrepresentable.operands ⟨0xFF, 1⟩ (by simp [lost]) (by decide)
  exact absurd hzero (by decide)

end Image
end StackMachine
