import StackMachine.Proofs.RoundTrip

/-!
# Canonical — images read and written again

An image has many written forms, since every operand may be padded with zero bytes up to eight.
Writing down what was read from one of them gives the shortest, which is the only one without
padding.

* `Layout.Minimal` — no operand is padded;
* `Layout.Writes.eq_encoded_iff` — the layout without padding is the one that `Image.encode` writes;
* `Image.rebuild_canonical` — reading and writing again keeps what an image says, never makes it
  longer, and changes it exactly if an operand was padded.
-/

namespace StackMachine

/-! ## Instructions -/

namespace Instruction

variable {i : Instruction} {bs : Bytes}

/-- An instruction is written again with the shortest form of the operand that was read. -/
theorem encode_of_digits {opcode : UInt8} {digits : Bytes}
    (hcarries : Opcode.carriesOperand opcode = true) (hwidth : digits.length ≤ 8) :
    encode ⟨opcode, UInt64.ofNat digits.toNatLE⟩ =
      opcode :: UInt8.ofNat (Bytes.fewestLE 8 digits.toNatLE).length ::
        Bytes.fewestLE 8 digits.toNatLE := by
  unfold encode
  rw [if_pos hcarries]
  dsimp only
  rw [Bytes.toNat_ofNat_toNatLE hwidth]

/-- An instruction that carries no operand is written as its opcode. -/
theorem encode_of_bare {opcode : UInt8} {operand : Word}
    (hbare : Opcode.carriesOperand opcode = false) : encode ⟨opcode, operand⟩ = [opcode] := by
  unfold encode
  rw [hbare]
  rfl

/-- No written form of an instruction is shorter than the one in use. -/
theorem Written.length_encode_le (hw : i.Written bs) : i.encode.length ≤ bs.length := by
  cases hw with
  | bare hbare =>
    exact Nat.le_of_eq (congrArg List.length (encode_of_bare hbare))
  | @withOperand opcode digits hcarries hwidth =>
    rw [encode_of_digits hcarries hwidth]
    have hdigits := Bytes.length_fewestLE_toNatLE_le 8 digits
    exact Nat.succ_le_succ (Nat.succ_le_succ hdigits)

/-- The operand starts with the third byte, its most significant byte is the last one. -/
theorem Written.eq_encode_iff (hw : i.Written bs) :
    bs = i.encode ↔ (bs.drop 2).getLast? ≠ some 0 := by
  cases hw with
  | bare hbare =>
    rw [encode_of_bare hbare]
    simp
  | @withOperand opcode digits hcarries hwidth =>
    rw [encode_of_digits hcarries hwidth, List.drop_succ_cons, List.drop_succ_cons, List.drop_zero,
      ← Bytes.fewestLE_toNatLE_eq_iff hwidth]
    constructor
    · intro heq
      exact (List.cons.inj (List.cons.inj heq).2).2.symm
    · intro heq
      rw [heq]

end Instruction

/-! ## Layouts -/

section Rows

variable {α : Type} {Written : α → Bytes → Prop} {encode : α → Bytes} {records : List α}
  {parts : List Bytes}

/-- Records with one written form are written again as they were. -/
theorem eq_map_of_forall₂ (hone : ∀ a bs, Written a bs → bs = encode a)
    (h : List.Forall₂ Written records parts) : parts = records.map encode := by
  induction h with
  | nil => rfl
  | cons hbs _ ih => rw [List.map_cons, ← hone _ _ hbs, ← ih]

/-- Records are written as they are in use exactly if each of them is. -/
theorem eq_map_iff_of_forall₂ {P : Bytes → Prop}
    (hshort : ∀ a bs, Written a bs → (bs = encode a ↔ P bs))
    (h : List.Forall₂ Written records parts) :
    parts = records.map encode ↔ ∀ part ∈ parts, P part := by
  induction h with
  | nil => simp
  | cons hbs _ ih => rw [List.map_cons, List.cons_eq_cons, hshort _ _ hbs, ih, List.forall_mem_cons]

/-- If no written form of a record is shorter than that in use, neither is one of records in a row.
-/
theorem length_flatten_map_le (hle : ∀ a bs, Written a bs → (encode a).length ≤ bs.length)
    (h : List.Forall₂ Written records parts) :
    (records.map encode).flatten.length ≤ parts.flatten.length := by
  induction h with
  | nil => exact Nat.le_refl 0
  | cons hbs _ ih =>
    rw [List.map_cons, List.flatten_cons, List.flatten_cons, List.length_append, List.length_append]
    exact Nat.add_le_add (hle _ _ hbs) ih

end Rows

namespace Layout

variable {l : Layout} {h : Header} {i : Image}

/-- Every operand is written with the fewest bytes: its most significant byte is not zero. -/
def Minimal (l : Layout) : Prop := ∀ part ∈ l.program, (part.drop 2).getLast? ≠ some 0

/-- The header tells nothing that the contents do not tell. -/
theorem Writes.header_eq (hw : l.Writes h i) : i.header = h := by
  rcases hw.header with ⟨hmagic, hversion, -⟩
  have hpool : UInt64.ofNat i.pool.size = h.poolSize := by
    rw [hw.pool_size, UInt64.ofNat_toNat]
  have hprogram : UInt64.ofNat i.instructions.size = h.programSize := by
    rw [hw.program_size, UInt64.ofNat_toNat]
  have hsymbols : UInt64.ofNat i.symbols.size = h.symbolSize := by
    rw [hw.symbols_size, UInt64.ofNat_toNat]
  have hmemory : UInt64.ofNat i.memory.length = h.memorySize := by
    rw [hw.memory_size, UInt64.ofNat_toNat]
  unfold Image.header
  rw [hpool, hprogram, hsymbols, hmemory, hw.flags, hw.entry, ← hmagic, ← hversion]

/-- The records of an image that was written can be counted, since the header counts them. -/
theorem Writes.countable (hw : l.Writes h i) : i.Countable where
  pool := by
    rw [hw.pool_size]
    exact h.poolSize.toNat_lt
  instructions := by
    rw [hw.program_size]
    exact h.programSize.toNat_lt
  symbols := by
    rw [hw.symbols_size]
    exact h.symbolSize.toNat_lt

/-- The contents written again are a layout of the same image. -/
theorem Writes.encoded (hw : l.Writes h i) : i.encoded.Writes h i := by
  have hagain := Image.writes_encoded hw.countable (Image.representable_of_writes hw)
  rwa [hw.header_eq] at hagain

/-- Layouts of the same image differ in the instructions only. -/
theorem Writes.eq_encoded (hw : l.Writes h i) :
    l = { i.encoded with program := l.program } := by
  have hheader : l.header = i.header.encode := by
    rw [hw.header_eq]
    exact hw.header.2.2
  have hpool : l.pool = i.pool.toList.map PoolEntry.encode :=
    eq_map_of_forall₂ (fun _ _ hbs => hbs) hw.pool
  have hsymbols : l.symbols = i.symbols.toList.map Symbol.encode :=
    eq_map_of_forall₂ (fun _ _ hbs => hbs.2) hw.symbols
  rcases l with ⟨header, pool, program, symbols, memory⟩
  simp only [Image.encoded, Layout.mk.injEq, true_and]
  exact ⟨hheader, hpool, hsymbols, hw.memory⟩

/-- A layout is the one in use exactly if every operand has the fewest bytes. -/
theorem Writes.eq_encoded_iff (hw : l.Writes h i) : l = i.encoded ↔ l.Minimal := by
  have hprogram : l.program = i.instructions.toList.map Instruction.encode ↔ l.Minimal :=
    eq_map_iff_of_forall₂ (fun _ _ hbs => hbs.eq_encode_iff) hw.program
  rw [← hprogram]
  constructor
  · intro heq
    rw [heq]
    rfl
  · intro heq
    rw [hw.eq_encoded, heq]
    rfl

/-- No written form of an image is shorter than the one in use. -/
theorem Writes.length_encode_le (hw : l.Writes h i) : i.encode.length ≤ l.bytes.length := by
  have hprogram : (i.instructions.toList.map Instruction.encode).flatten.length ≤
      l.program.flatten.length :=
    length_flatten_map_le (fun _ _ hbs => hbs.length_encode_le) hw.program
  rw [← i.bytes_encoded, hw.eq_encoded]
  simp only [bytes, List.length_append]
  exact Nat.add_le_add_left (Nat.add_le_add_left (Nat.add_le_add_right hprogram _) _) _

end Layout

/-! ## Images -/

namespace Image

/-- The image that the bytes hold, written again. -/
def rebuild (bytes : Bytes) : Except LoadError Bytes :=
  (Section.image bytes).map (·.1.2.encode)

/-- An image that can be read is written again as what was read. -/
theorem rebuild_of_read {bytes rest : Bytes} {h : Header} {i : Image}
    (hread : Section.image bytes = .ok ((h, i), rest)) : rebuild bytes = .ok i.encode := by
  unfold rebuild
  rw [hread]
  rfl

/-- What is written again reads as before, is not longer, and is written a third time as it is. It
is what was read exactly if no operand there, in the only layout of these bytes, was padded. -/
theorem rebuild_canonical {bytes rest : Bytes} {h : Header} {i : Image}
    (hread : Section.image bytes = .ok ((h, i), rest)) :
    ∃ rebuilt, rebuild bytes = .ok rebuilt ∧ Section.image rebuilt = .ok ((h, i), []) ∧
      rebuilt.length ≤ bytes.length ∧ rebuild rebuilt = .ok rebuilt ∧
      ∃ l : Layout, l.bytes = bytes ∧ l.Writes h i ∧
        (∀ (l' : Layout) (h' : Header) (i' : Image), l'.bytes = bytes → l'.Writes h' i' → l' = l) ∧
        (rebuilt = bytes ↔ l.Minimal) := by
  rcases Section.image_ok_iff.1 hread with ⟨-, l, rfl, hw⟩
  have hagain : Section.image i.encode = .ok ((h, i), []) :=
    Section.image_ok_iff.2 ⟨rfl, i.encoded, i.bytes_encoded, hw.encoded⟩
  refine ⟨i.encode, rebuild_of_read hread, hagain, hw.length_encode_le, rebuild_of_read hagain, l,
    rfl, hw, ?_, ?_⟩
  · intro l' h' i' hbytes hw'
    exact (hw'.unambiguous hw hbytes).1
  · -- equal bytes have the same layout, and the one that is written has no padding
    rw [← hw.eq_encoded_iff, ← i.bytes_encoded]
    constructor
    · intro heq
      exact (hw.unambiguous hw.encoded heq.symm).1
    · intro heq
      rw [← heq]

/-- An operand in three bytes that needs one is read as it is meant, and loses its two zero bytes
when it is written again. -/
theorem rebuild_canonical_padded :
    let image : Image := { flags := .executable, instructions := #[.of .push 5] }
    let padded : Bytes := image.header.encode ++ [Opcode.push.byte, 3, 5, 0, 0]
    Section.image padded = .ok ((image.header, image), []) ∧
      ∃ rebuilt, rebuild padded = .ok rebuilt ∧
        Section.image rebuilt = .ok ((image.header, image), []) ∧ rebuild rebuilt = .ok rebuilt ∧
        rebuilt.length + 2 = padded.length := by
  intro image padded
  have hread : Section.image padded = .ok ((image.header, image), []) := by
    dsimp only [image, padded]
    rfl
  have hshort : image.encode.length + 2 = padded.length := by
    dsimp only [image, padded]
    rfl
  rcases rebuild_canonical hread with ⟨rebuilt, hrebuilt, hagain, -, hthird, -⟩
  have heq : rebuilt = image.encode := by
    rw [rebuild_of_read hread, Except.ok.injEq] at hrebuilt
    exact hrebuilt.symm
  refine ⟨hread, rebuilt, hrebuilt, hagain, hthird, ?_⟩
  rw [heq, hshort]

end Image
end StackMachine
