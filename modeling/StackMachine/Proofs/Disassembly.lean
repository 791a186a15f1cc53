import StackMachine.Inspector
import StackMachine.Proofs.Layout
import StackMachine.Proofs.RoundTrip

/-!
# Disassembly — what a listing says about the program

A listing shows the opcodes by their mnemonics, or by their bytes where these are unassigned, the
operands in decimal and the entry point by a mark. Nothing else of the program is lost: an operand
that is not printed was not read either.

* `Opcode.ofMnemonic?_mnemonic` — the operations have different mnemonics;
* `Instruction.text_inj` — instructions are determined by the texts that they have in a listing;
* `Inspector.instructionLines_eq_iff` — what two listings have in common if they are equal;
* `Inspector.disassembly_determines_program` — the same for the printed texts of two images.
-/

namespace StackMachine

/-! ## Mnemonics -/

namespace Opcode

/-- The list of all operations is complete. -/
theorem mem_all (op : Opcode) : op ∈ all := by
  have hslot : slots[op.byte.toNat]? = some (some op) := Option.join_eq_some_iff.1 (ofByte?_byte op)
  exact List.mem_filterMap.2 ⟨some op, Array.mem_toList_iff.2 (Array.mem_of_getElem? hslot), rfl⟩

/-- An operation is found by its mnemonic. -/
theorem ofMnemonic?_mnemonic (op : Opcode) : ofMnemonic? op.mnemonic = some op := by
  have hall : ∀ op ∈ all, ofMnemonic? op.mnemonic = some op := by decide +kernel
  exact hall op op.mem_all

/-- No two operations have one mnemonic. -/
theorem mnemonic_inj {op op' : Opcode} (h : op.mnemonic = op'.mnemonic) : op = op' := by
  apply Option.some.inj
  calc some op
      = ofMnemonic? op.mnemonic := (ofMnemonic?_mnemonic op).symm
    _ = ofMnemonic? op'.mnemonic := by rw [h]
    _ = some op' := ofMnemonic?_mnemonic op'

/-- A mnemonic is made of capital letters and underscores. -/
theorem isUpper_of_mem_mnemonic (op : Opcode) :
    ∀ c ∈ op.mnemonic.toList, c.isUpper = true ∨ c = '_' := by
  have hall : ∀ op ∈ all, op.mnemonic.toList.all (fun c => c.isUpper || c == '_') = true := by
    decide +kernel
  simpa using hall op op.mem_all

/-- The table holds every operation at one place only. -/
theorem byte_of_ofByte? {b : UInt8} {op : Opcode} (h : ofByte? b = some op) : op.byte = b := by
  have hall : ∀ n < 256, (ofByte? (UInt8.ofNat n)).all (·.byte == UInt8.ofNat n) = true := by
    decide +kernel
  have hb : (ofByte? b).all (·.byte == b) = true := by
    simpa only [UInt8.ofNat_toNat] using hall b.toNat b.toNat_lt
  rw [h] at hb
  exact eq_of_beq hb

end Opcode

/-! ## Instructions -/

namespace Instruction

/-- An instruction is printed as its mnemonic, with its operand if it carries one. -/
theorem text_of_assigned {i : Instruction} {op : Opcode} (hop : Opcode.ofByte? i.opcode = some op) :
    i.text = if op.hasOperand then op.mnemonic ++ " " ++ toString i.operand else op.mnemonic := by
  simp only [text, hop]

/-- A byte that is no operation is printed as such, without its operand. -/
theorem text_of_unassigned {i : Instruction} (hop : Opcode.ofByte? i.opcode = none) :
    i.text = "<illegal " ++ Text.hex 2 i.opcode.toNat ++ ">" := by
  simp only [text, hop]

/-- The characters in the text of an assigned opcode. -/
theorem mem_text_of_assigned {i : Instruction} {op : Opcode} {c : Char}
    (hop : Opcode.ofByte? i.opcode = some op) (hc : c ∈ i.text.toList) :
    (c.isUpper = true ∨ c = '_') ∨ c = ' ' ∨ c.isDigit = true := by
  rw [text_of_assigned hop] at hc
  split at hc
  next =>
    rw [String.toList_append, String.toList_append, List.mem_append, List.mem_append] at hc
    rcases hc with (hname | hblank) | hdigit
    · exact .inl (op.isUpper_of_mem_mnemonic c hname)
    · exact .inr (.inl (List.mem_singleton.1 hblank))
    · have hzeros : c ∈ (Text.zeros 0 i.operand.toNat).toList := by rwa [Text.zeros_zero]
      exact .inr (.inr (Text.isDigit_of_mem_zeros hzeros))
  next => exact .inl (op.isUpper_of_mem_mnemonic c hc)

/-- An operation is not printed like a byte that is none. -/
theorem text_ne_of_unassigned {i j : Instruction} {op : Opcode}
    (hi : Opcode.ofByte? i.opcode = some op) (hj : Opcode.ofByte? j.opcode = none) :
    i.text ≠ j.text := by
  intro h
  have hmark : '<' ∈ i.text.toList := by
    rw [h, text_of_unassigned hj]
    simp
  exact absurd (mem_text_of_assigned hi hmark) (by decide)

/-- An instruction stands on one line. -/
theorem not_mem_text (i : Instruction) : '\n' ∉ i.text.toList := by
  intro hend
  cases hop : Opcode.ofByte? i.opcode with
  | some op => exact absurd (mem_text_of_assigned hop hend) (by decide)
  | none =>
    have hdigit : ∀ d < 16, '\n' ≠ Nat.digitChar d := by decide
    have hlt : i.opcode.toNat < 256 := i.opcode.toNat_lt
    rw [text_of_unassigned hop, Text.hex] at hend
    simp only [String.toList_append, Text.toList_hexDigits_two hlt, List.mem_append] at hend
    rcases hend with (hbefore | hmark | hdigits) | hafter
    · exact absurd hbefore (by decide)
    · exact absurd hmark (by decide)
    · rcases List.mem_pair.1 hdigits with hhigh | hlow
      · exact hdigit _ (by omega) hhigh
      · exact hdigit _ (by omega) hlow
    · exact absurd hafter (by decide)

/-- With a blank behind it, the text has a first blank, which ends the mnemonic. -/
theorem text_append_blank {i : Instruction} {op : Opcode}
    (hop : Opcode.ofByte? i.opcode = some op) : i.text ++ " " =
      op.mnemonic ++ (" " ++ if op.hasOperand then toString i.operand ++ " " else "") := by
  rw [text_of_assigned hop]
  split
  next => simp only [String.append_assoc]
  next => rw [String.append_empty]

/-- An assigned opcode is told by its mnemonic, and its operand by the decimal number behind. -/
theorem eq_of_text_eq {i j : Instruction} {op op' : Opcode}
    (hi : Opcode.ofByte? i.opcode = some op) (hj : Opcode.ofByte? j.opcode = some op')
    (h : i.text = j.text) : op = op' ∧ (op.hasOperand = true → i.operand = j.operand) := by
  have hblank (op : Opcode) : ' ' ∉ op.mnemonic.toList := by
    intro hmem
    exact absurd (op.isUpper_of_mem_mnemonic ' ' hmem) (by decide)
  have hsame :
      op.mnemonic ++ (" " ++ if op.hasOperand then toString i.operand ++ " " else "") =
        op'.mnemonic ++ (" " ++ if op'.hasOperand then toString j.operand ++ " " else "") := by
    rw [← text_append_blank hi, h, text_append_blank hj]
  rcases Text.split_inj rfl (hblank op) (hblank op') hsame with ⟨hname, hrest⟩
  rcases Opcode.mnemonic_inj hname with rfl
  refine ⟨rfl, fun hoperand => ?_⟩
  rw [if_pos hoperand, if_pos hoperand, String.append_left_inj] at hrest
  have hzeros : Text.zeros 0 i.operand.toNat = Text.zeros 0 j.operand.toNat := by
    rw [Text.zeros_zero, Text.zeros_zero]
    exact hrest
  exact UInt64.toNat_inj.1 (Text.zeros_inj hzeros)

/-- Instructions that print the same are the same, if what is not printed of them is zero. -/
theorem text_inj {i j : Instruction} (hi : Opcode.carriesOperand i.opcode = false → i.operand = 0)
    (hj : Opcode.carriesOperand j.opcode = false → j.operand = 0) (h : i.text = j.text) :
    i = j := by
  have hopcode : i.opcode = j.opcode := by
    cases hop : Opcode.ofByte? i.opcode with
    | none =>
      cases hop' : Opcode.ofByte? j.opcode with
      | none =>
        rw [text_of_unassigned hop, text_of_unassigned hop', String.append_left_inj,
          String.append_right_inj] at h
        exact UInt8.toNat_inj.1 (Text.hex_two_inj i.opcode.toNat_lt j.opcode.toNat_lt h)
      | some op' => exact absurd h.symm (text_ne_of_unassigned hop' hop)
    | some op =>
      cases hop' : Opcode.ofByte? j.opcode with
      | none => exact absurd h (text_ne_of_unassigned hop hop')
      | some op' =>
        rcases eq_of_text_eq hop hop' h with ⟨rfl, -⟩
        rw [← Opcode.byte_of_ofByte? hop, Opcode.byte_of_ofByte? hop']
  -- the operand is printed, or it was never read
  have hoperand : i.operand = j.operand := by
    cases hcarries : Opcode.carriesOperand i.opcode with
    | true =>
      rcases (Option.any_eq_true _ _).1 hcarries with ⟨op, hop, hhas⟩
      exact (eq_of_text_eq hop (hopcode ▸ hop) h).2 hhas
    | false => rw [hi hcarries, hj (hopcode ▸ hcarries)]
  rcases i with ⟨opcode, operand⟩
  rcases j with ⟨opcode', operand'⟩
  rcases hopcode with rfl
  rcases hoperand with rfl
  rfl

end Instruction

/-! ## Listings -/

namespace Inspector

/-- What stands between the mark and the instruction on a line. -/
def margin (width index : Nat) : String := " " ++ Text.right width (toString index) ++ "  "

/-- A line is a mark, a margin and the text of an instruction. -/
theorem toList_instructionLine (entry : Word) (width index : Nat) (i : Instruction) :
    (instructionLine entry width index i).toList =
      (if index = entry.toNat then '>' else ' ') ::
        ((margin width index).toList ++ i.text.toList) := by
  unfold instructionLine margin
  split <;> simp

/-- With the same index at the same width, lines differ by their marks and instructions. -/
theorem instructionLine_eq_iff {entry entry' : Word} {width index : Nat} {i j : Instruction} :
    instructionLine entry width index i = instructionLine entry' width index j ↔
      (index = entry.toNat ↔ index = entry'.toNat) ∧ i.text = j.text := by
  rw [← String.toList_inj, toList_instructionLine, toList_instructionLine, List.cons_eq_cons,
    List.append_cancel_left_eq, String.toList_inj]
  refine and_congr_left fun _ => ?_
  by_cases hmarked : index = entry.toNat <;> by_cases hmarked' : index = entry'.toNat <;>
    simp [hmarked, hmarked']

/-- Each instruction has its line. -/
theorem getElem?_instructionLines (entry : Word) (instructions : Array Instruction) (index : Nat) :
    (instructionLines entry instructions)[index]? = (instructions[index]?).map
      (instructionLine entry (toString (max 1 instructions.size)).length index) := by
  simp [instructionLines, Function.comp_def]

/-- There are as many lines as instructions. -/
theorem length_instructionLines (entry : Word) (instructions : Array Instruction) :
    (instructionLines entry instructions).length = instructions.size := by
  simp [instructionLines]

/-- Two entry points mark the same lines of a program if they are equal or mark none. -/
theorem marks_agree_iff {entry entry' : Word} {size : Nat} :
    (∀ index < size, index = entry.toNat ↔ index = entry'.toNat) ↔
      entry = entry' ∨ size ≤ entry.toNat ∧ size ≤ entry'.toNat := by
  rw [← UInt64.toNat_inj]
  constructor
  · intro hmarks
    by_cases hinside : entry.toNat < size
    · exact .inl ((hmarks _ hinside).1 rfl)
    · by_cases hinside' : entry'.toNat < size
      · exact .inl ((hmarks _ hinside').2 rfl).symm
      · exact .inr ⟨Nat.le_of_not_lt hinside, Nat.le_of_not_lt hinside'⟩
  · rintro (hsame | houtside) index hindex
    · rw [hsame]
    · omega

/-- Two listings are equal if they show the same program and mark the same entry point, or none. -/
theorem instructionLines_eq_iff {entry entry' : Word}
    {instructions instructions' : Array Instruction}
    (hzero : ∀ x ∈ instructions, Opcode.carriesOperand x.opcode = false → x.operand = 0)
    (hzero' : ∀ x ∈ instructions', Opcode.carriesOperand x.opcode = false → x.operand = 0) :
    instructionLines entry instructions = instructionLines entry' instructions' ↔
      instructions = instructions' ∧
        (entry = entry' ∨ instructions.size ≤ entry.toNat ∧ instructions'.size ≤ entry'.toNat) := by
  constructor
  · intro h
    -- there are as many lines, so the indices are printed at the same width
    have hsize : instructions.size = instructions'.size := by
      rw [← length_instructionLines entry, h, length_instructionLines]
    have hlines (index : Nat) (hindex : index < instructions.size)
        (hindex' : index < instructions'.size) :
        (index = entry.toNat ↔ index = entry'.toNat) ∧
          instructions[index].text = instructions'[index].text := by
      have hline := congrArg (·[index]?) h
      simp only [getElem?_instructionLines, Array.getElem?_eq_getElem hindex,
        Array.getElem?_eq_getElem hindex', Option.map_some, Option.some_inj, hsize] at hline
      exact instructionLine_eq_iff.1 hline
    have hprogram : instructions = instructions' := Array.ext hsize fun index hindex hindex' =>
      Instruction.text_inj (hzero _ (Array.getElem_mem hindex))
        (hzero' _ (Array.getElem_mem hindex')) (hlines index hindex hindex').2
    rcases hprogram with rfl
    -- only now are the two entry points marked in one program
    exact ⟨rfl, marks_agree_iff.1 fun index hindex => (hlines index hindex hindex).1⟩
  · rintro ⟨rfl, hentries⟩
    refine List.ext_getElem? fun index => ?_
    rw [getElem?_instructionLines, getElem?_instructionLines]
    refine Option.map_congr fun i hi => instructionLine_eq_iff.2 ⟨?_, rfl⟩
    exact marks_agree_iff.2 hentries index (Array.getElem?_eq_some_iff.1 hi).1

/-! ## Printed texts -/

theorem not_mem_margin (width index : Nat) : '\n' ∉ (margin width index).toList := by
  have hindex : '\n' ∉ (toString index).toList := by
    intro hmem
    rw [← Text.zeros_zero] at hmem
    exact absurd (Text.isDigit_of_mem_zeros hmem) (by decide)
  unfold margin
  rw [String.toList_append, String.toList_append, List.mem_append, List.mem_append]
  rintro ((hblank | hfield) | hblank)
  · exact absurd hblank (by decide)
  · exact Text.not_mem_right (by decide) hindex hfield
  · exact absurd hblank (by decide)

/-- The line of an instruction is one line. -/
theorem not_mem_instructionLine (entry : Word) (width index : Nat) (i : Instruction) :
    '\n' ∉ (instructionLine entry width index i).toList := by
  have hmark : '\n' ≠ if index = entry.toNat then '>' else ' ' := by
    split <;> decide
  rw [toList_instructionLine, List.mem_cons, List.mem_append, not_or, not_or]
  exact ⟨hmark, not_mem_margin width index, i.not_mem_text⟩

/-- No line of a listing has the end of a line inside. -/
theorem not_mem_programLines {entry : Word} {instructions : Array Instruction} {l : String}
    (hl : l ∈ programLines entry instructions) : '\n' ∉ l.toList := by
  simp only [programLines, instructionLines, List.mem_append, List.mem_singleton,
    List.mem_map] at hl
  rcases hl with (rfl | ⟨⟨i, index⟩, -, rfl⟩) | rfl
  · decide
  · exact not_mem_instructionLine _ _ _ _
  · decide

/-- The listing of a program is its lines. -/
theorem print_program (h : Header) (i : Image) :
    print { program := true } h i = Text.lines (programLines h.entry i.instructions) := by
  simp [print]

/-- Of an image that was read, the printed program tells all instructions, and the entry point if
it lies in the program. -/
theorem disassembly_determines_program {bytes bytes' rest rest' : Bytes} {h h' : Header}
    {i i' : Image} (hread : Section.image bytes = .ok ((h, i), rest))
    (hread' : Section.image bytes' = .ok ((h', i'), rest')) :
    print { program := true } h i = print { program := true } h' i' ↔
      i.instructions = i'.instructions ∧
        (h.entry = h'.entry ∨
          i.instructions.size ≤ h.entry.toNat ∧ i'.instructions.size ≤ h'.entry.toNat) := by
  rcases Section.image_ok_iff.1 hread with ⟨-, l, -, hw⟩
  rcases Section.image_ok_iff.1 hread' with ⟨-, l', -, hw'⟩
  rw [← instructionLines_eq_iff (Image.representable_of_writes hw).operands
    (Image.representable_of_writes hw').operands, print_program, print_program]
  constructor
  · intro hprinted
    have hlines : programLines h.entry i.instructions = programLines h'.entry i'.instructions :=
      Text.lines_inj (fun _ => not_mem_programLines) (fun _ => not_mem_programLines) hprinted
    exact List.append_cancel_left (List.append_cancel_right hlines)
  · intro hlines
    rw [programLines, programLines, hlines]

/-- Entry points behind the program are not told apart, one in the program is told from them. -/
theorem disassembly_determines_program_behind :
    let first : Image :=
      { entry := 3, instructions := #[.of .push 0x1234567890, ⟨0x30, 0⟩, .of .ret 0] }
    let second : Image := { first with entry := 7, memory := [1, 2, 3] }
    let third : Image := { first with entry := 1 }
    Section.image first.encode = .ok ((first.header, first), []) ∧
      Section.image second.encode = .ok ((second.header, second), []) ∧
      Section.image third.encode = .ok ((third.header, third), []) ∧
      print { program := true } first.header first =
        print { program := true } second.header second ∧
      print { program := true } first.header first ≠
        print { program := true } third.header third := by
  intro first second third
  have hfirst : Section.image first.encode = .ok ((first.header, first), []) := by
    dsimp only [first]
    rfl
  have hsecond : Section.image second.encode = .ok ((second.header, second), []) := by
    dsimp only [second, first]
    rfl
  have hthird : Section.image third.encode = .ok ((third.header, third), []) := by
    dsimp only [third, first]
    rfl
  refine ⟨hfirst, hsecond, hthird, ?_, ?_⟩
  · exact (disassembly_determines_program hfirst hsecond).2 ⟨rfl, .inr (by decide)⟩
  · intro hsame
    have hentries := ((disassembly_determines_program hfirst hthird).1 hsame).2
    exact absurd hentries (by decide)

end Inspector
end StackMachine
