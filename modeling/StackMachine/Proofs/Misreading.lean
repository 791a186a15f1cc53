import StackMachine.Proofs.Canonical

/-!
# Misreading — written forms that say something else

A name is written in full, but behind only the low two bytes of its length. A reader takes the front
of a long name for the name, the bytes behind that for the address, and goes on in the middle of the
name. What it finds there may be well-formed, so that an image is read that was never written.

* `Instruction.carried`, `Image.carried` — what is left of an operand that its opcode does not
  carry;
* `Symbol.Fits` — the length of the name fits in two bytes;
* `Symbol.misread` — symbols in front of the first long name are read as they are, and a long name
  needs two symbols behind it to be read at all;
* `Image.ReadAs` — what an image can be read as;
* `Image.overlong_misread` — an image that is read as another one;
* `Image.accepted_exact` — what is read from a written form differs from what was written in the
  symbols only, and exactly if a name is too long.
-/

namespace StackMachine

/-! ## Operands -/

namespace Instruction

/-- The instruction as far as it is written: an operand that the opcode does not carry is none. -/
def carried (x : Instruction) : Instruction :=
  if Opcode.carriesOperand x.opcode then x else ⟨x.opcode, 0⟩

/-- An operand that is not carried is not written. -/
theorem encode_carried (x : Instruction) : x.carried.encode = x.encode := by
  unfold carried
  split
  next => rfl
  next hnone =>
    have hbare : Opcode.carriesOperand x.opcode = false := by simpa using hnone
    have hwritten : x.encode = [x.opcode] := encode_of_bare hbare
    rw [encode_of_bare hbare, hwritten]

/-- What is not carried is read as zero. -/
theorem operand_carried (x : Instruction)
    (hbare : Opcode.carriesOperand x.carried.opcode = false) : x.carried.operand = 0 := by
  unfold carried at hbare ⊢
  split at hbare
  next hcarries =>
    rw [hcarries] at hbare
    cases hbare
  next hnone => rw [if_neg hnone]

/-- The instruction as far as it is written is the one that is read. -/
theorem written_carried (x : Instruction) : x.carried.Written x.encode := by
  rw [← encode_carried]
  exact written_encode x.operand_carried

end Instruction

/-! ## Symbols -/

namespace Symbol

def width (s : Symbol) : Nat := (Utf8.encode s.name).length

/-- The length of the name fits in two bytes. -/
def Fits (s : Symbol) : Prop := s.width ≤ 65535

theorem written_encode {s : Symbol} (h : s.Fits) : s.Written s.encode := written_encode_iff.2 h

/-- The name of a symbol that was written in order fits. -/
theorem fits_of_written {s : Symbol} {bs : Bytes} (h : s.Written bs) : s.Fits :=
  Nat.le_of_lt_succ h.1

/-- Symbols whose names fit are written in order. -/
theorem forall₂_written {symbols : List Symbol} (h : ∀ s ∈ symbols, s.Fits) :
    List.Forall₂ Written symbols (symbols.map encode) := by
  rw [List.forall₂_map_right_iff, List.forall₂_same]
  intro s hs
  exact written_encode (h s hs)

/-- What is read is written again as what it was read from. -/
theorem encode_eq (s : Symbol) : s.encode =
    Bytes.ofNatLE 2 s.width ++ Utf8.encode s.name ++ Bytes.ofUInt64 s.address := rfl

/-- A symbol is written as its name and ten bytes more. -/
theorem length_encode (s : Symbol) : s.encode.length = s.width + 10 := by
  rw [encode_eq]
  simp only [Bytes.ofUInt64, List.length_append, Bytes.length_ofNatLE, width]
  omega

/-- Every symbol takes at least ten bytes. -/
theorem length_le_flatMap_encode (symbols : List Symbol) :
    10 * symbols.length ≤ (symbols.flatMap encode).length := by
  induction symbols with
  | nil => exact Nat.le_refl 0
  | cons s symbols ih =>
    rw [List.flatMap_cons, List.length_append, length_encode, List.length_cons]
    omega

/-- A symbol whose name fits takes at most 65545 bytes. -/
theorem length_flatMap_encode_le {symbols : List Symbol} (h : ∀ s ∈ symbols, s.Fits) :
    (symbols.flatMap encode).length ≤ 65545 * symbols.length := by
  induction symbols with
  | nil => exact Nat.le_refl 0
  | cons s symbols ih =>
    rcases List.forall_mem_cons.1 h with ⟨hs, hsymbols⟩
    have hrest := ih hsymbols
    unfold Fits at hs
    rw [List.flatMap_cons, List.length_append, length_encode, List.length_cons]
    omega

/-- The first symbol of a row starts with its length, whatever it was written for. -/
theorem width_mod_eq {s s' : Symbol} {rest rest' : Bytes}
    (heq : s'.encode ++ rest' = s.encode ++ rest) : s'.width % 65536 = s.width % 65536 := by
  simp only [encode_eq, List.append_assoc] at heq
  have hlength := (List.append_inj heq (by simp)).1
  have hnumber := congrArg Bytes.toNatLE hlength
  rwa [Bytes.toNatLE_ofNatLE, Bytes.toNatLE_ofNatLE] at hnumber

/-- Symbols are read in a row. Those in front of the first long name are read as they are; the long
name is read up to its length modulo 65536, and the bytes that are left of it are more than one name
can take. -/
theorem misread {read before after : List Symbol} {s : Symbol} (hread : ∀ x ∈ read, x.Fits)
    (hlength : read.length = (before ++ s :: after).length)
    (heq : read.flatMap encode = (before ++ s :: after).flatMap encode)
    (hbefore : ∀ x ∈ before, x.Fits) (hlong : ¬s.Fits) :
    ∃ s' after', read = before ++ s' :: after' ∧ s'.width = s.width % 65536 ∧
      2 ≤ after.length := by
  induction before generalizing read with
  | nil =>
    cases read with
    | nil => cases hlength
    | cons s' after' =>
      rcases List.forall_mem_cons.1 hread with ⟨hs', hafter'⟩
      have hcount : after'.length = after.length := Nat.succ.inj hlength
      have hmod : s'.width = s.width % 65536 := by
        rw [← width_mod_eq heq]
        exact (Nat.mod_eq_of_lt (Nat.lt_succ_of_le hs')).symm
      have htotal : (s'.encode ++ after'.flatMap encode).length =
          (s.encode ++ after.flatMap encode).length := congrArg List.length heq
      rw [List.length_append, List.length_append, length_encode, length_encode] at htotal
      -- what is missing of the long name is a multiple of 65536, and the others have to take it
      have hmost := length_flatMap_encode_le hafter'
      have hleast := length_le_flatMap_encode after
      unfold Fits at hlong
      exact ⟨s', after', rfl, hmod, by omega⟩
  | cons b before ih =>
    cases read with
    | nil => cases hlength
    | cons r read =>
      rcases List.forall_mem_cons.1 hread with ⟨hr, hread'⟩
      rcases List.forall_mem_cons.1 hbefore with ⟨hb, hbefore'⟩
      -- bytes start with at most one symbol whose name fits
      have haccepts : (Section.symbol 0).Accepts Written := Section.accepts_symbol 0
      rcases haccepts.unambiguous (written_encode hr) (written_encode hb) heq with ⟨rfl, -, hrest⟩
      rcases ih hread' (Nat.succ.inj hlength) hrest hbefore' with ⟨s', after', rfl, hmod, hcount⟩
      exact ⟨s', after', rfl, hmod, hcount⟩

/-- If all names fit, symbols are told by their written form. -/
theorem read_eq {read written : List Symbol} (hread : ∀ x ∈ read, x.Fits)
    (hwritten : ∀ x ∈ written, x.Fits) (hlength : read.length = written.length)
    (heq : read.flatMap encode = written.flatMap encode) : read = written := by
  have hflatten : (read.map encode).flatten ++ [] = (written.map encode).flatten ++ [] := by
    rw [← List.flatMap_def, ← List.flatMap_def, heq]
  exact (Section.series_unambiguous (Section.accepts_symbol 0) (forall₂_written hread)
    (forall₂_written hwritten) hlength hflatten).1

end Symbol

/-! ## Whole images -/

namespace Image

/-- The image as far as its instructions are written. -/
def carried (i : Image) : Image :=
  { i with instructions := i.instructions.map Instruction.carried }

theorem header_carried (i : Image) : i.carried.header = i.header := by
  simp [carried, header]

theorem encode_carried (i : Image) : i.carried.encode = i.encode := by
  have hprogram : (i.instructions.map Instruction.carried).toList.flatMap Instruction.encode =
      i.instructions.toList.flatMap Instruction.encode := by
    rw [Array.toList_map, List.flatMap_map]
    exact List.flatMap_congr fun x _ => x.encode_carried
  unfold encode
  rw [header_carried]
  unfold carried
  rw [hprogram]

def withSymbols (i : Image) (symbols : Array Symbol) : Image := { i with symbols := symbols }

section Symbols

variable (i : Image) {symbols : Array Symbol} (hsize : symbols.size = i.symbols.size)
include hsize

theorem header_withSymbols : (i.withSymbols symbols).header = i.header := by
  simp [header, withSymbols, hsize]

/-- An image with other symbols that are written alike is written alike. -/
theorem encode_withSymbols
    (hbytes : symbols.toList.flatMap Symbol.encode = i.symbols.toList.flatMap Symbol.encode) :
    (i.withSymbols symbols).encode = i.encode := by
  unfold encode
  rw [i.header_withSymbols hsize]
  unfold withSymbols
  rw [hbytes]

end Symbols

/-- What the written form of `i` can be read as: an image `j` with the same contents but for the
symbols. Of these there are as many, they have the same written form, and their names fit. -/
structure ReadAs (i j : Image) : Prop where
  contents : j = i.carried.withSymbols j.symbols
  count : j.symbols.size = i.symbols.size
  bytes : j.symbols.toList.flatMap Symbol.encode = i.symbols.toList.flatMap Symbol.encode
  fits : ∀ s ∈ j.symbols, s.Fits
  memory : i.memory.length ≤ Address.maxRegionLength

variable {i j : Image} {h : Header} {l : Layout}

/-- Each section fixes where the next one starts, up to the symbols. These are followed by the
memory, whose length is known, and nothing after it. -/
theorem sections_of_writes (hcount : i.Countable) (hmemory : i.memory.length < UInt64.size)
    (hw : l.Writes h j) (hbytes : l.bytes = i.encode) :
    h = i.header ∧ j = i.carried.withSymbols j.symbols ∧
      l.symbols.flatten = i.symbols.toList.flatMap Symbol.encode := by
  rw [← i.bytes_encoded] at hbytes
  have hheader : i.header.Written i.header.encode := ⟨rfl, rfl, rfl⟩
  rcases Section.accepts_header.unambiguous hw.header hheader hbytes with ⟨rfl, -, hbytes⟩
  have hpools : List.Forall₂ PoolEntry.Written i.pool.toList (i.pool.toList.map PoolEntry.encode) :=
    forall₂_map fun _ _ => rfl
  have hpoolSize : j.pool.toList.length = i.pool.toList.length := by
    have hsize := hw.pool_size
    rwa [Image.header, UInt64.toNat_ofNat_of_lt' hcount.pool] at hsize
  rcases Section.series_unambiguous Section.accepts_poolEntry hw.pool hpools hpoolSize hbytes with
    ⟨hpool, -, hbytes⟩
  have hprograms : List.Forall₂ Instruction.Written
      (i.instructions.toList.map Instruction.carried)
      (i.instructions.toList.map Instruction.encode) := by
    rw [List.forall₂_map_left_iff]
    exact forall₂_map fun x _ => x.written_carried
  have hprogramSize : j.instructions.toList.length =
      (i.instructions.toList.map Instruction.carried).length := by
    have hsize := hw.program_size
    rw [Image.header, UInt64.toNat_ofNat_of_lt' hcount.instructions] at hsize
    simpa using hsize
  rcases Section.series_unambiguous (Section.accepts_instruction 0) hw.program hprograms
    hprogramSize hbytes with ⟨hprogram, -, hbytes⟩
  -- symbols may end anywhere, so the rest is divided from its end
  have hmemorySize : l.memory.length = i.memory.length := by
    have hsize := hw.memory_size
    rwa [Image.header, UInt64.toNat_ofNat_of_lt' hmemory, ← hw.memory] at hsize
  rcases List.append_inj' hbytes hmemorySize with ⟨hsymbols, hsame⟩
  refine ⟨rfl, ?_, ?_⟩
  · rcases j with ⟨flags, entry, pool, instructions, symbols, memory⟩
    simp only [carried, withSymbols, Image.mk.injEq, true_and]
    refine ⟨hw.flags, hw.entry, Array.toList_inj.1 hpool, ?_, hw.memory.symm.trans hsame⟩
    apply Array.toList_inj.1
    rw [Array.toList_map]
    exact hprogram
  · rw [hsymbols, List.flatMap_def]
    rfl

/-- What is read from the written form of an image differs in its symbols at most. -/
theorem readAs_of_writes (hcount : i.Countable) (hmemory : i.memory.length < UInt64.size)
    (hw : l.Writes h j) (hbytes : l.bytes = i.encode) : h = i.header ∧ i.ReadAs j := by
  rcases sections_of_writes hcount hmemory hw hbytes with ⟨hheader, hcontents, hsymbols⟩
  refine ⟨hheader, hcontents, ?_, ?_, ?_, ?_⟩
  · have hsize := hw.symbols_size
    rwa [hheader, Image.header, UInt64.toNat_ofNat_of_lt' hcount.symbols] at hsize
  · have hparts := eq_map_of_forall₂ (fun _ _ hbs => hbs.2) hw.symbols
    rw [← hsymbols, hparts, List.flatMap_def]
    rfl
  · intro s hs
    exact forall_mem_of_forall₂ hw.symbols (fun _ _ => Symbol.fits_of_written) s hs
  · have hlength := (representable_of_writes hw).memory
    rwa [hcontents] at hlength

namespace ReadAs

theorem header_eq (hread : i.ReadAs j) : j.header = i.header := by
  rw [hread.contents, i.carried.header_withSymbols hread.count, header_carried]

theorem encode_eq (hread : i.ReadAs j) : j.encode = i.encode := by
  rw [hread.contents, i.carried.encode_withSymbols hread.count hread.bytes, encode_carried]

theorem countable (hread : i.ReadAs j) (hcount : i.Countable) : j.Countable := by
  have hsymbols := hcount.symbols
  rw [← hread.count] at hsymbols
  rw [hread.contents]
  exact ⟨hcount.pool, by simpa [withSymbols, carried] using hcount.instructions, hsymbols⟩

theorem representable (hread : i.ReadAs j) : j.Representable := by
  have hfits := hread.fits
  rw [hread.contents]
  refine ⟨hfits, hread.memory, fun x hx => ?_⟩
  rcases Array.mem_map.1 hx with ⟨y, -, rfl⟩
  exact y.operand_carried

/-- An image is read as it was exactly if all its names fit. -/
theorem eq_carried_iff (hread : i.ReadAs j) : j = i.carried ↔ ∀ s ∈ i.symbols, s.Fits := by
  constructor
  · rintro rfl
    exact hread.fits
  · intro hnames
    have hsame : j.symbols = i.symbols := by
      apply Array.toList_inj.1
      refine Symbol.read_eq ?_ ?_ hread.count hread.bytes
      · simpa using hread.fits
      · simpa using hnames
    rw [hread.contents, hsame]
    rfl

/-- The first name that does not fit is read up to its length modulo 65536, the symbols before it as
they are. -/
theorem misread (hread : i.ReadAs j) {before after : List Symbol} {s : Symbol}
    (hsplit : i.symbols.toList = before ++ s :: after) (hbefore : ∀ x ∈ before, x.Fits)
    (hlong : ¬s.Fits) :
    ∃ s' after', j.symbols.toList = before ++ s' :: after' ∧ s'.width = s.width % 65536 ∧
      2 ≤ after.length := by
  have hbytes := hread.bytes
  rw [hsplit] at hbytes
  have hlength : j.symbols.toList.length = (before ++ s :: after).length := by
    rw [← hsplit]
    exact hread.count
  exact Symbol.misread (by simpa using hread.fits) hlength hbytes hbefore hlong

end ReadAs

/-- An image can be read as it was exactly if its names and its memory fit. -/
theorem readAs_carried_iff : i.ReadAs i.carried ↔
    (∀ s ∈ i.symbols, s.Fits) ∧ i.memory.length ≤ Address.maxRegionLength :=
  ⟨fun hread => ⟨hread.fits, hread.memory⟩, fun hfits => ⟨rfl, rfl, rfl, hfits.1, hfits.2⟩⟩

/-- The images that a written form can be read as. -/
theorem image_encode_ok_iff (hcount : i.Countable) (hmemory : i.memory.length < UInt64.size)
    {rest : Bytes} :
    Section.image i.encode = .ok ((h, j), rest) ↔ rest = [] ∧ h = i.header ∧ i.ReadAs j := by
  rw [Section.image_ok_iff]
  refine and_congr_right fun _ => ⟨?_, ?_⟩
  · rintro ⟨l, hbytes, hw⟩
    exact readAs_of_writes hcount hmemory hw hbytes
  · rintro ⟨rfl, hread⟩
    rw [← hread.header_eq, ← hread.encode_eq]
    exact ⟨j.encoded, j.bytes_encoded, writes_encoded (hread.countable hcount) hread.representable⟩

end Image

/-! ## A written form that is read as another image

The first name is 65536 times the letter `x`, so that its length is written as zero. Eight of its
letters are taken for an address, the next two for the length 30840 of a name. The second length is
26984, which is written like the letters `hi`: they are part of a text as well. -/

/-- Eight letters `x`, as an address. -/
def Symbol.letters : Word := 0x7878787878787878

def Symbol.filled (n : Nat) (address : Word) : Symbol :=
  ⟨String.ofList (List.replicate n 'x'), address⟩

/-- What is left for the last name. -/
def Symbol.leftover : Symbol :=
  ⟨String.ofList (List.replicate 3826 'x' ++ (List.replicate 8 '\x00' ++ ('h' :: 'i' ::
    (List.replicate 26984 'x' ++ List.replicate 20 '\x00')))), 0⟩

/-- Image with a name whose length is written as zero. -/
def Image.overlong : Image :=
  { flags := .executable, symbols := #[.filled 65536 0, .filled 26984 0, .filled 0 0, .filled 0 0] }

/-- The image that is read from the written form of `overlong`. -/
def Image.overlongRead : Image :=
  overlong.withSymbols
    #[.filled 0 Symbol.letters, .filled 30840 Symbol.letters, .filled 30840 Symbol.letters,
      .leftover]

theorem Utf8.encode_ofList (text : List Char) :
    Utf8.encode (String.ofList text) = text.flatMap String.utf8EncodeChar := by
  unfold Utf8.encode
  simp [String.toUTF8_eq_toByteArray, List.utf8Encode]

theorem flatMap_utf8EncodeChar_replicate {c : Char} {byte : UInt8}
    (hbyte : String.utf8EncodeChar c = [byte]) (n : Nat) :
    (List.replicate n c).flatMap String.utf8EncodeChar = List.replicate n byte := by
  rw [List.flatMap_replicate, hbyte, List.flatten_replicate_singleton]

namespace Symbol

theorem encode_name_filled (n : Nat) (address : Word) :
    Utf8.encode (filled n address).name = List.replicate n 120 := by
  unfold filled
  rw [Utf8.encode_ofList]
  exact flatMap_utf8EncodeChar_replicate (by decide) n

theorem width_filled (n : Nat) (address : Word) : (filled n address).width = n := by
  unfold width
  rw [encode_name_filled, List.length_replicate]

theorem encode_filled (n : Nat) (address : Word) : (filled n address).encode =
    Bytes.ofNatLE 2 n ++ List.replicate n 120 ++ Bytes.ofUInt64 address := by
  rw [encode_eq, width_filled, encode_name_filled]
  rfl

theorem encode_name_leftover : Utf8.encode leftover.name =
    List.replicate 3826 120 ++ (List.replicate 8 0 ++ (104 :: 105 ::
      (List.replicate 26984 120 ++ List.replicate 20 0))) := by
  have hletters : ∀ n, (List.replicate n 'x').flatMap String.utf8EncodeChar =
      List.replicate n 120 := flatMap_utf8EncodeChar_replicate (by decide)
  have hzeros : ∀ n, (List.replicate n '\x00').flatMap String.utf8EncodeChar =
      List.replicate n 0 := flatMap_utf8EncodeChar_replicate (by decide)
  have hh : String.utf8EncodeChar 'h' = [104] := by decide
  have hi : String.utf8EncodeChar 'i' = [105] := by decide
  unfold leftover
  rw [Utf8.encode_ofList, List.flatMap_append, List.flatMap_append, List.flatMap_cons,
    List.flatMap_cons, List.flatMap_append, hletters, hletters, hzeros, hzeros, hh, hi]
  simp only [List.cons_append, List.nil_append]

theorem width_leftover : leftover.width = 30840 := by
  unfold width
  rw [encode_name_leftover, List.length_append, List.length_append, List.length_cons,
    List.length_cons, List.length_append, List.length_replicate, List.length_replicate,
    List.length_replicate, List.length_replicate]

theorem encode_leftover : leftover.encode = List.replicate 2 120 ++ (List.replicate 3826 120 ++
    (List.replicate 8 0 ++ (104 :: 105 :: (List.replicate 26984 120 ++ List.replicate 28 0)))) := by
  have hlength : Bytes.ofNatLE 2 30840 = List.replicate 2 120 := by decide
  have haddress : Bytes.ofUInt64 leftover.address = List.replicate 8 0 := by decide
  have hzeros : List.replicate 28 (0 : UInt8) = List.replicate 20 0 ++ List.replicate 8 0 := by
    decide
  rw [encode_eq, width_leftover, encode_name_leftover, hlength, haddress, hzeros]
  simp only [List.append_assoc, List.cons_append]

/-- The letters of the first name: an address, two symbols with an address each, and the front of
the leftover. -/
theorem replicate_letters (x : UInt8) : List.replicate 65536 x =
    List.replicate 8 x ++ (List.replicate 2 x ++ (List.replicate 30840 x ++ (List.replicate 8 x ++
      (List.replicate 2 x ++ (List.replicate 30840 x ++ (List.replicate 8 x ++
        (List.replicate 2 x ++ List.replicate 3826 x))))))) := by
  repeat rw [List.replicate_append_replicate]

end Symbol

namespace Image

/-- Both images have the same symbols in writing. -/
theorem flatMap_encode_overlongRead :
    overlongRead.symbols.toList.flatMap Symbol.encode =
      overlong.symbols.toList.flatMap Symbol.encode := by
  have hempty : Bytes.ofNatLE 2 0 = List.replicate 2 0 := by decide
  have hlong : Bytes.ofNatLE 2 65536 = List.replicate 2 0 := by decide
  have hletters : Bytes.ofNatLE 2 30840 = List.replicate 2 120 := by decide
  have hi : Bytes.ofNatLE 2 26984 = [104, 105] := by decide
  have hnull : Bytes.ofUInt64 0 = List.replicate 8 0 := by decide
  have haddress : Bytes.ofUInt64 Symbol.letters = List.replicate 8 120 := by decide
  have hzeros : List.replicate 28 (0 : UInt8) = List.replicate 8 0 ++ (List.replicate 2 0 ++
      (List.replicate 8 0 ++ (List.replicate 2 0 ++ List.replicate 8 0))) := by decide
  show List.flatMap Symbol.encode [.filled 0 Symbol.letters, .filled 30840 Symbol.letters,
      .filled 30840 Symbol.letters, .leftover] =
    List.flatMap Symbol.encode [.filled 65536 0, .filled 26984 0, .filled 0 0, .filled 0 0]
  rw [List.flatMap_cons, List.flatMap_cons, List.flatMap_cons, List.flatMap_cons, List.flatMap_nil,
    List.flatMap_cons, List.flatMap_cons, List.flatMap_cons, List.flatMap_cons, List.flatMap_nil]
  rw [Symbol.encode_filled, Symbol.encode_filled, Symbol.encode_filled, Symbol.encode_filled,
    Symbol.encode_filled, Symbol.encode_leftover, hempty, hlong, hletters, hi, hnull, haddress,
    Symbol.replicate_letters, hzeros]
  simp only [List.append_assoc, List.cons_append, List.nil_append, List.append_nil,
    List.replicate_zero]

/-- The names that are read all fit. -/
theorem fits_overlongRead : ∀ s ∈ overlongRead.symbols, s.Fits := by
  intro s hs
  have hmem : s = .filled 0 Symbol.letters ∨ s = .filled 30840 Symbol.letters ∨
      s = .leftover := by
    simpa [overlongRead, withSymbols] using hs
  unfold Symbol.Fits
  rcases hmem with rfl | rfl | rfl
  · rw [Symbol.width_filled]
    exact Nat.zero_le _
  · rw [Symbol.width_filled]
    omega
  · rw [Symbol.width_leftover]
    omega

/-- The image with the overlong name is read as another one. -/
theorem readAs_overlongRead : overlong.ReadAs overlongRead where
  contents := by simp [overlongRead, overlong, carried, withSymbols]
  count := by simp [overlongRead, overlong, withSymbols]
  bytes := flatMap_encode_overlongRead
  fits := fits_overlongRead
  memory := Nat.zero_le _

theorem countable_overlong : overlong.Countable where
  pool := by decide
  instructions := by decide
  symbols := by
    have hsize : overlong.symbols.size = 4 := by simp [overlong]
    rw [hsize]
    decide

theorem not_fits_overlong : ¬(Symbol.filled 65536 0).Fits := by
  unfold Symbol.Fits
  rw [Symbol.width_filled]
  omega

theorem mem_overlong : Symbol.filled 65536 0 ∈ overlong.symbols := by simp [overlong]

/-- What was written is accepted, and is another image. -/
theorem overlong_misread :
    Section.image overlong.encode = .ok ((overlong.header, overlongRead), []) ∧
      overlongRead.symbols ≠ overlong.symbols := by
  constructor
  · rw [image_encode_ok_iff countable_overlong (by decide)]
    exact ⟨rfl, rfl, readAs_overlongRead⟩
  · intro hsame
    have hfits := fits_overlongRead
    rw [hsame] at hfits
    exact not_fits_overlong (hfits _ mem_overlong)

/-- The written form of an image is read as an image with the same header and the same contents but
for the symbols. It is the image itself, as far as it is written, exactly if all names fit.
Otherwise the first long name is cut, and the symbols behind it are taken from the rest of its
bytes. -/
theorem accepted_exact (i : Image) (hcount : i.Countable)
    (hmemory : i.memory.length < UInt64.size) :
    (∀ h j rest, Section.image i.encode = .ok ((h, j), rest) ↔
      rest = [] ∧ h = i.header ∧ i.ReadAs j) ∧
    (i.ReadAs i.carried ↔
      (∀ s ∈ i.symbols, s.Fits) ∧ i.memory.length ≤ Address.maxRegionLength) ∧
    ∀ j, i.ReadAs j → (j = i.carried ↔ ∀ s ∈ i.symbols, s.Fits) ∧
      ∀ before s after, i.symbols.toList = before ++ s :: after → (∀ x ∈ before, x.Fits) →
        ¬s.Fits → ∃ s' after', j.symbols.toList = before ++ s' :: after' ∧
          s'.width = s.width % 65536 ∧ 2 ≤ after.length := by
  refine ⟨fun h j rest => image_encode_ok_iff hcount hmemory, readAs_carried_iff, ?_⟩
  intro j hread
  refine ⟨hread.eq_carried_iff, fun before s after hsplit hbefore hlong => ?_⟩
  exact hread.misread hsplit hbefore hlong

/-- The first name is read as an empty one. -/
theorem accepted_exact_overlong : overlong.Countable ∧ overlong.memory.length < UInt64.size ∧
    Section.image overlong.encode = .ok ((overlong.header, overlongRead), []) ∧
    ¬overlong.ReadAs overlong.carried ∧
    ∃ s' after', overlongRead.symbols.toList = s' :: after' ∧ s'.width = 0 := by
  have hmemory : overlong.memory.length < UInt64.size := by decide
  rcases accepted_exact overlong countable_overlong hmemory with ⟨hread, hcarried, hall⟩
  refine ⟨countable_overlong, hmemory, ?_, ?_, ?_⟩
  · exact (hread _ _ _).2 ⟨rfl, rfl, readAs_overlongRead⟩
  · intro hsame
    exact not_fits_overlong ((hcarried.1 hsame).1 _ mem_overlong)
  · have hsplit : overlong.symbols.toList =
        [] ++ Symbol.filled 65536 0 :: [.filled 26984 0, .filled 0 0, .filled 0 0] := by
      simp [overlong]
    rcases (hall overlongRead readAs_overlongRead).2 _ _ _ hsplit (by simp) not_fits_overlong with
      ⟨s', after', hfirst, hwidth, -⟩
    refine ⟨s', after', hfirst, ?_⟩
    rw [hwidth, Symbol.width_filled]

end Image

end StackMachine
