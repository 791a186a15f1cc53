import Mathlib.Data.List.Forall2
import StackMachine.Module.Load
import StackMachine.Proofs.Decoder

/-!
# Grammar — the written forms of an image

An image is a header, then pool records, instructions, symbols and memory. The grammar says which
bytes are a written form of each, without reading anything:

* `Instruction.Written` — an operand may be written with more bytes than it needs;
* `Symbol.Written` — the length of a name fits in two bytes.

The reader of each part accepts exactly its written forms and leaves what follows them, which is
`Section.Accepts`. Since a reader has one answer, no bytes start with two written forms.
-/

namespace StackMachine

/-! ## Written forms -/

def Header.Written (h : Header) (bs : Bytes) : Prop :=
  h.magic = Header.expectedMagic ∧ h.version = Header.currentVersion ∧ bs = h.encode

/-- Every header is forty-six bytes long. -/
theorem Header.Written.length_eq {h : Header} {bs : Bytes} (hw : h.Written bs) :
    bs.length = 46 := by
  simp [hw.2.2, Header.encode, Bytes.ofUInt16, Bytes.ofUInt64]

def PoolEntry.Written (e : PoolEntry) (bs : Bytes) : Prop := bs = e.encode

inductive Instruction.Written : Instruction → Bytes → Prop
  /-- An opcode that carries no operand, assigned or not, stands alone and means operand zero. -/
  | bare {opcode : UInt8} (hbare : Opcode.carriesOperand opcode = false) :
      Written ⟨opcode, 0⟩ [opcode]
  /-- An opcode that carries an operand is followed by a width and that many operand bytes. -/
  | withOperand {opcode : UInt8} {digits : Bytes} (hcarries : Opcode.carriesOperand opcode = true)
      (hwidth : digits.length ≤ 8) :
      Written ⟨opcode, UInt64.ofNat digits.toNatLE⟩
        (opcode :: UInt8.ofNat digits.length :: digits)

/-- The written form of a symbol: the length of its name in two bytes, the name, the address. -/
def Symbol.Written (s : Symbol) (bs : Bytes) : Prop :=
  (Utf8.encode s.name).length < 65536 ∧
    bs = Bytes.ofNatLE 2 (Utf8.encode s.name).length ++ Utf8.encode s.name ++
      Bytes.ofUInt64 s.address

/-- A text is decoded exactly from its own bytes. -/
theorem Utf8.decode?_eq_some_iff {bs : Bytes} {name : String} :
    Utf8.decode? bs = some name ↔ bs = Utf8.encode name := by
  unfold Utf8.decode? String.fromUTF8? Utf8.encode
  split
  next hvalid =>
    constructor
    · rintro ⟨⟩
      rfl
    · rintro rfl
      rfl
  next hinvalid =>
    simp only [reduceCtorEq, false_iff]
    rintro rfl
    exact hinvalid name.isValidUTF8

namespace Section

variable {α β : Type}

/-! ## Readers -/

/-- Readers in a row succeed if each does on what the one before has left. -/
theorem bind_ok_iff {x : Section α} {f : α → Section β} {input rest : Bytes} {b : β} :
    (x >>= f) input = .ok (b, rest) ↔
      ∃ a mid, x input = .ok (a, mid) ∧ f a mid = .ok (b, rest) := by
  show (x input >>= fun p => f p.1 p.2) = _ ↔ _
  rw [except_bind_ok_iff]
  simp

@[simp]
theorem pure_ok_iff {a b : α} {input rest : Bytes} :
    (pure a : Section α) input = .ok (b, rest) ↔ b = a ∧ rest = input := by
  show Except.ok (a, input) = _ ↔ _
  simp [eq_comm]

/-- A decoder reads as part of an image what it reads by itself. -/
@[simp]
theorem ofDecoder_ok_iff {d : Decoder α} {input rest : Bytes} {a : α} :
    ofDecoder d input = .ok (a, rest) ↔ d input = .ok a rest := by
  unfold ofDecoder
  cases d input with
  | ok b mid => simp
  | error e mid => simp

/-- The reader accepts exactly the inputs that start with a written form, and leaves the rest. -/
def Accepts (reader : Section α) (Written : α → Bytes → Prop) : Prop :=
  ∀ {input rest : Bytes} {a : α},
    reader input = .ok (a, rest) ↔ ∃ bs, Written a bs ∧ input = bs ++ rest

/-- What a reader accepts is unambiguous: an input starts with at most one written form. -/
theorem Accepts.unambiguous {reader : Section α} {Written : α → Bytes → Prop}
    (h : reader.Accepts Written) {a b : α} {as bs rest rest' : Bytes} (ha : Written a as)
    (hb : Written b bs) (heq : as ++ rest = bs ++ rest') : a = b ∧ as = bs ∧ rest = rest' := by
  have hfirst : reader (as ++ rest) = .ok (a, rest) := h.2 ⟨as, ha, rfl⟩
  have hsecond : reader (as ++ rest) = .ok (b, rest') := h.2 ⟨bs, hb, heq⟩
  rw [hfirst, Except.ok.injEq, Prod.mk.injEq] at hsecond
  rcases hsecond with ⟨rfl, rfl⟩
  exact ⟨rfl, List.append_cancel_right heq, rfl⟩

/-! ## The parts of an image -/

/-- A header starts with the magic and the version. -/
theorem exists_encode_eq (h : Header) : ∃ fields, ∀ rest,
    h.encode ++ rest = h.magic.toList ++ (Bytes.ofUInt16 h.version ++ (fields ++ rest)) :=
  ⟨h.flags.bits :: (Bytes.ofUInt64 h.entry ++ Bytes.ofUInt64 h.poolSize ++
    Bytes.ofUInt64 h.programSize ++ Bytes.ofUInt64 h.symbolSize ++ Bytes.ofUInt64 h.memorySize),
    fun rest => by simp [Header.encode]⟩

/-- The headers that are accepted are those with the right magic and version. -/
theorem accepts_header : header.Accepts Header.Written := by
  intro input rest h
  rcases exists_encode_eq h with ⟨fields, hencode⟩
  simp only [header, except_bind_ok_iff, Prod.exists, ofDecoder_ok_iff]
  constructor
  · rintro ⟨found, afterMagic, hmagic, hread⟩
    split at hread
    next => cases hread
    next hfound =>
      simp only [except_bind_ok_iff, Prod.exists, ofDecoder_ok_iff] at hread
      rcases hread with ⟨version, afterVersion, hversion, hread⟩
      split at hread
      next => cases hread
      next hcurrent =>
        rw [ofDecoder_ok_iff, Header.decode_ok_iff] at hread
        -- the magic and the version were read off the same bytes as the header's own fields
        rw [hread, Decoder.block_ok_iff.2 (hencode rest)] at hmagic
        cases hmagic
        rw [Decoder.uint16_ok_iff.2 rfl] at hversion
        cases hversion
        exact ⟨h.encode, ⟨not_not.1 hfound, not_not.1 hcurrent, rfl⟩, hread⟩
  · rintro ⟨bs, ⟨hmagic, hversion, rfl⟩, rfl⟩
    refine ⟨h.magic, _, Decoder.block_ok_iff.2 (hencode rest), ?_⟩
    rw [if_neg (not_not.2 hmagic)]
    simp only [except_bind_ok_iff, Prod.exists, ofDecoder_ok_iff]
    refine ⟨h.version, _, Decoder.uint16_ok_iff.2 rfl, ?_⟩
    rw [if_neg (not_not.2 hversion)]
    exact ofDecoder_ok_iff.2 (Header.decode_ok_iff.2 rfl)

/-- Every pool record is accepted. -/
theorem accepts_poolEntry : (ofDecoder PoolEntry.decode).Accepts PoolEntry.Written := by
  intro input rest e
  rw [ofDecoder_ok_iff, PoolEntry.decode_ok_iff]
  simp [PoolEntry.Written]

/-- An operand is its width, at most eight, and so many bytes. -/
theorem operand_ok_iff {index : Nat} {input rest : Bytes} {w : Word} :
    operand index input = .ok (w, rest) ↔
      ∃ digits : Bytes, digits.length ≤ 8 ∧ w = UInt64.ofNat digits.toNatLE ∧
        input = UInt8.ofNat digits.length :: digits ++ rest := by
  simp only [operand, bind_ok_iff, ofDecoder_ok_iff, Decoder.byte_ok_iff]
  constructor
  · rintro ⟨width, _, rfl, h⟩
    split at h
    next => cases h
    next hwidth =>
      simp only [bind_ok_iff, ofDecoder_ok_iff, Decoder.natLE_ok_iff, pure_ok_iff] at h
      rcases h with ⟨n, _, ⟨hn, rfl⟩, rfl, rfl⟩
      have hle : width.toNat ≤ 8 := UInt8.not_lt.1 hwidth
      refine ⟨Bytes.ofNatLE width.toNat n, by simpa using hle, ?_, by simp⟩
      rw [Bytes.toNatLE_ofNatLE, Nat.mod_eq_of_lt hn]
  · rintro ⟨digits, hdigits, rfl, rfl⟩
    have hwidth : (UInt8.ofNat digits.length).toNat = digits.length :=
      UInt8.toNat_ofNat_of_lt' (by simp [UInt8.size]; omega)
    refine ⟨UInt8.ofNat digits.length, digits ++ rest, rfl, ?_⟩
    rw [if_neg (UInt8.not_lt.2 (UInt8.le_iff_toNat_le.2 (by rw [hwidth]; exact hdigits)))]
    simp only [bind_ok_iff, ofDecoder_ok_iff, Decoder.natLE_ok_iff, pure_ok_iff, hwidth]
    refine ⟨digits.toNatLE, rest, ⟨digits.toNatLE_lt, ?_⟩, rfl, rfl⟩
    rw [Bytes.ofNatLE_toNatLE]

/-- The instructions that are accepted are the written ones. -/
theorem accepts_instruction (index : Nat) : (instruction index).Accepts Instruction.Written := by
  intro input rest i
  simp only [instruction, bind_ok_iff, ofDecoder_ok_iff, Decoder.byte_ok_iff]
  constructor
  · rintro ⟨opcode, mid, rfl, h⟩
    split at h
    next hcarries =>
      simp only [bind_ok_iff, operand_ok_iff, pure_ok_iff] at h
      rcases h with ⟨w, _, ⟨digits, hwidth, rfl, rfl⟩, rfl, rfl⟩
      exact ⟨_, .withOperand hcarries hwidth, rfl⟩
    next hbare =>
      rcases pure_ok_iff.1 h with ⟨rfl, rfl⟩
      exact ⟨_, .bare (by simpa using hbare), rfl⟩
  · rintro ⟨bs, hwritten, rfl⟩
    cases hwritten with
    | bare hbare =>
      refine ⟨_, rest, rfl, ?_⟩
      simp [hbare]
    | withOperand hcarries hwidth =>
      refine ⟨_, _, rfl, ?_⟩
      simp only [hcarries, if_true, bind_ok_iff, operand_ok_iff, pure_ok_iff]
      exact ⟨_, rest, ⟨_, hwidth, rfl, rfl⟩, rfl, rfl⟩

/-- The symbols that are accepted are the written ones. -/
theorem accepts_symbol (index : Nat) : (symbol index).Accepts Symbol.Written := by
  intro input rest s
  simp only [symbol, bind_ok_iff, ofDecoder_ok_iff, Decoder.uint16_ok_iff, Decoder.take_ok_iff]
  constructor
  · rintro ⟨length, _, rfl, bytes, _, ⟨hlength, rfl⟩, h⟩
    cases hname : Utf8.decode? bytes with
    | none =>
      rw [hname] at h
      cases h
    | some name =>
      simp only [hname, bind_ok_iff, ofDecoder_ok_iff, Decoder.uint64_ok_iff, pure_ok_iff] at h
      rcases h with ⟨address, _, rfl, rfl, rfl⟩
      rcases Utf8.decode?_eq_some_iff.1 hname with rfl
      refine ⟨_, ⟨?_, rfl⟩, ?_⟩
      · rw [hlength]
        exact length.toNat_lt
      · simp [hlength, Bytes.ofUInt16]
  · rintro ⟨bs, ⟨hshort, rfl⟩, rfl⟩
    have hlength : (UInt16.ofNat (Utf8.encode s.name).length).toNat = (Utf8.encode s.name).length :=
      UInt16.toNat_ofNat_of_lt' hshort
    refine ⟨UInt16.ofNat (Utf8.encode s.name).length, _, ?_, Utf8.encode s.name,
      Bytes.ofUInt64 s.address ++ rest, ⟨hlength.symm, rfl⟩, ?_⟩
    · rw [Bytes.ofUInt16, hlength]
      simp only [List.append_assoc]
    · simp only [Utf8.decode?_eq_some_iff.2 rfl, bind_ok_iff, ofDecoder_ok_iff,
        Decoder.uint64_ok_iff, pure_ok_iff]
      exact ⟨s.address, rest, rfl, rfl, rfl⟩

/-! ## Records in a row -/

/-- Records are written one after the other, as many as announced. -/
theorem many_ok_iff {item : Nat → Section α} {Written : α → Bytes → Prop}
    (hitem : ∀ index, (item index).Accepts Written) {count : Nat} {read out : Array α}
    {input rest : Bytes} :
    many item count read input = .ok (out, rest) ↔
      ∃ (records : List α) (parts : List Bytes), records.length = count ∧
        List.Forall₂ Written records parts ∧ out = read ++ records.toArray ∧
        input = parts.flatten ++ rest := by
  induction count generalizing read input with
  | zero =>
    rw [many, pure_ok_iff]
    constructor
    · rintro ⟨rfl, rfl⟩
      exact ⟨[], [], rfl, .nil, by simp, rfl⟩
    · rintro ⟨records, parts, hlength, hwritten, rfl, rfl⟩
      rcases List.eq_nil_of_length_eq_zero hlength with rfl
      cases hwritten
      simp
  | succ count ih =>
    rw [many]
    dsimp only
    constructor
    · intro h
      cases hfirst : item read.size input with
      | error e => simp [hfirst] at h
      | ok p =>
        rcases p with ⟨a, mid⟩
        rw [hfirst] at h
        rcases (hitem read.size).1 hfirst with ⟨bs, hbs, rfl⟩
        rcases ih.1 h with ⟨records, parts, rfl, hwritten, rfl, rfl⟩
        exact ⟨a :: records, bs :: parts, rfl, .cons hbs hwritten, by simp, by simp⟩
    · rintro ⟨records, parts, hlength, hwritten, rfl, rfl⟩
      cases hwritten with
      | nil => simp at hlength
      | @cons a bs records parts hbs hwritten =>
        have hfirst : item read.size ((bs :: parts).flatten ++ rest) =
            .ok (a, parts.flatten ++ rest) := (hitem read.size).2 ⟨bs, hbs, by simp⟩
        rw [hfirst]
        exact ih.2 ⟨records, parts, by simpa using hlength, hwritten, by simp, rfl⟩

/-- Records in a row are read exactly if their written forms are in front, as many as there should
be. -/
theorem many_empty_ok_iff {item : Nat → Section α} {Written : α → Bytes → Prop}
    (hitem : ∀ index, (item index).Accepts Written) {count : Nat} {out : Array α}
    {input rest : Bytes} :
    many item count #[] input = .ok (out, rest) ↔
      ∃ parts, out.size = count ∧ List.Forall₂ Written out.toList parts ∧
        input = parts.flatten ++ rest := by
  rw [many_ok_iff hitem]
  constructor
  · rintro ⟨records, parts, rfl, hwritten, rfl, rfl⟩
    exact ⟨parts, by simp, by simpa using hwritten, rfl⟩
  · rintro ⟨parts, hsize, hwritten, rfl⟩
    exact ⟨out.toList, parts, by simpa using hsize, hwritten, by simp, rfl⟩

/-- The records of a section are read exactly if as many as the header says are in front. -/
theorem counted_ok_iff {item : Nat → Section α} {Written : α → Bytes → Prop}
    (hitem : ∀ index, (item index).Accepts Written) {count : UInt64} {out : Array α}
    {input rest : Bytes} :
    (ofDecoder (Decoder.length count) >>= fun n => many item n #[]) input = .ok (out, rest) ↔
      ∃ parts, out.size = count.toNat ∧ List.Forall₂ Written out.toList parts ∧
        input = parts.flatten ++ rest := by
  rw [← many_empty_ok_iff hitem]
  simp [bind_ok_iff]

theorem pool_ok_iff {h : Header} {entries : Array PoolEntry} {input rest : Bytes} :
    pool h input = .ok (entries, rest) ↔
      ∃ parts, entries.size = h.poolSize.toNat ∧
        List.Forall₂ PoolEntry.Written entries.toList parts ∧ input = parts.flatten ++ rest :=
  counted_ok_iff fun _ => accepts_poolEntry

theorem program_ok_iff {h : Header} {instructions : Array Instruction} {input rest : Bytes} :
    program h input = .ok (instructions, rest) ↔
      ∃ parts, instructions.size = h.programSize.toNat ∧
        List.Forall₂ Instruction.Written instructions.toList parts ∧
        input = parts.flatten ++ rest :=
  counted_ok_iff accepts_instruction

theorem symbols_ok_iff {h : Header} {names : Array Symbol} {input rest : Bytes} :
    symbols h input = .ok (names, rest) ↔
      ∃ parts, names.size = h.symbolSize.toNat ∧
        List.Forall₂ Symbol.Written names.toList parts ∧ input = parts.flatten ++ rest :=
  many_empty_ok_iff accepts_symbol

/-- Memory is read exactly if it is in front and fits in a region. -/
theorem memory_ok_iff {h : Header} {bytes input rest : Bytes} :
    memory h input = .ok (bytes, rest) ↔
      bytes.length = h.memorySize.toNat ∧ h.memorySize.toNat ≤ Address.maxRegionLength ∧
        input = bytes ++ rest := by
  unfold memory
  split
  next hlarge =>
    constructor
    · intro h
      cases h
    · rintro ⟨-, hfits, -⟩
      exact absurd hfits (Nat.not_le.2 hlarge)
  next hfits =>
    rw [bind_ok_iff]
    simp [Decoder.take_ok_iff, Nat.not_lt.1 hfits, @eq_comm Nat h.memorySize.toNat]

/-- The end of an image is where no byte is left. -/
theorem finish_ok_iff {u : Unit} {input rest : Bytes} :
    finish input = .ok (u, rest) ↔ input = [] ∧ rest = [] := by
  cases input with
  | nil => simp [finish, eq_comm]
  | cons b bs => simp [finish]

/-- The parts of a row of records can be told apart, whatever follows the row. -/
theorem series_unambiguous {reader : Section α} {Written : α → Bytes → Prop}
    (h : reader.Accepts Written) {as bs : List α} {ps qs : List Bytes} {rest rest' : Bytes}
    (hp : List.Forall₂ Written as ps) (hq : List.Forall₂ Written bs qs)
    (hlength : as.length = bs.length) (heq : ps.flatten ++ rest = qs.flatten ++ rest') :
    as = bs ∧ ps = qs ∧ rest = rest' := by
  induction hp generalizing bs qs with
  | nil =>
    rcases List.eq_nil_of_length_eq_zero hlength.symm with rfl
    cases hq
    exact ⟨rfl, rfl, heq⟩
  | cons ha hp ih =>
    cases hq with
    | nil => simp at hlength
    | cons hb hq =>
      simp only [List.flatten_cons, List.append_assoc] at heq
      rcases h.unambiguous ha hb heq with ⟨rfl, rfl, hrest⟩
      rcases ih hq (by simpa using hlength) hrest with ⟨rfl, rfl, rfl⟩
      exact ⟨rfl, rfl, rfl⟩

end Section
end StackMachine
