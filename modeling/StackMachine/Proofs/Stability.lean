import StackMachine.Proofs.Inspection

/-!
# Stability — loading longer and shorter inputs

An image is read from front to back, and nothing is read ahead of what is needed. So bytes put
behind an input do not change how it is read up to its end, and cutting an image short can only make
a reader miss bytes.

* `Section.Steady` — the reader goes on alike when the input goes on, unless it has met the end;
* `Section.front` — all that is read of an image before its end is checked;
* `Load.outcome_stable` — what loading says of an input, of longer ones and of shorter ones.
-/

namespace StackMachine

/-! ## Errors -/

/-- The input ended early. -/
def LoadError.IsEnd (e : LoadError) : Prop :=
  ∃ needed available, e = .decode (.unexpectedEnd needed available)

/-- Whether the bytes in front of the error are wrong, however the input goes on. -/
def LoadError.isSettled : LoadError → Bool
  | .badMagic _ | .unsupportedVersion _ _ | .containsErrors => true
  | .operandTooWide _ _ | .invalidSymbolName _ | .memoryTooLarge _ _ => true
  | .decode _ | .trailingBytes _ | .notExecutable | .notLibrary => false

/-! ## Decoders -/

namespace Decoder

variable {α β : Type}

/-- The decoder leaves what stands behind its value, and fails only where the input ends early. -/
structure Steady (d : Decoder α) : Prop where
  ok : ∀ {input rest : Bytes} {a : α}, d input = .ok a rest →
    ∀ more, d (input ++ more) = .ok a (rest ++ more)
  error : ∀ {input rest : Bytes} {e : DecodeError}, d input = .error e rest →
    ∃ needed available, e = .unexpectedEnd needed available

theorem steady_pure (a : α) : Steady (pure a) where
  ok h more := by
    rcases pure_ok_iff.1 h with ⟨rfl, rfl⟩
    rfl
  error h := by cases h

/-- Decoders that leave what stands behind do so one after the other. -/
theorem Steady.bind {d : Decoder α} {f : α → Decoder β} (hd : Steady d)
    (hf : ∀ a, Steady (f a)) : Steady (d >>= f) where
  ok h more := by
    rcases bind_ok_iff.1 h with ⟨a, mid, hfirst, hrest⟩
    exact bind_ok_iff.2 ⟨a, mid ++ more, hd.ok hfirst more, (hf a).ok hrest more⟩
  error h := by
    rcases bind_error_iff.1 h with hfirst | ⟨a, mid, -, hrest⟩
    · exact hd.error hfirst
    · exact (hf a).error hrest

/-- Bytes are taken from the front, and too few are an early end. -/
theorem steady_take (n : Nat) : Steady (take n) where
  ok h more := by
    rcases take_ok_iff.1 h with ⟨hlength, rfl⟩
    exact take_ok_iff.2 ⟨hlength, List.append_assoc _ _ _⟩
  error h := by
    unfold take at h
    dsimp only at h
    split at h
    · cases h
    · cases h
      exact ⟨_, _, rfl⟩

theorem steady_block (n : Nat) : Steady (block n) where
  ok h more := by
    rw [block_ok_iff.1 h]
    exact block_ok_iff.2 (List.append_assoc _ _ _)
  error h := by
    unfold block at h
    dsimp only at h
    split at h
    · cases h
    · cases h
      exact ⟨_, _, rfl⟩

theorem steady_natLE (width : Nat) : Steady (natLE width) :=
  (steady_take width).bind fun _ => steady_pure _

theorem steady_byte : Steady byte := (steady_natLE 1).bind fun _ => steady_pure _

theorem steady_uint16 : Steady uint16 := (steady_natLE 2).bind fun _ => steady_pure _

theorem steady_uint64 : Steady uint64 := (steady_natLE 8).bind fun _ => steady_pure _

/-- A count always fits in the address space of the host, so that this never fails. -/
theorem steady_length (count : UInt64) : Steady (length count) where
  ok {input rest n} h more := by
    rw [length_apply] at h ⊢
    cases h
    rfl
  error {input rest e} h := by
    rw [length_apply] at h
    cases h

/-- Decoding a header stops behind it. -/
theorem steady_header : Steady Header.decode := by
  refine (steady_block 3).bind fun magic => ?_
  refine steady_uint16.bind fun version => ?_
  refine steady_byte.bind fun flags => ?_
  refine steady_uint64.bind fun entry => ?_
  refine steady_uint64.bind fun poolSize => ?_
  refine steady_uint64.bind fun programSize => ?_
  refine steady_uint64.bind fun symbolSize => ?_
  exact steady_uint64.bind fun memorySize => steady_pure _

theorem steady_poolEntry : Steady PoolEntry.decode :=
  steady_uint64.bind fun _ => steady_uint16.bind fun _ => steady_pure _

end Decoder

/-! ## Readers -/

namespace Section

variable {α β : Type}

/-- When the input goes on, the reader goes on alike: it finds the same value and leaves what is
behind it, or fails with the same error, unless it has met the end of the input. -/
structure Steady (reader : Section α) : Prop where
  ok : ∀ {input rest : Bytes} {a : α}, reader input = .ok (a, rest) →
    ∀ more, reader (input ++ more) = .ok (a, rest ++ more)
  error : ∀ {input : Bytes} {e : LoadError}, reader input = .error e →
    e.IsEnd ∨ e.isSettled = true ∧ ∀ more, reader (input ++ more) = .error e

/-- Readers in a row fail in the first part or in the second. -/
theorem bind_error_iff {reader : Section α} {f : α → Section β} {input : Bytes} {e : LoadError} :
    (reader >>= f) input = .error e ↔
      reader input = .error e ∨ ∃ a mid, reader input = .ok (a, mid) ∧ f a mid = .error e := by
  cases hfirst : reader input with
  | ok result =>
    rcases result with ⟨a, mid⟩
    rw [bind_of_ok hfirst]
    simp
  | error e' =>
    rw [bind_of_error hfirst]
    simp

theorem steady_pure (a : α) : Steady (pure a : Section α) where
  ok h more := by
    rcases pure_ok_iff.1 h with ⟨rfl, rfl⟩
    rfl
  error h := by cases h

/-- An error in the bytes stays whatever follows. -/
theorem steady_throw {e : LoadError} (he : e.isSettled = true) : Steady (throw e : Section α) where
  ok h := by cases h
  error h := by
    cases h
    exact .inr ⟨he, fun _ => rfl⟩

theorem Steady.bind {reader : Section α} {f : α → Section β} (hreader : Steady reader)
    (hf : ∀ a, Steady (f a)) : Steady (reader >>= f) where
  ok h more := by
    rcases bind_ok_iff.1 h with ⟨a, mid, hfirst, hrest⟩
    exact bind_ok_iff.2 ⟨a, mid ++ more, hreader.ok hfirst more, (hf a).ok hrest more⟩
  error h := by
    rcases bind_error_iff.1 h with hfirst | ⟨a, mid, hfirst, hrest⟩
    · rcases hreader.error hfirst with hend | ⟨hsettled, hmore⟩
      · exact .inl hend
      · exact .inr ⟨hsettled, fun more => bind_error_iff.2 (.inl (hmore more))⟩
    · rcases (hf a).error hrest with hend | ⟨hsettled, hmore⟩
      · exact .inl hend
      · -- the second reader starts where the first has left off, with the new bytes behind it
        refine .inr ⟨hsettled, fun more => bind_error_iff.2 (.inr ?_)⟩
        exact ⟨a, mid ++ more, hreader.ok hfirst more, hmore more⟩

theorem Steady.ite {c : Prop} [Decidable c] {x y : Section α} (hx : Steady x) (hy : Steady y) :
    Steady (if c then x else y) := by
  split
  · exact hx
  · exact hy

/-- A decoder is as steady within an image as by itself. -/
theorem steady_ofDecoder {d : Decoder α} (hd : d.Steady) : Steady (ofDecoder d) where
  ok h more := ofDecoder_ok_iff.2 (hd.ok (ofDecoder_ok_iff.1 h) more)
  error {input e} h := by
    unfold ofDecoder at h
    cases hdecode : d input with
    | ok a rest =>
      rw [hdecode] at h
      cases h
    | error e' rest =>
      rw [hdecode] at h
      cases h
      rcases hd.error hdecode with ⟨needed, available, rfl⟩
      exact .inl ⟨needed, available, rfl⟩

theorem many_succ (item : Nat → Section α) (count : Nat) (read : Array α) :
    many item (count + 1) read = item read.size >>= fun a => many item count (read.push a) := by
  funext input
  rw [many]
  dsimp only
  cases hfirst : item read.size input with
  | ok result =>
    rw [bind_of_ok hfirst]
  | error e => exact (bind_of_error hfirst).symm

/-- Records in a row are read alike if each of them is. -/
theorem steady_many {item : Nat → Section α} (hitem : ∀ index, Steady (item index)) (count : Nat)
    (read : Array α) : Steady (many item count read) := by
  induction count generalizing read with
  | zero => exact steady_pure read
  | succ count ih =>
    -- the next item has the number of those that were read, whatever the input
    rw [many_succ]
    exact (hitem read.size).bind fun a => ih (read.push a)

/-! ## The parts of an image -/

/-- Reads ahead: the value is found, but nothing is taken off the input. -/
def ahead (reader : Section α) : Section α := fun input =>
  (reader input).map fun result => (result.1, input)

/-- Reading ahead is as steady as reading. -/
theorem Steady.ahead {reader : Section α} (hreader : Steady reader) : Steady (ahead reader) where
  ok {input rest a} h more := by
    unfold Section.ahead at h ⊢
    cases hread : reader input with
    | ok result =>
      rw [hread] at h
      cases h
      rw [hreader.ok hread more]
      rfl
    | error e =>
      rw [hread] at h
      cases h
  error {input e} h := by
    unfold Section.ahead at h ⊢
    cases hread : reader input with
    | ok result =>
      rw [hread] at h
      cases h
    | error e' =>
      rw [hread] at h
      cases h
      rcases hreader.error hread with hend | ⟨hsettled, hmore⟩
      · exact .inl hend
      · refine .inr ⟨hsettled, fun more => ?_⟩
        rw [hmore more]
        rfl

/-- The magic and the version, which have to be right. -/
def mark : Section Unit := do
  let found ← ofDecoder (Decoder.block 3)
  if found ≠ Header.expectedMagic then throw (.badMagic found)
  let version ← ofDecoder Decoder.uint16
  if version ≠ Header.currentVersion then
    throw (.unsupportedVersion version Header.currentVersion)

/-- A header is read once its magic and version are found to be right. -/
theorem header_eq : header = ahead mark >>= fun _ => ofDecoder Header.decode := by
  funext input
  -- both look at the mark first, and the header is then read from its start again
  show _ = ((mark input).map fun result => (result.1, input)) >>= fun p =>
    ofDecoder Header.decode p.2
  unfold header
  cases hmagic : ofDecoder (Decoder.block 3) input with
  | error e =>
    have hmark : mark input = .error e := bind_of_error hmagic
    rw [hmark]
    rfl
  | ok result =>
    rcases result with ⟨found, rest⟩
    unfold mark
    rw [bind_of_ok hmagic]
    show (if found ≠ Header.expectedMagic then _ else _) = _
    split
    · rfl
    · dsimp only
      cases hversion : ofDecoder Decoder.uint16 rest with
      | error e =>
        rw [bind_of_error hversion]
        rfl
      | ok result =>
        rcases result with ⟨version, rest'⟩
        rw [bind_of_ok hversion]
        show (if version ≠ Header.currentVersion then _ else _) = _
        split
        · rfl
        · rfl

/-- A wrong magic or version stays wrong whatever follows. -/
theorem steady_mark : Steady mark := by
  refine (steady_ofDecoder (Decoder.steady_block 3)).bind fun found => ?_
  refine Steady.ite (steady_throw rfl) ?_
  refine (steady_ofDecoder Decoder.steady_uint16).bind fun version => ?_
  exact Steady.ite (steady_throw rfl) (steady_pure _)

/-- An operand that is too wide stays so whatever follows. -/
theorem steady_operand (index : Nat) : Steady (operand index) := by
  refine (steady_ofDecoder Decoder.steady_byte).bind fun width => ?_
  refine Steady.ite (steady_throw rfl) ?_
  exact (steady_ofDecoder (Decoder.steady_natLE _)).bind fun value => steady_pure _

theorem steady_instruction (index : Nat) : Steady (instruction index) := by
  refine (steady_ofDecoder Decoder.steady_byte).bind fun opcode => ?_
  exact Steady.ite ((steady_operand index).bind fun value => steady_pure _) (steady_pure _)

theorem steady_symbol (index : Nat) : Steady (symbol index) := by
  refine (steady_ofDecoder Decoder.steady_uint16).bind fun length => ?_
  refine (steady_ofDecoder (Decoder.steady_take _)).bind fun bytes => ?_
  split
  · exact steady_throw rfl
  · exact (steady_ofDecoder Decoder.steady_uint64).bind fun address => steady_pure _

theorem steady_header : Steady header := by
  rw [header_eq]
  exact steady_mark.ahead.bind fun _ => steady_ofDecoder Decoder.steady_header

theorem steady_pool (h : Header) : Steady (pool h) :=
  (steady_ofDecoder (Decoder.steady_length _)).bind fun count =>
    steady_many (fun _ => steady_ofDecoder Decoder.steady_poolEntry) count #[]

theorem steady_program (h : Header) : Steady (program h) :=
  (steady_ofDecoder (Decoder.steady_length _)).bind fun count =>
    steady_many steady_instruction count #[]

theorem steady_symbols (h : Header) : Steady (symbols h) :=
  steady_many steady_symbol h.symbolSize.toNat #[]

/-- Memory that is too long stays so whatever follows. -/
theorem steady_memory (h : Header) : Steady (memory h) := by
  refine Steady.ite (steady_throw rfl) ?_
  refine (steady_ofDecoder (Decoder.steady_length _)).bind fun length => ?_
  exact steady_ofDecoder (Decoder.steady_take length)

/-- All that is read of an image before its end is checked. -/
def front : Section Header := do
  let h ← header
  if h.flags.contains .containsError then throw .containsErrors
  let _ ← pool h
  let _ ← program h
  let _ ← symbols h
  let _ ← memory h
  return h

/-- All but the end of an image is read alike whatever follows. -/
theorem steady_front : Steady front := by
  refine steady_header.bind fun h => ?_
  refine Steady.ite (steady_throw rfl) ?_
  refine (steady_pool h).bind fun entries => ?_
  refine (steady_program h).bind fun instructions => ?_
  refine (steady_symbols h).bind fun names => ?_
  exact (steady_memory h).bind fun bytes => steady_pure h

/-- An image is all that is in front of its end, and the end. -/
theorem unmarked_eq : unmarked = front >>= fun h => (fun _ => h) <$> finish := by
  -- the parts come in the same order, so that only the brackets differ
  unfold unmarked front contents
  simp only [bind_assoc, pure_bind]
  congr 1
  funext h
  split
  · rfl
  · simp only [bind_assoc, pure_bind]
    rfl

/-- Bytes behind an image are counted in the error. -/
theorem finish_of_ne_nil {input : Bytes} (hinput : input ≠ []) :
    finish input = .error (.trailingBytes input.length) := by
  unfold finish
  rw [if_neg (by simpa using hinput)]

/-- An image is read if nothing is left behind it. -/
theorem unmarked_of_front {input : Bytes} {h : Header} (hfront : front input = .ok (h, [])) :
    unmarked input = .ok (h, []) := by
  rw [unmarked_eq, bind_of_ok hfront]
  rfl

/-- Bytes that are left behind an image are an error. -/
theorem unmarked_of_front_ne_nil {input rest : Bytes} {h : Header}
    (hfront : front input = .ok (h, rest)) (hrest : rest ≠ []) :
    unmarked input = .error (.trailingBytes rest.length) := by
  rw [unmarked_eq, bind_of_ok hfront, map_apply, finish_of_ne_nil hrest]
  rfl

theorem unmarked_of_front_error {input : Bytes} {e : LoadError} (hfront : front input = .error e) :
    unmarked input = .error e := by
  rw [unmarked_eq, bind_of_error hfront]

end Section

/-! ## Loading -/

namespace Load

variable {module other : Module} {bytes : Bytes} {h : Header} {e : LoadError}

/-- A module is loaded if nothing is left behind its image. -/
theorem fst_into_of_front (hfront : Section.front bytes = .ok (h, [])) :
    (into module bytes).1 = .ok h := by
  rw [fst_into, Section.unmarked_of_front hfront]
  rfl

theorem fst_into_of_front_ne_nil {rest : Bytes} (hfront : Section.front bytes = .ok (h, rest))
    (hrest : rest ≠ []) : (into module bytes).1 = .error (.trailingBytes rest.length) := by
  rw [fst_into, Section.unmarked_of_front_ne_nil hfront hrest]
  rfl

theorem fst_into_of_front_error (hfront : Section.front bytes = .error e) :
    (into module bytes).1 = .error e := by
  rw [fst_into, Section.unmarked_of_front_error hfront]
  rfl

/-- If a module was loaded, nothing is left behind its image. -/
theorem front_of_ok (hload : (into module bytes).1 = .ok h) :
    Section.front bytes = .ok (h, []) := by
  cases hfront : Section.front bytes with
  | error e =>
    rw [fst_into_of_front_error hfront] at hload
    cases hload
  | ok result =>
    rcases result with ⟨found, rest⟩
    by_cases hrest : rest = []
    · subst hrest
      rw [fst_into_of_front hfront] at hload
      cases hload
      rfl
    · rw [fst_into_of_front_ne_nil hfront hrest] at hload
      cases hload

/-- Loading fails on bytes behind the image, where the input ends early, or on bytes that are wrong
however the input goes on. -/
theorem error_cases (hload : (into module bytes).1 = .error e) :
    (∃ h rest, Section.front bytes = .ok (h, rest) ∧ rest ≠ [] ∧
        e = .trailingBytes rest.length) ∨
      e.IsEnd ∨ e.isSettled = true ∧ ∀ more, Section.front (bytes ++ more) = .error e := by
  cases hfront : Section.front bytes with
  | error e' =>
    rw [fst_into_of_front_error hfront] at hload
    cases hload
    exact .inr (Section.steady_front.error hfront)
  | ok result =>
    rcases result with ⟨h, rest⟩
    by_cases hrest : rest = []
    · subst hrest
      rw [fst_into_of_front hfront] at hload
      cases hload
    · rw [fst_into_of_front_ne_nil hfront hrest] at hload
      cases hload
      exact .inl ⟨h, rest, rfl, hrest, rfl⟩

/-- An image that is cut short ends early. -/
theorem isEnd_of_cut {cut : Bytes} (hload : (into module bytes).1 = .ok h) (hcut : cut <+: bytes)
    (hproper : cut ≠ bytes) : ∃ e : LoadError, e.IsEnd ∧ (into other cut).1 = .error e := by
  rcases hcut with ⟨missing, rfl⟩
  have hmissing : missing ≠ [] := by
    rintro rfl
    exact hproper (List.append_nil cut).symm
  have hwhole : Section.front (cut ++ missing) = .ok (h, []) := front_of_ok hload
  cases hfront : Section.front cut with
  | ok result =>
    -- then the missing bytes would be left over when the whole image is read
    have hlonger := Section.steady_front.ok hfront missing
    rw [hwhole, Except.ok.injEq, Prod.mk.injEq] at hlonger
    exact absurd (List.append_eq_nil_iff.1 hlonger.2.symm).2 hmissing
  | error e =>
    rcases Section.steady_front.error hfront with hend | ⟨-, hmore⟩
    · exact ⟨e, hend, fst_into_of_front_error hfront⟩
    · -- then the whole image would be wrong in the same way
      rw [hmore missing] at hwhole
      cases hwhole

/-- Loading reads from front to back. Bytes behind an image are trailing, all of them, and an image
that is cut short ends early. Trailing bytes stay trailing, and what is wrong for another reason is
wrong in the same way with more bytes behind it. No count is ever too large to be read. The module
that is filled has no part in this. -/
theorem outcome_stable (module other : Module) (bytes : Bytes) :
    (∀ h, (into module bytes).1 = .ok h →
      (∀ more, more ≠ [] →
        (into other (bytes ++ more)).1 = .error (.trailingBytes more.length)) ∧
      ∀ cut, cut <+: bytes → cut ≠ bytes → ∃ needed available,
        (into other cut).1 = .error (.decode (.unexpectedEnd needed available))) ∧
    (∀ n, (into module bytes).1 = .error (.trailingBytes n) →
      ∀ more, (into other (bytes ++ more)).1 = .error (.trailingBytes (n + more.length))) ∧
    (∀ e, e.isSettled = true → (into module bytes).1 = .error e →
      ∀ more, (into other (bytes ++ more)).1 = .error e) ∧
    ∀ length, (into module bytes).1 ≠ .error (.decode (.lengthOverflow length)) := by
  refine ⟨fun h hload => ⟨?_, ?_⟩, ?_, ?_, ?_⟩
  · intro more hmore
    have hlonger := Section.steady_front.ok (front_of_ok hload) more
    exact fst_into_of_front_ne_nil hlonger hmore
  · intro cut hcut hproper
    rcases isEnd_of_cut hload hcut hproper with ⟨_, ⟨needed, available, rfl⟩, hend⟩
    exact ⟨needed, available, hend⟩
  · intro n hload more
    rcases error_cases hload with ⟨h, rest, hfront, hrest, heq⟩ | ⟨_, _, heq⟩ | ⟨hsettled, -⟩
    · cases heq
      have hlonger := Section.steady_front.ok hfront more
      have hne : rest ++ more ≠ [] := List.append_ne_nil_of_left_ne_nil hrest more
      rw [fst_into_of_front_ne_nil hlonger hne, List.length_append]
    · cases heq
    · cases hsettled
  · intro e hsettled hload more
    rcases error_cases hload with ⟨_, _, -, -, rfl⟩ | ⟨_, _, rfl⟩ | ⟨-, hmore⟩
    · cases hsettled
    · cases hsettled
    · exact fst_into_of_front_error (hmore more)
  · intro length hload
    rcases error_cases hload with ⟨_, _, -, -, heq⟩ | ⟨_, _, heq⟩ | ⟨hsettled, -⟩
    · cases heq
    · cases heq
    · cases hsettled

/-- An image with two bytes behind it, with a third one, without its last byte, and an input whose
magic is wrong from the start. -/
theorem outcome_stable_tail :
    let image : Image :=
      { flags := .executable, instructions := #[.of .push 1], memory := [5, 6] }
    (into {} image.encode).1 = .ok image.header ∧
      (into {} (image.encode ++ [7, 8])).1 = .error (.trailingBytes 2) ∧
      (into {} (image.encode ++ [7, 8] ++ [9])).1 = .error (.trailingBytes 3) ∧
      (∃ needed available, (into {} image.encode.dropLast).1 =
        .error (.decode (.unexpectedEnd needed available))) ∧
      (into {} ([1, 2, 3] ++ image.encode)).1 = .error (.badMagic #v[1, 2, 3]) := by
  intro image
  have hload : (into {} image.encode).1 = .ok image.header := by
    dsimp only [image]
    rfl
  have hmagic : (into {} [1, 2, 3]).1 = .error (.badMagic #v[1, 2, 3]) := rfl
  have himage := (outcome_stable {} {} image.encode).1 _ hload
  have htrailing := himage.1 [7, 8] (by decide)
  have hthird := (outcome_stable {} {} (image.encode ++ [7, 8])).2.1 _ htrailing [9]
  have hshort : image.encode.dropLast ≠ image.encode := by
    dsimp only [image]
    decide
  refine ⟨hload, htrailing, hthird, himage.2 _ (List.dropLast_prefix _) hshort, ?_⟩
  exact (outcome_stable {} {} [1, 2, 3]).2.2.1 _ rfl hmagic _

end Load
end StackMachine
