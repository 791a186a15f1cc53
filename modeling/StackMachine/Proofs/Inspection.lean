import StackMachine.Proofs.Loading
import StackMachine.Proofs.PoolTable

/-!
# Inspection — inspecting and loading see the same image

An image is read in two ways: as a whole, to be printed, and part by part into a module, to be run.
The two read the same parts in the same order, so that they agree on every input, also on the error
that is found first. They differ only on images that are marked as built with errors, which are not
loaded.

* `Loading.Follows` — a step of loading reads what a reader reads;
* `Section.contents` — all that follows a header, which the flags have no part in;
* `Load.agrees_with_inspection` — the agreement, and what becomes of the mark.
-/

namespace StackMachine

/-! ## Readers -/

namespace Section

def contents (h : Header) : Section Image := do
  let entries ← pool h
  let instructions ← program h
  let names ← symbols h
  let bytes ← memory h
  finish
  return ⟨h.flags, h.entry, entries, instructions, names, bytes⟩

/-- A function of what is read does not change what is left. -/
theorem map_apply {α β : Type} (f : α → β) (reader : Section α) (input : Bytes) :
    (f <$> reader) input = (reader input).map (Prod.map f id) := by
  show (reader input >>= fun p => pure (f p.1, p.2)) = _
  cases reader input with
  | ok result => rfl
  | error e => rfl

theorem bind_of_ok {α β : Type} {reader : Section α} {f : α → Section β} {input rest : Bytes}
    {a : α} (h : reader input = .ok (a, rest)) : (reader >>= f) input = f a rest := by
  show (reader input >>= fun p => f p.1 p.2) = _
  rw [h]
  rfl

theorem bind_of_error {α β : Type} {reader : Section α} {f : α → Section β} {input : Bytes}
    {e : LoadError} (h : reader input = .error e) : (reader >>= f) input = .error e := by
  show (reader input >>= fun p => f p.1 p.2) = _
  rw [h]
  rfl

/-- An image is its header and its contents. -/
theorem image_eq : image = header >>= fun h => (h, ·) <$> contents h := by
  simp only [image, contents, map_bind, map_pure]

/-- Behind a header that is in order, the contents decide. -/
theorem image_of_header {input rest : Bytes} {h : Header} (hheader : header input = .ok (h, rest)) :
    image input = (contents h rest).map (Prod.map (h, ·) id) := by
  rw [image_eq, bind_of_ok hheader, map_apply]

/-- The flags of a header have no part in how its image is read. -/
theorem contents_flags (h : Header) (flags : Flags) (input : Bytes) :
    contents { h with flags } input =
      (contents h input).map (Prod.map (fun i => { i with flags }) id) := by
  have hmap : contents { h with flags } = (fun i : Image => { i with flags }) <$> contents h := by
    simp only [contents, map_bind, map_pure]
    rfl
  rw [hmap, map_apply]

/-- Reads an image and refuses one that is marked as built with errors. -/
def unmarked : Section Header := do
  let h ← header
  if h.flags.contains .containsError then throw .containsErrors
  let _ ← contents h
  return h

end Section

/-! ## Loading -/

namespace Loading

variable {α β : Type}

/-- What a step of loading has read, whatever became of the module. -/
def outcome (r : EStateM.Result LoadError Load.Progress α) : Except LoadError (α × Bytes) :=
  match r with
  | .ok a p => .ok (a, p.unread)
  | .error e _ => .error e

/-- The step reads what the reader reads, and fails as it fails. -/
def Follows (x : Loading α) (reader : Section α) : Prop := ∀ p, outcome (x p) = reader p.unread

/-- A step that reads a part of the image follows the reader of that part. -/
theorem follows_next (part : Section α) : Follows (next part) part := by
  intro p
  unfold next
  cases part p.unread with
  | ok result => rfl
  | error e => rfl

theorem follows_pure (a : α) : Follows (pure a) (pure a) := fun _ => rfl

theorem follows_throw (e : LoadError) : Follows (throw e : Loading α) (throw e) := fun _ => rfl

/-- Steps follow readers one after the other. -/
theorem Follows.bind {x : Loading α} {reader : Section α} {f : α → Loading β}
    {rest : α → Section β} (hx : Follows x reader) (hf : ∀ a, Follows (f a) (rest a)) :
    Follows (x >>= f) (reader >>= rest) := by
  intro p
  have hfirst := hx p
  show _ = reader p.unread >>= fun q => rest q.1 q.2
  rw [← hfirst]
  cases hx : x p with
  | ok a p₁ =>
    rw [bind_of_ok hx]
    exact hf a p₁
  | error e p₁ =>
    rw [bind_error_iff.2 (.inl hx)]
    rfl

/-- Filling the module reads nothing. -/
theorem Follows.fill_bind {f : Module → Module} {x : PUnit → Loading β} {reader : Section β}
    (hx : Follows (x ⟨⟩) reader) : Follows (fill f >>= x) reader :=
  fun p => hx { p with module := f p.module }

/-- Loading reads what inspecting reads, once the mark for errors is known to be clear. -/
theorem follows_image : Follows image Section.unmarked := by
  refine (follows_next _).bind fun h => ?_
  split
  · exact follows_throw _
  · -- every part is read as the inspector reads it, and only then put into the module
    simp only [Section.contents, bind_assoc, pure_bind]
    refine (follows_next _).bind fun entries => .fill_bind ?_
    refine (follows_next _).bind fun instructions => .fill_bind ?_
    refine (follows_next _).bind fun names => .fill_bind ?_
    refine (follows_next _).bind fun bytes => .fill_bind ?_
    exact (follows_next _).bind fun _ => follows_pure h

end Loading

/-! ## The mark for errors -/

def Flags.without (a b : Flags) : Flags := ⟨a.bits &&& ~~~b.bits⟩

/-- The mark for errors can be taken off. -/
theorem Flags.contains_without (f : Flags) :
    (f.without .containsError).contains .containsError = false := by
  have hclear : ~~~Flags.containsError.bits &&& Flags.containsError.bits = 0 := by decide
  unfold contains without
  rw [UInt8.and_assoc, hclear, UInt8.and_zero]
  decide

/-- The bytes of an image with the mark for errors taken off: the flags are the sixth byte. -/
def Bytes.withoutMark (bytes : Bytes) : Bytes :=
  bytes.modify 5 (· &&& ~~~Flags.containsError.bits)

/-- Taking off the mark in the bytes is taking it off in the header. -/
theorem Header.withoutMark_encode (h : Header) (rest : Bytes) :
    (h.encode ++ rest).withoutMark =
      { h with flags := h.flags.without .containsError }.encode ++ rest := by
  have hfront : (h.magic.toList ++ Bytes.ofUInt16 h.version).length = 5 := by
    simp [Bytes.ofUInt16]
  have hmodify := List.modifyTailIdx_add
    (List.modifyHead (· &&& ~~~Flags.containsError.bits)) 0
    (h.magic.toList ++ Bytes.ofUInt16 h.version)
    (h.flags.bits :: (Bytes.ofUInt64 h.entry ++ Bytes.ofUInt64 h.poolSize ++
      Bytes.ofUInt64 h.programSize ++ Bytes.ofUInt64 h.symbolSize ++
      Bytes.ofUInt64 h.memorySize ++ rest))
  rw [hfront] at hmodify
  simpa [encode, Bytes.withoutMark, List.modify, Flags.without] using hmodify

/-! ## Agreement -/

namespace Load

variable {module : Module} {bytes rest : Bytes} {h : Header} {i : Image}

/-- The header of the bytes, if there is one, is not marked as built with errors. -/
def Unmarked (bytes : Bytes) : Prop :=
  ∀ h rest, Section.header bytes = .ok (h, rest) → h.flags.contains .containsError = false

/-- The size that the last of the entries with a key has, or zero. -/
def lastSize (entries : Array PoolEntry) (key : Word) : UInt16 :=
  ((entries.toList.filter (·.address = key)).getLast?.map PoolEntry.size).getD 0

/-- The last entry of a key counts. -/
theorem get_poolTable (entries : Array PoolEntry) (key : Word) :
    (poolTable entries).get key = lastSize entries key := by
  unfold poolTable
  rw [← Array.foldl_toList, PoolTable.get_foldl_put, PoolTable.get_withCapacity]
  rfl

theorem count_poolTable (entries : Array PoolEntry) : (poolTable entries).count = entries.size := by
  unfold poolTable
  rw [← Array.foldl_toList, PoolTable.count_foldl_put]
  exact Nat.zero_add _

/-- Loading a module reads what the inspector reads, and refuses what is marked. -/
theorem fst_into (module : Module) (bytes : Bytes) :
    (into module bytes).1 = (Section.unmarked bytes).map Prod.fst := by
  have hfollows : Loading.outcome (Loading.image ⟨module, bytes⟩) = Section.unmarked bytes :=
    Loading.follows_image ⟨module, bytes⟩
  rw [← hfollows]
  unfold into
  cases Loading.image ⟨module, bytes⟩ with
  | ok h p => rfl
  | error e p => rfl

/-- Without the mark, loading a module succeeds and fails as reading does. -/
theorem fst_into_of_unmarked (hclear : Unmarked bytes) :
    (into module bytes).1 = (Section.image bytes).map (·.1.1) := by
  rw [fst_into]
  cases hheader : Section.header bytes with
  | error e =>
    -- both start with the header, so that they fail alike on one that is not in order
    have hunmarked : Section.unmarked bytes = .error e := Section.bind_of_error hheader
    have himage : Section.image bytes = .error e := Section.bind_of_error hheader
    rw [hunmarked, himage]
    rfl
  | ok result =>
    rcases result with ⟨h, rest⟩
    have hunmarked : Section.unmarked bytes =
        (Section.contents h rest).map (Prod.map (fun _ => h) id) := by
      unfold Section.unmarked
      rw [Section.bind_of_ok hheader, hclear h rest hheader]
      exact Section.map_apply (fun _ => h) _ _
    rw [hunmarked, Section.image_of_header hheader]
    cases Section.contents h rest with
    | ok result => rfl
    | error e => rfl

/-- An image that is not marked and can be read is loaded as it was read. -/
theorem into_of_read (hclear : Unmarked bytes) (hread : Section.image bytes = .ok ((h, i), rest)) :
    into module bytes = (.ok h, module.holding i) := by
  rcases Section.image_ok_iff.1 hread with ⟨-, l, hbytes, hw⟩
  refine into_ok_iff.2 ⟨?_, l, i, hbytes, hw, rfl⟩
  refine hclear h (l.pool.flatten ++ (l.program.flatten ++ (l.symbols.flatten ++ l.memory))) ?_
  exact Section.accepts_header.2 ⟨l.header, hw.header, hbytes.symm⟩

/-- An image that is marked is refused before anything is loaded. -/
theorem into_of_marked (hheader : Section.header bytes = .ok (h, rest))
    (hmarked : h.flags.contains .containsError = true) :
    into module bytes = (.error .containsErrors, module) := by
  have hnext : Loading.next Section.header ⟨module, bytes⟩ = .ok h ⟨module, rest⟩ :=
    Loading.next_ok_iff.2 ⟨rest, hheader, rfl⟩
  have himage : Loading.image ⟨module, bytes⟩ = .error .containsErrors ⟨module, rest⟩ := by
    unfold Loading.image
    rw [bind_of_ok hnext, hmarked]
    rfl
  unfold into
  rw [himage]

def withFlags (flags : Flags) (p : Header × Image) : Header × Image :=
  ({ p.1 with flags }, { p.2 with flags })

/-- Taking off the mark changes the flags of the header only. -/
theorem header_withoutMark (hheader : Section.header bytes = .ok (h, rest)) :
    Section.header bytes.withoutMark =
      .ok ({ h with flags := h.flags.without .containsError }, rest) := by
  rcases Section.accepts_header.1 hheader with ⟨_, ⟨hmagic, hversion, rfl⟩, rfl⟩
  rw [Header.withoutMark_encode]
  exact Section.accepts_header.2 ⟨_, ⟨hmagic, hversion, rfl⟩, rfl⟩

/-- Taking off the mark changes what is read by the flags only. -/
theorem image_withoutMark (hheader : Section.header bytes = .ok (h, rest)) :
    Section.image bytes =
      (Section.image bytes.withoutMark).map (Prod.map (withFlags h.flags) id) := by
  -- the header is the one without the mark, with its own flags put back
  have hflags : Section.contents h rest = _ :=
    Section.contents_flags { h with flags := h.flags.without .containsError } h.flags rest
  rw [Section.image_of_header hheader, Section.image_of_header (header_withoutMark hheader), hflags]
  cases Section.contents { h with flags := h.flags.without .containsError } rest with
  | ok result => rfl
  | error e => rfl

/-- Loading finds the header or the error that inspecting finds, and the module then holds what was
inspected, except that of the pool entries with the same key only the last one counts. An image that
is marked as built with errors is not loaded, and inspected as if it were not marked. -/
theorem agrees_with_inspection (module : Module) (bytes : Bytes) :
    (Unmarked bytes →
      (into module bytes).1 = (Section.image bytes).map (·.1.1) ∧
      ∀ h i rest, Section.image bytes = .ok ((h, i), rest) →
        ∃ loaded, into module bytes = (.ok h, loaded) ∧ loaded.instructions = i.instructions ∧
          loaded.symbols = i.symbols ∧ loaded.memory.length = i.memory.length ∧
          (∀ key, loaded.pool.get key = lastSize i.pool key) ∧
          loaded.pool.count = i.pool.size) ∧
      ∀ h rest, Section.header bytes = .ok (h, rest) → h.flags.contains .containsError = true →
        into module bytes = (.error .containsErrors, module) ∧
          Section.header bytes.withoutMark =
            .ok ({ h with flags := h.flags.without .containsError }, rest) ∧
          Unmarked bytes.withoutMark ∧
          Section.image bytes =
            (Section.image bytes.withoutMark).map (Prod.map (withFlags h.flags) id) := by
  refine ⟨fun hclear => ⟨fst_into_of_unmarked hclear, ?_⟩, ?_⟩
  · intro h i rest hread
    exact ⟨module.holding i, into_of_read hclear hread, rfl, rfl, rfl, get_poolTable i.pool,
      count_poolTable i.pool⟩
  · intro h rest hheader hmarked
    have hwithout := header_withoutMark hheader
    refine ⟨into_of_marked hheader hmarked, hwithout, ?_, image_withoutMark hheader⟩
    intro h' rest' hheader'
    rw [hwithout, Except.ok.injEq, Prod.mk.injEq] at hheader'
    rw [← hheader'.1]
    exact h.flags.contains_without

/-- Of two entries with the same key the second counts. The same image with the mark for errors is
refused, but inspected all the same. -/
theorem agrees_with_inspection_shadowed :
    let image : Image :=
      { flags := .executable, pool := #[⟨7, 16⟩, ⟨7, 32⟩], instructions := #[.of .nop 0] }
    let marked : Image := { image with flags := image.flags.union .containsError }
    (∃ loaded, into {} image.encode = (.ok image.header, loaded) ∧ loaded.pool.get 7 = 32 ∧
        loaded.pool.get 8 = 0 ∧ loaded.pool.count = 2) ∧
      into {} marked.encode = (.error .containsErrors, {}) ∧
      Section.image marked.encode = .ok ((marked.header, marked), []) := by
  intro image marked
  have hread : Section.image image.encode = .ok ((image.header, image), []) := by
    dsimp only [image]
    rfl
  have hmarked : ∃ rest, Section.header marked.encode = .ok (marked.header, rest) := by
    dsimp only [marked, image]
    exact ⟨_, rfl⟩
  have hheader : ∃ rest, Section.header image.encode = .ok (image.header, rest) := by
    dsimp only [image]
    exact ⟨_, rfl⟩
  rcases hmarked with ⟨tail, hmarked⟩
  rcases hheader with ⟨rest, hheader⟩
  have hclear : Unmarked image.encode := by
    intro h rest' hheader'
    rw [hheader, Except.ok.injEq, Prod.mk.injEq] at hheader'
    rw [← hheader'.1]
    decide
  rcases ((agrees_with_inspection {} image.encode).1 hclear).2 _ _ _ hread with
    ⟨loaded, hloaded, -, -, -, hget, hcount⟩
  rcases (agrees_with_inspection {} marked.encode).2 _ _ hmarked (by decide) with
    ⟨hrefused, -, -, hinspected⟩
  refine ⟨⟨loaded, hloaded, ?_, ?_, hcount⟩, hrefused, ?_⟩
  · rw [hget]
    rfl
  · rw [hget]
    rfl
  · -- taking the mark off gives the bytes of the image without it
    have hwithout : marked.encode.withoutMark = image.encode := by
      dsimp only [marked, image]
      rfl
    rw [hinspected, hwithout, hread]
    rfl

end Load
end StackMachine
