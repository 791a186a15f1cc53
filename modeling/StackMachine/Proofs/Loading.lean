import StackMachine.Proofs.Grammar
import StackMachine.Proofs.Sequence

/-!
# Loading — the images that can be loaded

A layout is the bytes of an image, cut into the written forms of its parts.

* `Layout.Writes` — the header and the contents that a layout stands for;
* `Layout.Writes.unambiguous` — bytes have one layout, and a layout stands for one image;
* `Section.image_ok_iff` — the images that can be read are those that have a layout;
* `Load.accepts_exactly_layouts` — the same for loading into a module, and what the module then
  holds;
* `Module.Fresh` — what is known of every module that was just loaded.
-/

namespace StackMachine

/-! ## Layouts -/

/-- The bytes of an image, cut into the written forms of its parts. -/
structure Layout where
  header : Bytes
  pool : List Bytes
  program : List Bytes
  symbols : List Bytes
  memory : Bytes

namespace Layout

/-- The parts one after the other, with nothing after the memory. -/
def bytes (l : Layout) : Bytes :=
  l.header ++ (l.pool.flatten ++ (l.program.flatten ++ (l.symbols.flatten ++ l.memory)))

/-- The layout is a written form of the contents `i` under the header `h`. -/
structure Writes (l : Layout) (h : Header) (i : Image) : Prop where
  header : h.Written l.header
  flags : i.flags = h.flags
  entry : i.entry = h.entry
  pool_size : i.pool.size = h.poolSize.toNat
  pool : List.Forall₂ PoolEntry.Written i.pool.toList l.pool
  program_size : i.instructions.size = h.programSize.toNat
  program : List.Forall₂ Instruction.Written i.instructions.toList l.program
  symbols_size : i.symbols.size = h.symbolSize.toNat
  symbols : List.Forall₂ Symbol.Written i.symbols.toList l.symbols
  memory_size : i.memory.length = h.memorySize.toNat
  memory_fits : h.memorySize.toNat ≤ Address.maxRegionLength
  memory : l.memory = i.memory

/-- Bytes have at most one layout, and a layout stands for one header and one image. -/
theorem Writes.unambiguous {l l' : Layout} {h h' : Header} {i i' : Image} (hw : l.Writes h i)
    (hw' : l'.Writes h' i') (heq : l.bytes = l'.bytes) : l = l' ∧ h = h' ∧ i = i' := by
  rcases l with ⟨header, pool, program, symbols, memory⟩
  rcases l' with ⟨header', pool', program', symbols', memory'⟩
  rcases i with ⟨flags, entry, ⟨entries⟩, ⟨instructions⟩, ⟨names⟩, bytes⟩
  rcases i' with ⟨flags', entry', ⟨entries'⟩, ⟨instructions'⟩, ⟨names'⟩, bytes'⟩
  -- each part fixes where the next one starts, and the header fixes how many records follow
  rcases Section.accepts_header.unambiguous hw.header hw'.header heq with ⟨rfl, rfl, heq⟩
  rcases Section.series_unambiguous Section.accepts_poolEntry hw.pool hw'.pool
    (hw.pool_size.trans hw'.pool_size.symm) heq with ⟨rfl, rfl, heq⟩
  rcases Section.series_unambiguous (Section.accepts_instruction 0) hw.program hw'.program
    (hw.program_size.trans hw'.program_size.symm) heq with ⟨rfl, rfl, heq⟩
  rcases Section.series_unambiguous (Section.accepts_symbol 0) hw.symbols hw'.symbols
    (hw.symbols_size.trans hw'.symbols_size.symm) heq with ⟨rfl, rfl, rfl⟩
  rcases hw.memory with rfl
  rcases hw'.memory with rfl
  rcases hw.flags.trans hw'.flags.symm with rfl
  rcases hw.entry.trans hw'.entry.symm with rfl
  exact ⟨rfl, rfl, rfl⟩

end Layout

/-! ## Reading and loading -/

/-- The images that can be read are those that have a layout. -/
theorem Section.image_ok_iff {input rest : Bytes} {h : Header} {i : Image} :
    image input = .ok ((h, i), rest) ↔
      rest = [] ∧ ∃ l : Layout, l.bytes = input ∧ l.Writes h i := by
  simp only [image, bind_ok_iff, pure_ok_iff, finish_ok_iff, memory_ok_iff, symbols_ok_iff,
    program_ok_iff, pool_ok_iff]
  constructor
  · rintro ⟨h, _, hheader, entries, _, ⟨pool, hpools, hpool, rfl⟩, instructions, _,
      ⟨program, hprograms, hprogram, rfl⟩, names, _, ⟨symbols, hnames, hname, rfl⟩, bytes, _,
      ⟨hbytes, hfits, rfl⟩, _, _, ⟨rfl, rfl⟩, heq, rfl⟩
    rcases accepts_header.1 hheader with ⟨header, hwritten, rfl⟩
    cases heq
    exact ⟨rfl, ⟨header, pool, program, symbols, bytes⟩, by simp [Layout.bytes],
      ⟨hwritten, rfl, rfl, hpools, hpool, hprograms, hprogram, hnames, hname, hbytes, hfits, rfl⟩⟩
  · rintro ⟨rfl, l, rfl, hw⟩
    rcases i with ⟨flags, entry, entries, instructions, names, bytes⟩
    refine ⟨h, _, accepts_header.2 ⟨l.header, hw.header, rfl⟩, entries, _,
      ⟨l.pool, hw.pool_size, hw.pool, rfl⟩, instructions, _,
      ⟨l.program, hw.program_size, hw.program, rfl⟩, names, _,
      ⟨l.symbols, hw.symbols_size, hw.symbols, rfl⟩, bytes, [],
      ⟨hw.memory_size, hw.memory_fits, by simpa using hw.memory⟩, (), [], ⟨rfl, rfl⟩, ?_, rfl⟩
    rw [hw.flags.symm, hw.entry.symm]

/-- The module with its sections and its entry point replaced by those of an image. -/
def Module.holding (m : Module) (i : Image) : Module :=
  { m with
    pool := Load.poolTable i.pool, instructions := i.instructions, symbols := i.symbols,
    memory := .detached i.memory, entry := i.entry }

namespace Loading

/-- A step reads a part of the image and leaves the rest unread. -/
theorem next_ok_iff {part : Section α} {a : α} {p p' : Load.Progress} :
    next part p = .ok a p' ↔
      ∃ rest, part p.unread = .ok (a, rest) ∧ p' = { p with unread := rest } := by
  unfold next
  split
  next b rest hpart =>
    simp only [EStateM.Result.ok.injEq, hpart, Except.ok.injEq, Prod.mk.injEq, and_assoc,
      exists_and_left, exists_eq_left', @eq_comm _ p']
  next e hpart => simp [hpart]

/-- Loading reads an image as a whole, and refuses those marked as built with errors. -/
theorem image_ok_iff {h : Header} {p p' : Load.Progress} :
    image p = .ok h p' ↔ h.flags.contains .containsError = false ∧
      ∃ i rest, Section.image p.unread = .ok ((h, i), rest) ∧
        p' = ⟨p.module.holding i, rest⟩ := by
  simp only [image, Section.image, bind_ok_iff, next_ok_iff, Section.bind_ok_iff,
    Section.pure_ok_iff]
  -- both read the same parts in the same order; loading also fills the module after each of them
  constructor
  · rintro ⟨h, _, ⟨rest, hheader, rfl⟩, hload⟩
    split at hload
    next => simp at hload
    next hclear =>
      simp only [bind_ok_iff, next_ok_iff, fill, modify_ok_iff, pure_ok_iff] at hload
      rcases hload with ⟨entries, _, ⟨afterPool, hpool, rfl⟩, -, _, rfl, instructions, _,
        ⟨afterProgram, hprogram, rfl⟩, -, _, rfl, names, _, ⟨afterNames, hnames, rfl⟩, -, _, rfl,
        bytes, _, ⟨afterMemory, hmemory, rfl⟩, -, _, rfl, u, _, ⟨rest', hfinish, rfl⟩, rfl, rfl⟩
      exact ⟨by simpa using hclear, _, rest', ⟨h, rest, hheader, entries, afterPool, hpool,
        instructions, afterProgram, hprogram, names, afterNames, hnames, bytes, afterMemory,
        hmemory, u, rest', hfinish, rfl, rfl⟩, rfl⟩
  · rintro ⟨hclear, i, rest, ⟨h, afterHeader, hheader, entries, afterPool, hpool, instructions,
      afterProgram, hprogram, names, afterNames, hnames, bytes, afterMemory, hmemory, u, rest',
      hfinish, heq, rfl⟩, rfl⟩
    cases heq
    refine ⟨h, _, ⟨afterHeader, hheader, rfl⟩, ?_⟩
    rw [if_neg (by simp [hclear])]
    simp only [bind_ok_iff, next_ok_iff, fill, modify_ok_iff, pure_ok_iff]
    exact ⟨entries, _, ⟨afterPool, hpool, rfl⟩, ⟨⟩, _, rfl, instructions, _,
      ⟨afterProgram, hprogram, rfl⟩, ⟨⟩, _, rfl, names, _, ⟨afterNames, hnames, rfl⟩, ⟨⟩, _, rfl,
      bytes, _, ⟨afterMemory, hmemory, rfl⟩, ⟨⟩, _, rfl, u, _, ⟨rest, hfinish, rfl⟩, trivial, rfl⟩

end Loading

namespace Load

/-- An image is loaded exactly if it is written in order and not marked, and the module then holds
its contents. -/
theorem into_ok_iff {module after : Module} {bytes : Bytes} {h : Header} :
    into module bytes = (.ok h, after) ↔ h.flags.contains .containsError = false ∧
      ∃ (l : Layout) (i : Image), l.bytes = bytes ∧ l.Writes h i ∧ after = module.holding i := by
  have hload : into module bytes = (.ok h, after) ↔
      ∃ rest, Loading.image ⟨module, bytes⟩ = .ok h ⟨after, rest⟩ := by
    unfold into
    split
    next header p heq =>
      rcases p with ⟨filled, rest⟩
      simp [heq]
    next e p heq => simp [heq]
  rw [hload]
  simp only [Loading.image_ok_iff, Section.image_ok_iff, Progress.mk.injEq]
  constructor
  · rintro ⟨rest, hclear, i, _, ⟨rfl, l, hbytes, hwrites⟩, rfl, rfl⟩
    exact ⟨hclear, l, i, hbytes, hwrites, rfl⟩
  · rintro ⟨hclear, l, i, hbytes, hwrites, rfl⟩
    exact ⟨[], hclear, i, [], ⟨rfl, l, hbytes, hwrites⟩, rfl, rfl⟩

/-- An image loads exactly if its bytes have a layout with the mark for errors clear. The layout is
the only one, and the module holds what it stands for. -/
theorem accepts_exactly_layouts (module : Module) (bytes : Bytes) :
    (∀ (h : Header) (after : Module), into module bytes = (.ok h, after) ↔
      h.flags.contains .containsError = false ∧
        ∃ (l : Layout) (i : Image), l.header.length = 46 ∧ l.bytes = bytes ∧ l.Writes h i ∧
          after = module.holding i) ∧
      ∀ (l l' : Layout) (h h' : Header) (i i' : Image), l.bytes = bytes → l'.bytes = bytes →
        l.Writes h i → l'.Writes h' i' → l = l' ∧ h = h' ∧ i = i' := by
  constructor
  · intro h after
    rw [into_ok_iff]
    constructor
    · rintro ⟨hclear, l, i, hbytes, hwrites, hafter⟩
      exact ⟨hclear, l, i, hwrites.header.length_eq, hbytes, hwrites, hafter⟩
    · rintro ⟨hclear, l, i, -, hbytes, hwrites, hafter⟩
      exact ⟨hclear, l, i, hbytes, hwrites, hafter⟩
  · intro l l' h h' i i' hbytes hbytes' hwrites hwrites'
    exact hwrites.unambiguous hwrites' (hbytes.trans hbytes'.symm)

end Load

/-! ## Loaded modules -/

/-- The module was just loaded: its memory fits in one region and is still with it, and its
instructions can be counted in sixty-four bits. -/
structure Module.Fresh (module : Module) : Prop where
  memory : ∃ bytes, module.memory = .detached bytes ∧ bytes.length ≤ Address.maxRegionLength
  instructions : module.instructions.size < UInt64.size

namespace Load

/-- What was just loaded is fresh. -/
theorem fresh_of_into {module after : Module} {bytes : Bytes} {h : Header}
    (hload : into module bytes = (.ok h, after)) : after.Fresh := by
  rcases into_ok_iff.1 hload with ⟨-, l, i, -, hwrites, rfl⟩
  constructor
  · refine ⟨i.memory, rfl, ?_⟩
    rw [hwrites.memory_size]
    exact hwrites.memory_fits
  · show i.instructions.size < UInt64.size
    rw [hwrites.program_size]
    exact h.programSize.toNat_lt

theorem fresh_of_libraryInto {module after : Module} {bytes : Bytes}
    (hload : libraryInto module bytes = (.ok (), after)) : after.Fresh := by
  unfold libraryInto at hload
  split at hload
  next h filled hinto =>
    split at hload
    · cases hload
      exact fresh_of_into hinto
    · cases hload
  next => cases hload

theorem fresh_of_executable {bytes : Bytes} {h : Header} {module : Module}
    (hload : executable bytes = .ok (h, module)) : module.Fresh := by
  unfold executable at hload
  split at hload
  next header filled hinto =>
    split at hload
    · cases hload
      exact fresh_of_into hinto
    · cases hload
  next => cases hload

end Load
end StackMachine
