import StackMachine.Fault
import StackMachine.Host.Directory
import StackMachine.Host.Sink
import StackMachine.Host.Source

/-!
# Host — streams and files behind handles

The guest reaches the outside through handles. A handle is a small number; zero is no handle. The
three standard streams are open from the start, in the order output, input, errors, and a file that
is opened gets the smallest handle that is free.

What the outside does is given beforehand, call by call: whether the next files can be opened
(`Opening`), and what becomes of each call that reads or writes a stream or an open file
(`Source.Event`, `Sink.Event`). Where nothing is given, files are those of a `Directory`.

* `Host.openPath` — opens a file in a mode such as `r`, `w+` or `ab`, and answers zero on failure;
* `Host.write`, `Host.read`, `Host.close` — fail with the reason of the host.
-/

namespace StackMachine

/-- A file opened by the guest, with its own offset. -/
structure OpenFile where
  /-- The number of the file in the directory; a folder has none. -/
  number : Option Nat
  offset : Nat := 0
  readable : Bool
  writable : Bool
  /-- Whether every write goes to the end of the file. -/
  append : Bool := false
  /-- The outcomes of the next calls that read; after them, the bytes of the file are read. -/
  reads : List Source.Event := []
  /-- The outcomes of the next calls that write; after them, every call accepts all bytes. -/
  writes : List Sink.Event := []
  deriving DecidableEq, Repr

/-- What becomes of a call that opens a file. -/
inductive Opening where
  | refused
  /-- The file is opened, and the calls that read and write it have these outcomes. -/
  | granted (reads : List Source.Event) (writes : List Sink.Event)
  deriving DecidableEq, Repr

/-- What a handle stands for. -/
inductive Channel where
  | stdout
  | stdin
  | stderr
  | file (f : OpenFile)
  deriving DecidableEq, Repr

/-- The outside of a machine. Entry `i` of the table belongs to handle `i + 1`. -/
structure Host where
  stdin : Source := {}
  stdout : Sink := {}
  stderr : Sink := {}
  directory : Directory := {}
  /-- What becomes of the next calls that open a file; after them, the directory decides. -/
  openings : List Opening := []
  channels : Array (Option Channel) := #[some .stdout, some .stdin, some .stderr]
  deriving DecidableEq, Repr, Inhabited

namespace Host

/-! ## Handles -/

def channel? (h : Host) (handle : Word) : Option Channel :=
  match handle.toNat with
  | 0 => none
  | slot + 1 => (h.channels[slot]?).join

def openHandles (h : Host) : Nat := h.channels.countP Option.isSome

def badHandle (handle : Word) : Fault := .hostIo s!"bad file handle {handle}"

/-- Binds a channel to the smallest free handle. -/
def bind (h : Host) (c : Channel) : Word × Host :=
  match h.channels.findIdx? Option.isNone with
  | some slot =>
    (UInt64.ofNat (slot + 1), { h with channels := h.channels.setIfInBounds slot (some c) })
  | none =>
    (UInt64.ofNat (h.channels.size + 1), { h with channels := h.channels.push (some c) })

def rebind (h : Host) (handle : Word) (c : Option Channel) : Host :=
  { h with channels := h.channels.setIfInBounds (handle.toNat - 1) c }

/-! ## Files -/

/-- How a mode opens a file: whether it may read and write, and what becomes of the file. -/
inductive Purpose where
  /-- The file has to exist. -/
  | existing (writable : Bool)
  /-- The file is emptied, or made. -/
  | replaced (readable : Bool)
  /-- The file is made if it is missing, and written at its end. -/
  | extended (readable : Bool)
  deriving DecidableEq, Repr

/-- Reads a mode: its first byte selects the purpose and a plus sign adds the other direction. -/
def purpose? (mode : Bytes) : Option Purpose :=
  let both := mode.contains 0x2B
  match mode.head? with
  | some 0x72 => some (.existing both)
  | some 0x77 => some (.replaced both)
  | some 0x61 => some (.extended both)
  | _ => none

def Purpose.file (number : Option Nat) : Purpose → OpenFile
  | .existing writable => { number, readable := true, writable }
  | .replaced readable => { number, readable, writable := true }
  | .extended readable => { number, readable, writable := true, append := true }

/-- The file that a directory yields at a path for a purpose, with the directory afterwards. -/
def openFile? (d : Directory) (path : String) (purpose : Purpose) : Option (OpenFile × Directory) :=
  match d.locate path, purpose with
  | .file number, .replaced _ => some (purpose.file number, d.rewrite number [])
  | .file number, _ => some (purpose.file number, d)
  | .folder, .existing false => some (purpose.file none, d)
  | .vacant path, .replaced _ | .vacant path, .extended _ =>
    let (number, d) := d.make path
    some (purpose.file number, d)
  | _, _ => none

/-- The file that a directory yields at a path, or a new one if it yields none. -/
def openAnyway (d : Directory) (path : String) (purpose : Purpose) : OpenFile × Directory :=
  match openFile? d path purpose with
  | some opened => opened
  | none =>
    let (number, d) := d.make path
    (purpose.file number, d)

def acquire (h : Host) (path : String) (purpose : Purpose) : Option OpenFile × Host :=
  match h.openings with
  | .refused :: openings => (none, { h with openings })
  | .granted reads writes :: openings =>
    let (file, directory) := openAnyway h.directory path purpose
    (some { file with reads, writes }, { h with directory, openings })
  | [] =>
    match openFile? h.directory path purpose with
    | some (file, directory) => (some file, { h with directory })
    | none => (none, h)

/-- Opens a file. The answer is its handle, or zero if it cannot be opened. -/
def openPath (h : Host) (path mode : Bytes) : Word × Host :=
  match Utf8.decode? path, purpose? mode with
  | some path, some purpose =>
    match h.acquire path purpose with
    | (some file, h) => h.bind (.file file)
    | (none, h) => (0, h)
  | _, _ => (0, h)

/-- The bytes of a file after writing `data` at an offset; a gap is filled with zeros. -/
def patched (contents : Bytes) (offset : Nat) (data : Bytes) : Bytes :=
  contents.take offset ++ List.replicate (offset - contents.length) 0 ++ data ++
    contents.drop (offset + data.length)

/-- What a call that reads a file gets, unless it has another outcome. -/
def unread (d : Directory) (f : OpenFile) : Source.Event :=
  if f.readable then
    match f.number with
    | some number => .chunk ((d.contents number).drop f.offset)
    | none => .failed Obstacle.isFolder.message
  else .failed Obstacle.wrongDirection.message

def fileSource (d : Directory) (f : OpenFile) : Source := ⟨f.reads ++ [unread d f]⟩

/-- Reads up to `n` bytes from a file. Bytes read before a failure are kept. -/
def readFile (d : Directory) (f : OpenFile) (n : Nat) : (Bytes × Option String) × OpenFile :=
  let (received, rest) := (fileSource d f).fill n
  -- what is left of the bytes of the file is found again by the offset
  let reads := rest.events.dropLast
  (received, { f with reads, offset := f.offset + received.1.length })

def fileSink (f : OpenFile) : Sink :=
  { events := f.writes
    room := if f.writable then none else some 0
    refusal := some Obstacle.wrongDirection.message }

/-- Brings what the stream of a file has accepted into the directory. -/
def saved (d : Directory) (f : OpenFile) (s : Sink) : OpenFile × Directory :=
  let f := { f with writes := s.events }
  match f.number, s.written.toList with
  | some number, b :: bs =>
    let data := b :: bs
    let contents := d.contents number
    let offset := if f.append then contents.length else f.offset
    ({ f with offset := offset + data.length },
      d.rewrite number (patched contents offset data))
  | _, _ => (f, d)

/-! ## Reading and writing -/

/-- Writes all bytes to a sink and flushes it. -/
def writeSink (s : Sink) (data : Bytes) : EStateM.Result Fault Sink Unit :=
  match s.writeAll data with
  | .error reason s => .error (.hostIo reason) s
  | .ok () s =>
    match s.flush with
    | .error reason s => .error (.hostIo reason) s
    | .ok () s => .ok () s

def save (h : Host) (handle : Word) (f : OpenFile) (s : Sink) : Host :=
  let (f, directory) := saved h.directory f s
  { h with directory }.rebind handle (some (.file f))

def write (handle : Word) (data : Bytes) : EStateM Fault Host Unit := fun h =>
  match h.channel? handle with
  | none => .error (badHandle handle) h
  | some .stdin => .error (.hostIo s!"handle {handle} is not writable") h
  | some .stdout =>
    match writeSink h.stdout data with
    | .ok () stdout => .ok () { h with stdout }
    | .error e stdout => .error e { h with stdout }
  | some .stderr =>
    match writeSink h.stderr data with
    | .ok () stderr => .ok () { h with stderr }
    | .error e stderr => .error e { h with stderr }
  | some (.file f) =>
    match (fileSink f).writeAll data with
    | .ok () s => .ok () (h.save handle f s)
    | .error reason s => .error (.hostIo reason) (h.save handle f s)

/-- What a read got: the bytes, and the fault that ended it. Bytes read before a fault count. -/
abbrev Received := Bytes × Option Fault

/-- Reads from a handle until `n` bytes are there or the input ends. -/
def read (h : Host) (handle : Word) (n : Nat) : Received × Host :=
  match h.channel? handle with
  | none => (([], some (badHandle handle)), h)
  | some .stdout | some .stderr =>
    (([], some (.hostIo s!"handle {handle} is not readable")), h)
  | some .stdin =>
    let ((bytes, failure), stdin) := h.stdin.fill n
    ((bytes, failure.map .hostIo), { h with stdin })
  | some (.file f) =>
    let ((bytes, failure), f) := readFile h.directory f n
    ((bytes, failure.map .hostIo), h.rebind handle (some (.file f)))

/-- Flushes a handle and closes it, even if flushing fails. -/
def close (handle : Word) : EStateM Fault Host Unit := fun h =>
  match h.channel? handle with
  | none => .error (badHandle handle) h
  | some .stdout =>
    match h.stdout.flush with
    | .ok () stdout => .ok () ({ h with stdout }.rebind handle none)
    | .error reason stdout => .error (.hostIo reason) ({ h with stdout }.rebind handle none)
  | some .stderr =>
    match h.stderr.flush with
    | .ok () stderr => .ok () ({ h with stderr }.rebind handle none)
    | .error reason stderr => .error (.hostIo reason) ({ h with stderr }.rebind handle none)
  | some .stdin | some (.file _) => .ok () (h.rebind handle none)

end Host

end StackMachine
