import StackMachine.Machine.Access

/-!
# Interrupt — services of the host

An interrupt calls a service of the host by its code. There are 255 codes; a table says which
service answers to which. The standard services, with the stack before and after, top last:

* 0, 1, 2 — output, input, errors: `[] → [handle]`
* 3 — open: `[path, mode] → [handle]`, zero on failure
* 4 — write: `[handle, count, size, buffer] → []`
* 5 — close: `[handle] → []`
* 6 — exit: `[code]`, halts
* 7 — allocate: `[size] → [address]`
* 8 — release: `[address] → []`
* 9 — link: `[path] → [index]`
* 10 — unlink: `[index] → []`
* 11 — symbol: `[index, name] → [address]`
* 12 — read: `[handle, count, size, buffer] → [items read]`

Texts are byte strings in guest memory that end with a zero byte.
-/

namespace StackMachine
namespace Interrupt

open Machine

/-! ## Standard services -/

def stdout : Action Unit := push 1

def stdin : Action Unit := push 2

def stderr : Action Unit := push 3

def openFile : Action Unit := do
  require 2
  let path ← cString (← peek 1)
  let mode ← cString (← peek 0)
  let handle ← onHost (modifyGet (·.openPath path mode))
  replace 1 handle
  drop 1

/-- The number of bytes in `count` items of `size` bytes. -/
def transferLength (count size : Word) : Action Nat :=
  if count.toNat * size.toNat < UInt64.size then pure (count.toNat * size.toNat)
  else throw .illegalAccess

def write : Action Unit := do
  require 4
  let handle ← peek 3
  let length ← transferLength (← peek 2) (← peek 1)
  let buffer ← peek 0
  let data ← if length = 0 then pure [] else slice buffer length
  onHost (Host.write handle data)
  drop 4

/-- Reads bytes from a handle into guest memory. What was read before a fault stays there. -/
def receive (handle buffer : Word) (length : Nat) : Action Nat := do
  if (← get).heap.covers buffer length then
    let (bytes, fault) ← onHost (modifyGet (·.read handle length))
    modify fun m => { m with heap := m.heap.overwrite buffer bytes }
    match fault with
    | some e => throw e
    | none => return bytes.length
  else throw .illegalAccess

/-- Reads items from a handle and counts those that were read in full. -/
def read : Action Unit := do
  require 4
  let handle ← peek 3
  let size ← peek 1
  let length ← transferLength (← peek 2) size
  let buffer ← peek 0
  let received ← if length = 0 then pure 0 else receive handle buffer length
  replace 3 (UInt64.ofNat (received / size.toNat))
  drop 3

def close : Action Unit := do
  onHost (Host.close (← peek 0))
  drop 1

/-- Leaves with the code on top of the stack. -/
def exit : Action Unit := do throw (.exit (Word.signed (← peek 0)))

def malloc : Action Unit := do
  let address ← allocate (← peek 0)
  replace 0 address

def free : Action Unit := do
  release (← peek 0)
  drop 1

def linkModule : Action Unit := do
  let path ← cString (← peek 0)
  let index ← link (Utf8.lossy path)
  replace 0 index

def unlinkModule : Action Unit := do
  unlink (← peek 0)
  drop 1

def symbol : Action Unit := do
  require 2
  let index ← peek 1
  let name ← cString (← peek 0)
  let address ← attempt ((← get).resolve index name)
  replace 1 address
  drop 1

/-! ## Tables -/

def count : Nat := 255

/-- Which service answers to which code. -/
structure Table where
  slots : Vector (Option (Action Unit)) count

namespace Table

def empty : Table := ⟨Vector.replicate count none⟩

/-- The table with a service at a code. A code beyond the last one is ignored. -/
def install (t : Table) (code : UInt8) (service : Action Unit) : Table :=
  ⟨t.slots.setIfInBounds code.toNat (some service)⟩

def get (t : Table) (code : Word) : Except Fault (Action Unit) :=
  match (t.slots[code.toNat]?).join with
  | some service => .ok service
  | none => .error (.illegalInterrupt code)

end Table

/-- The standard services, in the order of their codes. -/
def services : List (Action Unit) :=
  [stdout, stdin, stderr, openFile, write, close, exit, malloc, free, linkModule, unlinkModule,
    symbol, read]

def standard : Table :=
  services.zipIdx.foldl (fun t (service, code) => t.install (UInt8.ofNat code) service) .empty

end Interrupt
end StackMachine
