import StackMachine.Address
import StackMachine.Bytes
import StackMachine.Fault

/-!
# Heap — guest memory

Guest memory is a sequence of regions. Every allocation and every mapped module segment is one
region, and a region is known by its number, counted from one.

What becomes of a region that is gone depends on the `Profile` that guest memory was made with. In
the checked profile its number is never given out again, so that an access to it, or giving it back
a second time, is always an illegal access. In the lenient profile the number is used again, for the
next region that is made, and giving back what is no region does nothing. The host may be unable to
provide the bytes of a region; `Heap.supply` tells how many it can provide each time that it is
asked.

* `Heap.allocate`, `Heap.release` — regions owned by the guest;
* `Heap.map`, `Heap.unmap` — regions that hold the memory of a module;
* `Heap.slice`, `Heap.overwrite`, `Heap.read`, `Heap.write`, `Heap.cString` — access to bytes.
-/

namespace StackMachine

/-- Who may give a region back. -/
inductive Owner where
  /-- The region was allocated by guest code. -/
  | guest
  /-- The region is the memory of a module. -/
  | module
  deriving DecidableEq, Repr

structure Region where
  owner : Owner
  bytes : Array UInt8
  deriving DecidableEq, Repr

/-- How guest memory treats regions that are gone. -/
inductive Profile where
  /-- Their numbers are not used again, and to give back what is no region is an error. -/
  | checked
  /-- Their numbers are used again, and to give back what is no region does nothing. -/
  | lenient
  deriving DecidableEq, Repr

/-- The places that are free once the region at one more place is gone. -/
def Profile.recycle (slot : Nat) (free : List Nat) : Profile → List Nat
  | .checked => free
  | .lenient => slot :: free

/-- Where there are no regions, no place is free. -/
theorem Heap.vacant_empty :
    ∀ slot ∈ ([] : List Nat), (#[] : Array (Option Region))[slot]? = some none :=
  List.forall_mem_nil _

/-- Guest memory. Entry `i` is region number `i + 1`, or nothing once that region is gone. -/
structure Heap where
  regions : Array (Option Region) := #[]
  /-- The places of regions that are gone and are used again, the last one first. -/
  free : List Nat := []
  profile : Profile := .checked
  /-- How many bytes the host can provide when it is asked next, and then each time; past the last
  number it provides whatever is asked for. -/
  supply : List Nat := []
  /-- No live region is at a free place. -/
  vacant : ∀ slot ∈ free, regions[slot]? = some none := by exact Heap.vacant_empty
  /-- No place is free twice. -/
  distinct : free.Nodup := by exact List.nodup_nil
  deriving DecidableEq, Repr

namespace Heap

instance : Inhabited Heap := ⟨{}⟩

def region? (h : Heap) (a : Word) : Option Region :=
  match Address.region a with
  | 0 => none
  | slot + 1 => (h.regions[slot]?).join

def live (h : Heap) : Nat := h.regions.countP Option.isSome

/-! ## Making and removing regions -/

/-- The number of the next region: the last one that became free, or the one after all others. -/
def next (h : Heap) : Nat :=
  match h.free with
  | [] => h.regions.size + 1
  | slot :: _ => slot + 1

/-- Using one free place leaves the others free. -/
theorem vacant_place {regions : Array (Option Region)} {slot : Nat} {free : List Nat}
    (hvacant : ∀ s ∈ slot :: free, regions[s]? = some none) (hdistinct : (slot :: free).Nodup)
    (r : Region) : ∀ s ∈ free, (regions.setIfInBounds slot (some r))[s]? = some none := by
  intro s hs
  have hne : slot ≠ s := by
    rintro rfl
    exact (List.nodup_cons.1 hdistinct).1 hs
  rw [Array.getElem?_setIfInBounds_ne hne]
  exact hvacant s (List.mem_cons_of_mem _ hs)

/-- Guest memory with one more region, at the next number. -/
def place (h : Heap) (r : Region) : Heap :=
  match hfree : h.free with
  | [] => { h with regions := h.regions.push (some r), vacant := by simp [hfree] }
  | slot :: free =>
    { h with
      regions := h.regions.setIfInBounds slot (some r)
      free
      vacant := vacant_place (hfree ▸ h.vacant) (hfree ▸ h.distinct) r
      distinct := (List.nodup_cons.1 (hfree ▸ h.distinct)).2 }

/-- Adds a region and returns its first address. -/
def insert (h : Heap) (r : Region) : Word × Heap := (Address.base h.next, h.place r)

/-- Whether an address is the first of a live region with the given owner. -/
def starts (h : Heap) (a : Word) (owner : Owner) : Bool :=
  match h.region? a with
  | some r => Address.offset a == 0 && r.owner == owner
  | none => false

/-- A live region is found at the place before its number. -/
theorem getElem?_of_region? {h : Heap} {a : Word} {r : Region} (hlive : h.region? a = some r) :
    h.regions[Address.region a - 1]? = some (some r) := by
  unfold region? at hlive
  split at hlive
  next => cases hlive
  next slot hslot =>
    rw [hslot]
    exact Option.join_eq_some_iff.1 hlive

/-- The places that are free once a region is gone hold no region. -/
theorem vacant_recycle {h : Heap} {slot : Nat} {r : Region}
    (hlive : h.regions[slot]? = some (some r)) :
    ∀ s ∈ h.profile.recycle slot h.free, (h.regions.setIfInBounds slot none)[s]? = some none := by
  have hinside : slot < h.regions.size := (Array.getElem?_eq_some_iff.1 hlive).1
  intro s hs
  rw [Array.getElem?_setIfInBounds]
  split
  next => rfl
  next hother =>
    refine h.vacant s ?_
    cases hprofile : h.profile with
    | checked => rwa [hprofile] at hs
    | lenient =>
      rw [hprofile] at hs
      exact (List.mem_cons.1 hs).resolve_left (Ne.symm hother)

/-- The place of a live region was not free, so that no place is freed twice. -/
theorem distinct_recycle {h : Heap} {slot : Nat} {r : Region}
    (hlive : h.regions[slot]? = some (some r)) : (h.profile.recycle slot h.free).Nodup := by
  cases h.profile with
  | checked => exact h.distinct
  | lenient =>
    refine List.nodup_cons.2 ⟨fun hfree => ?_, h.distinct⟩
    rw [h.vacant slot hfree] at hlive
    cases hlive

def erase (h : Heap) (a : Word) : Heap :=
  match hlive : h.region? a with
  | none => h
  | some _ =>
    { h with
      regions := h.regions.setIfInBounds (Address.region a - 1) none
      free := h.profile.recycle (Address.region a - 1) h.free
      vacant := vacant_recycle (getElem?_of_region? hlive)
      distinct := distinct_recycle (getElem?_of_region? hlive) }

/-- The same regions, with another supply of the host. -/
def withSupply (h : Heap) (supply : List Nat) : Heap := { h with supply }

/-- Whether the host can provide so many bytes when it is asked next. -/
def provides (h : Heap) (size : Nat) : Bool :=
  match h.supply with
  | [] => true
  | most :: _ => size ≤ most

/-- Allocates zeroed bytes. A size beyond that of the largest region, or more than the host can
provide, gives the null address. -/
def allocate (h : Heap) (size : Word) : Word × Heap :=
  if size.toNat ≤ Address.maxRegionLength then
    -- the host has been asked, whether it can provide the bytes or not
    let asked := h.withSupply h.supply.tail
    if h.provides size.toNat then asked.insert ⟨.guest, Array.replicate size.toNat 0⟩
    else (0, asked)
  else (0, h)

/-- What giving back an address leads to that is not the first of a region of the right owner. -/
def unmatched (h : Heap) (answer : α) : Except Fault α :=
  match h.profile with
  | .checked => .error .illegalAccess
  | .lenient => .ok answer

/-- Gives an allocation back. Giving back the null address does nothing. -/
def release (h : Heap) (a : Word) : Except Fault Heap :=
  if a = 0 then .ok h
  else if h.starts a .guest then .ok (h.erase a)
  else h.unmatched h

def map (h : Heap) (bytes : Bytes) : Word × Heap := h.insert ⟨.module, bytes.toArray⟩

/-- Unmaps the memory of a module and returns its bytes, if there are any at that address. -/
def unmap (h : Heap) (base : Word) : Except Fault (Option Bytes × Heap) :=
  match h.region? base with
  | some r =>
    if h.starts base .module then .ok (some r.bytes.toList, h.erase base)
    else h.unmatched (none, h)
  | none => h.unmatched (none, h)

/-! ## Access -/

/-- Whether `length` bytes at an address lie inside one live region. -/
def covers (h : Heap) (a : Word) (length : Nat) : Bool :=
  match h.region? a with
  | some r => Address.offset a + length ≤ r.bytes.size
  | none => false

def slice (h : Heap) (a : Word) (length : Nat) : Except Fault Bytes :=
  match h.region? a with
  | some r =>
    let start := Address.offset a
    if start + length ≤ r.bytes.size then .ok (r.bytes.extract start (start + length)).toList
    else .error .illegalAccess
  | none => .error .illegalAccess

/-- Copies bytes into an array from an index on. Bytes that fall outside are dropped. -/
def splice (target : Array UInt8) (start : Nat) : Bytes → Array UInt8
  | [] => target
  | b :: bs => splice (target.setIfInBounds start b) (start + 1) bs

theorem vacant_modify (h : Heap) (slot : Nat) (patch : Region → Region) :
    ∀ s ∈ h.free, (h.regions.modify slot (·.map patch))[s]? = some none := by
  intro s hs
  rw [Array.getElem?_modify, h.vacant s hs]
  split
  · rfl
  · rfl

def overwrite (h : Heap) (a : Word) (bytes : Bytes) : Heap :=
  match Address.region a with
  | 0 => h
  | slot + 1 =>
    let patch (r : Region) : Region := { r with bytes := splice r.bytes (Address.offset a) bytes }
    { h with regions := h.regions.modify slot (·.map patch), vacant := h.vacant_modify slot patch }

/-- The number of `width` bytes, at most eight, at an address. -/
def read (h : Heap) (a width : Word) : Except Fault Word :=
  if width > 8 then .error .illegalAccess
  else match h.slice a width.toNat with
    | .ok bytes => .ok (UInt64.ofNat bytes.toNatLE)
    | .error e => .error e

/-- Whether `width` bytes, at most eight, can be written to an address. -/
def writable (h : Heap) (a width : Word) : Bool := width ≤ 8 && h.covers a width.toNat

/-- Stores the `width` low bytes of a value at an address. -/
def store (h : Heap) (a value width : Word) : Heap :=
  h.overwrite a (Bytes.ofNatLE width.toNat value.toNat)

def write (h : Heap) (a value width : Word) : Except Fault Heap :=
  if h.writable a width then .ok (h.store a value width) else .error .illegalAccess

/-- The bytes from an address up to the first zero byte. -/
def cString (h : Heap) (a : Word) : Except Fault Bytes :=
  match h.region? a with
  | some r =>
    let start := Address.offset a
    match (r.bytes.extract start r.bytes.size).findIdx? (· == 0) with
    | some length => .ok (r.bytes.extract start (start + length)).toList
    | none => .error .illegalAccess
  | none => .error .illegalAccess

end Heap

end StackMachine
