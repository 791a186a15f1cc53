import Mathlib.Logic.Function.Basic
import StackMachine.Proofs.Bytes
import StackMachine.Proofs.Heap

/-!
# RegionStore — guest memory as a map of regions

To its users guest memory is a map from region numbers to regions, each with an owner and bytes. In
the checked profile numbers are given out in order from one, and none is given out twice. This
module states the map on its own, with what every request does to it, and shows that guest memory
answers as the map does, if the host provides whatever it is asked for.

* `RegionStore` — the map, with how many numbers were given out;
* `RegionStore.Permits` — exactly when a request succeeds;
* `RegionStore.Answers`, `RegionStore.Runs` — the replies to requests, and the map afterwards;
* `Heap.Plain` — guest memory in the checked profile, with a host that is never short of memory;
* `Heap.view` — the map that guest memory stands for;
* `Heap.refines_region_store` — guest memory and the map give the same replies to any requests, as
  long as region numbers do not run out.
-/

namespace StackMachine

/-! ## Requests -/

inductive Heap.Request where
  | allocate (size : Word)
  | release (a : Word)
  | map (bytes : Bytes)
  | unmap (base : Word)
  | slice (a : Word) (length : Nat)
  /-- Borrows as many bytes as are given and puts these in their place. -/
  | overwrite (a : Word) (bytes : Bytes)
  | read (a width : Word)
  | write (a value width : Word)
  | cString (a : Word)
  deriving DecidableEq

/-- What guest memory replies. Addresses and numbers are told without a width. -/
inductive Heap.Reply where
  | address (a : Nat)
  | done
  | bytes (bytes : Bytes)
  | number (n : Nat)
  | refused (fault : Fault)
  deriving DecidableEq

/-- Whether a request makes a region. -/
def Heap.Request.creates : Heap.Request → Bool
  | .allocate size => size.toNat ≤ Address.maxRegionLength
  | .map _ => true
  | _ => false

namespace Heap

/-- The reply of guest memory to a request, and guest memory afterwards. -/
def answer (h : Heap) : Request → Reply × Heap
  | .allocate size => (.address (h.allocate size).1.toNat, (h.allocate size).2)
  | .release a =>
    match h.release a with
    | .ok after => (.done, after)
    | .error e => (.refused e, h)
  | .map bytes => (.address (h.map bytes).1.toNat, (h.map bytes).2)
  | .unmap base =>
    match h.unmap base with
    | .ok (some bytes, after) => (.bytes bytes, after)
    | .ok (none, after) => (.done, after)
    | .error e => (.refused e, h)
  | .slice a length =>
    match h.slice a length with
    | .ok bytes => (.bytes bytes, h)
    | .error e => (.refused e, h)
  | .overwrite a bytes =>
    if h.covers a bytes.length then (.done, h.overwrite a bytes) else (.refused .illegalAccess, h)
  | .read a width =>
    match h.read a width with
    | .ok w => (.number w.toNat, h)
    | .error e => (.refused e, h)
  | .write a value width =>
    match h.write a value width with
    | .ok after => (.done, after)
    | .error e => (.refused e, h)
  | .cString a =>
    match h.cString a with
    | .ok bytes => (.bytes bytes, h)
    | .error e => (.refused e, h)

def answers (h : Heap) : List Request → List Reply × Heap
  | [] => ([], h)
  | request :: requests =>
    let (replies, after) := (h.answer request).2.answers requests
    ((h.answer request).1 :: replies, after)

end Heap

/-! ## The map -/

/-- Regions by number, and how many numbers were given out. -/
structure RegionStore where
  issued : Nat := 0
  find : Nat → Option (Owner × Bytes) := fun _ => none

namespace RegionStore

def add (s : RegionStore) (owner : Owner) (bytes : Bytes) : RegionStore where
  issued := s.issued + 1
  find := Function.update s.find (s.issued + 1) (some (owner, bytes))

def put (s : RegionStore) (number : Nat) (owner : Owner) (bytes : Bytes) : RegionStore :=
  { s with find := Function.update s.find number (some (owner, bytes)) }

def remove (s : RegionStore) (number : Nat) : RegionStore :=
  { s with find := Function.update s.find number none }

/-- The address is the first one of a live region with that owner. -/
def Starts (s : RegionStore) (a : Word) (owner : Owner) : Prop :=
  ∃ number bytes, a.toNat = number * Address.offsets ∧ s.find number = some (owner, bytes)

/-- The bytes from an address on are inside one live region. -/
def Covers (s : RegionStore) (a : Word) (length : Nat) : Prop :=
  ∃ owner bytes, s.find (Address.region a) = some (owner, bytes) ∧
    Address.offset a + length ≤ bytes.length

/-- There is a zero byte at an address or behind it in the same live region. -/
def Terminates (s : RegionStore) (a : Word) : Prop :=
  ∃ owner bytes, s.find (Address.region a) = some (owner, bytes) ∧
    0 ∈ bytes.drop (Address.offset a)

/-- When a request succeeds. -/
def Permits (s : RegionStore) : Heap.Request → Prop
  | .allocate _ => True
  | .release a => a = 0 ∨ s.Starts a .guest
  | .map _ => True
  | .unmap base => s.Starts base .module
  | .slice a length => s.Covers a length
  | .overwrite a bytes => s.Covers a bytes.length
  | .read a width => width.toNat ≤ 8 ∧ s.Covers a width.toNat
  | .write a _ width => width.toNat ≤ 8 ∧ s.Covers a width.toNat
  | .cString a => s.Terminates a

/-- Bytes with some of them replaced from an index on. -/
def patched (bytes : Bytes) (start : Nat) (new : Bytes) : Bytes :=
  bytes.take start ++ new ++ bytes.drop (start + new.length)

inductive Answers (s : RegionStore) : Heap.Request → Heap.Reply → RegionStore → Prop
  | allocate {size : Word} (hsize : size.toNat ≤ Address.maxRegionLength) :
      Answers s (.allocate size) (.address ((s.issued + 1) * Address.offsets))
        (s.add .guest (List.replicate size.toNat 0))
  | allocateNothing {size : Word} (hsize : ¬size.toNat ≤ Address.maxRegionLength) :
      Answers s (.allocate size) (.address 0) s
  | releaseNull : Answers s (.release 0) .done s
  | release {a number bytes} (hnull : a ≠ 0) (hbase : a.toNat = number * Address.offsets)
      (hlive : s.find number = some (.guest, bytes)) :
      Answers s (.release a) .done (s.remove number)
  | map {bytes} :
      Answers s (.map bytes) (.address ((s.issued + 1) * Address.offsets)) (s.add .module bytes)
  | unmap {base number bytes} (hbase : base.toNat = number * Address.offsets)
      (hlive : s.find number = some (.module, bytes)) :
      Answers s (.unmap base) (.bytes bytes) (s.remove number)
  | slice {a length owner bytes} (hlive : s.find (Address.region a) = some (owner, bytes))
      (hwithin : Address.offset a + length ≤ bytes.length) :
      Answers s (.slice a length) (.bytes ((bytes.drop (Address.offset a)).take length)) s
  | overwrite {a new owner bytes} (hlive : s.find (Address.region a) = some (owner, bytes))
      (hwithin : Address.offset a + new.length ≤ bytes.length) :
      Answers s (.overwrite a new) .done
        (s.put (Address.region a) owner (patched bytes (Address.offset a) new))
  | read {a width owner bytes} (hwidth : width.toNat ≤ 8)
      (hlive : s.find (Address.region a) = some (owner, bytes))
      (hwithin : Address.offset a + width.toNat ≤ bytes.length) :
      Answers s (.read a width)
        (.number (Bytes.toNatLE ((bytes.drop (Address.offset a)).take width.toNat))) s
  | write {a value width owner bytes} (hwidth : width.toNat ≤ 8)
      (hlive : s.find (Address.region a) = some (owner, bytes))
      (hwithin : Address.offset a + width.toNat ≤ bytes.length) :
      Answers s (.write a value width) .done
        (s.put (Address.region a) owner
          (patched bytes (Address.offset a) (Bytes.ofNatLE width.toNat value.toNat)))
  | cString {a owner bytes} (hlive : s.find (Address.region a) = some (owner, bytes))
      (hend : 0 ∈ bytes.drop (Address.offset a)) :
      Answers s (.cString a)
        (.bytes ((bytes.drop (Address.offset a)).takeWhile fun b => b != 0)) s
  | refused {request} (hrefused : ¬s.Permits request) :
      Answers s request (.refused .illegalAccess) s

inductive Runs : RegionStore → List Heap.Request → List Heap.Reply → RegionStore → Prop
  | nil {s} : Runs s [] [] s
  | cons {s t u request requests reply replies} (hanswers : Answers s request reply t)
      (hruns : Runs t requests replies u) : Runs s (request :: requests) (reply :: replies) u

variable {s t u : RegionStore} {request : Heap.Request} {reply reply' : Heap.Reply}

/-- A request is refused only if it is not permitted. -/
theorem Answers.permits_or_refused (h : Answers s request reply t) :
    s.Permits request ∨ reply = .refused .illegalAccess ∧ t = s := by
  cases h with
  | allocate => exact .inl trivial
  | allocateNothing => exact .inl trivial
  | releaseNull => exact .inl (.inl rfl)
  | release _ hbase hlive => exact .inl (.inr ⟨_, _, hbase, hlive⟩)
  | map => exact .inl trivial
  | unmap hbase hlive => exact .inl ⟨_, _, hbase, hlive⟩
  | slice hlive hwithin => exact .inl ⟨_, _, hlive, hwithin⟩
  | overwrite hlive hwithin => exact .inl ⟨_, _, hlive, hwithin⟩
  | read hwidth hlive hwithin => exact .inl ⟨hwidth, _, _, hlive, hwithin⟩
  | write hwidth hlive hwithin => exact .inl ⟨hwidth, _, _, hlive, hwithin⟩
  | cString hlive hend => exact .inl ⟨_, _, hlive, hend⟩
  | refused => exact .inr ⟨rfl, rfl⟩

/-- Two replies to a request that is permitted are the same. -/
theorem Answers.unique_of_permits (hpermits : s.Permits request) (h : Answers s request reply t)
    (h' : Answers s request reply' u) : reply = reply' ∧ t = u := by
  cases h with
  | allocate hsize =>
    cases h' with
    | allocate => exact ⟨rfl, rfl⟩
    | allocateNothing hnot => exact absurd hsize hnot
    | refused hrefused => exact absurd hpermits hrefused
  | allocateNothing hnot =>
    cases h' with
    | allocate hsize => exact absurd hsize hnot
    | allocateNothing => exact ⟨rfl, rfl⟩
    | refused hrefused => exact absurd hpermits hrefused
  | releaseNull =>
    cases h' with
    | releaseNull => exact ⟨rfl, rfl⟩
    | release hnull => exact absurd rfl hnull
    | refused hrefused => exact absurd hpermits hrefused
  | release hnull hbase =>
    cases h' with
    | releaseNull => exact absurd rfl hnull
    | release _ hbase' =>
      cases Nat.eq_of_mul_eq_mul_right (by decide) (hbase.symm.trans hbase')
      exact ⟨rfl, rfl⟩
    | refused hrefused => exact absurd hpermits hrefused
  | map =>
    cases h' with
    | map => exact ⟨rfl, rfl⟩
    | refused hrefused => exact absurd hpermits hrefused
  | unmap hbase hlive =>
    cases h' with
    | unmap hbase' hlive' =>
      cases Nat.eq_of_mul_eq_mul_right (by decide) (hbase.symm.trans hbase')
      cases hlive.symm.trans hlive'
      exact ⟨rfl, rfl⟩
    | refused hrefused => exact absurd hpermits hrefused
  | slice hlive =>
    cases h' with
    | slice hlive' =>
      cases hlive.symm.trans hlive'
      exact ⟨rfl, rfl⟩
    | refused hrefused => exact absurd hpermits hrefused
  | overwrite hlive =>
    cases h' with
    | overwrite hlive' =>
      cases hlive.symm.trans hlive'
      exact ⟨rfl, rfl⟩
    | refused hrefused => exact absurd hpermits hrefused
  | read _ hlive =>
    cases h' with
    | read _ hlive' =>
      cases hlive.symm.trans hlive'
      exact ⟨rfl, rfl⟩
    | refused hrefused => exact absurd hpermits hrefused
  | write _ hlive =>
    cases h' with
    | write _ hlive' =>
      cases hlive.symm.trans hlive'
      exact ⟨rfl, rfl⟩
    | refused hrefused => exact absurd hpermits hrefused
  | cString hlive =>
    cases h' with
    | cString hlive' =>
      cases hlive.symm.trans hlive'
      exact ⟨rfl, rfl⟩
    | refused hrefused => exact absurd hpermits hrefused
  | refused hrefused => exact absurd hpermits hrefused

/-- The map leaves no choice. -/
theorem Answers.unique (h : Answers s request reply t) (h' : Answers s request reply' u) :
    reply = reply' ∧ t = u := by
  rcases h.permits_or_refused with hpermits | ⟨rfl, rfl⟩
  · exact h.unique_of_permits hpermits h'
  · rcases h'.permits_or_refused with hpermits | ⟨rfl, rfl⟩
    · exact h.unique_of_permits hpermits h'
    · exact ⟨rfl, rfl⟩

/-- Only requests for a region use up numbers. -/
theorem Answers.issued_eq (h : Answers s request reply t) :
    t.issued = s.issued + if request.creates = true then 1 else 0 := by
  cases h with
  | allocate hsize => rw [Heap.Request.creates, if_pos (decide_eq_true hsize), add]
  | allocateNothing hsize =>
    rw [Heap.Request.creates, if_neg (by simpa using hsize)]
    rfl
  | map => rfl
  | refused hrefused =>
    cases request with
    | allocate => exact absurd trivial hrefused
    | map => exact absurd trivial hrefused
    | _ => rfl
  | _ => rfl

/-- The requests determine all replies, and the map at the end. -/
theorem Runs.unique {requests : List Heap.Request} {replies replies' : List Heap.Reply}
    (h : Runs s requests replies t) (h' : Runs s requests replies' u) :
    replies = replies' ∧ t = u := by
  induction h generalizing replies' with
  | nil =>
    cases h'
    exact ⟨rfl, rfl⟩
  | cons hanswers hruns ih =>
    cases h' with
    | cons hanswers' hruns' =>
      rcases hanswers.unique hanswers' with ⟨rfl, rfl⟩
      rcases ih hruns' with ⟨rfl, rfl⟩
      exact ⟨rfl, rfl⟩

end RegionStore

/-! ## Guest memory as a map -/

namespace Address

/-- The first addresses of regions are the multiples of the number of offsets. -/
theorem toNat_eq_iff {a : Word} {number : Nat} :
    a.toNat = number * offsets ↔ region a = number ∧ offset a = 0 := by
  unfold region offset offsets
  omega

theorem toNat_base {number : Nat} (h : number ≤ maxRegionLength) :
    (base number).toNat = number * offsets :=
  toNat_eq_iff.2 ⟨region_base h, offset_base number⟩

end Address

namespace Heap

open RegionStore

/-- The map that guest memory stands for. -/
def view (h : Heap) : RegionStore where
  issued := h.regions.size
  find number := (h.lookup number).map fun r => (r.owner, r.bytes.toList)

/-- A live region is found in the map. -/
theorem find_view_of_lookup {h : Heap} {number : Nat} {r : Region}
    (hlookup : h.lookup number = some r) : h.view.find number = some (r.owner, r.bytes.toList) := by
  show (h.lookup number).map _ = _
  rw [hlookup]
  rfl

theorem find_view_of_lookup_none {h : Heap} {number : Nat} (hlookup : h.lookup number = none) :
    h.view.find number = none := by
  show (h.lookup number).map _ = _
  rw [hlookup]
  rfl

/-- Making a region adds it to the map. -/
theorem view_insert {h : Heap} (hfree : h.free = []) (r : Region) :
    (h.insert r).2.view = h.view.add r.owner r.bytes.toList := by
  have hfind : (h.insert r).2.view.find = (h.view.add r.owner r.bytes.toList).find := by
    funext number
    show ((h.insert r).2.lookup number).map _ = Function.update h.view.find _ _ number
    rw [lookup_insert, next_of_nil hfree, Function.update_apply]
    by_cases hnew : number = h.regions.size + 1
    · rw [if_pos hnew]
      exact (if_pos hnew).symm
    · rw [if_neg hnew]
      exact (if_neg hnew).symm
  have hissued : (h.insert r).2.view.issued = h.view.issued + 1 := by
    show (h.insert r).2.regions.size = h.regions.size + 1
    rw [size_insert, next_of_nil hfree]
    exact Nat.max_eq_right (Nat.le_succ _)
  exact congrArg₂ RegionStore.mk hissued hfind

/-- Taking a region out removes it from the map. -/
theorem view_erase (h : Heap) (a : Word) :
    (h.erase a).view = h.view.remove (Address.region a) := by
  have hfind : (h.erase a).view.find = (h.view.remove (Address.region a)).find := by
    funext number
    show ((h.erase a).lookup number).map _ = Function.update h.view.find _ _ number
    rw [lookup_erase, Function.update_apply]
    by_cases hnumber : number = Address.region a
    · rw [if_pos hnumber, if_pos hnumber]
      rfl
    · rw [if_neg hnumber, if_neg hnumber]
      rfl
  exact congrArg₂ RegionStore.mk (size_erase h a) hfind

/-- Copying bytes into an array replaces as many bytes from the index on. -/
theorem toList_splice {target : Array UInt8} {start : Nat} {bytes : Bytes}
    (hfits : start + bytes.length ≤ target.size) :
    (splice target start bytes).toList = patched target.toList start bytes := by
  induction bytes generalizing target start with
  | nil => simp [splice, patched]
  | cons b bs ih =>
    rw [List.length_cons] at hfits
    have hstart : start < target.toList.length := by
      rw [Array.length_toList]
      omega
    rw [splice, ih (by rw [Array.size_setIfInBounds]; omega)]
    unfold patched
    -- the byte just written is the last one in front of the rest
    rw [Array.toList_setIfInBounds, List.take_add_one, List.take_set_of_le (Nat.le_refl start),
      List.getElem?_set_self hstart, List.drop_set_of_lt (by omega)]
    simp [Nat.add_assoc, Nat.add_comm 1]

/-- Overwriting bytes replaces them in the map. -/
theorem view_overwrite {h : Heap} {a : Word} {bytes : Bytes} {r : Region}
    (hlookup : h.lookup (Address.region a) = some r)
    (hfits : Address.offset a + bytes.length ≤ r.bytes.size) :
    (h.overwrite a bytes).view =
      h.view.put (Address.region a) r.owner
        (patched r.bytes.toList (Address.offset a) bytes) := by
  have hfind : (h.overwrite a bytes).view.find =
      (h.view.put (Address.region a) r.owner
        (patched r.bytes.toList (Address.offset a) bytes)).find := by
    funext number
    show ((h.overwrite a bytes).lookup number).map _ = Function.update h.view.find _ _ number
    rw [lookup_overwrite, Function.update_apply]
    by_cases hnumber : number = Address.region a
    · rw [if_pos hnumber, if_pos hnumber, hnumber, hlookup, ← toList_splice hfits]
      rfl
    · rw [if_neg hnumber, if_neg hnumber]
      rfl
  exact congrArg₂ RegionStore.mk (size_overwrite h a bytes) hfind

/-! ## Access -/

section Access

variable {h : Heap} {a : Word} {r : Region}

/-- The text at an address ends in front of the first zero byte of the region. -/
theorem cString_of_lookup (hlookup : h.lookup (Address.region a) = some r) :
    h.cString a =
      if 0 ∈ r.bytes.toList.drop (Address.offset a) then
        .ok ((r.bytes.toList.drop (Address.offset a)).takeWhile fun b => b != 0)
      else .error .illegalAccess := by
  have htail : r.bytes.extract (Address.offset a) r.bytes.size =
      (r.bytes.toList.drop (Address.offset a)).toArray := by
    apply Array.toList_inj.1
    rw [Array.toList_extract, List.extract_eq_take_drop]
    exact List.take_of_length_le (by simp)
  unfold cString
  rw [region?_eq_lookup, hlookup]
  simp only [htail, List.findIdx?_toArray]
  cases hfound : (r.bytes.toList.drop (Address.offset a)).findIdx? (· == 0) with
  | none =>
    have hnone : 0 ∉ r.bytes.toList.drop (Address.offset a) := by
      intro hmem
      exact absurd (List.findIdx?_eq_none_iff.1 hfound 0 hmem) (by decide)
    rw [if_neg hnone]
  | some length =>
    have hfirst := (List.findIdx?_eq_some_iff_findIdx_eq.1 hfound).2
    have hzero : 0 ∈ r.bytes.toList.drop (Address.offset a) := by
      by_contra hnone
      have hmissing : (r.bytes.toList.drop (Address.offset a)).findIdx? (· == 0) = none := by
        refine List.findIdx?_eq_none_iff.2 fun b hb => beq_false_of_ne ?_
        rintro rfl
        exact hnone hb
      rw [hfound] at hmissing
      cases hmissing
    rw [if_pos hzero, List.takeWhile_eq_take_findIdx_not]
    simp [List.extract_eq_take_drop, hfirst, bne]

/-- An address starts a region in guest memory exactly if it does in the map. -/
theorem starts_view {owner : Owner} : h.view.Starts a owner ↔ h.starts a owner = true := by
  rw [starts_iff]
  constructor
  · rintro ⟨number, bytes, hbase, hfind⟩
    rcases Address.toNat_eq_iff.1 hbase with ⟨rfl, hoffset⟩
    rcases Option.map_eq_some_iff.1 hfind with ⟨r, hlookup, heq⟩
    cases heq
    exact ⟨r, hlookup, hoffset, rfl⟩
  · rintro ⟨r, hlookup, hoffset, rfl⟩
    exact ⟨_, _, Address.toNat_eq_iff.2 ⟨rfl, hoffset⟩, find_view_of_lookup hlookup⟩

/-- Bytes at an address are inside of its region, and every access finds them there, or they are
not, and every access is refused. -/
theorem access_cases (h : Heap) (a : Word) (length : Nat) :
    (∃ r, h.lookup (Address.region a) = some r ∧
      Address.offset a + length ≤ r.bytes.toList.length ∧ h.covers a length = true ∧
      h.slice a length = .ok ((r.bytes.toList.drop (Address.offset a)).take length)) ∨
    (¬h.view.Covers a length ∧ h.covers a length = false ∧
      h.slice a length = .error .illegalAccess) := by
  unfold covers slice
  rw [region?_eq_lookup]
  cases hlookup : h.lookup (Address.region a) with
  | none =>
    refine .inr ⟨?_, rfl, rfl⟩
    rintro ⟨owner, bytes, hfind, -⟩
    rw [find_view_of_lookup_none hlookup] at hfind
    cases hfind
  | some r =>
    by_cases hwithin : Address.offset a + length ≤ r.bytes.size
    · refine .inl ⟨r, rfl, hwithin, decide_eq_true hwithin, ?_⟩
      simp only [if_pos hwithin, Array.toList_extract, List.extract_eq_take_drop,
        Nat.add_sub_cancel_left]
    · refine .inr ⟨?_, decide_eq_false hwithin, if_neg hwithin⟩
      rintro ⟨owner, bytes, hfind, hinside⟩
      rw [find_view_of_lookup hlookup] at hfind
      cases hfind
      exact hwithin hinside

end Access

/-! ## Requests one by one -/

section Requests

variable {h : Heap}

/-- Region numbers are given out in order, and the host provides whatever it is asked for. -/
structure Plain (h : Heap) : Prop where
  profile : h.profile = .checked
  free : h.free = []
  supply : h.supply = []

theorem Plain.insert (hplain : h.Plain) (r : Region) : (h.insert r).2.Plain :=
  ⟨(h.profile_insert r).trans hplain.profile, free_insert hplain.free r,
    (h.supply_insert r).trans hplain.supply⟩

theorem Plain.erase (hplain : h.Plain) (a : Word) : (h.erase a).Plain :=
  ⟨(h.profile_erase a).trans hplain.profile, (free_erase hplain.profile a).trans hplain.free,
    (h.supply_erase a).trans hplain.supply⟩

theorem Plain.overwrite (hplain : h.Plain) (a : Word) (bytes : Bytes) :
    (h.overwrite a bytes).Plain :=
  ⟨(h.profile_overwrite a bytes).trans hplain.profile, (h.free_overwrite a bytes).trans hplain.free,
    (h.supply_overwrite a bytes).trans hplain.supply⟩

/-- In the checked profile, to give back what is no region is refused. -/
theorem Plain.unmatched {α : Type} (hplain : h.Plain) (answer : α) :
    h.unmatched answer = .error .illegalAccess := by
  unfold Heap.unmatched
  rw [hplain.profile]

/-- Where the host provides everything, an allocation that fits makes a region. -/
theorem Plain.allocate_eq (hplain : h.Plain) {size : Word}
    (hsize : size.toNat ≤ Address.maxRegionLength) :
    h.allocate size = h.insert ⟨.guest, Array.replicate size.toNat 0⟩ := by
  have hprovides : h.provides size.toNat = true := by
    unfold provides
    rw [hplain.supply]
  have hsupply : h.supply.tail = h.supply := by
    rw [hplain.supply]
    rfl
  rw [allocate_of_provides hsize hprovides, hsupply]
  rfl

theorem Plain.allocate (hplain : h.Plain) (size : Word) : (h.allocate size).2.Plain := by
  by_cases hsize : size.toNat ≤ Address.maxRegionLength
  · rw [hplain.allocate_eq hsize]
    exact hplain.insert _
  · rw [Heap.allocate, if_neg hsize]
    exact hplain

/-- No request changes how guest memory treats regions that are gone, or what the host provides. -/
theorem Plain.answer (hplain : h.Plain) (request : Request) : (h.answer request).2.Plain := by
  cases request with
  | allocate size => exact hplain.allocate size
  | release a =>
    simp only [Heap.answer]
    split
    next after hrelease =>
      rcases release_ok_iff.1 hrelease with ⟨-, rfl⟩ | ⟨-, -, rfl⟩
      · exact hplain
      · exact hplain.erase a
    next => exact hplain
  | map bytes => exact hplain.insert _
  | unmap base =>
    simp only [Heap.answer]
    split
    next bytes after hunmap =>
      rcases unmap_ok_iff.1 hunmap with ⟨r, -, -, -, rfl⟩ | ⟨-, -, -, rfl⟩
      · exact hplain.erase base
      · exact hplain
    next after hunmap =>
      rcases unmap_ok_iff.1 hunmap with ⟨r, -, -, -, rfl⟩ | ⟨-, -, -, rfl⟩
      · exact hplain.erase base
      · exact hplain
    next => exact hplain
  | slice a length =>
    simp only [Heap.answer]
    split
    · exact hplain
    · exact hplain
  | overwrite a bytes =>
    simp only [Heap.answer]
    split
    · exact hplain.overwrite a bytes
    · exact hplain
  | read a width =>
    simp only [Heap.answer]
    split
    · exact hplain
    · exact hplain
  | write a value width =>
    simp only [Heap.answer, write]
    split
    next after hwrite =>
      split at hwrite
      next =>
        cases hwrite
        exact hplain.overwrite a _
      next => cases hwrite
    next => exact hplain
  | cString a =>
    simp only [Heap.answer]
    split
    · exact hplain
    · exact hplain

/-- An allocation is answered as by the map. -/
theorem answers_allocate (hplain : h.Plain) (size : Word)
    (hroom : size.toNat ≤ Address.maxRegionLength → h.regions.size < Address.maxRegionLength) :
    Answers h.view (.allocate size) (h.answer (.allocate size)).1
      (h.answer (.allocate size)).2.view := by
  show Answers h.view _ (.address (h.allocate size).1.toNat) (h.allocate size).2.view
  by_cases hsize : size.toNat ≤ Address.maxRegionLength
  · rw [hplain.allocate_eq hsize, view_insert hplain.free, Array.toList_replicate]
    show Answers h.view _ (.address (Address.base h.next).toNat) _
    rw [next_of_nil hplain.free, Address.toNat_base (hroom hsize)]
    exact .allocate hsize
  · rw [allocate, if_neg hsize]
    exact .allocateNothing hsize

theorem answers_release (hplain : h.Plain) (a : Word) :
    Answers h.view (.release a) (h.answer (.release a)).1 (h.answer (.release a)).2.view := by
  by_cases hnull : a = 0
  · subst hnull
    exact .releaseNull
  · by_cases hstarts : h.starts a .guest = true
    · have hanswer : h.answer (.release a) = (.done, h.erase a) := by
        simp [answer, release, hnull, hstarts]
      rcases starts_view.2 hstarts with ⟨number, bytes, hbase, hfind⟩
      rw [hanswer, view_erase, (Address.toNat_eq_iff.1 hbase).1]
      exact .release hnull hbase hfind
    · have hanswer : h.answer (.release a) = (.refused .illegalAccess, h) := by
        simp [answer, release, hnull, hstarts, hplain.unmatched]
      rw [hanswer]
      refine .refused ?_
      rintro (hzero | hview)
      · exact hnull hzero
      · exact hstarts (starts_view.1 hview)

theorem answers_map (hplain : h.Plain) (bytes : Bytes)
    (hroom : h.regions.size < Address.maxRegionLength) :
    Answers h.view (.map bytes) (h.answer (.map bytes)).1 (h.answer (.map bytes)).2.view := by
  show Answers h.view _ (.address (Address.base h.next).toNat)
    (h.insert ⟨.module, bytes.toArray⟩).2.view
  rw [view_insert hplain.free, next_of_nil hplain.free, Address.toNat_base hroom]
  exact .map

theorem answers_unmap (hplain : h.Plain) (base : Word) :
    Answers h.view (.unmap base) (h.answer (.unmap base)).1 (h.answer (.unmap base)).2.view := by
  by_cases hstarts : h.starts base .module = true
  · rcases starts_iff.1 hstarts with ⟨r, hlookup, hoffset, howner⟩
    have hunmap : h.unmap base = .ok (some r.bytes.toList, h.erase base) :=
      unmap_ok_iff.2 (.inl ⟨r, hlookup, hstarts, rfl, rfl⟩)
    have hanswer : h.answer (.unmap base) = (.bytes r.bytes.toList, h.erase base) := by
      simp [answer, hunmap]
    have hfind := find_view_of_lookup hlookup
    rw [howner] at hfind
    rw [hanswer, view_erase]
    exact .unmap (Address.toNat_eq_iff.2 ⟨rfl, hoffset⟩) hfind
  · -- what belongs to the guest is refused like what is not there
    have hanswer : h.answer (.unmap base) = (.refused .illegalAccess, h) := by
      cases hlookup : h.lookup (Address.region base) with
      | none => simp [answer, unmap, region?_eq_lookup, hlookup, hplain.unmatched]
      | some r => simp [answer, unmap, region?_eq_lookup, hlookup, hstarts, hplain.unmatched]
    rw [hanswer]
    exact .refused fun hview => hstarts (starts_view.1 hview)

theorem answers_slice (a : Word) (length : Nat) :
    Answers h.view (.slice a length) (h.answer (.slice a length)).1
      (h.answer (.slice a length)).2.view := by
  rcases h.access_cases a length with ⟨r, hlookup, hwithin, -, hslice⟩ | ⟨hnot, -, hslice⟩
  · simp only [answer, hslice]
    exact .slice (find_view_of_lookup hlookup) hwithin
  · simp only [answer, hslice]
    exact .refused hnot

theorem answers_overwrite (a : Word) (bytes : Bytes) :
    Answers h.view (.overwrite a bytes) (h.answer (.overwrite a bytes)).1
      (h.answer (.overwrite a bytes)).2.view := by
  rcases h.access_cases a bytes.length with ⟨r, hlookup, hwithin, hcovers, -⟩ | ⟨hnot, hcovers, -⟩
  · simp only [answer, hcovers, if_true, view_overwrite hlookup hwithin]
    exact .overwrite (find_view_of_lookup hlookup) hwithin
  · simp only [answer, hcovers, Bool.false_eq_true, if_false]
    exact .refused hnot

theorem eight_lt_iff {width : Word} : width > 8 ↔ ¬width.toNat ≤ 8 := by
  rw [gt_iff_lt, UInt64.lt_iff_toNat_lt, Nat.not_le]
  rfl

theorem answers_read (a width : Word) :
    Answers h.view (.read a width) (h.answer (.read a width)).1
      (h.answer (.read a width)).2.view := by
  by_cases hwidth : width.toNat ≤ 8
  · have hnarrow : ¬width > 8 := fun hwide => eight_lt_iff.1 hwide hwidth
    rcases h.access_cases a width.toNat with ⟨r, hlookup, hwithin, -, hslice⟩ | ⟨hnot, -, hslice⟩
    · have hlength : ((r.bytes.toList.drop (Address.offset a)).take width.toNat).length ≤ 8 :=
        Nat.le_trans (List.length_take_le _ _) hwidth
      simp only [answer, read, if_neg hnarrow, hslice, Bytes.toNat_ofNat_toNatLE hlength]
      exact .read hwidth (find_view_of_lookup hlookup) hwithin
    · simp only [answer, read, if_neg hnarrow, hslice]
      exact .refused fun hview => hnot hview.2
  · simp only [answer, read, if_pos (eight_lt_iff.2 hwidth)]
    exact .refused fun hview => hwidth hview.1

theorem answers_write (a value width : Word) :
    Answers h.view (.write a value width) (h.answer (.write a value width)).1
      (h.answer (.write a value width)).2.view := by
  have hwritable : h.writable a width =
      (decide (width.toNat ≤ 8) && h.covers a width.toNat) := rfl
  by_cases hwidth : width.toNat ≤ 8
  · rcases h.access_cases a width.toNat with ⟨r, hlookup, hwithin, hcovers, -⟩ |
      ⟨hnot, hcovers, -⟩
    · have hfits : Address.offset a + (Bytes.ofNatLE width.toNat value.toNat).length ≤
          r.bytes.size := by
        rw [Bytes.length_ofNatLE]
        exact hwithin
      simp only [answer, write, hwritable, hwidth, hcovers, decide_true, Bool.and_self, if_true,
        store, view_overwrite hlookup hfits]
      exact .write hwidth (find_view_of_lookup hlookup) hwithin
    · simp only [answer, write, hwritable, hcovers, Bool.and_false, Bool.false_eq_true, if_false]
      exact .refused fun hview => hnot hview.2
  · simp only [answer, write, hwritable, hwidth, decide_false, Bool.false_and, Bool.false_eq_true,
      if_false]
    exact .refused fun hview => hwidth hview.1

theorem answers_cString (a : Word) :
    Answers h.view (.cString a) (h.answer (.cString a)).1 (h.answer (.cString a)).2.view := by
  cases hlookup : h.lookup (Address.region a) with
  | none =>
    simp only [answer, cString, region?_eq_lookup, hlookup]
    refine .refused ?_
    rintro ⟨owner, bytes, hfind, -⟩
    rw [find_view_of_lookup_none hlookup] at hfind
    cases hfind
  | some r =>
    by_cases hend : 0 ∈ r.bytes.toList.drop (Address.offset a)
    · simp only [answer, cString_of_lookup hlookup, if_pos hend]
      exact .cString (find_view_of_lookup hlookup) hend
    · simp only [answer, cString_of_lookup hlookup, if_neg hend]
      refine .refused ?_
      rintro ⟨owner, bytes, hfind, hzero⟩
      rw [find_view_of_lookup hlookup] at hfind
      cases hfind
      exact hend hzero

end Requests

/-! ## Runs -/

/-- Guest memory replies to a request as the map does that it stands for. -/
theorem answers_view {h : Heap} (hplain : h.Plain) (request : Request)
    (hroom : request.creates = true → h.regions.size < Address.maxRegionLength) :
    Answers h.view request (h.answer request).1 (h.answer request).2.view := by
  cases request with
  | allocate size => exact answers_allocate hplain size fun hsize => hroom (decide_eq_true hsize)
  | release a => exact answers_release hplain a
  | map bytes => exact answers_map hplain bytes (hroom rfl)
  | unmap base => exact answers_unmap hplain base
  | slice a length => exact answers_slice a length
  | overwrite a bytes => exact answers_overwrite a bytes
  | read a width => exact answers_read a width
  | write a value width => exact answers_write a value width
  | cString a => exact answers_cString a

/-- Requests in a row are answered as by the map. -/
theorem runs_view {h : Heap} (hplain : h.Plain) (requests : List Request)
    (hroom : h.regions.size + requests.countP Request.creates ≤ Address.maxRegionLength) :
    Runs h.view requests (h.answers requests).1 (h.answers requests).2.view := by
  induction requests generalizing h with
  | nil => exact .nil
  | cons request requests ih =>
    rw [List.countP_cons] at hroom
    -- a request that makes a region takes one of the numbers that are left
    have hanswers : Answers h.view request (h.answer request).1 (h.answer request).2.view := by
      refine answers_view hplain request fun hcreates => ?_
      rw [hcreates, if_pos rfl] at hroom
      omega
    have hsize : (h.answer request).2.regions.size =
        h.regions.size + if request.creates = true then 1 else 0 := hanswers.issued_eq
    exact .cons hanswers (ih (hplain.answer request) (by rw [hsize]; omega))

/-- Guest memory behaves like the map of regions: of all replies to requests, those of guest memory
are the ones that the map gives, and it stands for that map afterwards, as long as the requests make
no more regions than there are region numbers. -/
theorem refines_region_store (requests : List Request)
    (hcount : requests.countP Request.creates ≤ Address.maxRegionLength) (replies : List Reply)
    (s : RegionStore) :
    Runs {} requests replies s ↔
      (({} : Heap).answers requests).1 = replies ∧ (({} : Heap).answers requests).2.view = s := by
  have hempty : ({} : Heap).view = {} := by
    refine congrArg (RegionStore.mk 0) (funext fun number => ?_)
    cases number with
    | zero => rfl
    | succ slot => simp [lookup]
  have hruns : Runs {} requests (({} : Heap).answers requests).1
      (({} : Heap).answers requests).2.view := by
    rw [← hempty]
    exact runs_view ⟨rfl, rfl, rfl⟩ requests (by simpa using hcount)
  -- the map has one run on the requests, so that any other is this one
  constructor
  · intro h
    exact hruns.unique h
  · rintro ⟨rfl, rfl⟩
    exact hruns

/-- A region that was freed stays dead: freeing it again and reading it are refused, and the next
region has another number. -/
theorem refines_region_store_double_free :
    let a : Word := 0x100000000
    let requests : List Request :=
      [.allocate 4, .write (a + 1) 0x0201 2, .read a 4, .release (a + 1), .release a, .release a,
        .read a 1, .map [7, 0], .release 0x200000000, .cString 0x200000000, .unmap 0x200000000,
        .allocate 0x100000000]
    let replies : List Reply :=
      [.address 0x100000000, .done, .number 0x020100, .refused .illegalAccess, .done,
        .refused .illegalAccess, .refused .illegalAccess, .address 0x200000000,
        .refused .illegalAccess, .bytes [7], .bytes [7, 0], .address 0]
    requests.countP Request.creates ≤ Address.maxRegionLength ∧
      Runs {} requests replies (({} : Heap).answers requests).2.view := by
  intro a requests replies
  have hcount : requests.countP Request.creates ≤ Address.maxRegionLength := by decide
  have hreplies : (({} : Heap).answers requests).1 = replies := by decide +kernel
  exact ⟨hcount, (refines_region_store requests hcount _ _).2 ⟨hreplies, rfl⟩⟩

end Heap
end StackMachine
