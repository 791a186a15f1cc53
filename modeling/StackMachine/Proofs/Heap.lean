import Mathlib.Tactic.Common
import StackMachine.Heap

/-!
# Heap — regions by number

Guest memory is a map from region numbers to regions. `Heap.lookup` is that map, and every operation
on guest memory is stated as a change of it:

* `Heap.lookup_insert` — a new region gets the next number, which no live region has;
* `Heap.lookup_erase` — a region is taken out and all others stay;
* `Heap.lookup_overwrite` — a region keeps its owner and its length.

`Heap.Move` lists what guest code can do to guest memory. `Heap.Bounded` says that every region is
short enough for its offsets to fit in an address, and `Heap.Holds` that a region is the memory of a
module; a move keeps both, and makes no memory of a module.
-/

namespace StackMachine

/-! ## Addresses -/

namespace Address

/-- The number of a region is told from its first address, if it fits. -/
theorem region_base {n : Nat} (h : n ≤ maxRegionLength) : region (base n) = n := by
  unfold maxRegionLength offsets at h
  unfold region base offsets
  rw [UInt64.toNat_ofNat_of_lt' (by simp [UInt64.size]; omega)]
  omega

/-- The first address of a region has no offset. -/
@[simp]
theorem offset_base (n : Nat) : offset (base n) = 0 := by
  unfold offset base offsets
  rw [UInt64.toNat_ofNat']
  omega

/-- The first address of a region is determined by the region. -/
theorem eq_of_region_eq {a b : Word} (ha : offset a = 0) (hb : offset b = 0)
    (h : region a = region b) : a = b := by
  unfold offset offsets at ha hb
  unfold region offsets at h
  rw [← UInt64.toNat_inj]
  omega

/-- A distance from the first address of a region is the offset there. -/
theorem region_add {a distance : Word} (ha : offset a = 0) (hd : distance.toNat ≤ maxRegionLength) :
    region (a + distance) = region a ∧ offset (a + distance) = distance.toNat := by
  have hbelow : a.toNat < 2 ^ 64 := a.toNat_lt
  unfold maxRegionLength offsets at hd
  unfold offset offsets at ha
  unfold region offset offsets
  rw [UInt64.toNat_add]
  omega

end Address

namespace Heap

/-- The region with a number, if it is live. -/
def lookup (h : Heap) : (number : Nat) → Option Region
  | 0 => none
  | slot + 1 => (h.regions[slot]?).join

/-- The region of an address is found by its number. -/
theorem region?_eq_lookup (h : Heap) (a : Word) : h.region? a = h.lookup (Address.region a) := rfl

@[simp]
theorem next_withSupply (h : Heap) (supply : List Nat) : (h.withSupply supply).next = h.next := rfl

/-! ## Making and removing regions -/

/-- A free place is one of those that were used before. -/
theorem lt_size_of_free {h : Heap} {slot : Nat} (hfree : slot ∈ h.free) : slot < h.regions.size :=
  (Array.getElem?_eq_some_iff.1 (h.vacant slot hfree)).1

/-- As long as no number is used again, regions are counted. -/
theorem next_of_nil {h : Heap} (hfree : h.free = []) : h.next = h.regions.size + 1 := by
  unfold next
  rw [hfree]

/-- The place that became free last is used first. -/
theorem next_of_cons {h : Heap} {slot : Nat} {free : List Nat} (hfree : h.free = slot :: free) :
    h.next = slot + 1 := by
  unfold next
  rw [hfree]

theorem next_ne_zero (h : Heap) : h.next ≠ 0 := by
  unfold next
  split
  · exact Nat.succ_ne_zero _
  · exact Nat.succ_ne_zero _

/-- The number of the next region is that of no live region, in either profile. -/
theorem lookup_next (h : Heap) : h.lookup h.next = none := by
  unfold next
  split
  next => simp [lookup]
  next slot free hfree =>
    have hslot : slot ∈ h.free := by simp [hfree]
    rw [lookup, h.vacant slot hslot]
    rfl

/-- A live region never has the number of the next one. -/
theorem ne_next {h : Heap} {number : Nat} {r : Region} (hlive : h.lookup number = some r) :
    number ≠ h.next := by
  rintro rfl
  rw [lookup_next] at hlive
  cases hlive

/-- A new region gets the next number, and all others stay. -/
theorem lookup_insert (h : Heap) (r : Region) (number : Nat) :
    (h.insert r).2.lookup number = if number = h.next then some r else h.lookup number := by
  show (h.place r).lookup number = _
  unfold place
  split
  next hfree =>
    -- no place is free, so that the region goes behind all others
    rw [next_of_nil hfree]
    cases number with
    | zero => simp [lookup]
    | succ slot =>
      simp only [lookup, Array.getElem?_push, Nat.add_right_cancel_iff]
      split
      · rfl
      · rfl
  next first free hfree =>
    -- the place that became free last holds no region that could be lost
    have hinside : first < h.regions.size := lt_size_of_free (by simp [hfree])
    rw [next_of_cons hfree]
    cases number with
    | zero => simp [lookup]
    | succ slot =>
      simp only [lookup, Array.getElem?_setIfInBounds, Nat.add_right_cancel_iff, hinside, if_true]
      by_cases hsame : slot = first
      · rw [if_pos hsame, if_pos hsame.symm]
        rfl
      · rw [if_neg hsame, if_neg (Ne.symm hsame)]

/-- A region is taken out, and all others stay. -/
theorem lookup_erase (h : Heap) (a : Word) (number : Nat) :
    (h.erase a).lookup number = if number = Address.region a then none else h.lookup number := by
  unfold erase
  split
  next hdead =>
    -- the number had no region before
    split
    next hsame => rw [hsame, ← region?_eq_lookup, hdead]
    next => rfl
  next r hlive =>
    cases number with
    | zero => simp [lookup]
    | succ slot =>
      have hregion : Address.region a ≠ 0 := by
        intro hzero
        unfold region? at hlive
        rw [hzero] at hlive
        cases hlive
      by_cases hslot : slot + 1 = Address.region a
      · have : Address.region a - 1 = slot := by omega
        simp only [lookup, this, hslot, if_true, Array.getElem?_setIfInBounds]
        split
        · rfl
        · rfl
      · have : Address.region a - 1 ≠ slot := by omega
        simp [lookup, this, hslot]

/-- An address starts a region if it has no offset and the region has that owner. -/
theorem starts_iff {h : Heap} {a : Word} {owner : Owner} :
    h.starts a owner = true ↔
      ∃ r, h.lookup (Address.region a) = some r ∧ Address.offset a = 0 ∧ r.owner = owner := by
  unfold starts
  rw [region?_eq_lookup]
  cases h.lookup (Address.region a) with
  | none => simp
  | some r => simp

/-- To give back what is no region is allowed in the lenient profile only, and does nothing. -/
theorem unmatched_ok_iff {α : Type} {h : Heap} {answer a : α} :
    h.unmatched answer = .ok a ↔ h.profile = .lenient ∧ a = answer := by
  unfold unmatched
  cases h.profile with
  | checked => simp
  | lenient => simp [eq_comm]

/-- Giving back takes a region of the guest out, or changes nothing. -/
theorem release_ok_iff {h h' : Heap} {a : Word} :
    h.release a = .ok h' ↔
      ((a = 0 ∨ h.profile = .lenient ∧ h.starts a .guest = false) ∧ h' = h) ∨
        (a ≠ 0 ∧ h.starts a .guest = true ∧ h' = h.erase a) := by
  unfold release
  split
  next ha =>
    simp only [ha, Except.ok.injEq, eq_comm, true_and, true_or, ne_eq, not_true, false_and,
      or_false]
  next ha =>
    split
    next hstarts => simp [ha, hstarts, eq_comm]
    next hstarts => simp [ha, hstarts, unmatched_ok_iff]

/-- Unmapping takes the memory of a module out, or finds none in the lenient profile. -/
theorem unmap_ok_iff {h h' : Heap} {base : Word} {answer : Option Bytes} :
    h.unmap base = .ok (answer, h') ↔
      (∃ r, h.lookup (Address.region base) = some r ∧ h.starts base .module = true ∧
        answer = some r.bytes.toList ∧ h' = h.erase base) ∨
      (h.profile = .lenient ∧ h.starts base .module = false ∧ answer = none ∧ h' = h) := by
  unfold unmap
  rw [region?_eq_lookup]
  cases hlookup : h.lookup (Address.region base) with
  | none =>
    have hstarts : h.starts base .module = false := by
      unfold starts
      rw [region?_eq_lookup, hlookup]
    simp [unmatched_ok_iff, hstarts]
  | some r =>
    by_cases hstarts : h.starts base .module = true
    · simp [hstarts, eq_comm]
    · simp [hstarts, unmatched_ok_iff]

/-! ## Profile and supply -/

theorem profile_insert (h : Heap) (r : Region) : (h.insert r).2.profile = h.profile := by
  show (h.place r).profile = h.profile
  unfold place
  split
  · rfl
  · rfl

theorem supply_insert (h : Heap) (r : Region) : (h.insert r).2.supply = h.supply := by
  show (h.place r).supply = h.supply
  unfold place
  split
  · rfl
  · rfl

/-- As long as no number waits to be used again, none does after a region is made. -/
theorem free_insert {h : Heap} (hfree : h.free = []) (r : Region) : (h.insert r).2.free = [] := by
  show (h.place r).free = []
  unfold place
  split
  next => exact hfree
  next hcons =>
    rw [hfree] at hcons
    cases hcons

theorem profile_erase (h : Heap) (a : Word) : (h.erase a).profile = h.profile := by
  unfold erase
  split
  · rfl
  · rfl

theorem supply_erase (h : Heap) (a : Word) : (h.erase a).supply = h.supply := by
  unfold erase
  split
  · rfl
  · rfl

/-- In the checked profile a number is not kept to be used again. -/
theorem free_erase {h : Heap} (hchecked : h.profile = .checked) (a : Word) :
    (h.erase a).free = h.free := by
  unfold erase
  split
  next => rfl
  next =>
    show h.profile.recycle _ h.free = h.free
    rw [hchecked]
    rfl

/-! ## Changing bytes -/

/-- Bytes that are copied into an array do not make it longer. -/
@[simp]
theorem size_splice (target : Array UInt8) (start : Nat) (bytes : Bytes) :
    (splice target start bytes).size = target.size := by
  induction bytes generalizing target start with
  | nil => rfl
  | cons b bs ih => simp [splice, ih]

/-- The region of the address has other bytes, but the same owner and length. -/
theorem lookup_overwrite (h : Heap) (a : Word) (bytes : Bytes) (number : Nat) :
    (h.overwrite a bytes).lookup number =
      if number = Address.region a then
        (h.lookup number).map fun r =>
          { r with bytes := splice r.bytes (Address.offset a) bytes }
      else h.lookup number := by
  unfold overwrite
  cases hregion : Address.region a with
  | zero =>
    cases number with
    | zero => simp [lookup]
    | succ slot => simp
  | succ slot =>
    cases number with
    | zero => simp [lookup]
    | succ other =>
      simp only [lookup, Array.getElem?_modify, Nat.add_right_cancel_iff]
      by_cases heq : other = slot
      · subst heq
        rcases h.regions[other]? with _ | _ | r
        · simp
        · simp
        · simp
      · simp [heq, Ne.symm heq]

theorem size_overwrite (h : Heap) (a : Word) (bytes : Bytes) :
    (h.overwrite a bytes).regions.size = h.regions.size := by
  unfold overwrite
  split
  · rfl
  · simp

theorem free_overwrite (h : Heap) (a : Word) (bytes : Bytes) :
    (h.overwrite a bytes).free = h.free := by
  unfold overwrite
  split
  · rfl
  · rfl

theorem profile_overwrite (h : Heap) (a : Word) (bytes : Bytes) :
    (h.overwrite a bytes).profile = h.profile := by
  unfold overwrite
  split
  · rfl
  · rfl

theorem supply_overwrite (h : Heap) (a : Word) (bytes : Bytes) :
    (h.overwrite a bytes).supply = h.supply := by
  unfold overwrite
  split
  · rfl
  · rfl

/-! ## Moves -/

/-- What guest code can do to guest memory. -/
inductive Move (h : Heap) : Heap → Prop
  | stay : Move h h
  | allocate (size : Word) : Move h (h.allocate size).2
  | release {a : Word} (hstarts : h.starts a .guest = true) : Move h (h.erase a)
  | overwrite (a : Word) (bytes : Bytes) : Move h (h.overwrite a bytes)

/-- Giving back an address is one of the moves. -/
theorem move_of_release {h h' : Heap} {a : Word} (hrelease : h.release a = .ok h') :
    Move h h' := by
  rcases release_ok_iff.1 hrelease with ⟨-, rfl⟩ | ⟨-, hstarts, rfl⟩
  · exact .stay
  · exact .release hstarts

/-- Allocating fails or makes a region. The host may have been asked for bytes in both cases. -/
theorem allocate_cases (h : Heap) (size : Word) :
    ∃ supply, h.allocate size = (0, h.withSupply supply) ∨
      (size.toNat ≤ Address.maxRegionLength ∧ h.provides size.toNat = true ∧
        h.allocate size =
          (h.withSupply supply).insert ⟨.guest, Array.replicate size.toNat 0⟩) := by
  unfold allocate
  split
  next hsize =>
    refine ⟨h.supply.tail, ?_⟩
    dsimp only
    split
    next hprovides => exact .inr ⟨hsize, hprovides, rfl⟩
    next => exact .inl rfl
  next => exact ⟨h.supply, .inl rfl⟩

/-- An allocation that fits and that the host provides makes a region. -/
theorem allocate_of_provides {h : Heap} {size : Word}
    (hfits : size.toNat ≤ Address.maxRegionLength) (hprovides : h.provides size.toNat = true) :
    h.allocate size =
      (h.withSupply h.supply.tail).insert ⟨.guest, Array.replicate size.toNat 0⟩ := by
  unfold allocate
  rw [if_pos hfits]
  dsimp only
  rw [if_pos hprovides]

/-- Every size that a pool table can hold is small enough for a region. -/
theorem toUInt64_le_maxRegionLength (size : UInt16) :
    size.toUInt64.toNat ≤ Address.maxRegionLength := by
  have hsmall : size.toNat < 65536 := size.toNat_lt
  rw [UInt16.toNat_toUInt64]
  unfold Address.maxRegionLength Address.offsets
  omega

/-- The number of places grows by one, unless a free one is used. -/
theorem size_insert (h : Heap) (r : Region) :
    (h.insert r).2.regions.size = max h.regions.size h.next := by
  show (h.place r).regions.size = _
  unfold place
  split
  next hfree =>
    rw [next_of_nil hfree, Array.size_push]
    exact (Nat.max_eq_right (Nat.le_succ _)).symm
  next slot free hfree =>
    have hinside : slot < h.regions.size := lt_size_of_free (by simp [hfree])
    rw [next_of_cons hfree, Array.size_setIfInBounds]
    exact (Nat.max_eq_left hinside).symm

@[simp]
theorem size_erase (h : Heap) (a : Word) : (h.erase a).regions.size = h.regions.size := by
  unfold erase
  split
  · rfl
  · simp

/-- No place is ever given up, so that there are as many as there were regions at a time. -/
theorem Move.size_le {h h' : Heap} (hmove : Move h h') : h.regions.size ≤ h'.regions.size := by
  cases hmove with
  | stay => exact Nat.le_refl _
  | allocate size =>
    rcases h.allocate_cases size with ⟨supply, heq | ⟨-, -, heq⟩⟩
    · exact Nat.le_of_eq (by rw [heq]; rfl)
    · rw [heq, size_insert]
      exact Nat.le_max_left _ _
  | release => exact Nat.le_of_eq (size_erase h _).symm
  | overwrite a bytes => exact Nat.le_of_eq (size_overwrite h a bytes).symm

/-! ## Lengths -/

/-- No region is longer than its offsets can tell. -/
def Bounded (h : Heap) : Prop :=
  ∀ number r, h.lookup number = some r → r.bytes.size ≤ Address.maxRegionLength

theorem bounded_of_empty {h : Heap} (hempty : h.regions = #[]) : h.Bounded := by
  intro number r hlookup
  cases number with
  | zero => cases hlookup
  | succ slot => simp [lookup, hempty] at hlookup

/-- A short region may be added. -/
theorem Bounded.insert {h : Heap} (hbounded : h.Bounded) {r : Region}
    (hr : r.bytes.size ≤ Address.maxRegionLength) : (h.insert r).2.Bounded := by
  intro number r' hlookup
  rw [lookup_insert] at hlookup
  split at hlookup
  · cases hlookup
    exact hr
  · exact hbounded number r' hlookup

theorem Bounded.erase {h : Heap} (hbounded : h.Bounded) (a : Word) : (h.erase a).Bounded := by
  intro number r hlookup
  rw [lookup_erase] at hlookup
  split at hlookup
  · cases hlookup
  · exact hbounded number r hlookup

/-- Guest code makes no region that is too long. -/
theorem Move.bounded {h h' : Heap} (hmove : Move h h') (hbounded : h.Bounded) : h'.Bounded := by
  cases hmove with
  | stay => exact hbounded
  | allocate size =>
    rcases h.allocate_cases size with ⟨supply, heq | ⟨hsize, -, heq⟩⟩
    · rw [heq]
      exact hbounded
    · rw [heq]
      exact Bounded.insert (h := h.withSupply supply) hbounded (by simpa using hsize)
  | release hstarts => exact hbounded.erase _
  | overwrite a bytes =>
    intro number r hlookup
    rw [lookup_overwrite] at hlookup
    split at hlookup
    · rcases Option.map_eq_some_iff.1 hlookup with ⟨old, hold, rfl⟩
      rw [size_splice]
      exact hbounded number old hold
    · exact hbounded number r hlookup

/-! ## The memory of modules -/

/-- The region with a number is the memory of a module. -/
def Holds (h : Heap) (number length : Nat) : Prop :=
  ∃ r, h.lookup number = some r ∧ r.owner = .module ∧ r.bytes.size = length

/-- Every live region has one of the numbers that were given out. -/
theorem le_size_of_lookup {h : Heap} {number : Nat} {r : Region}
    (hlookup : h.lookup number = some r) : number ≤ h.regions.size := by
  cases number with
  | zero => exact Nat.zero_le _
  | succ slot =>
    have hslot := Option.join_eq_some_iff.1 hlookup
    exact (Array.getElem?_eq_some_iff.1 hslot).1

theorem Holds.le_size {h : Heap} {number length : Nat} (hholds : h.Holds number length) :
    number ≤ h.regions.size := by
  rcases hholds with ⟨r, hlookup, -⟩
  exact le_size_of_lookup hlookup

/-- The memory of a module stays when a region is added. -/
theorem Holds.insert {h : Heap} {number length : Nat} (hholds : h.Holds number length)
    (r : Region) : (h.insert r).2.Holds number length := by
  rcases hholds with ⟨r', hlookup, hr'⟩
  exact ⟨r', by rw [lookup_insert, if_neg (ne_next hlookup), hlookup], hr'⟩

/-- The memory of a module stays when another region is taken out. -/
theorem Holds.erase {h : Heap} {number length : Nat} (hholds : h.Holds number length) {a : Word}
    (hother : number ≠ Address.region a) : (h.erase a).Holds number length := by
  rcases hholds with ⟨r, hlookup, hr⟩
  exact ⟨r, by rw [lookup_erase, if_neg hother, hlookup], hr⟩

/-- What is the memory of a module was so before, or is the new region. -/
theorem Holds.of_insert {h : Heap} {r : Region} {number length : Nat}
    (hholds : (h.insert r).2.Holds number length) :
    h.Holds number length ∨ number = h.next ∧ r.owner = .module ∧ r.bytes.size = length := by
  rcases hholds with ⟨found, hlookup, howner, hsize⟩
  rw [lookup_insert] at hlookup
  split at hlookup
  next hnumber =>
    cases hlookup
    exact .inr ⟨hnumber, howner, hsize⟩
  next => exact .inl ⟨found, hlookup, howner, hsize⟩

/-- What is the memory of a module was so before a region was taken out. -/
theorem Holds.of_erase {h : Heap} {a : Word} {number length : Nat}
    (hholds : (h.erase a).Holds number length) :
    number ≠ Address.region a ∧ h.Holds number length := by
  rcases hholds with ⟨r, hlookup, hr⟩
  rw [lookup_erase] at hlookup
  split at hlookup
  next => cases hlookup
  next hother => exact ⟨hother, r, hlookup, hr⟩

/-- Guest code can neither free nor resize the memory of a module. -/
theorem Move.holds {h h' : Heap} (hmove : Move h h') {number length : Nat}
    (hholds : h.Holds number length) : h'.Holds number length := by
  cases hmove with
  | stay => exact hholds
  | allocate size =>
    rcases h.allocate_cases size with ⟨supply, heq | ⟨-, -, heq⟩⟩
    · rw [heq]
      exact hholds
    · rw [heq]
      exact Holds.insert (h := h.withSupply supply) hholds _
  | release hstarts =>
    refine hholds.erase ?_
    rintro rfl
    -- one region cannot be the guest's and a module's
    rcases starts_iff.1 hstarts with ⟨r, hguest, -, howner⟩
    rcases hholds with ⟨r', hmodule, howner', -⟩
    rw [hguest] at hmodule
    cases hmodule
    rw [howner] at howner'
    cases howner'
  | overwrite a bytes =>
    rcases hholds with ⟨r, hlookup, howner, hsize⟩
    unfold Holds
    rw [lookup_overwrite, hlookup]
    split
    · exact ⟨_, rfl, howner, by simpa using hsize⟩
    · exact ⟨r, rfl, howner, hsize⟩

/-- Guest code cannot make memory of a module either. -/
theorem Move.holds_before {h h' : Heap} (hmove : Move h h') {number length : Nat}
    (hholds : h'.Holds number length) : h.Holds number length := by
  cases hmove with
  | stay => exact hholds
  | allocate size =>
    rcases h.allocate_cases size with ⟨supply, heq | ⟨-, -, heq⟩⟩
    · rw [heq] at hholds
      exact hholds
    · rw [heq] at hholds
      rcases hholds.of_insert with hbefore | ⟨-, howner, -⟩
      · exact hbefore
      · cases howner
  | release hstarts => exact hholds.of_erase.2
  | overwrite a bytes =>
    rcases hholds with ⟨r, hlookup, howner, hsize⟩
    rw [lookup_overwrite] at hlookup
    split at hlookup
    · rcases Option.map_eq_some_iff.1 hlookup with ⟨old, hold, rfl⟩
      rw [size_splice] at hsize
      exact ⟨old, hold, howner, hsize⟩
    · exact ⟨r, hlookup, howner, hsize⟩

end Heap
end StackMachine
