import StackMachine.Proofs.RegionStore

/-!
# ReadWrite — reads see exactly the bytes that were written

A number is written and read byte by byte, least significant first, at any width up to eight and at
any address. So a read may find some of its bytes written and others not, in every way in which the
two ranges can overlap.

* `Word.byte` — the bytes of a word;
* `Address.Hits` — which bytes of a read are among those that were written;
* `Heap.slice_overwrite` — every byte after a change is the one that was put there, or the old one;
* `Heap.reads_see_writes` — the same for numbers, with the reads that a write leaves alone.

Two addresses are compared as numbers. This tells how they lie to each other only inside one region,
where the numbers differ as the offsets do.
-/

namespace StackMachine

/-! ## Bytes of a word -/

/-- The byte of a word at a place, counted from the least significant one. -/
def Word.byte (w : Word) (place : Nat) : UInt8 := UInt8.ofNat (w.toNat / 256 ^ place)

namespace Bytes

/-- The bytes of a number, one by one. -/
theorem getElem?_ofNatLE {width i : Nat} (n : Nat) (hi : i < width) :
    (ofNatLE width n)[i]? = some (UInt8.ofNat (n / 256 ^ i)) := by
  induction width generalizing n i with
  | zero => exact absurd hi (Nat.not_lt_zero i)
  | succ width ih =>
    rw [ofNatLE]
    cases i with
    | zero => simp
    | succ i =>
      rw [List.getElem?_cons_succ, ih (n / 256) (Nat.lt_of_succ_lt_succ hi), Nat.div_div_eq_div_mul,
        Nat.pow_succ, Nat.mul_comm 256]

/-- The bytes of a word, one by one. -/
theorem ofNatLE_eq_map (width : Nat) (w : Word) :
    ofNatLE width w.toNat = (List.range width).map fun i => Word.byte w i := by
  apply List.ext_getElem?
  intro i
  by_cases hi : i < width
  · rw [getElem?_ofNatLE w.toNat hi, List.getElem?_map, List.getElem?_range hi]
    rfl
  · rw [List.getElem?_eq_none (by simpa using hi), List.getElem?_eq_none (by simpa using hi)]

/-- The bytes of the number that a string denotes are those of the string. -/
theorem getD_eq_byte {bs : Bytes} {w : Word} (hw : w.toNat = bs.toNatLE) {i : Nat}
    (hi : i < bs.length) : bs.getD i 0 = Word.byte w i := by
  have hwritten : bs[i]? = some (UInt8.ofNat (bs.toNatLE / 256 ^ i)) := by
    conv_lhs => rw [← ofNatLE_toNatLE bs]
    exact getElem?_ofNatLE bs.toNatLE hi
  rw [List.getD_eq_getElem?_getD, hwritten, Option.getD_some, Word.byte, hw]

end Bytes

/-! ## Places -/

/-- The place `i` bytes behind the address `b` is among the `length` bytes at the address `a`. -/
def Address.Hits (a : Word) (length : Nat) (b : Word) (i : Nat) : Prop :=
  Address.region b = Address.region a ∧ a.toNat ≤ b.toNat + i ∧ b.toNat + i < a.toNat + length

instance (a : Word) (length : Nat) (b : Word) (i : Nat) : Decidable (Address.Hits a length b i) :=
  inferInstanceAs (Decidable (_ ∧ _ ∧ _))

/-- Addresses of one region differ as their offsets do. -/
theorem Address.toNat_add_eq {a b : Word} (h : region b = region a) :
    b.toNat + offset a = a.toNat + offset b := by
  unfold region offsets at h
  unfold offset offsets
  omega

namespace Heap

variable {h h' : Heap} {a b v w : Word} {length : Nat}

/-! ## Bytes after a change -/

/-- Copying bytes into an array puts them where they go and changes nothing else. -/
theorem getElem?_splice_eq {target : Array UInt8} {start : Nat} {bytes : Bytes}
    (hfits : start + bytes.length ≤ target.size) (i : Nat) :
    (splice target start bytes)[i]? =
      if start ≤ i ∧ i < start + bytes.length then bytes[i - start]? else target[i]? := by
  induction bytes generalizing target start with
  | nil =>
    rw [List.length_nil, Nat.add_zero, if_neg (by omega)]
    rfl
  | cons b bs ih =>
    rw [List.length_cons] at hfits
    rw [splice, ih (by rw [Array.size_setIfInBounds]; omega), List.length_cons]
    -- the first byte is put at `start`, and all others go behind it
    rcases Nat.lt_trichotomy i start with hfront | rfl | hbehind
    · rw [if_neg (by omega), if_neg (by omega), Array.getElem?_setIfInBounds_ne (by omega)]
    · rw [if_neg (by omega), if_pos (by omega), Nat.sub_self,
        Array.getElem?_setIfInBounds_self_of_lt (by omega)]
      rfl
    · have hnext : i - start = i - (start + 1) + 1 := by omega
      rw [Array.getElem?_setIfInBounds_ne (by omega), hnext, List.getElem?_cons_succ]
      by_cases hinside : i < start + (bs.length + 1)
      · rw [if_pos (by omega), if_pos (by omega)]
      · rw [if_neg (by omega), if_neg (by omega)]

/-- The bytes at an address are those of its region from the offset on. -/
theorem slice_ok_iff {bytes : Bytes} :
    h.slice a length = .ok bytes ↔
      ∃ r, h.lookup (Address.region a) = some r ∧ Address.offset a + length ≤ r.bytes.size ∧
        bytes.length = length ∧ ∀ i < length, bytes[i]? = r.bytes[Address.offset a + i]? := by
  rcases h.access_cases a length with ⟨r, hlookup, hwithin, -, hslice⟩ | ⟨hnot, -, hslice⟩
  · rw [Array.length_toList] at hwithin
    have hlength : ((r.bytes.toList.drop (Address.offset a)).take length).length = length := by
      rw [List.length_take, List.length_drop, Array.length_toList]
      omega
    have hplaces : ∀ i < length, ((r.bytes.toList.drop (Address.offset a)).take length)[i]? =
        r.bytes[Address.offset a + i]? := by
      intro i hi
      rw [List.getElem?_take_of_lt hi, List.getElem?_drop, Array.getElem?_toList]
    rw [hslice, Except.ok.injEq]
    constructor
    · rintro rfl
      exact ⟨r, hlookup, hwithin, hlength, hplaces⟩
    · rintro ⟨r', hlookup', -, hlength', hplaces'⟩
      cases hlookup.symm.trans hlookup'
      apply List.ext_getElem?
      intro i
      by_cases hi : i < length
      · rw [hplaces i hi, hplaces' i hi]
      · rw [List.getElem?_eq_none (by omega), List.getElem?_eq_none (by omega)]
  · rw [hslice]
    constructor
    · intro hok
      cases hok
    · rintro ⟨r, hlookup, hwithin, -⟩
      exact absurd ⟨_, _, find_view_of_lookup hlookup, hwithin⟩ hnot

/-- As many bytes are found as were asked for. -/
theorem length_of_slice {bytes : Bytes} (hslice : h.slice a length = .ok bytes) :
    bytes.length = length := by
  rcases slice_ok_iff.1 hslice with ⟨-, -, -, hlength, -⟩
  exact hlength

/-- Bytes are covered if they end inside of the region. -/
theorem covers_iff : h.covers a length = true ↔
    ∃ r, h.lookup (Address.region a) = some r ∧ Address.offset a + length ≤ r.bytes.size := by
  unfold covers
  rw [region?_eq_lookup]
  cases h.lookup (Address.region a) with
  | none => simp
  | some r => simp

/-- Changing bytes makes no region and takes none away, and leaves all lengths as they are. -/
theorem slice_overwrite_error {new : Bytes} {e : Fault} :
    (h.overwrite a new).slice b length = .error e ↔ h.slice b length = .error e := by
  unfold slice
  rw [region?_eq_lookup, region?_eq_lookup, lookup_overwrite]
  cases h.lookup (Address.region b) with
  | none => simp
  | some r =>
    by_cases hregion : Address.region b = Address.region a
    · simp only [if_pos hregion, Option.map_some, size_splice]
      split
      · simp
      · simp
    · simp only [if_neg hregion]

/-- After bytes were copied to an address, the bytes at any address are the ones that were copied
there, and the old ones elsewhere. -/
theorem slice_overwrite {new old : Bytes} (hcovers : h.covers a new.length = true)
    (hold : h.slice b length = .ok old) :
    (h.overwrite a new).slice b length =
      .ok ((List.range length).map fun i =>
        if Address.Hits a new.length b i then new.getD (b.toNat + i - a.toNat) 0
        else old.getD i 0) := by
  rcases slice_ok_iff.1 hold with ⟨r, hlookup, hwithin, hlength, hplaces⟩
  -- a byte that is not hit is the old one, which is still where it was
  have hkept {i : Nat} (hi : i < length) :
      some (old.getD i 0) = r.bytes[Address.offset b + i]? := by
    rw [← hplaces i hi, List.getD_eq_getElem?_getD, List.getElem?_eq_getElem (by omega),
      Option.getD_some]
  rw [slice_ok_iff, lookup_overwrite, hlookup]
  by_cases hregion : Address.region b = Address.region a
  · rcases covers_iff.1 hcovers with ⟨r', hlookup', hfits⟩
    rw [← hregion] at hlookup'
    cases hlookup.symm.trans hlookup'
    have hdistance : b.toNat + Address.offset a = a.toNat + Address.offset b :=
      Address.toNat_add_eq hregion
    refine ⟨{ r with bytes := splice r.bytes (Address.offset a) new }, ?_, ?_, ?_, ?_⟩
    · rw [if_pos hregion]
      rfl
    · rwa [size_splice]
    · simp
    · intro i hi
      rw [List.getElem?_map, List.getElem?_range hi, Option.map_some, getElem?_splice_eq hfits]
      by_cases hhits : Address.Hits a new.length b i
      · have hinside := hhits.2
        have hplace : Address.offset b + i - Address.offset a = b.toNat + i - a.toNat := by omega
        rw [if_pos hhits, if_pos (by omega), hplace, List.getD_eq_getElem?_getD,
          List.getElem?_eq_getElem (by omega), Option.getD_some]
      · have houtside : ¬(Address.offset a ≤ Address.offset b + i ∧
            Address.offset b + i < Address.offset a + new.length) := by
          intro hinside
          exact hhits ⟨hregion, by omega, by omega⟩
        rw [if_neg hhits, if_neg houtside, hkept hi]
  · -- another region is left alone
    refine ⟨r, by rw [if_neg hregion], hwithin, by simp, ?_⟩
    intro i hi
    have hhits : ¬Address.Hits a new.length b i := fun hhits => hregion hhits.1
    rw [List.getElem?_map, List.getElem?_range hi, Option.map_some, if_neg hhits, hkept hi]

/-- A change that hits none of the bytes at an address leaves them alone. -/
theorem slice_overwrite_of_missed {new : Bytes} (hcovers : h.covers a new.length = true)
    (hmissed : ∀ i < length, ¬Address.Hits a new.length b i) :
    (h.overwrite a new).slice b length = h.slice b length := by
  cases hold : h.slice b length with
  | error e => exact slice_overwrite_error.2 hold
  | ok old =>
    rw [slice_overwrite hcovers hold, Except.ok.injEq]
    have hlength : old.length = length := length_of_slice hold
    apply List.ext_getElem?
    intro i
    by_cases hi : i < length
    · rw [List.getElem?_map, List.getElem?_range hi, Option.map_some, if_neg (hmissed i hi),
        List.getD_eq_getElem?_getD, List.getElem?_eq_getElem (by omega), Option.getD_some]
    · rw [List.getElem?_eq_none (by simpa using hi), List.getElem?_eq_none (by omega)]

/-! ## Numbers -/

/-- A number is read if it is at most eight bytes and these are there. -/
theorem read_ok_iff {x : Word} :
    h.read a w = .ok x ↔
      w.toNat ≤ 8 ∧ ∃ bytes, h.slice a w.toNat = .ok bytes ∧ x.toNat = bytes.toNatLE := by
  unfold read
  by_cases hwidth : w.toNat ≤ 8
  · have hnarrow : ¬w > 8 := fun hwide => eight_lt_iff.1 hwide hwidth
    rw [if_neg hnarrow]
    cases hslice : h.slice a w.toNat with
    | error e => simp
    | ok bytes =>
      have hlength : bytes.length ≤ 8 := by
        rw [length_of_slice hslice]
        exact hwidth
      simp only [Except.ok.injEq, hwidth, true_and, exists_eq_left']
      rw [← UInt64.toNat_inj, Bytes.toNat_ofNat_toNatLE hlength, eq_comm]
  · rw [if_pos (eight_lt_iff.2 hwidth)]
    simp [hwidth]

/-- Whether a number can be read does not depend on the bytes. -/
theorem exists_read_iff :
    (∃ x, h.read a w = .ok x) ↔ w.toNat ≤ 8 ∧ ∃ bytes, h.slice a w.toNat = .ok bytes := by
  constructor
  · rintro ⟨x, hread⟩
    rcases read_ok_iff.1 hread with ⟨hwidth, bytes, hslice, -⟩
    exact ⟨hwidth, bytes, hslice⟩
  · rintro ⟨hwidth, bytes, hslice⟩
    have hlength : bytes.length ≤ 8 := by
      rw [length_of_slice hslice]
      exact hwidth
    exact ⟨_, read_ok_iff.2 ⟨hwidth, bytes, hslice, Bytes.toNat_ofNat_toNatLE hlength⟩⟩

/-- A number is written if it is at most eight bytes and these are there. -/
theorem write_ok_iff :
    h.write a v w = .ok h' ↔ w.toNat ≤ 8 ∧ h.covers a w.toNat = true ∧
      h' = h.overwrite a (Bytes.ofNatLE w.toNat v.toNat) := by
  have hwritable : h.writable a w = (decide (w.toNat ≤ 8) && h.covers a w.toNat) := rfl
  unfold write
  rw [hwritable]
  by_cases hwidth : w.toNat ≤ 8
  · by_cases hcovers : h.covers a w.toNat = true
    · simp [hwidth, hcovers, store, eq_comm]
    · simp [hcovers]
  · simp [hwidth]

/-- The number that a read finds after a write, from the number that it found before. -/
theorem toNat_read_write {u old x : Word} (hwrite : h.write a v w = .ok h')
    (hold : h.read b u = .ok old) (hread : h'.read b u = .ok x) :
    x.toNat = Bytes.toNatLE ((List.range u.toNat).map fun i =>
      if Address.Hits a w.toNat b i then Word.byte v (b.toNat + i - a.toNat)
      else Word.byte old i) := by
  rcases write_ok_iff.1 hwrite with ⟨-, hcovers, rfl⟩
  rcases read_ok_iff.1 hold with ⟨-, before, hbefore, hold⟩
  rcases read_ok_iff.1 hread with ⟨-, after, hafter, hx⟩
  have hnew : (Bytes.ofNatLE w.toNat v.toNat).length = w.toNat := Bytes.length_ofNatLE _ _
  rw [slice_overwrite (by rw [hnew]; exact hcovers) hbefore, hnew, Except.ok.injEq] at hafter
  rw [hx, ← hafter]
  congr 1
  refine List.map_congr_left fun i hi => ?_
  have hinside : i < before.length := by
    rw [length_of_slice hbefore]
    exact List.mem_range.1 hi
  by_cases hhits : Address.Hits a w.toNat b i
  · have hplace : b.toNat + i - a.toNat < w.toNat := by
      have := hhits.2
      omega
    rw [if_pos hhits, if_pos hhits, List.getD_eq_getElem?_getD, Bytes.getElem?_ofNatLE _ hplace]
    rfl
  · rw [if_neg hhits, if_neg hhits]
    exact Bytes.getD_eq_byte hold hinside

/-- Bytes that are covered can be had. -/
theorem slice_of_covers {short : Nat} (hcovers : h.covers a length = true)
    (hshort : short ≤ length) : ∃ bytes, h.slice a short = .ok bytes := by
  rcases covers_iff.1 hcovers with ⟨r, hlookup, hfits⟩
  rcases h.access_cases a short with ⟨r', -, -, -, hslice⟩ | ⟨hnot, -, -⟩
  · exact ⟨_, hslice⟩
  · refine absurd ⟨_, _, find_view_of_lookup hlookup, ?_⟩ hnot
    rw [Array.length_toList]
    omega

/-- After a number was written, a read succeeds if it did before. It finds the number whose bytes
are those that were written, where it hits them, and the old ones elsewhere. So reading at most as
many bytes from the same address gives the low bytes of the number, and reading from another region
or aside of the bytes that were written gives what it gave before. -/
theorem reads_see_writes (hwrite : h.write a v w = .ok h') :
    (∀ b u, (∃ x, h'.read b u = .ok x) ↔ ∃ old, h.read b u = .ok old) ∧
    (∀ b u old x, h.read b u = .ok old → h'.read b u = .ok x →
      x.toNat = Bytes.toNatLE ((List.range u.toNat).map fun i =>
        if Address.Hits a w.toNat b i then Word.byte v (b.toNat + i - a.toNat)
        else Word.byte old i)) ∧
    (∀ u : Word, u.toNat ≤ w.toNat →
      ∃ x, h'.read a u = .ok x ∧ x.toNat = v.toNat % 256 ^ u.toNat) ∧
    ∀ b u : Word, (Address.region b ≠ Address.region a ∨ b.toNat + u.toNat ≤ a.toNat ∨
      a.toNat + w.toNat ≤ b.toNat) → h'.read b u = h.read b u := by
  have hsucceeds : ∀ b u, (∃ x, h'.read b u = .ok x) ↔ ∃ old, h.read b u = .ok old := by
    intro b u
    rcases write_ok_iff.1 hwrite with ⟨-, -, rfl⟩
    rw [exists_read_iff, exists_read_iff]
    -- one read is refused where the other one is
    refine and_congr_right fun _ => ⟨?_, ?_⟩
    · rintro ⟨bytes, hslice⟩
      cases hbefore : h.slice b u.toNat with
      | ok old => exact ⟨old, rfl⟩
      | error e => cases (slice_overwrite_error.2 hbefore).symm.trans hslice
    · rintro ⟨bytes, hslice⟩
      cases hafter : (h.overwrite a (Bytes.ofNatLE w.toNat v.toNat)).slice b u.toNat with
      | ok new => exact ⟨new, rfl⟩
      | error e => cases (slice_overwrite_error.1 hafter).symm.trans hslice
  refine ⟨hsucceeds, fun b u old x => toNat_read_write hwrite, ?_, ?_⟩
  · intro u hu
    rcases write_ok_iff.1 hwrite with ⟨hwidth, hcovers, -⟩
    have hold : ∃ old, h.read a u = .ok old :=
      exists_read_iff.2 ⟨Nat.le_trans hu hwidth, slice_of_covers hcovers hu⟩
    rcases hold with ⟨old, hold⟩
    rcases (hsucceeds a u).2 ⟨old, hold⟩ with ⟨x, hread⟩
    refine ⟨x, hread, ?_⟩
    rw [toNat_read_write hwrite hold hread, ← Bytes.toNatLE_ofNatLE, Bytes.ofNatLE_eq_map]
    -- every byte of the read is hit
    congr 1
    refine List.map_congr_left fun i hi => ?_
    have hinside : i < u.toNat := List.mem_range.1 hi
    rw [if_pos ⟨rfl, by omega, by omega⟩, Nat.add_sub_cancel_left]
  · intro b u haside
    rcases write_ok_iff.1 hwrite with ⟨-, hcovers, rfl⟩
    have hslice : (h.overwrite a (Bytes.ofNatLE w.toNat v.toNat)).slice b u.toNat =
        h.slice b u.toNat := by
      refine slice_overwrite_of_missed (by rw [Bytes.length_ofNatLE]; exact hcovers) ?_
      rintro i hi ⟨hregion, hlow, hhigh⟩
      rw [Bytes.length_ofNatLE] at hhigh
      rcases haside with hother | hbefore | hbehind
      · exact hother hregion
      · omega
      · omega
    unfold read
    rw [hslice]

/-- Four bytes are read from one byte in front of two that were written. The first and the last are
old, and the two between them are the low bytes of the number. -/
theorem reads_see_writes_overlapping :
    let h : Heap :=
      { regions := #[some ⟨.guest, #[1, 2, 3, 4, 5]⟩], vacant := List.forall_mem_nil _ }
    ∃ h', h.write 0x100000001 0xABCDEF 2 = .ok h' ∧ h.read 0x100000000 4 = .ok 0x04030201 ∧
      h'.read 0x100000000 4 = .ok 0x04CDEF01 ∧
      (0x04CDEF01 : Word).toNat = Bytes.toNatLE ((List.range (4 : Word).toNat).map fun i =>
        if Address.Hits 0x100000001 (2 : Word).toNat 0x100000000 i then
          Word.byte 0xABCDEF ((0x100000000 : Word).toNat + i - (0x100000001 : Word).toNat)
        else Word.byte 0x04030201 i) ∧
      (∃ x, h'.read 0x100000001 1 = .ok x ∧ x.toNat = (0xABCDEF : Word).toNat % 256) ∧
      h'.read 0x100000003 2 = h.read 0x100000003 2 := by
  intro h
  have hrun : ∃ h', h.write 0x100000001 0xABCDEF 2 = .ok h' ∧
      h.read 0x100000000 4 = .ok 0x04030201 ∧ h'.read 0x100000000 4 = .ok 0x04CDEF01 :=
    ⟨_, rfl, rfl, rfl⟩
  rcases hrun with ⟨h', hwrite, hbefore, hafter⟩
  rcases reads_see_writes hwrite with ⟨-, hvalue, hlow, haside⟩
  refine ⟨h', hwrite, hbefore, hafter, hvalue _ _ _ _ hbefore hafter, ?_, ?_⟩
  · exact hlow 1 (by decide)
  · exact haside _ _ (.inr (.inr (by decide)))

end Heap
end StackMachine
