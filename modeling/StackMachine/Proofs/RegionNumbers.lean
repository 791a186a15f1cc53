import StackMachine.Proofs.RegionStore

/-!
# RegionNumbers — what happens when region numbers run out

An address has room for `Address.offsets` region numbers, and zero is none of them. In the checked
profile numbers are not used again, and making a region does not look at how many there were, so
numbers start over from zero when they run out: one region is made at the null address, and the next
one gets the address of the first.

* `Heap.built` — guest memory after any requests;
* `Heap.NeverRepeats` — no address is given out twice, and null only without a region;
* `Heap.reply_of_creates` — the address of each region, from the number of regions before it;
* `Heap.region_numbers_exact` — addresses do not repeat exactly as long as numbers do not run out;
* `Heap.region_numbers_wrap` — the requests that make one region more than there are numbers.

This is where the bound of `Heap.refines_region_store` comes from.
-/

namespace StackMachine

/-- The number of a region is told from its address only up to the number of upper halves. -/
theorem Address.toNat_base_eq (number : Nat) :
    (base number).toNat = number % offsets * offsets := by
  unfold base offsets
  rw [UInt64.toNat_ofNat']
  omega

namespace Heap

variable {h : Heap} {request : Request} {requests : List Request}

/-! ## One request -/

/-- As long as no number is used again, a new region adds to those that are live. -/
theorem live_insert (hfree : h.free = []) (r : Region) : (h.insert r).2.live = h.live + 1 := by
  show (h.place r).live = h.live + 1
  unfold place
  split
  next => simp [live]
  next hcons =>
    rw [hfree] at hcons
    cases hcons

/-- A request that makes a region is answered with the address of the next number. -/
theorem answer_of_creates (hcreates : request.creates = true) (hplain : h.Plain) :
    ∃ r, h.answer request =
      (.address ((h.regions.size + 1) % Address.offsets * Address.offsets), (h.insert r).2) := by
  cases request with
  | allocate size =>
    have hsize : size.toNat ≤ Address.maxRegionLength := of_decide_eq_true hcreates
    refine ⟨⟨.guest, Array.replicate size.toNat 0⟩, ?_⟩
    rw [← Address.toNat_base_eq, ← next_of_nil hplain.free]
    simp only [answer, hplain.allocate_eq hsize]
    rfl
  | map bytes =>
    refine ⟨⟨.module, bytes.toArray⟩, ?_⟩
    rw [← Address.toNat_base_eq, ← next_of_nil hplain.free]
    rfl
  | _ => cases hcreates

/-- Only requests for a region use up numbers. -/
theorem size_answer (hplain : h.Plain) (request : Request) :
    (h.answer request).2.regions.size =
      h.regions.size + if request.creates = true then 1 else 0 := by
  by_cases hcreates : request.creates = true
  · rcases answer_of_creates hcreates hplain with ⟨r, hanswer⟩
    rw [hanswer, if_pos hcreates, size_insert, next_of_nil hplain.free]
    exact Nat.max_eq_right (Nat.le_succ _)
  · exact (answers_view hplain request fun hnot => absurd hnot hcreates).issued_eq

/-- Other requests are answered with no address but null. -/
theorem eq_zero_of_not_creates (hplain : h.Plain) (hcreates : ¬request.creates = true) {a : Nat}
    (hreply : (h.answer request).1 = .address a) : a = 0 := by
  have hanswers := answers_view hplain request fun hnot => absurd hnot hcreates
  rw [hreply] at hanswers
  generalize (h.answer request).2.view = after at hanswers
  cases hanswers with
  | allocate hsize => exact absurd (decide_eq_true hsize) hcreates
  | allocateNothing => rfl
  | map => exact absurd rfl hcreates

/-! ## Requests in a row -/

def built (requests : List Request) : Heap := (({} : Heap).answers requests).2

theorem Plain.answers (hplain : h.Plain) (requests : List Request) :
    (h.answers requests).2.Plain := by
  induction requests generalizing h with
  | nil => exact hplain
  | cons request requests ih => exact ih (hplain.answer request)

/-- Numbers are given out in order from the start on. -/
theorem plain_built (requests : List Request) : (built requests).Plain :=
  Plain.answers ⟨rfl, rfl, rfl⟩ requests

/-- Requests use up one number for each region that they ask for. -/
theorem size_answers (hplain : h.Plain) (requests : List Request) :
    (h.answers requests).2.regions.size =
      h.regions.size + requests.countP Request.creates := by
  induction requests generalizing h with
  | nil => rfl
  | cons request requests ih =>
    show ((h.answer request).2.answers requests).2.regions.size = _
    rw [ih (hplain.answer request), size_answer hplain, List.countP_cons]
    omega

theorem size_built (requests : List Request) :
    (built requests).regions.size = requests.countP Request.creates := by
  rw [built, size_answers ⟨rfl, rfl, rfl⟩]
  exact Nat.zero_add _

/-- The address that a request for a region is answered with, whatever was asked before. -/
theorem reply_of_creates (hcreates : request.creates = true) (before : List Request) :
    ((built before).answer request).1 =
        .address ((before.countP Request.creates + 1) % Address.offsets * Address.offsets) ∧
      ((built before).answer request).2.live = (built before).live + 1 := by
  rcases answer_of_creates hcreates (plain_built before) with ⟨r, hanswer⟩
  rw [hanswer, size_built]
  exact ⟨rfl, live_insert (plain_built before).free r⟩

/-- Each address among the replies is null, or that of a number that was given out on the way. -/
theorem number_of_mem_replies (hplain : h.Plain) {a : Nat}
    (hmem : .address a ∈ (h.answers requests).1) :
    a = 0 ∨ ∃ number, h.regions.size < number ∧
      number ≤ h.regions.size + requests.countP Request.creates ∧
      a = number % Address.offsets * Address.offsets := by
  induction requests generalizing h with
  | nil => cases hmem
  | cons request requests ih =>
    have hsize := size_answer hplain request
    rw [List.countP_cons]
    rcases List.mem_cons.1 hmem with hfirst | hlater
    · by_cases hcreates : request.creates = true
      · rcases answer_of_creates hcreates hplain with ⟨r, hanswer⟩
        rw [hanswer] at hfirst
        cases hfirst
        exact .inr ⟨h.regions.size + 1, Nat.lt_succ_self _, by rw [if_pos hcreates]; omega, rfl⟩
      · exact .inl (eq_zero_of_not_creates hplain hcreates hfirst.symm)
    · -- the numbers behind the first reply start where it has left off
      rcases ih (hplain.answer request) hlater with hzero | ⟨number, hlow, hhigh, ha⟩
      · exact .inl hzero
      · exact .inr ⟨number, by omega, by omega, ha⟩

/-! ## Addresses that do not repeat -/

/-- A request for a region is answered with an address other than null and than all addresses
before, or with null, and then no region is made. -/
def NeverRepeats (requests : List Request) : Prop :=
  ∀ before request after, requests = before ++ request :: after → request.creates = true →
    ∃ a, ((built before).answer request).1 = .address a ∧
      (a ≠ 0 ∧ .address a ∉ (({} : Heap).answers before).1 ∨
        a = 0 ∧ ((built before).answer request).2 = built before)

/-- As long as there are numbers left, each region gets a number of its own. -/
theorem neverRepeats_of_lt (hcount : requests.countP Request.creates < Address.offsets) :
    NeverRepeats requests := by
  rintro before request after rfl hcreates
  rw [List.countP_append, List.countP_cons, if_pos hcreates] at hcount
  have hpos : 0 < Address.offsets := by decide
  have hne : (before.countP Request.creates + 1) * Address.offsets ≠ 0 :=
    Nat.mul_ne_zero (Nat.succ_ne_zero _) (Nat.ne_of_gt hpos)
  have hnumber : (before.countP Request.creates + 1) % Address.offsets =
      before.countP Request.creates + 1 := Nat.mod_eq_of_lt (by omega)
  have hreply := (reply_of_creates hcreates before).1
  rw [hnumber] at hreply
  refine ⟨_, hreply, .inl ⟨hne, fun hmem => ?_⟩⟩
  rcases number_of_mem_replies ⟨rfl, rfl, rfl⟩ hmem with hzero | ⟨number, hlow, hhigh, haddress⟩
  · exact hne hzero
  · -- the number of an earlier region is smaller, and none of them has wrapped around
    replace hhigh : number ≤ 0 + before.countP Request.creates := hhigh
    rw [Nat.mod_eq_of_lt (by omega)] at haddress
    have hsame := Nat.eq_of_mul_eq_mul_right hpos haddress
    omega

/-- Of more than `n` requests for regions, one comes behind exactly `n` others. -/
theorem exists_split_of_lt_countP {n : Nat} (hn : n < requests.countP Request.creates) :
    ∃ before request after, requests = before ++ request :: after ∧ request.creates = true ∧
      before.countP Request.creates = n := by
  induction requests generalizing n with
  | nil => cases hn
  | cons request requests ih =>
    by_cases hcreates : request.creates = true
    · cases n with
      | zero => exact ⟨[], request, requests, rfl, hcreates, rfl⟩
      | succ n =>
        rw [List.countP_cons_of_pos hcreates] at hn
        rcases ih (Nat.lt_of_succ_lt_succ hn) with ⟨before, next, after, rfl, hnext, hbefore⟩
        refine ⟨request :: before, next, after, rfl, hnext, ?_⟩
        rw [List.countP_cons_of_pos hcreates, hbefore]
    · rw [List.countP_cons_of_neg hcreates] at hn
      rcases ih hn with ⟨before, next, after, rfl, hnext, hbefore⟩
      refine ⟨request :: before, next, after, rfl, hnext, ?_⟩
      rw [List.countP_cons_of_neg hcreates, hbefore]

/-- The region that gets the number zero is made all the same. -/
theorem lt_of_neverRepeats (hnever : NeverRepeats requests) :
    requests.countP Request.creates < Address.offsets := by
  by_contra hmany
  have hpos : 0 < Address.offsets := by decide
  -- the request that comes when all numbers but zero are given out
  have hlast : Address.offsets - 1 < requests.countP Request.creates := by omega
  rcases exists_split_of_lt_countP hlast with ⟨before, request, after, hsplit, hcreates, hbefore⟩
  rcases reply_of_creates hcreates before with ⟨hreply, hlive⟩
  have hzero : (before.countP Request.creates + 1) % Address.offsets * Address.offsets = 0 := by
    rw [hbefore, Nat.sub_add_cancel hpos, Nat.mod_self, Nat.zero_mul]
  rw [hzero] at hreply
  rcases hnever before request after hsplit hcreates with ⟨a, ha, ⟨hne, -⟩ | ⟨-, hsame⟩⟩
  · cases hreply.symm.trans ha
    exact hne rfl
  · rw [hsame] at hlive
    omega

/-- A request for a region is always granted. Its address comes from the number of regions made
before it, taken modulo the number of upper halves of an address. So guest memory never gives an
address out twice, and null only without a region, exactly if fewer regions are made than that. -/
theorem region_numbers_exact (requests : List Request) :
    (∀ before request after, requests = before ++ request :: after → request.creates = true →
      ((built before).answer request).1 =
          .address ((before.countP Request.creates + 1) % Address.offsets * Address.offsets) ∧
        ((built before).answer request).2.live = (built before).live + 1) ∧
    (NeverRepeats requests ↔ requests.countP Request.creates < Address.offsets) := by
  refine ⟨fun before request after _ hcreates => ?_, lt_of_neverRepeats, neverRepeats_of_lt⟩
  exact reply_of_creates hcreates before

/-- Giving regions back does not bring their numbers back. -/
theorem region_numbers_exact_released :
    let requests : List Request :=
      [.allocate 4, .release 0x100000000, .allocate 4, .allocate 0x100000000, .map [7]]
    requests.countP Request.creates < Address.offsets ∧ NeverRepeats requests ∧
      ((built (requests.take 4)).answer (.map [7])).1 = .address 0x300000000 := by
  intro requests
  have hcount : requests.countP Request.creates < Address.offsets := by decide
  have hexact := region_numbers_exact requests
  have hthird : (requests.take 4).countP Request.creates = 2 := by decide
  have hreply := (hexact.1 (requests.take 4) (.map [7]) [] rfl rfl).1
  rw [hthird] at hreply
  exact ⟨hcount, hexact.2.2 hcount, hreply⟩

/-- As many empty regions as there are numbers other than zero, and one more: that one is made at
the null address, and the next one gets the address of the first. -/
theorem region_numbers_wrap :
    let full : List Request := List.replicate Address.maxRegionLength (.allocate 0)
    ((built full).answer (.allocate 0)).1 = .address 0 ∧
      ((built full).answer (.allocate 0)).2.live = (built full).live + 1 ∧
      ((built (full ++ [.allocate 0])).answer (.allocate 0)).1 =
        ((built []).answer (.allocate 0)).1 ∧
      ¬NeverRepeats (full ++ [.allocate 0]) := by
  intro full
  have hcreates : Request.creates (.allocate 0) = true := by decide
  have hfull : full.countP Request.creates = Address.maxRegionLength := by
    rw [List.countP_replicate, if_pos hcreates]
  have hmore : (full ++ [Request.allocate 0]).countP Request.creates = Address.offsets := by
    rw [List.countP_append, hfull, List.countP_singleton, if_pos hcreates]
    rfl
  have hnull := reply_of_creates hcreates full
  rw [hfull] at hnull
  have hagain := (reply_of_creates hcreates (full ++ [.allocate 0])).1
  rw [hmore] at hagain
  refine ⟨hnull.1, hnull.2, hagain, fun hnever => ?_⟩
  have hlt := lt_of_neverRepeats hnever
  rw [hmore] at hlt
  exact Nat.lt_irrefl _ hlt

end Heap
end StackMachine
