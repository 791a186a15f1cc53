import StackMachine.Stack

/-!
# Stack — operations as changes of a list

A stack is determined by its role, its capacity and the words on it. `Stack.withItems` replaces the
words, and every operation that succeeds is such a replacement:

* `Stack.push_ok_iff`, `Stack.set_ok_iff`, `Stack.drop_ok_iff`, `Stack.pop_ok_iff` — when an
  operation succeeds, and with which words on the stack;
* `Stack.peek_ok_iff`, `Stack.require_ok_iff`, `Stack.reserve_ok_iff` — when a check succeeds.
-/

namespace StackMachine
namespace Stack

def withItems (s : Stack) (items : List Word) : Stack :=
  { s with items, height := items.length, height_eq := rfl }

@[simp]
theorem items_withItems (s : Stack) (items : List Word) : (s.withItems items).items = items := rfl

@[simp]
theorem capacity_withItems (s : Stack) (items : List Word) :
    (s.withItems items).capacity = s.capacity := rfl

/-- The height is no part of a stack of its own: it counts the words. So a result with the same role
and capacity as `s` is `s` with other words. -/
theorem ok_eq_ok_iff {s t u : Stack} (hrole : u.role = s.role)
    (hcapacity : u.capacity = s.capacity) :
    (.ok u : Except Fault Stack) = .ok t ↔ t = s.withItems u.items := by
  rcases u with ⟨role, capacity, items, height, rfl⟩
  simp only at hrole hcapacity
  subst hrole hcapacity
  rw [Except.ok.injEq]
  exact eq_comm

/-! ## Checks -/

theorem require_ok_iff {s : Stack} {n : Nat} {u : Unit} :
    s.require n = .ok u ↔ n ≤ s.items.length := by
  unfold require
  rw [s.height_eq]
  split
  · simp only [reduceCtorEq, false_iff]
    omega
  · simp only [true_iff]
    omega

theorem reserve_ok_iff {s : Stack} {n : Nat} {u : Unit} :
    s.reserve n = .ok u ↔ n ≤ s.capacity - s.items.length := by
  unfold reserve
  rw [s.height_eq]
  split
  · simp only [reduceCtorEq, false_iff]
    omega
  · simp only [true_iff]
    omega

theorem peek_ok_iff {s : Stack} {depth : Nat} {w : Word} :
    s.peek depth = .ok w ↔ s.items[depth]? = some w := by
  unfold peek
  cases s.items[depth]? with
  | none => simp
  | some v => simp

/-! ## Changes -/

/-- A push succeeds below the capacity. -/
theorem push_ok_iff {s t : Stack} {w : Word} :
    s.push w = .ok t ↔ s.items.length < s.capacity ∧ t = s.withItems (w :: s.items) := by
  have hreserve := reserve_ok_iff (s := s) (n := 1) (u := ())
  unfold push
  cases h : s.reserve 1 with
  | error e =>
    simp only [h, reduceCtorEq, false_iff] at hreserve ⊢
    omega
  | ok u =>
    have hroom : s.items.length < s.capacity := by
      have := hreserve.1 h
      omega
    simp only [hroom, true_and]
    exact ok_eq_ok_iff rfl rfl

theorem set_ok_iff {s t : Stack} {depth : Nat} {w : Word} :
    s.set depth w = .ok t ↔
      depth < s.items.length ∧ t = s.withItems (s.items.set depth w) := by
  unfold set
  split
  next h =>
    have hdepth : depth < s.items.length := by rw [s.height_eq]; exact h
    simp only [hdepth, true_and]
    exact ok_eq_ok_iff rfl rfl
  next h =>
    have hdepth : ¬ depth < s.items.length := by rw [s.height_eq]; exact h
    simp [hdepth]

theorem drop_ok_iff {s t : Stack} {n : Nat} :
    s.drop n = .ok t ↔ n ≤ s.items.length ∧ t = s.withItems (s.items.drop n) := by
  have hrequire := require_ok_iff (s := s) (n := n) (u := ())
  unfold drop
  cases h : s.require n with
  | error e =>
    simp only [h, reduceCtorEq, false_iff] at hrequire ⊢
    omega
  | ok u =>
    have hpresent : n ≤ s.items.length := hrequire.1 h
    simp only [hpresent, true_and]
    exact ok_eq_ok_iff rfl rfl

/-- The top word can be taken off if there is one. -/
theorem pop_ok_iff {s t : Stack} {w : Word} :
    s.pop = .ok (w, t) ↔ ∃ rest, s.items = w :: rest ∧ t = s.withItems rest := by
  rcases s with ⟨role, capacity, items, height, rfl⟩
  cases items with
  | nil => simp [pop]
  | cons v rest =>
    simp only [pop, Except.ok.injEq, Prod.mk.injEq, List.cons.injEq]
    constructor
    · rintro ⟨rfl, rfl⟩
      exact ⟨rest, ⟨rfl, rfl⟩, rfl⟩
    · rintro ⟨_, ⟨rfl, rfl⟩, rfl⟩
      exact ⟨rfl, rfl⟩

end Stack
end StackMachine
