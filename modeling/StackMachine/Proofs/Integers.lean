import Mathlib.Algebra.Group.Nat.Defs
import Mathlib.Algebra.Ring.Int.Defs
import StackMachine.Proofs.Addressing

/-!
# Integers — exact arithmetic, modulo the number of words

A word is read as an integer in two ways. The two readings of a word differ by a multiple of the
number of words, and this is why most operations need not know which one is meant:

* `Word.Wraps` — a word holds an integer modulo the number of words;
* `Word.Splits` — quotient and remainder of a signed division, with the one case that wraps;
* `Machine.Leaves` — what an operation makes of the words on top of any stack;
* `Machine.Agrees`, `Machine.Compares` — families with one member for each reading;
* `Machine.integer_arithmetic_exact` — what the integer operations leave, and what they refuse.
-/

namespace StackMachine

/-! ## Words as integers -/

namespace Word

def signedInt (w : Word) : Int := (signed w).toInt

/-- The word holds the integer modulo the number of words. -/
def Wraps (w : Word) (x : Int) : Prop := (w.toNat : Int) = x % 2 ^ 64

variable {w v a b : Word} {x y : Int}

/-- A word holds its unsigned reading. -/
theorem wraps_toNat (w : Word) : w.Wraps w.toNat := by
  have hlt : w.toNat < 2 ^ 64 := w.toNat_lt
  unfold Wraps
  omega

theorem wraps_signedInt (w : Word) : w.Wraps w.signedInt := by
  have hbalanced : w.signedInt = Int.bmod w.toNat (2 ^ 64) := w.toBitVec.toInt_eq_toNat_bmod
  unfold Wraps
  rw [hbalanced]
  exact (wraps_toNat w).trans (Int.bmod_emod (m := 2 ^ 64)).symm

/-- An integer is held by one word only. -/
theorem Wraps.unique (hw : w.Wraps x) (hv : v.Wraps x) : w = v := by
  have hnat : (w.toNat : Int) = v.toNat := hw.trans hv.symm
  exact UInt64.toNat.inj (Int.ofNat.inj hnat)

/-- Words are added as the integers are that they hold. -/
theorem Wraps.add (hw : w.Wraps x) (hv : v.Wraps y) : (w + v).Wraps (x + y) := by
  unfold Wraps at *
  calc ((w + v).toNat : Int)
      = ((w.toNat : Int) + v.toNat) % 2 ^ 64 := by rw [UInt64.toNat_add]; norm_cast
    _ = (x + y) % 2 ^ 64 := by rw [hw, hv, ← Int.add_emod]

theorem Wraps.sub (hw : w.Wraps x) (hv : v.Wraps y) : (w - v).Wraps (x - y) := by
  have hlt : v.toNat < 2 ^ 64 := v.toNat_lt
  unfold Wraps at *
  calc ((w - v).toNat : Int)
      = ((w.toNat : Int) - v.toNat) % 2 ^ 64 := by rw [UInt64.toNat_sub]; omega
    _ = (x - y) % 2 ^ 64 := by rw [hw, hv, ← Int.sub_emod]

theorem Wraps.mul (hw : w.Wraps x) (hv : v.Wraps y) : (w * v).Wraps (x * y) := by
  unfold Wraps at *
  calc ((w * v).toNat : Int)
      = ((w.toNat : Int) * v.toNat) % 2 ^ 64 := by rw [UInt64.toNat_mul]; norm_cast
    _ = (x * y) % 2 ^ 64 := by rw [hw, hv, ← Int.mul_emod]

theorem Wraps.neg (hw : w.Wraps x) : (-w).Wraps (-x) := by
  have hzero : (0 : Word).Wraps 0 := rfl
  rw [← UInt64.zero_sub, ← Int.zero_sub]
  exact hzero.sub hw

/-- Words are told apart by their signed readings. -/
theorem signedInt_inj : a.signedInt = b.signedInt ↔ a = b := by
  constructor
  · intro heq
    have ha := wraps_signedInt a
    rw [heq] at ha
    exact ha.unique (wraps_signedInt b)
  · exact congrArg signedInt

/-! ## Division -/

/-- The only division of signed integers whose quotient is not one. -/
def Overflows (a b : Word) : Prop := a.signedInt = -2 ^ 63 ∧ b.signedInt = -1

/-- The words are quotient and remainder of a division of signed integers. -/
structure Splits (a b q r : Word) : Prop where
  /-- Together they give the dividend, modulo the number of words. -/
  whole : q * b + r = a
  /-- The quotient is cut toward zero. -/
  quotient : ¬Overflows a b → q.signedInt = a.signedInt.tdiv b.signedInt
  /-- Together they give the dividend as integers. -/
  dividend : ¬Overflows a b → q.signedInt * b.signedInt + r.signedInt = a.signedInt
  small : r.signedInt.natAbs < b.signedInt.natAbs
  side : r.signedInt = 0 ∨ r.signedInt.sign = a.signedInt.sign
  wrapped : Overflows a b → q.signedInt = -2 ^ 63 ∧ r.signedInt = 0

/-- A signed quotient is rounded towards zero, and wraps where it does not fit. -/
theorem signedInt_div (a b : Word) : ((DivisionOp.div .signed).eval a b).signedInt =
    (a.signedInt.tdiv b.signedInt).bmod (2 ^ 64) := Int64.toInt_div (signed a) (signed b)

/-- A signed remainder has the sign of the dividend. -/
theorem signedInt_mod (a b : Word) : ((DivisionOp.mod .signed).eval a b).signedInt =
    a.signedInt.tmod b.signedInt := Int64.toInt_mod (signed a) (signed b)

/-- All signed quotients but one are exact. -/
theorem signedInt_div_of_not_overflows (h : ¬Overflows a b) :
    ((DivisionOp.div .signed).eval a b).signedInt = a.signedInt.tdiv b.signedInt := by
  by_cases ha : signed a = Int64.minValue
  · refine Int64.toInt_div_of_ne_right _ _ fun hb => h ⟨?_, ?_⟩
    · rw [signedInt, ha]
      rfl
    · rw [signedInt, hb]
      rfl
  · exact Int64.toInt_div_of_ne_left _ _ ha

/-- A signed quotient holds the exact one, even where that does not fit. -/
theorem wraps_div (a b : Word) :
    ((DivisionOp.div .signed).eval a b).Wraps (a.signedInt.tdiv b.signedInt) := by
  have hq := wraps_signedInt ((DivisionOp.div .signed).eval a b)
  rw [signedInt_div] at hq
  exact hq.trans (Int.bmod_emod (m := 2 ^ 64))

/-- Quotient and remainder make up the dividend. -/
theorem splits_eval (a : Word) (hb : b ≠ 0) :
    a.Splits b ((DivisionOp.div .signed).eval a b) ((DivisionOp.mod .signed).eval a b) where
  whole := by
    have hr := wraps_signedInt ((DivisionOp.mod .signed).eval a b)
    rw [signedInt_mod] at hr
    -- the wrapped quotient stands for the exact one, which puts the dividend together again
    have hsum := ((wraps_div a b).mul (wraps_signedInt b)).add hr
    rw [Int.tdiv_mul_add_tmod] at hsum
    exact hsum.unique (wraps_signedInt a)
  quotient := signedInt_div_of_not_overflows
  dividend h := by rw [signedInt_div_of_not_overflows h, signedInt_mod, Int.tdiv_mul_add_tmod]
  small := by
    have hne : b.signedInt ≠ 0 := fun hzero => hb (signedInt_inj.1 hzero)
    rw [signedInt_mod, Int.natAbs_tmod]
    exact Nat.mod_lt _ (Int.natAbs_pos.2 hne)
  side := by
    rw [signedInt_mod, Int.sign_tmod]
    by_cases hdvd : b.signedInt ∣ a.signedInt
    · exact .inl (Int.tmod_eq_zero_of_dvd hdvd)
    · exact .inr (if_neg hdvd)
  wrapped := by
    rintro ⟨ha, hminus⟩
    rw [signedInt_div, signedInt_mod, ha, hminus]
    decide

end Word

/-! ## Operations on the stack -/

namespace Machine

variable {table : Interrupt.Table} {m : Machine} {operand a b c : Word} {rest : List Word}

theorem perform_unary {op : UnaryOp} (hitems : m.stack.items = a :: rest) :
    perform table (.unary op) operand m =
      .ok () { m with stack := m.stack.withItems (op.eval a :: rest) } := by
  have ha : peek 0 m = .ok a m := peek_of_items (by simp [hitems])
  simp only [perform, bind_of_ok ha]
  exact replace_top hitems

/-- A division, as a change of the machine. -/
theorem perform_division {op : DivisionOp} (hitems : m.stack.items = b :: a :: rest) :
    perform table (.division op) operand m =
      if op.refuses b then .error .divisionByZero m
      else .ok () { m with stack := m.stack.withItems (op.eval a b :: rest) } := by
  have hrequire : require 2 m = .ok () m := require_of_items (by simp [hitems])
  have ha : peek 1 m = .ok a m := peek_of_items (by simp [hitems])
  have hb : peek 0 m = .ok b m := peek_of_items (by simp [hitems])
  simp only [perform, bind_of_ok hrequire, bind_of_ok hb]
  split
  · rfl
  · simp only [bind_of_ok ha, bind_of_ok hb]
    exact replace_drop hitems

/-- Executed with the words on top of any stack, the operation leaves one word in their place and
nothing else changes. -/
def Leaves (op : Opcode) (words : List Word) (w : Word) : Prop :=
  ∀ (table : Interrupt.Table) (m : Machine) (operand : Word) (s : List Word),
    m.Poised [(op, operand)] (s ++ words) →
      step table m = .ok () { m.advanced with stack := m.stack.withItems (s ++ [w]).reverse }

/-- Executed with the words on top of any stack, the operation is refused as a division by zero and
nothing changes. -/
def DividesByZero (op : Opcode) (words : List Word) : Prop :=
  ∀ (table : Interrupt.Table) (m : Machine) (operand : Word) (s : List Word),
    m.Poised [(op, operand)] (s ++ words) → step table m = .error .divisionByZero m.advanced

/-- An operation on two words leaves its value. -/
theorem leaves_binary (op : BinaryOp) (a b : Word) :
    Leaves (.binary op) [a, b] (op.eval a b) := by
  intro table m operand s h
  rw [step_of_ahead h.code, perform_binary h.items_append, List.reverse_append]
  rfl

theorem leaves_unary (op : UnaryOp) (a : Word) : Leaves (.unary op) [a] (op.eval a) := by
  intro table m operand s h
  rw [step_of_ahead h.code, perform_unary h.items_append, List.reverse_append]
  rfl

/-- A division whose divisor is not refused leaves its value. -/
theorem leaves_division {op : DivisionOp} (a : Word) (hb : op.refuses b = false) :
    Leaves (.division op) [a, b] (op.eval a b) := by
  intro table m operand s h
  rw [step_of_ahead h.code, perform_division h.items_append, hb, List.reverse_append]
  rfl

/-- A division whose divisor is refused leaves everything as it was. -/
theorem dividesByZero_of_refuses {op : DivisionOp} (a : Word) (hb : op.refuses b = true) :
    DividesByZero (.division op) [a, b] := by
  intro table m operand s h
  rw [step_of_ahead h.code, perform_division h.items_append, hb]
  rfl

/-! ## Families -/

/-- The signed and the unsigned operation of a family leave the same word. It holds the exact result
for the integers of either reading. -/
def Agrees (op : Reading → BinaryOp) (f : Int → Int → Int) (a b : Word) : Prop :=
  ∃ c, Leaves (.binary (op .signed)) [a, b] c ∧ Leaves (.binary (op .unsigned)) [a, b] c ∧
    c.Wraps (f a.signedInt b.signedInt) ∧ c.Wraps (f a.toNat b.toNat)

/-- If the two operations leave one word that holds the exact result, they agree. -/
theorem agrees_of_wraps {op : Reading → BinaryOp} {f : Int → Int → Int}
    (hsigned : (op .signed).eval a b = c) (hunsigned : (op .unsigned).eval a b = c)
    (hwraps : ∀ {x y}, a.Wraps x → b.Wraps y → c.Wraps (f x y)) : Agrees op f a b := by
  refine ⟨c, ?_, ?_, ?_, ?_⟩
  · rw [← hsigned]
    exact leaves_binary _ a b
  · rw [← hunsigned]
    exact leaves_binary _ a b
  · exact hwraps (Word.wraps_signedInt a) (Word.wraps_signedInt b)
  · exact hwraps (Word.wraps_toNat a) (Word.wraps_toNat b)

/-- The comparisons of a reading, for words that stand for the integers `x` and `y` in it. They
leave the truth values of two comparisons of the integers, of their opposites, and of equality. -/
structure Compares (r : Reading) (x y : Int) (a b : Word) : Prop where
  less : Leaves (.binary (.less r)) [a, b] (Word.ofBool (x < y))
  greaterEquals : Leaves (.binary (.greaterEquals r)) [a, b] (Word.ofBool (!decide (x < y)))
  lessEqual : Leaves (.binary (.lessEqual r)) [a, b] (Word.ofBool (x ≤ y))
  greater : Leaves (.binary (.greater r)) [a, b] (Word.ofBool (!decide (x ≤ y)))
  equal : Leaves (.binary .eq) [a, b] (Word.ofBool (decide (x ≤ y) && !decide (x < y)))

/-- Comparisons of words are right if they are those of the integers. -/
theorem compares_of_iff {r : Reading} {x y : Int}
    (hless : (BinaryOp.less r).eval a b = Word.ofBool (x < y))
    (hlessEqual : (BinaryOp.lessEqual r).eval a b = Word.ofBool (x ≤ y))
    (hgreater : (BinaryOp.greater r).eval a b = Word.ofBool (y < x))
    (hgreaterEquals : (BinaryOp.greaterEquals r).eval a b = Word.ofBool (y ≤ x))
    (hequal : a = b ↔ x = y) : Compares r x y a b where
  less := by
    rw [← hless]
    exact leaves_binary _ a b
  greaterEquals := by
    have hnot : (!decide (x < y)) = decide (y ≤ x) := by grind
    rw [hnot, ← hgreaterEquals]
    exact leaves_binary _ a b
  lessEqual := by
    rw [← hlessEqual]
    exact leaves_binary _ a b
  greater := by
    have hnot : (!decide (x ≤ y)) = decide (y < x) := by grind
    rw [hnot, ← hgreater]
    exact leaves_binary _ a b
  equal := by
    have hboth : (decide (x ≤ y) && !decide (x < y)) = (a == b) := by grind
    rw [hboth]
    exact leaves_binary .eq a b

theorem ofBool_congr {p q : Prop} [Decidable p] [Decidable q] (h : p ↔ q) :
    Word.ofBool p = Word.ofBool q := congrArg Word.ofBool (decide_eq_decide.2 h)

/-- Signed comparisons are those of the signed readings. -/
theorem compares_signed (a b : Word) : Compares .signed a.signedInt b.signedInt a b := by
  refine compares_of_iff ?_ ?_ ?_ ?_ Word.signedInt_inj.symm
  · exact ofBool_congr Int64.lt_iff_toInt_lt
  · exact ofBool_congr Int64.le_iff_toInt_le
  · exact ofBool_congr Int64.lt_iff_toInt_lt
  · exact ofBool_congr Int64.le_iff_toInt_le

/-- Unsigned comparisons are those of the unsigned readings. -/
theorem compares_unsigned (a b : Word) : Compares .unsigned a.toNat b.toNat a b := by
  have hlt {v w : Word} : v < w ↔ (v.toNat : Int) < w.toNat :=
    UInt64.lt_iff_toNat_lt.trans Int.ofNat_lt.symm
  have hle {v w : Word} : v ≤ w ↔ (v.toNat : Int) ≤ w.toNat :=
    UInt64.le_iff_toNat_le.trans Int.ofNat_le.symm
  refine compares_of_iff (ofBool_congr hlt) (ofBool_congr hle) (ofBool_congr hlt)
    (ofBool_congr hle) ?_
  rw [Int.natCast_inj, UInt64.toNat_inj]

/-! ## All integer operations -/

/-- Signed division and remainder succeed for every divisor but zero. -/
theorem leaves_signed_division (a : Word) (hb : b ≠ 0) :
    ∃ q r, Leaves (.division (.div .signed)) [a, b] q ∧ Leaves (.division (.mod .signed)) [a, b] r ∧
      a.Splits b q r := by
  have hrefuses : Word.isZero b = false := beq_false_of_ne hb
  exact ⟨_, _, leaves_division a hrefuses, leaves_division a hrefuses, Word.splits_eval a hb⟩

/-- Unsigned division and remainder succeed for every divisor but zero, and are exact. -/
theorem leaves_unsigned_division (a : Word) (hb : b ≠ 0) :
    ∃ q r, Leaves (.division (.div .unsigned)) [a, b] q ∧
      Leaves (.division (.mod .unsigned)) [a, b] r ∧
      q.toNat * b.toNat + r.toNat = a.toNat ∧ r.toNat < b.toNat := by
  have hrefuses : Word.isZero b = false := beq_false_of_ne hb
  have hpos : 0 < b.toNat := Nat.pos_of_ne_zero fun hzero => hb (UInt64.toNat.inj hzero)
  refine ⟨a / b, a % b, leaves_division a hrefuses, leaves_division a hrefuses, ?_, ?_⟩
  · rw [UInt64.toNat_div, UInt64.toNat_mod]
    exact Nat.div_add_mod' a.toNat b.toNat
  · rw [UInt64.toNat_mod]
    exact Nat.mod_lt _ hpos

/-- Integers are not divided by zero. -/
theorem dividesByZero_of_ne_float {r : Reading} (hr : r ≠ .float) (a : Word) :
    DividesByZero (.division (.div r)) [a, 0] ∧ DividesByZero (.division (.mod r)) [a, 0] := by
  cases r with
  | float => exact absurd rfl hr
  | signed => exact ⟨dividesByZero_of_refuses a rfl, dividesByZero_of_refuses a rfl⟩
  | unsigned => exact ⟨dividesByZero_of_refuses a rfl, dividesByZero_of_refuses a rfl⟩

/-- A shift goes by the distance modulo sixty-four, and multiplies or divides. -/
theorem leaves_shifts (a b : Word) :
    ∃ c d, Leaves (.binary .lshift) [a, b] c ∧ Leaves (.binary .rshift) [a, b] d ∧
      c.Wraps (a.toNat * 2 ^ (b.toNat % 64)) ∧ d.toNat = a.toNat / 2 ^ (b.toNat % 64) := by
  have hamount : (b % 64).toNat % 64 = b.toNat % 64 := by
    rw [UInt64.toNat_mod]
    exact Nat.mod_mod _ _
  refine ⟨a <<< (b % 64), a >>> (b % 64), leaves_binary .lshift a b, leaves_binary .rshift a b,
    ?_, ?_⟩
  · unfold Word.Wraps
    rw [UInt64.toNat_shiftLeft, hamount, Nat.shiftLeft_eq]
    norm_cast
  · rw [UInt64.toNat_shiftRight, hamount, Nat.shiftRight_eq_div_pow]

/-- Sums, differences, products and negations are exact modulo the number of words, whichever
reading they are meant for. A signed division cuts toward zero, and only the one of the least
integer by minus one wraps; an unsigned one is Euclidean. Shifts go by the amount modulo the width
of a word. The comparisons of a reading are two pairs of opposites, and two words are equal if they
are in order both ways. None of the operations is refused, except a division by zero. -/
theorem integer_arithmetic_exact (a b : Word) :
    Agrees .add (· + ·) a b ∧ Agrees .sub (· - ·) a b ∧ Agrees .mul (· * ·) a b ∧
    (∃ c, Leaves (.unary (.neg .signed)) [a] c ∧ Leaves (.unary (.neg .unsigned)) [a] c ∧
      c.Wraps (-a.signedInt) ∧ c.Wraps (-a.toNat)) ∧
    (b ≠ 0 → ∃ q r, Leaves (.division (.div .signed)) [a, b] q ∧
      Leaves (.division (.mod .signed)) [a, b] r ∧ a.Splits b q r) ∧
    (b ≠ 0 → ∃ q r, Leaves (.division (.div .unsigned)) [a, b] q ∧
      Leaves (.division (.mod .unsigned)) [a, b] r ∧
      q.toNat * b.toNat + r.toNat = a.toNat ∧ r.toNat < b.toNat) ∧
    (∀ r, r ≠ Reading.float → DividesByZero (.division (.div r)) [a, 0] ∧
      DividesByZero (.division (.mod r)) [a, 0]) ∧
    (∃ c d, Leaves (.binary .lshift) [a, b] c ∧ Leaves (.binary .rshift) [a, b] d ∧
      c.Wraps (a.toNat * 2 ^ (b.toNat % 64)) ∧ d.toNat = a.toNat / 2 ^ (b.toNat % 64)) ∧
    Compares .signed a.signedInt b.signedInt a b ∧ Compares .unsigned a.toNat b.toNat a b ∧
    (∀ op, ∃ c, Leaves (.binary op) [a, b] c) ∧ ∀ op, ∃ c, Leaves (.unary op) [a] c := by
  refine ⟨agrees_of_wraps rfl rfl Word.Wraps.add, agrees_of_wraps rfl rfl Word.Wraps.sub,
    agrees_of_wraps rfl rfl Word.Wraps.mul, ?_, leaves_signed_division a,
    leaves_unsigned_division a, fun r hr => dividesByZero_of_ne_float hr a, leaves_shifts a b,
    compares_signed a b, compares_unsigned a b, fun op => ⟨_, leaves_binary op a b⟩,
    fun op => ⟨_, leaves_unary op a⟩⟩
  exact ⟨-a, leaves_unary (.neg .signed) a, leaves_unary (.neg .unsigned) a,
    (Word.wraps_signedInt a).neg, (Word.wraps_toNat a).neg⟩

/-- The least integer divided by minus one is left as it is. Divided by zero it is refused, and
stays on the stack with its divisor. -/
theorem integer_arithmetic_exact_overflow :
    let program (divisor : Word) : Module :=
      { instructions := #[.of .push 0x8000000000000000, .of .push divisor,
          .of (.division (.div .signed)) 0] }
    ∃ first first' m n : Machine,
      start (program 0xFFFFFFFFFFFFFFFF) (Loader.registry []) {} {} = .ok first ∧
      start (program 0) (Loader.registry []) {} {} = .ok first' ∧
      m = first.after Interrupt.standard [.step, .step] ∧
      n = first'.after Interrupt.standard [.step, .step] ∧
      (∃ m', step Interrupt.standard m = .ok () m' ∧ m'.stack.toList = [0x8000000000000000]) ∧
      step Interrupt.standard n = .error .divisionByZero n.advanced := by
  intro program
  have hrun : ∃ first first' m n : Machine,
      start (program 0xFFFFFFFFFFFFFFFF) (Loader.registry []) {} {} = .ok first ∧
      start (program 0) (Loader.registry []) {} {} = .ok first' ∧
      m = first.after Interrupt.standard [.step, .step] ∧
      n = first'.after Interrupt.standard [.step, .step] ∧
      m.Poised [(.division (.div .signed), 0)] ([] ++ [0x8000000000000000, 0xFFFFFFFFFFFFFFFF]) ∧
      n.Poised [(.division (.div .signed), 0)] ([] ++ [0x8000000000000000, 0]) := by
    dsimp only [program]
    set_option maxRecDepth 3000 in
    exact ⟨_, _, _, _, rfl, rfl, rfl, rfl,
      ⟨⟨⟨_, rfl, rfl, rfl⟩, trivial⟩, by decide +kernel, by decide +kernel⟩,
      ⟨⟨⟨_, rfl, rfl, rfl⟩, trivial⟩, by decide +kernel, by decide +kernel⟩⟩
  rcases hrun with ⟨first, first', m, n, hfirst, hfirst', hm, hn, hleast, hzero⟩
  rcases integer_arithmetic_exact 0x8000000000000000 0xFFFFFFFFFFFFFFFF with
    ⟨-, -, -, -, hsigned, -⟩
  rcases integer_arithmetic_exact 0x8000000000000000 0 with ⟨-, -, -, -, -, -, hrefused, -⟩
  rcases hsigned (by decide) with ⟨q, r, hq, -, hsplits⟩
  -- the quotient is the word of the least integer
  have hleft : q = 0x8000000000000000 := by
    rw [← Word.signedInt_inj]
    exact (hsplits.wrapped ⟨rfl, rfl⟩).1
  refine ⟨first, first', m, n, hfirst, hfirst', hm, hn, ⟨_, hq _ m 0 [] hleast, ?_⟩, ?_⟩
  · rw [hleft]
    rfl
  · exact (hrefused .signed (by decide)).1 _ n 0 [] hzero

end Machine
end StackMachine
