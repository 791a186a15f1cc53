import StackMachine.Text.Layout

/-!
# Layout — what can be read back from a text

Numbers are printed with as many digits as they need, filled up to a width, and set apart from what
follows them by a character that is no digit. Lines are set apart by their ends. So the parts of a
text are determined by the text:

* `Text.split_inj` — two texts that are cut at the same character have the same parts;
* `Text.zeros_inj` — a decimal number is determined by its digits, whatever fills them up;
* `Text.lines_inj` — lines without line ends inside are determined by the text that they make.
-/

namespace StackMachine
namespace Text

/-! ## Parts -/

/-- Texts are told apart at the first stop. -/
theorem append_cons_inj {u v s t : List Char} {stop : Char} (hu : stop ∉ u) (hv : stop ∉ v)
    (h : u ++ stop :: s = v ++ stop :: t) : u = v ∧ s = t := by
  induction u generalizing v with
  | nil =>
    cases v with
    | nil => exact ⟨rfl, List.tail_eq_of_cons_eq h⟩
    | cons c v =>
      -- the second text would have to begin with the character at which it is cut
      have hstop : stop = c := List.head_eq_of_cons_eq h
      exact absurd (List.mem_cons.2 (.inl hstop)) hv
  | cons c u ih =>
    cases v with
    | nil =>
      have hstop : c = stop := List.head_eq_of_cons_eq h
      exact absurd (List.mem_cons.2 (.inl hstop.symm)) hu
    | cons c' v =>
      rcases List.cons_eq_cons.1 h with ⟨rfl, hrest⟩
      rcases ih (List.not_mem_of_not_mem_cons hu) (List.not_mem_of_not_mem_cons hv) hrest with
        ⟨rfl, rfl⟩
      exact ⟨rfl, rfl⟩

/-- The text in front of the first stop, and the text behind it. -/
theorem split_inj {u v s t cut : String} {stop : Char} (hcut : cut.toList = [stop])
    (hu : stop ∉ u.toList) (hv : stop ∉ v.toList) (h : u ++ (cut ++ s) = v ++ (cut ++ t)) :
    u = v ∧ s = t := by
  have hlists : u.toList ++ stop :: s.toList = v.toList ++ stop :: t.toList := by
    simpa only [String.toList_append, hcut, List.singleton_append] using congrArg String.toList h
  rcases append_cons_inj hu hv hlists with ⟨hfront, hback⟩
  exact ⟨String.toList_inj.1 hfront, String.toList_inj.1 hback⟩

/-- Padding adds blanks only. -/
theorem not_mem_right {width : Nat} {s : String} {c : Char} (hc : c ≠ ' ') (hs : c ∉ s.toList) :
    c ∉ (right width s).toList := by
  unfold right fill
  rw [String.toList_append, String.toList_ofList, List.mem_append]
  rintro (hblank | hmem)
  · exact hc (List.eq_of_mem_replicate hblank)
  · exact hs hmem

/-! ## Numbers -/

/-- A number with leading zeros, digit by digit. -/
theorem toList_zeros (width n : Nat) : (zeros width n).toList =
    List.replicate (width - (toString n).length) '0' ++ Nat.toDigits 10 n := by
  unfold zeros fill
  rw [String.toList_append, String.toList_ofList, Nat.toString_eq_repr, Nat.toList_repr]

/-- The zeros in front do not count. -/
theorem zeros_inj {width m n : Nat} (h : zeros width m = zeros width n) : m = n := by
  have hvalue (n : Nat) : Nat.ofDigitChars 10 (zeros width n).toList 0 = n := by
    rw [toList_zeros, Nat.ofDigitChars_append, Nat.ofDigitChars_replicate_zero, Nat.mul_zero,
      Nat.ofDigitChars_ten_toDigits]
  rw [← hvalue m, h, hvalue]

/-- A number with leading zeros is made of digits. -/
theorem isDigit_of_mem_zeros {width n : Nat} {c : Char} (hc : c ∈ (zeros width n).toList) :
    c.isDigit = true := by
  rw [toList_zeros, List.mem_append] at hc
  rcases hc with hzero | hdigit
  · rw [List.eq_of_mem_replicate hzero]
    rfl
  · exact Nat.isDigit_of_mem_toDigits (by decide) (by decide) hdigit

/-- A number that is cut off by a character is determined, and so is what follows. -/
theorem zeros_append_inj {width m n : Nat} {s t cut : String} {stop : Char}
    (hcut : cut.toList = [stop]) (hstop : stop.isDigit = false)
    (h : zeros width m ++ (cut ++ s) = zeros width n ++ (cut ++ t)) : m = n ∧ s = t := by
  have hnone (n : Nat) : stop ∉ (zeros width n).toList := by
    intro hmem
    rw [isDigit_of_mem_zeros hmem] at hstop
    cases hstop
  rcases split_inj hcut (hnone m) (hnone n) h with ⟨hnumber, hrest⟩
  exact ⟨zeros_inj hnumber, hrest⟩

/-- Without a width, a number is printed with the digits that it needs. -/
theorem zeros_zero (n : Nat) : zeros 0 n = toString n := by
  simp [zeros, fill]

theorem digitChar_inj : ∀ m < 16, ∀ n < 16, Nat.digitChar m = Nat.digitChar n → m = n := by
  decide

/-- A byte is printed with two hexadecimal digits. -/
theorem toList_hexDigits_two {n : Nat} (hn : n < 256) :
    (hexDigits 2 n).toList = [Nat.digitChar (n / 16), Nat.digitChar (n % 16)] := by
  unfold hexDigits fill
  by_cases hsmall : n < 16
  · simp [Nat.toDigits_of_lt_base hsmall, Nat.div_eq_of_lt hsmall, Nat.mod_eq_of_lt hsmall,
      String.length]
  · have hhigh : n / 16 < 16 := by omega
    simp [Nat.toDigits_of_base_le (b := 16) (by decide) (Nat.le_of_not_lt hsmall),
      Nat.toDigits_of_lt_base hhigh]

/-- Bytes are told apart by their two hexadecimal digits. -/
theorem hex_two_inj {m n : Nat} (hm : m < 256) (hn : n < 256) (h : hex 2 m = hex 2 n) : m = n := by
  have hdigits : (hexDigits 2 m).toList = (hexDigits 2 n).toList := by
    rw [(String.append_right_inj "0x").1 h]
  rw [toList_hexDigits_two hm, toList_hexDigits_two hn, List.cons_eq_cons, List.cons_eq_cons]
    at hdigits
  have hhigh : m / 16 = n / 16 := digitChar_inj _ (by omega) _ (by omega) hdigits.1
  have hlow : m % 16 = n % 16 := digitChar_inj _ (by omega) _ (by omega) hdigits.2.1
  omega

/-! ## Lines -/

theorem toList_lines_cons (l : String) (ls : List String) :
    (lines (l :: ls)).toList = l.toList ++ '\n' :: (lines ls).toList := by
  unfold lines
  rw [String.toList_join, String.toList_join, List.map_cons, List.flatMap_cons,
    String.toList_append, List.append_assoc]
  rfl

/-- Lines are told apart in a text, if none has an end of line inside. -/
theorem lines_inj {ls ls' : List String} (hls : ∀ l ∈ ls, '\n' ∉ l.toList)
    (hls' : ∀ l ∈ ls', '\n' ∉ l.toList) (h : lines ls = lines ls') : ls = ls' := by
  replace h : (lines ls).toList = (lines ls').toList := congrArg String.toList h
  induction ls generalizing ls' with
  | nil =>
    cases ls' with
    | nil => rfl
    | cons l' ls' =>
      -- a line leaves at least its end
      rw [toList_lines_cons] at h
      exact absurd h (by simp [lines])
  | cons l ls ih =>
    cases ls' with
    | nil =>
      rw [toList_lines_cons] at h
      exact absurd h (by simp [lines])
    | cons l' ls' =>
      rw [toList_lines_cons, toList_lines_cons] at h
      rcases append_cons_inj (hls l List.mem_cons_self) (hls' l' List.mem_cons_self) h with
        ⟨hfirst, hrest⟩
      rw [String.toList_inj.1 hfirst, ih (fun l hl => hls l (List.mem_cons_of_mem _ hl))
        (fun l hl => hls' l (List.mem_cons_of_mem _ hl)) hrest]

end Text
end StackMachine
