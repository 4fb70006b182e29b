import MediaCatalog.Text.Numeral
import Mathlib.Data.List.Lex
import Mathlib.Tactic.IntervalCases
import Mathlib.Tactic.Tauto

/-!
Numerals of a fixed width are read back as the numbers they were written for, so that different numbers of that width
have different numerals, and they are in the order of their numbers, whatever is written behind them.
-/

namespace MediaCatalog.Text

theorem asciiDigit_digitChar {digit : Nat} (h : digit < 10) :
    asciiDigit? (Nat.digitChar digit) = some digit := by
  interval_cases digit <;> rfl

theorem exists_digit_of_mem_fixedNumeral {base width n : Nat} {c : Char} (hbase : 0 < base)
    (h : c ∈ fixedNumeral base width n) : ∃ digit < base, c = Nat.digitChar digit := by
  induction width generalizing n with
  | zero => exact absurd h (List.not_mem_nil)
  | succ width ih =>
      rcases List.mem_append.mp h with h | h
      · exact ih h
      · exact ⟨n % base, Nat.mod_lt n hbase, List.mem_singleton.mp h⟩

theorem isDigit_of_mem_decimal {width n : Nat} {c : Char} (h : c ∈ decimal width n) : c.isDigit := by
  obtain ⟨digit, hdigit, rfl⟩ := exists_digit_of_mem_fixedNumeral (by decide) h
  interval_cases digit <;> rfl

theorem digitChar_injective :
    ∀ first < 16, ∀ second < 16, Nat.digitChar first = Nat.digitChar second → first = second := by
  decide

theorem fixedNumeral_injective {base width first second : Nat} (hbase : base ≤ 16) (hfirst : first < base ^ width)
    (hsecond : second < base ^ width) (h : fixedNumeral base width first = fixedNumeral base width second) :
    first = second := by
  induction width generalizing first second with
  | zero => exact (Nat.lt_one_iff.mp hfirst).trans (Nat.lt_one_iff.mp hsecond).symm
  | succ width ih =>
      have hpositive : 0 < base := Nat.pos_of_ne_zero (by rintro rfl; simp at hfirst)
      obtain ⟨hdigits, hlast⟩ := List.append_inj' h rfl
      have hquotient := ih (Nat.div_lt_of_lt_mul (by rwa [← Nat.pow_succ']))
        (Nat.div_lt_of_lt_mul (by rwa [← Nat.pow_succ'])) hdigits
      have hremainder := digitChar_injective _ ((Nat.mod_lt first hpositive).trans_le hbase) _
        ((Nat.mod_lt second hpositive).trans_le hbase) (List.singleton_inj.mp hlast)
      rw [← Nat.div_add_mod first base, ← Nat.div_add_mod second base, hquotient, hremainder]

/-- The digits of a number, filled up with zeros on the left. -/
def paddedDigits (base width n : Nat) : List Char :=
  (Nat.toDigits base n).leftpad width '0'

theorem fixedNumeral_zero (base width : Nat) : fixedNumeral base width 0 = List.replicate width '0' := by
  induction width with
  | zero => rfl
  | succ width ih =>
      rw [fixedNumeral, Nat.zero_div, Nat.zero_mod, ih, List.replicate_succ']
      rfl

theorem fixedNumeral_eq_paddedDigits {base width n : Nat} (hbase : 1 < base) (hwidth : 0 < width)
    (h : n < base ^ width) : fixedNumeral base width n = paddedDigits base width n := by
  induction width generalizing n with
  | zero => exact absurd hwidth (Nat.lt_irrefl 0)
  | succ width ih =>
      rw [fixedNumeral, paddedDigits]
      rcases Nat.lt_or_ge n base with hlt | hle
      · rw [Nat.toDigits_of_lt_base hlt, Nat.div_eq_of_lt hlt, Nat.mod_eq_of_lt hlt, fixedNumeral_zero, List.leftpad,
          List.length_singleton, Nat.add_sub_cancel]
      · have hpositive : 0 < width := by
          refine Nat.pos_of_ne_zero ?_
          rintro rfl
          rw [Nat.zero_add, Nat.pow_one] at h
          exact absurd h (Nat.not_lt.mpr hle)
        have hquotient : n / base < base ^ width := Nat.div_lt_of_lt_mul (by rwa [← Nat.pow_succ'])
        rw [Nat.toDigits_of_base_le hbase hle, ih hpositive hquotient, paddedDigits, List.leftpad, List.leftpad,
          List.length_append, List.length_singleton, Nat.add_sub_add_right, List.append_assoc]

theorem readNumeralFrom_add (value first second : Nat) (text : List Char) :
    readNumeralFrom value (first + second) text =
      (readNumeralFrom value first text).bind fun (value, rest) =>
        readNumeralFrom value second rest := by
  induction first generalizing value text with
  | zero => rw [Nat.zero_add, readNumeralFrom, Option.bind_some]
  | succ first ih =>
      rw [Nat.add_right_comm]
      cases text with
      | nil => rw [readNumeralFrom, readNumeralFrom, Option.bind_none]
      | cons c text =>
          rw [readNumeralFrom, readNumeralFrom]
          cases asciiDigit? c with
          | none => rfl
          | some digit => exact ih (10 * value + digit) text

theorem readNumeralFrom_decimal (value : Nat) {width n : Nat} (h : n < 10 ^ width)
    (rest : List Char) :
    readNumeralFrom value width (decimal width n ++ rest) = some (10 ^ width * value + n, rest) := by
  induction width generalizing n rest with
  | zero =>
      obtain rfl : n = 0 := by omega
      rw [Nat.pow_zero, Nat.one_mul, Nat.add_zero]
      rfl
  | succ width ih =>
      have hlt : n / 10 < 10 ^ width := by
        rw [Nat.pow_succ] at h
        omega
      have hdigit := asciiDigit_digitChar (Nat.mod_lt n (by decide : 0 < 10))
      rw [readNumeralFrom_add, decimal, fixedNumeral, List.append_assoc, ih hlt, Option.bind_some,
        List.singleton_append]
      simp only [readNumeralFrom, hdigit, Option.some.injEq, Prod.mk.injEq, and_true]
      rw [Nat.pow_succ, Nat.mul_add, Nat.mul_comm (10 ^ width) 10, Nat.mul_assoc]
      omega

theorem readNumeral_decimal {width n : Nat} (h : n < 10 ^ width) (rest : List Char) :
    readNumeral width (decimal width n ++ rest) = some (n, rest) := by
  rw [readNumeral, readNumeralFrom_decimal 0 h, Nat.mul_zero, Nat.zero_add]

theorem append_lt_append_iff {first second rest rest' : List Char} (h : first.length = second.length) :
    first ++ rest < second ++ rest' ↔ first < second ∨ first = second ∧ rest < rest' := by
  induction first generalizing second with
  | nil =>
      obtain rfl := List.length_eq_zero_iff.mp h.symm
      simp
  | cons c first ih =>
      cases second with
      | nil => cases h
      | cons c' second =>
          rw [List.cons_append, List.cons_append, List.cons_lt_cons_iff, List.cons_lt_cons_iff, ih (Nat.succ.inj h),
            List.cons.injEq]
          tauto

theorem digitChar_lt_iff :
    ∀ first < 16, ∀ second < 16, Nat.digitChar first < Nat.digitChar second ↔ first < second := by
  decide

theorem decimal_lt_iff {width first second : Nat} (hfirst : first < 10 ^ width) (hsecond : second < 10 ^ width) :
    decimal width first < decimal width second ↔ first < second := by
  induction width generalizing first second with
  | zero =>
      rw [Nat.lt_one_iff.mp hfirst, Nat.lt_one_iff.mp hsecond]
      simp
  | succ width ih =>
      rw [Nat.pow_succ] at hfirst hsecond
      have hlength : (decimal width (first / 10)).length = (decimal width (second / 10)).length := by
        rw [length_fixedNumeral, length_fixedNumeral]
      have hquotient : decimal width (first / 10) = decimal width (second / 10) ↔ first / 10 = second / 10 :=
        ⟨fixedNumeral_injective (by decide) (by omega) (by omega), congrArg _⟩
      have hdigit := digitChar_lt_iff (first % 10) (by omega) (second % 10) (by omega)
      rw [decimal, decimal, fixedNumeral, fixedNumeral, append_lt_append_iff hlength, hquotient, ih (by omega) (by omega),
        List.cons_lt_cons_iff, hdigit]
      simp only [List.not_lt_nil, and_false, or_false]
      omega

theorem decimal_append_lt_iff {width first second : Nat} (hfirst : first < 10 ^ width) (hsecond : second < 10 ^ width)
    (rest rest' : List Char) :
    decimal width first ++ rest < decimal width second ++ rest' ↔ first < second ∨ first = second ∧ rest < rest' := by
  have hlength : (decimal width first).length = (decimal width second).length := by
    rw [length_fixedNumeral, length_fixedNumeral]
  have heq : decimal width first = decimal width second ↔ first = second :=
    ⟨fixedNumeral_injective (by decide) hfirst hsecond, congrArg _⟩
  rw [append_lt_append_iff hlength, decimal_lt_iff hfirst hsecond, heq]

end MediaCatalog.Text
