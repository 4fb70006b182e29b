import MediaCatalog.Text.Base64
import Mathlib.Data.String.Basic
import Mathlib.Tactic.IntervalCases

/-!
Base 64 is read back, so that different bytes, and different texts, are written differently.
-/

namespace MediaCatalog.Text.Base64

def value? (c : Char) : Option Nat :=
  if c.isUpper then some (c.toNat - 'A'.toNat)
  else if c.isLower then some (c.toNat - 'a'.toNat + 26)
  else if c.isDigit then some (c.toNat - '0'.toNat + 52)
  else if c = '+' then some 62
  else if c = '/' then some 63
  else none

/-- The bytes that are written in base 64; only the last group may be filled up. -/
def decode : List Char → Option (List UInt8)
  | [] => some []
  | a :: b :: c :: d :: rest => do
    let n := (← value? a) * 262144 + (← value? b) * 4096
    if rest = [] ∧ c = '=' ∧ d = '=' then
      return [UInt8.ofNat (n / 65536)]
    let n := n + (← value? c) * 64
    if rest = [] ∧ d = '=' then
      return [UInt8.ofNat (n / 65536), UInt8.ofNat (n / 256)]
    let n := n + (← value? d)
    return UInt8.ofNat (n / 65536) :: UInt8.ofNat (n / 256) :: UInt8.ofNat n :: (← decode rest)
  | _ => none

theorem value_digit {value : Nat} (h : value < 64) : value? (digit value) = some value := by
  interval_cases value <;> rfl

theorem digit_ne_pad {value : Nat} (h : value < 64) : digit value ≠ '=' := by
  interval_cases value <;> decide

theorem ofNat_eq_of_mod {n : Nat} (byte : UInt8) (h : n % 256 = byte.toNat) : UInt8.ofNat n = byte := by
  rw [← UInt8.ofNat_mod_size, h, UInt8.ofNat_toNat]

theorem decode_encode (bytes : List UInt8) : decode (encode bytes) = some bytes := by
  fun_induction encode bytes with
  | case1 => rfl
  | case2 a n =>
      have ha := a.toNat_lt
      rw [decode, value_digit (by omega), value_digit (by omega)]
      simp only [Option.bind_eq_bind, Option.bind_some, and_self, if_true, Option.pure_def]
      rw [ofNat_eq_of_mod a (by omega)]
  | case3 a b n =>
      have ha := a.toNat_lt
      have hb := b.toNat_lt
      rw [decode, value_digit (by omega), value_digit (by omega), value_digit (by omega)]
      have hpad : digit (n / 64 % 64) ≠ '=' := digit_ne_pad (by omega)
      simp only [Option.bind_eq_bind, Option.bind_some, hpad, and_self, and_false, false_and, if_true, if_false,
        Option.pure_def]
      rw [ofNat_eq_of_mod a (by omega), ofNat_eq_of_mod b (by omega)]
  | case4 a b c rest n ih =>
      have ha := a.toNat_lt
      have hb := b.toNat_lt
      have hc := c.toNat_lt
      rw [decode, value_digit (by omega), value_digit (by omega), value_digit (by omega), value_digit (by omega), ih]
      have hpad : digit (n % 64) ≠ '=' := digit_ne_pad (by omega)
      simp only [Option.bind_eq_bind, Option.bind_some, hpad, and_false, if_false, Option.pure_def]
      rw [ofNat_eq_of_mod a (by omega), ofNat_eq_of_mod b (by omega),
        ofNat_eq_of_mod c (by omega)]

theorem encode_injective : Function.Injective encode := by
  intro first second h
  have hdecoded := congrArg decode h
  rw [decode_encode, decode_encode] at hdecoded
  exact Option.some.inj hdecoded

theorem decode_encodeText (text : String) : decode (encodeText text).toList = some text.toUTF8.toList := by
  rw [encodeText, String.toList_ofList, decode_encode]

theorem toList_loop (bytes : ByteArray) (i : Nat) (before : List UInt8) :
    ByteArray.toList.loop bytes i before = before.reverse ++ bytes.data.toList.drop i := by
  fun_induction ByteArray.toList.loop bytes i before with
  | case1 i before hlt ih =>
      have hget : bytes.get! i = bytes.data.toList[i] := getElem!_pos bytes.data i hlt
      rw [ih, hget, List.reverse_cons, List.append_assoc, List.singleton_append, List.getElem_cons_drop]
  | case2 i before hge => rw [List.drop_eq_nil_of_le (Nat.not_lt.mp hge), List.append_nil]

theorem toList_eq_data (bytes : ByteArray) : bytes.toList = bytes.data.toList :=
  toList_loop bytes 0 []

theorem encodeText_injective : Function.Injective encodeText := by
  intro first second h
  have hbytes := encode_injective (String.ofList_injective h)
  rw [toList_eq_data, toList_eq_data] at hbytes
  exact String.toByteArray_inj.mp (ByteArray.ext (Array.toList_inj.mp hbytes))

end MediaCatalog.Text.Base64
