import MediaCatalog.Text.Lowercase
import Mathlib.Tactic.IntervalCases

/-!
Lowercasing by the letters `A` to `Z` alone is a part of full lowercasing: done first, it changes nothing of what comes
out in the end.
-/

namespace MediaCatalog.Text

theorem toLower_eq_self_or (c : Char) : c.toLower = c ∨ ∃ n, 65 ≤ n ∧ n ≤ 90 ∧ c = Char.ofNat n := by
  by_cases hupper : c.val ≥ 'A'.val ∧ c.val ≤ 'Z'.val
  · refine .inr ⟨c.toNat, ?_, ?_, (Char.ofNat_toNat c).symm⟩
    · exact UInt32.le_iff_toNat_le.mp hupper.1
    · exact UInt32.le_iff_toNat_le.mp hupper.2
  · exact .inl (dif_neg hupper)

theorem isCaseIgnorable_toLower (c : Char) : isCaseIgnorable c.toLower = isCaseIgnorable c := by
  rcases toLower_eq_self_or c with h | ⟨n, hlow, hhigh, rfl⟩
  · rw [h]
  · interval_cases n <;> decide

theorem isCased_toLower (c : Char) : isCased c.toLower = isCased c := by
  rcases toLower_eq_self_or c with h | ⟨n, hlow, hhigh, rfl⟩
  · rw [h]
  · interval_cases n <;> decide

theorem meetsCased_map_toLower (text : List Char) : meetsCased (text.map Char.toLower) = meetsCased text := by
  induction text with
  | nil => rfl
  | cons c rest ih =>
      rw [List.map_cons, meetsCased, meetsCased, isCaseIgnorable_toLower, isCased_toLower, ih]

theorem lowerBetween_toLower (before after : List Char) (c : Char) :
    lowerBetween (before.map Char.toLower) c.toLower (after.map Char.toLower) = lowerBetween before c after := by
  rcases toLower_eq_self_or c with h | ⟨n, hlow, hhigh, rfl⟩
  · rw [h, lowerBetween, lowerBetween, meetsCased_map_toLower, meetsCased_map_toLower]
  · rw [lowerBetween, lowerBetween, if_neg, if_neg]
    · interval_cases n <;> decide
    · interval_cases n <;> decide
    · interval_cases n <;> decide

theorem lowerFrom_map_toLower (before text : List Char) :
    lowerFrom (before.map Char.toLower) (text.map Char.toLower) = lowerFrom before text := by
  induction text generalizing before with
  | nil => rfl
  | cons c rest ih => rw [List.map_cons, lowerFrom, lowerFrom, lowerBetween_toLower, ← List.map_cons, ih]

theorem lowerFrom_append {text : List Char} (h : ∀ c ∈ text, c.toNat < 0x80 ∧ c.toLower = c) (before rest : List Char) :
    lowerFrom before (text ++ rest) = text ++ lowerFrom (text.reverse ++ before) rest := by
  induction text generalizing before with
  | nil => rfl
  | cons c text ih =>
      obtain ⟨hascii, hlower⟩ := h c List.mem_cons_self
      have hsigma : c ≠ 'Σ' := by
        rintro rfl
        exact absurd hascii (by decide)
      rw [List.cons_append, lowerFrom, ih fun c hc => h c (List.mem_cons_of_mem _ hc), lowerBetween, if_neg hsigma,
        lowerChar, if_pos hascii, hlower, List.reverse_cons, List.append_assoc]
      rfl

theorem lower_asciiLower (text : String) : lower (asciiLower text) = lower text := by
  rw [lower, asciiLower, String.toList_ofList]
  exact congrArg String.ofList (lowerFrom_map_toLower [] text.toList)

end MediaCatalog.Text
