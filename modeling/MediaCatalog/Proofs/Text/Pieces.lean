import MediaCatalog.Text.Blank
import MediaCatalog.Text.Piece
import Mathlib.Data.List.Basic

/-!
Texts cut at separators and stripped of white space. A text put together of pieces without separators is cut into these
pieces again, and a text without white space at its ends is what is left if some is put in front of it.
-/

namespace MediaCatalog.Text

theorem pieces_of_not_mem {sep : Char} {text : List Char} (h : sep ∉ text) : pieces sep text = [text] := by
  induction text with
  | nil => rfl
  | cons c text ih =>
      rw [List.mem_cons, not_or] at h
      rw [pieces, if_neg (Ne.symm h.1), ih h.2]

theorem pieces_append {sep : Char} {first : List Char} (h : sep ∉ first) (rest : List Char) :
    pieces sep (first ++ sep :: rest) = first :: pieces sep rest := by
  induction first with
  | nil => rw [List.nil_append, pieces, if_pos rfl]
  | cons c first ih =>
      rw [List.mem_cons, not_or] at h
      rw [List.cons_append, pieces, if_neg (Ne.symm h.1), ih h.2]

theorem exists_pieces_eq_of_mem {sep : Char} {first rest : List Char} (hfirst : sep ∉ first) (hrest : sep ∈ rest) :
    ∃ second third more, pieces sep (first ++ sep :: rest) = first :: second :: third :: more := by
  obtain ⟨second, later, rfl, hsecond⟩ := List.eq_append_cons_of_mem hrest
  obtain ⟨third, more, hmore⟩ := List.exists_cons_of_ne_nil (pieces_ne_nil sep later)
  exact ⟨second, third, more, by rw [pieces_append hfirst, pieces_append hsecond, hmore]⟩

/-- Whether a text begins and ends with other characters than white space, or is empty. -/
structure IsStripped (text : List Char) : Prop where
  first : ∀ c ∈ text.head?, ¬ isBlank c
  last : ∀ c ∈ text.getLast?, ¬ isBlank c

theorem dropWhile_of_head {p : Char → Bool} {text : List Char} (h : ∀ c ∈ text.head?, ¬ p c) :
    text.dropWhile p = text := by
  cases text with
  | nil => rfl
  | cons c text => exact List.dropWhile_cons_of_neg (h c rfl)

theorem stripChars_of_isStripped {text : List Char} (h : IsStripped text) : stripChars text = text := by
  have hlast : ∀ c ∈ text.reverse.head?, ¬ isBlank c := by
    rw [List.head?_reverse]
    exact h.last
  rw [stripChars, dropWhile_of_head h.first, dropWhile_of_head hlast, List.reverse_reverse]

theorem mem_of_mem_stripChars {c : Char} {text : List Char} (h : c ∈ stripChars text) : c ∈ text := by
  rw [stripChars, List.mem_reverse] at h
  exact (List.dropWhile_sublist _).mem (List.mem_reverse.mp ((List.dropWhile_sublist _).mem h))

theorem isStripped_stripChars (text : List Char) : IsStripped (stripChars text) := by
  have hhead : ∀ chars : List Char, ∀ c ∈ (chars.dropWhile isBlank).head?, ¬ isBlank c := by
    intro chars c hc
    have h := List.head?_dropWhile_not isBlank chars
    rw [Option.mem_def.mp hc] at h
    simpa using h
  refine ⟨fun c hc => ?_, fun c hc => ?_⟩
  · -- What is taken away at the end leaves the first character alone.
    have hfront : stripChars text <+: text.dropWhile isBlank := by
      rw [stripChars, ← List.reverse_suffix, List.reverse_reverse]
      exact List.dropWhile_suffix _
    obtain ⟨rest, hrest⟩ := hfront
    refine hhead text c ?_
    rw [← hrest, List.head?_append, Option.mem_def.mp hc]
    rfl
  · rw [stripChars, List.getLast?_reverse] at hc
    exact hhead _ c hc

theorem stripChars_cons {c : Char} (hc : isBlank c) (text : List Char) : stripChars (c :: text) = stripChars text := by
  rw [stripChars, List.dropWhile_cons_of_pos hc, stripChars]

end MediaCatalog.Text
