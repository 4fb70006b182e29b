/-!
The pieces of a text between the occurrences of a separator.
-/

namespace MediaCatalog.Text

/-- The pieces between all separators; there is always one more of them than separators. -/
def pieces (sep : Char) : List Char → List (List Char)
  | [] => [[]]
  | c :: rest =>
    if c = sep then [] :: pieces sep rest
    else
      match pieces sep rest with
      | [] => [[c]]
      | piece :: later => (c :: piece) :: later

theorem pieces_ne_nil (sep : Char) (text : List Char) : pieces sep text ≠ [] := by
  cases text with
  | nil => simp [pieces]
  | cons c rest =>
      rw [pieces]
      split
      · simp
      · split <;> simp

def before (sep : Char) (text : List Char) : List Char :=
  text.takeWhile (· != sep)

def after? (sep : Char) (text : List Char) : Option (List Char) :=
  match text.dropWhile (· != sep) with
  | [] => none
  | _ :: rest => some rest

/-- Whether `piece` occurs in `text` as a run of neighbouring characters. -/
def occursIn (piece : List Char) : List Char → Bool
  | [] => piece.isEmpty
  | c :: rest => piece.isPrefixOf (c :: rest) || occursIn piece rest

theorem occursIn_iff (piece text : List Char) : occursIn piece text ↔ piece <:+: text := by
  induction text with
  | nil => simp [occursIn]
  | cons c rest ih => simp [occursIn, ih, List.infix_cons_iff]

end MediaCatalog.Text
