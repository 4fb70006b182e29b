/-!
Text set in columns: a text is filled with spaces to a width, counted in characters.
-/

namespace MediaCatalog.Text

/-- Fills up with spaces on the right; a longer text stays as it is. -/
def padRight (width : Nat) (text : String) : String :=
  text ++ String.ofList (List.replicate (width - text.length) ' ')

/-- Fills up with spaces on the left; a longer text stays as it is. -/
def padLeft (width : Nat) (text : String) : String :=
  String.ofList (List.replicate (width - text.length) ' ') ++ text

def rule (n : Nat) (c : Char) : String :=
  String.ofList (List.replicate n c)

end MediaCatalog.Text
