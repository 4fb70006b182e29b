import MediaCatalog.Text.Quoted

/-!
Names that have to be one of a few.
-/

namespace MediaCatalog.Text

/-- A name that is none of the choices there are; `choices` says what these are called. -/
structure UnknownChoice where
  name : String
  choices : String
deriving DecidableEq

namespace UnknownChoice

def message (error : UnknownChoice) : String :=
  quoted error.name ++ " is not a valid " ++ error.choices

end UnknownChoice

def choose {α : Type} (choices name : String) (named : List (String × α)) :
    Except UnknownChoice α :=
  match named.lookup name with
  | some value => .ok value
  | none => .error ⟨name, choices⟩

end MediaCatalog.Text
