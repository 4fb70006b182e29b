import MediaCatalog.Text.Blank
import MediaCatalog.Text.Lowercase
import MediaCatalog.Text.Piece

/-!
The place where an asset was captured: a label, a city and a region, each of which may be missing.
-/

namespace MediaCatalog

open Text

/-- A place. The label is the owner's name for it; the region is a state, a province or a country. -/
structure Location where
  label : Option String := none
  city : Option String := none
  region : Option String := none
deriving DecidableEq, Inhabited

namespace Location

def nonempty? (part : Option String) : Option String :=
  part.filter (· ≠ "")

/-- A place from parts of which the empty ones are missing. -/
def ofParts (label city region : List Char) : Location where
  label := nonempty? (some (String.ofList (stripChars label)))
  city := nonempty? (some (String.ofList (stripChars city)))
  region := nonempty? (some (String.ofList (stripChars region)))

/-- Reads `label`, `label; city`, `label; city, region` or `city, region`. A text with more separators than
that is a label as it stands. -/
def ofString (text : String) : Location :=
  if text = "" then {}
  else
    let chars := text.toList
    match pieces ';' chars with
    | [place] =>
      match pieces ',' place with
      | [city, region] => ofParts [] city region
      | _ => { label := some text }
    | [label, place] =>
      match pieces ',' place with
      | [city] => ofParts label city []
      | [city, region] => ofParts label city region
      | _ => { label := some text }
    | _ => { label := some text }

def parts (place : Location) : List (Option String) :=
  [place.label, place.city, place.region]

def hasValues (place : Location) : Bool :=
  place.parts.any Option.isSome

/-- Whether a text occurs in the lowercase of some part that is not empty. -/
def mentions (place : Location) (text : String) : Bool :=
  place.parts.any fun part =>
    match nonempty? part with
    | some value => occursIn text.toList (lower value).toList
    | none => false

/-- The written form; parts that are missing or empty leave out their separators. -/
def written (place : Location) : String :=
  match nonempty? place.label, nonempty? place.city, nonempty? place.region with
  | some label, some city, some region => label ++ "; " ++ city ++ ", " ++ region
  | none, some city, some region => city ++ ", " ++ region
  | some label, some city, none => label ++ "; " ++ city
  | some label, none, some region => label ++ "; " ++ region
  | some label, none, none => label
  | none, some city, none => city
  | none, none, some region => region
  | none, none, none => ""

end Location

end MediaCatalog
