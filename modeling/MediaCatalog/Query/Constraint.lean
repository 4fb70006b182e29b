import MediaCatalog.Asset.Basic
import MediaCatalog.Text.Choice

/-!
Constraints: what a query demands of an asset. Texts in a constraint are in lowercase; the functions named for
what they demand see to that.
-/

namespace MediaCatalog.Query

open Calendar Text

inductive LocationField where
  | any
  | label
  | city
  | region
deriving DecidableEq

namespace LocationField

def name : LocationField → String
  | any => "any"
  | label => "label"
  | city => "city"
  | region => "region"

def ofName (name : String) : Except UnknownChoice LocationField :=
  choose "LocationField" name ([any, label, city, region].map fun field => (field.name, field))

/-- The part of a place that a field names; `any` has no part of its own. -/
def part (place : Location) : LocationField → Option String
  | label => place.label
  | city => place.city
  | region => place.region
  | any => none

end LocationField

inductive Constraint where
  | and (first second : Constraint)
  | or (first second : Constraint)
  | not (inner : Constraint)
  | filename (name : String)
  | mediaType (type : String)
  | mediaSubtype (subtype : String)
  | tag (tag : String)
  /-- A part of the place is this one, or, if the value is empty, is missing. -/
  | location (field : LocationField) (value : String)
  | onOrAfter (date : DateTime)
  | before (date : DateTime)
  /-- Nothing holds it; it stands for a query without any demand. -/
  | empty
deriving DecidableEq

/-- The two parts of a media type in lowercase, without suffix and parameters. -/
def splitMediaType (mediaType : String) : Option (String × String) :=
  let essence := lowerChars (stripChars (Text.before ';' mediaType.toList))
  match after? '/' essence with
  | none => none
  | some rest =>
    let type := Text.before '/' essence
    let subtype := Text.before '+' rest
    if type.isEmpty || subtype.isEmpty then none
    else some (String.ofList type, String.ofList subtype)

namespace Constraint

def ofFilename (name : String) : Constraint :=
  filename (lower name)

def ofMediaType (type : String) : Constraint :=
  mediaType (lower type)

def ofMediaSubtype (subtype : String) : Constraint :=
  mediaSubtype (lower subtype)

def ofTag (name : String) : Constraint :=
  tag (lower name)

def ofLocation (field : LocationField) (value : String) : Constraint :=
  location field (lower value)

/-- Whether an asset's place is as demanded. Without a value the part, or some part for `any`, must be
missing; with one the part must be equal to it, or some part must contain it. -/
def acceptsPlace (field : LocationField) (value : String) (place : Option Location) : Bool :=
  if value = "" then
    match field with
    | .any => (place.getD {}).parts.any Option.isNone
    | _ => (field.part (place.getD {})).isNone
  else
    match field with
    | .any => place.any (·.mentions value)
    | _ => (field.part (place.getD {})).any fun part => lower part == value

def accepts : Constraint → Asset → Bool
  | and first second, asset => first.accepts asset && second.accepts asset
  | or first second, asset => first.accepts asset || second.accepts asset
  | not inner, asset => !inner.accepts asset
  | filename name, asset => name == lower asset.filename
  | mediaType type, asset => (splitMediaType asset.mediaType).any (·.1 == type)
  | mediaSubtype subtype, asset => (splitMediaType asset.mediaType).any (·.2 == subtype)
  | tag name, asset => asset.tags.any fun t => lower t == name
  | location field value, asset => acceptsPlace field value asset.location
  | onOrAfter date, asset => date.instant ≤ asset.bestDate.instant
  | before date, asset => asset.bestDate.instant < date.instant
  | empty, _ => false

end Constraint

end MediaCatalog.Query
