import MediaCatalog.Text.Csv

/-!
Reading comma separated values. A field stands between quotes or holds neither quotes nor commas nor line ends;
records end with a carriage return and a line feed, which the last one may lack.
-/

namespace MediaCatalog.Text.Csv

/-- Where a reader is. -/
inductive Place where
  | recordStart
  | fieldStart
  | bare
  | quoted
  /-- After a quote in a field with quotes: the field ends, or a second quote stands for one. -/
  | quoteSeen
deriving DecidableEq

namespace Place

/-- Whether a comma, a line end or the end of the text can end a field here. -/
def endsField (place : Place) : Bool :=
  place ≠ quoted

def beginsField (place : Place) : Bool :=
  place = recordStart || place = fieldStart

end Place

abbrev Records := List (List (List Char))

/-- Puts a character at the front of the first field. -/
def consChar (c : Char) : Records → Records
  | (first :: fields) :: later => ((c :: first) :: fields) :: later
  | [] :: later => [[c]] :: later
  | [] => [[[c]]]

def consField : Records → Records
  | fields :: later => ([] :: fields) :: later
  | [] => [[[], []]]

/-- Reads on from a place in a field: the first field of the first record is what is left of that field. -/
def readFrom : Place → List Char → Option Records
  | .recordStart, [] => some []
  | place, [] => if place.endsField then some [[[]]] else none
  | .quoted, '"' :: rest => readFrom .quoteSeen rest
  | .quoted, c :: rest => (readFrom .quoted rest).map (consChar c)
  | .quoteSeen, '"' :: rest => (readFrom .quoted rest).map (consChar '"')
  | _, ',' :: rest => (readFrom .fieldStart rest).map consField
  | _, '\r' :: '\n' :: rest => (readFrom .recordStart rest).map ([[]] :: ·)
  | place, c :: rest =>
    if c = '"' then (if place.beginsField then readFrom .quoted rest else none)
    else if c = '\r' ∨ c = '\n' ∨ place = .quoteSeen then none
    else (readFrom .bare rest).map (consChar c)

def read? (text : String) : Option (List (List String)) :=
  (readFrom .recordStart text.toList).map fun records =>
    records.map fun fields => fields.map String.ofList

end MediaCatalog.Text.Csv
