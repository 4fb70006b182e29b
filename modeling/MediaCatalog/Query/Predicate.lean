import MediaCatalog.Calendar.Reader
import MediaCatalog.Query.Constraint
import MediaCatalog.Query.Token

/-!
Predicates, the atoms of queries: a keyword and its arguments, as in `tag:cat` or `loc:city:paris`.
-/

namespace MediaCatalog.Query

open Calendar Text

inductive QueryError where
  | lexical (message : String)
  /-- The query ends where an operand has to be. -/
  | expectedOperand (found : Token)
  /-- Something else stands where a predicate has to be. -/
  | expectedPredicate (found : Token)
  | closeWithoutOpen
  | openWithoutClose
  | unsupportedPredicate (keyword : String)
  /-- The predicate for places has no argument or more than two. -/
  | locationArguments
  /-- Another predicate has not exactly one argument. -/
  | singleArgument (keyword : String)
  | locationField
  | invalidDate (value : String)
deriving DecidableEq

namespace QueryError

def message : QueryError → String
  | lexical message => message
  | expectedOperand found => "expected operand, got " ++ found.written
  | expectedPredicate found => "expected predicate, got " ++ found.written
  | closeWithoutOpen => "found ) without ("
  | openWithoutClose => "no matching ) for ("
  | unsupportedPredicate keyword => "unsupported predicate: " ++ keyword
  | locationArguments => "loc: requires 1 or 2 arguments"
  | singleArgument keyword => keyword ++ ": requires 1 argument"
  | locationField => "field must be 'any', 'label', 'city', or 'region'"
  | invalidDate value => "invalid date: " ++ quoted value

end QueryError

def readLocationField (name : String) : Except QueryError LocationField :=
  (LocationField.ofName name).mapError fun _ => .locationField

/-- A year, or a year and a month, is the first day of it; all else stays as it is. -/
def completeDate (text : List Char) : List Char :=
  match readNumeral 4 text with
  | some (_, []) => text ++ ['-', '0', '1', '-', '0', '1']
  | some (_, '-' :: rest) =>
    match readNumeral 2 rest with
    | some (_, []) => text ++ ['-', '0', '1']
    | _ => text
  | _ => text

/-- The date that a query names; without an offset it is one of universal time. -/
def readDate (value : String) : Except QueryError DateTime :=
  match DateTime.ofChars? (completeDate value.toList) with
  | some date => .ok date.assumeUtc
  | none => .error (.invalidDate value)

def singlePredicate? (keyword : String) : Option (String → Except QueryError Constraint) :=
  match keyword with
  | "after" => some fun value => (readDate value).map Constraint.onOrAfter
  | "before" => some fun value => (readDate value).map Constraint.before
  | "is" => some fun value => .ok (Constraint.ofMediaType value)
  | "format" => some fun value => .ok (Constraint.ofMediaSubtype value)
  | "filename" => some fun value => .ok (Constraint.ofFilename value)
  | "tag" => some fun value => .ok (Constraint.ofTag value)
  | _ => none

def locationPredicate : List String → Except QueryError Constraint
  | [value] => .ok (Constraint.ofLocation .any value)
  | [field, value] => (readLocationField field).map fun field => Constraint.ofLocation field value
  | _ => .error .locationArguments

def buildPredicate (keyword : String) (args : List String) : Except QueryError Constraint :=
  if keyword = "loc" then locationPredicate args
  else
    match singlePredicate? keyword, args with
    | none, _ => .error (.unsupportedPredicate keyword)
    | some build, [value] => build value
    | some _, _ => .error (.singleArgument keyword)

end MediaCatalog.Query
