import MediaCatalog.Text.Lowercase
import MediaCatalog.Text.Piece

/-!
Paths of files. Dots that stand for the same directory and repeated slashes mean nothing and are left out; what
two dots mean depends on the files, so they stay.
-/

namespace MediaCatalog.Files

open Text

/-- Where a path begins. Two slashes are a root of their own. -/
inductive Root where
  | relative
  | slash
  | doubleSlash
deriving DecidableEq

namespace Root

def written : Root → String
  | relative => ""
  | slash => "/"
  | doubleSlash => "//"

/-- The root of a written path: exactly two slashes are a root of their own, three or more are one. -/
def ofChars : List Char → Root
  | '/' :: '/' :: '/' :: _ => slash
  | '/' :: '/' :: _ => doubleSlash
  | '/' :: _ => slash
  | _ => relative

end Root

structure FilePath where
  root : Root
  parts : List String
deriving DecidableEq

namespace FilePath

def ofString (text : String) : FilePath where
  root := Root.ofChars text.toList
  parts := ((pieces '/' text.toList).map String.ofList).filter fun part => part ≠ "" ∧ part ≠ "."

def written (path : FilePath) : String :=
  if path.root = .relative ∧ path.parts = [] then "."
  else path.root.written ++ "/".intercalate path.parts

def join (base path : FilePath) : FilePath :=
  if path.root = .relative then { base with parts := base.parts ++ path.parts } else path

def child (path : FilePath) (name : String) : FilePath :=
  { path with parts := path.parts ++ [name] }

def name (path : FilePath) : String :=
  path.parts.getLast?.getD ""

/-- Whether a path is another one or leads through it. -/
def isWithin (path ancestor : FilePath) : Bool :=
  path.root = ancestor.root && ancestor.parts.isPrefixOf path.parts

end FilePath

def splitLastDot (name : List Char) : Option (List Char × List Char) :=
  match name.reverse.dropWhile (· != '.') with
  | [] => none
  | dot :: stem => some (stem.reverse, dot :: (name.reverse.takeWhile (· != '.')).reverse)

/-- The part of a name from its last dot on. A dot at either end of the name begins no extension. -/
def extension (name : String) : String :=
  match splitLastDot name.toList with
  | some (stem, ext) => if stem.isEmpty || ext.length ≤ 1 then "" else String.ofList ext
  | none => ""

end MediaCatalog.Files
