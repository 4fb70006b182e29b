import MediaCatalog.Files.Tree
import MediaCatalog.Text.Blank
import MediaCatalog.Text.Utf8

/-!
Skip lists: text files that name directories to pass over, one a line. Empty lines and those that begin with a
number sign mean nothing.
-/

namespace MediaCatalog.Files

open Text

/-- Every way to end a line as a line feed. -/
def uniformLineEnds : List Char → List Char
  | [] => []
  | '\r' :: '\n' :: rest => '\n' :: uniformLineEnds rest
  | c :: rest => (if c = '\r' then '\n' else c) :: uniformLineEnds rest

def skipLine (line : List Char) : Option FilePath :=
  match stripChars line with
  | [] => none
  | '#' :: _ => none
  | path => some (FilePath.ofString (String.ofList path))

def skipPaths (text : List Char) : List FilePath :=
  (pieces '\n' (uniformLineEnds text)).filterMap skipLine

inductive SkipListError where
  | file (fault : FileFault) (path : FilePath)
  | encoding (fault : Utf8.Fault)

namespace SkipListError

def message : SkipListError → String
  | file fault path => fault.message path
  | encoding fault => fault.message

end SkipListError

def readSkipList (bytes : ByteArray) : Except SkipListError (List FilePath) :=
  match Utf8.decode bytes.toList with
  | .ok text => .ok (skipPaths text).eraseDups
  | .error fault => .error (.encoding fault)

/-- The paths that the skip list at a path names; there are none if nothing is there. -/
def FileTree.loadSkipList (tree : FileTree) (seenFrom : FilePath) (path : Option FilePath) :
    Except SkipListError (List FilePath) :=
  match path with
  | none => .ok []
  | some path =>
    match tree.read (seenFrom.join path) with
    | .ok bytes => readSkipList bytes
    | .error .missing => .ok []
    | .error .notDirectory => .ok []
    | .error .tooManyLinks => .ok []
    | .error fault => .error (.file fault path)

end MediaCatalog.Files
