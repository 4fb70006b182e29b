import MediaCatalog.Files.Path
import MediaCatalog.Text.Quoted

/-!
A tree of files: directories with entries that have names, regular files with bytes, and links to paths. Finding
a path in it follows links, also the last one, but not more of them than `maxLinks`. The real path of a path follows as
many as there are.

Names and targets are Unicode texts. Left out are names of bytes that are no UTF-8, which would be texts with lone
surrogates, and real paths through a link that leads back to itself: there are none here, also where `..` behind the
link takes its name away.
-/

namespace MediaCatalog.Files

open Text

inductive FileFault where
  | missing
  | denied
  | notDirectory
  | isDirectory
  | tooManyLinks
deriving DecidableEq

namespace FileFault

def number : FileFault → Nat
  | missing => 2
  | denied => 13
  | notDirectory => 20
  | isDirectory => 21
  | tooManyLinks => 40

def name : FileFault → String
  | missing => "No such file or directory"
  | denied => "Permission denied"
  | notDirectory => "Not a directory"
  | isDirectory => "Is a directory"
  | tooManyLinks => "Too many levels of symbolic links"

def message (fault : FileFault) (path : FilePath) : String :=
  "[Errno " ++ fault.number.repr ++ "] " ++ fault.name ++ ": " ++ quoted path.written

end FileFault

/-- The tags that a file holds about itself, or the reason why they cannot be read. -/
abbrev EmbeddedTags := Except String (List (String × String))

structure FileContent where
  bytes : ByteArray
  readable : Bool := true
  embedded : EmbeddedTags := .ok []

inductive Entry where
  | file (name : String) (content : FileContent)
  | link (name : String) (target : String)
  | directory (name : String) (listable : Bool) (entries : List Entry)

namespace Entry

def name : Entry → String
  | file name _ => name
  | link name _ => name
  | directory name _ _ => name

def entries : Entry → List Entry
  | directory _ _ entries => entries
  | _ => []

def isDirectory : Entry → Bool
  | directory _ _ _ => true
  | _ => false

def emptyDirectory (name : String) : Entry :=
  directory name true []

def find? (entry : Entry) (name : String) : Option Entry :=
  entry.entries.find? fun e => e.name = name

def at? (entry : Entry) : List String → Option Entry
  | [] => some entry
  | name :: rest =>
    match entry.find? name with
    | some inner => inner.at? rest
    | none => none

theorem mem_entries_of_find {entry inner : Entry} {name : String} (h : entry.find? name = some inner) :
    inner ∈ entry.entries :=
  List.mem_of_find?_eq_some h

theorem name_of_find {entry inner : Entry} {name : String} (h : entry.find? name = some inner) :
    inner.name = name := by
  simpa using List.find?_some h

theorem at_cons_eq_some_iff {entry found : Entry} {name : String} {names : List String} :
    entry.at? (name :: names) = some found ↔
      ∃ inner, entry.find? name = some inner ∧ inner.at? names = some found := by
  rw [at?]
  cases entry.find? name with
  | none => simp
  | some inner => simp

/-- The entries with one put in the place of the entry of its name, or at the end. -/
def putEntry (new : Entry) : List Entry → List Entry
  | [] => [new]
  | e :: rest => if e.name = new.name then new :: rest else e :: putEntry new rest

/-- Puts an entry at a path without links, and makes the directories on the way. A directory that is there
already keeps its entries. -/
def put (old : Entry) (path : List String) (new : Entry) : Entry :=
  match path with
  | [] =>
    match new, old with
    | directory _ listable [], directory name _ entries => directory name listable entries
    | _, _ => new
  | name :: rest =>
    match old with
    | directory own listable entries =>
      let inner := (old.find? name).getD (emptyDirectory name)
      directory own listable (putEntry (inner.put rest new) entries)
    | _ => old

def remove : (path : List String) → Entry → Entry
  | [], old => old
  | [name], directory own listable entries =>
    directory own listable (entries.filter fun e => e.name ≠ name)
  | name :: rest, directory own listable entries =>
    directory own listable (entries.map fun e => if e.name = name then remove rest e else e)
  | _, old => old

/-- The places below an entry where links are. -/
def linkPlaces : Entry → List (List String)
  | file _ _ => []
  | link _ _ => [[]]
  | directory _ _ entries => entries.flatMap fun e => e.linkPlaces.map (e.name :: ·)

theorem mem_linkPlaces {entry : Entry} {place : List String} {own target : String}
    (h : entry.at? place = some (link own target)) : place ∈ entry.linkPlaces := by
  induction place generalizing entry with
  | nil =>
      obtain rfl := Option.some.inj h
      rw [linkPlaces]
      exact List.mem_singleton_self _
  | cons name rest ih =>
      obtain ⟨inner, hinner, hat⟩ := at_cons_eq_some_iff.mp h
      have hmem := mem_entries_of_find hinner
      cases entry with
      | file | link => cases hmem
      | directory own listable entries =>
          rw [linkPlaces, List.mem_flatMap]
          exact ⟨inner, hmem, List.mem_map.mpr ⟨rest, ih hat, by rw [name_of_find hinner]⟩⟩

end Entry

structure FileTree where
  root : Entry

namespace FileTree

def empty : FileTree :=
  ⟨Entry.emptyDirectory ""⟩

/-- As many links as a lookup follows in all. -/
def maxLinks : Nat :=
  40

/-- Follows the links of a path in a lookup, at most as many as `links`. `trail` holds the names that were passed, the
nearest first. If `strict`, every name on the way must be there; if not, names that are not there stay as they are. -/
def followFrom (tree : FileTree) (strict : Bool) (links : Nat) (trail parts : List String) :
    Except FileFault (List String) :=
  match parts with
  | [] => .ok trail.reverse
  | name :: rest =>
    let here := tree.root.at? trail.reverse
    if strict && !here.any Entry.isDirectory then .error .notDirectory
    else if name = ".." then followFrom tree strict links trail.tail rest
    else
      match here.bind (·.find? name) with
      | some (.link _ target) =>
        match links with
        | 0 => .error .tooManyLinks
        | links + 1 =>
          let target := FilePath.ofString target
          let trail := if target.root = .relative then trail else []
          followFrom tree strict links trail (target.parts ++ rest)
      | none => if strict then .error .missing else followFrom tree strict links (name :: trail) rest
      | some _ => followFrom tree strict links (name :: trail) rest
termination_by (links, parts.length)

def follow (tree : FileTree) (strict : Bool) (path : FilePath) : Except FileFault (List String) :=
  tree.followFrom strict maxLinks [] path.parts

/-- How many links of a tree are not among those that are being followed. -/
def unfollowed (tree : FileTree) (followed : List (List String)) : Nat :=
  (tree.root.linkPlaces.filter fun place => place ∉ followed).length

theorem unfollowed_cons_lt {tree : FileTree} {followed : List (List String)} {place : List String} {own target : String}
    (hlink : tree.root.at? place = some (.link own target)) (hnew : place ∉ followed) :
    tree.unfollowed (place :: followed) < tree.unfollowed followed := by
  have hsplit : (tree.root.linkPlaces.filter fun other => other ∉ place :: followed) =
      (tree.root.linkPlaces.filter fun other => other ∉ followed).filter fun other => other ≠ place := by
    rw [List.filter_filter]
    exact List.filter_congr fun other _ => by simp
  rw [unfollowed, unfollowed, hsplit, List.length_filter_lt_length_iff_exists]
  exact ⟨place, List.mem_filter.mpr ⟨Entry.mem_linkPlaces hlink, by simpa using hnew⟩, by simp⟩

/-- Follows the links of a path, however many there are; names that are not there stay as they are. `followed` holds the
places of the links on whose targets this is under way: one that is met there again leads back to itself. -/
def resolveFrom (tree : FileTree) (followed : List (List String)) (trail parts : List String) :
    Except FileFault (List String) :=
  match parts with
  | [] => .ok trail.reverse
  | name :: rest =>
    if name = ".." then resolveFrom tree followed trail.tail rest
    else
      match _ : tree.root.at? (name :: trail).reverse with
      | some (.link _ target) =>
        if _ : (name :: trail).reverse ∈ followed then .error .tooManyLinks
        else do
          let target := FilePath.ofString target
          let start := if target.root = .relative then trail else []
          let found ← resolveFrom tree ((name :: trail).reverse :: followed) start target.parts
          resolveFrom tree followed found.reverse rest
      | _ => resolveFrom tree followed (name :: trail) rest
termination_by (tree.unfollowed followed, parts.length)
decreasing_by
  · exact Prod.Lex.right _ (Nat.lt_succ_self rest.length)
  · exact Prod.Lex.left _ _ (unfollowed_cons_lt ‹_› ‹_›)
  · exact Prod.Lex.right _ (Nat.lt_succ_self rest.length)
  · exact Prod.Lex.right _ (Nat.lt_succ_self rest.length)

/-- The path without links that leads to the same place; names that are not there stay as they are. -/
def realPath (tree : FileTree) (path : FilePath) : Except FileFault FilePath :=
  (tree.resolveFrom [] [] path.parts).map fun parts => ⟨.slash, parts⟩

def find (tree : FileTree) (path : FilePath) : Except FileFault Entry := do
  let parts ← tree.follow true path
  match tree.root.at? parts with
  | some entry => .ok entry
  | none => .error .missing

def read (tree : FileTree) (path : FilePath) : Except FileFault ByteArray := do
  match ← tree.find path with
  | .file _ content => if content.readable then .ok content.bytes else .error .denied
  | _ => .error .isDirectory

/-- Puts an entry at a path. Links on the way are followed, and so is the last one for a file. -/
def put (tree : FileTree) (path : FilePath) (new : Entry) : FileTree :=
  let parts :=
    match new with
    | .link name _ =>
      (tree.follow false { path with parts := path.parts.dropLast }).map (· ++ [name])
    | _ => tree.follow false path
  match parts with
  | .ok parts => ⟨tree.root.put parts new⟩
  | .error _ => tree

/-- Takes away what is at a path; a link itself and not what it leads to. -/
def remove (tree : FileTree) (path : FilePath) : FileTree :=
  match tree.follow false { path with parts := path.parts.dropLast } with
  | .ok parts => ⟨tree.root.remove (parts ++ [path.name])⟩
  | .error _ => tree

/-- Writes a file. The directory that it belongs to must be there. -/
def write (tree : FileTree) (path : FilePath) (bytes : ByteArray) : Except FileFault FileTree := do
  let parts ← tree.follow false path
  match tree.root.at? parts.dropLast with
  | none => .error .missing
  | some (.directory _ _ entries) =>
    match parts.getLast? with
    | none => .error .isDirectory
    | some name =>
      if entries.any fun e => e.name = name && e.isDirectory then .error .isDirectory
      else .ok ⟨tree.root.put parts (.file name { bytes })⟩
  | some _ => .error .notDirectory

end FileTree

end MediaCatalog.Files
