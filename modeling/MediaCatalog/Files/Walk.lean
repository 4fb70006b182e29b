import MediaCatalog.Files.Tree

/-!
The walk through a directory: first its regular files in the order of their names in lowercase, then its
directories in the same order. Links are not followed, and directories that are to be skipped, or that cannot
be listed, are passed over.
-/

namespace MediaCatalog.Files

open Text

inductive WalkEvent where
  | file (path : FilePath) (content : FileContent)
  | unlistable (path : FilePath)

namespace Entry

mutual

def weight : Entry → Nat
  | file _ _ => 1
  | link _ _ => 1
  | directory _ _ entries => 1 + totalWeight entries

def totalWeight : List Entry → Nat
  | [] => 0
  | e :: rest => weight e + totalWeight rest

end

theorem weight_pos (entry : Entry) : 0 < entry.weight := by
  cases entry <;> simp only [weight] <;> omega

theorem totalWeight_append (first second : List Entry) :
    totalWeight (first ++ second) = totalWeight first + totalWeight second := by
  induction first with
  | nil => simp [totalWeight]
  | cons e rest ih => simp only [List.cons_append, totalWeight, ih]; omega

theorem totalWeight_perm {first second : List Entry} (h : first.Perm second) :
    totalWeight first = totalWeight second := by
  induction h with
  | nil => rfl
  | cons e _ ih => simp [totalWeight, ih]
  | swap a b l => simp only [totalWeight]; omega
  | trans _ _ ih ih' => exact ih.trans ih'

theorem totalWeight_filter_le (p : Entry → Bool) (entries : List Entry) :
    totalWeight (entries.filter p) ≤ totalWeight entries := by
  induction entries with
  | nil => simp
  | cons e rest ih =>
      rw [List.filter_cons]
      split <;> simp only [totalWeight] <;> omega

/-- Entries in the order of their names in lowercase; names that are level keep their order. -/
def inOrder (entries : List Entry) : List Entry :=
  entries.mergeSort fun first second => lower first.name ≤ lower second.name

def directories (entries : List Entry) : List Entry :=
  entries.filter isDirectory

theorem totalWeight_directories_le (entries : List Entry) :
    totalWeight (directories (inOrder entries)) ≤ totalWeight entries := by
  have h := totalWeight_filter_le isDirectory (inOrder entries)
  rwa [inOrder, totalWeight_perm (List.mergeSort_perm _ _)] at h

/-- What the walk meets at an entry of a directory, if it is a regular file. -/
def fileEvent (path : FilePath) : Entry → Option WalkEvent
  | file name content => some (.file (path.child name) content)
  | _ => none

end Entry

structure Visit where
  path : FilePath
  entry : Entry

namespace Visit

def pending (stack : List Visit) : Nat :=
  Entry.totalWeight (stack.map Visit.entry)

def inside (path : FilePath) (entries : List Entry) : List Visit :=
  (Entry.directories (Entry.inOrder entries)).map fun e => ⟨path.child e.name, e⟩

theorem pending_lt (visit : Visit) (stack : List Visit) :
    pending stack < pending (visit :: stack) := by
  have h := Entry.weight_pos visit.entry
  simp only [pending, List.map_cons, Entry.totalWeight]
  omega

theorem pending_inside_le (path : FilePath) (entries : List Entry) (stack : List Visit) :
    pending (inside path entries ++ stack) ≤ Entry.totalWeight entries + pending stack := by
  have h := Entry.totalWeight_directories_le entries
  have hmap : (inside path entries).map Visit.entry = Entry.directories (Entry.inOrder entries) := by
    simp [inside, Function.comp_def]
  rw [pending, List.map_append, Entry.totalWeight_append, hmap]
  simp only [pending]
  omega

end Visit

/-- Whether a path is one of those to skip or leads through one. -/
def isSkipped (skip : List FilePath) (path : FilePath) : Bool :=
  skip.any path.isWithin

/-- Visits the places of a stack, the first one first. -/
def walkStack (skip : List FilePath) (stack : List Visit) : List WalkEvent :=
  match stack with
  | [] => []
  | ⟨path, entry⟩ :: rest =>
    if isSkipped skip path then walkStack skip rest
    else
      match entry with
      | .directory _ true entries =>
        (Entry.inOrder entries).filterMap (Entry.fileEvent path) ++
          walkStack skip (Visit.inside path entries ++ rest)
      | _ => .unlistable path :: walkStack skip rest
termination_by Visit.pending stack
decreasing_by
  · exact Visit.pending_lt _ rest
  · have h := Visit.pending_inside_le path entries rest
    simp only [Visit.pending, List.map_cons, Entry.totalWeight, Entry.weight] at h ⊢
    omega
  · exact Visit.pending_lt _ rest

def FileTree.walk (tree : FileTree) (root : FilePath) (skip : List FilePath) : List WalkEvent :=
  match tree.find root with
  | .ok entry => walkStack skip [⟨root, entry⟩]
  | .error _ => if isSkipped skip root then [] else [.unlistable root]

end MediaCatalog.Files
