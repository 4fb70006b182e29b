import MediaCatalog.Proofs.Files.NameOrder
import Mathlib.Logic.Function.Iterate

/-!
The walk through a directory as a recursion over its tree: first the files of the directory, then the walks through its
directories. A loop over a stack of the places that are still to be visited meets the same, and comes to an end.
-/

namespace MediaCatalog.Files

open Text

namespace Entry

theorem weight_le_totalWeight {entry : Entry} {entries : List Entry} (h : entry ∈ entries) :
    entry.weight ≤ totalWeight entries := by
  induction entries with
  | nil => cases h
  | cons first rest ih =>
      rw [totalWeight]
      rcases List.mem_cons.mp h with rfl | h
      · omega
      · have := ih h
        omega

theorem mem_inOrder {entry : Entry} {entries : List Entry} : entry ∈ inOrder entries ↔ entry ∈ entries :=
  (inOrder_perm entries).mem_iff

theorem mem_directories_inOrder {entry : Entry} {entries : List Entry} :
    entry ∈ directories (inOrder entries) ↔ entry ∈ entries ∧ entry.isDirectory := by
  rw [directories, List.mem_filter, mem_inOrder]

theorem weight_lt_of_mem {name : String} {listable : Bool} {entry : Entry} {entries : List Entry}
    (h : entry ∈ entries) : entry.weight < (directory name listable entries).weight := by
  have := weight_le_totalWeight h
  rw [weight]
  omega

end Entry

/-- What a walk meets in a directory at a path: nothing if it is to be skipped, and only that it cannot be listed if it
cannot; else its files, and then what is met in its directories, both in the order of their names in lowercase. -/
def preorder (skip : List FilePath) (path : FilePath) (entry : Entry) : List WalkEvent :=
  if isSkipped skip path then []
  else
    match entry with
    | .directory _ true entries =>
      (Entry.inOrder entries).filterMap (Entry.fileEvent path) ++
        (Entry.directories (Entry.inOrder entries)).attach.flatMap fun inner =>
          preorder skip (path.child inner.val.name) inner.val
    | _ => [.unlistable path]
termination_by entry.weight
decreasing_by exact Entry.weight_lt_of_mem (Entry.mem_directories_inOrder.mp inner.property).1

variable {skip : List FilePath} {path : FilePath}

theorem preorder_of_skipped (h : isSkipped skip path) (entry : Entry) : preorder skip path entry = [] := by
  unfold preorder
  rw [if_pos h]

theorem preorder_directory (h : ¬ isSkipped skip path) (name : String) (entries : List Entry) :
    preorder skip path (.directory name true entries) =
      (Entry.inOrder entries).filterMap (Entry.fileEvent path) ++
        (Entry.directories (Entry.inOrder entries)).flatMap fun inner =>
          preorder skip (path.child inner.name) inner := by
  rw [preorder, if_neg h]
  simp only [List.flatMap_subtype, List.unattach_attach]

theorem preorder_of_not_listable (h : ¬ isSkipped skip path) {entry : Entry}
    (hentry : ∀ name entries, entry ≠ .directory name true entries) :
    preorder skip path entry = [.unlistable path] := by
  unfold preorder
  rw [if_neg h]
  split
  · exact absurd rfl (hentry _ _)
  · rfl

theorem walkStack_eq_flatMap (skip : List FilePath) (stack : List Visit) :
    walkStack skip stack = stack.flatMap fun visit => preorder skip visit.path visit.entry := by
  fun_induction walkStack skip stack with
  | case1 => rfl
  | case2 path entry rest hskipped ih => rw [ih, List.flatMap_cons, preorder_of_skipped hskipped, List.nil_append]
  | case3 path rest hskipped name entries ih =>
      rw [ih, List.flatMap_cons, preorder_directory hskipped, List.flatMap_append, Visit.inside, List.flatMap_map,
        List.append_assoc]
  | case4 path entry rest hskipped hentry ih =>
      rw [ih, List.flatMap_cons, preorder_of_not_listable hskipped hentry, List.singleton_append]

/-- What a visit meets by itself, and the places that are to be visited for it. -/
def Visit.opened (skip : List FilePath) (visit : Visit) : List WalkEvent × List Visit :=
  if isSkipped skip visit.path then ([], [])
  else
    match visit.entry with
    | .directory _ true entries =>
      ((Entry.inOrder entries).filterMap (Entry.fileEvent visit.path), Visit.inside visit.path entries)
    | _ => ([.unlistable visit.path], [])

theorem walkStack_cons (skip : List FilePath) (visit : Visit) (rest : List Visit) :
    walkStack skip (visit :: rest) = (visit.opened skip).1 ++ walkStack skip ((visit.opened skip).2 ++ rest) := by
  obtain ⟨path, entry⟩ := visit
  rw [walkStack.eq_def, Visit.opened]
  by_cases h : isSkipped skip path
  · simp only [if_pos h, List.nil_append]
  · simp only [if_neg h]
    cases entry with
    | file => rfl
    | link => rfl
    | directory name listable entries => cases listable <;> rfl

theorem Visit.pending_opened_lt (skip : List FilePath) (visit : Visit) (rest : List Visit) :
    Visit.pending ((visit.opened skip).2 ++ rest) < Visit.pending (visit :: rest) := by
  rw [Visit.opened]
  split_ifs
  · exact Visit.pending_lt visit rest
  · split
    · rename_i name entries hentry
      have h := Visit.pending_inside_le visit.path entries rest
      simp only [Visit.pending, List.map_cons, Entry.totalWeight, hentry, Entry.weight] at h ⊢
      omega
    · exact Visit.pending_lt visit rest

/-- How far the loop of a walk has come: the places that are still to be visited, the next one last, and what was
met. -/
structure Walker where
  stack : List Visit
  met : List WalkEvent

namespace Walker

def start (path : FilePath) (entry : Entry) : Walker :=
  ⟨[⟨path, entry⟩], []⟩

/-- One turn of the loop takes the last place of the stack, and puts on it the places to be visited for it, from the
last one to the first. -/
def turn (skip : List FilePath) (walker : Walker) : Walker :=
  match walker.stack.getLast? with
  | none => walker
  | some visit =>
    ⟨walker.stack.dropLast ++ (visit.opened skip).2.reverse, walker.met ++ (visit.opened skip).1⟩

theorem turn_nil (met : List WalkEvent) : turn skip ⟨[], met⟩ = ⟨[], met⟩ :=
  rfl

theorem turn_concat (stack : List Visit) (visit : Visit) (met : List WalkEvent) :
    turn skip ⟨stack ++ [visit], met⟩ = ⟨stack ++ (visit.opened skip).2.reverse, met ++ (visit.opened skip).1⟩ := by
  simp only [turn, List.getLast?_concat, List.dropLast_concat]

/-- A turn keeps together what was met and what will be met. -/
theorem met_turn (walker : Walker) : (walker.turn skip).met ++ walkStack skip (walker.turn skip).stack.reverse =
    walker.met ++ walkStack skip walker.stack.reverse := by
  obtain ⟨stack, met⟩ := walker
  rcases List.eq_nil_or_concat stack with rfl | ⟨stack, visit, rfl⟩
  · rw [turn_nil]
  · rw [List.concat_eq_append, turn_concat, List.reverse_append, List.reverse_append, List.reverse_reverse,
      List.reverse_singleton, List.singleton_append, walkStack_cons, List.append_assoc]

theorem pending_turn_lt {walker : Walker} (h : walker.stack ≠ []) :
    Visit.pending (walker.turn skip).stack.reverse < Visit.pending walker.stack.reverse := by
  obtain ⟨stack, met⟩ := walker
  rcases List.eq_nil_or_concat stack with rfl | ⟨stack, visit, rfl⟩
  · exact absurd rfl h
  · rw [List.concat_eq_append, turn_concat, List.reverse_append, List.reverse_append, List.reverse_reverse,
      List.reverse_singleton, List.singleton_append]
    exact visit.pending_opened_lt skip stack.reverse

theorem iterate_turn (n : Nat) (walker : Walker) (h : Visit.pending walker.stack.reverse ≤ n) :
    (turn skip)^[n] walker = ⟨[], walker.met ++ walkStack skip walker.stack.reverse⟩ := by
  induction n generalizing walker with
  | zero =>
      have hstack : walker.stack = [] := by
        by_contra hne
        have hlt : Visit.pending (walker.turn skip).stack.reverse < _ := pending_turn_lt hne
        omega
      obtain ⟨stack, met⟩ := walker
      obtain rfl : stack = [] := hstack
      rw [Function.iterate_zero_apply, List.reverse_nil, walkStack, List.append_nil]
  | succ n ih =>
      rw [Function.iterate_succ_apply, ← met_turn]
      by_cases hstack : walker.stack = []
      · obtain ⟨stack, met⟩ := walker
        obtain rfl : stack = [] := hstack
        exact ih _ (Nat.zero_le n)
      · have hlt : Visit.pending (walker.turn skip).stack.reverse < _ := pending_turn_lt hstack
        exact ih _ (by omega)

/-- The loop comes to an end, after at most as many turns as there are entries, and has met what the recursion meets. -/
theorem iterate_turn_start (path : FilePath) (entry : Entry) {n : Nat} (h : entry.weight ≤ n) :
    (turn skip)^[n] (start path entry) = ⟨[], preorder skip path entry⟩ := by
  have hpending : Visit.pending (start path entry).stack.reverse ≤ n := by
    simpa [Visit.pending, start, Entry.totalWeight] using h
  rw [iterate_turn n _ hpending, walkStack_eq_flatMap]
  simp [start]

end Walker

theorem FileTree.walk_of_find {tree : FileTree} {root : FilePath} {entry : Entry} (h : tree.find root = .ok entry)
    (skip : List FilePath) : tree.walk root skip = preorder skip root entry := by
  rw [FileTree.walk, h]
  simp [walkStack_eq_flatMap]

theorem FileTree.walk_of_fault {tree : FileTree} {root : FilePath} {fault : FileFault}
    (h : tree.find root = .error fault) (skip : List FilePath) :
    tree.walk root skip = if isSkipped skip root then [] else [.unlistable root] := by
  rw [FileTree.walk, h]

end MediaCatalog.Files
