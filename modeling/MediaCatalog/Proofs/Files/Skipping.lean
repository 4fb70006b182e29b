import MediaCatalog.Files.SkipList
import MediaCatalog.Proofs.Files.RealPaths
import MediaCatalog.Proofs.Files.Walks
import Mathlib.Data.List.Induction

/-!
Paths to skip. A walk from a real path lists real directories only, and compares their paths with those to skip. So a path
to skip that is real keeps the walk from all files below it, and any other path to skip means nothing.
-/

namespace MediaCatalog.Files

namespace FilePath

theorem isWithin_trans {path middle ancestor : FilePath} (h : path.isWithin middle) (h' : middle.isWithin ancestor) :
    path.isWithin ancestor := by
  rw [isWithin_iff] at h h' ⊢
  exact ⟨h.1.trans h'.1, h'.2.trans h.2⟩

theorem isWithin_descend_of_prefix (path : FilePath) {front names : List String} (h : front <+: names) :
    (path.descend names).isWithin (path.descend front) :=
  isWithin_iff.mpr ⟨rfl, (List.prefix_append_right_inj _).mpr h⟩

theorem descend_concat (path : FilePath) (names : List String) (name : String) :
    path.descend (names ++ [name]) = (path.descend names).child name := by
  rw [descend, descend, child, List.append_assoc]

theorem mem_parents_child {path ancestor : FilePath} {name : String} :
    ancestor ∈ (path.child name).parents ↔ path.isWithin ancestor := by
  rw [mem_parents_iff, isWithin_iff, isWithin_iff, child]
  obtain ⟨root, parts⟩ := path
  obtain ⟨root', parts'⟩ := ancestor
  simp only [ne_eq, mk.injEq, List.prefix_concat_iff]
  constructor
  · rintro ⟨⟨rfl, heq | hparts⟩, hne⟩
    · exact absurd ⟨rfl, heq⟩ hne
    · exact ⟨rfl, hparts⟩
  · rintro ⟨rfl, hparts⟩
    refine ⟨⟨rfl, .inr hparts⟩, fun heq => ?_⟩
    have hlength := heq.2 ▸ hparts.length_le
    rw [List.length_append, List.length_singleton] at hlength
    omega

end FilePath

variable {skip : List FilePath} {root : FilePath} {entry : Entry}

theorem isSkipped_iff_exists_isWithin {path : FilePath} :
    isSkipped skip path ↔ ∃ skipped ∈ skip, path.isWithin skipped :=
  List.any_eq_true

theorem lists_iff_not_isSkipped {names : List String} : Lists skip root entry names ↔
    Lists [] root entry names ∧ ¬ isSkipped skip (root.descend names) := by
  constructor
  · intro h
    refine ⟨fun front hfront => ?_, ?_⟩
    · obtain ⟨name, entries, hat, -⟩ := h front hfront
      exact ⟨name, entries, hat, by simp [isSkipped]⟩
    · obtain ⟨_, _, -, hskip⟩ := h names List.prefix_rfl
      exact hskip
  · rintro ⟨h, hskip⟩ front hfront
    obtain ⟨name, entries, hat, -⟩ := h front hfront
    refine ⟨name, entries, hat, fun hskipped => hskip ?_⟩
    obtain ⟨skipped, hmem, hwithin⟩ := isSkipped_iff_exists_isWithin.mp hskipped
    exact isSkipped_iff_exists_isWithin.mpr
      ⟨skipped, hmem, FilePath.isWithin_trans (root.isWithin_descend_of_prefix hfront) hwithin⟩

theorem reaches_iff_not_mem_parents {path : FilePath} {content : FileContent} :
    Reaches skip root entry path content ↔
      Reaches [] root entry path content ∧ ∀ skipped ∈ skip, skipped ∉ path.parents := by
  have hparents : ∀ names name, ¬ isSkipped skip (root.descend names) ↔
      ∀ skipped ∈ skip, skipped ∉ (root.descend (names ++ [name])).parents := by
    intro names name
    simp only [FilePath.descend_concat, FilePath.mem_parents_child, isSkipped_iff_exists_isWithin, not_exists, not_and]
  constructor
  · rintro ⟨names, name, rfl, hlists, hat⟩
    obtain ⟨hlists, hskip⟩ := lists_iff_not_isSkipped.mp hlists
    exact ⟨⟨names, name, rfl, hlists, hat⟩, (hparents names name).mp hskip⟩
  · rintro ⟨⟨names, name, rfl, hlists, hat⟩, hskip⟩
    exact ⟨names, name, rfl, lists_iff_not_isSkipped.mpr ⟨hlists, (hparents names name).mpr hskip⟩, hat⟩

/-- Whether names lead down only: no entry of a directory has the name `..`. -/
inductive Entry.LeadsDown : Entry → Prop
  | file (name : String) (content : FileContent) : LeadsDown (.file name content)
  | link (name target : String) : LeadsDown (.link name target)
  | directory (name : String) (listable : Bool) {entries : List Entry} (names : ∀ entry ∈ entries, entry.name ≠ "..")
      (inner : ∀ entry ∈ entries, LeadsDown entry) : LeadsDown (.directory name listable entries)

namespace Entry

theorem LeadsDown.of_mem (h : entry.LeadsDown) {inner : Entry} (hinner : inner ∈ entry.entries) :
    inner.name ≠ ".." ∧ inner.LeadsDown := by
  cases h with
  | file => cases hinner
  | link => cases hinner
  | directory _ _ names inner => exact ⟨names _ hinner, inner _ hinner⟩

theorem leadsDown_directory (name : String) (listable : Bool) {entries : List Entry} :
    (Entry.directory name listable entries).LeadsDown ↔ ∀ entry ∈ entries, entry.name ≠ ".." ∧ entry.LeadsDown :=
  ⟨fun h _ hentry => h.of_mem hentry,
    fun h => .directory name listable (fun entry hentry => (h entry hentry).1) fun entry hentry => (h entry hentry).2⟩

theorem LeadsDown.not_mem_of_at (h : entry.LeadsDown) {names : List String} {found : Entry}
    (hat : entry.at? names = some found) : ".." ∉ names := by
  induction names generalizing entry with
  | nil => exact List.not_mem_nil
  | cons name names ih =>
      obtain ⟨inner, hfind, hrest⟩ := at_cons_eq_some_iff.mp hat
      obtain ⟨hname, hinner⟩ := h.of_mem (mem_entries_of_find hfind)
      rw [name_of_find hfind] at hname
      rw [List.mem_cons, not_or]
      exact ⟨Ne.symm hname, ih hinner hrest⟩

end Entry

namespace FileTree

variable {tree : FileTree}

theorem IsReal.child (hdown : tree.root.LeadsDown) {path : FilePath} (h : tree.IsReal path) {name : String}
    (hat : tree.root.at? (path.parts ++ [name]) = some entry) (hentry : ∀ own target, entry ≠ .link own target) :
    tree.IsReal (path.child name) := by
  obtain ⟨hroot, hparts⟩ := isReal_iff.mp h
  refine isReal_iff.mpr ⟨hroot, isStraight_concat_iff.mpr ⟨hparts, ?_, fun own target hlink => ?_⟩⟩
  · rintro rfl
    exact hdown.not_mem_of_at hat (by simp)
  · exact hentry own target (Option.some.inj (hat.symm.trans hlink))

theorem isReal_descend_of_lists (hdown : tree.root.LeadsDown) (hroot : tree.IsReal root)
    (hfind : tree.find root = .ok entry) {names : List String} (h : Lists skip root entry names) :
    tree.IsReal (root.descend names) := by
  have hentry := at_of_find_of_isReal hroot hfind
  induction names using List.reverseRecOn with
  | nil => rwa [FilePath.descend_nil]
  | append_singleton names name ih =>
      obtain ⟨own, entries, hat, -⟩ := h (names ++ [name]) List.prefix_rfl
      have hreal := ih fun front hfront => h front (hfront.trans (List.prefix_append _ _))
      rw [FilePath.descend_concat]
      have hinner : tree.root.at? (root.parts ++ names ++ [name]) = some (.directory own true entries) := by
        rw [List.append_assoc, Entry.at_append, hentry, Option.bind_some, hat]
      exact hreal.child hdown hinner (by simp)

/-- Of the paths to skip, those that are real keep a walk from the files below them, and the others mean nothing. -/
theorem mem_yielded_iff_not_mem_parents (h : tree.root.WellNamed) (hdown : tree.root.LeadsDown)
    (hroot : tree.IsReal root) {path : FilePath} {content : FileContent} :
    (path, content) ∈ tree.yielded root skip ↔
      (path, content) ∈ tree.yielded root [] ∧ ∀ skipped ∈ skip, tree.IsReal skipped → skipped ∉ path.parents := by
  cases hfind : tree.find root with
  | error fault => simp [yielded_of_fault hfind]
  | ok entry =>
      rw [yielded_of_find hfind, yielded_of_find hfind, mem_filesWithin (wellNamed_find h hfind),
        mem_filesWithin (wellNamed_find h hfind), reaches_iff_not_mem_parents]
      refine and_congr_right fun hreaches => forall₂_congr fun skipped _ => ⟨fun hskip _ => hskip, fun hskip hmem => ?_⟩
      obtain ⟨names, name, rfl, hlists, -⟩ := hreaches
      have hreal := isReal_descend_of_lists hdown hroot hfind hlists
      have hwithin := FilePath.mem_parents_child.mp (root.descend_concat names name ▸ hmem)
      exact hskip (hreal.of_isWithin hwithin) hmem

theorem IsReal.isSkipped_congr {skip' : List FilePath} (hsame : ∀ path, tree.IsReal path → (path ∈ skip ↔ path ∈ skip'))
    {path : FilePath} (h : tree.IsReal path) : isSkipped skip path = isSkipped skip' path := by
  rw [Bool.eq_iff_iff, isSkipped_iff_exists_isWithin, isSkipped_iff_exists_isWithin]
  exact exists_congr fun skipped => and_congr_left fun hwithin => hsame skipped (h.of_isWithin hwithin)

theorem preorder_congr (h : entry.WellNamed) (hdown : tree.root.LeadsDown) {skip' : List FilePath}
    (hsame : ∀ path, tree.IsReal path → (path ∈ skip ↔ path ∈ skip')) (hroot : tree.IsReal root)
    (hat : tree.root.at? root.parts = some entry) : preorder skip root entry = preorder skip' root entry := by
  revert hroot hat
  refine h.induct_walk skip (motive := fun root entry => tree.IsReal root → tree.root.at? root.parts = some entry →
    preorder skip root entry = preorder skip' root entry) ?skipped ?unlistable ?directory root
  case skipped =>
    intro root entry hskip hroot _
    rw [preorder_of_skipped hskip, preorder_of_skipped (hroot.isSkipped_congr hsame ▸ hskip)]
  case unlistable =>
    intro root entry hskip hentry hroot _
    rw [preorder_of_not_listable hskip hentry, preorder_of_not_listable (hroot.isSkipped_congr hsame ▸ hskip) hentry]
  case directory =>
    intro root own entries hskip distinct ih hroot hat
    rw [preorder_directory hskip, preorder_directory (hroot.isSkipped_congr hsame ▸ hskip)]
    refine congrArg _ (List.flatMap_congr fun inner hinner => ?_)
    obtain ⟨hmem, hdirectory⟩ := Entry.mem_directories_inOrder.mp hinner
    have hdistinct : ((Entry.directory own true entries).entries.map Entry.name).Nodup := distinct
    have hfind := (Entry.find_eq_some_iff hdistinct).mpr ⟨hmem, rfl⟩
    have hchild : tree.root.at? (root.parts ++ [inner.name]) = some inner := by
      rw [Entry.at_concat, hat, Option.bind_some, hfind]
    refine (ih inner hmem).2 (hroot.child hdown hchild ?_) hchild
    rintro own target rfl
    cases hdirectory

/-- A walk depends on those of the paths to skip alone that are real. -/
theorem walk_congr (h : tree.root.WellNamed) (hdown : tree.root.LeadsDown) (hroot : tree.IsReal root)
    {skip' : List FilePath} (hsame : ∀ path, tree.IsReal path → (path ∈ skip ↔ path ∈ skip')) :
    tree.walk root skip = tree.walk root skip' := by
  cases hfind : tree.find root with
  | error fault => rw [walk_of_fault hfind, walk_of_fault hfind, hroot.isSkipped_congr hsame]
  | ok entry =>
      rw [walk_of_find hfind, walk_of_find hfind]
      exact preorder_congr (wellNamed_find h hfind) hdown hsame hroot (at_of_find_of_isReal hroot hfind)

end FileTree

end MediaCatalog.Files
