import MediaCatalog.Proofs.Files.Listings
import MediaCatalog.Proofs.Files.Walks

/-!
How the files that a walk yields depend on the order in which directories are listed. They do not unless two names in
one directory have the same lowercase, and both belong to files, or both to directories in which the walk yields files.
-/

namespace MediaCatalog.Files

open Text

namespace Entry

/-- The file that an entry of a directory at a path is. -/
def ownFiles (path : FilePath) : Entry → List (FilePath × FileContent)
  | file name content => [(path.child name, content)]
  | _ => []

theorem Relisted.ownFiles_eq {entry entry' : Entry} (h : Relisted entry entry') (path : FilePath) :
    entry'.ownFiles path = entry.ownFiles path := by
  cases h <;> rfl

/-- The files that a walk yields in an entry of a directory at a path. -/
def innerFiles (skip : List FilePath) (path : FilePath) (entry : Entry) : List (FilePath × FileContent) :=
  filesWithin skip (path.child entry.name) entry

theorem innerFiles_of_not_directory {entry : Entry} (h : entry.isDirectory = false) (skip : List FilePath)
    (path : FilePath) : entry.innerFiles skip path = [] := by
  rw [innerFiles, filesWithin]
  by_cases hskip : isSkipped skip (path.child entry.name)
  · rw [preorder_of_skipped hskip, List.filterMap_nil]
  · have hentry : ∀ name entries, entry ≠ .directory name true entries := by
      rintro name entries rfl
      cases h
    rw [preorder_of_not_listable hskip hentry]
    rfl

end Entry

variable {skip : List FilePath} {path : FilePath} {name : String} {entries entries' : List Entry}

theorem filesWithin_directory (h : ¬ isSkipped skip path) (name : String) (entries : List Entry) :
    filesWithin skip path (.directory name true entries) =
      (Entry.inOrder entries).flatMap (Entry.ownFiles path) ++
        (Entry.inOrder entries).flatMap (Entry.innerFiles skip path) := by
  have hown : ∀ entry : Entry, ((Entry.fileEvent path entry).bind WalkEvent.file?).toList = entry.ownFiles path := by
    intro entry
    cases entry <;> rfl
  rw [filesWithin, preorder_directory h, List.filterMap_append, List.filterMap_filterMap,
    List.filterMap_eq_flatMap_toList, List.filterMap_flatMap, Entry.directories]
  simp only [hown]
  congr 1
  exact Entry.flatMap_filter_of_eq_nil fun entry _ hentry => Entry.innerFiles_of_not_directory hentry skip path

/-- Whether two names in a directory have the same lowercase, and both belong to files, or both to directories in which
a walk yields files. -/
def Tied (skip : List FilePath) (path : FilePath) (entries : List Entry) : Prop :=
  ∃ first ∈ entries, ∃ second ∈ entries, first.name ≠ second.name ∧ lower first.name = lower second.name ∧
    (first.ownFiles path ≠ [] ∧ second.ownFiles path ≠ [] ∨
      first.innerFiles skip path ≠ [] ∧ second.innerFiles skip path ≠ [])

/-- Whether there are no ties in the directories that a walk lists. -/
def Untied (skip : List FilePath) (root : FilePath) (entry : Entry) : Prop :=
  ∀ names own entries, Lists skip root entry names → entry.at? names = some (.directory own true entries) →
    ¬ Tied skip (root.descend names) entries

theorem Untied.not_tied (h : Untied skip path (.directory name true entries)) (hskip : ¬ isSkipped skip path) :
    ¬ Tied skip path entries := by
  have htied := h [] name entries (lists_nil_iff.mpr ⟨name, entries, rfl, hskip⟩) (Entry.at_nil _)
  rwa [FilePath.descend_nil] at htied

theorem Untied.inner (h : Untied skip path (.directory name true entries)) (hskip : ¬ isSkipped skip path)
    (hnamed : (Entry.directory name true entries).WellNamed) {inner : Entry} (hmem : inner ∈ entries) :
    Untied skip (path.child inner.name) inner := by
  intro names own innerEntries hlists hat
  have hfind := (Entry.find_eq_some_iff hnamed.nodup).mpr ⟨hmem, rfl⟩
  have hlisted : Lists skip path (.directory name true entries) [] := lists_nil_iff.mpr ⟨name, entries, rfl, hskip⟩
  rw [FilePath.descend_child]
  exact h (inner.name :: names) own innerEntries (lists_cons_iff.mpr ⟨hlisted, inner, hfind, hlists⟩)
    (Entry.at_cons_eq_some_iff.mpr ⟨inner, hfind, hat⟩)

/-- Entries that are changed and listed in another order tell the same if they tell the same one by one and no two of
them that tell something have names with the same lowercase. -/
theorem flatMap_inOrder_relisted {β : Type} {tell : Entry → List β} {change : Entry → Entry}
    (hnodup : (entries.map Entry.name).Nodup) (hname : ∀ entry ∈ entries, (change entry).name = entry.name)
    (htell : ∀ entry ∈ entries, tell (change entry) = tell entry) (order : (entries.map change).Perm entries')
    (h : ∀ first ∈ entries, ∀ second ∈ entries, lower first.name = lower second.name → tell first ≠ [] →
      tell second ≠ [] → first.name = second.name) :
    (Entry.inOrder entries').flatMap tell = (Entry.inOrder entries).flatMap tell := by
  have hinjective : ∀ first ∈ entries.map change, ∀ second ∈ entries.map change,
      lower first.name = lower second.name → tell first ≠ [] → tell second ≠ [] → first = second := by
    simp only [List.forall_mem_map]
    intro first hfirst second hsecond hlower hfiles hfiles'
    rw [hname first hfirst, hname second hsecond] at hlower
    rw [htell first hfirst] at hfiles
    rw [htell second hsecond] at hfiles'
    rw [Entry.eq_of_name_eq hnodup hfirst hsecond (h first hfirst second hsecond hlower hfiles hfiles')]
  calc (Entry.inOrder entries').flatMap tell
      = (Entry.inOrder (entries.map change)).flatMap tell := (Entry.flatMap_inOrder_congr order hinjective).symm
    _ = (Entry.inOrder entries).flatMap (fun entry => tell (change entry)) := by
        rw [Entry.inOrder_map hname, List.flatMap_map]
    _ = (Entry.inOrder entries).flatMap tell :=
        List.flatMap_congr fun entry hentry => htell entry (Entry.mem_inOrder.mp hentry)

theorem filesWithin_relisted {entry entry' : Entry} (h : entry.Relisted entry') (hnamed : entry.WellNamed)
    (huntied : Untied skip path entry) : filesWithin skip path entry' = filesWithin skip path entry := by
  induction h generalizing path with
  | file => rfl
  | link => rfl
  | @directory name listable entries entries' change inner order ih =>
      by_cases hskip : isSkipped skip path
      · rw [filesWithin, filesWithin, preorder_of_skipped hskip, preorder_of_skipped hskip]
      cases listable with
      | false =>
          rw [filesWithin, filesWithin, preorder_of_not_listable hskip (by simp),
            preorder_of_not_listable hskip (by simp)]
      | true =>
          have hname : ∀ entry ∈ entries, (change entry).name = entry.name :=
            fun entry hentry => (inner entry hentry).name_eq
          have hinner : ∀ entry ∈ entries, (change entry).innerFiles skip path = entry.innerFiles skip path := by
            intro entry hentry
            rw [Entry.innerFiles, hname entry hentry]
            exact ih entry hentry (hnamed.of_mem hentry) (huntied.inner hskip hnamed hentry)
          have htied := huntied.not_tied hskip
          rw [filesWithin_directory hskip, filesWithin_directory hskip]
          congr 1
          · refine flatMap_inOrder_relisted hnamed.nodup hname
              (fun entry hentry => (inner entry hentry).ownFiles_eq path) order fun first hfirst second hsecond hlower hown hown' => ?_
            by_contra hne
            exact htied ⟨first, hfirst, second, hsecond, hne, hlower, .inl ⟨hown, hown'⟩⟩
          · refine flatMap_inOrder_relisted hnamed.nodup hname hinner order
              fun first hfirst second hsecond hlower hfiles hfiles' => ?_
            by_contra hne
            exact htied ⟨first, hfirst, second, hsecond, hne, hlower, .inr ⟨hfiles, hfiles'⟩⟩

def pathsWithin (skip : List FilePath) (path : FilePath) (entry : Entry) : List FilePath :=
  (filesWithin skip path entry).map Prod.fst

theorem pathsWithin_directory (h : ¬ isSkipped skip path) (name : String) (entries : List Entry) :
    pathsWithin skip path (.directory name true entries) =
      ((Entry.inOrder entries).flatMap fun entry => (entry.ownFiles path).map Prod.fst) ++
        (Entry.inOrder entries).flatMap fun entry => (entry.innerFiles skip path).map Prod.fst := by
  rw [pathsWithin, filesWithin_directory h, List.map_append, List.map_flatMap, List.map_flatMap]

theorem exists_perm_ne_of_tied (hnamed : (Entry.directory name true entries).WellNamed) (hskip : ¬ isSkipped skip path)
    (h : Tied skip path entries) : ∃ entries', entries.Perm entries' ∧
      pathsWithin skip path (.directory name true entries') ≠ pathsWithin skip path (.directory name true entries) := by
  obtain ⟨first, hfirst, second, hsecond, hne, hlower, htell⟩ := h
  have hentry : first ≠ second := fun heq => hne (congrArg Entry.name heq)
  have hnodup := nodup_filesWithin hnamed skip path
  rw [← pathsWithin, pathsWithin_directory hskip, List.nodup_append] at hnodup
  by_contra! hsame
  -- The paths of the directory and those of its directories are as many in every order, so each are the same.
  have hparts : ∀ entries', entries.Perm entries' →
      ((Entry.inOrder entries').flatMap fun entry => (entry.ownFiles path).map Prod.fst) =
        ((Entry.inOrder entries).flatMap fun entry => (entry.ownFiles path).map Prod.fst) ∧
      ((Entry.inOrder entries').flatMap fun entry => (entry.innerFiles skip path).map Prod.fst) =
        (Entry.inOrder entries).flatMap fun entry => (entry.innerFiles skip path).map Prod.fst := by
    intro entries' hperm
    have hpaths := hsame entries' hperm
    rw [pathsWithin_directory hskip, pathsWithin_directory hskip] at hpaths
    have hordered : (Entry.inOrder entries').Perm (Entry.inOrder entries) :=
      (Entry.inOrder_perm entries').trans (hperm.symm.trans (Entry.inOrder_perm entries).symm)
    exact List.append_inj hpaths (hordered.flatMap_right _).length_eq
  rcases htell with ⟨hown, hown'⟩ | ⟨hinner, hinner'⟩
  · obtain ⟨entries', hperm, hother⟩ := Entry.exists_perm_flatMap_inOrder_ne hfirst hsecond hentry hlower
      (mt List.map_eq_nil_iff.mp hown) (mt List.map_eq_nil_iff.mp hown') hnodup.1
    exact hother (hparts entries' hperm).1
  · obtain ⟨entries', hperm, hother⟩ := Entry.exists_perm_flatMap_inOrder_ne hfirst hsecond hentry hlower
      (mt List.map_eq_nil_iff.mp hinner) (mt List.map_eq_nil_iff.mp hinner') hnodup.2.1
    exact hother (hparts entries' hperm).2

theorem pathsWithin_exchange_ne (hnamed : (Entry.directory name true entries).WellNamed) (hskip : ¬ isSkipped skip path)
    {inner inner' : Entry} (hmem : inner ∈ entries) (h : inner.Relisted inner')
    (hne : pathsWithin skip (path.child inner.name) inner' ≠ pathsWithin skip (path.child inner.name) inner) :
    pathsWithin skip path (.directory name true (entries.map (Entry.exchange inner.name inner'))) ≠
      pathsWithin skip path (.directory name true entries) := by
  have hrelisted : ∀ entry ∈ entries, entry.Relisted (Entry.exchange inner.name inner' entry) :=
    Entry.Relisted.exchange hnamed.nodup hmem h
  have hown : ∀ entry ∈ Entry.inOrder entries, ((Entry.exchange inner.name inner' entry).ownFiles path).map Prod.fst =
      (entry.ownFiles path).map Prod.fst := by
    intro entry hentry
    rw [(hrelisted entry (Entry.mem_inOrder.mp hentry)).ownFiles_eq]
  obtain ⟨before, after, hsplit⟩ := List.append_of_mem (Entry.mem_inOrder.mpr hmem)
  have hkept : ∀ entry ∈ before ++ after, Entry.exchange inner.name inner' entry = entry := by
    intro entry hentry
    have hnames := ((Entry.inOrder_perm entries).map Entry.name).nodup_iff.mpr hnamed.nodup
    rw [hsplit, List.map_append, List.map_cons, List.nodup_middle, ← List.map_append, List.nodup_cons] at hnames
    refine if_neg fun heq => hnames.1 ?_
    rw [← heq]
    exact List.mem_map_of_mem hentry
  rw [List.forall_mem_append] at hkept
  intro heq
  rw [pathsWithin_directory hskip, pathsWithin_directory hskip,
    Entry.inOrder_map fun entry hentry => (hrelisted entry hentry).name_eq, List.flatMap_map, List.flatMap_map,
    List.flatMap_congr hown, List.append_cancel_left_eq, hsplit, List.flatMap_append, List.flatMap_append,
    List.flatMap_cons, List.flatMap_cons,
    List.flatMap_congr fun entry hentry => by rw [hkept.1 entry hentry], List.append_cancel_left_eq,
    List.flatMap_congr fun entry hentry => by rw [hkept.2 entry hentry], List.append_cancel_right_eq,
    Entry.exchange, if_pos rfl, Entry.innerFiles, h.name_eq] at heq
  exact hne heq

theorem exists_relisted_ne {entry inner inner' : Entry} {names : List String} (hnamed : entry.WellNamed)
    (hlists : Lists skip path entry names) (hat : entry.at? names = some inner) (h : inner.Relisted inner')
    (hne : pathsWithin skip (path.descend names) inner' ≠ pathsWithin skip (path.descend names) inner) :
    ∃ entry', entry.Relisted entry' ∧ pathsWithin skip path entry' ≠ pathsWithin skip path entry := by
  induction names generalizing path entry with
  | nil =>
      rw [Entry.at_nil, Option.some.injEq] at hat
      subst hat
      rw [FilePath.descend_nil] at hne
      exact ⟨inner', h, hne⟩
  | cons name names ih =>
      obtain ⟨hlisted, found, hfind, hinner⟩ := lists_cons_iff.mp hlists
      obtain ⟨own, entries, rfl, hskip⟩ := lists_nil_iff.mp hlisted
      obtain ⟨found', hfind', hrest⟩ := Entry.at_cons_eq_some_iff.mp hat
      obtain rfl := Option.some.inj (hfind.symm.trans hfind')
      obtain ⟨hmem, rfl⟩ := (Entry.find_eq_some_iff hnamed.nodup).mp hfind
      rw [← FilePath.descend_child] at hne
      obtain ⟨found', hfound, hother⟩ := ih (hnamed.of_mem hmem) hinner hrest hne
      exact ⟨_, .directory own true _ (Entry.Relisted.exchange hnamed.nodup hmem hfound) (List.Perm.refl _),
        pathsWithin_exchange_ne hnamed hskip hmem hfound hother⟩

/-- A walk yields the same paths in whatever order directories are listed just if there are no ties. -/
theorem untied_iff {entry : Entry} (hnamed : entry.WellNamed) : Untied skip path entry ↔
    ∀ entry', entry.Relisted entry' → pathsWithin skip path entry' = pathsWithin skip path entry := by
  constructor
  · intro huntied entry' h
    rw [pathsWithin, filesWithin_relisted h hnamed huntied, pathsWithin]
  · intro hsame names own entries hlists hat htied
    obtain ⟨_, _, -, hskip⟩ := hlists names List.prefix_rfl
    obtain ⟨entries', hperm, hne⟩ := exists_perm_ne_of_tied (hnamed.of_at hat) hskip htied
    have hrelisted : (Entry.directory own true entries).Relisted (.directory own true entries') :=
      .directory own true id (fun entry _ => .refl entry) (by rwa [List.map_id])
    obtain ⟨entry', h, hother⟩ := exists_relisted_ne hnamed hlists hat hrelisted hne
    exact hother (hsame entry' h)

namespace FileTree

variable {tree tree' : FileTree} {root : FilePath}

theorem yielded_relisted (hnamed : tree.root.WellNamed) (h : tree.root.Relisted tree'.root)
    (huntied : ∀ entry, tree.find root = .ok entry → Untied skip root entry) :
    tree'.yielded root skip = tree.yielded root skip := by
  cases hfind : tree.find root with
  | error fault => rw [yielded_of_fault (find_fault_relisted h hnamed hfind), yielded_of_fault hfind]
  | ok entry =>
      obtain ⟨entry', hfind', hentry⟩ := find_relisted h hnamed hfind
      rw [yielded_of_find hfind', yielded_of_find hfind,
        filesWithin_relisted hentry (wellNamed_find hnamed hfind) (huntied entry hfind)]

theorem untied_of_yielded (hnamed : tree.root.WellNamed) {entry : Entry} (hfind : tree.find root = .ok entry)
    (hsame : ∀ tree' : FileTree, tree.root.Relisted tree'.root →
      (tree'.yielded root skip).map Prod.fst = (tree.yielded root skip).map Prod.fst) : Untied skip root entry := by
  refine (untied_iff (wellNamed_find hnamed hfind)).mpr fun entry' hentry => ?_
  obtain ⟨tree', h, hfind'⟩ := exists_find hnamed hfind hentry
  have hpaths := hsame tree' h
  rwa [yielded_of_find hfind', yielded_of_find hfind] at hpaths

end FileTree

end MediaCatalog.Files
