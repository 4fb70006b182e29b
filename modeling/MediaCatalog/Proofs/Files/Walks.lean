import MediaCatalog.Proofs.Files.Names
import MediaCatalog.Proofs.Files.Preorder

/-!
What a walk meets. The files are those that names lead to through directories that can be listed and are not skipped;
each is met once, and the files of a directory come before the files of its directories.
-/

namespace MediaCatalog.Files

theorem isSkipped_iff {skip : List FilePath} {path : FilePath} :
    isSkipped skip path ↔ ∃ skipped ∈ skip, skipped = path ∨ skipped ∈ path.parents := by
  have hwithin : path.isWithin path :=
    Bool.and_eq_true_iff.mpr ⟨decide_eq_true rfl, List.isPrefixOf_iff_prefix.mpr List.prefix_rfl⟩
  rw [isSkipped, List.any_eq_true]
  refine exists_congr fun skipped => and_congr_right fun _ => ?_
  rw [FilePath.mem_parents_iff]
  by_cases heq : skipped = path
  · simp [heq, hwithin]
  · simp [heq]

/-- Whether a walk lists the directory that some names lead to: it and all directories on the way can be listed and are
not skipped. -/
def Lists (skip : List FilePath) (root : FilePath) (entry : Entry) (names : List String) : Prop :=
  ∀ front, front <+: names →
    ∃ name entries, entry.at? front = some (.directory name true entries) ∧ ¬ isSkipped skip (root.descend front)

variable {skip : List FilePath} {root : FilePath} {entry : Entry}

theorem lists_nil_iff :
    Lists skip root entry [] ↔ ∃ name entries, entry = .directory name true entries ∧ ¬ isSkipped skip root := by
  simp [Lists, List.prefix_nil, Entry.at_nil, FilePath.descend_nil]

theorem Lists.nil {names : List String} (h : Lists skip root entry names) : Lists skip root entry [] :=
  fun front hfront => h front (List.prefix_nil.mp hfront ▸ List.nil_prefix)

theorem lists_cons_iff {name : String} {names : List String} : Lists skip root entry (name :: names) ↔
    Lists skip root entry [] ∧ ∃ inner, entry.find? name = some inner ∧ Lists skip (root.child name) inner names := by
  constructor
  · intro h
    refine ⟨h.nil, ?_⟩
    obtain ⟨_, _, hat, -⟩ := h [name] (List.prefix_append [name] names)
    obtain ⟨inner, hfind, -⟩ := Entry.at_cons_eq_some_iff.mp hat
    refine ⟨inner, hfind, fun front hfront => ?_⟩
    obtain ⟨own, entries, hat, hskip⟩ := h (name :: front) (List.cons_prefix_cons.mpr ⟨rfl, hfront⟩)
    obtain ⟨inner', hfind', hrest⟩ := Entry.at_cons_eq_some_iff.mp hat
    obtain rfl := Option.some.inj (hfind.symm.trans hfind')
    exact ⟨own, entries, hrest, by rwa [FilePath.descend_child]⟩
  · rintro ⟨hnil, inner, hfind, hinner⟩ front hfront
    rcases List.prefix_cons_iff.mp hfront with rfl | ⟨front, rfl, hrest⟩
    · exact hnil [] List.nil_prefix
    · obtain ⟨own, entries, hat, hskip⟩ := hinner front hrest
      exact ⟨own, entries, Entry.at_cons_eq_some_iff.mpr ⟨inner, hfind, hat⟩, by rwa [← FilePath.descend_child]⟩

def WalkEvent.path : WalkEvent → FilePath
  | file path _ => path
  | unlistable path => path

theorem Entry.fileEvent_eq_some_iff {path : FilePath} {entry : Entry} {event : WalkEvent} :
    Entry.fileEvent path entry = some event ↔
      ∃ name content, entry = .file name content ∧ event = .file (path.child name) content := by
  cases entry <;> simp [Entry.fileEvent, eq_comm]

theorem mem_preorder_directory (h : ¬ isSkipped skip root) {name : String} {entries : List Entry} {event : WalkEvent} :
    event ∈ preorder skip root (.directory name true entries) ↔
      (∃ own content, .file own content ∈ entries ∧ event = .file (root.child own) content) ∨
        ∃ inner ∈ entries, inner.isDirectory ∧ event ∈ preorder skip (root.child inner.name) inner := by
  rw [preorder_directory h, List.mem_append, List.mem_filterMap, List.mem_flatMap]
  simp only [Entry.mem_inOrder, Entry.mem_directories_inOrder, Entry.fileEvent_eq_some_iff, and_assoc]
  refine or_congr ⟨?_, ?_⟩ Iff.rfl
  · rintro ⟨_, hmem, own, content, rfl, rfl⟩
    exact ⟨own, content, hmem, rfl⟩
  · rintro ⟨own, content, hmem, rfl⟩
    exact ⟨_, hmem, own, content, rfl, rfl⟩

/-- Induction along a walk: nothing is met in what is skipped and nothing but itself in what cannot be listed, and in
other directories what is met in their entries. -/
theorem Entry.WellNamed.induct_walk {motive : FilePath → Entry → Prop} (h : entry.WellNamed) (skip : List FilePath)
    (skipped : ∀ path entry, isSkipped skip path → motive path entry)
    (unlistable : ∀ path entry, ¬ isSkipped skip path → (∀ name entries, entry ≠ .directory name true entries) →
      motive path entry)
    (directory : ∀ path name entries, ¬ isSkipped skip path → (entries.map Entry.name).Nodup →
      (∀ inner ∈ entries, inner.WellNamed ∧ motive (path.child inner.name) inner) →
        motive path (.directory name true entries))
    (path : FilePath) : motive path entry := by
  induction h generalizing path with
  | file name content =>
      by_cases hskip : isSkipped skip path
      · exact skipped path _ hskip
      · exact unlistable path _ hskip (by simp)
  | link name target =>
      by_cases hskip : isSkipped skip path
      · exact skipped path _ hskip
      · exact unlistable path _ hskip (by simp)
  | @directory own listable entries distinct wellNamed ih =>
      by_cases hskip : isSkipped skip path
      · exact skipped path _ hskip
      · cases listable with
        | false => exact unlistable path _ hskip (by simp)
        | true =>
            exact directory path own entries hskip distinct fun inner hinner =>
              ⟨wellNamed inner hinner, ih inner hinner _⟩

/-- Whether a path leads to a file with a content in a directory that the walk lists. -/
def Reaches (skip : List FilePath) (root : FilePath) (entry : Entry) (path : FilePath) (content : FileContent) : Prop :=
  ∃ names name, path = root.descend (names ++ [name]) ∧ Lists skip root entry names ∧
    entry.at? (names ++ [name]) = some (.file name content)

theorem Reaches.lists_nil {path : FilePath} {content : FileContent} (h : Reaches skip root entry path content) :
    Lists skip root entry [] := by
  obtain ⟨names, name, -, hnames, -⟩ := h
  exact hnames.nil

theorem reaches_directory {own : String} {entries : List Entry} (distinct : (entries.map Entry.name).Nodup)
    (hskip : ¬ isSkipped skip root) {path : FilePath} {content : FileContent} :
    Reaches skip root (.directory own true entries) path content ↔
      (∃ name, .file name content ∈ entries ∧ path = root.child name) ∨
        ∃ inner ∈ entries, Reaches skip (root.child inner.name) inner path content := by
  have hfind : ∀ {name inner}, (Entry.directory own true entries).find? name = some inner ↔
      inner ∈ entries ∧ inner.name = name := Entry.find_eq_some_iff distinct
  have hlists : Lists skip root (.directory own true entries) [] := lists_nil_iff.mpr ⟨own, entries, rfl, hskip⟩
  constructor
  · rintro ⟨names, name, rfl, hnames, hat⟩
    cases names with
    | nil =>
        obtain ⟨inner, hinner, hrest⟩ := Entry.at_cons_eq_some_iff.mp hat
        rw [Entry.at_nil, Option.some.injEq] at hrest
        subst hrest
        exact .inl ⟨name, (hfind.mp hinner).1, rfl⟩
    | cons first names =>
        obtain ⟨-, inner, hinner, hnames⟩ := lists_cons_iff.mp hnames
        obtain ⟨inner', hinner', hrest⟩ := Entry.at_cons_eq_some_iff.mp hat
        obtain rfl := Option.some.inj (hinner.symm.trans hinner')
        obtain ⟨hmem, rfl⟩ := hfind.mp hinner
        exact .inr ⟨inner, hmem, names, name, (root.descend_child _ _).symm, hnames, hrest⟩
  · rintro (⟨name, hmem, rfl⟩ | ⟨inner, hmem, names, name, rfl, hnames, hat⟩)
    · exact ⟨[], name, rfl, hlists, Entry.at_cons_eq_some_iff.mpr ⟨_, hfind.mpr ⟨hmem, rfl⟩, Entry.at_nil _⟩⟩
    · have hinner := hfind.mpr ⟨hmem, rfl⟩
      exact ⟨inner.name :: names, name, root.descend_child _ _, lists_cons_iff.mpr ⟨hlists, inner, hinner, hnames⟩,
        Entry.at_cons_eq_some_iff.mpr ⟨inner, hinner, hat⟩⟩

/-- The files that are met are those that paths lead to in the directories that are listed. -/
theorem mem_preorder_iff (h : entry.WellNamed) {path : FilePath} {content : FileContent} :
    .file path content ∈ preorder skip root entry ↔ Reaches skip root entry path content := by
  refine h.induct_walk skip (motive := fun root entry => .file path content ∈ preorder skip root entry ↔
    Reaches skip root entry path content) ?skipped ?unlistable ?directory root
  case skipped =>
    intro root entry hskip
    rw [preorder_of_skipped hskip]
    refine iff_of_false List.not_mem_nil fun hreaches => ?_
    obtain ⟨_, _, -, hlisted⟩ := lists_nil_iff.mp hreaches.lists_nil
    exact hlisted hskip
  case unlistable =>
    intro root entry hskip hentry
    rw [preorder_of_not_listable hskip hentry]
    refine iff_of_false (fun hmem => by cases List.mem_singleton.mp hmem) fun hreaches => ?_
    obtain ⟨name, entries, heq, -⟩ := lists_nil_iff.mp hreaches.lists_nil
    exact hentry name entries heq
  case directory =>
    intro root own entries hskip distinct ih
    rw [mem_preorder_directory hskip, reaches_directory distinct hskip]
    refine or_congr ?_ (exists_congr fun inner => and_congr_right fun hinner => ?_)
    · constructor
      · rintro ⟨name, _, hmem, heq⟩
        injection heq with hpath hcontent
        exact ⟨name, hcontent ▸ hmem, hpath⟩
      · rintro ⟨name, hmem, rfl⟩
        exact ⟨name, content, hmem, rfl⟩
    · rw [(ih inner hinner).2, and_iff_right_iff_imp]
      intro hreaches
      obtain ⟨_, _, rfl, -⟩ := lists_nil_iff.mp hreaches.lists_nil
      rfl

/-- Whether something that a walk met may stand before something else that it met: no file may stand before one whose
directory is further up on the way to it. -/
structure MayPrecede (first later : WalkEvent) : Prop where
  path_ne : first.path ≠ later.path
  parent_not_mem : ∀ path content path' content', first = .file path content → later = .file path' content' →
    path'.parent ∉ path.parent.parents

theorem mayPrecede_of_ne {first later : WalkEvent} {name name' : String} {names names' : List String}
    (hne : name ≠ name') (hfirst : first.path = root.descend (name :: names))
    (hlater : later.path = root.descend (name' :: names'))
    (h : ∀ path content, later = .file path content → names' = [] → names = []) : MayPrecede first later where
  path_ne heq := hne (List.cons_eq_cons.mp (FilePath.descend_injective (hfirst.symm.trans (heq.trans hlater)))).1
  parent_not_mem := by
    rintro path content path' content' rfl rfl hmem
    obtain rfl : path = _ := hfirst
    obtain rfl : path' = _ := hlater
    rw [FilePath.parent_descend root (List.cons_ne_nil _ _), FilePath.parent_descend root (List.cons_ne_nil _ _),
      FilePath.mem_parents_descend] at hmem
    obtain ⟨hfront, hproper⟩ := hmem
    cases names' with
    | nil => exact hproper (by rw [h _ _ rfl rfl, List.dropLast_singleton, List.dropLast_singleton])
    | cons last' names' =>
        cases names with
        | nil => exact List.cons_ne_nil _ _ (List.prefix_nil.mp hfront)
        | cons last names => exact hne (List.cons_prefix_cons.mp hfront).1.symm

theorem exists_names_of_mem_preorder (h : entry.WellNamed) {event : WalkEvent}
    (hevent : event ∈ preorder skip root entry) : ∃ names, event.path = root.descend names ∧
      ∀ path content, event = .file path content → names ≠ [] := by
  revert hevent
  refine h.induct_walk skip (motive := fun root entry => event ∈ preorder skip root entry → ∃ names,
    event.path = root.descend names ∧ ∀ path content, event = .file path content → names ≠ []) ?skipped ?unlistable
    ?directory root
  case skipped =>
    intro root entry hskip hevent
    rw [preorder_of_skipped hskip] at hevent
    cases hevent
  case unlistable =>
    intro root entry hskip hentry hevent
    rw [preorder_of_not_listable hskip hentry, List.mem_singleton] at hevent
    subst hevent
    exact ⟨[], root.descend_nil.symm, fun _ _ heq => by cases heq⟩
  case directory =>
    intro root own entries hskip _ ih hevent
    rcases (mem_preorder_directory hskip).mp hevent with ⟨name, content, -, rfl⟩ | ⟨inner, hinner, -, hinside⟩
    · exact ⟨[name], rfl, fun _ _ _ => List.cons_ne_nil _ _⟩
    · obtain ⟨names, hpath, -⟩ := (ih inner hinner).2 hinside
      exact ⟨inner.name :: names, hpath.trans (root.descend_child _ _), fun _ _ _ => List.cons_ne_nil _ _⟩

theorem Entry.pairwise_name_ne_inOrder {entries : List Entry} (h : (entries.map Entry.name).Nodup) :
    (Entry.inOrder entries).Pairwise fun first later => first.name ≠ later.name :=
  List.pairwise_map.mp (((Entry.inOrder_perm entries).map Entry.name).nodup_iff.mpr h)

theorem exists_names_of_mem_inner {inner : Entry} (h : inner.WellNamed) {event : WalkEvent}
    (hevent : event ∈ preorder skip (root.child inner.name) inner) :
    ∃ names, event.path = root.descend (inner.name :: names) ∧
      ∀ path content, event = .file path content → names ≠ [] := by
  obtain ⟨names, hpath, hfile⟩ := exists_names_of_mem_preorder h hevent
  exact ⟨names, hpath.trans (root.descend_child _ _), hfile⟩

theorem mayPrecede_of_files {name name' : String} (hne : name ≠ name') (content content' : FileContent) :
    MayPrecede (.file (root.child name) content) (.file (root.child name') content') :=
  mayPrecede_of_ne hne (root.descend_singleton name).symm (root.descend_singleton name').symm fun _ _ _ _ => rfl

theorem mayPrecede_of_inner {name : String} {inner : Entry} (hne : name ≠ inner.name) (content : FileContent)
    (h : inner.WellNamed) {later : WalkEvent} (hlater : later ∈ preorder skip (root.child inner.name) inner) :
    MayPrecede (.file (root.child name) content) later := by
  obtain ⟨names, hpath, -⟩ := exists_names_of_mem_inner h hlater
  exact mayPrecede_of_ne hne (root.descend_singleton name).symm hpath fun _ _ _ _ => rfl

theorem mayPrecede_of_inners {inner inner' : Entry} (hne : inner.name ≠ inner'.name) (h : inner.WellNamed)
    (h' : inner'.WellNamed) {first later : WalkEvent} (hfirst : first ∈ preorder skip (root.child inner.name) inner)
    (hlater : later ∈ preorder skip (root.child inner'.name) inner') : MayPrecede first later := by
  obtain ⟨names, hpath, -⟩ := exists_names_of_mem_inner h hfirst
  obtain ⟨names', hpath', hfile⟩ := exists_names_of_mem_inner h' hlater
  exact mayPrecede_of_ne hne hpath hpath' fun path content heq hnil => absurd hnil (hfile path content heq)

/-- What is met later is never the same as what is met earlier, nor a file of a directory further up. -/
theorem pairwise_mayPrecede (h : entry.WellNamed) (skip : List FilePath) (root : FilePath) :
    (preorder skip root entry).Pairwise MayPrecede := by
  refine h.induct_walk skip (motive := fun root entry => (preorder skip root entry).Pairwise MayPrecede) ?skipped
    ?unlistable ?directory root
  case skipped =>
    intro root entry hskip
    rw [preorder_of_skipped hskip]
    exact List.Pairwise.nil
  case unlistable =>
    intro root entry hskip hentry
    rw [preorder_of_not_listable hskip hentry]
    exact List.pairwise_singleton _ _
  case directory =>
    intro root own entries hskip distinct ih
    have hnames := Entry.pairwise_name_ne_inOrder distinct
    rw [preorder_directory hskip, List.pairwise_append, List.pairwise_filterMap, List.pairwise_flatMap]
    refine ⟨?files, ⟨?within, ?between⟩, ?both⟩
    case files =>
      refine hnames.imp fun hne first hfirst later hlater => ?_
      obtain ⟨name, content, rfl, rfl⟩ := Entry.fileEvent_eq_some_iff.mp hfirst
      obtain ⟨name', content', rfl, rfl⟩ := Entry.fileEvent_eq_some_iff.mp hlater
      exact mayPrecede_of_files hne content content'
    case within =>
      intro inner hinner
      exact (ih inner (Entry.mem_directories_inOrder.mp hinner).1).2
    case between =>
      refine (hnames.filter _).imp_of_mem fun hinner hinner' hne first hfirst later hlater => ?_
      have hnamed := (ih _ (Entry.mem_directories_inOrder.mp hinner).1).1
      have hnamed' := (ih _ (Entry.mem_directories_inOrder.mp hinner').1).1
      exact mayPrecede_of_inners hne hnamed hnamed' hfirst hlater
    case both =>
      intro first hfirst later hlater
      obtain ⟨file, hfile, hevent⟩ := List.mem_filterMap.mp hfirst
      obtain ⟨name, content, rfl, rfl⟩ := Entry.fileEvent_eq_some_iff.mp hevent
      obtain ⟨inner, hinner, hmem⟩ := List.mem_flatMap.mp hlater
      obtain ⟨hentry, hdirectory⟩ := Entry.mem_directories_inOrder.mp hinner
      have hne : name ≠ inner.name := by
        intro heq
        obtain rfl := Entry.eq_of_name_eq distinct (Entry.mem_inOrder.mp hfile) hentry heq
        cases hdirectory
      exact mayPrecede_of_inner hne content (ih inner hentry).1 hmem

/-- The file that a walk yields where it meets something. -/
def WalkEvent.file? : WalkEvent → Option (FilePath × FileContent)
  | file path content => some (path, content)
  | unlistable _ => none

theorem WalkEvent.file_eq_some_iff {event : WalkEvent} {path : FilePath} {content : FileContent} :
    event.file? = some (path, content) ↔ event = .file path content := by
  cases event <;> simp [file?]

/-- The files that a walk yields in a directory at a path. -/
def filesWithin (skip : List FilePath) (path : FilePath) (entry : Entry) : List (FilePath × FileContent) :=
  (preorder skip path entry).filterMap WalkEvent.file?

theorem mem_filesWithin (h : entry.WellNamed) {path : FilePath} {content : FileContent} :
    (path, content) ∈ filesWithin skip root entry ↔ Reaches skip root entry path content := by
  rw [← mem_preorder_iff h, filesWithin, List.mem_filterMap]
  simp only [WalkEvent.file_eq_some_iff, exists_eq_right]

theorem nodup_filesWithin (h : entry.WellNamed) (skip : List FilePath) (root : FilePath) :
    ((filesWithin skip root entry).map Prod.fst).Nodup := by
  rw [List.Nodup, List.pairwise_map, filesWithin, List.pairwise_filterMap]
  refine (pairwise_mayPrecede h skip root).imp fun {first later} hprecede file hfile file' hfile' => ?_
  rw [WalkEvent.file_eq_some_iff.mp hfile, WalkEvent.file_eq_some_iff.mp hfile'] at hprecede
  exact hprecede.path_ne

theorem pairwise_filesWithin (h : entry.WellNamed) (skip : List FilePath) (root : FilePath) :
    (filesWithin skip root entry).Pairwise fun first later => later.1.parent ∉ first.1.parent.parents := by
  rw [filesWithin, List.pairwise_filterMap]
  refine (pairwise_mayPrecede h skip root).imp fun {first later} hprecede file hfile file' hfile' => ?_
  exact hprecede.parent_not_mem _ _ _ _ (WalkEvent.file_eq_some_iff.mp hfile) (WalkEvent.file_eq_some_iff.mp hfile')

namespace FileTree

def yielded (tree : FileTree) (root : FilePath) (skip : List FilePath) : List (FilePath × FileContent) :=
  (tree.walk root skip).filterMap WalkEvent.file?

theorem yielded_of_find {tree : FileTree} {entry : Entry} (h : tree.find root = .ok entry) (skip : List FilePath) :
    tree.yielded root skip = filesWithin skip root entry := by
  rw [yielded, walk_of_find h, filesWithin]

theorem yielded_of_fault {tree : FileTree} {fault : FileFault} (h : tree.find root = .error fault)
    (skip : List FilePath) : tree.yielded root skip = [] := by
  rw [yielded, walk_of_fault h]
  split_ifs <;> rfl

/-- The walk through a tree is the recursion, and the loop over a stack comes to an end with it. What it yields are the
files that can be reached in directories that are listed, each once, and those of a directory before those of the
directories in it. -/
theorem walk_eq_preorder (tree : FileTree) (h : tree.root.WellNamed) (root : FilePath) (skip : List FilePath) :
    (∀ path, isSkipped skip path ↔ ∃ skipped ∈ skip, skipped = path ∨ skipped ∈ path.parents) ∧
    (∀ entries, Entry.IsInOrder entries (Entry.inOrder entries)) ∧
    (∀ fault, tree.find root = .error fault → tree.yielded root skip = []) ∧
    ∀ entry, tree.find root = .ok entry →
      tree.walk root skip = preorder skip root entry ∧
      (∀ n, entry.weight ≤ n → (Walker.turn skip)^[n] (Walker.start root entry) = ⟨[], tree.walk root skip⟩) ∧
      (∀ path content, (path, content) ∈ tree.yielded root skip ↔ Reaches skip root entry path content) ∧
      ((tree.yielded root skip).map Prod.fst).Nodup ∧
      (tree.yielded root skip).Pairwise fun first later => later.1.parent ∉ first.1.parent.parents := by
  refine ⟨fun _ => isSkipped_iff, Entry.isInOrder_inOrder, fun _ hfault => yielded_of_fault hfault skip, ?_⟩
  intro entry hfind
  have hwalk := walk_of_find hfind skip
  have hentry := wellNamed_find h hfind
  rw [yielded_of_find hfind]
  exact ⟨hwalk, fun n hn => hwalk ▸ Walker.iterate_turn_start root entry hn, fun path content => mem_filesWithin hentry,
    nodup_filesWithin hentry skip root, pairwise_filesWithin hentry skip root⟩

theorem walk_eq_preorder_locked_and_skipped :
    let text : FileContent := { bytes := ⟨#[1]⟩ }
    let inner : List Entry := [.link "3" "2", .file "2" text]
    let listed : List Entry := [.directory "skip" true [.file "y" text], .directory "locked" false [.file "x" text],
      .link "d" "b", .directory "C" true inner, .file "b" text, .file "A" text]
    let entry := Entry.directory "m" true listed
    let tree : FileTree := ⟨.directory "" true [entry]⟩
    let root : FilePath := ⟨.slash, ["m"]⟩
    let skip := [root.child "skip"]
    tree.root.WellNamed ∧ tree.find root = .ok entry ∧ tree.walk root skip = [.file (root.child "A") text,
      .file (root.child "b") text, .file ((root.child "C").child "2") text, .unlistable (root.child "locked")] := by
  intro text inner listed entry tree root skip
  have hnamed : tree.root.WellNamed := by
    simp [tree, entry, listed, inner, Entry.wellNamed_directory, Entry.WellNamed.file, Entry.WellNamed.link, Entry.name]
  have hfind : tree.find root = .ok entry := by
    rw [find, follow, followFrom]
    change (tree.followFrom true maxLinks ["m"] [] >>= _) = _
    rw [followFrom]
    rfl
  refine ⟨hnamed, hfind, ?_⟩
  rw [((walk_eq_preorder tree hnamed root skip).2.2.2 entry hfind).1]
  have hinner : Entry.inOrder inner = inner.reverse :=
    Entry.inOrder_eq_of_perm (List.reverse_perm inner).symm (by decide +kernel)
  have hlisted : Entry.inOrder listed = listed.reverse :=
    Entry.inOrder_eq_of_perm (List.reverse_perm listed).symm (by decide +kernel)
  have hcapital : preorder skip (root.child "C") (.directory "C" true inner) =
      [.file ((root.child "C").child "2") text] := by
    rw [preorder_directory (by decide), hinner]
    rfl
  have hlocked : preorder skip (root.child "locked") (.directory "locked" false [.file "x" text]) =
      [.unlistable (root.child "locked")] :=
    preorder_of_not_listable (by decide) (by simp)
  have hskipped : preorder skip (root.child "skip") (.directory "skip" true [.file "y" text]) = [] :=
    preorder_of_skipped (by decide) _
  rw [preorder_directory (by decide), hlisted]
  change [.file (root.child "A") text, .file (root.child "b") text] ++ (preorder skip (root.child "C") _ ++
    (preorder skip (root.child "locked") _ ++ (preorder skip (root.child "skip") _ ++ []))) = _
  rw [hcapital, hlocked, hskipped]
  rfl

end FileTree

end MediaCatalog.Files
