import MediaCatalog.Proofs.Files.Ties
import MediaCatalog.Proofs.Intake.Deduplication

/-!
Imports from trees that are listed in different orders. An import depends on a walk by the files that can be read alone,
so it records the same if the walk yields the same files.
-/

namespace MediaCatalog

open Calendar Catalog Files Intake Text

namespace Intake

namespace Progress

/-- Whether two imports have come as far, whatever they logged. -/
structure Agrees (p p' : Progress) : Prop where
  connection : p.connection = p'.connection
  unused : p.unused = p'.unused
  imported : p.imported = p'.imported
  duplicates : p.duplicates = p'.duplicates

/-- Whether two runs of an import end alike, whatever they logged. -/
def EndsAlike (run run' : Except CatalogError Unit × Progress) : Prop :=
  run.1 = run'.1 ∧ run.2.Agrees run'.2

theorem EndsAlike.symm {run run' : Except CatalogError Unit × Progress} (h : EndsAlike run run') : EndsAlike run' run :=
  ⟨h.1.symm, h.2.connection.symm, h.2.unused.symm, h.2.imported.symm, h.2.duplicates.symm⟩

theorem EndsAlike.trans {run run' run'' : Except CatalogError Unit × Progress} (h : EndsAlike run run')
    (h' : EndsAlike run' run'') : EndsAlike run run'' :=
  ⟨h.1.trans h'.1, h.2.connection.trans h'.2.connection, h.2.unused.trans h'.2.unused,
    h.2.imported.trans h'.2.imported, h.2.duplicates.trans h'.2.duplicates⟩

variable {p p' : Progress}

theorem Agrees.addAsset (h : p.Agrees p') (asset : Asset) : EndsAlike (p.addAsset asset) (p'.addAsset asset) := by
  obtain ⟨connection, unused, imported, duplicates, log⟩ := p
  obtain ⟨connection', unused', imported', duplicates', log'⟩ := p'
  obtain ⟨rfl, rfl, rfl, rfl⟩ := h
  simp only [Progress.addAsset]
  cases connection.getByChecksum asset.checksum with
  | error error => exact ⟨rfl, rfl, rfl, rfl, rfl⟩
  | ok found =>
      cases found with
      | some found => exact ⟨rfl, rfl, rfl, rfl, rfl⟩
      | none =>
          obtain ⟨outcome, connection'⟩ := connection.put asset
          cases outcome <;> exact ⟨rfl, rfl, rfl, rfl, rfl⟩

/-- A run that goes on if it did not end with an error. -/
def andThen (run : Except CatalogError Unit × Progress) (next : Progress → Except CatalogError Unit × Progress) :
    Except CatalogError Unit × Progress :=
  match run with
  | (.ok (), p) => next p
  | (.error error, p) => (.error error, p)

theorem EndsAlike.andThen {run run' : Except CatalogError Unit × Progress}
    {next next' : Progress → Except CatalogError Unit × Progress} (h : EndsAlike run run')
    (hnext : ∀ p p', p.Agrees p' → EndsAlike (next p) (next' p')) :
    EndsAlike (Progress.andThen run next) (Progress.andThen run' next') := by
  obtain ⟨outcome, p⟩ := run
  obtain ⟨outcome', p'⟩ := run'
  obtain ⟨houtcome, hp⟩ := h
  obtain rfl : outcome = outcome' := houtcome
  cases outcome with
  | error error => exact ⟨rfl, hp⟩
  | ok _ => exact hnext p p' hp

/-- The progress after files that can be read, without what is logged of them. -/
def addMedia (stamps : Nat → Stamp) : List Medium → Progress → Except CatalogError Unit × Progress
  | [], p => (.ok (), p)
  | medium :: media, p =>
    andThen ({ p with unused := p.unused + 1 }.addAsset (medium.asset (stamps p.unused))) (addMedia stamps media)

/-- What a walk met is added as the files among it that can be read. -/
theorem Agrees.addEvents (h : p.Agrees p') (stamps : Nat → Stamp) (events : List WalkEvent) :
    EndsAlike (p.addEvents stamps events) (addMedia stamps (events.filterMap medium?) p') := by
  induction events generalizing p p' with
  | nil => exact ⟨rfl, h⟩
  | cons event events ih =>
      have hcons : p.addEvents stamps (event :: events) =
          andThen (p.addEvent stamps event) (Progress.addEvents stamps events) := rfl
      rw [hcons]
      cases hmedium : medium? event with
      | none =>
          obtain ⟨log, hevent⟩ := addEvent_of_none stamps p hmedium
          rw [hevent, List.filterMap_cons_none hmedium]
          exact ih ⟨h.connection, h.unused, h.imported, h.duplicates⟩
      | some medium =>
          obtain ⟨log, hevent⟩ := addEvent_of_some stamps p hmedium
          have hstep : { p with unused := p.unused + 1, log }.Agrees { p' with unused := p'.unused + 1 } :=
            ⟨h.connection, congrArg Nat.succ h.unused, h.imported, h.duplicates⟩
          rw [hevent, List.filterMap_cons_some hmedium, addMedia, h.unused]
          rw [h.unused] at hstep
          exact (hstep.addAsset _).andThen fun q q' hq => ih hq

end Progress

theorem importTree_eq_andThen (tree : FileTree) (stamps : Nat → Stamp) (root : FilePath) (skip : List FilePath)
    (c : Connection) (unused : Nat) : importTree tree stamps root skip c unused =
      Progress.andThen ((Progress.start c unused root).addEvents stamps (tree.walk root skip)) fun p =>
        (.ok (), { p with
          connection := p.connection.commit
          log := p.log ++ [LogEntry.info ("Import complete. " ++ p.imported.repr ++ " new assets, " ++
            p.duplicates.repr ++ " duplicates skipped.")] }) := by
  rw [importTree, Progress.start]
  obtain ⟨outcome, p⟩ := Progress.addEvents stamps (tree.walk root skip) _
  cases outcome <;> rfl

theorem importTree_endsAlike {tree tree' : FileTree} {root : FilePath} {skip : List FilePath} (stamps : Nat → Stamp)
    (c : Connection) (unused : Nat)
    (h : (tree'.walk root skip).filterMap medium? = (tree.walk root skip).filterMap medium?) :
    Progress.EndsAlike (importTree tree' stamps root skip c unused) (importTree tree stamps root skip c unused) := by
  have hstart : (Progress.start c unused root).Agrees (Progress.start c unused root) := ⟨rfl, rfl, rfl, rfl⟩
  have hevents := hstart.addEvents stamps (tree.walk root skip)
  have hevents' := hstart.addEvents stamps (tree'.walk root skip)
  rw [h] at hevents'
  rw [importTree_eq_andThen, importTree_eq_andThen]
  exact (hevents'.trans hevents.symm).andThen fun p p' hp =>
    ⟨rfl, congrArg Connection.commit hp.connection, hp.unused, hp.imported, hp.duplicates⟩

end Intake

theorem Files.FileTree.filterMap_medium_walk (tree : FileTree) (root : FilePath) (skip : List FilePath) :
    (tree.walk root skip).filterMap medium? =
      (tree.yielded root skip).filterMap fun file => medium? (.file file.1 file.2) := by
  rw [yielded, List.filterMap_filterMap]
  refine List.filterMap_congr fun event _ => ?_
  cases event <;> rfl

namespace Application

/-- A walk yields the same paths in whatever order directories list their entries just if there are no ties in those
that it lists, and then an import records the same. -/
theorem importStamped_in_any_order (app : Application) (h : app.files.root.WellNamed) (root : FilePath)
    (skip : List FilePath) :
    ((∀ files : FileTree, app.files.root.Relisted files.root →
        (files.yielded root skip).map Prod.fst = (app.files.yielded root skip).map Prod.fst) ↔
      ∀ entry, app.files.find root = .ok entry → Untied skip root entry) ∧
    ((∀ entry, app.files.find root = .ok entry → Untied skip root entry) →
      ∀ (files : FileTree) (stamps : Nat → Stamp), app.files.root.Relisted files.root →
        ({ app with files }.importStamped stamps root skip).outcome = (app.importStamped stamps root skip).outcome ∧
        ({ app with files }.importStamped stamps root skip).app =
          { (app.importStamped stamps root skip).app with files }) := by
  refine ⟨⟨fun hsame entry hfind => FileTree.untied_of_yielded h hfind hsame, fun huntied files hfiles => ?_⟩,
    fun huntied files stamps hfiles => ?_⟩
  · rw [FileTree.yielded_relisted h hfiles huntied]
  · have hmedia : (files.walk root skip).filterMap medium? = (app.files.walk root skip).filterMap medium? := by
      rw [files.filterMap_medium_walk, FileTree.yielded_relisted h hfiles huntied, app.files.filterMap_medium_walk]
    obtain ⟨houtcome, hprogress⟩ := importTree_endsAlike stamps app.connect app.unused hmedia
    have hconnect : { app with files }.connect = app.connect := rfl
    simp only [importStamped, hconnect, close, houtcome, hprogress.imported, hprogress.connection, hprogress.unused,
      and_self]

theorem importStamped_in_any_order_reversed :
    let text : FileContent := { bytes := ⟨#[1]⟩ }
    let listed : List Entry := [.file "b" text, .file "A" text]
    let now : DateTime := ⟨.newYear 2021 (by decide), .midnight, some Offset.utc⟩
    let app : Application := ⟨Contents.new, ⟨.directory "" true listed⟩, now, 1⟩
    let files : FileTree := ⟨.directory "" true listed.reverse⟩
    let root : FilePath := ⟨.slash, []⟩
    app.files.root.WellNamed ∧ app.files.root.Relisted files.root ∧
      (∀ entry, app.files.find root = .ok entry → Untied [] root entry) ∧
      (files.yielded root []).map Prod.fst = (app.files.yielded root []).map Prod.fst ∧
      ∀ stamps, ({ app with files }.importStamped stamps root []).outcome =
        (app.importStamped stamps root []).outcome := by
  intro text listed now app files root
  have hnamed : app.files.root.WellNamed := by
    simp [app, listed, Entry.wellNamed_directory, Entry.WellNamed.file, Entry.name]
  have hrelisted : app.files.root.Relisted files.root :=
    .directory "" true id (fun entry _ => .refl entry) (by rw [List.map_id]; exact (List.reverse_perm listed).symm)
  have hfind : app.files.find root = .ok app.files.root := app.files.find_root .slash
  have hfile : ∀ inner ∈ listed, ∃ name, inner = .file name text := by simp [listed]
  have hlower : ∀ first ∈ listed, ∀ second ∈ listed,
      lower first.name = lower second.name → first.name = second.name := by
    simp only [listed, List.forall_mem_cons, Entry.name]
    decide +kernel
  have huntied : ∀ entry, app.files.find root = .ok entry → Untied [] root entry := by
    intro entry hentry names own entries hlists hat
    obtain rfl : app.files.root = entry := Except.ok.inj (hfind.symm.trans hentry)
    cases names with
    | nil =>
        rw [Entry.at_nil, Option.some.injEq] at hat
        injection hat with _ _ hentries
        rintro ⟨first, hfirst, second, hsecond, hne, hlevel, -⟩
        exact hne (hlower first (hentries ▸ hfirst) second (hentries ▸ hsecond) hlevel)
    | cons name names =>
        obtain ⟨-, inner, hinner, hinside⟩ := lists_cons_iff.mp hlists
        obtain ⟨_, rfl⟩ := hfile inner (Entry.mem_entries_of_find hinner)
        obtain ⟨_, _, hdirectory, -⟩ := lists_nil_iff.mp hinside.nil
        cases hdirectory
  obtain ⟨hpaths, himport⟩ := importStamped_in_any_order app hnamed root []
  exact ⟨hnamed, hrelisted, huntied, hpaths.mpr huntied files hrelisted,
    fun stamps => (himport huntied files stamps hrelisted).1⟩

/-- Of two files whose names differ in case only the walk yields the one first that is listed first. -/
theorem yielded_depends_on_listing :
    let text : FileContent := { bytes := ⟨#[1]⟩ }
    let files : FileTree := ⟨.directory "" true [.file "x.tar.GZ" text, .file "x.tar.gz" text]⟩
    let files' : FileTree := ⟨.directory "" true [.file "x.tar.gz" text, .file "x.tar.GZ" text]⟩
    let root : FilePath := ⟨.slash, []⟩
    files.root.WellNamed ∧ files.root.Relisted files'.root ∧
      files.yielded root [] = [(root.child "x.tar.GZ", text), (root.child "x.tar.gz", text)] ∧
      files'.yielded root [] = [(root.child "x.tar.gz", text), (root.child "x.tar.GZ", text)] := by
  intro text files files' root
  have hnamed : files.root.WellNamed := by
    simp [files, Entry.wellNamed_directory, Entry.WellNamed.file, Entry.name]
  have hrelisted : files.root.Relisted files'.root :=
    .directory "" true id (fun entry _ => .refl entry) (by rw [List.map_id]; exact List.Perm.swap _ _ _)
  have hyielded : ∀ first second, Entry.inOrder [.file first text, .file second text] =
        [.file first text, .file second text] →
      (FileTree.mk (.directory "" true [.file first text, .file second text])).yielded root [] =
        [(root.child first, text), (root.child second, text)] := by
    intro first second horder
    have hinner : ∀ name, Entry.innerFiles [] root (.file name text) = [] :=
      fun name => Entry.innerFiles_of_not_directory rfl [] root
    rw [FileTree.yielded_of_find (FileTree.find_root _ .slash)]
    change filesWithin [] root _ = _
    rw [filesWithin_directory (by decide), horder]
    simp [Entry.ownFiles, hinner]
  exact ⟨hnamed, hrelisted, hyielded _ _ (List.mergeSort_of_pairwise (by decide +kernel)),
    hyielded _ _ (List.mergeSort_of_pairwise (by decide +kernel))⟩

end Application

end MediaCatalog
