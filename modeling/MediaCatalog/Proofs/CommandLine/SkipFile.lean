import MediaCatalog.Proofs.CommandLine.ImportArguments
import MediaCatalog.Proofs.Files.Skipping
import MediaCatalog.Proofs.Intake.Gains
import MediaCatalog.Proofs.Intake.Listings

/-!
The skip file of an import. The source is resolved to its real path, but the lines of a skip file are taken as they are
written. So a line keeps the files below a directory out of the catalog if it is the real path of that directory, and any
other line means nothing, whatever it names.
-/

namespace MediaCatalog.CommandLine

open Catalog Files Intake Text

namespace Surroundings

/-- The rows of the assets in the catalog at a path. -/
def rows (s : Surroundings) (catalog : FilePath) : List AssetRow :=
  ((s.catalogs.lookup catalog).map Contents.rows).getD []

/-- Whether a line of a skip file that is neither empty nor a comment holds a path. -/
def HasSkipLine (s : Surroundings) (file : String) (line : FilePath) : Prop :=
  ∃ bytes text, s.files.read (s.locate (FilePath.ofString file)) = .ok bytes ∧ Utf8.decode bytes.toList = .ok text ∧
    ∃ written ∈ pieces '\n' (uniformLineEnds text), skipLine written = some line

/-- Whether a line of a skip file names a directory, seen from where the program runs. -/
def NamesToSkip (s : Surroundings) (file : String) (directory : FilePath) : Prop :=
  ∃ line, s.HasSkipLine file line ∧ s.files.realPath (s.locate line) = .ok directory

variable {s : Surroundings} {source file : String}

theorem mem_loadSkipList {lines : List FilePath}
    (h : s.files.loadSkipList s.directory (some (FilePath.ofString file)) = .ok lines) {line : FilePath} :
    line ∈ lines ↔ s.HasSkipLine file line := by
  rw [HasSkipLine, locate]
  rw [FileTree.loadSkipList] at h
  cases hread : s.files.read (s.directory.join (FilePath.ofString file)) with
  | error fault =>
      have hlines : lines = [] := by
        cases fault <;> rw [hread] at h <;> cases h <;> rfl
      simp [hlines]
  | ok bytes =>
      rw [hread] at h
      dsimp only at h
      rw [readSkipList] at h
      split at h
      · rename_i text hdecode
        cases h
        simp [hdecode, skipPaths, List.mem_filterMap]
      · cases h

theorem loadSkipList_of_read {bytes : ByteArray} {lines : List FilePath}
    (hread : s.files.read (s.locate (FilePath.ofString file)) = .ok bytes) (hlines : readSkipList bytes = .ok lines) :
    s.files.loadSkipList s.directory (some (FilePath.ofString file)) = .ok lines := by
  rw [locate] at hread
  rw [FileTree.loadSkipList, hread]
  exact hlines

theorem rows_of_openCatalog {path : FilePath} {contents : Contents} (h : s.openCatalog? path = some contents) :
    contents.rows = s.rows path := by
  rw [openCatalog?] at h
  rw [rows]
  cases hlookup : s.catalogs.lookup path with
  | some found =>
      rw [hlookup] at h
      cases h
      rfl
  | none =>
      rw [hlookup] at h
      have hnew : contents = Contents.new := by
        dsimp only at h
        split at h
        · split_ifs at h
          exact (Option.some.inj h).symm
        · cases h
        · split at h
          · exact (Option.some.inj h).symm
          · cases h
      rw [hnew]
      rfl

theorem lookup_filter_ne {path catalog : FilePath} (h : catalog ≠ path) (catalogs : List (FilePath × Contents)) :
    (catalogs.filter fun entry => entry.1 ≠ path).lookup catalog = catalogs.lookup catalog := by
  induction catalogs with
  | nil => rfl
  | cons entry rest ih =>
      obtain ⟨own, contents⟩ := entry
      by_cases hown : own = path
      · have hne : (catalog == own) = false := beq_eq_false_iff_ne.mpr (hown ▸ h)
        rw [List.filter_cons_of_neg (by simpa using hown), List.lookup_cons, hne]
        exact ih
      · rw [List.filter_cons_of_pos (by simpa using hown), List.lookup_cons, List.lookup_cons, ih]

theorem rows_update (s : Surroundings) (path : FilePath) (app : Application) (catalog : FilePath) :
    (s.update path app).rows catalog = if catalog = path then app.catalog.rows else s.rows catalog := by
  rw [rows, update, rows]
  by_cases hcatalog : catalog = path
  · rw [if_pos hcatalog, hcatalog, List.lookup_cons_self]
    rfl
  · have hne : (catalog == path) = false := beq_eq_false_iff_ne.mpr hcatalog
    rw [if_neg hcatalog, List.lookup_cons, hne]
    dsimp only
    rw [lookup_filter_ne hcatalog]

theorem surroundings_runProgram_of_readInvocation {args : List String} {catalogFile : String} {skipFile : Option String}
    (hread : readInvocation args = .ok ⟨catalogFile, none, .importTree source skipFile⟩) {path : FilePath}
    (hcatalog : s.resolve catalogFile = .ok path) :
    (runProgram args s).surroundings = (runImport s path source skipFile).surroundings := by
  rw [runProgram, hread]
  simp only [Option.map_none, Option.getD_none, writeLog, runInvocation, hcatalog]

theorem surroundings_runImport {path : FilePath} {contents : Contents} {root : FilePath} {lines : List FilePath}
    (hopen : s.openCatalog? path = some contents) (hroot : s.resolve source = .ok root)
    (hlines : s.files.loadSkipList s.directory (some (FilePath.ofString file)) = .ok lines) :
    (runImport s path source (some file)).surroundings =
      s.update path ((s.application contents).importTree root lines).app := by
  rw [runImport]
  simp only [Option.map_some, hroot, hlines, withCatalog, hopen]
  split <;> rfl

/-- An import with a skip file leaves everything as it was, or imports from the source into the usual catalog, with the
lines of the skip file to skip. -/
theorem surroundings_runProgram_import (s : Surroundings) (source file : String) :
    (runProgram ["import", source, "--skip-dirs-file", file] s).surroundings = s ∨
      ∃ path contents root lines, s.openCatalog? path = some contents ∧ s.resolve source = .ok root ∧
        s.files.loadSkipList s.directory (some (FilePath.ofString file)) = .ok lines ∧
        (runProgram ["import", source, "--skip-dirs-file", file] s).surroundings =
          s.update path ((s.application contents).importTree root lines).app := by
  rcases readInvocation_import source file with ⟨exit, hread⟩ | hread
  · refine .inl ?_
    rw [runProgram, hread]
    cases exit <;> rfl
  · cases hcatalog : s.resolve defaultCatalogFile with
    | error fault =>
        refine .inl ?_
        rw [runProgram, hread]
        simp only [Option.map_none, Option.getD_none, writeLog, runInvocation, hcatalog]
        rfl
    | ok path =>
        rw [surroundings_runProgram_of_readInvocation hread hcatalog]
        cases hroot : s.resolve source with
        | error fault =>
            refine .inl ?_
            rw [runImport, hroot]
            rfl
        | ok root =>
            cases hlines : s.files.loadSkipList s.directory (some (FilePath.ofString file)) with
            | error fault =>
                refine .inl ?_
                rw [runImport, hroot, Option.map_some, hlines]
                rfl
            | ok lines =>
                cases hopen : s.openCatalog? path with
                | none =>
                    refine .inl ?_
                    rw [runImport, hroot, Option.map_some, hlines]
                    dsimp only
                    rw [withCatalog, hopen]
                | some contents =>
                    exact .inr ⟨path, contents, root, lines, hopen, rfl, rfl, surroundings_runImport hopen hroot hlines⟩

theorem mem_yielded_of_medium {tree : FileTree} {root : FilePath} {skip : List FilePath} {medium : Medium}
    (h : medium ∈ (tree.walk root skip).filterMap medium?) : (medium.path, medium.content) ∈ tree.yielded root skip := by
  rw [FileTree.filterMap_medium_walk, List.mem_filterMap] at h
  obtain ⟨⟨path, content⟩, hmem, hmedium⟩ := h
  rw [medium?] at hmedium
  split_ifs at hmedium
  cases hmedium
  exact hmem

variable (h : s.files.root.WellNamed) (hdown : s.files.root.LeadsDown)

include h hdown

theorem mem_yielded_beside {root : FilePath} (hroot : s.resolve source = .ok root) {lines : List FilePath}
    (hlines : s.files.loadSkipList s.directory (some (FilePath.ofString file)) = .ok lines) {path : FilePath}
    {content : FileContent} : (path, content) ∈ s.files.yielded root lines ↔
      (path, content) ∈ s.files.yielded root [] ∧
        ∀ line, s.HasSkipLine file line → s.files.IsReal line → line ∉ path.parents := by
  rw [FileTree.mem_yielded_iff_not_mem_parents h hdown (FileTree.isReal_of_realPath hroot)]
  simp only [mem_loadSkipList hlines]

theorem exists_medium_of_gained {catalog : FilePath} {row : AssetRow}
    (hrow : row ∈ (runProgram ["import", source, "--skip-dirs-file", file] s).surroundings.rows catalog)
    (hnew : row ∉ s.rows catalog) :
    ∃ (root : FilePath) (medium : Medium), s.resolve source = .ok root ∧ (medium.path, medium.content) ∈ s.files.yielded root [] ∧
      medium.IsRecordedBy row ∧
        ∀ line, s.HasSkipLine file line → s.files.IsReal line → line ∉ medium.path.parents := by
  rcases surroundings_runProgram_import s source file with hrun | ⟨path, contents, root, lines, hopen, hroot, hlines, hrun⟩
  · exact absurd (hrun ▸ hrow) hnew
  · rw [hrun, rows_update] at hrow
    split_ifs at hrow with hcatalog
    · subst hcatalog
      have hgains := (s.application contents).gainsOnly_importStamped
        (fun place => ⟨s.now, BitVec.ofNat 128 place⟩) root lines
      rw [Contents.rows] at hrow
      cases htables : ((s.application contents).importTree root lines).app.catalog.tables with
      | none =>
          rw [htables] at hrow
          cases hrow
      | some t =>
          rw [htables] at hrow
          rcases hgains t htables row hrow with hbefore | ⟨medium, hmedium, hrecorded⟩
          · exact absurd (rows_of_openCatalog hopen ▸ hbefore) hnew
          · obtain ⟨hmem, hskip⟩ := (mem_yielded_beside h hdown hroot hlines).mp (mem_yielded_of_medium hmedium)
            exact ⟨root, medium, hroot, hmem, hrecorded, hskip⟩
    · exact absurd hrow hnew

/-- An import with a skip file depends on those of its lines alone that are real paths. -/
theorem runImport_congr {file' : String} {lines lines' : List FilePath}
    (hlines : s.files.loadSkipList s.directory (some (FilePath.ofString file)) = .ok lines)
    (hlines' : s.files.loadSkipList s.directory (some (FilePath.ofString file')) = .ok lines')
    (hsame : ∀ line, s.files.IsReal line → (s.HasSkipLine file line ↔ s.HasSkipLine file' line)) (catalog : FilePath) :
    runImport s catalog source (some file) = runImport s catalog source (some file') := by
  rw [runImport, runImport]
  simp only [Option.map_some, hlines, hlines']
  cases hroot : s.resolve source with
  | error fault => rfl
  | ok root =>
      have hreal : ∀ line, s.files.IsReal line → (line ∈ lines ↔ line ∈ lines') := by
        simpa only [mem_loadSkipList hlines, mem_loadSkipList hlines'] using hsame
      have hwalk := FileTree.walk_congr h hdown (FileTree.isReal_of_realPath hroot) hreal
      have himport : ∀ contents, (s.application contents).importTree root lines =
          (s.application contents).importTree root lines' := by
        intro contents
        simp only [Application.importTree, Application.importStamped, importTree, application, hwalk]
      simp only [withCatalog, himport]

omit h hdown

/-- Whether an import with a skip file takes nothing from below a directory that a line of the file names: all that the
catalogs gain is made from files of the source that lie elsewhere. -/
def HonoursSkipFile (s : Surroundings) (source file : String) : Prop :=
  ∀ catalog, ∀ row ∈ (runProgram ["import", source, "--skip-dirs-file", file] s).surroundings.rows catalog,
    row ∉ s.rows catalog → ∃ (root : FilePath) (medium : Medium), s.resolve source = .ok root ∧
      (medium.path, medium.content) ∈ s.files.yielded root [] ∧ medium.IsRecordedBy row ∧
        ∀ directory, s.NamesToSkip file directory → directory ∉ medium.path.parents

/-- Whether every file of the source that lies below a directory named by some line lies below a real path that some line
holds. -/
def IsCovered (s : Surroundings) (source file : String) : Prop :=
  ∀ root path content, s.resolve source = .ok root → (path, content) ∈ s.files.yielded root [] →
    ∀ directory ∈ path.parents, s.NamesToSkip file directory →
      ∃ line ∈ path.parents, s.HasSkipLine file line ∧ s.files.IsReal line

theorem isCovered_of_isReal (hreal : ∀ line, s.HasSkipLine file line → s.files.IsReal line) : s.IsCovered source file := by
  rintro root path content - - directory hdirectory ⟨line, hline, hnamed⟩
  have hlocate : s.locate line = line := by
    rw [locate, FilePath.join, if_neg]
    rw [(FileTree.isReal_iff.mp (hreal line hline)).1]
    decide
  rw [hlocate, hreal line hline] at hnamed
  exact ⟨line, Except.ok.inj hnamed ▸ hdirectory, hline, hreal line hline⟩

/-- A line of a skip file is honoured if it is the real path of what it names, and means nothing else: a walk passes over
the files below such lines and no others. So a skip file is honoured if those lines cover what all its lines name. -/
theorem import_honours_real_lines (h : s.files.root.WellNamed) (hdown : s.files.root.LeadsDown)
    (source file : String) :
    ((∀ line, s.HasSkipLine file line → s.files.IsReal line) → s.IsCovered source file) ∧
    (s.IsCovered source file → s.HonoursSkipFile source file) ∧
    ∀ lines, s.files.loadSkipList s.directory (some (FilePath.ofString file)) = .ok lines →
      (∀ root, s.resolve source = .ok root → ∀ path content, (path, content) ∈ s.files.yielded root lines ↔
        (path, content) ∈ s.files.yielded root [] ∧
          ∀ line, s.HasSkipLine file line → s.files.IsReal line → line ∉ path.parents) ∧
      ∀ file' lines', s.files.loadSkipList s.directory (some (FilePath.ofString file')) = .ok lines' →
        (∀ line, s.files.IsReal line → (s.HasSkipLine file line ↔ s.HasSkipLine file' line)) →
          ∀ catalog, runImport s catalog source (some file) = runImport s catalog source (some file') := by
  refine ⟨isCovered_of_isReal, fun hcovered catalog row hrow hnew => ?_, fun lines hlines => ⟨?_, ?_⟩⟩
  · obtain ⟨root, medium, hroot, hmem, hrecorded, hskip⟩ := exists_medium_of_gained h hdown hrow hnew
    refine ⟨root, medium, hroot, hmem, hrecorded, fun directory hnamed hdirectory => ?_⟩
    obtain ⟨line, hline, hskipLine, hreal⟩ := hcovered root _ _ hroot hmem directory hdirectory hnamed
    exact hskip line hskipLine hreal hline
  · exact fun root hroot path content => mem_yielded_beside h hdown hroot hlines
  · exact fun file' lines' hlines' hsame catalog => runImport_congr h hdown hlines hlines' hsame catalog

theorem import_honours_real_lines_absolute :
    let content : FileContent := { bytes := ⟨#[1]⟩ }
    let entry : Entry := .directory "m" true [.directory "private" true [.file "a.txt" content], .file "b.txt" content]
    let tree : FileTree :=
      ⟨.directory "" true [entry, .file "skip.txt" { bytes := "# private\n\n /m/private/ \n".toUTF8 }]⟩
    let s : Surroundings := ⟨tree, ⟨.slash, []⟩, [], ⟨.newYear 2021 (by decide), .midnight, none⟩, 1⟩
    let root : FilePath := ⟨.slash, ["m"]⟩
    let line := root.child "private"
    s.files.root.WellNamed ∧ s.files.root.LeadsDown ∧ s.resolve "m" = .ok root ∧ s.HasSkipLine "skip.txt" line ∧
      s.files.IsReal line ∧ s.IsCovered "m" "skip.txt" ∧ s.HonoursSkipFile "m" "skip.txt" ∧
      (root.child "b.txt", content) ∈ s.files.yielded root [line] ∧
      (line.child "a.txt", content) ∉ s.files.yielded root [line] := by
  -- What the skip file holds matters only where it is read.
  generalize hbytes : "# private\n\n /m/private/ \n".toUTF8 = bytes
  intro content entry tree s root line
  have hnamed : s.files.root.WellNamed := by
    simp [s, tree, entry, Entry.wellNamed_directory, Entry.WellNamed.file, Entry.name]
  have hdown : s.files.root.LeadsDown := by
    simp [s, tree, entry, Entry.leadsDown_directory, Entry.LeadsDown.file, Entry.name]
  have hroot : s.resolve "m" = .ok root := by
    simp only [s, tree]
    cbv
  have hfind : s.files.find root = .ok entry := by
    simp only [s, tree]
    cbv
  have hlines : s.files.loadSkipList s.directory (some (FilePath.ofString "skip.txt")) = .ok [line] := by
    have hread : readSkipList bytes = .ok [line] := by
      rw [← hbytes]
      exact Except.eq_ok_of_toOption (by decide +kernel)
    refine loadSkipList_of_read ?_ hread
    simp only [s, tree]
    cbv
  have hreal : s.files.IsReal line := by
    rw [FileTree.IsReal]
    simp only [s, tree, line]
    cbv
  have hline : ∀ other, s.HasSkipLine "skip.txt" other ↔ other = line := fun other => by
    rw [← mem_loadSkipList hlines, List.mem_singleton]
  obtain ⟨hcovered, hhonours, hyielded⟩ := import_honours_real_lines hnamed hdown "m" "skip.txt"
  have hskipped := (hyielded [line] hlines).1 root hroot
  have hreached : Reaches [] root entry (root.child "b.txt") content :=
    ⟨[], "b.txt", rfl, lists_nil_iff.mpr ⟨_, _, rfl, by decide⟩, rfl⟩
  have hcover := hcovered fun other hother => (hline other).mp hother ▸ hreal
  refine ⟨hnamed, hdown, hroot, (hline line).mpr rfl, hreal, hcover, hhonours hcover, (hskipped _ _).mpr ⟨?_, ?_⟩, ?_⟩
  · rw [FileTree.yielded_of_find hfind]
    exact (mem_filesWithin (FileTree.wellNamed_find hnamed hfind)).mpr hreached
  · intro other hother _
    rw [(hline other).mp hother]
    decide
  · intro hmem
    exact ((hskipped _ _).mp hmem).2 line ((hline line).mpr rfl) hreal (by decide)

/-- A line that names a directory as seen from where the program runs does not keep the files of the directory out. -/
theorem relative_line_not_honoured :
    let content : FileContent := { bytes := ⟨#[1]⟩ }
    let tree : FileTree := ⟨.directory "" true [
      .directory "m" true [.directory "private" true [.file "a.txt" content]],
      .file "skip.txt" { bytes := "m/private".toUTF8 }]⟩
    let s : Surroundings := ⟨tree, ⟨.slash, []⟩, [], ⟨.newYear 2021 (by decide), .midnight, some Calendar.Offset.utc⟩, 1⟩
    s.NamesToSkip "skip.txt" ⟨.slash, ["m", "private"]⟩ ∧ ¬ s.HonoursSkipFile "m" "skip.txt" := by
  generalize hbytes : "m/private".toUTF8 = bytes
  intro content tree s
  let root : FilePath := ⟨.slash, ["m"]⟩
  let directory := root.child "private"
  let line : FilePath := ⟨.relative, ["m", "private"]⟩
  have hcatalog : s.resolve defaultCatalogFile = .ok ⟨.slash, [defaultCatalogFile]⟩ := by
    simp only [s, tree]
    cbv
  have hopen : s.openCatalog? ⟨.slash, [defaultCatalogFile]⟩ = some Contents.new := by
    have hlookup : s.catalogs.lookup ⟨.slash, [defaultCatalogFile]⟩ = none := rfl
    rw [openCatalog?, hlookup]
    simp only [s, tree]
    cbv
  have hroot : s.resolve "m" = .ok root := by
    simp only [s, tree]
    cbv
  have hlines : s.files.loadSkipList s.directory (some (FilePath.ofString "skip.txt")) = .ok [line] := by
    have hread : readSkipList bytes = .ok [line] := by
      rw [← hbytes]
      exact Except.eq_ok_of_toOption (by decide +kernel)
    refine loadSkipList_of_read ?_ hread
    simp only [s, tree]
    cbv
  have hnamed : s.NamesToSkip "skip.txt" directory := by
    refine ⟨line, (mem_loadSkipList hlines).mp (List.mem_singleton_self line), ?_⟩
    simp only [s, tree, line]
    cbv
  -- The file is met and becomes an asset, so that the catalog has a row behind the import.
  obtain ⟨medium, hmedium⟩ : ∃ medium : Medium, medium = ⟨directory.child "a.txt", content⟩ := ⟨_, rfl⟩
  have hmedia : (s.application Contents.new).media root [line] = [medium] := by
    have hwalk : s.files.walk root [line] = [.file (directory.child "a.txt") content] := by
      simp only [s, tree, root, line]
      cbv
    have hmet : medium? (.file (directory.child "a.txt") content) = some medium :=
      (if_pos (by decide)).trans (congrArg some hmedium.symm)
    change (s.files.walk root [line]).filterMap medium? = _
    rw [hwalk, List.filterMap_cons_some hmet, List.filterMap_nil]
  have himported : Application.Imported (fun place => ⟨s.now, BitVec.ofNat 128 place⟩) (s.application Contents.new) :=
    .new s.files s.now 1
  have hproper : Proper (fun place => ⟨s.now, BitVec.ofNat 128 place⟩) 2 := by
    refine ⟨fun _ _ => rfl, fun m n hm hn => ?_⟩
    obtain ⟨rfl, rfl⟩ : m = 0 ∧ n = 1 := by omega
    change (0 : BitVec 128) ≠ 1
    decide
  have hsize : ∀ medium' ∈ [medium], medium'.content.bytes.size < 2 ^ 63 := by
    rw [List.forall_mem_singleton, hmedium]
    decide
  obtain ⟨row, hrow, -⟩ := Application.exists_row_of_mem_media himported (hmedia ▸ hproper) (hmedia ▸ hsize)
    (hmedia ▸ List.mem_singleton_self medium)
  have hgained : row ∈ (runProgram ["import", "m", "--skip-dirs-file", "skip.txt"] s).surroundings.rows
      ⟨.slash, [defaultCatalogFile]⟩ := by
    have hread : readInvocation ["import", "m", "--skip-dirs-file", "skip.txt"] =
        .ok ⟨defaultCatalogFile, none, .importTree "m" (some "skip.txt")⟩ := rfl
    rw [surroundings_runProgram_of_readInvocation hread hcatalog, surroundings_runImport hopen hroot hlines, rows_update,
      if_pos rfl]
    exact hrow
  have hyielded : s.files.yielded root [] = [(directory.child "a.txt", content)] := by
    simp only [s, tree, root]
    cbv
  refine ⟨hnamed, fun hhonours => ?_⟩
  obtain ⟨root', other, hroot', hmem, -, hskip⟩ := hhonours _ row hgained List.not_mem_nil
  obtain rfl := Except.ok.inj (hroot.symm.trans hroot')
  rw [hyielded, List.mem_singleton, Prod.mk.injEq] at hmem
  refine hskip directory hnamed ?_
  rw [hmem.1]
  decide

end Surroundings

end MediaCatalog.CommandLine
