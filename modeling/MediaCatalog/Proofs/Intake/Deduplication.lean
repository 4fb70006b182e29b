import MediaCatalog.Application
import MediaCatalog.Proofs.Catalog.Transactions
import MediaCatalog.Proofs.Intake.Stamps

/-!
Imports and duplicates. However often directories are imported, and however their files change in between, an import
adds one asset for every checksum that the catalog does not have yet, and leaves all others as they are.
-/

namespace MediaCatalog

open Calendar Catalog Files Intake

namespace Intake

variable {stamps : Nat → Stamp} {used : Nat}

/-- Whether assets are those that some files become in a catalog with known checksums: one for each checksum that is not
known, made from the first file that has it and the stamp at the place of that file. -/
structure NewAssets (stamps : Nat → Stamp) (start : Nat) (known : List String) (media : List Medium)
    (added : List Asset) : Prop where
  checksums : ∀ checksum, checksum ∈ added.map Asset.checksum ↔
    checksum ∈ media.map Medium.checksum ∧ checksum ∉ known
  nodup : (added.map Asset.checksum).Nodup
  first : ∀ asset ∈ added, ∃ (i : Nat) (medium : Medium), media[i]? = some medium ∧
    medium.checksum ∉ (media.take i).map Medium.checksum ∧ asset = medium.asset (stamps (start + i))

namespace NewAssets

variable {start : Nat} {known : List String} {media : List Medium} {added : List Asset}

theorem nil (stamps : Nat → Stamp) (start : Nat) (known : List String) : NewAssets stamps start known [] [] :=
  ⟨fun checksum => by simp, List.nodup_nil, fun asset hasset => absurd hasset List.not_mem_nil⟩

theorem first_append (h : NewAssets stamps start known media added) (more : List Medium) :
    ∀ asset ∈ added, ∃ (i : Nat) (medium : Medium), (media ++ more)[i]? = some medium ∧
      medium.checksum ∉ ((media ++ more).take i).map Medium.checksum ∧ asset = medium.asset (stamps (start + i)) := by
  intro asset hasset
  obtain ⟨i, medium, hmedium, hfirst, hmade⟩ := h.first asset hasset
  obtain ⟨hi, _⟩ := List.getElem?_eq_some_iff.mp hmedium
  refine ⟨i, medium, ?_, ?_, hmade⟩
  · rw [List.getElem?_append_left hi, hmedium]
  · rwa [List.take_append_of_le_length hi.le]

/-- A file with a checksum that is known, or that some file before has, becomes no asset. -/
theorem skip (h : NewAssets stamps start known media added) {medium : Medium}
    (hknown : medium.checksum ∈ known ∨ medium.checksum ∈ added.map Asset.checksum) :
    NewAssets stamps start known (media ++ [medium]) added := by
  refine ⟨fun checksum => ?_, h.nodup, h.first_append [medium]⟩
  rw [h.checksums, List.map_append, List.mem_append, List.map_singleton, List.mem_singleton]
  constructor
  · rintro ⟨hmedia, hnew⟩
    exact ⟨.inl hmedia, hnew⟩
  · rintro ⟨hmedia | rfl, hnew⟩
    · exact ⟨hmedia, hnew⟩
    · exact (h.checksums _).mp (hknown.resolve_left hnew)

theorem add (h : NewAssets stamps start known media added) {medium : Medium} (hnew : medium.checksum ∉ known)
    (hadded : medium.checksum ∉ added.map Asset.checksum) :
    NewAssets stamps start known (media ++ [medium]) (added ++ [medium.asset (stamps (start + media.length))]) := by
  have hchecksum : (medium.asset (stamps (start + media.length))).checksum = medium.checksum := rfl
  refine ⟨fun checksum => ?_, ?_, ?_⟩
  · simp only [List.map_append, List.mem_append, List.map_singleton, List.mem_singleton, h.checksums, hchecksum]
    constructor
    · rintro (⟨hmedia, hunknown⟩ | rfl)
      · exact ⟨.inl hmedia, hunknown⟩
      · exact ⟨.inr rfl, hnew⟩
    · rintro ⟨hmedia | rfl, hunknown⟩
      · exact .inl ⟨hmedia, hunknown⟩
      · exact .inr rfl
  · rw [List.map_append, List.map_singleton, hchecksum, ← List.concat_eq_append]
    exact h.nodup.concat hadded
  · intro asset hasset
    rcases List.mem_append.mp hasset with hasset | hasset
    · exact h.first_append [medium] asset hasset
    · refine ⟨media.length, medium, List.getElem?_concat_length, ?_, List.mem_singleton.mp hasset⟩
      rw [List.take_left]
      intro hmedia
      exact hadded ((h.checksums _).mpr ⟨hmedia, hnew⟩)

/-- There are as many new assets as there are checksums that are not known. -/
theorem length_eq (h : NewAssets stamps start known media added) :
    added.length = ((media.map Medium.checksum).toFinset \ known.toFinset).card := by
  rw [← List.length_map Asset.checksum, ← List.toFinset_card_of_nodup h.nodup]
  congr 1
  ext checksum
  rw [List.mem_toFinset, h.checksums, Finset.mem_sdiff, List.mem_toFinset, List.mem_toFinset]

end NewAssets

/-- How far an import is behind some files, which became the assets `added` in a catalog with the records `before`. -/
structure Reached (stamps : Nat → Stamp) (start : Nat) (before : Records) (media : List Medium) (p : Progress)
    (added : List Asset) (after : Records) : Prop where
  represents : p.connection.Represents after
  versions : p.connection.working.versions ≠ []
  stamped : ∀ asset ∈ after.assets, Stamped stamps p.unused asset
  unused : p.unused = start + media.length
  imported : p.imported = added.length
  newAssets : NewAssets stamps start (before.assets.map Asset.checksum) media added
  mem_assets : ∀ asset, asset ∈ after.assets ↔ asset ∈ before.assets ∨ asset ∈ added

namespace Reached

variable {start : Nat} {before after : Records} {media : List Medium} {p : Progress} {added : List Asset}

theorem mem_checksums (h : Reached stamps start before media p added after) (checksum : String) :
    checksum ∈ after.assets.map Asset.checksum ↔
      checksum ∈ before.assets.map Asset.checksum ∨ checksum ∈ added.map Asset.checksum := by
  simp only [List.mem_map, h.mem_assets, or_and_right, exists_or]

theorem log (h : Reached stamps start before media p added after) (log : List LogEntry) :
    Reached stamps start before media { p with log } added after :=
  ⟨h.represents, h.versions, h.stamped, h.unused, h.imported, h.newAssets, h.mem_assets⟩

theorem skip (h : Reached stamps start before media p added after) {medium : Medium}
    (hknown : medium.checksum ∈ after.assets.map Asset.checksum) (log : List LogEntry) :
    ∃ p', { p with unused := p.unused + 1, log }.addAsset (medium.asset (stamps p.unused)) = (.ok (), p') ∧
      Reached stamps start before (media ++ [medium]) p' added after := by
  obtain ⟨found, hfound, hiff⟩ := h.represents.exists_getByChecksum medium.checksum_ne_empty
  obtain ⟨asset, rfl⟩ := Option.isSome_iff_exists.mp (hiff.mpr hknown)
  refine ⟨_, Progress.addAsset_of_found hfound, h.represents, h.versions, ?_, ?_, h.imported, ?_, h.mem_assets⟩
  · exact fun asset hasset => (h.stamped asset hasset).mono (Nat.le_succ p.unused)
  · rw [List.length_append, List.length_singleton, ← Nat.add_assoc, ← h.unused]
  · exact h.newAssets.skip ((h.mem_checksums _).mp hknown)

theorem add (h : Reached stamps start before media p added after) {medium : Medium}
    (hnew : medium.checksum ∉ after.assets.map Asset.checksum) (hproper : Proper stamps (p.unused + 1))
    (hsize : medium.content.bytes.size < 2 ^ 63) (log : List LogEntry) :
    ∃ p' after', { p with unused := p.unused + 1, log }.addAsset (medium.asset (stamps p.unused)) = (.ok (), p') ∧
      Reached stamps start before (media ++ [medium]) p' (added ++ [medium.asset (stamps p.unused)]) after' := by
  obtain ⟨asset, hasset⟩ : ∃ asset, asset = medium.asset (stamps p.unused) := ⟨_, rfl⟩
  have hrecord : asset.recorded? = some asset := hasset ▸ medium.recorded_asset (hproper.utc _ (Nat.lt_succ_self _))
  have hchecksum : asset.checksum = medium.checksum := hasset ▸ rfl
  have hlength : asset.byteLength = medium.content.bytes.size := hasset ▸ rfl
  have hdistinct : ∀ n < p.unused, (stamps n).unique ≠ (stamps p.unused).unique :=
    fun n hn => hproper.distinct n p.unused hn (Nat.lt_succ_self _)
  have hkey : after[asset.key]? = none := hasset ▸ getElem_eq_none_of_stamped h.represents h.stamped hdistinct medium
  obtain ⟨hput, hafter⟩ := h.represents.put_of_new hrecord (by rw [hlength]; omega) (hchecksum ▸ hnew) hkey
  -- assets of this import that are not committed yet are looked up like all others
  obtain ⟨found, hfound, hiff⟩ := h.represents.exists_getByChecksum medium.checksum_ne_empty
  obtain rfl : found = none := Option.not_isSome_iff_eq_none.mp (mt hiff.mp hnew)
  rw [← hchecksum] at hfound hnew
  rw [h.mem_checksums, not_or] at hnew
  rw [← hasset]
  refine ⟨_, after.insert asset.key asset, Progress.addAsset_of_new hfound hput, ?_, ?_, ?_, ?_, ?_, ?_, ?_⟩
  · rw [Connection.Represents, Progress.working_commitIf]
    exact hafter
  · rw [Progress.working_commitIf, (Connection.unsettled_put asset p.connection).versions]
    exact h.versions
  · intro other hother
    rcases (Records.mem_assets_insert hkey).mp hother with rfl | hother
    · exact hasset ▸ stamped_asset medium p.unused
    · exact (h.stamped other hother).mono (Nat.le_succ p.unused)
  · rw [List.length_append, List.length_singleton, ← Nat.add_assoc, ← h.unused]
  · rw [List.length_append, List.length_singleton, ← h.imported]
  · rw [hasset, h.unused]
    exact h.newAssets.add (hchecksum ▸ hnew.1) (hchecksum ▸ hnew.2)
  · intro other
    rw [Records.mem_assets_insert hkey, h.mem_assets, List.mem_append, List.mem_singleton, or_comm, or_assoc]

theorem addEvent (h : Reached stamps start before media p added after) (event : WalkEvent)
    (hproper : Proper stamps (p.unused + (medium? event).toList.length))
    (hsize : ∀ medium ∈ medium? event, medium.content.bytes.size < 2 ^ 63) :
    ∃ p' added' after', p.addEvent stamps event = (.ok (), p') ∧
      Reached stamps start before (media ++ (medium? event).toList) p' added' after' := by
  cases hmedium : medium? event with
  | none =>
      obtain ⟨log, hevent⟩ := Progress.addEvent_of_none stamps p hmedium
      refine ⟨_, added, after, hevent, ?_⟩
      rw [Option.toList_none, List.append_nil]
      exact h.log log
  | some medium =>
      rw [hmedium] at hproper
      obtain ⟨log, hevent⟩ := Progress.addEvent_of_some stamps p hmedium
      rw [hevent]
      by_cases hknown : medium.checksum ∈ after.assets.map Asset.checksum
      · obtain ⟨p', hadd, h'⟩ := h.skip hknown log
        exact ⟨p', added, after, hadd, h'⟩
      · obtain ⟨p', after', hadd, h'⟩ := h.add hknown hproper (hsize medium hmedium) log
        exact ⟨p', _, after', hadd, h'⟩

theorem addEvents (h : Reached stamps start before media p added after) (events : List WalkEvent)
    (hproper : Proper stamps (p.unused + (events.filterMap medium?).length))
    (hsize : ∀ medium ∈ events.filterMap medium?, medium.content.bytes.size < 2 ^ 63) :
    ∃ p' added' after', p.addEvents stamps events = (.ok (), p') ∧
      Reached stamps start before (media ++ events.filterMap medium?) p' added' after' := by
  induction events generalizing media p added after with
  | nil =>
      refine ⟨p, added, after, rfl, ?_⟩
      rwa [List.filterMap_nil, List.append_nil]
  | cons event events ih =>
      have hmedia : (event :: events).filterMap medium? = (medium? event).toList ++ events.filterMap medium? := by
        rw [List.filterMap_cons]
        cases medium? event <;> rfl
      rw [hmedia, List.length_append, ← Nat.add_assoc] at hproper
      rw [hmedia, List.forall_mem_append] at hsize
      obtain ⟨p', added', after', hevent, h'⟩ := h.addEvent event (hproper.mono (Nat.le_add_right _ _))
        fun medium hmedium => hsize.1 medium (Option.mem_toList.mpr hmedium)
      have hunused : p'.unused = p.unused + (medium? event).toList.length := by
        rw [h'.unused, h.unused, List.length_append, Nat.add_assoc]
      rw [hmedia, ← List.append_assoc, Progress.addEvents, hevent]
      exact ih h' (hunused ▸ hproper) hsize.2

end Reached

theorem Progress.addEvents_of_known (stamps : Nat → Stamp) {p : Progress} {records : Records}
    (h : p.connection.Represents records) (events : List WalkEvent)
    (hknown : ∀ medium ∈ events.filterMap medium?, medium.checksum ∈ records.assets.map Asset.checksum) :
    ∃ p', p.addEvents stamps events = (.ok (), p') ∧ p'.connection = p.connection ∧ p'.imported = p.imported := by
  induction events generalizing p with
  | nil => exact ⟨p, rfl, rfl, rfl⟩
  | cons event events ih =>
      rw [Progress.addEvents]
      cases hmedium : medium? event with
      | none =>
          rw [List.filterMap_cons_none hmedium] at hknown
          obtain ⟨log, hevent⟩ := addEvent_of_none stamps p hmedium
          rw [hevent]
          exact ih (p := { p with log }) h hknown
      | some medium =>
          rw [List.filterMap_cons_some hmedium, List.forall_mem_cons] at hknown
          obtain ⟨log, hevent⟩ := addEvent_of_some stamps p hmedium
          obtain ⟨found, hfound, hiff⟩ := h.exists_getByChecksum medium.checksum_ne_empty
          obtain ⟨asset, rfl⟩ := Option.isSome_iff_exists.mp (hiff.mpr hknown.1)
          rw [hevent, addAsset_of_found hfound]
          exact ih (p := { p with unused := p.unused + 1, duplicates := p.duplicates + 1, log }) h hknown.2

theorem importTree_of_addEvents {tree : FileTree} {root : FilePath} {skip : List FilePath} {c : Connection}
    {unused : Nat} {p : Progress}
    (h : (Progress.start c unused root).addEvents stamps (tree.walk root skip) = (.ok (), p)) :
    ∃ log, importTree tree stamps root skip c unused =
      (.ok (), { p with connection := p.connection.commit, log }) := by
  refine ⟨p.log ++ [LogEntry.info ("Import complete. " ++ p.imported.repr ++ " new assets, " ++
    p.duplicates.repr ++ " duplicates skipped.")], ?_⟩
  rw [Progress.start] at h
  rw [importTree]
  simp only [h]

end Intake

namespace Application

variable {stamps : Nat → Stamp} {app : Application}

/-- The applications that come about by imports, which take their stamps one after the other, while the files and the
time change. -/
inductive Imported (stamps : Nat → Stamp) : Application → Prop where
  | new (files : FileTree) (now : DateTime) (unused : Nat) : Imported stamps ⟨Contents.new, files, now, unused⟩
  | change {app : Application} (files : FileTree) (now : DateTime) (h : Imported stamps app) :
      Imported stamps { app with files, now }
  | importTree {app : Application} (root : FilePath) (skip : List FilePath) (h : Imported stamps app) :
      Imported stamps (app.importStamped stamps root skip).app

/-- The files that an import of a directory reads, in the order of the walk. -/
def media (app : Application) (root : FilePath) (skip : List FilePath) : List Medium :=
  (app.files.walk root skip).filterMap medium?

theorem Imported.satisfies (h : Imported stamps app) : app.catalog.Satisfies (FromStamps stamps app.unused) := by
  induction h with
  | new files now unused => exact fun _ ht => nomatch ht
  | change files now _ ih => exact ih
  | importTree root skip _ ih =>
      have hconnect := Connection.satisfies_connect ih (fromStamps_empty _ _)
      exact (satisfies_importTree hconnect _ root skip).committed

theorem versions_connect (app : Application) : app.connect.working.versions ≠ [] := by
  change (if app.catalog.versions.isEmpty then [Contents.schemaVersion] else app.catalog.versions) ≠ []
  split_ifs with hempty
  · exact List.cons_ne_nil _ _
  · simpa using hempty

theorem Imported.exists_records (h : Imported stamps app) :
    ∃ records, app.connect.Represents records ∧ ∀ asset ∈ records.assets, Stamped stamps app.unused asset := by
  have hconnect := Connection.satisfies_connect h.satisfies (fromStamps_empty _ _)
  obtain ⟨records, hrecords, hstamped⟩ := hconnect.working _ rfl
  exact ⟨records, ⟨_, rfl, hrecords⟩, hstamped⟩

/-- What an import answers and leaves if no step of it fails. -/
theorem importStamped_of_addEvents {root : FilePath} {skip : List FilePath} {p : Progress}
    (h : (Progress.start app.connect app.unused root).addEvents stamps (app.files.walk root skip) = (.ok (), p)) :
    (app.importStamped stamps root skip).outcome = .ok p.imported ∧
      (app.importStamped stamps root skip).app = { app with catalog := p.connection.working, unused := p.unused } := by
  obtain ⟨log, himport⟩ := importTree_of_addEvents h
  rw [importStamped, himport]
  exact ⟨rfl, rfl⟩

theorem importStamped_of_known (stamps : Nat → Stamp) {records : Records} {t : Tables}
    (hversions : app.catalog.versions ≠ []) (htables : app.catalog.tables = some t)
    (h : app.connect.Represents records) {root : FilePath} {skip : List FilePath}
    (hknown : ∀ medium ∈ app.media root skip, medium.checksum ∈ records.assets.map Asset.checksum) :
    (app.importStamped stamps root skip).outcome = .ok 0 ∧
      (app.importStamped stamps root skip).app.catalog = app.catalog := by
  obtain ⟨p, hevents, hconnection, himported⟩ :=
    Progress.addEvents_of_known stamps (p := Progress.start app.connect app.unused root) h _ hknown
  obtain ⟨houtcome, happ⟩ := importStamped_of_addEvents hevents
  rw [houtcome, happ, himported, hconnection]
  exact ⟨rfl, Contents.withSchema_eq_self hversions htables⟩

/-- What an import does to a catalog with the assets `before`: it adds one asset for every checksum that is new, and the
same import right after it adds none. -/
structure Deduplicates (stamps : Nat → Stamp) (app : Application) (root : FilePath) (skip : List FilePath)
    (before added after : List Asset) : Prop where
  holdsBefore : app.connect.Holds before
  outcome : (app.importStamped stamps root skip).outcome =
    .ok (((app.media root skip).map Medium.checksum).toFinset \ (before.map Asset.checksum).toFinset).card
  newAssets : NewAssets stamps app.unused (before.map Asset.checksum) (app.media root skip) added
  holdsAfter : (app.importStamped stamps root skip).app.connect.Holds after
  kept : after.Perm (before ++ added)
  distinct : (after.map Asset.checksum).Nodup
  used : (app.importStamped stamps root skip).app.unused = app.unused + (app.media root skip).length
  again : ((app.importStamped stamps root skip).app.importStamped stamps root skip).outcome = .ok 0
  unchanged : ((app.importStamped stamps root skip).app.importStamped stamps root skip).app.catalog =
    (app.importStamped stamps root skip).app.catalog

/-- The files may have any length that fits the 64 bits of a file system's numbers. -/
theorem importStamped_deduplicates (h : Imported stamps app) (root : FilePath) (skip : List FilePath)
    (hproper : Proper stamps (app.unused + (app.media root skip).length))
    (hsize : ∀ medium ∈ app.media root skip, medium.content.bytes.size < 2 ^ 63) :
    ∃ before added after, Deduplicates stamps app root skip before added after := by
  obtain ⟨before, hbefore, hstamped⟩ := h.exists_records
  have hstart : Reached stamps app.unused before [] (Progress.start app.connect app.unused root) [] before :=
    ⟨hbefore, app.versions_connect, hstamped, rfl, rfl, NewAssets.nil _ _ _, fun asset => by simp⟩
  obtain ⟨p, added, after, hevents, hp⟩ := hstart.addEvents _ hproper hsize
  rw [List.nil_append] at hp
  obtain ⟨houtcome, happ⟩ := importStamped_of_addEvents hevents
  have hafter : (app.importStamped stamps root skip).app.connect.Represents after := by
    rw [happ]
    exact hp.represents.connect
  have hknown : ∀ medium ∈ app.media root skip, medium.checksum ∈ after.assets.map Asset.checksum := by
    intro medium hmedium
    by_cases hold : medium.checksum ∈ before.assets.map Asset.checksum
    · exact (hp.mem_checksums _).mpr (.inl hold)
    · exact (hp.mem_checksums _).mpr (.inr ((hp.newAssets.checksums _).mpr ⟨List.mem_map_of_mem hmedium, hold⟩))
  obtain ⟨t, ht, _⟩ := hp.represents
  have hmedia : (app.importStamped stamps root skip).app.media root skip = app.media root skip := by
    rw [happ, media, media]
  obtain ⟨hagain, hunchanged⟩ := importStamped_of_known stamps (by rw [happ]; exact hp.versions)
    (by rw [happ]; exact ht) hafter (hmedia ▸ hknown)
  refine ⟨before.assets, added, after.assets, hbefore.holds, ?_, hp.newAssets, hafter.holds, ?_, ?_, ?_, hagain,
    hunchanged⟩
  · rw [houtcome, hp.imported, hp.newAssets.length_eq]
    rfl
  · have hdisjoint : ∀ asset ∈ before.assets, ∀ new ∈ added, asset ≠ new := by
      rintro asset hasset _ hnew rfl
      exact ((hp.newAssets.checksums _).mp (List.mem_map_of_mem hnew)).2 (List.mem_map_of_mem hasset)
    refine (List.perm_ext_iff_of_nodup hafter.holds.nodup ?_).mpr ?_
    · exact List.nodup_append.mpr ⟨hbefore.holds.nodup, hp.newAssets.nodup.of_map _, hdisjoint⟩
    · intro asset
      rw [hp.mem_assets, List.mem_append]
  · exact hafter.nodup_checksums fun asset hasset => (hp.stamped asset hasset).checksum
  · rw [happ]
    exact hp.unused

theorem importStamped_deduplicates_shared_content :
    let shared : FileContent := { bytes := ⟨#[255, 216]⟩ }
    let files : FileTree := ⟨.directory "" true [.file "._a.jpg" { bytes := ⟨#[5]⟩ }, .file "a.jpg" shared,
      .file "b.jpg" shared, .file "c.jpg" { bytes := ⟨#[6]⟩, readable := false }]⟩
    let now : DateTime := ⟨.newYear 2021 (by decide), .midnight, some Offset.utc⟩
    let stamps (place : Nat) : Stamp := ⟨now, BitVec.ofNat 128 place⟩
    let app : Application := ⟨Contents.new, files, now, 1⟩
    let root : FilePath := ⟨.slash, []⟩
    Imported stamps app ∧ Proper stamps (app.unused + (app.media root []).length) ∧
      (∀ medium ∈ app.media root [], medium.content.bytes.size < 2 ^ 63) ∧ app.media root [] =
        [⟨root.child "a.jpg", shared⟩, ⟨root.child "b.jpg", shared⟩] ∧
      (∃ before added after, Deduplicates stamps app root [] before added after) ∧
      (app.importStamped stamps root []).outcome = .ok 1 := by
  intro shared files now stamps app root
  have hfind : files.find root = .ok files.root := by
    rw [FileTree.find, FileTree.follow, FileTree.followFrom]
    rfl
  have horder : Entry.inOrder files.root.entries = files.root.entries :=
    List.mergeSort_of_pairwise (by decide +kernel)
  have hwalk : files.walk root [] = files.root.entries.filterMap (Entry.fileEvent root) := by
    simp only [files, Entry.entries] at horder ⊢
    rw [FileTree.walk, hfind]
    simp only [files, walkStack, Visit.inside, horder]
    change _ ++ walkStack [] [] = _
    rw [walkStack, List.append_nil]
  have hmedia : app.media root [] = [⟨root.child "a.jpg", shared⟩, ⟨root.child "b.jpg", shared⟩] := by
    rw [media, hwalk]
    simp [files, Entry.entries, Entry.fileEvent, medium?, FilePath.child, FilePath.name, root, shared]
  have hsize : ∀ medium ∈ app.media root [], medium.content.bytes.size < 2 ^ 63 := by
    rw [hmedia]
    simp only [List.forall_mem_cons]
    decide
  have hproper : Proper stamps (app.unused + (app.media root []).length) := by
    have hdistinct : ∀ n < 3, ∀ m < n, (stamps m).unique ≠ (stamps n).unique := by decide
    rw [hmedia]
    exact ⟨fun _ _ => rfl, fun m n hm hn => hdistinct n hn m hm⟩
  have h := importStamped_deduplicates (Imported.new files now 1) root [] hproper hsize
  refine ⟨.new files now 1, hproper, hsize, hmedia, h, ?_⟩
  obtain ⟨before, added, after, hdedup⟩ := h
  have hempty : before = [] := List.length_eq_zero_iff.mp (Except.ok.inj hdedup.holdsBefore.count).symm
  rw [hdedup.outcome, hmedia, hempty]
  simp [Medium.checksum]

end Application

end MediaCatalog
