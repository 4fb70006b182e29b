import MediaCatalog.Proofs.Catalog.Listing
import MediaCatalog.Proofs.Catalog.Lookup
import Std.Data.ExtTreeMap

/-!
The catalog as a map from keys to records. What is put in under a key is the asset with its tags in order, the
empty parts of its place left out and its dates in universal time; only the import date of a record stays when
the record is replaced. Whatever is written, the catalog answers as the map does.
-/

namespace MediaCatalog

open Calendar

/-- What is kept of a place: the parts that are not empty, if there are any. -/
def Location.recorded? (place : Location) : Option Location :=
  let kept : Location :=
    ⟨place.label.filter (· ≠ ""), place.city.filter (· ≠ ""), place.region.filter (· ≠ "")⟩
  if kept.hasValues then some kept else none

/-- The record of an asset, if its dates are in the years 1 to 9999 of universal time. -/
def Asset.recorded? (asset : Asset) : Option Asset := do
  let importDate ← asset.importDate.toUtc?
  let userDate ← asset.userDate.mapM DateTime.toUtc?
  let captureDate ← asset.captureDate.mapM DateTime.toUtc?
  return { asset with
    tags := asset.tags.toFinset.sort
    location := asset.location.bind Location.recorded?
    importDate, userDate, captureDate }

theorem Asset.recorded_eq_some_iff {asset record : Asset} :
    asset.recorded? = some record ↔ ∃ importDate userDate captureDate, asset.importDate.toUtc? = some importDate ∧
      asset.userDate.mapM DateTime.toUtc? = some userDate ∧ asset.captureDate.mapM DateTime.toUtc? = some captureDate ∧
      record = { asset with
        tags := asset.tags.toFinset.sort
        location := asset.location.bind Location.recorded?
        importDate, userDate, captureDate } := by
  simp only [recorded?, Option.bind_eq_bind, Option.bind_eq_some_iff, Option.pure_def, Option.some.injEq,
    exists_and_left, eq_comm (a := record)]

/-- An asset of which nothing is known but its key and the date of its import. -/
def Asset.bare (key : String) (importDate : DateTime) : Asset where
  key := key
  checksum := ""
  filename := ""
  byteLength := 0
  mediaType := ""
  tags := []
  importDate := importDate
  caption := none
  location := none
  userDate := none
  captureDate := none

namespace Catalog

/-- The operations that write assets. -/
inductive Write where
  | put (asset : Asset)
  | store (assets : List Asset)
  | delete (key : String)

def Write.operation : Write → Operation
  | put asset => .put asset
  | store assets => .store assets
  | delete key => .delete key

def Write.perform (write : Write) (c : Connection) : Except CatalogError Unit × Connection :=
  write.operation.perform c

/-- The catalog after some writes, whether they succeed or fail. -/
def Connection.performAll (c : Connection) (writes : List Write) : Connection :=
  writes.foldl (fun c write => (write.perform c).2) c

theorem Reachable.performAll {c : Connection} (h : Reachable c) (writes : List Write) :
    Reachable (c.performAll writes) := by
  induction writes generalizing c with
  | nil => exact h
  | cons write rest ih => exact ih (h.perform write.operation)

abbrev Records := Std.ExtTreeMap String Asset

namespace Records

/-- The records with an asset in place of the one of its key. There are none if the asset cannot be recorded, its
length is no number of 64 bits, or its checksum is that of another record. -/
def put? (asset : Asset) (records : Records) : Option Records :=
  asset.recorded?.bind fun record =>
    if (-2 ^ 63 ≤ asset.byteLength ∧ asset.byteLength < 2 ^ 63) ∧
        (asset.checksum = "" ∨
          ∀ entry ∈ records.toList, entry.2.checksum = asset.checksum → entry.1 = asset.key) then
      let importDate := (records[asset.key]?.map Asset.importDate).getD record.importDate
      some (records.insert asset.key { record with importDate })
    else none

/-- Puts assets one by one up to the first that cannot be put, and tells whether there is none. -/
def store : List Asset → Records → Bool × Records
  | [], records => (true, records)
  | asset :: rest, records =>
    match records.put? asset with
    | some records => store rest records
    | none => (false, records)

/-- Whether a write succeeds, and the records after it. -/
def perform : Write → Records → Bool × Records
  | .put asset, records => ((records.put? asset).isSome, (records.put? asset).getD records)
  | .store assets, records => store assets records
  | .delete key, records => (true, records.erase key)

def performAll (records : Records) (writes : List Write) : Records :=
  writes.foldl (fun records write => (perform write records).2) records

end Records

namespace AssetRow

theorem storedDate_eq_some_iff {date : DateTime} {text : String} :
    storedDate? date = some text ↔ ∃ moment, date.toUtc? = some moment ∧ moment.written = text :=
  Option.map_eq_some_iff

theorem read_of_storedDate {date : DateTime} {text : String} (h : storedDate? date = some text) :
    readStoredDate? text = date.toUtc? := by
  obtain ⟨moment, hmoment, rfl⟩ := storedDate_eq_some_iff.mp h
  rw [readStoredDate_written (offset_of_toUtc hmoment), hmoment]

theorem mapM_read_of_storedDate {date : Option DateTime} {stored : Option String}
    (h : date.mapM storedDate? = some stored) : stored.mapM readStoredDate? = date.mapM DateTime.toUtc? := by
  cases date with
  | none =>
      obtain rfl : none = stored := Option.some.inj h
      rfl
  | some date =>
      obtain ⟨text, htext, rfl⟩ := Option.map_eq_some_iff.mp h
      exact congrArg (Option.map some) (read_of_storedDate htext)

theorem exists_storedDate {date moment : DateTime} (h : date.toUtc? = some moment) :
    ∃ text, storedDate? date = some text :=
  ⟨moment.written, storedDate_eq_some_iff.mpr ⟨moment, h, rfl⟩⟩

theorem exists_mapM_storedDate {date moment : Option DateTime}
    (h : date.mapM DateTime.toUtc? = some moment) : ∃ text, date.mapM storedDate? = some text := by
  cases date with
  | none => exact ⟨none, rfl⟩
  | some date =>
      obtain ⟨moment, hmoment, rfl⟩ := Option.map_eq_some_iff.mp h
      obtain ⟨text, htext⟩ := exists_storedDate hmoment
      exact ⟨some text, Option.map_eq_some_iff.mpr ⟨text, htext, rfl⟩⟩

theorem exists_ofAsset {asset record : Asset} (h : asset.recorded? = some record) :
    ∃ row, ofAsset? asset = some row := by
  obtain ⟨importDate, userDate, captureDate, himport, huser, hcapture, _⟩ := Asset.recorded_eq_some_iff.mp h
  obtain ⟨importText, himport⟩ := exists_storedDate himport
  obtain ⟨userText, huser⟩ := exists_mapM_storedDate huser
  obtain ⟨captureText, hcapture⟩ := exists_mapM_storedDate hcapture
  rw [ofAsset?, himport, huser, hcapture]
  exact ⟨_, rfl⟩

theorem getD_nonempty (text : String) : (Location.nonempty? (some text)).getD "" = text := by
  rw [Location.nonempty?, Option.filter_some]
  split_ifs with h
  · rfl
  · have hempty : text = "" := by simpa using h
    rw [hempty]
    rfl

theorem nonempty_ne_empty (text : Option String) : Location.nonempty? text ≠ some "" := by
  intro h
  simpa using (Option.filter_eq_some_iff.mp h).2

theorem key_of_ofAsset {asset : Asset} {row : AssetRow} (h : ofAsset? asset = some row) :
    row.key = asset.key := by
  obtain ⟨_, _, _, _, _, _, rfl⟩ := ofAsset_eq_some_iff.mp h
  rfl

theorem checksum_of_ofAsset {asset : Asset} {row : AssetRow} (h : ofAsset? asset = some row) :
    row.checksum = Location.nonempty? (some asset.checksum) := by
  obtain ⟨_, _, _, _, _, _, rfl⟩ := ofAsset_eq_some_iff.mp h
  rfl

theorem checksum_ne_empty_of_ofAsset {asset : Asset} {row : AssetRow} (h : ofAsset? asset = some row) :
    row.checksum ≠ some "" := by
  rw [checksum_of_ofAsset h]
  exact nonempty_ne_empty _

theorem location_of_ofAsset {asset : Asset} {row : AssetRow} (h : ofAsset? asset = some row) :
    row.location = asset.location.bind Location.recorded? := by
  obtain ⟨_, _, _, _, _, _, rfl⟩ := ofAsset_eq_some_iff.mp h
  cases asset.location <;> rfl

theorem exists_record_of_ofAsset {asset : Asset} {row : AssetRow} (h : ofAsset? asset = some row) :
    ∃ record, asset.recorded? = some record ∧ row.toAsset? asset.tags.toFinset.sort = some record := by
  have hlocation := location_of_ofAsset h
  obtain ⟨importText, userText, captureText, himport, huser, hcapture, rfl⟩ := ofAsset_eq_some_iff.mp h
  obtain ⟨importDate, hutc, _⟩ := storedDate_eq_some_iff.mp himport
  obtain ⟨userDate, hread⟩ := exists_mapM_read (isStoredDate_of_mapM huser)
  obtain ⟨captureDate, hread'⟩ := exists_mapM_read (isStoredDate_of_mapM hcapture)
  rw [Asset.recorded?, hutc, ← mapM_read_of_storedDate huser, ← mapM_read_of_storedDate hcapture, hread, hread']
  refine ⟨_, rfl, ?_⟩
  rw [toAsset?, read_of_storedDate himport, hutc, hread, hread', getD_nonempty, hlocation]
  rfl

section Read

variable {row : AssetRow} {tags : List String} {asset : Asset}

theorem checksum_of_toAsset (h : row.toAsset? tags = some asset) : asset.checksum = row.checksum.getD "" := by
  obtain ⟨_, _, _, _, _, _, rfl⟩ := toAsset_eq_some_iff.mp h
  rfl

theorem tags_of_toAsset (h : row.toAsset? tags = some asset) : asset.tags = tags := by
  obtain ⟨_, _, _, _, _, _, rfl⟩ := toAsset_eq_some_iff.mp h
  rfl

theorem checksum_eq_some_of_toAsset (h : row.toAsset? tags = some asset) (hne : asset.checksum ≠ "") :
    row.checksum = some asset.checksum := by
  rw [checksum_of_toAsset h] at hne ⊢
  cases hchecksum : row.checksum with
  | none => exact absurd (by rw [hchecksum]; rfl) hne
  | some checksum => rfl

theorem importDate_of_toAsset (h : row.toAsset? tags = some asset) :
    readStoredDate? row.importDate = some asset.importDate := by
  obtain ⟨_, _, _, himport, _, _, rfl⟩ := toAsset_eq_some_iff.mp h
  exact himport

theorem toAsset_importDate (h : row.toAsset? tags = some asset) {text : String} {date : DateTime}
    (hdate : readStoredDate? text = some date) :
    { row with importDate := text }.toAsset? tags = some { asset with importDate := date } := by
  obtain ⟨_, userDate, captureDate, _, huser, hcapture, rfl⟩ := toAsset_eq_some_iff.mp h
  exact toAsset_eq_some_iff.mpr ⟨date, userDate, captureDate, hdate, huser, hcapture, rfl⟩

end Read

end AssetRow

namespace Tables

variable {t t' : Tables}

/-- The tables that come about by writing assets: tags are in order, and assets have no checksum in common. -/
structure Consistent (t : Tables) : Prop extends t.Sound where
  tags : t.tags.Pairwise TagRow.Before
  filled : ∀ row ∈ t.assets, row.checksum ≠ some ""
  distinct : ∀ row ∈ t.assets, ∀ other ∈ t.assets, row.checksum.isSome → other.checksum = row.checksum →
    other.key = row.key

theorem consistent_empty : Tables.empty.Consistent := by
  refine ⟨sound_empty, List.Pairwise.nil, ?_, ?_⟩
  · intro row hrow
    exact absurd hrow List.not_mem_nil
  · intro row hrow
    exact absurd hrow List.not_mem_nil

theorem checksumTaken_eq_false_iff {row : AssetRow} :
    t.checksumTaken row = false ↔
      ∀ other ∈ t.assets, row.checksum.isSome → other.checksum = row.checksum → other.key = row.key := by
  rw [checksumTaken]
  cases row.checksum <;> simp [not_imp_not]

theorem Consistent.put {row : AssetRow} {tags : List String} (h : t.Consistent) (hrow : row.DatesStored)
    (hfilled : row.checksum ≠ some "") (hput : t.put row tags = .ok t') : t'.Consistent := by
  obtain ⟨htaken, hassets, _⟩ := put_eq_ok_iff.mp hput
  have hfree := checksumTaken_eq_false_iff.mp htaken
  have hmem : ∀ other ∈ t'.assets, (∃ date, other = { row with importDate := date }) ∨
      (other.key ≠ row.key ∧ other ∈ t.assets) :=
    fun other hother => exists_of_mem_upsert h.ascending (hassets ▸ hother)
  refine ⟨h.toSound.put hrow hput, ordered_put h.tags hput, ?_, ?_⟩
  · intro other hother
    rcases hmem other hother with ⟨date, rfl⟩ | ⟨_, hother⟩
    · exact hfilled
    · exact h.filled other hother
  · intro first hfirst second hsecond hsome hsame
    rcases hmem first hfirst with ⟨date, rfl⟩ | ⟨hkey, hfirst⟩
    · rcases hmem second hsecond with ⟨date', rfl⟩ | ⟨hkey', hsecond⟩
      · rfl
      · exact hfree second hsecond hsome hsame
    · rcases hmem second hsecond with ⟨date', rfl⟩ | ⟨hkey', hsecond⟩
      · exact absurd (hfree first hfirst (hsame ▸ hsome) hsame.symm) hkey
      · exact h.distinct first hfirst second hsecond hsome hsame

theorem Consistent.delete (h : t.Consistent) (key : String) : (t.delete key).Consistent := by
  have hmem : ∀ row ∈ (t.delete key).assets, row ∈ t.assets := fun row hrow => (List.mem_filter.mp hrow).1
  refine ⟨h.toSound.delete key, h.tags.sublist List.filter_sublist, ?_, ?_⟩
  · intro row hrow
    exact h.filled row (hmem row hrow)
  · intro row hrow other hother
    exact h.distinct row (hmem row hrow) other (hmem other hother)

end Tables

end Catalog

end MediaCatalog
