import MediaCatalog.Catalog.Error
import MediaCatalog.Catalog.Row
import MediaCatalog.Text.Lowercase

/-!
The tables of the catalog and what is asked of them. Rows are kept in the order of their keys, and tags of one
asset in their own order; both by code points.
-/

namespace MediaCatalog.Catalog

open Text

structure Tables where
  assets : List AssetRow
  tags : List TagRow
deriving DecidableEq

namespace Tables

def empty : Tables :=
  ⟨[], []⟩

def row? (t : Tables) (key : String) : Option AssetRow :=
  t.assets.find? fun row => row.key = key

def tagsOf (t : Tables) (key : String) : List String :=
  (t.tags.filter fun row => row.assetKey = key).map TagRow.tag

/-- Whether an asset of another key has the checksum of a row. Rows without a checksum have none in common. -/
def checksumTaken (t : Tables) (row : AssetRow) : Bool :=
  row.checksum.isSome && t.assets.any fun other => other.key ≠ row.key && other.checksum = row.checksum

/-- Puts a row in its place, or in that of the row of its key, which keeps its import date. -/
def upsert (new : AssetRow) : List AssetRow → List AssetRow
  | [] => [new]
  | row :: rest =>
    if new.key < row.key then new :: row :: rest
    else if new.key = row.key then { new with importDate := row.importDate } :: rest
    else row :: upsert new rest

def insertTag (new : TagRow) : List TagRow → List TagRow
  | [] => [new]
  | row :: rest =>
    if new.assetKey < row.assetKey ∨ (new.assetKey = row.assetKey ∧ new.tag < row.tag) then
      new :: row :: rest
    else if new = row then row :: rest
    else row :: insertTag new rest

def dropTags (key : String) (rows : List TagRow) : List TagRow :=
  rows.filter fun row => row.assetKey ≠ key

def put (row : AssetRow) (tags : List String) (t : Tables) : Except StorageFault Tables :=
  if t.checksumTaken row then .error .checksumTaken
  else .ok {
    assets := upsert row t.assets
    tags := tags.foldl (fun rows tag => insertTag ⟨row.key, tag⟩ rows) (dropTags row.key t.tags) }

def delete (key : String) (t : Tables) : Tables where
  assets := t.assets.filter fun row => row.key ≠ key
  tags := dropTags key t.tags

def assetOf (row : AssetRow) (tags : List String) : Except CatalogError Asset :=
  match row.toAsset? tags with
  | some asset => .ok asset
  | none => .error (.unreadableDate row.key)

def get (t : Tables) (key : String) : Except CatalogError (Option Asset) :=
  (t.row? key).mapM fun row => assetOf row (t.tagsOf key)

def getByChecksum (t : Tables) (checksum : String) : Except CatalogError (Option Asset) :=
  (t.assets.find? fun row => row.checksum = some checksum).mapM fun row =>
    assetOf row (t.tagsOf row.key)

def isAfter (cursor : Option String) (key : String) : Bool :=
  cursor.all fun c => c < key

def rowsAfter (t : Tables) (cursor : Option String) : List AssetRow :=
  t.assets.filter fun row => isAfter cursor row.key

/-- The first rows of some, or all if the limit is negative. -/
def takeLimit (limit : Int) (rows : List AssetRow) : List AssetRow :=
  if limit < 0 then rows else rows.take limit.toNat

def tagRange (t : Tables) (first last : String) : List TagRow :=
  t.tags.filter fun row => first ≤ row.assetKey && row.assetKey ≤ last

/-- The assets of a page, with their tags from the range of its keys. -/
def pageAssets (t : Tables) (rows : List AssetRow) : Except CatalogError (List Asset) :=
  match rows.head?, rows.getLast? with
  | some first, some last =>
    let range := t.tagRange first.key last.key
    rows.mapM fun row =>
      assetOf row ((range.filter fun tag => tag.assetKey = row.key).map TagRow.tag)
  | _, _ => .ok []

/-- A page of at most `limit` assets after a cursor, and the cursor of the next page. -/
def page (t : Tables) (cursor : Option String) (limit : Int) :
    Except CatalogError (List Asset × Option String) :=
  let rows := takeLimit limit (t.rowsAfter cursor)
  match rows.getLast? with
  | none => .ok ([], cursor)
  | some last => (t.pageAssets rows).map fun assets => (assets, some last.key)

theorem mem_of_mem_takeLimit {limit : Int} {rows : List AssetRow} {row : AssetRow}
    (h : row ∈ takeLimit limit rows) : row ∈ rows := by
  unfold takeLimit at h
  split at h
  · exact h
  · exact List.mem_of_mem_take h

theorem isAfter_of_lt {cursor : Option String} {key key' : String} (h : isAfter cursor key)
    (hlt : key < key') : isAfter cursor key' := by
  cases cursor with
  | none => rfl
  | some c =>
      simp only [isAfter, Option.all_some, decide_eq_true_eq] at h ⊢
      exact String.lt_trans h hlt

theorem rowsAfter_of_mem {t : Tables} {cursor : Option String} {row : AssetRow}
    (h : row ∈ t.rowsAfter cursor) :
    t.rowsAfter (some row.key) = (t.rowsAfter cursor).filter fun other => row.key < other.key := by
  have hafter : isAfter cursor row.key := (List.mem_filter.mp h).2
  simp only [rowsAfter, List.filter_filter]
  refine List.filter_congr fun other _ => ?_
  rw [isAfter, Option.all_some, Bool.eq_iff_iff, Bool.and_eq_true, decide_eq_true_eq]
  exact ⟨fun hother => ⟨hother, isAfter_of_lt hafter hother⟩, And.left⟩

theorem length_rowsAfter_lt {t : Tables} {cursor : Option String} {row : AssetRow}
    (h : row ∈ t.rowsAfter cursor) :
    (t.rowsAfter (some row.key)).length < (t.rowsAfter cursor).length := by
  rw [rowsAfter_of_mem h, List.length_filter_lt_length_iff_exists]
  refine ⟨row, h, ?_⟩
  rw [decide_eq_true_eq]
  exact String.lt_irrefl row.key

/-- The next page begins behind a row that came after the cursor. -/
theorem exists_row_of_page {t : Tables} {cursor next : Option String} {limit : Int} {assets : List Asset}
    (hpage : t.page cursor limit = .ok (assets, next)) (hne : assets ≠ []) :
    ∃ row ∈ t.rowsAfter cursor, next = some row.key := by
  unfold page at hpage
  simp only at hpage
  split at hpage
  · simp only [Except.ok.injEq, Prod.mk.injEq] at hpage
    exact absurd hpage.1.symm hne
  · rename_i last hlast
    refine ⟨last, mem_of_mem_takeLimit (List.mem_of_getLast? hlast), ?_⟩
    cases hassets : t.pageAssets (takeLimit limit (t.rowsAfter cursor)) with
    | error _ => simp [hassets, Except.map] at hpage
    | ok _ =>
        simp only [hassets, Except.map, Except.ok.injEq, Prod.mk.injEq] at hpage
        exact hpage.2.symm

theorem length_rowsAfter_lt_of_page {t : Tables} {cursor next : Option String} {limit : Int}
    {assets : List Asset} (hpage : t.page cursor limit = .ok (assets, next)) (hne : assets ≠ []) :
    (t.rowsAfter next).length < (t.rowsAfter cursor).length := by
  obtain ⟨row, hrow, rfl⟩ := exists_row_of_page hpage hne
  exact length_rowsAfter_lt hrow

end Tables

def addLabel (label : String) : List LabelCount → List LabelCount
  | [] => [⟨label, 1⟩]
  | c :: rest =>
    if label < c.label then ⟨label, 1⟩ :: c :: rest
    else if label = c.label then { c with count := c.count + 1 } :: rest
    else c :: addLabel label rest

def tally (labels : List String) : List LabelCount :=
  labels.foldr addLabel []

namespace Tables

/-- How many rows each tag has; the letters `A` to `Z` count as those in lowercase. -/
def tagCounts (t : Tables) : List LabelCount :=
  tally (t.tags.map fun row => asciiLower row.tag)

def placeCounts (t : Tables) : List LabelCount :=
  let parts (part : AssetRow → Option String) : List String :=
    (t.assets.filterMap fun row => Location.nonempty? (part row)).map asciiLower
  tally (parts AssetRow.label ++ parts AssetRow.city ++ parts AssetRow.region)

def yearCounts (t : Tables) : List LabelCount :=
  tally (t.assets.map fun row => String.ofList (row.bestDate.toList.take 4))

def mediaTypeCounts (t : Tables) : List LabelCount :=
  tally (t.assets.map fun row => asciiLower row.mediaType)

end Tables

end MediaCatalog.Catalog
