import MediaCatalog.Proofs.Catalog.Records

/-!
The catalog refines the map of records: every write does to the tables what it does to the map, and whatever is
asked of the tables is answered from the map.
-/

namespace MediaCatalog.Catalog

theorem Connection.fitsInteger_iff {n : Int} :
    fitsInteger n = true ↔ -2 ^ 63 ≤ n ∧ n < 2 ^ 63 := by
  rw [fitsInteger, Bool.and_eq_true, decide_eq_true_eq, decide_eq_true_eq]
  omega

namespace Tables

variable {t t' : Tables}

/-- The asset that stands under a key. -/
def record? (t : Tables) (key : String) : Option Asset :=
  (t.row? key).bind fun row => row.toAsset? (t.tagsOf key)

theorem record_eq_some_iff (h : Ascending t.assets) {key : String} {asset : Asset} :
    t.record? key = some asset ↔ ∃ row ∈ t.assets, row.key = key ∧ row.toAsset? (t.tagsOf key) = some asset := by
  rw [record?, Option.bind_eq_some_iff]
  constructor
  · rintro ⟨row, hrow, hasset⟩
    exact ⟨row, List.mem_of_find?_eq_some hrow, by simpa using List.find?_some hrow, hasset⟩
  · rintro ⟨row, hrow, rfl, hasset⟩
    exact ⟨row, h.find_of_mem hrow, hasset⟩

theorem Sound.get (h : t.Sound) (key : String) : t.get key = .ok (t.record? key) := by
  rw [Tables.get, record?]
  cases hrow : t.row? key with
  | none => rfl
  | some row =>
      obtain ⟨asset, hasset⟩ :=
        AssetRow.exists_toAsset (h.dates row (List.mem_of_find?_eq_some hrow)) (t.tagsOf key)
      change (assetOf row (t.tagsOf key)).map some = .ok (row.toAsset? (t.tagsOf key))
      rw [assetOf_eq_ok_iff.mpr hasset, hasset]
      rfl

theorem record_put_of_ne {row : AssetRow} {tags : List String} (h : t.Consistent)
    (hput : t.put row tags = .ok t') {key : String} (hkey : key ≠ row.key) : t'.record? key = t.record? key := by
  rw [record?, tagsOf_put_of_ne h.tags hput hkey, row_put_of_ne hput hkey, record?]

/-- What is found of an asset that was put is its record, with the import date of the one before. -/
theorem record_put_self {asset record : Asset} {row : AssetRow} (h : t.Consistent)
    (hrow : AssetRow.ofAsset? asset = some row) (hrecord : asset.recorded? = some record)
    (hput : t.put row asset.tags = .ok t') :
    t'.record? asset.key =
      some { record with importDate := ((t.record? asset.key).map Asset.importDate).getD record.importDate } := by
  obtain ⟨_, hrecord', hread⟩ := AssetRow.exists_record_of_ofAsset hrow
  rw [hrecord] at hrecord'
  obtain rfl := Option.some.inj hrecord'
  rw [← AssetRow.key_of_ofAsset hrow, record?, row_put_self h.ascending hput, Option.bind_some,
    tagsOf_put_self h.tags hput, record?]
  cases hold : t.row? row.key with
  | none => exact hread
  | some old =>
      obtain ⟨before, hbefore⟩ :=
        AssetRow.exists_toAsset (h.dates old (List.mem_of_find?_eq_some hold)) (t.tagsOf row.key)
      rw [Option.bind_some, hbefore]
      exact AssetRow.toAsset_importDate hread (AssetRow.importDate_of_toAsset hbefore)

theorem record_delete (t : Tables) (key other : String) :
    (t.delete key).record? other = if key = other then none else t.record? other := by
  rw [record?, row_delete]
  split_ifs with hkey
  · rfl
  · rw [tagsOf_delete_of_ne t hkey]
    rfl

/-- The tables behind an asset that can be put. -/
def stored? (asset : Asset) (t : Tables) : Option Tables :=
  (AssetRow.ofAsset? asset).bind fun row =>
    if Connection.fitsInteger asset.byteLength then (t.put row asset.tags).toOption else none

theorem stored_eq_some_iff {asset : Asset} :
    t.stored? asset = some t' ↔ ∃ row, AssetRow.ofAsset? asset = some row ∧
      Connection.fitsInteger asset.byteLength ∧ t.put row asset.tags = .ok t' := by
  rw [stored?, Option.bind_eq_some_iff]
  refine exists_congr fun row => and_congr_right fun _ => ?_
  cases t.put row asset.tags <;> simp [Except.toOption]

/-- Whether the records of a map are those that stand in the tables. -/
structure Represents (t : Tables) (records : Records) : Prop where
  consistent : t.Consistent
  record : ∀ key, records[key]? = t.record? key

theorem represents_empty : Tables.empty.Represents ∅ :=
  ⟨consistent_empty, fun _ => Std.ExtTreeMap.getElem?_empty⟩

namespace Represents

variable {records : Records}

theorem getElem_eq_some_iff (h : t.Represents records) {key : String} {asset : Asset} :
    records[key]? = some asset ↔
      ∃ row ∈ t.assets, row.key = key ∧ row.toAsset? (t.tagsOf key) = some asset := by
  rw [h.record, record_eq_some_iff h.consistent.ascending]

theorem exists_row (h : t.Represents records) {key : String} {asset : Asset} (hasset : records[key]? = some asset) :
    ∃ row ∈ t.assets, row.key = key ∧ row.toAsset? (t.tagsOf key) = some asset :=
  h.getElem_eq_some_iff.mp hasset

theorem exists_asset (h : t.Represents records) {row : AssetRow} (hrow : row ∈ t.assets) :
    ∃ asset, records[row.key]? = some asset ∧ row.toAsset? (t.tagsOf row.key) = some asset := by
  obtain ⟨asset, hasset⟩ := AssetRow.exists_toAsset (h.consistent.dates row hrow) (t.tagsOf row.key)
  exact ⟨asset, h.getElem_eq_some_iff.mpr ⟨row, hrow, rfl, hasset⟩, hasset⟩

theorem checksum_free_iff (h : t.Represents records) {asset : Asset} {row : AssetRow}
    (hrow : AssetRow.ofAsset? asset = some row) :
    t.checksumTaken row = false ↔ asset.checksum = "" ∨
      ∀ entry ∈ records.toList, entry.2.checksum = asset.checksum → entry.1 = asset.key := by
  rw [checksumTaken_eq_false_iff, AssetRow.checksum_of_ofAsset hrow, AssetRow.key_of_ofAsset hrow]
  by_cases hempty : asset.checksum = ""
  · simp [hempty, Location.nonempty?]
  · have hfilled : Location.nonempty? (some asset.checksum) = some asset.checksum := by
      simp [Location.nonempty?, Option.filter, hempty]
    rw [hfilled, or_iff_right hempty]
    constructor
    · rintro hfree ⟨key, record⟩ hentry hchecksum
      obtain ⟨other, hother, rfl, hread⟩ := h.exists_row (Std.ExtTreeMap.mem_toList_iff_getElem?_eq_some.mp hentry)
      refine hfree other hother rfl ?_
      rw [AssetRow.checksum_eq_some_of_toAsset hread (ne_of_eq_of_ne hchecksum hempty)]
      exact congrArg some hchecksum
    · intro hfree other hother _ hchecksum
      obtain ⟨record, hrecord, hread⟩ := h.exists_asset hother
      refine hfree (other.key, record) (Std.ExtTreeMap.mem_toList_iff_getElem?_eq_some.mpr hrecord) ?_
      rw [AssetRow.checksum_of_toAsset hread, hchecksum]
      rfl

theorem insert (h : t.Represents records) {asset record : Asset} {row : AssetRow}
    (hrow : AssetRow.ofAsset? asset = some row) (hrecord : asset.recorded? = some record)
    (hput : t.put row asset.tags = .ok t') :
    t'.Represents (records.insert asset.key
      { record with importDate := (records[asset.key]?.map Asset.importDate).getD record.importDate }) := by
  constructor
  · exact h.consistent.put (AssetRow.datesStored_of_ofAsset hrow) (AssetRow.checksum_ne_empty_of_ofAsset hrow) hput
  · intro key
    rw [Std.ExtTreeMap.getElem?_insert]
    simp only [Std.compare_eq_iff_eq]
    split_ifs with hkey
    · rw [← hkey, record_put_self h.consistent hrow hrecord hput, h.record]
    · have hother : key ≠ row.key := by
        rw [AssetRow.key_of_ofAsset hrow]
        exact Ne.symm hkey
      rw [h.record, record_put_of_ne h.consistent hput hother]

theorem put (h : t.Represents records) (asset : Asset) :
    (t.stored? asset = none ∧ records.put? asset = none) ∨
    ∃ t' records', t.stored? asset = some t' ∧ records.put? asset = some records' ∧ t'.Represents records' := by
  cases hrow : AssetRow.ofAsset? asset with
  | none =>
      have hrecorded : asset.recorded? = none := by
        by_contra hsome
        obtain ⟨record, hrecord⟩ := Option.ne_none_iff_exists'.mp hsome
        obtain ⟨row, hrow'⟩ := AssetRow.exists_ofAsset hrecord
        rw [hrow] at hrow'
        cases hrow'
      left
      rw [stored?, hrow, Records.put?, hrecorded]
      exact ⟨rfl, rfl⟩
  | some row =>
      obtain ⟨record, hrecord, _⟩ := AssetRow.exists_record_of_ofAsset hrow
      have haccepted := and_congr (@Connection.fitsInteger_iff asset.byteLength) (h.checksum_free_iff hrow)
      rw [stored?, hrow, Option.bind_some, Records.put?, hrecord, Option.bind_some]
      by_cases hstored : Connection.fitsInteger asset.byteLength ∧ t.checksumTaken row = false
      · right
        obtain ⟨t', hput⟩ : ∃ t', t.put row asset.tags = .ok t' := ⟨_, if_neg (Bool.eq_false_iff.mp hstored.2)⟩
        rw [if_pos hstored.1, if_pos (haccepted.mp hstored), hput]
        exact ⟨t', _, rfl, rfl, h.insert hrow hrecord hput⟩
      · left
        rw [if_neg fun haccept => hstored (haccepted.mpr haccept)]
        refine ⟨?_, rfl⟩
        split_ifs with hinteger
        · have hput : t.put row asset.tags = .error .checksumTaken :=
            if_pos (Bool.eq_true_of_not_eq_false fun hfalse => hstored ⟨hinteger, hfalse⟩)
          rw [hput]
          rfl
        · rfl

theorem delete (h : t.Represents records) (key : String) : (t.delete key).Represents (records.erase key) := by
  refine ⟨h.consistent.delete key, ?_⟩
  intro other
  rw [record_delete, ← h.record, Std.ExtTreeMap.getElem?_erase]
  simp only [Std.compare_eq_iff_eq]

theorem toList_eq (h : t.Represents records) {assets : List Asset} (hassets : t.Lists t.assets assets) :
    records.toList = assets.map fun asset => (asset.key, asset) := by
  have hirrefl : Std.Irrefl fun first second : String × Asset => first.1 < second.1 :=
    ⟨fun entry => String.lt_irrefl entry.1⟩
  have hantisymm : Std.Antisymm fun first second : String × Asset => first.1 < second.1 :=
    ⟨fun first second hlt hgt => absurd (String.lt_trans hlt hgt) (String.lt_irrefl first.1)⟩
  have hrecords : records.toList.Pairwise fun first second => first.1 < second.1 :=
    records.ordered_keys_toList.imp compare_lt_iff_lt.mp
  have hlisted : (assets.map fun asset => (asset.key, asset)).Pairwise fun first second => first.1 < second.1 :=
    List.pairwise_map.mpr (hassets.ascending h.consistent.ascending)
  refine hrecords.eq_of_mem_iff hlisted ?_
  rintro ⟨key, record⟩
  rw [Std.ExtTreeMap.mem_toList_iff_getElem?_eq_some, List.mem_map]
  constructor
  · intro hrecord
    obtain ⟨row, hrow, rfl, hread⟩ := h.exists_row hrecord
    refine ⟨record, hassets.mem_iff.mpr ⟨row, hrow, assetOf_eq_ok_iff.mpr hread⟩, ?_⟩
    rw [AssetRow.key_of_toAsset hread]
  · rintro ⟨asset, hasset, hentry⟩
    obtain ⟨rfl, rfl⟩ := Prod.mk.inj hentry
    obtain ⟨row, hrow, hread⟩ := hassets.mem_iff.mp hasset
    rw [key_of_assetOf hread]
    exact h.getElem_eq_some_iff.mpr ⟨row, hrow, rfl, assetOf_eq_ok_iff.mp hread⟩

theorem getByChecksum (h : t.Represents records) (checksum : String) :
    ∃ found, t.getByChecksum checksum = .ok found ∧ ∀ record, found = some record ↔
      checksum ≠ "" ∧ record.checksum = checksum ∧ ∃ key : String, records[key]? = some record := by
  rw [Tables.getByChecksum]
  cases hfind : t.assets.find? fun row => row.checksum = some checksum with
  | none =>
      refine ⟨none, rfl, fun record => ⟨nofun, ?_⟩⟩
      rintro ⟨hne, rfl, key, hrecord⟩
      obtain ⟨row, hrow, _, hread⟩ := h.exists_row hrecord
      have hchecksum := AssetRow.checksum_eq_some_of_toAsset hread hne
      exact absurd (decide_eq_true hchecksum) (List.find?_eq_none.mp hfind row hrow)
  | some row =>
      have hrow := List.mem_of_find?_eq_some hfind
      have hchecksum : row.checksum = some checksum := by simpa using List.find?_some hfind
      obtain ⟨found, hfound, hread⟩ := h.exists_asset hrow
      refine ⟨some found, ?_, ?_⟩
      · change (assetOf row (t.tagsOf row.key)).map some = _
        rw [assetOf_eq_ok_iff.mpr hread]
        rfl
      · intro record
        constructor
        · rintro ⟨⟩
          refine ⟨?_, ?_, row.key, hfound⟩
          · rintro rfl
            exact h.consistent.filled row hrow hchecksum
          · rw [AssetRow.checksum_of_toAsset hread, hchecksum]
            rfl
        · rintro ⟨hne, rfl, key, hrecord⟩
          obtain ⟨other, hother, rfl, hread'⟩ := h.exists_row hrecord
          have hchecksum' := AssetRow.checksum_eq_some_of_toAsset hread' hne
          have hkey : other.key = row.key :=
            h.consistent.distinct row hrow other hother (by rw [hchecksum]; rfl) (hchecksum'.trans hchecksum.symm)
          rw [← hfound, ← hrecord, hkey]

end Represents

end Tables

namespace Connection

variable {c : Connection} {records : Records}

theorem get_of_tables {t : Tables} (ht : c.working.tables = some t) (hsound : t.Sound) (key : String) :
    c.get key = .ok (t.record? key) := by
  rw [Connection.get, tablesFor, ht]
  exact hsound.get key

theorem put_of_tables {t : Tables} (ht : c.working.tables = some t) (asset : Asset) :
    (c.put asset).1.isOk = (t.stored? asset).isSome ∧
      (c.put asset).2.working.tables = some ((t.stored? asset).getD t) := by
  rw [Connection.put, Tables.stored?]
  cases AssetRow.ofAsset? asset with
  | none => exact ⟨rfl, ht⟩
  | some row =>
      simp only [ht, Option.bind_some]
      cases fitsInteger asset.byteLength with
      | false => exact ⟨rfl, ht⟩
      | true =>
          cases t.put row asset.tags with
          | error fault => exact ⟨rfl, ht⟩
          | ok t' => exact ⟨rfl, rfl⟩

/-- Whether the tables that a connection sees are there and have the records of a map. -/
def Represents (c : Connection) (records : Records) : Prop :=
  ∃ t, c.working.tables = some t ∧ t.Represents records

theorem represents_new : new.Represents ∅ :=
  ⟨Tables.empty, rfl, Tables.represents_empty⟩

namespace Represents

theorem put (h : c.Represents records) (asset : Asset) :
    (c.put asset).1.isOk = (records.put? asset).isSome ∧
      (c.put asset).2.Represents ((records.put? asset).getD records) := by
  obtain ⟨t, ht, h⟩ := h
  obtain ⟨hok, htables⟩ := put_of_tables ht asset
  rw [hok]
  rcases h.put asset with ⟨hstored, hput⟩ | ⟨t', records', hstored, hput, h'⟩
  · rw [hstored] at htables ⊢
    rw [hput]
    exact ⟨rfl, t, htables, h⟩
  · rw [hstored] at htables ⊢
    rw [hput]
    exact ⟨rfl, t', htables, h'⟩

theorem store (h : c.Represents records) (assets : List Asset) :
    (c.store assets).1.isOk = (Records.store assets records).1 ∧
      (c.store assets).2.Represents (Records.store assets records).2 := by
  induction assets generalizing c records with
  | nil => exact ⟨rfl, h⟩
  | cons asset rest ih =>
      obtain ⟨hok, hput⟩ := h.put asset
      rw [Connection.store, Records.store]
      obtain ⟨outcome, c', hresult⟩ : ∃ outcome c', c.put asset = (outcome, c') := ⟨_, _, rfl⟩
      rw [hresult] at hok hput ⊢
      cases hrecords : records.put? asset with
      | none =>
          rw [hrecords] at hok hput
          cases outcome with
          | error error => exact ⟨rfl, hput⟩
          | ok done => cases hok
      | some records' =>
          rw [hrecords] at hok hput
          cases outcome with
          | error error => cases hok
          | ok done => exact ih hput

theorem delete (h : c.Represents records) (key : String) :
    (c.delete key).1.isOk = true ∧ (c.delete key).2.Represents (records.erase key) := by
  obtain ⟨t, ht, h⟩ := h
  rw [Connection.delete, ht]
  exact ⟨rfl, t.delete key, rfl, h.delete key⟩

/-- A write does to the catalog what it does to the map. -/
theorem perform (h : c.Represents records) (write : Write) :
    (write.perform c).1.isOk = (Records.perform write records).1 ∧
      (write.perform c).2.Represents (Records.perform write records).2 := by
  cases write with
  | put asset => exact h.put asset
  | store assets => exact h.store assets
  | delete key => exact h.delete key

theorem performAll (h : c.Represents records) (writes : List Write) :
    (c.performAll writes).Represents (records.performAll writes) := by
  induction writes generalizing c records with
  | nil => exact h
  | cons write rest ih => exact ih (h.perform write).2

end Represents

end Connection

/-- The answers of a catalog are those of a map of records. -/
structure AnswersAs (c : Connection) (records : Records) : Prop where
  outcome : ∀ write : Write, (write.perform c).1.isOk = (Records.perform write records).1
  get : ∀ key, c.get key = .ok records[key]?
  getByChecksum : ∀ checksum, ∃ found, c.getByChecksum checksum = .ok found ∧ ∀ record, found = some record ↔
    checksum ≠ "" ∧ record.checksum = checksum ∧ ∃ key : String, records[key]? = some record
  count : c.count = .ok records.size
  fetch : ∃ assets, c.fetch none (-1) = .ok (assets, records.maxKey?) ∧
    (assets.Pairwise fun first second => first.key < second.key) ∧
    records.toList = assets.map fun asset => (asset.key, asset)

theorem Connection.Represents.answersAs {c : Connection} {records : Records} (h : c.Represents records) :
    AnswersAs c records := by
  have houtcome := fun write => (h.perform write).1
  obtain ⟨t, ht, h⟩ := h
  obtain ⟨assets, hassets⟩ := t.exists_lists h.consistent.dates
  have hlist := h.toList_eq hassets
  have hholds := h.consistent.holds ht hassets
  refine ⟨houtcome, ?_, ?_, ?_, assets, ?_, hholds.ascending, hlist⟩
  · intro key
    rw [Connection.get_of_tables ht h.consistent.toSound, h.record]
  · intro checksum
    rw [Connection.getByChecksum, Connection.tablesFor, ht]
    exact h.getByChecksum checksum
  · rw [hholds.count, ← Std.ExtTreeMap.length_toList, hlist, List.length_map]
  · rw [hholds.fetch, Std.ExtTreeMap.maxKey?_eq_getLast?_keys, ← Std.ExtTreeMap.map_fst_toList_eq_keys, hlist,
      List.map_map, List.getLast?_map]
    rfl

/-- Whatever is written into a new catalog, it answers as the map of records that the writes make. -/
theorem answersAs_performAll (writes : List Write) :
    AnswersAs (Connection.new.performAll writes) (Records.performAll ∅ writes) :=
  (Connection.represents_new.performAll writes).answersAs

end MediaCatalog.Catalog
