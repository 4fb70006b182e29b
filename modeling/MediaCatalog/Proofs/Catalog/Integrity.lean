import MediaCatalog.Proofs.Catalog.Refinement

/-!
The integrity of the catalogs that come about. Besides what the rows of assets have to be like, every row of tags
belongs to an asset, so that the rows of tags are those of the assets one after the other.
-/

namespace MediaCatalog.Catalog

namespace Tables

variable {t t' : Tables}

/-- The tables that come about by writing assets, with no tag left over from an asset that is gone. -/
structure Intact (t : Tables) : Prop extends t.Consistent where
  owned : ∀ tag ∈ t.tags, ∃ row ∈ t.assets, row.key = tag.assetKey

theorem mem_assets_of_row {key : String} {row : AssetRow} (h : t.row? key = some row) :
    row ∈ t.assets ∧ row.key = key :=
  ⟨List.mem_of_find?_eq_some h, by simpa using List.find?_some h⟩

theorem intact_empty : Tables.empty.Intact :=
  ⟨consistent_empty, fun _ htag => absurd htag List.not_mem_nil⟩

theorem Intact.put {row : AssetRow} {tags : List String} (h : t.Intact) (hrow : row.DatesStored)
    (hfilled : row.checksum ≠ some "") (hput : t.put row tags = .ok t') : t'.Intact := by
  refine ⟨h.toConsistent.put hrow hfilled hput, ?_⟩
  intro tag htag
  rcases (mem_tags_put hput).mp htag with ⟨hkey, _⟩ | ⟨htag, hkey⟩
  · have hself := mem_assets_of_row (row_put_self h.ascending hput)
    exact ⟨_, hself.1, hself.2.trans hkey.symm⟩
  · obtain ⟨owner, howner, hownerKey⟩ := h.owned tag htag
    have hfind : t.row? tag.assetKey = some owner := hownerKey ▸ h.ascending.find_of_mem howner
    rw [← row_put_of_ne hput hkey] at hfind
    exact ⟨owner, mem_assets_of_row hfind⟩

theorem Intact.delete (h : t.Intact) (key : String) : (t.delete key).Intact := by
  refine ⟨h.toConsistent.delete key, ?_⟩
  intro tag htag
  obtain ⟨htag, hkey⟩ := mem_dropTags.mp htag
  obtain ⟨row, hrow, hrowKey⟩ := h.owned tag htag
  refine ⟨row, List.mem_filter.mpr ⟨hrow, ?_⟩, hrowKey⟩
  simpa [hrowKey] using hkey

theorem invariant_intact : Invariant Intact where
  empty := intact_empty
  put h hrow hput := h.put (AssetRow.datesStored_of_ofAsset hrow) (AssetRow.checksum_ne_empty_of_ofAsset hrow) hput
  delete key h := h.delete key

theorem Intact.tags_eq (h : t.Intact) :
    t.tags = t.assets.flatMap fun row => (t.tagsOf row.key).map fun tag => ⟨row.key, tag⟩ := by
  have hirrefl : Std.Irrefl TagRow.Before := ⟨fun tag hbefore => by
    rcases hbefore with hlt | ⟨_, hlt⟩ <;> exact String.lt_irrefl _ hlt⟩
  have hantisymm : Std.Antisymm TagRow.Before :=
    ⟨fun first second hlt hgt => absurd (hlt.trans hgt) (hirrefl.irrefl first)⟩
  refine h.tags.eq_of_mem_iff ?_ ?_
  · refine List.pairwise_flatMap.mpr ⟨?_, ?_⟩
    · intro row _
      exact List.pairwise_map.mpr ((ascending_tagsOf h.tags row.key).imp fun hlt => .inr ⟨rfl, hlt⟩)
    · refine h.ascending.imp ?_
      intro row later hlt tag htag other hother
      obtain ⟨_, _, rfl⟩ := List.mem_map.mp htag
      obtain ⟨_, _, rfl⟩ := List.mem_map.mp hother
      exact .inl hlt
  · rintro ⟨key, tag⟩
    simp only [List.mem_flatMap, List.mem_map, mem_tagsOf]
    constructor
    · intro htag
      obtain ⟨row, hrow, rfl⟩ := h.owned _ htag
      exact ⟨row, hrow, tag, htag, rfl⟩
    · rintro ⟨row, _, tag, htag, hsame⟩
      exact hsame ▸ htag

end Tables

theorem Reachable.intact {c : Connection} (h : Reachable c) {t : Tables} (ht : c.working.tables = some t) : t.Intact :=
  (h.satisfies Tables.invariant_intact).working t ht

/-- The assets of a map of records, in the order of their keys. -/
def Records.assets (records : Records) : List Asset :=
  records.toList.map Prod.snd

theorem Records.mem_assets {records : Records} {asset : Asset} :
    asset ∈ records.assets ↔ ∃ key : String, records[key]? = some asset := by
  simp only [assets, List.mem_map, Prod.exists, exists_eq_right]
  exact exists_congr fun key => Std.ExtTreeMap.mem_toList_iff_getElem?_eq_some

theorem Records.mem_assets_of_mem_insert {records : Records} {key : String} {new asset : Asset}
    (h : asset ∈ assets (records.insert key new)) : asset = new ∨ asset ∈ records.assets := by
  obtain ⟨other, hother⟩ := mem_assets.mp h
  rw [Std.ExtTreeMap.getElem?_insert] at hother
  split_ifs at hother
  · exact .inl (Option.some.inj hother).symm
  · exact .inr (mem_assets.mpr ⟨other, hother⟩)

theorem Records.mem_assets_insert {records : Records} {key : String} (hnew : records[key]? = none)
    {new asset : Asset} :
    asset ∈ assets (records.insert key new) ↔ asset = new ∨ asset ∈ records.assets := by
  refine ⟨mem_assets_of_mem_insert, ?_⟩
  rintro (rfl | h)
  · exact mem_assets.mpr ⟨key, Std.ExtTreeMap.getElem?_insert_self⟩
  · obtain ⟨other, hother⟩ := mem_assets.mp h
    refine mem_assets.mpr ⟨other, ?_⟩
    rw [Std.ExtTreeMap.getElem?_insert, if_neg, hother]
    rw [Std.compare_eq_iff_eq]
    rintro rfl
    rw [hnew] at hother
    cases hother

namespace Connection.Represents

variable {c : Connection} {records : Records}

theorem holds (h : c.Represents records) : c.Holds records.assets := by
  obtain ⟨t, ht, h⟩ := h
  obtain ⟨assets, hassets⟩ := t.exists_lists h.consistent.dates
  have hlist : records.assets = assets := by
    rw [Records.assets, h.toList_eq hassets, List.map_map]
    exact List.map_id assets
  exact hlist ▸ h.consistent.holds ht hassets

theorem key_eq (h : c.Represents records) {key : String} {asset : Asset} (hasset : records[key]? = some asset) :
    asset.key = key := by
  obtain ⟨t, _, h⟩ := h
  obtain ⟨row, _, rfl, hread⟩ := h.exists_row hasset
  exact AssetRow.key_of_toAsset hread

theorem exists_getByChecksum (h : c.Represents records) {checksum : String} (hchecksum : checksum ≠ "") :
    ∃ found, c.getByChecksum checksum = .ok found ∧
      (found.isSome ↔ checksum ∈ records.assets.map Asset.checksum) := by
  obtain ⟨t, ht, h⟩ := h
  obtain ⟨found, hfound, hiff⟩ := h.getByChecksum checksum
  refine ⟨found, ?_, ?_⟩
  · rw [Connection.getByChecksum, tablesFor, ht]
    exact hfound
  · rw [Option.isSome_iff_exists, List.mem_map]
    refine exists_congr fun record => (hiff record).trans ?_
    rw [Records.mem_assets]
    tauto

theorem nodup_checksums (h : c.Represents records) (hfilled : ∀ asset ∈ records.assets, asset.checksum ≠ "") :
    (records.assets.map Asset.checksum).Nodup := by
  refine List.pairwise_map.mpr (h.holds.ascending.imp_of_mem ?_)
  intro first second hfirst hsecond hlt hsame
  obtain ⟨t, _, h⟩ := h
  obtain ⟨found, _, hiff⟩ := h.getByChecksum first.checksum
  have hfound := (hiff first).mpr ⟨hfilled first hfirst, rfl, Records.mem_assets.mp hfirst⟩
  have hfound' := (hiff second).mpr ⟨hfilled first hfirst, hsame.symm, Records.mem_assets.mp hsecond⟩
  rw [Option.some.inj (hfound.symm.trans hfound')] at hlt
  exact String.lt_irrefl _ hlt

/-- An asset of which everything is recorded is put in as it is, if its key and its checksum are new. -/
theorem put_of_new (h : c.Represents records) {asset : Asset} (hrecord : asset.recorded? = some asset)
    (hlength : -2 ^ 63 ≤ asset.byteLength ∧ asset.byteLength < 2 ^ 63)
    (hchecksum : asset.checksum ∉ records.assets.map Asset.checksum) (hkey : records[asset.key]? = none) :
    (c.put asset).1 = .ok () ∧ (c.put asset).2.Represents (records.insert asset.key asset) := by
  have hnew : ∀ entry ∈ records.toList, entry.2.checksum = asset.checksum → entry.1 = asset.key := by
    rintro ⟨key, other⟩ hentry hsame
    exact absurd (List.mem_map.mpr ⟨other, List.mem_map.mpr ⟨_, hentry, rfl⟩, hsame⟩) hchecksum
  have hput : records.put? asset = some (records.insert asset.key asset) := by
    rw [Records.put?, hrecord, Option.bind_some, if_pos ⟨hlength, .inr hnew⟩, hkey]
    rfl
  obtain ⟨hok, hrecords⟩ := h.put asset
  rw [hput] at hok hrecords
  refine ⟨?_, hrecords⟩
  cases houtcome : (c.put asset).1 with
  | ok done => rfl
  | error error =>
      rw [houtcome] at hok
      cases hok

/-- What is committed is there when the catalog is opened. -/
theorem connect (h : c.Represents records) : (Connection.connect c.working).Represents records := by
  obtain ⟨t, ht, h⟩ := h
  refine ⟨t, ?_, h⟩
  rw [Connection.connect, initSchema]
  change some (c.working.tables.getD Tables.empty) = some t
  rw [ht, Option.getD_some]

end Connection.Represents

end MediaCatalog.Catalog
