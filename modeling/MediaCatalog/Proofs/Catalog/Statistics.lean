import MediaCatalog.Proofs.Catalog.ForeignKeys
import MediaCatalog.Proofs.Search.Years

/-!
The statistics of a catalog beside the assets that are read from it. Each of the four counts what its assets have in
one respect, with nothing lost and nothing that no asset has.
-/

namespace MediaCatalog

open Text

/-- The parts of its place that an asset has. -/
def Asset.placeParts (asset : Asset) : List String :=
  (asset.location.getD {}).parts.filterMap id

namespace Catalog

/-- Whether entries count what some assets have in one respect, where texts that are folded alike count as one. -/
structure CountsOf (fold : String → String) (parts : Asset → List String) (assets : List Asset)
    (counts : List LabelCount) : Prop where
  ascending : LabelsAscending counts
  positive : ∀ entry ∈ counts, 1 ≤ entry.count
  total : (counts.map LabelCount.count).sum = (assets.map fun asset => (parts asset).length).sum
  complete : ∀ asset ∈ assets, ∀ part ∈ parts asset, fold part ∈ counts.map LabelCount.label
  sound : ∀ entry ∈ counts, ∃ asset ∈ assets, ∃ part ∈ parts asset, fold part = entry.label

theorem countsOf_tally {fold : String → String} {parts : Asset → List String} {assets : List Asset}
    {labels : List String} (h : labels.Perm ((assets.flatMap parts).map fold)) :
    CountsOf fold parts assets (tally labels) := by
  have hmem : ∀ label, label ∈ labels ↔ ∃ asset ∈ assets, ∃ part ∈ parts asset, fold part = label := by
    intro label
    rw [h.mem_iff, List.mem_map]
    simp only [List.mem_flatMap]
    constructor
    · rintro ⟨part, ⟨asset, hasset, hpart⟩, hlabel⟩
      exact ⟨asset, hasset, part, hpart, hlabel⟩
    · rintro ⟨asset, hasset, part, hpart, hlabel⟩
      exact ⟨part, ⟨asset, hasset, hpart⟩, hlabel⟩
  refine ⟨labelsAscending_tally labels, fun _ => one_le_count_of_mem_tally, ?_, ?_, ?_⟩
  · rw [sum_count_tally, h.length_eq, List.length_map, List.length_flatMap]
  · intro asset hasset part hpart
    exact mem_label_tally.mpr ((hmem _).mpr ⟨asset, hasset, part, hpart, rfl⟩)
  · intro entry hentry
    exact (hmem _).mp (mem_label_tally.mp (List.mem_map_of_mem hentry))

theorem CountsOf.total_eq_length {fold : String → String} {part : Asset → String} {assets : List Asset}
    {counts : List LabelCount} (h : CountsOf fold (fun asset => [part asset]) assets counts) :
    (counts.map LabelCount.count).sum = assets.length := by
  rw [h.total]
  simp

namespace Tables

variable {t : Tables} {assets : List Asset}

theorem Lists.flatMap_eq {α : Type} {f : AssetRow → List α} {g : Asset → List α} {rows : List AssetRow}
    (h : t.Lists rows assets)
    (hfg : ∀ row ∈ rows, ∀ asset, assetOf row (t.tagsOf row.key) = .ok asset → g asset = f row) :
    assets.flatMap g = rows.flatMap f := by
  rw [List.flatMap_def, List.flatMap_def, h.map_eq hfg]

theorem countsOf_tagCounts (h : t.Intact) (hassets : t.Lists t.assets assets) :
    CountsOf asciiLower Asset.tags assets t.tagCounts := by
  have htags : assets.flatMap Asset.tags = t.tags.map TagRow.tag := by
    rw [h.tags_eq, List.map_flatMap]
    refine hassets.flatMap_eq ?_
    intro row _ asset hasset
    rw [List.map_map, AssetRow.tags_of_toAsset (assetOf_eq_ok_iff.mp hasset)]
    exact (List.map_id _).symm
  refine countsOf_tally (.of_eq ?_)
  rw [htags, List.map_map]
  rfl

theorem countsOf_mediaTypeCounts (hassets : t.Lists t.assets assets) :
    CountsOf asciiLower (fun asset => [asset.mediaType]) assets t.mediaTypeCounts := by
  have htypes : assets.map Asset.mediaType = t.assets.map AssetRow.mediaType := by
    refine hassets.map_eq ?_
    intro row _ asset hasset
    obtain ⟨_, _, _, _, _, _, rfl⟩ := AssetRow.toAsset_eq_some_iff.mp (assetOf_eq_ok_iff.mp hasset)
    rfl
  refine countsOf_tally (.of_eq ?_)
  rw [← List.map_eq_flatMap, htypes, List.map_map]
  rfl

theorem countsOf_yearCounts (h : t.Sound) (hassets : t.Lists t.assets assets) :
    CountsOf id (fun asset => [yearLabel asset.bestDate.date.year]) assets t.yearCounts := by
  refine countsOf_tally (.of_eq ?_)
  rw [← List.map_eq_flatMap, map_yearLabel h hassets, List.map_id]

theorem placeParts_of_assetOf {row : AssetRow} {tags : List String} {asset : Asset}
    (hasset : assetOf row tags = .ok asset) :
    asset.placeParts = [row.label, row.city, row.region].filterMap id := by
  obtain ⟨_, _, _, _, _, _, rfl⟩ := AssetRow.toAsset_eq_some_iff.mp (assetOf_eq_ok_iff.mp hasset)
  rw [Asset.placeParts]
  dsimp only
  rw [AssetRow.location]
  split_ifs with hvalues
  · rfl
  · simp only [Location.hasValues, Location.parts, List.any_cons, List.any_nil, Bool.or_false, Bool.or_eq_true,
      not_or, Option.not_isSome_iff_eq_none] at hvalues
    obtain ⟨hlabel, hcity, hregion⟩ := hvalues
    rw [hlabel, hcity, hregion]
    rfl

theorem nonempty_of_ne {part : Option String} (h : part ≠ some "") : Location.nonempty? part = part := by
  cases part with
  | none => rfl
  | some text => exact Option.filter_eq_some_iff.mpr ⟨rfl, by simpa using h⟩

theorem filterMap_nonempty {rows : List AssetRow} {part : AssetRow → Option String}
    (h : ∀ row ∈ rows, part row ≠ some "") :
    (rows.filterMap fun row => Location.nonempty? (part row)) = rows.flatMap fun row => (part row).toList := by
  rw [← List.filterMap_eq_flatMap_toList]
  exact List.filterMap_congr fun row hrow => nonempty_of_ne (h row hrow)

theorem countsOf_placeCounts (hfilled : ∀ row ∈ t.assets, row.PartsFilled) (hassets : t.Lists t.assets assets) :
    CountsOf asciiLower Asset.placeParts assets t.placeCounts := by
  have hparts : assets.flatMap Asset.placeParts =
      t.assets.flatMap fun row => row.label.toList ++ (row.city.toList ++ row.region.toList) := by
    refine hassets.flatMap_eq fun row _ asset hasset => (placeParts_of_assetOf hasset).trans ?_
    cases row.label <;> cases row.city <;> cases row.region <;> rfl
  have hlabel := filterMap_nonempty fun row hrow => hfilled row hrow row.label (by simp)
  have hcity := filterMap_nonempty fun row hrow => hfilled row hrow row.city (by simp)
  have hregion := filterMap_nonempty fun row hrow => hfilled row hrow row.region (by simp)
  refine countsOf_tally ?_
  dsimp only
  rw [hlabel, hcity, hregion, ← List.map_append, ← List.map_append, hparts, List.append_assoc]
  refine List.Perm.map asciiLower ?_
  exact ((List.flatMap_append_perm _ _ _).append_left _).trans (List.flatMap_append_perm _ _ _)

end Tables

/-- Whether the statistics of a catalog count some assets. -/
structure Connection.CountsAssets (c : Connection) (assets : List Asset) : Prop where
  tags : ∃ counts, c.tagCounts = .ok counts ∧ CountsOf asciiLower Asset.tags assets counts
  places : ∃ counts, c.placeCounts = .ok counts ∧ CountsOf asciiLower Asset.placeParts assets counts
  years : ∃ counts, c.yearCounts = .ok counts ∧
    CountsOf id (fun asset => [yearLabel asset.bestDate.date.year]) assets counts ∧
    c.count = .ok (counts.map LabelCount.count).sum
  mediaTypes : ∃ counts, c.mediaTypeCounts = .ok counts ∧
    CountsOf asciiLower (fun asset => [asset.mediaType]) assets counts ∧
    c.count = .ok (counts.map LabelCount.count).sum

/-- The statistics of a catalog lose nothing of its assets and add nothing to them. Where the tables were dropped, there
are neither. -/
theorem countsAssets_of_reachable {c : Connection} (h : Reachable c) :
    (∃ assets, c.Holds assets ∧ c.CountsAssets assets) ∨
    (c.working.tables = none ∧ c.count = .error (.statement (.missingTable "assets")) ∧
      c.tagCounts = .error (.statement (.missingTable "asset_tags")) ∧
      c.placeCounts = .error (.statement (.missingTable "assets")) ∧
      c.yearCounts = .error (.statement (.missingTable "assets")) ∧
      c.mediaTypeCounts = .error (.statement (.missingTable "assets"))) := by
  cases ht : c.working.tables with
  | none =>
      right
      simp only [Connection.count, Connection.tagCounts, Connection.placeCounts, Connection.yearCounts,
        Connection.mediaTypeCounts, Connection.tablesFor, ht]
      exact ⟨trivial, rfl, rfl, rfl, rfl, rfl⟩
  | some t =>
      left
      have hintact := h.intact ht
      have hfilled := (h.satisfies Tables.invariant_partsFilled).working t ht
      obtain ⟨assets, hassets⟩ := t.exists_lists hintact.dates
      have hholds := hintact.toSound.holds ht hassets
      have hyears := Tables.countsOf_yearCounts hintact.toSound hassets
      have htypes := Tables.countsOf_mediaTypeCounts hassets
      refine ⟨assets, hholds, ⟨t.tagCounts, ?_, Tables.countsOf_tagCounts hintact hassets⟩,
        ⟨t.placeCounts, ?_, Tables.countsOf_placeCounts hfilled hassets⟩,
        ⟨t.yearCounts, ?_, hyears, hyears.total_eq_length ▸ hholds.count⟩,
        ⟨t.mediaTypeCounts, ?_, htypes, htypes.total_eq_length ▸ hholds.count⟩⟩
      · rw [Connection.tagCounts, Connection.tablesFor, ht, Except.ok_map]
      · rw [Connection.placeCounts, Connection.tablesFor, ht, Except.ok_map]
      · rw [Connection.yearCounts, Connection.tablesFor, ht, Except.ok_map]
      · rw [Connection.mediaTypeCounts, Connection.tablesFor, ht, Except.ok_map]

/-- The tags of an asset are counted by their spellings, and its place by its parts. -/
theorem countsAssets_of_reachable_two_spellings :
    let place : Location := ⟨some "Home", none, some "Sicily"⟩
    let asset : Asset :=
      { Asset.bare "a" (.newYear 2020 (by decide)) with tags := ["Cat", "cat"], location := some place }
    let c := Connection.new.performAll [.put asset, .put (.bare "b" (.newYear 2020 (by decide)))]
    Reachable c ∧ c.tagCounts = .ok [⟨"cat", 2⟩] ∧ c.placeCounts = .ok [⟨"home", 1⟩, ⟨"sicily", 1⟩] ∧
      ∃ assets, c.Holds assets ∧ c.CountsAssets assets := by
  intro place asset c
  have hc : Reachable c := Reachable.new.performAll _
  have htags : c.tagCounts = .ok [⟨"cat", 2⟩] := by decide +kernel +zetaReduce
  have hplaces : c.placeCounts = .ok [⟨"home", 1⟩, ⟨"sicily", 1⟩] := by decide +kernel +zetaReduce
  refine ⟨hc, htags, hplaces, (countsAssets_of_reachable hc).resolve_right ?_⟩
  rintro ⟨_, _, hnone, _⟩
  rw [htags] at hnone
  cases hnone

end Catalog

end MediaCatalog
