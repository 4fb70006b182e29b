import MediaCatalog.Proofs.Calendar.Years
import MediaCatalog.Proofs.Catalog.Integrity
import MediaCatalog.Proofs.Catalog.Tally
import MediaCatalog.Proofs.Text.Lowercase
import MediaCatalog.Query.Constraint

/-!
Searching for the assets of a tag, and counting them. The statistics count the spellings of a tag on every asset, and
take for one tag what differs in the letters `A` to `Z` only; a search finds an asset once, and lowercases all letters.
The numbers agree if what the one counts more is what the other finds more.
-/

namespace MediaCatalog

open Catalog Query Text

/-- How many tags of an asset are a label but for the case of the letters `A` to `Z`. -/
def Asset.spellings (label : String) (asset : Asset) : Nat :=
  asset.tags.countP fun tag => asciiLower tag = label

theorem accepts_ofTag_of_spellings {label : String} {asset : Asset} (h : asset.spellings label ≠ 0) :
    (Constraint.ofTag label).accepts asset := by
  obtain ⟨tag, htag, hspelled⟩ := List.countP_pos_iff.mp (Nat.pos_of_ne_zero h)
  have hlabel : asciiLower tag = label := by simpa using hspelled
  refine List.any_eq_true.mpr ⟨tag, htag, ?_⟩
  rw [← hlabel, lower_asciiLower, beq_self_eq_true]

theorem sum_spellings (label : String) (assets : List Asset) :
    (assets.map (Asset.spellings label)).sum +
        (assets.filter (Constraint.ofTag label).accepts).countP (fun asset => asset.spellings label = 0) =
      (assets.filter (Constraint.ofTag label).accepts).length +
        ((assets.filter (Constraint.ofTag label).accepts).map fun asset => asset.spellings label - 1).sum := by
  induction assets with
  | nil => rfl
  | cons asset assets ih =>
      by_cases haccepts : (Constraint.ofTag label).accepts asset
      · rw [List.filter_cons_of_pos haccepts, List.map_cons, List.sum_cons, List.countP_cons, List.length_cons,
          List.map_cons, List.sum_cons]
        by_cases hspellings : asset.spellings label = 0
        · rw [if_pos (decide_eq_true hspellings)]
          omega
        · rw [if_neg (by simpa using hspellings)]
          omega
      · have hspellings : asset.spellings label = 0 := by
          by_contra hne
          exact haccepts (accepts_ofTag_of_spellings hne)
        rw [List.filter_cons_of_neg haccepts, List.map_cons, List.sum_cons, hspellings, Nat.zero_add]
        exact ih

theorem count_tags {t : Tables} (h : t.Intact) {assets : List Asset} (hassets : t.Lists t.assets assets)
    (label : String) :
    (t.tags.map fun row => asciiLower row.tag).count label = (assets.map (Asset.spellings label)).sum := by
  have hspellings : assets.map (Asset.spellings label) =
      t.assets.map fun row => (t.tagsOf row.key).countP fun tag => asciiLower tag = label := by
    refine hassets.map_eq ?_
    intro row _ asset hasset
    rw [Asset.spellings, AssetRow.tags_of_toAsset (Tables.assetOf_eq_ok_iff.mp hasset)]
  rw [hspellings, List.count, List.countP_map, h.tags_eq, List.countP_flatMap]
  congr 1
  refine List.map_congr_left ?_
  intro row _
  rw [Function.comp_apply, List.countP_map]
  refine List.countP_congr ?_
  intro tag _
  simp

/-- The statistics of a tag agree with the search for it exactly if the assets that have more than one spelling make up
for those that have none. -/
theorem tagCounts_eq_matching_iff {c : Connection} (h : Reachable c) (htables : c.working.tables.isSome) :
    ∃ assets counts, c.Holds assets ∧ c.tagCounts = .ok counts ∧ ∀ entry ∈ counts,
      let matching := assets.filter (Constraint.ofTag entry.label).accepts
      entry.count = (assets.map (Asset.spellings entry.label)).sum ∧
        (entry.count = matching.length ↔
          (matching.map fun asset => asset.spellings entry.label - 1).sum =
            matching.countP fun asset => asset.spellings entry.label = 0) := by
  obtain ⟨t, ht⟩ := Option.isSome_iff_exists.mp htables
  have hintact := h.intact ht
  obtain ⟨assets, hassets⟩ := t.exists_lists hintact.dates
  refine ⟨assets, t.tagCounts, hintact.toSound.holds ht hassets, ?_, ?_⟩
  · rw [Connection.tagCounts, Connection.tablesFor, ht, Except.ok_map]
  · intro entry hentry matching
    have hcount : entry.count = (assets.map (Asset.spellings entry.label)).sum :=
      (count_of_mem_tally hentry).trans (count_tags hintact hassets entry.label)
    have hsum := sum_spellings entry.label assets
    refine ⟨hcount, ?_⟩
    rw [hcount]
    dsimp only [matching]
    omega

/-- The kelvin sign is a spelling of the letter for the search alone; here it makes up for a tag that counts twice. -/
theorem tagCounts_eq_matching_iff_kelvin :
    let asset (key : String) (tags : List String) : Asset := { Asset.bare key (.newYear 2020 (by decide)) with tags }
    let c := Connection.new.performAll [.put (asset "a" ["Kelvin", "kelvin"]), .put (asset "b" ["\u212Aelvin"])]
    Reachable c ∧ c.working.tables.isSome ∧ ∃ assets counts, c.Holds assets ∧ c.tagCounts = .ok counts ∧
      ⟨"kelvin", 2⟩ ∈ counts ∧ (assets.filter (Constraint.ofTag "kelvin").accepts).length = 2 := by
  intro asset c
  have hc : Reachable c := Reachable.new.performAll _
  have htables : c.working.tables.isSome := by decide +kernel +zetaReduce
  have htags : c.tagCounts = .ok [⟨"kelvin", 2⟩, ⟨"\u212Aelvin", 1⟩] := by decide +kernel +zetaReduce
  have hfetch : c.fetch none (-1) = .ok ([asset "a" ["Kelvin", "kelvin"], asset "b" ["\u212Aelvin"]], some "b") := by
    decide +kernel +zetaReduce
  obtain ⟨assets, counts, hassets, hcounts, hagree⟩ := tagCounts_eq_matching_iff hc htables
  obtain rfl := Except.ok.inj (hcounts.symm.trans htags)
  obtain ⟨rfl, _⟩ := Prod.mk.inj (Except.ok.inj (hassets.fetch.symm.trans hfetch))
  refine ⟨hc, htables, _, _, hassets, hcounts, List.mem_cons_self, ?_⟩
  refine ((hagree ⟨"kelvin", 2⟩ List.mem_cons_self).2.mpr ?_).symm
  decide +kernel +zetaReduce

/-- An asset with two spellings of a tag counts twice and is found once. -/
theorem tagCounts_two_spellings :
    let asset : Asset := { Asset.bare "k1" (.newYear 2020 (by decide)) with tags := ["Cat", "cat"] }
    let c := Connection.new.performAll [.put asset]
    Reachable c ∧ c.tagCounts = .ok [⟨"cat", 2⟩] ∧ c.fetch none (-1) = .ok ([asset], some "k1") ∧
      ([asset].filter (Constraint.ofTag "cat").accepts).length = 1 := by
  intro asset c
  refine ⟨Reachable.new.performAll _, ?_, ?_, ?_⟩
  · decide +kernel +zetaReduce
  · decide +kernel +zetaReduce
  · decide +kernel +zetaReduce

end MediaCatalog
