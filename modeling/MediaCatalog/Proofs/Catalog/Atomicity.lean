import MediaCatalog.Proofs.Calendar.Instants
import MediaCatalog.Proofs.Catalog.Integrity
import MediaCatalog.Proofs.Catalog.Transactions

/-!
A put succeeds as a whole or leaves everything that is stored as it was, and there are three reasons for which it can
fail. Where storing several assets fails, the assets before the one that cannot be put are stored, and no others.
-/

namespace MediaCatalog

open Calendar

/-- The dates that are known of an asset. -/
def Asset.dates (asset : Asset) : List DateTime :=
  asset.importDate :: (asset.userDate.toList ++ asset.captureDate.toList)

/-- Whether the length of an asset is a number of 64 bits. -/
def Asset.LengthFits (asset : Asset) : Prop :=
  -2 ^ 63 ≤ asset.byteLength ∧ asset.byteLength < 2 ^ 63

namespace Catalog

namespace AssetRow

theorem exists_storedDate_iff {date : DateTime} : (∃ text, storedDate? date = some text) ↔ date.InCalendar := by
  rw [← Option.ne_none_iff_exists', storedDate?, Ne, Option.map_eq_none_iff, DateTime.toUtc_eq_none_iff, not_not]

theorem exists_mapM_storedDate_iff {date : Option DateTime} :
    (∃ stored, date.mapM storedDate? = some stored) ↔ ∀ known ∈ date.toList, known.InCalendar := by
  cases date with
  | none => exact ⟨fun _ known hknown => absurd hknown List.not_mem_nil, fun _ => ⟨none, rfl⟩⟩
  | some date =>
      change (∃ stored, (storedDate? date).map some = some stored) ↔ ∀ known ∈ [date], known.InCalendar
      rw [List.forall_mem_singleton, ← exists_storedDate_iff]
      constructor
      · rintro ⟨stored, hstored⟩
        obtain ⟨text, htext, _⟩ := Option.map_eq_some_iff.mp hstored
        exact ⟨text, htext⟩
      · rintro ⟨text, htext⟩
        exact ⟨some text, by rw [htext, Option.map_some]⟩

theorem exists_ofAsset_iff {asset : Asset} :
    (∃ row, ofAsset? asset = some row) ↔ ∀ date ∈ asset.dates, date.InCalendar := by
  rw [Asset.dates, List.forall_mem_cons, List.forall_mem_append, ← exists_storedDate_iff,
    ← exists_mapM_storedDate_iff, ← exists_mapM_storedDate_iff]
  simp only [ofAsset_eq_some_iff]
  constructor
  · rintro ⟨_, importDate, userDate, captureDate, himport, huser, hcapture, _⟩
    exact ⟨⟨importDate, himport⟩, ⟨userDate, huser⟩, ⟨captureDate, hcapture⟩⟩
  · rintro ⟨⟨importDate, himport⟩, ⟨userDate, huser⟩, ⟨captureDate, hcapture⟩⟩
    exact ⟨_, importDate, userDate, captureDate, himport, huser, hcapture, rfl⟩

theorem ofAsset_eq_none_iff {asset : Asset} :
    ofAsset? asset = none ↔ ∃ date ∈ asset.dates, ¬ date.InCalendar := by
  rw [Option.eq_none_iff_forall_ne_some, ← not_iff_not]
  push Not
  exact exists_ofAsset_iff

end AssetRow

namespace Connection

variable {c : Connection} {t : Tables} {asset : Asset}

/-- Whether an asset of another key is found that has the checksum of an asset, if this has one. -/
def ChecksumTaken (c : Connection) (asset : Asset) : Prop :=
  asset.checksum ≠ "" ∧
    ∃ key record, key ≠ asset.key ∧ c.get key = .ok (some record) ∧ record.checksum = asset.checksum

theorem checksumTaken_iff (ht : c.working.tables = some t) (h : t.Consistent) {row : AssetRow}
    (hrow : AssetRow.ofAsset? asset = some row) : t.checksumTaken row = true ↔ c.ChecksumTaken asset := by
  rw [← Bool.not_eq_false, Tables.checksumTaken_eq_false_iff, AssetRow.checksum_of_ofAsset hrow,
    AssetRow.key_of_ofAsset hrow, ChecksumTaken]
  by_cases hempty : asset.checksum = ""
  · simp [hempty, Location.nonempty?]
  · have hfilled : Location.nonempty? (some asset.checksum) = some asset.checksum := by
      simp [Location.nonempty?, Option.filter, hempty]
    rw [hfilled]
    push Not
    constructor
    · rintro ⟨other, hother, _, hchecksum, hkey⟩
      obtain ⟨record, hread⟩ := AssetRow.exists_toAsset (h.dates other hother) (t.tagsOf other.key)
      refine ⟨hempty, other.key, record, hkey, ?_, ?_⟩
      · rw [get_of_tables ht h.toSound, (Tables.record_eq_some_iff h.ascending).mpr ⟨other, hother, rfl, hread⟩]
      · rw [AssetRow.checksum_of_toAsset hread, hchecksum]
        rfl
    · rintro ⟨_, key, record, hkey, hget, hchecksum⟩
      rw [get_of_tables ht h.toSound, Except.ok.injEq, Tables.record_eq_some_iff h.ascending] at hget
      obtain ⟨other, hother, rfl, hread⟩ := hget
      refine ⟨other, hother, rfl, ?_, hkey⟩
      rw [AssetRow.checksum_eq_some_of_toAsset hread (ne_of_eq_of_ne hchecksum hempty), hchecksum]

theorem put_fst (ht : c.working.tables = some t) (asset : Asset) :
    (c.put asset).1 =
      match AssetRow.ofAsset? asset with
      | none => .error .dateOutOfRange
      | some row =>
        if fitsInteger asset.byteLength = false then .error .numberTooLarge
        else if t.checksumTaken row then .error (.store asset.key .checksumTaken)
        else .ok () := by
  rw [Connection.put]
  cases AssetRow.ofAsset? asset with
  | none => rfl
  | some row =>
      simp only [ht]
      cases fitsInteger asset.byteLength with
      | false => rfl
      | true =>
          simp only [Tables.put]
          cases t.checksumTaken row <;> rfl

theorem contents_of_put_eq_error {error : CatalogError} (h : (c.put asset).1 = .error error) :
    (c.put asset).2.working = c.working ∧ (c.put asset).2.committed = c.committed := by
  rw [Connection.put] at h ⊢
  split
  · exact ⟨rfl, rfl⟩
  · rename_i row hrow
    rw [hrow] at h
    split
    · split_ifs <;> exact ⟨rfl, rfl⟩
    · rename_i t ht
      simp only [ht] at h ⊢
      split_ifs
      · exact ⟨rfl, rfl⟩
      · rename_i hfits
        rw [if_neg hfits] at h
        cases hput : t.put row asset.tags with
        | ok t' =>
            rw [hput] at h
            cases h
        | error fault => exact ⟨rfl, rfl⟩

/-- The catalog after the first `n` of some assets were put in one by one. -/
def putFirst (c : Connection) (assets : List Asset) (n : Nat) : Connection :=
  c.performAll ((assets.take n).map .put)

/-- Storing assets stops at the first that cannot be put, which is put in vain. -/
theorem exists_of_store_eq_error {assets : List Asset} {error : CatalogError}
    (h : (c.store assets).1 = .error error) :
    ∃ n asset, assets[n]? = some asset ∧ ((c.putFirst assets n).put asset).1 = .error error ∧
      (∀ m < n, ∀ earlier, assets[m]? = some earlier → ((c.putFirst assets m).put earlier).1 = .ok ()) ∧
      (c.store assets).2 = ((c.putFirst assets n).put asset).2 := by
  induction assets generalizing c with
  | nil => cases h
  | cons asset rest ih =>
      rw [Connection.store] at h ⊢
      obtain ⟨outcome, c', hput⟩ : ∃ outcome c', c.put asset = (outcome, c') := ⟨_, _, rfl⟩
      have hnext : ∀ m, c.putFirst (asset :: rest) (m + 1) = c'.putFirst rest m := by
        intro m
        change (c.put asset).2.performAll _ = _
        rw [hput]
        rfl
      rw [hput] at h ⊢
      cases outcome with
      | error raised =>
          refine ⟨0, asset, rfl, ?_, fun m hm => absurd hm (Nat.not_lt_zero m), ?_⟩
          · change (c.put asset).1 = _
            rw [hput]
            exact h
          · change _ = (c.put asset).2
            rw [hput]
      | ok done =>
          obtain ⟨n, refused, hrefused, hraised, hearlier, hstore⟩ := ih h
          refine ⟨n + 1, refused, hrefused, ?_, ?_, ?_⟩
          · rw [hnext]
            exact hraised
          · intro m hm earlier hget
            cases m with
            | zero =>
                obtain rfl := Option.some.inj hget
                change (c.put asset).1 = _
                rw [hput]
            | succ m =>
                rw [hnext]
                exact hearlier m (Nat.lt_of_succ_lt_succ hm) earlier hget
          · rw [hnext]
            exact hstore

/-- When a put fails and with which error, and what there is then. -/
structure PutsAtomically (c : Connection) (asset : Asset) : Prop where
  raises : (∃ error, (c.put asset).1 = .error error) ↔
    c.ChecksumTaken asset ∨ (∃ date ∈ asset.dates, ¬ date.InCalendar) ∨ ¬ asset.LengthFits
  dateOutOfRange : (c.put asset).1 = .error .dateOutOfRange ↔ ∃ date ∈ asset.dates, ¬ date.InCalendar
  numberTooLarge : (c.put asset).1 = .error .numberTooLarge ↔
    (∀ date ∈ asset.dates, date.InCalendar) ∧ ¬ asset.LengthFits
  checksumTaken : (c.put asset).1 = .error (.store asset.key .checksumTaken) ↔
    (∀ date ∈ asset.dates, date.InCalendar) ∧ asset.LengthFits ∧ c.ChecksumTaken asset
  unchanged : ∀ error, (c.put asset).1 = .error error →
    (c.put asset).2.working = c.working ∧ (c.put asset).2.committed = c.committed ∧ AnswerAlike (c.put asset).2 c

theorem putsAtomically_of_tables (ht : c.working.tables = some t) (h : t.Consistent) (asset : Asset) :
    c.PutsAtomically asset := by
  have hunchanged : ∀ error, (c.put asset).1 = .error error →
      (c.put asset).2.working = c.working ∧ (c.put asset).2.committed = c.committed ∧
        AnswerAlike (c.put asset).2 c := by
    intro error herror
    obtain ⟨hworking, hcommitted⟩ := contents_of_put_eq_error herror
    exact ⟨hworking, hcommitted, answerAlike_of_tables (congrArg Contents.tables hworking)⟩
  have hput := put_fst ht asset
  have hlength := @fitsInteger_iff asset.byteLength
  rw [← Asset.LengthFits] at hlength
  cases hrow : AssetRow.ofAsset? asset with
  | none =>
      have hdate := AssetRow.ofAsset_eq_none_iff.mp hrow
      have hnot : ¬ ∀ date ∈ asset.dates, date.InCalendar := by
        push Not
        exact hdate
      rw [hrow] at hput
      refine ⟨?_, ?_, ?_, ?_, hunchanged⟩ <;> simp [hput, hdate, hnot]
  | some row =>
      have hdates := AssetRow.exists_ofAsset_iff.mp ⟨row, hrow⟩
      have hdate : ¬ ∃ date ∈ asset.dates, ¬ date.InCalendar := by
        push Not
        exact hdates
      have htaken := checksumTaken_iff ht h hrow
      rw [hrow] at hput
      refine ⟨?_, ?_, ?_, ?_, hunchanged⟩ <;>
        simp only [hput, hdate, iff_true_intro hdates, ← hlength, ← htaken] <;>
        cases fitsInteger asset.byteLength <;> cases t.checksumTaken row <;> simp

end Connection

/-- A put that fails leaves the catalog as it was, and if storing several assets fails, it is as if those before the
one that cannot be put had been put one by one. -/
theorem atomic_writes {c : Connection} (hc : Reachable c) (htables : c.working.tables.isSome) :
    (∀ asset, c.PutsAtomically asset) ∧
    ∀ assets error, (c.store assets).1 = .error error →
      ∃ n asset, assets[n]? = some asset ∧ ((c.putFirst assets n).put asset).1 = .error error ∧
        (∀ m < n, ∀ earlier, assets[m]? = some earlier → ((c.putFirst assets m).put earlier).1 = .ok ()) ∧
        (c.store assets).2.working = (c.putFirst assets n).working ∧
        (c.store assets).2.committed = (c.putFirst assets n).committed ∧
        AnswerAlike (c.store assets).2 (c.putFirst assets n) := by
  obtain ⟨t, ht⟩ := Option.isSome_iff_exists.mp htables
  refine ⟨Connection.putsAtomically_of_tables ht (hc.intact ht).toConsistent, ?_⟩
  intro assets error herror
  obtain ⟨n, asset, hasset, hraised, hearlier, hstore⟩ := Connection.exists_of_store_eq_error herror
  obtain ⟨hworking, hcommitted⟩ := Connection.contents_of_put_eq_error hraised
  rw [hstore]
  exact ⟨n, asset, hasset, hraised, hearlier, hworking, hcommitted,
    Connection.answerAlike_of_tables (congrArg Contents.tables hworking)⟩

theorem atomic_writes_same_checksum :
    let date := DateTime.newYear 2020 (by decide)
    let c := (Connection.new.put { Asset.bare "a" date with checksum := "sum" }).2
    let copy := { Asset.bare "b" date with checksum := "sum" }
    Reachable c ∧ c.working.tables.isSome ∧ (c.put copy).1 = .error (.store "b" .checksumTaken) ∧
      AnswerAlike (c.put copy).2 c := by
  intro date c copy
  have hc : Reachable c := Reachable.new.perform (.put { Asset.bare "a" date with checksum := "sum" })
  have htables : c.working.tables.isSome := by decide +kernel
  have hrefused : (c.put copy).1 = .error (.store "b" .checksumTaken) := by decide +kernel
  exact ⟨hc, htables, hrefused, (((atomic_writes hc htables).1 copy).unchanged _ hrefused).2.2⟩

end Catalog

end MediaCatalog
