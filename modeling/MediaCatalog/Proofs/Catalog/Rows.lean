import MediaCatalog.Catalog.Row
import MediaCatalog.Proofs.Calendar.WrittenRead

/-!
What a row keeps of an asset. Its dates are written forms of universal time, which can all be read back.
-/

namespace MediaCatalog.Catalog

open Calendar

/-- The texts that dates are stored as. -/
def IsStoredDate (text : String) : Prop :=
  ∃ moment : DateTime, moment.offset = some Offset.utc ∧ moment.written = text

theorem offset_of_toUtc {date moment : DateTime} (h : date.toUtc? = some moment) :
    moment.offset = some Offset.utc := by
  rw [DateTime.toUtc?] at h
  unfold DateTime.ofInstant? at h
  split at h
  · obtain ⟨day, _, rfl⟩ := Option.map_eq_some_iff.mp h
    rfl
  · cases h

theorem isStoredDate_of_storedDate {date : DateTime} {text : String} (h : storedDate? date = some text) :
    IsStoredDate text := by
  obtain ⟨moment, hmoment, rfl⟩ := Option.map_eq_some_iff.mp h
  exact ⟨moment, offset_of_toUtc hmoment, rfl⟩

theorem readStoredDate_written {moment : DateTime} (h : moment.offset = some Offset.utc) :
    readStoredDate? moment.written = some moment := by
  have hlegible : ∀ known ∈ moment.offset, Reader.IsLegible known := by
    rw [h]
    rintro known ⟨⟩
    exact .inl rfl
  rw [readStoredDate?, DateTime.ofString_written moment hlegible, Option.map_some, DateTime.assumeUtc, h]
  cases moment
  subst h
  rfl

theorem IsStoredDate.exists_read {text : String} (h : IsStoredDate text) :
    ∃ moment, readStoredDate? text = some moment := by
  obtain ⟨moment, hoffset, rfl⟩ := h
  exact ⟨moment, readStoredDate_written hoffset⟩

namespace AssetRow

structure DatesStored (row : AssetRow) : Prop where
  importDate : IsStoredDate row.importDate
  userDate : ∀ text ∈ row.userDate, IsStoredDate text
  captureDate : ∀ text ∈ row.captureDate, IsStoredDate text

theorem isStoredDate_of_mapM {date : Option DateTime} {stored : Option String}
    (h : date.mapM storedDate? = some stored) : ∀ text ∈ stored, IsStoredDate text := by
  cases date with
  | none =>
      obtain rfl : none = stored := Option.some.inj h
      exact fun text htext => absurd htext (by simp)
  | some date =>
      obtain ⟨text, htext, rfl⟩ := Option.map_eq_some_iff.mp h
      rintro _ ⟨⟩
      exact isStoredDate_of_storedDate htext

theorem exists_mapM_read {stored : Option String} (h : ∀ text ∈ stored, IsStoredDate text) :
    ∃ date, stored.mapM readStoredDate? = some date := by
  cases stored with
  | none => exact ⟨none, rfl⟩
  | some text =>
      obtain ⟨moment, hmoment⟩ := (h text rfl).exists_read
      exact ⟨some moment, Option.map_eq_some_iff.mpr ⟨moment, hmoment, rfl⟩⟩

theorem ofAsset_eq_some_iff {asset : Asset} {row : AssetRow} :
    ofAsset? asset = some row ↔ ∃ importDate userDate captureDate, storedDate? asset.importDate = some importDate ∧
      asset.userDate.mapM storedDate? = some userDate ∧ asset.captureDate.mapM storedDate? = some captureDate ∧
      row = {
        key := asset.key
        checksum := Location.nonempty? (some asset.checksum)
        filename := asset.filename
        byteLength := asset.byteLength
        mediaType := asset.mediaType
        caption := asset.caption
        label := Location.nonempty? (asset.location.getD {}).label
        city := Location.nonempty? (asset.location.getD {}).city
        region := Location.nonempty? (asset.location.getD {}).region
        importDate, userDate, captureDate } := by
  simp only [ofAsset?, Option.bind_eq_bind, Option.bind_eq_some_iff, Option.pure_def, Option.some.injEq,
    exists_and_left, eq_comm (a := row)]

theorem toAsset_eq_some_iff {row : AssetRow} {tags : List String} {asset : Asset} :
    row.toAsset? tags = some asset ↔ ∃ importDate userDate captureDate,
      readStoredDate? row.importDate = some importDate ∧ row.userDate.mapM readStoredDate? = some userDate ∧
      row.captureDate.mapM readStoredDate? = some captureDate ∧
      asset = {
        key := row.key
        checksum := row.checksum.getD ""
        filename := row.filename
        byteLength := row.byteLength
        mediaType := row.mediaType
        tags
        importDate
        caption := row.caption
        location := row.location
        userDate
        captureDate } := by
  simp only [toAsset?, Option.bind_eq_bind, Option.bind_eq_some_iff, Option.pure_def, Option.some.injEq,
    exists_and_left, eq_comm (a := asset)]

theorem datesStored_of_ofAsset {asset : Asset} {row : AssetRow} (h : ofAsset? asset = some row) :
    row.DatesStored := by
  obtain ⟨importDate, userDate, captureDate, himport, huser, hcapture, rfl⟩ := ofAsset_eq_some_iff.mp h
  exact ⟨isStoredDate_of_storedDate himport, isStoredDate_of_mapM huser, isStoredDate_of_mapM hcapture⟩

theorem exists_toAsset {row : AssetRow} (h : row.DatesStored) (tags : List String) :
    ∃ asset, row.toAsset? tags = some asset := by
  obtain ⟨importDate, himport⟩ := h.importDate.exists_read
  obtain ⟨userDate, huser⟩ := exists_mapM_read h.userDate
  obtain ⟨captureDate, hcapture⟩ := exists_mapM_read h.captureDate
  rw [toAsset?, himport, huser, hcapture]
  exact ⟨_, rfl⟩

theorem key_of_toAsset {row : AssetRow} {tags : List String} {asset : Asset}
    (h : row.toAsset? tags = some asset) : asset.key = row.key := by
  obtain ⟨_, _, _, _, _, _, rfl⟩ := toAsset_eq_some_iff.mp h
  rfl

theorem DatesStored.bestDate {row : AssetRow} (h : row.DatesStored) : IsStoredDate row.bestDate := by
  rw [AssetRow.bestDate]
  cases huser : row.userDate with
  | some text => exact h.userDate text huser
  | none =>
      cases hcapture : row.captureDate with
      | some text => exact h.captureDate text hcapture
      | none => exact h.importDate

theorem bestDate_of_toAsset {row : AssetRow} {tags : List String} {asset : Asset}
    (h : row.toAsset? tags = some asset) : readStoredDate? row.bestDate = some asset.bestDate := by
  obtain ⟨importDate, userDate, captureDate, himport, huser, hcapture, rfl⟩ := toAsset_eq_some_iff.mp h
  rw [bestDate]
  cases hrow : row.userDate with
  | some text =>
      rw [hrow] at huser
      obtain ⟨date, hdate, rfl⟩ := Option.map_eq_some_iff.mp huser
      exact hdate
  | none =>
      rw [hrow] at huser
      obtain rfl : none = userDate := Option.some.inj huser
      cases hrow : row.captureDate with
      | some text =>
          rw [hrow] at hcapture
          obtain ⟨date, hdate, rfl⟩ := Option.map_eq_some_iff.mp hcapture
          exact hdate
      | none =>
          rw [hrow] at hcapture
          obtain rfl : none = captureDate := Option.some.inj hcapture
          exact himport

theorem exists_written_bestDate {row : AssetRow} (h : row.DatesStored) {tags : List String} {asset : Asset}
    (hasset : row.toAsset? tags = some asset) :
    asset.bestDate.offset = some Offset.utc ∧ row.bestDate = asset.bestDate.written := by
  obtain ⟨moment, hoffset, hwritten⟩ := h.bestDate
  have hread := bestDate_of_toAsset hasset
  rw [← hwritten, readStoredDate_written hoffset] at hread
  obtain rfl := Option.some.inj hread
  exact ⟨hoffset, hwritten.symm⟩

end AssetRow

end MediaCatalog.Catalog
