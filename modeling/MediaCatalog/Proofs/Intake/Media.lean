import MediaCatalog.Intake.Import
import MediaCatalog.Proofs.Calendar.Instants
import MediaCatalog.Proofs.Catalog.Records

/-!
The files of a walk that can become assets, and the assets that they become. What is recorded of such an asset is the
asset itself, since the dates of files are dates of universal time.
-/

namespace MediaCatalog

open Calendar Files Media Text

theorem Asset.recorded_of_utc {asset : Asset} (himport : asset.importDate.offset = some Offset.utc)
    (huser : asset.userDate = none) (hcapture : ∀ date ∈ asset.captureDate, date.offset = some Offset.utc)
    (htags : asset.tags = []) (hplace : asset.location = none) : asset.recorded? = some asset := by
  have hdate : asset.captureDate.mapM DateTime.toUtc? = some asset.captureDate := by
    cases hdate : asset.captureDate with
    | none => rfl
    | some date => exact congrArg (Option.map some) (DateTime.toUtc_of_utc (hcapture date hdate))
  refine Asset.recorded_eq_some_iff.mpr ⟨_, none, _, DateTime.toUtc_of_utc himport, ?_, hdate, ?_⟩
  · rw [huser]
    rfl
  · rw [htags, hplace, List.toFinset_nil, Finset.sort_empty]
    cases asset
    subst huser htags hplace
    rfl

theorem Calendar.CameraStamp.offset_of_read {text : String} {date : DateTime} (h : read text = some date) :
    date.offset = some Offset.utc := by
  rw [read] at h
  split at h
  · simp only [Option.bind_eq_bind, Option.bind_eq_some_iff, Option.pure_def] at h
    obtain ⟨_, _, _, _, hdate⟩ := h
    rw [← Option.some.inj hdate]
  · cases h

namespace Intake

theorem offset_of_captureDate {tags : List (String × String)} {date : DateTime} (h : captureDate tags = some date) :
    date.offset = some Offset.utc := by
  obtain ⟨tag, _, htag⟩ := List.exists_of_findSome?_eq_some h
  obtain ⟨text, _, hread⟩ := Option.bind_eq_some_iff.mp htag
  exact CameraStamp.offset_of_read hread

theorem offset_of_fileCaptureDate {mediaType : String} {content : FileContent} {date : DateTime}
    (h : (fileCaptureDate mediaType content).toOption.join = some date) : date.offset = some Offset.utc := by
  rw [fileCaptureDate] at h
  split_ifs at h
  · cases hembedded : content.embedded with
    | error reason =>
        rw [hembedded] at h
        cases h
    | ok tags =>
        rw [hembedded] at h
        exact offset_of_captureDate h
  · cases h

/-- A file that is read. -/
structure Medium where
  path : FilePath
  content : FileContent

namespace Medium

def checksum (medium : Medium) : String :=
  checksumOf medium.content.bytes

/-- The asset that a file becomes with a stamp. A capture date that cannot be read is missing. -/
def asset (medium : Medium) (stamp : Stamp) : Asset where
  key := newAssetKey stamp.time (inferMediaType medium.path) (lower (extension medium.path.name))
    stamp.unique.toNat
  checksum := medium.checksum
  filename := medium.path.name
  byteLength := medium.content.bytes.size
  mediaType := inferMediaType medium.path
  tags := []
  importDate := stamp.time
  caption := none
  location := none
  userDate := none
  captureDate := (fileCaptureDate (inferMediaType medium.path) medium.content).toOption.join

end Medium

/-- The file that a walk meets, if it can be read and its name does not begin with `._`. -/
def medium? : WalkEvent → Option Medium
  | .file path content => if content.readable ∧ ¬ "._".toList <+: path.name.toList then some ⟨path, content⟩ else none
  | .unlistable _ => none

/-- What is found in a walk is the asset of the file, if it is one that counts. -/
theorem asset_examine (stamp : Stamp) (event : WalkEvent) :
    (examine stamp.time stamp.unique.toNat event).asset = (medium? event).map fun medium => medium.asset stamp := by
  cases event with
  | unlistable path => rfl
  | file path content =>
      have hfork : isResourceFork path = true ↔ "._".toList <+: path.name.toList := List.isPrefixOf_iff_prefix
      simp only [examine, medium?, ← hfork]
      cases isResourceFork path with
      | true => simp [Finding.nothing]
      | false =>
          rw [contentChecksum]
          cases content.readable with
          | false => rfl
          | true =>
              simp only [newAsset, Medium.asset, Medium.checksum, if_true, if_false, Bool.false_eq_true,
                not_false_eq_true, and_self, Option.map_some]
              generalize inferMediaType path = mediaType
              cases fileCaptureDate mediaType content <;> rfl

namespace Medium

theorem checksum_ne_empty (medium : Medium) : medium.checksum ≠ "" := by
  intro h
  have hchars := congrArg String.toList h
  rw [checksum, checksumOf, String.toList_append] at hchars
  exact absurd (List.append_eq_nil_iff.mp hchars).1 (by decide)

theorem recorded_asset (medium : Medium) {stamp : Stamp} (h : stamp.time.offset = some Offset.utc) :
    (medium.asset stamp).recorded? = some (medium.asset stamp) := by
  refine Asset.recorded_of_utc h rfl ?_ rfl rfl
  intro date hdate
  simp only [asset] at hdate
  exact offset_of_fileCaptureDate hdate

end Medium

end Intake

end MediaCatalog
