import MediaCatalog.Proofs.Intake.Deduplication

/-!
What a catalog gains by an import. Whether the import succeeds or fails, each row that it leaves was there before, or is
made from a file that the walk met; and if no step fails, each such file has a row with its checksum.
-/

namespace MediaCatalog

open Calendar Catalog Files Intake

namespace Intake

/-- Whether a row is made from a file. A row that takes the place of another one keeps the import date of that. -/
def Medium.IsRecordedBy (medium : Medium) (row : AssetRow) : Prop :=
  ∃ stamp made importDate, AssetRow.ofAsset? (medium.asset stamp) = some made ∧ row = { made with importDate }

/-- Whether each row of the tables is one of some rows, or made from one of some files. -/
def GainsOnly (before : List AssetRow) (media : List Medium) (t : Tables) : Prop :=
  ∀ row ∈ t.assets, row ∈ before ∨ ∃ medium ∈ media, medium.IsRecordedBy row

theorem gainsOnly_of_subset {before : List AssetRow} (media : List Medium) {t : Tables} (h : t.assets ⊆ before) :
    GainsOnly before media t :=
  fun _ hrow => .inl (h hrow)

theorem GainsOnly.put {before : List AssetRow} {media : List Medium} {t t' : Tables} (h : GainsOnly before media t)
    {medium : Medium} (hmedium : medium ∈ media) {stamp : Stamp} {new : AssetRow}
    (hnew : AssetRow.ofAsset? (medium.asset stamp) = some new) {tags : List String} (hput : t.put new tags = .ok t') :
    GainsOnly before media t' := by
  rw [Tables.put] at hput
  split_ifs at hput
  cases hput
  intro row hrow
  rcases Tables.mem_upsert hrow with rfl | hrow | ⟨old, _, _, rfl⟩
  · exact .inr ⟨medium, hmedium, stamp, row, row.importDate, hnew, rfl⟩
  · exact h row hrow
  · exact .inr ⟨medium, hmedium, stamp, new, old.importDate, hnew, rfl⟩

namespace Progress

variable {before : List AssetRow} {media : List Medium} {p : Progress}

theorem gainsOnly_addEvent (stamps : Nat → Stamp) (h : p.connection.Satisfies (GainsOnly before media)) {event : WalkEvent}
    (hevent : ∀ medium ∈ medium? event, medium ∈ media) :
    (p.addEvent stamps event).2.connection.Satisfies (GainsOnly before media) := by
  cases hmedium : medium? event with
  | none =>
      obtain ⟨log, hadd⟩ := addEvent_of_none stamps p hmedium
      rw [hadd]
      exact h
  | some medium =>
      obtain ⟨log, hadd⟩ := addEvent_of_some stamps p hmedium
      rw [hadd]
      exact satisfies_addAsset_of_put h fun ht hrow hput => ht.put (hevent medium hmedium) hrow hput

theorem gainsOnly_addEvents (stamps : Nat → Stamp) (h : p.connection.Satisfies (GainsOnly before media)) {events : List WalkEvent}
    (hevents : events.filterMap medium? ⊆ media) :
    (p.addEvents stamps events).2.connection.Satisfies (GainsOnly before media) := by
  induction events generalizing p with
  | nil => exact h
  | cons event events ih =>
      have hevent := gainsOnly_addEvent stamps h fun medium hmedium =>
        hevents (List.mem_filterMap.mpr ⟨event, List.mem_cons_self, hmedium⟩)
      have hrest : events.filterMap medium? ⊆ media :=
        fun _ hmem => hevents ((List.sublist_cons_self event events).filterMap medium? |>.subset hmem)
      rw [addEvents]
      split
      · rename_i p' heq
        rw [heq] at hevent
        exact ih hevent hrest
      · rename_i error p' heq
        rw [heq] at hevent
        exact hevent

end Progress

theorem gainsOnly_importTree {before : List AssetRow} {c : Connection} {tree : FileTree} {root : FilePath}
    {skip : List FilePath} (stamps : Nat → Stamp) (unused : Nat)
    (h : c.Satisfies (GainsOnly before ((tree.walk root skip).filterMap medium?))) :
    (importTree tree stamps root skip c unused).2.connection.Satisfies
      (GainsOnly before ((tree.walk root skip).filterMap medium?)) := by
  have hevents := Progress.gainsOnly_addEvents (p := Progress.start c unused root) stamps h (List.Subset.refl _)
  rw [Progress.start] at hevents
  rw [importTree]
  dsimp only
  split
  · rename_i heq
    rw [heq] at hevents
    exact hevents
  · rename_i heq
    rw [heq] at hevents
    exact hevents.commit

end Intake

/-- The rows of the assets in a catalog file. -/
def Catalog.Contents.rows (contents : Contents) : List AssetRow :=
  (contents.tables.map Tables.assets).getD []

namespace Application

theorem gainsOnly_importStamped (app : Application) (stamps : Nat → Stamp) (root : FilePath) (skip : List FilePath) :
    (app.importStamped stamps root skip).app.catalog.Satisfies
      (GainsOnly app.catalog.rows (app.media root skip)) := by
  have hcatalog : app.catalog.Satisfies (GainsOnly app.catalog.rows (app.media root skip)) := by
    intro t ht
    rw [Contents.rows, Option.mem_def.mp ht]
    exact gainsOnly_of_subset _ (List.Subset.refl _)
  have hempty := gainsOnly_of_subset (t := Tables.empty) (app.media root skip) (List.nil_subset app.catalog.rows)
  exact (gainsOnly_importTree stamps app.unused (Connection.satisfies_connect hcatalog hempty)).committed

theorem exists_row_of_mem_media {stamps : Nat → Stamp} {app : Application} (h : Imported stamps app) {root : FilePath}
    {skip : List FilePath} (hproper : Proper stamps (app.unused + (app.media root skip).length))
    (hsize : ∀ medium ∈ app.media root skip, medium.content.bytes.size < 2 ^ 63) {medium : Medium}
    (hmedium : medium ∈ app.media root skip) :
    ∃ row ∈ (app.importStamped stamps root skip).app.catalog.rows, row.checksum = some medium.checksum := by
  obtain ⟨before, hbefore, hstamped⟩ := h.exists_records
  have hstart : Reached stamps app.unused before [] (Progress.start app.connect app.unused root) [] before :=
    ⟨hbefore, app.versions_connect, hstamped, rfl, rfl, NewAssets.nil _ _ _, fun asset => by simp⟩
  obtain ⟨p, added, after, hevents, hp⟩ := hstart.addEvents _ hproper hsize
  rw [List.nil_append] at hp
  have hchecksum : medium.checksum ∈ after.assets.map Asset.checksum := by
    rw [hp.mem_checksums, hp.newAssets.checksums]
    by_cases hold : medium.checksum ∈ before.assets.map Asset.checksum
    · exact .inl hold
    · exact .inr ⟨List.mem_map_of_mem hmedium, hold⟩
  obtain ⟨asset, hasset, heq⟩ := List.mem_map.mp hchecksum
  obtain ⟨t, ht, htables⟩ := hp.represents
  obtain ⟨key, hkey⟩ := Records.mem_assets.mp hasset
  obtain ⟨row, hrow, -, hread⟩ := htables.exists_row hkey
  have hrows : (app.importStamped stamps root skip).app.catalog.rows = t.assets := by
    rw [(importStamped_of_addEvents hevents).2, Contents.rows, ht]
    rfl
  refine ⟨row, hrows ▸ hrow, ?_⟩
  rw [AssetRow.checksum_eq_some_of_toAsset hread (heq ▸ medium.checksum_ne_empty), heq]

end Application

end MediaCatalog
