import MediaCatalog.Proofs.Catalog.Integrity
import MediaCatalog.Proofs.Intake.Keys
import MediaCatalog.Proofs.Intake.Media

/-!
Stamps and what an import does with them, step by step. Whether its steps succeed or fail, an import leaves assets of
which each has a checksum, and a key with the number of a stamp that was taken.
-/

namespace MediaCatalog

open Calendar Catalog Files Intake

namespace Intake

variable {stamps : Nat → Stamp} {used : Nat}

/-- Whether the first stamps are of universal time, and have numbers that tell them apart. -/
structure Proper (stamps : Nat → Stamp) (used : Nat) : Prop where
  utc : ∀ n < used, (stamps n).time.offset = some Offset.utc
  distinct : ∀ m n, m < n → n < used → (stamps m).unique ≠ (stamps n).unique

theorem Proper.mono (h : Proper stamps used) {less : Nat} (hle : less ≤ used) : Proper stamps less :=
  ⟨fun n hn => h.utc n (hn.trans_le hle), fun m n hm hn => h.distinct m n hm (hn.trans_le hle)⟩

/-- Whether an asset has a checksum, and a key with the number of one of the first stamps. -/
structure Stamped (stamps : Nat → Stamp) (used : Nat) (asset : Asset) : Prop where
  checksum : asset.checksum ≠ ""
  key : ∃ n < used, ∃ time mediaType extension,
    asset.key = newAssetKey time mediaType extension (stamps n).unique.toNat

theorem Stamped.mono {asset : Asset} (h : Stamped stamps used asset) {more : Nat} (hle : used ≤ more) :
    Stamped stamps more asset := by
  obtain ⟨n, hn, hkey⟩ := h.key
  exact ⟨h.checksum, n, hn.trans_le hle, hkey⟩

theorem stamped_asset (medium : Medium) (n : Nat) : Stamped stamps (n + 1) (medium.asset (stamps n)) :=
  ⟨medium.checksum_ne_empty, n, Nat.lt_succ_self n, _, _, _, rfl⟩

theorem getElem_eq_none_of_stamped {records : Records} {c : Connection} (hc : c.Represents records)
    (h : ∀ asset ∈ records.assets, Stamped stamps used asset)
    (hdistinct : ∀ n < used, (stamps n).unique ≠ (stamps used).unique) (medium : Medium) :
    records[(medium.asset (stamps used)).key]? = none := by
  by_contra hsome
  obtain ⟨asset, hasset⟩ := Option.ne_none_iff_exists'.mp hsome
  obtain ⟨n, hn, time, mediaType, extension, hkey⟩ := (h asset (Records.mem_assets.mpr ⟨_, hasset⟩)).key
  rw [hc.key_eq hasset] at hkey
  exact hdistinct n hn
    (BitVec.eq_of_toNat_eq (unique_of_newAssetKey_eq (stamps used).unique.isLt (stamps n).unique.isLt hkey).symm)

/-- The tables that hold stamped assets only. -/
def FromStamps (stamps : Nat → Stamp) (used : Nat) (t : Tables) : Prop :=
  ∃ records, t.Represents records ∧ ∀ asset ∈ records.assets, Stamped stamps used asset

theorem fromStamps_empty (stamps : Nat → Stamp) (used : Nat) : FromStamps stamps used Tables.empty := by
  refine ⟨∅, Tables.represents_empty, fun asset hasset => ?_⟩
  obtain ⟨key, hkey⟩ := Records.mem_assets.mp hasset
  rw [Std.ExtTreeMap.getElem?_empty] at hkey
  cases hkey

theorem FromStamps.mono {t : Tables} (h : FromStamps stamps used t) {more : Nat} (hle : used ≤ more) :
    FromStamps stamps more t := by
  obtain ⟨records, ht, h⟩ := h
  exact ⟨records, ht, fun asset hasset => (h asset hasset).mono hle⟩

theorem FromStamps.put {t t' : Tables} (h : FromStamps stamps used t) {asset : Asset}
    (hasset : Stamped stamps used asset) {row : AssetRow} (hrow : AssetRow.ofAsset? asset = some row)
    (hput : t.put row asset.tags = .ok t') : FromStamps stamps used t' := by
  obtain ⟨records, ht, h⟩ := h
  obtain ⟨record, hrecord, _⟩ := AssetRow.exists_record_of_ofAsset hrow
  refine ⟨_, ht.insert hrow hrecord hput, fun other hother => ?_⟩
  obtain ⟨_, _, _, _, _, _, rfl⟩ := Asset.recorded_eq_some_iff.mp hrecord
  rcases Records.mem_assets_of_mem_insert hother with rfl | hother
  · exact ⟨hasset.checksum, hasset.key⟩
  · exact h other hother

namespace Progress

variable {p : Progress} {event : WalkEvent}

theorem addEvent_of_none (stamps : Nat → Stamp) (p : Progress) (h : medium? event = none) :
    ∃ log, p.addEvent stamps event = (.ok (), { p with log }) := by
  have hasset := asset_examine (stamps p.unused) event
  rw [h, Option.map_none] at hasset
  refine ⟨p.log ++ (examine (stamps p.unused).time (stamps p.unused).unique.toNat event).log, ?_⟩
  simp only [addEvent, hasset]

theorem addEvent_of_some (stamps : Nat → Stamp) (p : Progress) {medium : Medium} (h : medium? event = some medium) :
    ∃ log, p.addEvent stamps event =
      { p with unused := p.unused + 1, log }.addAsset (medium.asset (stamps p.unused)) := by
  have hasset := asset_examine (stamps p.unused) event
  rw [h, Option.map_some] at hasset
  refine ⟨p.log ++ (examine (stamps p.unused).time (stamps p.unused).unique.toNat event).log, ?_⟩
  simp only [addEvent, hasset]

theorem addAsset_of_found {asset found : Asset}
    (h : p.connection.getByChecksum asset.checksum = .ok (some found)) :
    p.addAsset asset = (.ok (), { p with duplicates := p.duplicates + 1 }) := by
  rw [addAsset, h]

theorem addAsset_of_new {asset : Asset} (h : p.connection.getByChecksum asset.checksum = .ok none)
    (hput : (p.connection.put asset).1 = .ok ()) :
    p.addAsset asset = (.ok (), { p with
      connection := if (p.imported + 1) % commitInterval = 0 then (p.connection.put asset).2.commit
        else (p.connection.put asset).2
      imported := p.imported + 1 }) := by
  rw [addAsset, h]
  generalize p.connection.put asset = result at hput
  obtain ⟨outcome, c⟩ := result
  obtain rfl : outcome = .ok () := hput
  rfl

theorem working_commitIf (b : Prop) [Decidable b] (c : Connection) :
    (if b then c.commit else c).working = c.working := by
  split_ifs <;> rfl

theorem unused_addAsset (asset : Asset) : (p.addAsset asset).2.unused = p.unused := by
  rw [addAsset]
  split
  · rfl
  · rfl
  · split <;> rfl

theorem satisfies_addAsset_of_put {q : Tables → Prop} {asset : Asset} (h : p.connection.Satisfies q)
    (hasset : ∀ {t t' : Tables} {row : AssetRow}, q t → AssetRow.ofAsset? asset = some row →
      t.put row asset.tags = .ok t' → q t') : (p.addAsset asset).2.connection.Satisfies q := by
  have hput : (p.connection.put asset).2.Satisfies q := h.put hasset
  rw [addAsset]
  split
  · exact h
  · exact h
  · split
    · rename_i heq
      rw [heq] at hput
      exact hput
    · rename_i heq
      rw [heq] at hput
      dsimp only
      split_ifs
      · exact hput.commit
      · exact hput

theorem satisfies_addAsset {asset : Asset} (h : p.connection.Satisfies (FromStamps stamps used))
    (hasset : Stamped stamps used asset) : (p.addAsset asset).2.connection.Satisfies (FromStamps stamps used) :=
  satisfies_addAsset_of_put h fun ht hrow hput => ht.put hasset hrow hput

theorem satisfies_addEvent (h : p.connection.Satisfies (FromStamps stamps p.unused)) (event : WalkEvent) :
    (p.addEvent stamps event).2.connection.Satisfies (FromStamps stamps (p.addEvent stamps event).2.unused) := by
  cases hmedium : medium? event with
  | none =>
      obtain ⟨log, hevent⟩ := addEvent_of_none stamps p hmedium
      rw [hevent]
      exact h
  | some medium =>
      obtain ⟨log, hevent⟩ := addEvent_of_some stamps p hmedium
      rw [hevent, unused_addAsset]
      have hmore := h.mono fun t (ht : FromStamps stamps p.unused t) => ht.mono (Nat.le_succ p.unused)
      exact satisfies_addAsset hmore (stamped_asset medium p.unused)

theorem satisfies_addEvents (h : p.connection.Satisfies (FromStamps stamps p.unused)) (events : List WalkEvent) :
    (p.addEvents stamps events).2.connection.Satisfies (FromStamps stamps (p.addEvents stamps events).2.unused) := by
  induction events generalizing p with
  | nil => exact h
  | cons event events ih =>
      have hevent := satisfies_addEvent h event
      rw [addEvents]
      split
      · rename_i p' heq
        rw [heq] at hevent
        exact ih hevent
      · rename_i error p' heq
        rw [heq] at hevent
        exact hevent

end Progress

/-- The progress of an import that has not met any file. -/
def Progress.start (c : Connection) (unused : Nat) (root : FilePath) : Progress :=
  ⟨c, unused, 0, 0, [LogEntry.info ("Importing from " ++ root.written ++ "...")]⟩

theorem satisfies_importTree {c : Connection} {unused : Nat} (h : c.Satisfies (FromStamps stamps unused))
    (tree : FileTree) (root : FilePath) (skip : List FilePath) :
    (importTree tree stamps root skip c unused).2.connection.Satisfies
      (FromStamps stamps (importTree tree stamps root skip c unused).2.unused) := by
  have hevents := Progress.satisfies_addEvents (p := Progress.start c unused root) h (tree.walk root skip)
  rw [Progress.start] at hevents
  rw [importTree]
  dsimp only
  split
  · rename_i heq
    rw [heq] at hevents
    exact hevents
  · rename_i heq
    rw [heq] at hevents
    exact hevents.commit

end Intake

end MediaCatalog
