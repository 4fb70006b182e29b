import MediaCatalog.Catalog.Connection
import MediaCatalog.Proofs.Catalog.Rows
import Mathlib.Data.String.Basic

/-!
The catalogs that can come about, and what holds in all of them: the rows stand in the strict order of their
keys, and every stored date can be read.
-/

namespace MediaCatalog.Catalog

/-- What can be done with a catalog besides reading it. -/
inductive Operation where
  | put (asset : Asset)
  | store (assets : List Asset)
  | delete (key : String)
  | dropTables
  | initSchema
  | commit
  | rollback
  | reopen

/-- What an operation answers, and the catalog after it. -/
def Operation.perform : Operation → Connection → Except CatalogError Unit × Connection
  | put asset, c => c.put asset
  | store assets, c => c.store assets
  | delete key, c => c.delete key
  | dropTables, c => c.dropTables
  | initSchema, c => (.ok (), c.initSchema)
  | commit, c => (.ok (), c.commit)
  | rollback, c => (.ok (), c.rollback)
  | reopen, c => (.ok (), c.reopen)

/-- The catalogs that come about from a new one, whether the operations succeed or fail. -/
inductive Reachable : Connection → Prop where
  | new : Reachable Connection.new
  | perform {c : Connection} (operation : Operation) (h : Reachable c) :
      Reachable (operation.perform c).2

/-- Whether rows stand in the strict order of their keys. -/
def Ascending (rows : List AssetRow) : Prop :=
  rows.Pairwise fun first second => first.key < second.key

namespace Tables

theorem mem_upsert {new row : AssetRow} {rows : List AssetRow} (h : row ∈ upsert new rows) :
    row = new ∨ row ∈ rows ∨ ∃ old ∈ rows, old.key = new.key ∧
      row = { new with importDate := old.importDate } := by
  induction rows with
  | nil => exact .inl (List.mem_singleton.mp h)
  | cons first rest ih =>
      rw [upsert] at h
      split_ifs at h with hlt heq
      · rcases List.mem_cons.mp h with rfl | h
        · exact .inl rfl
        · exact .inr (.inl h)
      · rcases List.mem_cons.mp h with rfl | h
        · exact .inr (.inr ⟨first, List.mem_cons_self, heq.symm, rfl⟩)
        · exact .inr (.inl (List.mem_cons_of_mem first h))
      · rcases List.mem_cons.mp h with rfl | h
        · exact .inr (.inl List.mem_cons_self)
        · rcases ih h with rfl | h | ⟨old, hold, h⟩
          · exact .inl rfl
          · exact .inr (.inl (List.mem_cons_of_mem first h))
          · exact .inr (.inr ⟨old, List.mem_cons_of_mem first hold, h⟩)

theorem key_of_mem_upsert {new row : AssetRow} {rows : List AssetRow} (h : row ∈ upsert new rows) :
    row.key = new.key ∨ ∃ old ∈ rows, row.key = old.key := by
  rcases mem_upsert h with rfl | h | ⟨_, _, _, rfl⟩
  · exact .inl rfl
  · exact .inr ⟨row, h, rfl⟩
  · exact .inl rfl

theorem ascending_upsert (new : AssetRow) {rows : List AssetRow} (h : Ascending rows) :
    Ascending (upsert new rows) := by
  induction rows with
  | nil => exact List.pairwise_singleton _ _
  | cons first rest ih =>
      obtain ⟨hfirst, hrest⟩ := List.pairwise_cons.mp h
      rw [upsert]
      split_ifs with hlt heq
      · refine List.pairwise_cons.mpr ⟨?_, h⟩
        intro row hrow
        rcases List.mem_cons.mp hrow with rfl | hrow
        · exact hlt
        · exact String.lt_trans hlt (hfirst row hrow)
      · refine List.pairwise_cons.mpr ⟨?_, hrest⟩
        intro row hrow
        exact heq ▸ hfirst row hrow
      · refine List.pairwise_cons.mpr ⟨?_, ih hrest⟩
        intro row hrow
        rcases key_of_mem_upsert hrow with hkey | ⟨old, hold, hkey⟩
        · rw [hkey]
          exact lt_of_le_of_ne (String.not_lt.mp hlt) (Ne.symm heq)
        · rw [hkey]
          exact hfirst old hold

/-- What holds of the tables of every reachable catalog. -/
structure Sound (t : Tables) : Prop where
  ascending : Ascending t.assets
  dates : ∀ row ∈ t.assets, row.DatesStored

theorem sound_empty : Tables.empty.Sound :=
  ⟨List.Pairwise.nil, fun _ hrow => absurd hrow List.not_mem_nil⟩

variable {t t' : Tables}

theorem put_eq_ok_iff {row : AssetRow} {tags : List String} :
    t.put row tags = .ok t' ↔ t.checksumTaken row = false ∧ t'.assets = upsert row t.assets ∧
      t'.tags = tags.foldl (fun rows tag => insertTag ⟨row.key, tag⟩ rows) (dropTags row.key t.tags) := by
  rw [Tables.put]
  cases t'
  split_ifs with htaken
  · simp [htaken]
  · simp [htaken, eq_comm]

theorem Sound.put {row : AssetRow} {tags : List String} (h : t.Sound) (hrow : row.DatesStored)
    (hput : t.put row tags = .ok t') : t'.Sound := by
  obtain ⟨_, hassets, _⟩ := put_eq_ok_iff.mp hput
  refine ⟨hassets ▸ ascending_upsert row h.ascending, ?_⟩
  intro other hother
  rw [hassets] at hother
  rcases mem_upsert hother with rfl | hother | ⟨old, hold, _, rfl⟩
  · exact hrow
  · exact h.dates other hother
  · exact ⟨(h.dates old hold).importDate, hrow.userDate, hrow.captureDate⟩

theorem Sound.delete (h : t.Sound) (key : String) : (t.delete key).Sound :=
  ⟨h.ascending.sublist List.filter_sublist, fun row hrow => h.dates row (List.mem_filter.mp hrow).1⟩

end Tables

/-- The properties of tables that no operation takes away. -/
structure Tables.Invariant (p : Tables → Prop) : Prop where
  empty : p Tables.empty
  put : ∀ {t t' : Tables} {asset : Asset} {row : AssetRow}, p t → AssetRow.ofAsset? asset = some row →
    t.put row asset.tags = .ok t' → p t'
  delete : ∀ {t : Tables} (key : String), p t → p (t.delete key)

/-- Whether the tables have a property, if they were made. -/
def Contents.Satisfies (p : Tables → Prop) (contents : Contents) : Prop :=
  ∀ t ∈ contents.tables, p t

theorem Contents.Satisfies.withSchema {p : Tables → Prop} {contents : Contents} (h : contents.Satisfies p)
    (hempty : p Tables.empty) : contents.withSchema.Satisfies p := by
  rintro t ⟨⟩
  cases htables : contents.tables with
  | none => exact hempty
  | some t => exact h t htables

namespace Connection

/-- Whether both the tables that are committed and those that are not have a property. -/
structure Satisfies (p : Tables → Prop) (c : Connection) : Prop where
  committed : c.committed.Satisfies p
  working : c.working.Satisfies p

variable {p : Tables → Prop} {c : Connection}

theorem Satisfies.mono {q : Tables → Prop} (h : c.Satisfies p) (hpq : ∀ t, p t → q t) : c.Satisfies q :=
  ⟨fun t ht => hpq t (h.committed t ht), fun t ht => hpq t (h.working t ht)⟩

theorem Satisfies.commit (h : c.Satisfies p) : c.commit.Satisfies p :=
  ⟨h.working, h.working⟩

theorem Satisfies.rollback (h : c.Satisfies p) : c.rollback.Satisfies p :=
  ⟨h.committed, h.committed⟩

theorem Satisfies.initSchema (h : c.Satisfies p) (hempty : p Tables.empty) : c.initSchema.Satisfies p :=
  ⟨h.working.withSchema hempty, h.working.withSchema hempty⟩

theorem satisfies_connect {file : Contents} (h : file.Satisfies p) (hempty : p Tables.empty) :
    (connect file).Satisfies p :=
  Satisfies.initSchema ⟨h, h⟩ hempty

theorem Satisfies.withTables (h : c.Satisfies p) {t : Tables} (ht : p t) : (c.withTables t).Satisfies p := by
  refine ⟨h.committed, ?_⟩
  rintro _ ⟨⟩
  exact ht

theorem Satisfies.put (h : c.Satisfies p) {asset : Asset}
    (hput : ∀ {t t' : Tables} {row : AssetRow}, p t → AssetRow.ofAsset? asset = some row →
      t.put row asset.tags = .ok t' → p t') : (c.put asset).2.Satisfies p := by
  rw [Connection.put]
  split
  · exact h
  · rename_i row hrow
    split
    · split_ifs <;> exact h
    · rename_i t ht
      have hprepared : c.prepareStore.Satisfies p := ⟨h.committed, h.working⟩
      split_ifs
      · exact ⟨h.committed, h.working⟩
      · split
        · rename_i t' hstored
          exact hprepared.withTables (hput (h.working t ht) hrow hstored)
        · exact ⟨h.committed, h.working⟩

theorem store_preserves {p : Connection → Prop} (hput : ∀ c asset, p c → p (c.put asset).2) (h : p c)
    (assets : List Asset) : p (c.store assets).2 := by
  induction assets generalizing c with
  | nil => exact h
  | cons asset rest ih =>
      have hfirst := hput c asset h
      rw [Connection.store]
      split
      · rename_i c' heq
        rw [heq] at hfirst
        exact ih hfirst
      · rename_i error c' heq
        rw [heq] at hfirst
        exact hfirst

theorem Satisfies.delete (h : c.Satisfies p) {key : String} (hdelete : ∀ {t : Tables}, p t → p (t.delete key)) :
    (c.delete key).2.Satisfies p := by
  rw [Connection.delete]
  split
  · exact h
  · rename_i t ht
    exact h.withTables (hdelete (h.working t ht))

theorem Satisfies.dropTables (h : c.Satisfies p) : c.dropTables.2.Satisfies p := by
  rw [Connection.dropTables]
  split
  · exact h
  · have hdropped : ({ c with working := { c.working with tables := none } } : Connection).Satisfies p :=
      ⟨h.committed, fun _ ht => nomatch ht⟩
    simp only
    split_ifs
    · exact hdropped
    · exact hdropped.commit

end Connection

theorem Operation.satisfies_perform {p : Tables → Prop} (hp : Tables.Invariant p) {c : Connection}
    (operation : Operation) (h : c.Satisfies p) : (operation.perform c).2.Satisfies p := by
  cases operation with
  | put asset => exact h.put hp.put
  | store assets => exact Connection.store_preserves (fun c asset h => h.put hp.put) h assets
  | delete key => exact h.delete (hp.delete key)
  | dropTables => exact h.dropTables
  | initSchema => exact h.initSchema hp.empty
  | commit => exact h.commit
  | rollback => exact h.rollback
  | reopen => exact Connection.satisfies_connect h.committed hp.empty

theorem Reachable.satisfies {p : Tables → Prop} (hp : Tables.Invariant p) {c : Connection} (h : Reachable c) :
    c.Satisfies p := by
  induction h with
  | new => exact Connection.satisfies_connect (fun _ ht => nomatch ht) hp.empty
  | perform operation _ ih => exact operation.satisfies_perform hp ih

theorem Tables.invariant_sound : Tables.Invariant Tables.Sound where
  empty := sound_empty
  put h hrow hput := h.put (AssetRow.datesStored_of_ofAsset hrow) hput
  delete key h := h.delete key

def Contents.Sound (contents : Contents) : Prop :=
  ∀ t ∈ contents.tables, t.Sound

/-- Whether both what is committed and what is not is sound. -/
structure Connection.Sound (c : Connection) : Prop where
  committed : c.committed.Sound
  working : c.working.Sound

theorem Reachable.sound {c : Connection} (h : Reachable c) : c.Sound :=
  have hsound := h.satisfies Tables.invariant_sound
  ⟨hsound.committed, hsound.working⟩

end MediaCatalog.Catalog
