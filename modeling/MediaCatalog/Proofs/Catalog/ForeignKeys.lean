import MediaCatalog.Proofs.Catalog.Integrity
import MediaCatalog.Proofs.Catalog.Transactions

/-!
The writes as the statements that they consist of, on a connection that enforces foreign keys or does not. A row of tags
refers to an asset. Where this is enforced, a row that refers to none is refused, and the rows of an asset are deleted
with it; but the statements come in an order in which it makes no difference.
-/

namespace MediaCatalog.Catalog

inductive Statement where
  | upsertAsset (row : AssetRow)
  | deleteTags (key : String)
  /-- Puts a row of tags in, unless it is there. -/
  | insertTag (row : TagRow)
  | deleteAsset (key : String)

/-- Why a statement is refused. -/
inductive Violation where
  | checksumTaken
  | noAsset
deriving DecidableEq

namespace Statement

def run (enforced : Bool) (t : Tables) : Statement → Except Violation Tables
  | upsertAsset row =>
    if t.checksumTaken row then .error .checksumTaken
    else .ok { t with assets := Tables.upsert row t.assets }
  | deleteTags key => .ok { t with tags := Tables.dropTags key t.tags }
  | insertTag row =>
    if enforced ∧ row ∉ t.tags ∧ t.row? row.assetKey = none then .error .noAsset
    else .ok { t with tags := Tables.insertTag row t.tags }
  | deleteAsset key =>
    .ok {
      assets := t.assets.filter fun row => row.key ≠ key
      tags := if enforced then Tables.dropTags key t.tags else t.tags }

/-- Runs statements up to the first that is refused, and leaves what those before it have done. -/
def runAll (enforced : Bool) : List Statement → Tables → Except Violation Unit × Tables
  | [], t => (.ok (), t)
  | statement :: rest, t =>
    match statement.run enforced t with
    | .ok t => runAll enforced rest t
    | .error violation => (.error violation, t)

/-- The statements that put a row with its tags in place of those of its key. -/
def ofPut (row : AssetRow) (tags : List String) : List Statement :=
  .upsertAsset row :: .deleteTags row.key :: tags.map fun tag => .insertTag ⟨row.key, tag⟩

def ofDelete (key : String) : List Statement :=
  [.deleteTags key, .deleteAsset key]

variable {t : Tables} {row : AssetRow}

theorem runAll_insertTags (enforced : Bool) (tags : List String) (hrow : t.row? row.key ≠ none) :
    runAll enforced (tags.map fun tag => .insertTag ⟨row.key, tag⟩) t =
      (.ok (), { t with tags := tags.foldl (fun rows tag => Tables.insertTag ⟨row.key, tag⟩ rows) t.tags }) := by
  induction tags generalizing t with
  | nil => rfl
  | cons tag tags ih =>
      rw [List.map_cons, runAll, run, if_neg fun h => hrow h.2.2]
      exact ih hrow

/-- The statements of a put can be refused at the first one only. -/
theorem runAll_ofPut (enforced : Bool) (h : Ascending t.assets) (row : AssetRow) (tags : List String) :
    runAll enforced (ofPut row tags) t =
      match t.put row tags with
      | .ok t' => (.ok (), t')
      | .error _ => (.error .checksumTaken, t) := by
  rw [ofPut, runAll, run, Tables.put]
  split_ifs with htaken
  · rfl
  · have hrow : Tables.row? ⟨Tables.upsert row t.assets, Tables.dropTags row.key t.tags⟩ row.key ≠ none := by
      rw [Tables.row?, Tables.find_upsert_self row h]
      exact Option.some_ne_none _
    exact runAll_insertTags enforced tags hrow

theorem runAll_ofDelete (enforced : Bool) (t : Tables) (key : String) :
    runAll enforced (ofDelete key) t = (.ok (), t.delete key) := by
  have htwice : Tables.dropTags key (Tables.dropTags key t.tags) = Tables.dropTags key t.tags :=
    List.filter_eq_self.mpr fun row hrow => (List.mem_filter.mp hrow).2
  cases enforced with
  | false => rfl
  | true =>
      change (Except.ok (), Tables.mk _ (Tables.dropTags key (Tables.dropTags key t.tags))) = _
      rw [htwice]
      rfl

end Statement

namespace Connection

/-- Puts an asset in statement by statement, and tells whether none was refused. -/
def putBy (enforced : Bool) (asset : Asset) (c : Connection) : Bool × Connection :=
  match AssetRow.ofAsset? asset, c.working.tables with
  | none, _ | _, none => (false, c)
  | some row, some t =>
    if fitsInteger asset.byteLength then
      let (outcome, t) := Statement.runAll enforced (Statement.ofPut row asset.tags) t
      (outcome.isOk, c.prepareStore.withTables t)
    else (false, c.prepareStore.beginWrite)

def storeBy (enforced : Bool) : List Asset → Connection → Bool × Connection
  | [], c => (true, c)
  | asset :: rest, c =>
    match c.putBy enforced asset with
    | (true, c) => storeBy enforced rest c
    | (false, c) => (false, c)

def deleteBy (enforced : Bool) (key : String) (c : Connection) : Connection :=
  match c.working.tables with
  | none => c
  | some t => c.withTables (Statement.runAll enforced (Statement.ofDelete key) t).2

variable {c : Connection}

theorem withTables_self {t : Tables} (ht : c.working.tables = some t) : c.withTables t = c.beginWrite := by
  rw [withTables, ← ht]
  rfl

theorem putBy_eq (enforced : Bool) (hc : c.Sound) (asset : Asset) :
    c.putBy enforced asset = ((c.put asset).1.isOk, (c.put asset).2) := by
  rw [putBy, Connection.put]
  cases AssetRow.ofAsset? asset with
  | none => rfl
  | some row =>
      cases ht : c.working.tables with
      | none =>
          dsimp only
          split_ifs <;> rfl
      | some t =>
          dsimp only
          rw [Statement.runAll_ofPut enforced (hc.working t ht).ascending]
          cases fitsInteger asset.byteLength with
          | false => rfl
          | true =>
              cases t.put row asset.tags with
              | ok t' => rfl
              | error fault => exact congrArg (Prod.mk false) (withTables_self (c := c.prepareStore) ht)

theorem storeBy_eq (enforced : Bool) (hc : Reachable c) (assets : List Asset) :
    c.storeBy enforced assets = ((c.store assets).1.isOk, (c.store assets).2) := by
  induction assets generalizing c with
  | nil => rfl
  | cons asset rest ih =>
      have hnext : Reachable (c.put asset).2 := hc.perform (.put asset)
      rw [storeBy, putBy_eq enforced hc.sound, Connection.store]
      obtain ⟨outcome, c', hput⟩ : ∃ outcome c', c.put asset = (outcome, c') := ⟨_, _, rfl⟩
      rw [hput] at hnext ⊢
      cases outcome with
      | error error => rfl
      | ok done => exact ih hnext

theorem deleteBy_eq (enforced : Bool) (key : String) : c.deleteBy enforced key = (c.delete key).2 := by
  rw [deleteBy, Connection.delete]
  cases c.working.tables with
  | none => rfl
  | some t =>
      dsimp only
      rw [Statement.runAll_ofDelete]

end Connection

/-- A step, with its writes by statements. -/
def Step.performBy (enforced : Bool) : Step → Connection → Connection
  | .write (.put asset), c => (c.putBy enforced asset).2
  | .write (.store assets), c => (c.storeBy enforced assets).2
  | .write (.delete key), c => c.deleteBy enforced key
  | .initSchema, c => c.initSchema
  | .commit, c => c.commit
  | .rollback, c => c.rollback
  | .reopen, c => c.reopen

theorem Step.performBy_eq (enforced : Bool) (step : Step) {c : Connection} (hc : Reachable c) :
    step.performBy enforced c = (step.perform c).2 := by
  cases step with
  | write w =>
      cases w with
      | put asset => exact congrArg Prod.snd (Connection.putBy_eq enforced hc.sound asset)
      | store assets => exact congrArg Prod.snd (Connection.storeBy_eq enforced hc assets)
      | delete key => exact Connection.deleteBy_eq enforced key
  | initSchema | commit | rollback | reopen => rfl

namespace Connection

/-- The catalog after some steps, of which each tells whether foreign keys are enforced at the time. -/
def performHistory (c : Connection) (history : List (Bool × Step)) : Connection :=
  history.foldl (fun c entry => entry.2.performBy entry.1 c) c

/-- Whether foreign keys are enforced makes no difference. -/
theorem performHistory_eq {c : Connection} (hc : Reachable c) (history : List (Bool × Step)) :
    c.performHistory history = c.performSteps (history.map Prod.snd) := by
  induction history generalizing c with
  | nil => rfl
  | cons entry rest ih =>
      change performHistory (entry.2.performBy entry.1 c) rest = _
      rw [entry.2.performBy_eq entry.1 hc]
      exact ih (hc.perform entry.2.operation)

end Connection

theorem Reachable.performSteps {c : Connection} (hc : Reachable c) (steps : List Step) :
    Reachable (c.performSteps steps) := by
  induction steps generalizing c with
  | nil => exact hc
  | cons step rest ih => exact ih (hc.perform step.operation)

namespace AssetRow

/-- Whether every part of its place that a row has is filled. -/
def PartsFilled (row : AssetRow) : Prop :=
  ∀ part ∈ [row.label, row.city, row.region], part ≠ some ""

theorem partsFilled_of_ofAsset {asset : Asset} {row : AssetRow} (h : ofAsset? asset = some row) :
    row.PartsFilled := by
  obtain ⟨_, _, _, _, _, _, rfl⟩ := ofAsset_eq_some_iff.mp h
  simp only [PartsFilled, List.forall_mem_cons]
  exact ⟨nonempty_ne_empty _, nonempty_ne_empty _, nonempty_ne_empty _, by simp⟩

end AssetRow

namespace Tables

variable {t : Tables}

theorem invariant_partsFilled : Invariant fun t => ∀ row ∈ t.assets, row.PartsFilled where
  empty row hrow := absurd hrow List.not_mem_nil
  put h hnew hput row hrow := by
    obtain ⟨_, hassets, _⟩ := put_eq_ok_iff.mp hput
    have hfilled := AssetRow.partsFilled_of_ofAsset hnew
    rw [hassets] at hrow
    rcases mem_upsert hrow with rfl | hold | ⟨old, _, _, rfl⟩
    · exact hfilled
    · exact h row hold
    · exact hfilled
  delete key h row hrow := h row (List.mem_filter.mp hrow).1

/-- What the constraints of the tables demand, and what no constraint says: that nothing empty is stored, and that
every row can be read. -/
structure WellKept (t : Tables) : Prop where
  owned : ∀ tag ∈ t.tags, ∃ row ∈ t.assets, row.key = tag.assetKey
  pairs : t.tags.Nodup
  keys : (t.assets.map AssetRow.key).Nodup
  checksums : (t.assets.filterMap AssetRow.checksum).Nodup
  filled : ∀ row ∈ t.assets, row.checksum ≠ some ""
  parts : ∀ row ∈ t.assets, row.PartsFilled
  dates : ∀ row ∈ t.assets, row.DatesStored
  readable : ∀ row ∈ t.assets, ∃ asset, assetOf row (t.tagsOf row.key) = .ok asset

theorem Intact.wellKept (h : t.Intact) (hparts : ∀ row ∈ t.assets, row.PartsFilled) : t.WellKept := by
  refine ⟨h.owned, ?_, ?_, ?_, h.filled, hparts, h.dates, ?_⟩
  · refine h.tags.imp ?_
    rintro tag _ hbefore rfl
    rcases hbefore with hlt | ⟨_, hlt⟩ <;> exact String.lt_irrefl _ hlt
  · exact List.pairwise_map.mpr (h.ascending.imp ne_of_lt)
  · refine List.pairwise_filterMap.mpr (h.ascending.imp_of_mem ?_)
    intro row later hrow hlater hlt checksum hchecksum checksum' hchecksum' hsame
    refine ne_of_gt hlt (h.distinct row hrow later hlater (Option.isSome_iff_exists.mpr ⟨checksum, hchecksum⟩) ?_)
    rw [hchecksum, hchecksum', hsame]
  · intro row hrow
    obtain ⟨asset, hasset⟩ := AssetRow.exists_toAsset (h.dates row hrow) (t.tagsOf row.key)
    exact ⟨asset, assetOf_eq_ok_iff.mpr hasset⟩

theorem Sound.exists_getByChecksum (h : t.Sound) (checksum : String) :
    ∃ found, t.getByChecksum checksum = .ok found := by
  rw [Tables.getByChecksum]
  cases hfind : t.assets.find? fun row => row.checksum = some checksum with
  | none => exact ⟨none, rfl⟩
  | some row =>
      obtain ⟨asset, hasset⟩ :=
        AssetRow.exists_toAsset (h.dates row (List.mem_of_find?_eq_some hfind)) (t.tagsOf row.key)
      refine ⟨some asset, ?_⟩
      change (assetOf row (t.tagsOf row.key)).map some = _
      rw [assetOf_eq_ok_iff.mpr hasset]
      rfl

theorem Sound.exists_page (h : t.Sound) (cursor : Option String) (limit : Int) :
    ∃ page, t.page cursor limit = .ok page := by
  have hdates : ∀ row ∈ takeLimit limit (t.rowsAfter cursor), row.DatesStored :=
    fun row hrow => h.dates row (List.mem_filter.mp (mem_of_mem_takeLimit hrow)).1
  obtain ⟨assets, hassets⟩ := t.exists_lists hdates
  exact ⟨_, page_of_lists h.ascending hassets⟩

end Tables

/-- Whether no reading of a catalog fails. -/
structure Connection.Readable (c : Connection) : Prop where
  get : ∀ key, ∃ found, c.get key = .ok found
  getByChecksum : ∀ checksum, ∃ found, c.getByChecksum checksum = .ok found
  fetch : ∀ cursor limit, Connection.fitsInteger limit → ∃ page, c.fetch cursor limit = .ok page

theorem Tables.Sound.readable {t : Tables} (h : t.Sound) {c : Connection} (ht : c.working.tables = some t) :
    c.Readable := by
  constructor
  · exact fun key => ⟨_, Connection.get_of_tables ht h key⟩
  · intro checksum
    rw [Connection.getByChecksum, Connection.tablesFor, ht]
    exact h.exists_getByChecksum checksum
  · intro cursor limit hlimit
    rw [Connection.fetch, ht]
    simp only [hlimit, if_true]
    exact h.exists_page cursor limit

/-- Whatever is done with a new catalog, and whether or not foreign keys are enforced meanwhile, what is committed and
what is not is well kept, and no reading fails. -/
theorem wellKept_performHistory (history : List (Bool × Step)) :
    (Connection.new.performHistory history).Satisfies Tables.WellKept ∧
      (Connection.new.performHistory history).Readable := by
  rw [Connection.performHistory_eq Reachable.new]
  generalize history.map Prod.snd = steps
  have hc : Reachable (Connection.new.performSteps steps) := Reachable.new.performSteps steps
  have hintact := hc.satisfies Tables.invariant_intact
  have hparts := hc.satisfies Tables.invariant_partsFilled
  obtain ⟨t, ht⟩ := Connection.exists_tables_performAll (Ledger.ofSteps steps).writes
  rw [← (Ledger.matches_ofSteps steps).working] at ht
  refine ⟨⟨?_, ?_⟩, (hintact.working t ht).toSound.readable ht⟩
  · exact fun t ht => (hintact.committed t ht).wellKept (hparts.committed t ht)
  · exact fun t ht => (hintact.working t ht).wellKept (hparts.working t ht)

end MediaCatalog.Catalog
