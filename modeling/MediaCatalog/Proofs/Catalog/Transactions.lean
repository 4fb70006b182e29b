import MediaCatalog.Proofs.Catalog.Refinement
import Mathlib.Data.List.DropRight

/-!
Transactions of the catalog. Nothing that is written is committed by the write itself: a rollback, or opening the
catalog again, leads back to where the last step that commits has left it, and what was written before that step stays.
-/

namespace MediaCatalog.Catalog

/-- The steps of a history: writes, and what is done with the transaction that they belong to. -/
inductive Step where
  | write (w : Write)
  | initSchema
  | commit
  | rollback
  | reopen

namespace Step

def operation : Step → Operation
  | .write w => w.operation
  | .initSchema => .initSchema
  | .commit => .commit
  | .rollback => .rollback
  | .reopen => .reopen

def perform (step : Step) (c : Connection) : Except CatalogError Unit × Connection :=
  step.operation.perform c

/-- Whether all that was written is committed behind a step, or lost. -/
def settles : Step → Bool
  | .initSchema | .commit | .reopen => true
  | .write _ | .rollback => false

end Step

/-- The catalog after some steps, whether they succeed or fail. -/
def Connection.performSteps (c : Connection) (steps : List Step) : Connection :=
  steps.foldl (fun c step => (step.perform c).2) c

/-- The steps up to the last one that settles what was written. -/
def settledSteps (steps : List Step) : List Step :=
  steps.rdropWhile fun step => !step.settles

/-- The writes that were committed, and those that were not yet. -/
structure Ledger where
  committed : List Write
  pending : List Write

namespace Ledger

def empty : Ledger :=
  ⟨[], []⟩

def writes (ledger : Ledger) : List Write :=
  ledger.committed ++ ledger.pending

def enter (ledger : Ledger) : Step → Ledger
  | .write w => { ledger with pending := ledger.pending ++ [w] }
  | .initSchema | .commit => ⟨ledger.writes, []⟩
  | .rollback | .reopen => { ledger with pending := [] }

def ofSteps (steps : List Step) : Ledger :=
  steps.foldl enter empty

end Ledger

/-- Two catalogs from which the same is read. -/
structure AnswerAlike (c c' : Connection) : Prop where
  get : ∀ key, c.get key = c'.get key
  getByChecksum : ∀ checksum, c.getByChecksum checksum = c'.getByChecksum checksum
  count : c.count = c'.count
  fetch : ∀ cursor limit, c.fetch cursor limit = c'.fetch cursor limit
  tagCounts : c.tagCounts = c'.tagCounts
  placeCounts : c.placeCounts = c'.placeCounts
  yearCounts : c.yearCounts = c'.yearCounts
  mediaTypeCounts : c.mediaTypeCounts = c'.mediaTypeCounts

namespace Connection

variable {c c' : Connection}

theorem answerAlike_of_tables (h : c.working.tables = c'.working.tables) : AnswerAlike c c' := by
  have htables : c.tablesFor = c'.tablesFor := by
    funext name
    rw [tablesFor, tablesFor, h]
  constructor
  · intro key
    rw [Connection.get, Connection.get, htables]
  · intro checksum
    rw [Connection.getByChecksum, Connection.getByChecksum, htables]
  · rw [Connection.count, Connection.count, htables]
  · intro cursor limit
    rw [Connection.fetch, Connection.fetch, h]
  · rw [Connection.tagCounts, Connection.tagCounts, htables]
  · rw [Connection.placeCounts, Connection.placeCounts, htables]
  · rw [Connection.yearCounts, Connection.yearCounts, htables]
  · rw [Connection.mediaTypeCounts, Connection.mediaTypeCounts, htables]

/-- What a write leaves as it is: what is committed, and the schema versions. -/
structure Unsettled (c c' : Connection) : Prop where
  committed : c'.committed = c.committed
  versions : c'.working.versions = c.working.versions

theorem Unsettled.refl (c : Connection) : Unsettled c c :=
  ⟨rfl, rfl⟩

theorem unsettled_put (asset : Asset) (c : Connection) : Unsettled c (c.put asset).2 := by
  rw [Connection.put]
  split
  · exact .refl c
  · split
    · split_ifs <;> exact .refl c
    · dsimp only
      split_ifs
      · exact ⟨rfl, rfl⟩
      · split <;> exact ⟨rfl, rfl⟩

theorem unsettled_perform (w : Write) (c : Connection) : Unsettled c (w.perform c).2 := by
  cases w with
  | put asset => exact unsettled_put asset c
  | store assets =>
      refine store_preserves (p := Unsettled c) ?_ (.refl c) assets
      intro c' asset h
      have hput := unsettled_put asset c'
      exact ⟨hput.committed.trans h.committed, hput.versions.trans h.versions⟩
  | delete key =>
      change Unsettled c (c.delete key).2
      rw [Connection.delete]
      split <;> exact ⟨rfl, rfl⟩

theorem put_congr (h : c.working.tables = c'.working.tables) (asset : Asset) :
    (c.put asset).1.isOk = (c'.put asset).1.isOk ∧
      (c.put asset).2.working.tables = (c'.put asset).2.working.tables := by
  cases htables : c.working.tables with
  | some t =>
      obtain ⟨hok, hput⟩ := put_of_tables htables asset
      obtain ⟨hok', hput'⟩ := put_of_tables (h.symm.trans htables) asset
      exact ⟨hok.trans hok'.symm, hput.trans hput'.symm⟩
  | none =>
      have hfails : ∀ {c : Connection}, c.working.tables = none →
          (c.put asset).1.isOk = false ∧ (c.put asset).2 = c := by
        intro c hnone
        rw [Connection.put]
        cases AssetRow.ofAsset? asset with
        | none => exact ⟨rfl, rfl⟩
        | some row =>
            simp only [hnone]
            split_ifs <;> exact ⟨rfl, rfl⟩
      have hnone' := h.symm.trans htables
      rw [(hfails htables).1, (hfails htables).2, (hfails hnone').1, (hfails hnone').2]
      exact ⟨rfl, h⟩

theorem store_congr (h : c.working.tables = c'.working.tables) (assets : List Asset) :
    (c.store assets).2.working.tables = (c'.store assets).2.working.tables := by
  induction assets generalizing c c' with
  | nil => exact h
  | cons asset rest ih =>
      obtain ⟨hok, htables⟩ := put_congr h asset
      rw [Connection.store, Connection.store]
      generalize c.put asset = result, c'.put asset = result' at hok htables
      obtain ⟨_ | _, _⟩ := result <;> obtain ⟨_ | _, _⟩ := result'
      · exact htables
      · cases hok
      · cases hok
      · exact ih htables

theorem perform_congr (h : c.working.tables = c'.working.tables) (w : Write) :
    (w.perform c).2.working.tables = (w.perform c').2.working.tables := by
  cases w with
  | put asset => exact (put_congr h asset).2
  | store assets => exact store_congr h assets
  | delete key =>
      change (c.delete key).2.working.tables = (c'.delete key).2.working.tables
      rw [Connection.delete, Connection.delete, ← h]
      cases htables : c.working.tables with
      | none => exact h
      | some t => rfl

theorem performAll_concat (c : Connection) (writes : List Write) (w : Write) :
    c.performAll (writes ++ [w]) = (w.perform (c.performAll writes)).2 :=
  List.foldl_concat _ _ _ _

theorem exists_tables_performAll (writes : List Write) : ∃ t, (new.performAll writes).working.tables = some t := by
  obtain ⟨t, ht, _⟩ := represents_new.performAll writes
  exact ⟨t, ht⟩

end Connection

theorem Contents.withSchema_eq_self {contents : Contents} {t : Tables} (hversions : contents.versions ≠ [])
    (htables : contents.tables = some t) : contents.withSchema = contents := by
  rw [withSchema, if_neg (by simpa using hversions), htables]
  cases contents
  subst htables
  rfl

/-- Whether a catalog and what is committed of it are those that the writes of a ledger lead to. -/
structure Ledger.Matches (ledger : Ledger) (c : Connection) : Prop where
  working : c.working.tables = (Connection.new.performAll ledger.writes).working.tables
  committed : c.committed.tables = (Connection.new.performAll ledger.committed).working.tables
  workingVersions : c.working.versions = [Contents.schemaVersion]
  committedVersions : c.committed.versions = [Contents.schemaVersion]

namespace Ledger

variable {ledger : Ledger} {c : Connection}

theorem matches_empty : empty.Matches Connection.new :=
  ⟨rfl, rfl, rfl, rfl⟩

theorem Matches.withSchema_working (h : ledger.Matches c) : c.working.withSchema = c.working := by
  obtain ⟨t, ht⟩ := Connection.exists_tables_performAll ledger.writes
  exact Contents.withSchema_eq_self (h.workingVersions ▸ List.cons_ne_nil _ _) (h.working.trans ht)

theorem Matches.withSchema_committed (h : ledger.Matches c) : c.committed.withSchema = c.committed := by
  obtain ⟨t, ht⟩ := Connection.exists_tables_performAll ledger.committed
  exact Contents.withSchema_eq_self (h.committedVersions ▸ List.cons_ne_nil _ _) (h.committed.trans ht)

theorem Matches.initSchema_eq (h : ledger.Matches c) : c.initSchema = c.commit := by
  rw [Connection.initSchema, h.withSchema_working]

theorem Matches.reopen_eq (h : ledger.Matches c) :
    c.reopen = ⟨c.committed, c.committed, false, false⟩ := by
  rw [Connection.reopen, Connection.connect, Connection.initSchema, h.withSchema_committed]
  rfl

theorem Matches.commit (h : ledger.Matches c) : Matches ⟨ledger.writes, []⟩ c.commit := by
  have hwrites : writes ⟨ledger.writes, []⟩ = ledger.writes := List.append_nil _
  refine ⟨?_, h.working, h.workingVersions, h.workingVersions⟩
  rw [hwrites]
  exact h.working

theorem Matches.rollback (h : ledger.Matches c) : Matches { ledger with pending := [] } c.rollback := by
  have hwrites : writes { ledger with pending := [] } = ledger.committed := List.append_nil _
  refine ⟨?_, h.committed, h.committedVersions, h.committedVersions⟩
  rw [hwrites]
  exact h.committed

theorem Matches.write (h : ledger.Matches c) (w : Write) :
    Matches { ledger with pending := ledger.pending ++ [w] } (w.perform c).2 := by
  have hwrites : writes { ledger with pending := ledger.pending ++ [w] } = ledger.writes ++ [w] :=
    (List.append_assoc _ _ _).symm
  have hunsettled := Connection.unsettled_perform w c
  refine ⟨?_, ?_, ?_, ?_⟩
  · rw [hwrites, Connection.performAll_concat]
    exact Connection.perform_congr h.working w
  · rw [hunsettled.committed]
    exact h.committed
  · rw [hunsettled.versions]
    exact h.workingVersions
  · rw [hunsettled.committed]
    exact h.committedVersions

theorem Matches.enter (h : ledger.Matches c) (step : Step) : (ledger.enter step).Matches (step.perform c).2 := by
  cases step with
  | write w => exact h.write w
  | initSchema =>
      change Matches _ c.initSchema
      rw [h.initSchema_eq]
      exact h.commit
  | commit => exact h.commit
  | rollback => exact h.rollback
  | reopen =>
      change Matches _ c.reopen
      rw [h.reopen_eq]
      exact ⟨h.rollback.working, h.rollback.committed, h.committedVersions, h.committedVersions⟩

theorem Matches.foldl_enter (h : ledger.Matches c) (steps : List Step) :
    (steps.foldl Ledger.enter ledger).Matches (c.performSteps steps) := by
  induction steps generalizing ledger c with
  | nil => exact h
  | cons step rest ih => exact ih (h.enter step)

theorem matches_ofSteps (steps : List Step) : (ofSteps steps).Matches (Connection.new.performSteps steps) :=
  matches_empty.foldl_enter steps

theorem ofSteps_concat (steps : List Step) (step : Step) :
    ofSteps (steps ++ [step]) = (ofSteps steps).enter step :=
  List.foldl_concat _ _ _ _

/-- What was committed is what was written up to the last step that settles. -/
theorem ofSteps_settledSteps (steps : List Step) :
    ofSteps (settledSteps steps) = { ofSteps steps with pending := [] } := by
  induction steps using List.reverseRecOn with
  | nil => rfl
  | append_singleton steps step ih =>
      rw [settledSteps, List.rdropWhile_concat, ofSteps_concat]
      cases step with
      | write w => exact ih
      | rollback => exact ih
      | initSchema => exact ofSteps_concat steps .initSchema
      | commit => exact ofSteps_concat steps .commit
      | reopen => exact ofSteps_concat steps .reopen

end Ledger

/-- How the steps of a history act on its transactions. -/
structure Transacts (steps : List Step) : Prop where
  /-- No write commits. -/
  write : ∀ w : Write, (w.perform (Connection.new.performSteps steps)).2.committed =
    (Connection.new.performSteps steps).committed
  rollback : AnswerAlike (Connection.new.performSteps steps).rollback (Connection.new.performSteps (settledSteps steps))
  reopen : AnswerAlike (Connection.new.performSteps steps).reopen (Connection.new.performSteps (settledSteps steps))
  commit : AnswerAlike (Connection.new.performSteps steps).commit (Connection.new.performSteps steps)
  initSchema : AnswerAlike (Connection.new.performSteps steps).initSchema (Connection.new.performSteps steps)
  /-- The catalog is as if nothing had been written but what was not undone. -/
  writes : AnswerAlike (Connection.new.performSteps steps) (Connection.new.performAll (Ledger.ofSteps steps).writes)
  kept : AnswerAlike (Connection.new.performSteps (settledSteps steps))
    (Connection.new.performAll (Ledger.ofSteps steps).committed)
  versions : (Connection.new.performSteps steps).working.versions = [1] ∧
    (Connection.new.performSteps steps).committed.versions = [1]

theorem transacts_performSteps (steps : List Step) : Transacts steps := by
  have h := Ledger.matches_ofSteps steps
  have hsettled := Ledger.matches_ofSteps (settledSteps steps)
  rw [Ledger.ofSteps_settledSteps] at hsettled
  have hrollback : (Connection.new.performSteps steps).committed.tables =
      (Connection.new.performSteps (settledSteps steps)).working.tables :=
    h.rollback.working.trans hsettled.working.symm
  constructor
  · intro w
    exact (Connection.unsettled_perform w _).committed
  · exact Connection.answerAlike_of_tables hrollback
  · rw [h.reopen_eq]
    exact Connection.answerAlike_of_tables hrollback
  · exact Connection.answerAlike_of_tables rfl
  · rw [h.initSchema_eq]
    exact Connection.answerAlike_of_tables rfl
  · exact Connection.answerAlike_of_tables h.working
  · exact Connection.answerAlike_of_tables (hrollback.symm.trans h.committed)
  · exact ⟨h.workingVersions, h.committedVersions⟩

end MediaCatalog.Catalog
