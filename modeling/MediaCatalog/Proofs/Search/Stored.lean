import MediaCatalog.Proofs.Calendar.Instants
import MediaCatalog.Proofs.Catalog.Integrity
import MediaCatalog.Query.Constraint

/-!
Storing an asset changes nothing of what it is found by. The record of an asset may have its tags in another order, its
dates on another clock and no place where there was one without parts, but every constraint that accepts the one accepts
the other.
-/

namespace MediaCatalog

open Calendar Catalog Query Text

theorem Location.filter_ne_empty {part : Option String} (h : part ≠ some "") : (part.filter (· ≠ "")) = part := by
  cases part with
  | none => rfl
  | some text => exact Option.filter_some_pos (decide_eq_true fun hempty => h (congrArg some hempty))

theorem Location.recorded_of_filled {place : Location} (h : ∀ part ∈ place.parts, part ≠ some "") :
    place.recorded? = if place.hasValues then some place else none := by
  have hlabel := Location.filter_ne_empty (h place.label (by simp [parts]))
  have hcity := Location.filter_ne_empty (h place.city (by simp [parts]))
  have hregion := Location.filter_ne_empty (h place.region (by simp [parts]))
  rw [recorded?, hlabel, hcity, hregion]

theorem Location.eq_default_of_not_hasValues {place : Location} (h : ¬ place.hasValues) : place = {} := by
  obtain ⟨label, city, region⟩ := place
  cases label <;> cases city <;> cases region <;> first | rfl | exact absurd rfl h

/-- Nothing is demanded of a place that tells no place from one without parts. -/
theorem acceptsPlace_default (field : LocationField) (value : String) :
    Constraint.acceptsPlace field value (some {}) = Constraint.acceptsPlace field value none := by
  cases field <;> rfl

theorem acceptsPlace_recorded {location : Option Location}
    (h : ∀ place ∈ location, ∀ part ∈ place.parts, part ≠ some "") (field : LocationField) (value : String) :
    Constraint.acceptsPlace field value (location.bind Location.recorded?) =
      Constraint.acceptsPlace field value location := by
  cases location with
  | none => rfl
  | some place =>
      rw [Option.bind_some, Location.recorded_of_filled (h place rfl)]
      split_ifs with hvalues
      · rfl
      · rw [Location.eq_default_of_not_hasValues hvalues, acceptsPlace_default]

namespace Asset

variable {asset record : Asset}

theorem tags_of_recorded (h : asset.recorded? = some record) : record.tags = asset.tags.toFinset.sort := by
  obtain ⟨_, _, _, _, _, _, rfl⟩ := recorded_eq_some_iff.mp h
  rfl

theorem location_of_recorded (h : asset.recorded? = some record) :
    record.location = asset.location.bind Location.recorded? := by
  obtain ⟨_, _, _, _, _, _, rfl⟩ := recorded_eq_some_iff.mp h
  rfl

theorem name_of_recorded (h : asset.recorded? = some record) :
    record.filename = asset.filename ∧ record.mediaType = asset.mediaType := by
  obtain ⟨_, _, _, _, _, _, rfl⟩ := recorded_eq_some_iff.mp h
  exact ⟨rfl, rfl⟩

theorem bestDate_of_recorded (h : asset.recorded? = some record) : asset.bestDate.toUtc? = some record.bestDate := by
  obtain ⟨importDate, userDate, captureDate, himport, huser, hcapture, rfl⟩ := recorded_eq_some_iff.mp h
  rw [bestDate, bestDate]
  cases hdate : asset.userDate with
  | some date =>
      rw [hdate] at huser
      obtain ⟨moment, hmoment, rfl⟩ := Option.map_eq_some_iff.mp huser
      exact hmoment
  | none =>
      rw [hdate] at huser
      obtain rfl : none = userDate := Option.some.inj huser
      cases hdate : asset.captureDate with
      | some date =>
          rw [hdate] at hcapture
          obtain ⟨moment, hmoment, rfl⟩ := Option.map_eq_some_iff.mp hcapture
          exact hmoment
      | none =>
          rw [hdate] at hcapture
          obtain rfl : none = captureDate := Option.some.inj hcapture
          exact himport

theorem accepts_of_recorded (h : asset.recorded? = some record)
    (hplace : ∀ place ∈ asset.location, ∀ part ∈ place.parts, part ≠ some "") (constraint : Constraint) :
    constraint.accepts record = constraint.accepts asset := by
  have hinstant := DateTime.instant_of_toUtc (bestDate_of_recorded h)
  induction constraint with
  | and first second ihFirst ihSecond => rw [Constraint.accepts, Constraint.accepts, ihFirst, ihSecond]
  | or first second ihFirst ihSecond => rw [Constraint.accepts, Constraint.accepts, ihFirst, ihSecond]
  | not inner ih => rw [Constraint.accepts, Constraint.accepts, ih]
  | filename name => rw [Constraint.accepts, Constraint.accepts, (name_of_recorded h).1]
  | mediaType type => rw [Constraint.accepts, Constraint.accepts, (name_of_recorded h).2]
  | mediaSubtype subtype => rw [Constraint.accepts, Constraint.accepts, (name_of_recorded h).2]
  | tag name =>
      rw [Constraint.accepts, Constraint.accepts, tags_of_recorded h, Bool.eq_iff_iff]
      simp only [List.any_eq_true, Finset.mem_sort, List.mem_toFinset]
  | location field value =>
      rw [Constraint.accepts, Constraint.accepts, location_of_recorded h]
      exact acceptsPlace_recorded hplace field value
  | onOrAfter date => rw [Constraint.accepts, Constraint.accepts, hinstant]
  | before date => rw [Constraint.accepts, Constraint.accepts, hinstant]
  | empty => rfl

end Asset

namespace Catalog

theorem exists_record_of_put {c : Connection} (h : Reachable c) {asset : Asset} (hnew : c.get asset.key = .ok none)
    (hput : (c.put asset).1 = .ok ()) :
    ∃ record, asset.recorded? = some record ∧ (c.put asset).2.get asset.key = .ok (some record) := by
  cases ht : c.working.tables with
  | none =>
      rw [Connection.get, Connection.tablesFor, ht] at hnew
      cases hnew
  | some t =>
      have hintact := h.intact ht
      obtain ⟨hok, htables⟩ := Connection.put_of_tables ht asset
      rw [hput] at hok
      obtain ⟨t', ht'⟩ := Option.isSome_iff_exists.mp hok.symm
      rw [ht', Option.getD_some] at htables
      obtain ⟨row, hrow, _, hstored⟩ := Tables.stored_eq_some_iff.mp ht'
      obtain ⟨record, hrecord, _⟩ := AssetRow.exists_record_of_ofAsset hrow
      refine ⟨record, hrecord, ?_⟩
      have hself := Tables.record_put_self hintact.toConsistent hrow hrecord hstored
      have habsent : t.record? asset.key = none := by
        rw [Connection.get_of_tables ht hintact.toSound] at hnew
        exact Except.ok.inj hnew
      rw [Connection.get_of_tables htables ((h.perform (.put asset)).intact htables).toSound, hself, habsent]
      rfl

end Catalog

/-- What is stored under a new key is accepted by the constraints that accepted it before. -/
theorem accepts_get_put {c : Connection} (h : Reachable c) {asset : Asset}
    (hplace : ∀ place ∈ asset.location, ∀ part ∈ place.parts, part ≠ some "")
    (hnew : c.get asset.key = .ok none) (hput : (c.put asset).1 = .ok ()) :
    ∃ stored, (c.put asset).2.get asset.key = .ok (some stored) ∧
      ∀ constraint : Constraint, constraint.accepts stored = constraint.accepts asset := by
  obtain ⟨record, hrecord, hget⟩ := exists_record_of_put h hnew hput
  exact ⟨record, hget, fun constraint => asset.accepts_of_recorded hrecord hplace constraint⟩

theorem accepts_get_put_half_past_midnight :
    let imported : DateTime := ⟨.newYear 2021 (by decide), .ofTicks 1800000000, some ⟨3600000000, by decide⟩⟩
    let asset : Asset := { Asset.bare "k2" imported with tags := ["b", "a", "b"], location := some {} }
    let c := Connection.new.performAll [.put (.bare "k1" imported)]
    Reachable c ∧ (∀ place ∈ asset.location, ∀ part ∈ place.parts, part ≠ some "") ∧ c.get "k2" = .ok none ∧
      (c.put asset).1 = .ok () ∧ ∃ stored, (c.put asset).2.get "k2" = .ok (some stored) ∧
        stored.tags = ["a", "b"] ∧ stored.location = none ∧ stored.importDate.date.year = 2020 ∧
        ∀ constraint : Constraint, constraint.accepts stored = constraint.accepts asset := by
  intro imported asset c
  have hc : Reachable c := Reachable.new.performAll _
  have hplace : ∀ place ∈ asset.location, ∀ part ∈ place.parts, part ≠ some "" := by decide +kernel +zetaReduce
  have hnew : c.get "k2" = .ok none := by decide +kernel +zetaReduce
  have hput : (c.put asset).1 = .ok () := by decide +kernel +zetaReduce
  obtain ⟨stored, hget, haccepts⟩ := accepts_get_put hc hplace hnew hput
  have hread : (c.put asset).2.get "k2" = .ok (some { asset with
      tags := ["a", "b"]
      location := none
      importDate := ⟨⟨2020, 12, 31, by decide, by decide, by decide, by decide, by decide, by decide⟩,
        .ofTicks 84600000000, some Offset.utc⟩ }) := by
    decide +kernel +zetaReduce
  obtain rfl := Option.some.inj (Except.ok.inj (hget.symm.trans hread))
  exact ⟨hc, hplace, hnew, hput, _, hget, rfl, rfl, rfl, haccepts⟩

end MediaCatalog
