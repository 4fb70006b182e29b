import MediaCatalog.Asset.Location
import MediaCatalog.Proofs.Text.Pieces

/-!
Places that are written and read again. The parts are told apart by what separates them, which does not show which of
them is missing: a place comes back unless it is a city alone, a region alone, or a label with a region.
-/

namespace MediaCatalog.Location

open Text

/-- A part of a place that can stand in front of the semicolon of the written form. -/
structure IsLeading (part : String) : Prop where
  ne_empty : part ≠ ""
  stripped : IsStripped part.toList
  no_semicolon : ';' ∉ part.toList

/-- A part of a place that can stand beside the separators of the written form. -/
structure IsPlain (part : String) : Prop where
  ne_empty : part ≠ ""
  stripped : IsStripped part.toList
  no_semicolon : ';' ∉ part.toList
  no_comma : ',' ∉ part.toList

namespace IsLeading

variable {part : String}

theorem nonempty_self (h : IsLeading part) : nonempty? (some part) = some part :=
  Option.filter_some_pos (decide_eq_true h.ne_empty)

theorem nonempty_stripped (h : IsLeading part) :
    nonempty? (some (String.ofList (stripChars part.toList))) = some part := by
  rw [stripChars_of_isStripped h.stripped, String.ofList_toList, h.nonempty_self]

theorem plain (h : IsLeading part) (hcomma : ',' ∉ part.toList) : IsPlain part :=
  ⟨h.ne_empty, h.stripped, h.no_semicolon, hcomma⟩

end IsLeading

namespace IsPlain

variable {part : String}

theorem leading (h : IsPlain part) : IsLeading part :=
  ⟨h.ne_empty, h.stripped, h.no_semicolon⟩

theorem nonempty_stripped_spaced (h : IsPlain part) :
    nonempty? (some (String.ofList (stripChars (' ' :: part.toList)))) = some part := by
  rw [stripChars_cons (by decide), h.leading.nonempty_stripped]

theorem no_semicolon_spaced (h : IsPlain part) : ';' ∉ ' ' :: part.toList :=
  List.not_mem_cons_of_ne_of_not_mem (by decide) h.no_semicolon

theorem no_comma_spaced (h : IsPlain part) : ',' ∉ ' ' :: part.toList :=
  List.not_mem_cons_of_ne_of_not_mem (by decide) h.no_comma

end IsPlain

section Forms

variable {label city region : String}

theorem nonempty_stripped_nil : nonempty? (some (String.ofList (stripChars []))) = none :=
  rfl

theorem ofString_label (hlabel : IsPlain label) : ofString label = ⟨some label, none, none⟩ := by
  rw [ofString, if_neg hlabel.ne_empty]
  simp only [pieces_of_not_mem hlabel.no_semicolon, pieces_of_not_mem hlabel.no_comma]

theorem ofString_label_city (hlabel : IsLeading label) (hcity : IsPlain city) :
    ofString (label ++ "; " ++ city) = ⟨some label, some city, none⟩ := by
  have htext : (label ++ "; " ++ city).toList = label.toList ++ ';' :: ' ' :: city.toList := by simp
  have hne : label ++ "; " ++ city ≠ "" := by simp
  rw [ofString, if_neg hne, htext]
  simp only [pieces_append hlabel.no_semicolon, pieces_of_not_mem hcity.no_semicolon_spaced,
    pieces_of_not_mem hcity.no_comma_spaced, ofParts, hlabel.nonempty_stripped, hcity.nonempty_stripped_spaced,
    nonempty_stripped_nil]

theorem ofString_city_region (hcity : IsPlain city) (hregion : IsPlain region) :
    ofString (city ++ ", " ++ region) = ⟨none, some city, some region⟩ := by
  have htext : (city ++ ", " ++ region).toList = city.toList ++ ',' :: ' ' :: region.toList := by simp
  have hne : city ++ ", " ++ region ≠ "" := by simp
  have hsemicolon : ';' ∉ city.toList ++ ',' :: ' ' :: region.toList := by
    rw [List.mem_append, not_or]
    exact ⟨hcity.no_semicolon, List.not_mem_cons_of_ne_of_not_mem (by decide) hregion.no_semicolon_spaced⟩
  rw [ofString, if_neg hne, htext]
  simp only [pieces_of_not_mem hsemicolon, pieces_append hcity.no_comma, pieces_of_not_mem hregion.no_comma_spaced,
    ofParts, hcity.leading.nonempty_stripped, hregion.nonempty_stripped_spaced, nonempty_stripped_nil]

theorem ofString_label_city_region (hlabel : IsLeading label) (hcity : IsPlain city) (hregion : IsPlain region) :
    ofString (label ++ "; " ++ city ++ ", " ++ region) = ⟨some label, some city, some region⟩ := by
  have htext : (label ++ "; " ++ city ++ ", " ++ region).toList =
      label.toList ++ ';' :: (' ' :: city.toList ++ ',' :: ' ' :: region.toList) := by simp
  have hne : label ++ "; " ++ city ++ ", " ++ region ≠ "" := by simp
  have hsemicolon : ';' ∉ ' ' :: city.toList ++ ',' :: ' ' :: region.toList := by
    rw [List.mem_append, not_or]
    exact ⟨hcity.no_semicolon_spaced, List.not_mem_cons_of_ne_of_not_mem (by decide) hregion.no_semicolon_spaced⟩
  rw [ofString, if_neg hne, htext]
  simp only [pieces_append hlabel.no_semicolon, pieces_of_not_mem hsemicolon, pieces_append hcity.no_comma_spaced,
    pieces_of_not_mem hregion.no_comma_spaced, ofParts, hlabel.nonempty_stripped, hcity.nonempty_stripped_spaced,
    hregion.nonempty_stripped_spaced]

end Forms

/-- The place that is read from what is written for one: a single part is taken for a label, and the part behind a label
for a city. -/
def reread : Location → Location
  | ⟨none, some city, none⟩ => ⟨some city, none, none⟩
  | ⟨none, none, some region⟩ => ⟨some region, none, none⟩
  | ⟨some label, none, some region⟩ => ⟨some label, some region, none⟩
  | place => place

theorem nonempty_eq_self {part : Option String} (h : ∀ text, part = some text → IsLeading text) :
    nonempty? part = part := by
  cases part with
  | none => rfl
  | some text => exact (h text rfl).nonempty_self

/-- A label may have commas if it does not stand alone. -/
theorem ofString_written_of_leading {place : Location} (hlabel : ∀ label, place.label = some label → IsLeading label)
    (hcity : ∀ city, place.city = some city → IsPlain city)
    (hregion : ∀ region, place.region = some region → IsPlain region)
    (halone : ∀ label, place = ⟨some label, none, none⟩ → IsPlain label) : ofString place.written = place.reread := by
  obtain ⟨label, city, region⟩ := place
  rw [written, nonempty_eq_self hlabel, nonempty_eq_self fun city h => (hcity city h).leading,
    nonempty_eq_self fun region h => (hregion region h).leading]
  -- The parts that are there decide which form is written.
  cases label with
  | none =>
      cases city with
      | none =>
          cases region with
          | none => rfl
          | some region => exact ofString_label (hregion region rfl)
      | some city =>
          cases region with
          | none => exact ofString_label (hcity city rfl)
          | some region => exact ofString_city_region (hcity city rfl) (hregion region rfl)
  | some label =>
      cases city with
      | none =>
          cases region with
          | none => exact ofString_label (halone label rfl)
          | some region => exact ofString_label_city (hlabel label rfl) (hregion region rfl)
      | some city =>
          cases region with
          | none => exact ofString_label_city (hlabel label rfl) (hcity city rfl)
          | some region => exact ofString_label_city_region (hlabel label rfl) (hcity city rfl) (hregion region rfl)

theorem ofString_written {place : Location} (h : ∀ part, some part ∈ place.parts → IsPlain part) :
    ofString place.written = place.reread := by
  obtain ⟨label, city, region⟩ := place
  refine ofString_written_of_leading ?_ ?_ ?_ ?_
  · rintro part rfl
    exact (h part (by simp [parts])).leading
  · rintro part rfl
    exact h part (by simp [parts])
  · rintro part rfl
    exact h part (by simp [parts])
  · rintro part ⟨rfl, rfl, rfl⟩
    exact h part (by simp [parts])

theorem reread_eq_self_iff (place : Location) :
    place.reread = place ↔ (∀ city, place ≠ ⟨none, some city, none⟩) ∧
      (∀ region, place ≠ ⟨none, none, some region⟩) ∧ ∀ label region, place ≠ ⟨some label, none, some region⟩ := by
  obtain ⟨label, city, region⟩ := place
  cases label <;> cases city <;> cases region <;> simp [reread]

/-- A place of plain parts comes back from what is written for it unless it is a city alone, a region alone or a label
with a region; of these the parts come back in their order as a label, a label, and a label with a city. -/
theorem ofString_written_eq_self_iff {place : Location} (h : ∀ part, some part ∈ place.parts → IsPlain part) :
    (ofString place.written = place ↔ (∀ city, place ≠ ⟨none, some city, none⟩) ∧
      (∀ region, place ≠ ⟨none, none, some region⟩) ∧ ∀ label region, place ≠ ⟨some label, none, some region⟩) ∧
    (∀ city, place = ⟨none, some city, none⟩ → ofString place.written = ⟨some city, none, none⟩) ∧
    (∀ region, place = ⟨none, none, some region⟩ → ofString place.written = ⟨some region, none, none⟩) ∧
    ∀ label region, place = ⟨some label, none, some region⟩ →
      ofString place.written = ⟨some label, some region, none⟩ := by
  rw [ofString_written h]
  refine ⟨place.reread_eq_self_iff, ?_, ?_, ?_⟩
  · rintro city rfl
    rfl
  · rintro region rfl
    rfl
  · rintro label region rfl
    rfl

theorem ofString_written_eq_self_iff_label_region :
    let place : Location := ⟨some "Café de la Gare", none, some "Île-de-France"⟩
    (∀ part, some part ∈ place.parts → IsPlain part) ∧ place.written = "Café de la Gare; Île-de-France" ∧
      ofString place.written = ⟨some "Café de la Gare", some "Île-de-France", none⟩ ∧
      ofString place.written ≠ place := by
  intro place
  have hplain : ∀ part, some part ∈ place.parts → IsPlain part := by
    intro part hpart
    simp only [place, parts, List.mem_cons, Option.some.injEq, reduceCtorEq, List.not_mem_nil, or_false,
      false_or] at hpart
    rcases hpart with rfl | rfl
    · exact ⟨by decide, ⟨by rintro _ ⟨⟩; decide, by rintro _ ⟨⟩; decide⟩, by decide +kernel, by decide +kernel⟩
    · exact ⟨by decide, ⟨by rintro _ ⟨⟩; decide, by rintro _ ⟨⟩; decide⟩, by decide +kernel, by decide +kernel⟩
  obtain ⟨hself, _, _, hregion⟩ := ofString_written_eq_self_iff hplain
  exact ⟨hplain, by decide +kernel, hregion _ _ rfl, fun heq => (hself.mp heq).2.2 _ _ rfl⟩

end MediaCatalog.Location
