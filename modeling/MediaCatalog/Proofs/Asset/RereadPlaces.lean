import MediaCatalog.Proofs.Asset.WrittenPlaces

/-!
Texts that are read as places and written again. What is written is mostly a normal form, which comes out again when it
is read: a separator without anything behind it is left out, and the text without it may only be read in another way if
a comma is left in what was the label.
-/

namespace MediaCatalog.Location

open Text

/-- What is written for the place that is read from a text. -/
def reprinted (text : String) : String :=
  (ofString text).written

/-- The forms of a text that is cut into a label, a city and a region. -/
inductive CutInto : List Char → List Char → List Char → List Char → Prop
  | labelCity {label city : List Char} (hlabel : ';' ∉ label) (hcity : ';' ∉ city) (hcomma : ',' ∉ city) :
      CutInto (label ++ ';' :: city) label city []
  | labelCityRegion {label city region : List Char} (hlabel : ';' ∉ label) (hplace : ';' ∉ city ++ ',' :: region)
      (hcity : ',' ∉ city) (hregion : ',' ∉ region) :
      CutInto (label ++ ';' :: (city ++ ',' :: region)) label city region
  | cityRegion {city region : List Char} (hplace : ';' ∉ city ++ ',' :: region) (hcity : ',' ∉ city)
      (hregion : ',' ∉ region) : CutInto (city ++ ',' :: region) [] city region

theorem ofString_of_cutInto {text : String} {label city region : List Char}
    (h : CutInto text.toList label city region) : ofString text = ofParts label city region := by
  have hne : text ≠ "" := by
    rintro rfl
    generalize htext : "".toList = chars at h
    cases h <;> simp at htext
  rw [ofString, if_neg hne]
  generalize text.toList = chars at h
  cases h with
  | labelCity hlabel hcity hcomma =>
      simp only [pieces_append hlabel, pieces_of_not_mem hcity, pieces_of_not_mem hcomma]
  | labelCityRegion hlabel hplace hcity hregion =>
      simp only [pieces_append hlabel, pieces_of_not_mem hplace, pieces_append hcity, pieces_of_not_mem hregion]
  | cityRegion hplace hcity hregion =>
      simp only [pieces_of_not_mem hplace, pieces_append hcity, pieces_of_not_mem hregion]

theorem reprinted_of_label {text : String} (hne : text ≠ "") (h : ofString text = ⟨some text, none, none⟩) :
    reprinted text = text := by
  have hself : nonempty? (some text) = some text := Option.filter_some_pos (decide_eq_true hne)
  have hnone : nonempty? none = none := rfl
  simp only [reprinted, h, written, hself, hnone]

theorem cutInto_or_reprinted_eq_self (text : String) :
    (∃ label city region, CutInto text.toList label city region) ∨ reprinted text = text := by
  by_cases hempty : text = ""
  · exact .inr (hempty ▸ rfl)
  by_cases hsemicolon : ';' ∈ text.toList
  · obtain ⟨label, place, htext, hlabel⟩ := List.eq_append_cons_of_mem hsemicolon
    by_cases hplace : ';' ∈ place
    · obtain ⟨_, _, _, hpieces⟩ := exists_pieces_eq_of_mem hlabel hplace
      refine .inr (reprinted_of_label hempty ?_)
      simp only [ofString, if_neg hempty, htext, hpieces]
    by_cases hcomma : ',' ∈ place
    · obtain ⟨city, region, rfl, hcity⟩ := List.eq_append_cons_of_mem hcomma
      by_cases hregion : ',' ∈ region
      · obtain ⟨_, _, _, hpieces⟩ := exists_pieces_eq_of_mem hcity hregion
        refine .inr (reprinted_of_label hempty ?_)
        simp only [ofString, if_neg hempty, htext, pieces_append hlabel, pieces_of_not_mem hplace, hpieces]
      · exact .inl ⟨label, city, region, htext ▸ .labelCityRegion hlabel hplace hcity hregion⟩
    · exact .inl ⟨label, place, [], htext ▸ .labelCity hlabel hplace hcomma⟩
  · by_cases hcomma : ',' ∈ text.toList
    · obtain ⟨city, region, htext, hcity⟩ := List.eq_append_cons_of_mem hcomma
      by_cases hregion : ',' ∈ region
      · obtain ⟨_, _, _, hpieces⟩ := exists_pieces_eq_of_mem hcity hregion
        refine .inr (reprinted_of_label hempty ?_)
        simp only [ofString, if_neg hempty, pieces_of_not_mem (htext ▸ hsemicolon), htext, hpieces]
      · exact .inl ⟨[], city, region, htext ▸ .cityRegion (htext ▸ hsemicolon) hcity hregion⟩
    · refine .inr (reprinted_of_label hempty ?_)
      simp only [ofString, if_neg hempty, pieces_of_not_mem hsemicolon, pieces_of_not_mem hcomma]

theorem IsLeading.of_stripped {chars : List Char} (h : ';' ∉ chars) {part : String}
    (hpart : nonempty? (some (String.ofList (stripChars chars))) = some part) :
    IsLeading part ∧ part.toList = stripChars chars := by
  obtain ⟨heq, hne⟩ := Option.filter_eq_some_iff.mp hpart
  obtain rfl := Option.some.inj heq
  have htoList : (String.ofList (stripChars chars)).toList = stripChars chars := String.toList_ofList
  refine ⟨⟨of_decide_eq_true hne, ?_, ?_⟩, htoList⟩
  · rw [htoList]
    exact isStripped_stripChars chars
  · rw [htoList]
    exact fun hmem => h (mem_of_mem_stripChars hmem)

theorem IsPlain.of_stripped {chars : List Char} (hsemicolon : ';' ∉ chars) (hcomma : ',' ∉ chars) {part : String}
    (hpart : nonempty? (some (String.ofList (stripChars chars))) = some part) : IsPlain part := by
  obtain ⟨hleading, htoList⟩ := IsLeading.of_stripped hsemicolon hpart
  refine hleading.plain ?_
  rw [htoList]
  exact fun hmem => hcomma (mem_of_mem_stripChars hmem)

theorem nonempty_stripped_eq_none_iff {chars : List Char} :
    nonempty? (some (String.ofList (stripChars chars))) = none ↔ stripChars chars = [] := by
  rw [nonempty?, Option.filter_eq_none_iff]
  constructor
  · intro h
    have hempty : String.ofList (stripChars chars) = "" := by simpa using h _ rfl
    rw [← String.toList_ofList (l := stripChars chars), hempty, String.toList_empty]
  · rintro h part hpart
    rw [h] at hpart
    obtain rfl := Option.some.inj hpart
    decide

theorem CutInto.not_mem {text label city region : List Char} (h : CutInto text label city region) :
    ';' ∉ label ∧ ';' ∉ city ∧ ';' ∉ region ∧ ',' ∉ city ∧ ',' ∉ region := by
  cases h with
  | labelCity hlabel hcity hcomma => exact ⟨hlabel, hcity, List.not_mem_nil, hcomma, List.not_mem_nil⟩
  | labelCityRegion hlabel hplace hcity hregion =>
      rw [List.mem_append, not_or] at hplace
      exact ⟨hlabel, hplace.1, fun h => hplace.2 (List.mem_cons_of_mem _ h), hcity, hregion⟩
  | cityRegion hplace hcity hregion =>
      rw [List.mem_append, not_or] at hplace
      exact ⟨List.not_mem_nil, hplace.1, fun h => hplace.2 (List.mem_cons_of_mem _ h), hcity, hregion⟩

/-- Which parts are missing cannot be told from the written form, so a place that is read from it is written alike. -/
theorem written_reread (place : Location) : place.reread.written = place.written := by
  obtain ⟨label, city, region⟩ := place
  have hnone : nonempty? none = none := rfl
  cases label with
  | none =>
      cases city with
      | none =>
          cases region with
          | none => rfl
          | some region =>
              simp only [reread, written, hnone]
              cases nonempty? (some region) <;> rfl
      | some city =>
          cases region with
          | none =>
              simp only [reread, written, hnone]
              cases nonempty? (some city) <;> rfl
          | some region => rfl
  | some label =>
      cases city with
      | none =>
          cases region with
          | none => rfl
          | some region =>
              simp only [reread, written, hnone]
              cases nonempty? (some label) <;> cases nonempty? (some region) <;> rfl
      | some city => cases region <;> rfl

theorem written_label {label : String} (h : IsLeading label) : written ⟨some label, none, none⟩ = label := by
  rw [written, h.nonempty_self]
  rfl

theorem reprinted_of_label_alone {text label : String} (h : ofString text = ⟨some label, none, none⟩)
    (hleading : IsLeading label) : reprinted text = label := by
  rw [reprinted, h, written_label hleading]

theorem reprinted_of_leading {text : String}
    (hlabel : ∀ label, (ofString text).label = some label → IsLeading label)
    (hcity : ∀ city, (ofString text).city = some city → IsPlain city)
    (hregion : ∀ region, (ofString text).region = some region → IsPlain region)
    (halone : ∀ label, ofString text = ⟨some label, none, none⟩ → IsPlain label) :
    reprinted (reprinted text) = reprinted text := by
  rw [reprinted, reprinted, ofString_written_of_leading hlabel hcity hregion halone, written_reread]

/-- Whether a text has one comma and is still not what is written for a city and a region. -/
structure IsLoosePair (text : String) : Prop where
  one_comma : text.toList.count ',' = 1
  not_written : ∀ city region, IsPlain city → IsPlain region → text ≠ city ++ ", " ++ region

theorem IsLoosePair.comma_mem {text : String} (h : IsLoosePair text) : ',' ∈ text.toList :=
  List.count_pos_iff.mp (by rw [h.one_comma]; decide)

theorem written_city_region {city region : String} (hcity : IsPlain city) (hregion : IsPlain region) :
    written ⟨none, some city, some region⟩ = city ++ ", " ++ region := by
  rw [written, hcity.leading.nonempty_self, hregion.leading.nonempty_self]
  rfl

theorem comma_not_mem_written {city region : Option String} (hcity : ∀ part, city = some part → IsPlain part)
    (hregion : ∀ part, region = some part → IsPlain part) (hmissing : city = none ∨ region = none) :
    ',' ∉ (written ⟨none, city, region⟩).toList := by
  have hnone : nonempty? none = none := rfl
  cases city with
  | none =>
      cases region with
      | none => exact List.not_mem_nil
      | some region =>
          rw [written, hnone, (hregion region rfl).leading.nonempty_self]
          exact (hregion region rfl).no_comma
  | some city =>
      obtain rfl : region = none := hmissing.resolve_left (Option.some_ne_none city)
      rw [written, hnone, (hcity city rfl).leading.nonempty_self]
      exact (hcity city rfl).no_comma

theorem IsLoosePair.exists_pair {label : String} (h : IsLoosePair label) (hsemicolon : ';' ∉ label.toList) :
    ∃ city region, CutInto label.toList [] city region := by
  obtain ⟨city, region, htext, hcity⟩ := List.eq_append_cons_of_mem h.comma_mem
  have hcount := h.one_comma
  rw [htext, List.count_append, List.count_cons_self, List.count_eq_zero.mpr hcity] at hcount
  have hregion : ',' ∉ region := List.count_eq_zero.mp (by omega)
  rw [htext] at hsemicolon ⊢
  exact ⟨city, region, .cityRegion hsemicolon hcity hregion⟩

theorem reprinted_eq_self_iff_of_leading {label : String} (h : IsLeading label) :
    reprinted label = label ↔ ¬ IsLoosePair label := by
  constructor
  · intro hself hloose
    obtain ⟨city, region, hcut⟩ := hloose.exists_pair h.no_semicolon
    obtain ⟨-, hcity, hregion, hcityComma, hregionComma⟩ := hcut.not_mem
    have hplainCity : ∀ part, _ = some part → IsPlain part := fun part => IsPlain.of_stripped hcity hcityComma
    have hplainRegion : ∀ part, _ = some part → IsPlain part := fun part => IsPlain.of_stripped hregion hregionComma
    rw [reprinted, ofString_of_cutInto hcut, ofParts, show nonempty? (some (String.ofList (stripChars []))) = none
      from rfl] at hself
    generalize nonempty? (some (String.ofList (stripChars city))) = cityPart at hself hplainCity
    generalize nonempty? (some (String.ofList (stripChars region))) = regionPart at hself hplainRegion
    by_cases hmissing : cityPart = none ∨ regionPart = none
    · have hcomma := comma_not_mem_written hplainCity hplainRegion hmissing
      rw [hself] at hcomma
      exact hcomma hloose.comma_mem
    · rw [not_or] at hmissing
      obtain ⟨cityText, rfl⟩ := Option.ne_none_iff_exists'.mp hmissing.1
      obtain ⟨regionText, rfl⟩ := Option.ne_none_iff_exists'.mp hmissing.2
      rw [written_city_region (hplainCity _ rfl) (hplainRegion _ rfl)] at hself
      exact hloose.not_written _ _ (hplainCity _ rfl) (hplainRegion _ rfl) hself.symm
  · intro hloose
    rcases cutInto_or_reprinted_eq_self label with ⟨_, city, region, hcut⟩ | hself
    · have hcount : label.toList.count ',' = 1 := by
        generalize htext : label.toList = chars at hcut
        cases hcut with
        | labelCity => exact absurd (htext ▸ by simp) h.no_semicolon
        | labelCityRegion => exact absurd (htext ▸ by simp) h.no_semicolon
        | cityRegion _ hcity hregion => simp [List.count_eq_zero.mpr hcity, List.count_eq_zero.mpr hregion]
      obtain ⟨city, region, hcity, hregion, rfl⟩ :
          ∃ city region, IsPlain city ∧ IsPlain region ∧ label = city ++ ", " ++ region := by
        by_contra hnot
        exact hloose ⟨hcount, fun city region hcity hregion heq => hnot ⟨city, region, hcity, hregion, heq⟩⟩
      rw [reprinted, ofString_city_region hcity hregion, written_city_region hcity hregion]
    · exact hself

/-- Whether only a label is read from a text, from before its semicolon, that is a loose pair. Behind the semicolon
there is then nothing but white space, with one comma in it or none. -/
def LeavesLoosePair (text : String) : Prop :=
  ∃ label city region, CutInto text.toList label city region ∧ stripChars city = [] ∧ stripChars region = [] ∧
    IsLoosePair (String.ofList (stripChars label))

theorem LeavesLoosePair.semicolon_mem {text : String} (h : LeavesLoosePair text) : ';' ∈ text.toList := by
  obtain ⟨label, city, region, hcut, -, -, hloose⟩ := h
  generalize text.toList = chars at hcut
  cases hcut with
  | labelCity => simp
  | labelCityRegion => simp
  | cityRegion => exact absurd hloose.comma_mem List.not_mem_nil

theorem leavesLoosePair_iff {text : String} : LeavesLoosePair text ↔
    ∃ label, ofString text = ⟨some label, none, none⟩ ∧ IsLeading label ∧ IsLoosePair label := by
  constructor
  · rintro ⟨label, city, region, hcut, hcity, hregion, hloose⟩
    have hpart : nonempty? (some (String.ofList (stripChars label))) = some (String.ofList (stripChars label)) := by
      refine Option.filter_some_pos (decide_eq_true fun hempty => ?_)
      have hcomma := hloose.comma_mem
      rw [hempty] at hcomma
      exact List.not_mem_nil hcomma
    refine ⟨_, ?_, (IsLeading.of_stripped hcut.not_mem.1 hpart).1, hloose⟩
    rw [ofString_of_cutInto hcut, ofParts, hpart, nonempty_stripped_eq_none_iff.mpr hcity,
      nonempty_stripped_eq_none_iff.mpr hregion]
  · rintro ⟨part, hread, hleading, hloose⟩
    rcases cutInto_or_reprinted_eq_self text with ⟨label, city, region, hcut⟩ | hself
    · rw [ofString_of_cutInto hcut, ofParts, Location.mk.injEq] at hread
      obtain ⟨hlabel, hcity, hregion⟩ := hread
      obtain ⟨-, htoList⟩ := IsLeading.of_stripped hcut.not_mem.1 hlabel
      refine ⟨label, city, region, hcut, nonempty_stripped_eq_none_iff.mp hcity,
        nonempty_stripped_eq_none_iff.mp hregion, ?_⟩
      rwa [← htoList, String.ofList_toList]
    · -- A text that stays as it is cannot be a loose pair, which would be cut.
      rw [reprinted_of_label_alone hread hleading] at hself
      subst hself
      exact absurd hloose ((reprinted_eq_self_iff_of_leading hleading).mp (reprinted_of_label_alone hread hleading))

theorem reprinted_reprinted_of_not_alone {text : String}
    (halone : ∀ label, ofString text = ⟨some label, none, none⟩ → ¬ IsLeading label) :
    reprinted (reprinted text) = reprinted text := by
  rcases cutInto_or_reprinted_eq_self text with ⟨label, city, region, hcut⟩ | hself
  · obtain ⟨hlabel, hcity, hregion, hcityComma, hregionComma⟩ := hcut.not_mem
    have hread := ofString_of_cutInto hcut
    refine reprinted_of_leading (fun part hpart => ?_) (fun part hpart => ?_) (fun part hpart => ?_)
      fun part hpart => ?_
    · rw [hread] at hpart
      exact (IsLeading.of_stripped hlabel hpart).1
    · rw [hread] at hpart
      exact IsPlain.of_stripped hcity hcityComma hpart
    · rw [hread] at hpart
      exact IsPlain.of_stripped hregion hregionComma hpart
    · have hleading := (IsLeading.of_stripped hlabel (congrArg Location.label (hread.symm.trans hpart))).1
      exact absurd hleading (halone part hpart)
  · rw [hself, hself]

theorem reprinted_reprinted_eq_self_iff (text : String) :
    reprinted (reprinted text) = reprinted text ↔ ¬ LeavesLoosePair text := by
  rw [leavesLoosePair_iff]
  by_cases halone : ∃ label, ofString text = ⟨some label, none, none⟩ ∧ IsLeading label
  · obtain ⟨label, hread, hleading⟩ := halone
    rw [reprinted_of_label_alone hread hleading, reprinted_eq_self_iff_of_leading hleading]
    simp [hread, hleading]
  · rw [not_exists] at halone
    refine iff_of_true (reprinted_reprinted_of_not_alone fun label hread hleading => ?_) ?_
    · exact halone label ⟨hread, hleading⟩
    · exact fun ⟨label, hread, hleading, _⟩ => halone label ⟨hread, hleading⟩

/-- Reading and writing leads to a normal form at once, unless the text leaves a loose pair, and for every text the
second time. -/
theorem reprinted_normal (text : String) :
    (reprinted (reprinted text) = reprinted text ↔ ¬ LeavesLoosePair text) ∧
      reprinted (reprinted (reprinted text)) = reprinted (reprinted text) := by
  refine ⟨reprinted_reprinted_eq_self_iff text, ?_⟩
  by_cases hloose : LeavesLoosePair text
  · obtain ⟨label, hread, hleading, -⟩ := leavesLoosePair_iff.mp hloose
    refine (reprinted_reprinted_eq_self_iff (reprinted text)).mpr fun hagain => ?_
    rw [reprinted_of_label_alone hread hleading] at hagain
    exact hleading.no_semicolon hagain.semicolon_mem
  · rw [(reprinted_reprinted_eq_self_iff text).mpr hloose, (reprinted_reprinted_eq_self_iff text).mpr hloose]

theorem reprinted_loose_pair : reprinted "Paris,France;" = "Paris,France" ∧
    reprinted (reprinted "Paris,France;") = "Paris, France" ∧
    reprinted (reprinted "Paris,France;") ≠ reprinted "Paris,France;" := by
  decide +kernel

end MediaCatalog.Location
