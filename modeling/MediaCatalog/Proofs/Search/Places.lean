import MediaCatalog.Proofs.Calendar.Years
import MediaCatalog.Proofs.Catalog.Records
import MediaCatalog.Proofs.Text.LowercasePieces
import MediaCatalog.Query.Constraint

/-!
Searching for places by a piece of some part of them. A piece is found in every part that contains it exactly if it has
no open sigma, one whose shape in lowercase depends on what stands beside the piece.
-/

namespace MediaCatalog

open Calendar Query Text

namespace Text

theorem lowerBetween_ne_nil (before : List Char) (c : Char) (after : List Char) : lowerBetween before c after ≠ [] := by
  by_cases hc : c = 'Σ'
  · rw [hc, lowerBetween_sigma]
    exact List.cons_ne_nil _ _
  · rw [lowerBetween_of_ne hc, lowerChar]
    split_ifs <;> exact List.cons_ne_nil _ _

theorem lower_ne_empty {text : String} (h : text ≠ "") : lower text ≠ "" := by
  obtain ⟨c, rest, htext⟩ : ∃ c rest, text.toList = c :: rest :=
    List.exists_cons_of_ne_nil fun hnil => h (String.toList_eq_nil_iff.mp hnil)
  intro hempty
  have hchars : lowerChars text.toList = [] := by
    rw [← String.toList_ofList (l := lowerChars text.toList)]
    exact String.toList_eq_nil_iff.mpr hempty
  rw [htext, lowerChars, lowerFrom, List.append_eq_nil_iff] at hchars
  exact lowerBetween_ne_nil _ _ _ hchars.1

end Text

theorem Location.mentions_lower_iff {place : Location} {piece : String} : place.mentions (lower piece) ↔
    ∃ part, some part ∈ place.parts ∧ part ≠ "" ∧ lowerChars piece.toList <:+: lowerChars part.toList := by
  rw [mentions, List.any_eq_true]
  constructor
  · rintro ⟨part, hpart, hmentions⟩
    cases hvalue : nonempty? part with
    | none => simp [hvalue] at hmentions
    | some value =>
        obtain ⟨rfl, hne⟩ := Option.filter_eq_some_iff.mp hvalue
        simp only [hvalue, occursIn_iff, lower, String.toList_ofList] at hmentions
        exact ⟨value, hpart, of_decide_eq_true hne, hmentions⟩
  · rintro ⟨part, hpart, hne, hinfix⟩
    have hvalue : nonempty? (some part) = some part := Option.filter_some_pos (decide_eq_true hne)
    refine ⟨some part, hpart, ?_⟩
    simpa only [hvalue, occursIn_iff, lower, String.toList_ofList] using hinfix

theorem accepts_any_place_iff {piece : String} (h : piece ≠ "") (asset : Asset) :
    (Constraint.ofLocation .any piece).accepts asset ↔
      ∃ place part, asset.location = some place ∧ some part ∈ place.parts ∧ part ≠ "" ∧
        lowerChars piece.toList <:+: lowerChars part.toList := by
  rw [Constraint.ofLocation, Constraint.accepts, Constraint.acceptsPlace, if_neg (lower_ne_empty h)]
  cases hplace : asset.location with
  | none => simp
  | some place => simp [Location.mentions_lower_iff]

theorem accepts_any_place_of_keepsSigmas {piece part : String} {asset : Asset} {place : Location}
    {before after : List Char} (h : piece ≠ "") (hplace : asset.location = some place) (hpart : some part ∈ place.parts)
    (hpiece : part.toList = before ++ piece.toList ++ after)
    (hkeeps : KeepsSigmas before.reverse after piece.toList) : (Constraint.ofLocation .any piece).accepts asset := by
  refine (accepts_any_place_iff h asset).mpr ⟨place, part, hplace, hpart, ?_, ?_⟩
  · rintro rfl
    rw [String.toList_empty] at hpiece
    have hnil := (List.append_eq_nil_iff.mp (List.append_eq_nil_iff.mp hpiece.symm).1).2
    exact h (String.toList_eq_nil_iff.mp hnil)
  · rw [← hkeeps.lowerWithin_eq, hpiece]
    exact lowerWithin_infix_lowerChars before piece.toList after

/-- A place with a label alone. -/
def Asset.labelled (label : String) : Asset :=
  { Asset.bare "" (.newYear 2020 (by decide)) with location := some { label := some label } }

theorem exists_not_accepts_any_place {piece : String} (h : piece ≠ "") (hopen : hasOpenSigma piece.toList) :
    ∃ label : String, piece.toList <:+: label.toList ∧
      ¬ (Constraint.ofLocation .any piece).accepts (Asset.labelled label) := by
  obtain ⟨text, hinfix, hnot⟩ := exists_not_infix_lowerChars hopen
  refine ⟨String.ofList text, ?_, fun haccepts => ?_⟩
  · rwa [String.toList_ofList]
  · obtain ⟨place, part, hplace, hpart, -, hfound⟩ := (accepts_any_place_iff h _).mp haccepts
    obtain rfl := Option.some.inj hplace
    simp only [Location.parts, List.mem_cons, Option.some.injEq, reduceCtorEq, List.not_mem_nil, or_false] at hpart
    rw [hpart, String.toList_ofList] at hfound
    exact hnot hfound

/-- A search for a piece finds every part of a place in which the piece has its sigmas as it has them alone; and exactly
a piece without an open sigma is found in all parts that contain it. -/
theorem finds_pieces_of_places {piece : String} (h : piece ≠ "") :
    (∀ (asset : Asset) (place : Location) (part : String) (before after : List Char), asset.location = some place →
      some part ∈ place.parts → part.toList = before ++ piece.toList ++ after →
      KeepsSigmas before.reverse after piece.toList → (Constraint.ofLocation .any piece).accepts asset) ∧
    ((∀ (asset : Asset) (place : Location) (part : String), asset.location = some place → some part ∈ place.parts →
      piece.toList <:+: part.toList → (Constraint.ofLocation .any piece).accepts asset) ↔
        hasOpenSigma piece.toList = false) := by
  refine ⟨fun asset place part before after hplace hpart hpiece hkeeps => ?_, fun hfinds => ?_, fun hclosed => ?_⟩
  · exact accepts_any_place_of_keepsSigmas h hplace hpart hpiece hkeeps
  · refine Bool.eq_false_iff.mpr fun hopen => ?_
    obtain ⟨label, hinfix, hnot⟩ := exists_not_accepts_any_place h hopen
    exact hnot (hfinds _ _ label rfl List.mem_cons_self hinfix)
  · rintro asset place part hplace hpart ⟨before, after, hpiece⟩
    exact accepts_any_place_of_keepsSigmas h hplace hpart hpiece.symm
      (keepsSigmas_of_not_hasOpenSigma (Bool.eq_false_iff.mp hclosed) _ _)

theorem finds_pieces_of_places_inner_sigma : "ΟΣΤ" ≠ "" ∧
    (Constraint.ofLocation .any "ΟΣΤ").accepts (Asset.labelled "ΚΩΣΤΑΣ ΟΣΤΙΑ") ∧
    ¬ ∀ (asset : Asset) (place : Location) (part : String), asset.location = some place → some part ∈ place.parts →
      "ΠΑΡΙΣ".toList <:+: part.toList → (Constraint.ofLocation .any "ΠΑΡΙΣ").accepts asset := by
  refine ⟨by decide, ?_, fun hfinds => ?_⟩
  · refine (finds_pieces_of_places (by decide)).2.mpr (by decide +kernel) _ _ "ΚΩΣΤΑΣ ΟΣΤΙΑ" rfl List.mem_cons_self ?_
    exact ⟨"ΚΩΣΤΑΣ ".toList, "ΙΑ".toList, by decide +kernel⟩
  · exact absurd ((finds_pieces_of_places (by decide)).2.mp hfinds) (by decide +kernel)

/-- A word that ends in a sigma is not found in a longer word. -/
theorem final_sigma_not_found : "ΠΑΡΙΣ".toList <:+: "ΠΑΡΙΣΙ".toList ∧
    ¬ (Constraint.ofLocation .any "ΠΑΡΙΣ").accepts (Asset.labelled "ΠΑΡΙΣΙ") := by
  decide +kernel

end MediaCatalog
