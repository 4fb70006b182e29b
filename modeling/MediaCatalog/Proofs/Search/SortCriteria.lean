import MediaCatalog.Proofs.Calendar.Instants
import MediaCatalog.Proofs.Search.StableSort
import Mathlib.Data.String.Basic

/-!
Sorting search results by one field after another. The field that is sorted by last counts most, each earlier one only
among results with equal keys in all the later ones, and the places that the results had at first decide what is left.
-/

namespace MediaCatalog

namespace SortField

/-- What the values of a field are: points in time, or texts in the order of their code points. -/
def Key : SortField → Type
  | date => Int
  | identifier => String
  | filename => String
  | mediaType => String

instance instLinearOrderKey : (field : SortField) → LinearOrder field.Key
  | date => inferInstanceAs (LinearOrder Int)
  | identifier => inferInstanceAs (LinearOrder String)
  | filename => inferInstanceAs (LinearOrder String)
  | mediaType => inferInstanceAs (LinearOrder String)

/-- The value that a result has in a field; a date without an offset is one of universal time. -/
def key : (field : SortField) → SearchResult → field.Key
  | date, result => result.date.assumeUtc.instant
  | identifier, result => result.assetId
  | filename, result => result.filename
  | mediaType, result => result.mediaType

theorem le_iff_key_le (field : SortField) (first second : SearchResult) :
    field.le first second ↔ field.key first ≤ field.key second := by
  cases field <;> simp only [le, decide_eq_true_eq]
  · change _ ↔ first.date.assumeUtc.instant ≤ second.date.assumeUtc.instant
    rw [Calendar.DateTime.instant_assumeUtc, Calendar.DateTime.instant_assumeUtc]
  · rfl
  · rfl
  · rfl

end SortField

/-- A field to sort by and the direction, ascending unless told otherwise. -/
structure SortCriterion where
  field : SortField
  order : Option SortOrder

namespace SortCriterion

variable (criterion : SortCriterion)

def sort (results : List SearchResult) : List SearchResult :=
  sortResults (some criterion.field) criterion.order results

/-- Whether the key of one result is not behind that of another in the direction asked for. -/
def InOrder (first second : SearchResult) : Prop :=
  match criterion.order with
  | some .descending => criterion.field.key second ≤ criterion.field.key first
  | _ => criterion.field.key first ≤ criterion.field.key second

theorem precedes_iff (first second : SearchResult) :
    criterion.field.precedes criterion.order first second ↔ criterion.InOrder first second := by
  obtain ⟨field, order⟩ := criterion
  rcases order with _ | _ | _
  · exact field.le_iff_key_le first second
  · exact field.le_iff_key_le first second
  · exact field.le_iff_key_le second first

theorem inOrder_of_key_eq {first second : SearchResult}
    (h : criterion.field.key first = criterion.field.key second) : criterion.InOrder first second := by
  unfold InOrder
  split
  · exact h.ge
  · exact h.le

theorem key_eq_of_inOrder {first second : SearchResult} (h : criterion.InOrder first second)
    (h' : criterion.InOrder second first) : criterion.field.key first = criterion.field.key second := by
  obtain ⟨field, order⟩ := criterion
  rcases order with _ | _ | _
  · exact le_antisymm h h'
  · exact le_antisymm h h'
  · exact le_antisymm h' h

end SortCriterion

/-- Whether one result at its place comes before another one: by the first criterion in which their keys differ, and by
the places if there is none. -/
def ComesBefore : List SortCriterion → SearchResult × Nat → SearchResult × Nat → Prop
  | [], first, second => first.2 < second.2
  | criterion :: later, first, second =>
    criterion.InOrder first.1 second.1 ∧
      (criterion.field.key first.1 = criterion.field.key second.1 → ComesBefore later first second)

theorem ComesBefore.asymm {criteria : List SortCriterion} {first second : SearchResult × Nat}
    (h : ComesBefore criteria first second) : ¬ ComesBefore criteria second first := by
  induction criteria with
  | nil => exact Nat.lt_asymm h
  | cons criterion criteria ih =>
      intro h'
      have hkey := criterion.key_eq_of_inOrder h.1 h'.1
      exact ih (h.2 hkey) (h'.2 hkey.symm)

/-- Whether a list has the results of another one, each of them once for every place that it has there, in the order
that the criteria give them at these places. -/
def IsRanking (criteria : List SortCriterion) (results sorted : List SearchResult) : Prop :=
  ∃ placed : List (SearchResult × Nat),
    placed.Perm results.zipIdx ∧ placed.Pairwise (ComesBefore criteria) ∧ sorted = placed.map Prod.fst

namespace IsRanking

variable {criteria : List SortCriterion} {results sorted : List SearchResult}

theorem perm (h : IsRanking criteria results sorted) : sorted.Perm results := by
  obtain ⟨placed, hperm, _, rfl⟩ := h
  have hresults := hperm.map Prod.fst
  rwa [List.zipIdx_map_fst] at hresults

theorem pairwise {criterion : SortCriterion} (h : IsRanking (criterion :: criteria) results sorted) :
    sorted.Pairwise criterion.InOrder := by
  obtain ⟨placed, _, hplaced, rfl⟩ := h
  exact List.pairwise_map.mpr (hplaced.imp And.left)

theorem unique {sorted' : List SearchResult} (h : IsRanking criteria results sorted)
    (h' : IsRanking criteria results sorted') : sorted = sorted' := by
  obtain ⟨placed, hperm, hplaced, rfl⟩ := h
  obtain ⟨placed', hperm', hplaced', rfl⟩ := h'
  have heq : placed = placed' :=
    List.Perm.eq_of_pairwise (fun _ _ _ _ hbefore hbehind => (hbefore.asymm hbehind).elim) hplaced hplaced'
      (hperm.trans hperm'.symm)
  rw [heq]

end IsRanking

theorem isRanking_nil (results : List SearchResult) : IsRanking [] results results := by
  refine ⟨results.zipIdx, List.Perm.refl _, ?_, (List.zipIdx_map_fst 0 results).symm⟩
  rw [List.pairwise_iff_getElem]
  intro i j hi hj hij
  rw [List.getElem_zipIdx, List.getElem_zipIdx]
  change 0 + i < 0 + j
  omega

/-- What holds of each element and all behind it still holds, when they are sorted, of those that are level. -/
theorem pairwise_mergeSort_of_pairwise {α : Type} {le : α → α → Bool} {R : α → α → Prop} {l : List α}
    (htrans : ∀ a b c, le a b → le b c → le a c) (htotal : ∀ a b, le a b || le b a) (h : l.Pairwise R) :
    (l.mergeSort le).Pairwise fun a b => le a b ∧ (le b a → R a b) := by
  induction l with
  | nil => simp
  | cons a l ih =>
      obtain ⟨ha, hl⟩ := List.pairwise_cons.mp h
      obtain ⟨before, behind, hcons, hsorted, hbefore⟩ := List.mergeSort_cons htrans htotal a l
      have hmem : ∀ b ∈ behind, b ∈ l := by
        intro b hb
        have hmem := List.mem_append_right before hb
        rw [← hsorted] at hmem
        exact List.mem_mergeSort.mp hmem
      have hin := List.pairwise_mergeSort htrans htotal (a :: l)
      rw [hcons] at hin ⊢
      replace ih := ih hl
      rw [hsorted] at ih
      obtain ⟨ihBefore, ihBehind, ihCross⟩ := List.pairwise_append.mp ih
      obtain ⟨_, hinBehind, hinCross⟩ := List.pairwise_append.mp hin
      refine List.pairwise_append.mpr ⟨ihBefore, List.pairwise_cons.mpr ⟨?_, ihBehind⟩, ?_⟩
      · intro b hb
        exact ⟨(List.pairwise_cons.mp hinBehind).1 b hb, fun _ => ha b (hmem b hb)⟩
      · intro b hb c hc
        rcases List.mem_cons.mp hc with rfl | hc
        · -- What stands before the new element is strictly smaller.
          refine ⟨hinCross b hb c List.mem_cons_self, fun hle => ?_⟩
          have hnot := hbefore b hb
          rw [hle] at hnot
          cases hnot
        · exact ihCross b hb c hc

/-- Sorting once more puts the new criterion in front of the others. -/
theorem IsRanking.sort {criteria : List SortCriterion} {results sorted : List SearchResult}
    (h : IsRanking criteria results sorted) (criterion : SortCriterion) :
    IsRanking (criterion :: criteria) results (criterion.sort sorted) := by
  obtain ⟨placed, hperm, hplaced, rfl⟩ := h
  let le (first second : SearchResult × Nat) : Bool :=
    criterion.field.precedes criterion.order first.1 second.1
  have htrans : ∀ a b c, le a b → le b c → le a c := fun a b c =>
    criterion.field.precedes_trans criterion.order a.1 b.1 c.1
  have htotal : ∀ a b, le a b || le b a := fun a b =>
    criterion.field.precedes_total criterion.order a.1 b.1
  refine ⟨placed.mergeSort le, (List.mergeSort_perm placed le).trans hperm, ?_, ?_⟩
  · refine (pairwise_mergeSort_of_pairwise htrans htotal hplaced).imp ?_
    rintro first second ⟨hle, hlater⟩
    refine ⟨(criterion.precedes_iff first.1 second.1).mp hle, fun hkey => ?_⟩
    exact hlater ((criterion.precedes_iff second.1 first.1).mpr (criterion.inOrder_of_key_eq hkey.symm))
  · have hmap : (placed.mergeSort le).map Prod.fst =
        (placed.map Prod.fst).mergeSort (criterion.field.precedes criterion.order) :=
      List.map_mergeSort fun _ _ _ _ => rfl
    rw [SortCriterion.sort, sortResults_some, hmap]

/-- Sorts by all criteria, by the last of them first. -/
def sortInTurn (criteria : List SortCriterion) (results : List SearchResult) : List SearchResult :=
  criteria.foldr SortCriterion.sort results

theorem isRanking_sortInTurn (criteria : List SortCriterion) (results : List SearchResult) :
    IsRanking criteria results (sortInTurn criteria results) := by
  induction criteria with
  | nil => exact isRanking_nil results
  | cons criterion criteria ih => exact ih.sort criterion

/-- Criteria leave a list in one order only, which is the one that sorting by all of them comes to. -/
theorem isRanking_iff {criteria : List SortCriterion} {results sorted : List SearchResult} :
    IsRanking criteria results sorted ↔ sorted = sortInTurn criteria results := by
  constructor
  · intro h
    exact h.unique (isRanking_sortInTurn criteria results)
  · rintro rfl
    exact isRanking_sortInTurn criteria results

/-- Results sorted by a field are those there were, with keys in order and with equal ones where they were, and sorting
by another field after that ranks by the later field, then by the earlier one, then by the places at first. Nothing else
is such a ranking. -/
theorem sortResults_ranks (results : List SearchResult) :
    (∀ order, sortResults none order results = results) ∧
      (∀ field order, (sortResults (some field) order results).Perm results ∧
        (sortResults (some field) order results).Pairwise (SortCriterion.InOrder ⟨field, order⟩) ∧
        ∀ sorted, IsRanking [⟨field, order⟩] results sorted ↔ sorted = sortResults (some field) order results) ∧
      ∀ field order later order' sorted, IsRanking [⟨later, order'⟩, ⟨field, order⟩] results sorted ↔
        sorted = sortResults (some later) order' (sortResults (some field) order results) := by
  refine ⟨fun _ => rfl, ?_, ?_⟩
  · intro field order
    have hranking := isRanking_sortInTurn [⟨field, order⟩] results
    exact ⟨hranking.perm, hranking.pairwise, fun sorted => isRanking_iff⟩
  · intro field order later order' sorted
    exact isRanking_iff

end MediaCatalog
