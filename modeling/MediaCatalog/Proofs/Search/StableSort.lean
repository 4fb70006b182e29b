import MediaCatalog.Search.Sort
import Mathlib.Data.List.Basic
import Mathlib.Tactic.Common

/-!
Sorting search results. The sorted list is a permutation that is in order, and among results that are level
with each other in the field it keeps the order there was, in both directions. These determine it.
-/

namespace MediaCatalog

namespace SortField

variable (field : SortField)

theorem le_trans (first second third : SearchResult) :
    field.le first second → field.le second third → field.le first third := by
  cases field <;> simp only [le, decide_eq_true_eq]
  · exact Int.le_trans
  · exact String.le_trans
  · exact String.le_trans
  · exact String.le_trans

theorem le_total (first second : SearchResult) : field.le first second || field.le second first := by
  cases field <;> simp only [le, Bool.or_eq_true, decide_eq_true_eq]
  · exact Int.le_total _ _
  · exact String.le_total _ _
  · exact String.le_total _ _
  · exact String.le_total _ _

/-- Whether one result may stand before another one. -/
def precedes (order : Option SortOrder) (first second : SearchResult) : Bool :=
  if order = some .descending then field.le second first else field.le first second

/-- Whether neither of two results has to stand before the other one. -/
def level (first second : SearchResult) : Bool :=
  field.le first second && field.le second first

variable (order : Option SortOrder)

theorem precedes_trans (first second third : SearchResult) :
    field.precedes order first second → field.precedes order second third →
      field.precedes order first third := by
  unfold precedes
  split_ifs
  · exact fun hfirst hsecond => field.le_trans _ _ _ hsecond hfirst
  · exact field.le_trans _ _ _

theorem precedes_total (first second : SearchResult) :
    field.precedes order first second || field.precedes order second first := by
  unfold precedes
  split_ifs
  · exact field.le_total second first
  · exact field.le_total first second

theorem precedes_of_level {first second third : SearchResult} (hfirst : field.level first third)
    (hsecond : field.level second third) : field.precedes order first second := by
  simp only [level, Bool.and_eq_true] at hfirst hsecond
  unfold precedes
  split_ifs
  · exact field.le_trans _ _ _ hsecond.1 hfirst.2
  · exact field.le_trans _ _ _ hfirst.1 hsecond.2

theorem level_of_precedes {first second : SearchResult} (h : field.precedes order first second)
    (h' : field.precedes order second first) : field.level second first := by
  rw [level, Bool.and_eq_true]
  by_cases horder : order = some .descending
  · rw [precedes, if_pos horder] at h h'
    exact ⟨h, h'⟩
  · rw [precedes, if_neg horder] at h h'
    exact ⟨h', h⟩

end SortField

/-- Whether one list is the other one sorted by a field, results that are level in their old order. -/
def IsStableSort (order : Option SortOrder) (results sorted : List SearchResult) :
    Option SortField → Prop
  | none => sorted = results
  | some field =>
    sorted.Perm results ∧ sorted.Pairwise (fun first second => field.precedes order first second) ∧
      ∀ result, sorted.filter (field.level · result) = results.filter (field.level · result)

theorem sortResults_some (field : SortField) (order : Option SortOrder) (results : List SearchResult) :
    sortResults (some field) order results = results.mergeSort (field.precedes order) := by
  rcases order with _ | _ | _ <;> rfl

theorem length_sortResults (field : Option SortField) (order : Option SortOrder) (results : List SearchResult) :
    (sortResults field order results).length = results.length := by
  cases field with
  | none => rfl
  | some field => rw [sortResults_some, List.length_mergeSort]

theorem isStableSort_sortResults (field : Option SortField) (order : Option SortOrder)
    (results : List SearchResult) :
    IsStableSort order results (sortResults field order results) field := by
  cases field with
  | none => rfl
  | some field =>
      have htrans := field.precedes_trans order
      have htotal := field.precedes_total order
      have hperm := List.mergeSort_perm results (field.precedes order)
      rw [sortResults_some]
      refine ⟨hperm, List.pairwise_mergeSort htrans htotal results, ?_⟩
      intro result
      -- Results that are level are in order however they stand, so sorting keeps them as a sublist.
      have hlevel : (results.filter (field.level · result)).Pairwise
          (fun first second => field.precedes order first second) := by
        apply List.pairwise_of_forall_mem_list
        intro first hfirst second hsecond
        exact field.precedes_of_level order (List.mem_filter.mp hfirst).2 (List.mem_filter.mp hsecond).2
      have hsublist := (List.sublist_mergeSort htrans htotal hlevel List.filter_sublist).filter
        (field.level · result)
      rw [List.filter_filter] at hsublist
      simp only [Bool.and_self] at hsublist
      exact (hsublist.eq_of_length (hperm.filter _).length_eq.symm).symm

theorem IsStableSort.unique {field : Option SortField} {order : Option SortOrder}
    {results sorted sorted' : List SearchResult} (h : IsStableSort order results sorted field)
    (h' : IsStableSort order results sorted' field) : sorted = sorted' := by
  cases field with
  | none => exact h.trans h'.symm
  | some field =>
      obtain ⟨hperm, hsorted, hlevel⟩ := h
      obtain ⟨hperm', hsorted', hlevel'⟩ := h'
      replace hperm := hperm.trans hperm'.symm
      replace hlevel := fun result => (hlevel result).trans (hlevel' result).symm
      clear hperm' hlevel'
      induction sorted generalizing sorted' with
      | nil => exact (List.nil_perm.mp hperm).symm
      | cons first rest ih =>
          cases sorted' with
          | nil => exact absurd hperm (by simp)
          | cons first' rest' =>
              have hself : field.level first first := by
                simpa [SortField.level] using field.le_total first first
              -- The first results of both lists may stand before each other, so they are level.
              have hfirst : first = first' := by
                by_contra hne
                have hmem : first ∈ rest' := (List.mem_cons.mp (hperm.subset List.mem_cons_self)).resolve_left hne
                have hmem' : first' ∈ rest :=
                  (List.mem_cons.mp (hperm.symm.subset List.mem_cons_self)).resolve_left (Ne.symm hne)
                have hbefore := (List.pairwise_cons.mp hsorted).1 first' hmem'
                have hbehind := (List.pairwise_cons.mp hsorted').1 first hmem
                have hboth := field.level_of_precedes order hbefore hbehind
                have hheads := hlevel first
                simp only [List.filter_cons, hself, hboth, if_true] at hheads
                exact hne (List.cons.inj hheads).1
              subst hfirst
              rw [ih (List.pairwise_cons.mp hsorted).2 (List.pairwise_cons.mp hsorted').2 hperm.cons_inv]
              intro result
              have hresult := hlevel result
              simp only [List.filter_cons] at hresult
              split_ifs at hresult with hlevelFirst
              · exact (List.cons.inj hresult).2
              · exact hresult

/-- There is one way to sort results by a field with those that are level in their old order. -/
theorem isStableSort_iff {field : Option SortField} {order : Option SortOrder} {results sorted : List SearchResult} :
    IsStableSort order results sorted field ↔ sorted = sortResults field order results := by
  constructor
  · intro h
    exact h.unique (isStableSort_sortResults field order results)
  · rintro rfl
    exact isStableSort_sortResults field order results

end MediaCatalog
