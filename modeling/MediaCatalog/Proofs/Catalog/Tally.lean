import MediaCatalog.Catalog.Tables
import Mathlib.Algebra.GroupWithZero.Nat
import Mathlib.Data.String.Basic
import Mathlib.Tactic.Common

/-!
Counts by label. A tally has one entry for each label that occurs, with the number of times it does.
-/

namespace MediaCatalog.Catalog

/-- Whether entries stand in the strict order of their labels. -/
def LabelsAscending (counts : List LabelCount) : Prop :=
  counts.Pairwise fun first second => first.label < second.label

/-- What the entries of a label count together. -/
def countOf (label : String) : List LabelCount → Nat
  | [] => 0
  | entry :: counts => (if entry.label = label then entry.count else 0) + countOf label counts

variable {label : String} {counts : List LabelCount} {entry : LabelCount}

theorem countOf_eq_zero (h : ∀ entry ∈ counts, entry.label ≠ label) : countOf label counts = 0 := by
  induction counts with
  | nil => rfl
  | cons first rest ih =>
      rw [countOf, if_neg (h first List.mem_cons_self), ih fun entry hentry => h entry (List.mem_cons_of_mem _ hentry)]

theorem countOf_addLabel (label added : String) (counts : List LabelCount) :
    countOf label (addLabel added counts) = (if added = label then 1 else 0) + countOf label counts := by
  induction counts with
  | nil => rfl
  | cons first rest ih =>
      by_cases hlt : added < first.label
      · rw [addLabel, if_pos hlt, countOf]
      by_cases heq : added = first.label
      · rw [addLabel, if_neg hlt, if_pos heq, countOf, countOf, heq]
        dsimp only
        split_ifs <;> omega
      · rw [addLabel, if_neg hlt, if_neg heq, countOf, countOf, ih, Nat.add_left_comm]

theorem mem_label_addLabel {added : String} :
    label ∈ (addLabel added counts).map LabelCount.label ↔ label = added ∨ label ∈ counts.map LabelCount.label := by
  induction counts with
  | nil => simp [addLabel]
  | cons first rest ih =>
      rw [addLabel]
      split_ifs with hlt heq
      · simp
      · simp [heq]
      · rw [List.map_cons, List.mem_cons, ih, List.map_cons, List.mem_cons]
        exact or_left_comm

theorem labelsAscending_addLabel (label : String) (h : LabelsAscending counts) :
    LabelsAscending (addLabel label counts) := by
  induction counts with
  | nil => exact List.pairwise_singleton _ _
  | cons first rest ih =>
      obtain ⟨hfirst, hrest⟩ := List.pairwise_cons.mp h
      rw [addLabel]
      split_ifs with hlt heq
      · refine List.pairwise_cons.mpr ⟨?_, h⟩
        intro entry hentry
        rcases List.mem_cons.mp hentry with rfl | hentry
        · exact hlt
        · exact String.lt_trans hlt (hfirst entry hentry)
      · exact List.pairwise_cons.mpr ⟨hfirst, hrest⟩
      · refine List.pairwise_cons.mpr ⟨?_, ih hrest⟩
        intro entry hentry
        rcases mem_label_addLabel.mp (List.mem_map_of_mem hentry) with hlabel | hlabel
        · rw [hlabel]
          exact lt_of_le_of_ne (String.not_lt.mp hlt) (Ne.symm heq)
        · obtain ⟨old, hold, hlabel⟩ := List.mem_map.mp hlabel
          rw [← hlabel]
          exact hfirst old hold

theorem LabelsAscending.countOf_of_mem (h : LabelsAscending counts) (hentry : entry ∈ counts) :
    countOf entry.label counts = entry.count := by
  induction counts with
  | nil => exact absurd hentry List.not_mem_nil
  | cons first rest ih =>
      obtain ⟨hfirst, hrest⟩ := List.pairwise_cons.mp h
      rw [countOf]
      rcases List.mem_cons.mp hentry with rfl | hentry
      · rw [if_pos rfl, countOf_eq_zero fun other hother => ne_of_gt (hfirst other hother), Nat.add_zero]
      · rw [if_neg (ne_of_lt (hfirst entry hentry)), ih hrest hentry, Nat.zero_add]

theorem labelsAscending_tally (labels : List String) : LabelsAscending (tally labels) := by
  induction labels with
  | nil => exact List.Pairwise.nil
  | cons label labels ih => exact labelsAscending_addLabel label ih

theorem countOf_tally (label : String) (labels : List String) : countOf label (tally labels) = labels.count label := by
  induction labels with
  | nil => rfl
  | cons first labels ih =>
      change countOf label (addLabel first (tally labels)) = _
      rw [countOf_addLabel, ih, List.count_cons, Nat.add_comm]
      simp only [beq_iff_eq]

theorem count_of_mem_tally {labels : List String} (h : entry ∈ tally labels) :
    entry.count = labels.count entry.label := by
  rw [← countOf_tally, (labelsAscending_tally labels).countOf_of_mem h]

theorem sum_count_addLabel (label : String) (counts : List LabelCount) :
    ((addLabel label counts).map LabelCount.count).sum = (counts.map LabelCount.count).sum + 1 := by
  induction counts with
  | nil => rfl
  | cons first rest ih =>
      rw [addLabel]
      split_ifs
      · simp only [List.map_cons, List.sum_cons]
        omega
      · simp only [List.map_cons, List.sum_cons]
        omega
      · simp only [List.map_cons, List.sum_cons, ih]
        omega

theorem sum_count_tally (labels : List String) : ((tally labels).map LabelCount.count).sum = labels.length := by
  induction labels with
  | nil => rfl
  | cons label labels ih =>
      change ((addLabel label (tally labels)).map LabelCount.count).sum = _
      rw [sum_count_addLabel, ih, List.length_cons]

theorem mem_label_tally {labels : List String} : label ∈ (tally labels).map LabelCount.label ↔ label ∈ labels := by
  induction labels with
  | nil => rfl
  | cons first labels ih =>
      change label ∈ (addLabel first (tally labels)).map LabelCount.label ↔ _
      rw [mem_label_addLabel, ih, List.mem_cons]

theorem one_le_count_of_mem_tally {labels : List String} (h : entry ∈ tally labels) : 1 ≤ entry.count := by
  rw [count_of_mem_tally h, Nat.one_le_iff_ne_zero, ← Nat.pos_iff_ne_zero, List.count_pos_iff]
  exact mem_label_tally.mp (List.mem_map_of_mem h)

theorem count_eq_zero_of_tally {labels : List String} (h : ∀ entry ∈ tally labels, entry.label ≠ label) :
    labels.count label = 0 := by
  rw [← countOf_tally, countOf_eq_zero h]

end MediaCatalog.Catalog
