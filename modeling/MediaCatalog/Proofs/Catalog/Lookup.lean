import MediaCatalog.Proofs.Catalog.Reachable
import Mathlib.Data.Finset.Sort
import Mathlib.Data.List.Sort

/-!
What is found in the tables after a change: under the changed key the new row with the tags it was put with, and
under every other key what was found before.
-/

namespace MediaCatalog.Catalog

section Find

variable {row : AssetRow} {rows : List AssetRow} {key : String}

theorem find_cons_self (row : AssetRow) (rows : List AssetRow) :
    ((row :: rows).find? fun other => other.key = row.key) = some row :=
  List.find?_cons_of_pos (decide_eq_true rfl)

theorem find_cons_of_ne (h : row.key ≠ key) :
    ((row :: rows).find? fun other => other.key = key) = rows.find? fun other => other.key = key := by
  apply List.find?_cons_of_neg
  simpa using h

theorem Ascending.find_of_mem (h : Ascending rows) (hrow : row ∈ rows) :
    (rows.find? fun other => other.key = row.key) = some row := by
  induction rows with
  | nil => exact absurd hrow List.not_mem_nil
  | cons first rest ih =>
      obtain ⟨hfirst, hrest⟩ := List.pairwise_cons.mp h
      rcases List.mem_cons.mp hrow with rfl | hrow
      · exact find_cons_self row rest
      · rw [find_cons_of_ne (ne_of_lt (hfirst row hrow))]
        exact ih hrest hrow

end Find

namespace Tables

variable {t t' : Tables} {rows : List AssetRow}

theorem find_upsert_of_ne {new : AssetRow} {key : String} (hkey : new.key ≠ key) :
    ((upsert new rows).find? fun row => row.key = key) = rows.find? fun row => row.key = key := by
  induction rows with
  | nil => exact find_cons_of_ne hkey
  | cons first rest ih =>
      rw [upsert]
      split_ifs with hlt heq
      · exact find_cons_of_ne hkey
      · have hreplaced : { new with importDate := first.importDate }.key ≠ key := hkey
        rw [find_cons_of_ne hreplaced, find_cons_of_ne (heq ▸ hkey)]
      · rw [List.find?_cons, List.find?_cons, ih]

/-- The row that is put in place has the import date of the one that was there. -/
theorem find_upsert_self (new : AssetRow) (h : Ascending rows) :
    ((upsert new rows).find? fun row => row.key = new.key) =
      some { new with importDate :=
        ((rows.find? fun row => row.key = new.key).map AssetRow.importDate).getD new.importDate } := by
  induction rows with
  | nil => exact find_cons_self new []
  | cons first rest ih =>
      obtain ⟨hfirst, hrest⟩ := List.pairwise_cons.mp h
      rw [upsert]
      split_ifs with hlt heq
      · have hnone : ((first :: rest).find? fun row => row.key = new.key) = none := by
          rw [List.find?_eq_none]
          intro row hrow
          rw [decide_eq_true_eq]
          rcases List.mem_cons.mp hrow with rfl | hrow
          · exact ne_of_gt hlt
          · exact ne_of_gt (String.lt_trans hlt (hfirst row hrow))
        rw [hnone]
        exact find_cons_self new (first :: rest)
      · have hold : ((first :: rest).find? fun row => row.key = new.key) = some first := by
          rw [heq]
          exact find_cons_self first rest
        rw [hold]
        exact find_cons_self { new with importDate := first.importDate } rest
      · rw [find_cons_of_ne (Ne.symm heq), find_cons_of_ne (Ne.symm heq), ih hrest]

theorem exists_of_mem_upsert {new row : AssetRow} (h : Ascending rows) (hrow : row ∈ upsert new rows) :
    (∃ date, row = { new with importDate := date }) ∨ (row.key ≠ new.key ∧ row ∈ rows) := by
  have hfind := (ascending_upsert new h).find_of_mem hrow
  by_cases hkey : row.key = new.key
  · rw [hkey, find_upsert_self new h] at hfind
    exact .inl ⟨_, (Option.some.inj hfind).symm⟩
  · rw [find_upsert_of_ne (Ne.symm hkey)] at hfind
    exact .inr ⟨hkey, List.mem_of_find?_eq_some hfind⟩

theorem row_delete (t : Tables) (key other : String) :
    (t.delete key).row? other = if key = other then none else t.row? other := by
  rw [row?, delete, List.find?_filter]
  split_ifs with hkey
  · rw [List.find?_eq_none]
    rintro row _
    simp [hkey]
  · rw [row?]
    congr 1
    funext row
    by_cases hrow : row.key = other
    · simp [hrow, Ne.symm hkey]
    · simp [hrow]

end Tables

/-- The order of the rows: by key, and by tag where the keys are equal. -/
def TagRow.Before (first second : TagRow) : Prop :=
  first.assetKey < second.assetKey ∨ (first.assetKey = second.assetKey ∧ first.tag < second.tag)

namespace TagRow

theorem Before.trans {first second third : TagRow} (h : first.Before second) (h' : second.Before third) :
    first.Before third := by
  rcases h with h | ⟨hkey, h⟩
  · rcases h' with h' | ⟨hkey', _⟩
    · exact .inl (String.lt_trans h h')
    · exact .inl (hkey' ▸ h)
  · rcases h' with h' | ⟨hkey', h'⟩
    · exact .inl (hkey ▸ h')
    · exact .inr ⟨hkey.trans hkey', String.lt_trans h h'⟩

theorem before_of_not_before {first second : TagRow} (h : ¬ first.Before second) (hne : first ≠ second) :
    second.Before first := by
  rw [Before, not_or, not_and] at h
  rcases lt_trichotomy second.assetKey first.assetKey with hkey | hkey | hkey
  · exact .inl hkey
  · refine .inr ⟨hkey, lt_of_le_of_ne (String.not_lt.mp (h.2 hkey.symm)) ?_⟩
    intro htag
    apply hne
    cases first
    cases second
    exact congrArg₂ TagRow.mk hkey.symm htag.symm
  · exact absurd hkey h.1

end TagRow

namespace Tables

variable {t t' : Tables} {rows : List TagRow}

theorem mem_insertTag {new row : TagRow} : row ∈ insertTag new rows ↔ row = new ∨ row ∈ rows := by
  induction rows with
  | nil => simp [insertTag]
  | cons first rest ih =>
      rw [insertTag]
      split_ifs with hlt heq
      · exact List.mem_cons
      · rw [heq]
        simp
      · rw [List.mem_cons, ih, List.mem_cons]
        exact or_left_comm

theorem ordered_insertTag (new : TagRow) (h : rows.Pairwise TagRow.Before) :
    (insertTag new rows).Pairwise TagRow.Before := by
  induction rows with
  | nil => exact List.pairwise_singleton _ _
  | cons first rest ih =>
      obtain ⟨hfirst, hrest⟩ := List.pairwise_cons.mp h
      rw [insertTag]
      split_ifs with hbefore heq
      · refine List.pairwise_cons.mpr ⟨?_, h⟩
        intro row hrow
        rcases List.mem_cons.mp hrow with rfl | hrow
        · exact hbefore
        · exact TagRow.Before.trans hbefore (hfirst row hrow)
      · exact h
      · refine List.pairwise_cons.mpr ⟨?_, ih hrest⟩
        intro row hrow
        rcases mem_insertTag.mp hrow with rfl | hrow
        · exact TagRow.before_of_not_before hbefore heq
        · exact hfirst row hrow

theorem mem_insertTags {key : String} {tags : List String} {row : TagRow} :
    row ∈ tags.foldl (fun rows tag => insertTag ⟨key, tag⟩ rows) rows ↔
      (row.assetKey = key ∧ row.tag ∈ tags) ∨ row ∈ rows := by
  induction tags generalizing rows with
  | nil => simp
  | cons tag tags ih =>
      rw [List.foldl_cons, ih, mem_insertTag]
      obtain ⟨rowKey, rowTag⟩ := row
      simp only [TagRow.mk.injEq, List.mem_cons]
      tauto

theorem ordered_insertTags (key : String) (tags : List String) (h : rows.Pairwise TagRow.Before) :
    (tags.foldl (fun rows tag => insertTag ⟨key, tag⟩ rows) rows).Pairwise TagRow.Before := by
  induction tags generalizing rows with
  | nil => exact h
  | cons tag tags ih => exact ih (ordered_insertTag _ h)

theorem mem_tagsOf {key tag : String} : tag ∈ t.tagsOf key ↔ ⟨key, tag⟩ ∈ t.tags := by
  simp only [tagsOf, List.mem_map, List.mem_filter, decide_eq_true_eq]
  constructor
  · rintro ⟨row, ⟨hrow, rfl⟩, rfl⟩
    exact hrow
  · intro hrow
    exact ⟨⟨key, tag⟩, ⟨hrow, rfl⟩, rfl⟩

theorem ascending_tagsOf (h : t.tags.Pairwise TagRow.Before) (key : String) :
    (t.tagsOf key).Pairwise (· < ·) := by
  rw [tagsOf, List.pairwise_map]
  refine (h.sublist List.filter_sublist).imp_of_mem ?_
  intro first second hfirst hsecond hbefore
  have hfirst : first.assetKey = key := by simpa using (List.mem_filter.mp hfirst).2
  have hsecond : second.assetKey = key := by simpa using (List.mem_filter.mp hsecond).2
  rcases hbefore with hlt | ⟨_, hlt⟩
  · rw [hfirst, hsecond] at hlt
    exact absurd hlt (String.lt_irrefl key)
  · exact hlt

theorem tagsOf_eq_of_mem_iff (h : t.tags.Pairwise TagRow.Before) {key : String} {tags : List String}
    (htags : tags.Pairwise (· < ·)) (hmem : ∀ tag, ⟨key, tag⟩ ∈ t.tags ↔ tag ∈ tags) : t.tagsOf key = tags :=
  (ascending_tagsOf h key).eq_of_mem_iff htags fun tag => mem_tagsOf.trans (hmem tag)

theorem mem_dropTags {key : String} {row : TagRow} :
    row ∈ dropTags key rows ↔ row ∈ rows ∧ row.assetKey ≠ key := by
  simp [dropTags]

section Put

variable {row : AssetRow} {tags : List String}

theorem row_put_self (h : Ascending t.assets) (hput : t.put row tags = .ok t') :
    t'.row? row.key =
      some { row with importDate := ((t.row? row.key).map AssetRow.importDate).getD row.importDate } := by
  obtain ⟨_, hassets, _⟩ := put_eq_ok_iff.mp hput
  rw [row?, hassets]
  exact find_upsert_self row h

theorem row_put_of_ne (hput : t.put row tags = .ok t') {key : String} (hkey : key ≠ row.key) :
    t'.row? key = t.row? key := by
  obtain ⟨_, hassets, _⟩ := put_eq_ok_iff.mp hput
  rw [row?, hassets]
  exact find_upsert_of_ne hkey.symm

theorem ordered_put (h : t.tags.Pairwise TagRow.Before) (hput : t.put row tags = .ok t') :
    t'.tags.Pairwise TagRow.Before := by
  obtain ⟨_, _, htags⟩ := put_eq_ok_iff.mp hput
  rw [htags]
  exact ordered_insertTags _ _ (h.sublist List.filter_sublist)

theorem mem_tags_put (hput : t.put row tags = .ok t') {other : TagRow} :
    other ∈ t'.tags ↔ (other.assetKey = row.key ∧ other.tag ∈ tags) ∨
      (other ∈ t.tags ∧ other.assetKey ≠ row.key) := by
  obtain ⟨_, _, htags⟩ := put_eq_ok_iff.mp hput
  rw [htags, mem_insertTags, mem_dropTags]

theorem tagsOf_put_self (h : t.tags.Pairwise TagRow.Before) (hput : t.put row tags = .ok t') :
    t'.tagsOf row.key = tags.toFinset.sort := by
  refine tagsOf_eq_of_mem_iff (ordered_put h hput) (Finset.sortedLT_sort _).pairwise ?_
  intro tag
  rw [mem_tags_put hput, Finset.mem_sort, List.mem_toFinset]
  simp

theorem tagsOf_put_of_ne (h : t.tags.Pairwise TagRow.Before) (hput : t.put row tags = .ok t') {key : String}
    (hkey : key ≠ row.key) : t'.tagsOf key = t.tagsOf key := by
  refine tagsOf_eq_of_mem_iff (ordered_put h hput) (ascending_tagsOf h key) ?_
  intro tag
  rw [mem_tags_put hput, mem_tagsOf]
  simp [hkey]

end Put

theorem tagsOf_delete_of_ne (t : Tables) {key other : String} (hkey : key ≠ other) :
    (t.delete key).tagsOf other = t.tagsOf other := by
  rw [tagsOf, delete, dropTags, List.filter_filter, tagsOf]
  congr 1
  apply List.filter_congr
  intro row _
  by_cases hrow : row.assetKey = other
  · simp [hrow, Ne.symm hkey]
  · simp [hrow]

end Tables

end MediaCatalog.Catalog
