import MediaCatalog.Files.Walk
import Mathlib.Data.List.Basic
import Mathlib.Data.List.Nodup
import Mathlib.Data.List.Flatten
import Mathlib.Data.List.Perm.Basic

/-!
The order of names in lowercase, in which a directory is walked through. Entries whose names have the same lowercase
keep the order in which they were listed, so what is told of the entries one after the other depends on the listing if
there are two of them that tell something.
-/

namespace MediaCatalog.Files

open Text

namespace Entry

/-- Whether the name of an entry may stand before that of another one. -/
def nameLe (first second : Entry) : Bool :=
  lower first.name ≤ lower second.name

theorem nameLe_iff {first second : Entry} : nameLe first second ↔ lower first.name ≤ lower second.name :=
  decide_eq_true_iff

theorem nameLe_trans (first second third : Entry) : nameLe first second → nameLe second third → nameLe first third := by
  simp only [nameLe_iff]
  exact String.le_trans

theorem nameLe_total (first second : Entry) : nameLe first second || nameLe second first := by
  rw [Bool.or_eq_true, nameLe_iff, nameLe_iff]
  exact String.le_total _ _

theorem pairwise_nameLe_inOrder (entries : List Entry) :
    (inOrder entries).Pairwise fun first later => nameLe first later :=
  List.pairwise_mergeSort nameLe_trans nameLe_total entries

theorem inOrder_perm (entries : List Entry) : (inOrder entries).Perm entries :=
  List.mergeSort_perm entries nameLe

/-- Whether entries are others in the order of their names in lowercase, and those with the same lowercase in the order
in which they were listed. -/
structure IsInOrder (entries ordered : List Entry) : Prop where
  perm : ordered.Perm entries
  sorted : ordered.Pairwise fun first later => lower first.name ≤ lower later.name
  ties : ∀ lowercase, (ordered.filter fun entry => lower entry.name = lowercase) =
    entries.filter fun entry => lower entry.name = lowercase

theorem isInOrder_inOrder (entries : List Entry) : IsInOrder entries (inOrder entries) where
  perm := inOrder_perm entries
  sorted := (pairwise_nameLe_inOrder entries).imp nameLe_iff.mp
  ties lowercase := by
    have hlevel : (entries.filter fun entry => lower entry.name = lowercase).Pairwise fun first later =>
        nameLe first later := by
      refine List.pairwise_of_forall_mem_list fun first hfirst later hlater => nameLe_iff.mpr ?_
      simp only [List.mem_filter, decide_eq_true_eq] at hfirst hlater
      have heq : lower first.name = lower later.name := hfirst.2.trans hlater.2.symm
      exact heq ▸ String.le_refl _
    have hsublist := (List.sublist_mergeSort nameLe_trans nameLe_total hlevel List.filter_sublist).filter
      fun entry => decide (lower entry.name = lowercase)
    rw [List.filter_filter] at hsublist
    simp only [Bool.and_self] at hsublist
    exact (hsublist.eq_of_length ((inOrder_perm entries).filter _).length_eq.symm).symm

theorem inOrder_eq_of_perm {entries ordered : List Entry} (hperm : entries.Perm ordered)
    (h : ordered.Pairwise fun first later => lower first.name < lower later.name) : inOrder entries = ordered := by
  have hordered : ordered.Pairwise fun first later => nameLe first later :=
    h.imp fun hlt => nameLe_iff.mpr (Std.le_of_lt hlt)
  refine List.Perm.eq_of_pairwise (fun first second hfirst hsecond hle hle' => ?_) (pairwise_nameLe_inOrder entries)
    hordered ((inOrder_perm entries).trans hperm)
  have hnodup : (ordered.map fun entry => lower entry.name).Nodup := by
    refine List.pairwise_map.mpr (h.imp fun {first later} hlt heq => ?_)
    rw [heq] at hlt
    exact String.lt_irrefl _ hlt
  exact List.inj_on_of_nodup_map hnodup (hperm.mem_iff.mp ((inOrder_perm entries).mem_iff.mp hfirst)) hsecond
    (String.le_antisymm (nameLe_iff.mp hle) (nameLe_iff.mp hle'))

theorem inOrder_map {entries : List Entry} {change : Entry → Entry}
    (h : ∀ entry ∈ entries, (change entry).name = entry.name) :
    inOrder (entries.map change) = (inOrder entries).map change := by
  refine (List.map_mergeSort fun first hfirst second hsecond => ?_).symm
  rw [h first hfirst, h second hsecond]

variable {β : Type} {entries entries' : List Entry} {tell : Entry → List β}

theorem flatMap_filter_of_eq_nil {keep : Entry → Bool} (h : ∀ entry ∈ entries, keep entry = false → tell entry = []) :
    (entries.filter keep).flatMap tell = entries.flatMap tell := by
  induction entries with
  | nil => rfl
  | cons first rest ih =>
      obtain ⟨hfirst, hrest⟩ := List.forall_mem_cons.mp h
      rw [List.filter_cons, List.flatMap_cons, ← ih hrest]
      cases hkeep : keep first with
      | false => rw [hfirst hkeep, List.nil_append, if_neg Bool.false_ne_true]
      | true => rw [if_pos rfl, List.flatMap_cons]

/-- What is told of entries does not depend on the order in which they were listed if among those whose names have the
same lowercase at most one tells something. -/
theorem flatMap_inOrder_congr (hperm : entries.Perm entries')
    (h : ∀ first ∈ entries, ∀ second ∈ entries, lower first.name = lower second.name → tell first ≠ [] →
      tell second ≠ [] → first = second) :
    (inOrder entries).flatMap tell = (inOrder entries').flatMap tell := by
  have htelling : ∀ ordered : List Entry, (ordered.filter fun entry => !(tell entry).isEmpty).flatMap tell =
      ordered.flatMap tell :=
    fun ordered => flatMap_filter_of_eq_nil fun entry _ hkeep => by simpa using hkeep
  rw [← htelling, ← htelling (inOrder entries')]
  congr 1
  refine List.Perm.eq_of_pairwise (fun first second hfirst hsecond hle hle' => ?_)
    ((pairwise_nameLe_inOrder entries).filter _) ((pairwise_nameLe_inOrder entries').filter _)
    (((inOrder_perm entries).trans (hperm.trans (inOrder_perm entries').symm)).filter _)
  rw [List.mem_filter, Bool.not_eq_true', List.isEmpty_eq_false_iff, (inOrder_perm _).mem_iff] at hfirst hsecond
  exact h first hfirst.1 second (hperm.mem_iff.mpr hsecond.1)
    (String.le_antisymm (nameLe_iff.mp hle) (nameLe_iff.mp hle')) hfirst.2 hsecond.2

theorem pair_sublist_flatMap_inOrder {first second : Entry} (rest : List Entry) {x y : β}
    (hname : lower first.name = lower second.name) (hx : x ∈ tell first) (hy : y ∈ tell second) :
    [x, y].Sublist ((inOrder (first :: second :: rest)).flatMap tell) := by
  have hle : nameLe first second := nameLe_iff.mpr (hname ▸ String.le_refl _)
  have hpair : [first, second].Sublist (inOrder (first :: second :: rest)) :=
    List.pair_sublist_mergeSort nameLe_trans nameLe_total hle (List.sublist_append_left [first, second] rest)
  refine List.Sublist.trans ?_ (hpair.flatMap tell)
  rw [List.flatMap_cons, List.flatMap_singleton]
  exact (List.singleton_sublist.mpr hx).append (List.singleton_sublist.mpr hy)

/-- If two entries whose names have the same lowercase tell something, then what is told depends on which of them is
listed first. -/
theorem exists_perm_flatMap_inOrder_ne {first second : Entry} (hfirst : first ∈ entries) (hsecond : second ∈ entries)
    (hne : first ≠ second) (hname : lower first.name = lower second.name) (htell : tell first ≠ [])
    (htell' : tell second ≠ []) (hnodup : ((inOrder entries).flatMap tell).Nodup) :
    ∃ entries', entries.Perm entries' ∧ (inOrder entries').flatMap tell ≠ (inOrder entries).flatMap tell := by
  classical
  have hrest : second ∈ entries.erase first := (List.mem_erase_of_ne hne.symm).mpr hsecond
  have hperm : entries.Perm (first :: second :: (entries.erase first).erase second) :=
    (List.perm_cons_erase hfirst).trans ((List.perm_cons_erase hrest).cons first)
  obtain ⟨x, hx⟩ := List.exists_mem_of_ne_nil _ htell
  obtain ⟨y, hy⟩ := List.exists_mem_of_ne_nil _ htell'
  have hxy := pair_sublist_flatMap_inOrder ((entries.erase first).erase second) hname hx hy
  have hyx := pair_sublist_flatMap_inOrder ((entries.erase first).erase second) hname.symm hy hx
  have hswapped := hperm.trans (List.Perm.swap _ _ _)
  by_contra! hsame
  rw [hsame _ hperm] at hxy
  rw [hsame _ hswapped] at hyx
  -- What is told is told once, so it cannot stand in both orders.
  have heq : [x, y] = [y, x] := (hnodup.perm_iff_eq_of_sublist hxy hyx).mp (List.Perm.swap y x [])
  have hdistinct : x ≠ y := by simpa using hnodup.sublist hxy
  exact hdistinct (List.cons_eq_cons.mp heq).1

end Entry

end MediaCatalog.Files
