import MediaCatalog.Files.Tree
import MediaCatalog.Proofs.Outcomes
import Mathlib.Data.List.Basic
import Mathlib.Data.List.Nodup

/-!
Names and the paths that they lead to. In a tree whose directories name each entry once, names lead to one entry; that
is so in all trees that come about by putting entries at paths and taking them away.
-/

namespace MediaCatalog.Files

namespace FilePath

/-- The path that some names lead to from a path. -/
def descend (path : FilePath) (names : List String) : FilePath :=
  { path with parts := path.parts ++ names }

/-- The paths that a path leads through, without itself. -/
def parents (path : FilePath) : List FilePath :=
  (List.range path.parts.length).map fun n => { path with parts := path.parts.take n }

def parent (path : FilePath) : FilePath :=
  { path with parts := path.parts.dropLast }

theorem descend_nil (path : FilePath) : path.descend [] = path := by
  rw [descend, List.append_nil]

theorem descend_child (path : FilePath) (name : String) (names : List String) :
    (path.child name).descend names = path.descend (name :: names) := by
  simp [descend, child]

theorem descend_singleton (path : FilePath) (name : String) : path.descend [name] = path.child name :=
  rfl

theorem descend_injective {path : FilePath} {first second : List String}
    (h : path.descend first = path.descend second) : first = second :=
  List.append_cancel_left (congrArg FilePath.parts h)

theorem parent_descend (path : FilePath) {names : List String} (h : names ≠ []) :
    (path.descend names).parent = path.descend names.dropLast := by
  rw [descend, parent, List.dropLast_append_of_ne_nil h, descend]

theorem mem_parents_iff {path ancestor : FilePath} :
    ancestor ∈ path.parents ↔ path.isWithin ancestor ∧ ancestor ≠ path := by
  obtain ⟨root, parts⟩ := path
  obtain ⟨root', parts'⟩ := ancestor
  simp only [parents, isWithin, List.mem_map, List.mem_range, Bool.and_eq_true, decide_eq_true_eq,
    List.isPrefixOf_iff_prefix, mk.injEq, ne_eq, not_and]
  constructor
  · rintro ⟨n, hn, rfl, rfl⟩
    refine ⟨⟨rfl, List.take_prefix n parts⟩, fun _ heq => ?_⟩
    have hlength := congrArg List.length heq
    rw [List.length_take] at hlength
    omega
  · rintro ⟨⟨rfl, hfront⟩, hne⟩
    have hlength : parts'.length ≠ parts.length := fun heq => hne rfl (hfront.eq_of_length heq)
    exact ⟨parts'.length, by have := hfront.length_le; omega, rfl, (List.prefix_iff_eq_take.mp hfront).symm⟩

theorem mem_parents_descend {path : FilePath} {first second : List String} :
    path.descend first ∈ (path.descend second).parents ↔ first <+: second ∧ first ≠ second := by
  have hne : path.descend first ≠ path.descend second ↔ first ≠ second :=
    not_congr ⟨descend_injective, congrArg path.descend⟩
  rw [mem_parents_iff, hne, isWithin, descend, descend, decide_eq_true rfl, Bool.true_and, List.isPrefixOf_iff_prefix,
    List.prefix_append_right_inj]

end FilePath

/-- Whether the entries of every directory have names of their own. -/
inductive Entry.WellNamed : Entry → Prop
  | file (name : String) (content : FileContent) : WellNamed (.file name content)
  | link (name target : String) : WellNamed (.link name target)
  | directory (name : String) (listable : Bool) {entries : List Entry} (distinct : (entries.map Entry.name).Nodup)
      (inner : ∀ entry ∈ entries, WellNamed entry) : WellNamed (.directory name listable entries)

namespace Entry

variable {entry inner : Entry} {entries : List Entry} {name : String} {listable : Bool}

theorem eq_of_name_eq {first second : Entry} (h : (entries.map Entry.name).Nodup) (hfirst : first ∈ entries)
    (hsecond : second ∈ entries) (hname : first.name = second.name) : first = second :=
  List.inj_on_of_nodup_map h hfirst hsecond hname

theorem map_name_map {change : Entry → Entry} (h : ∀ entry ∈ entries, (change entry).name = entry.name) :
    (entries.map change).map Entry.name = entries.map Entry.name := by
  rw [List.map_map]
  exact List.map_congr_left h

theorem find_eq_none_iff : entry.find? name = none ↔ name ∉ entry.entries.map Entry.name := by
  simp [find?]

theorem find_eq_some_iff (h : (entry.entries.map Entry.name).Nodup) :
    entry.find? name = some inner ↔ inner ∈ entry.entries ∧ inner.name = name := by
  constructor
  · intro hfind
    exact ⟨mem_entries_of_find hfind, name_of_find hfind⟩
  · rintro ⟨hinner, rfl⟩
    cases hfind : entry.find? inner.name with
    | none => exact absurd (List.mem_map_of_mem hinner) (find_eq_none_iff.mp hfind)
    | some found => rw [eq_of_name_eq h (mem_entries_of_find hfind) hinner (name_of_find hfind)]

theorem at_nil (entry : Entry) : entry.at? [] = some entry := by
  rw [at?]

theorem at_concat (entry : Entry) (names : List String) (name : String) :
    entry.at? (names ++ [name]) = (entry.at? names).bind fun inner => inner.find? name := by
  induction names generalizing entry with
  | nil =>
      rw [at_nil, Option.bind_some, List.nil_append, at?]
      cases entry.find? name with
      | none => rfl
      | some inner => exact at_nil inner
  | cons first rest ih =>
      rw [List.cons_append, at?, at?]
      cases entry.find? first with
      | none => rfl
      | some inner => exact ih inner

theorem WellNamed.of_mem (h : entry.WellNamed) (hinner : inner ∈ entry.entries) : inner.WellNamed := by
  cases h with
  | file => cases hinner
  | link => cases hinner
  | directory _ _ _ h => exact h inner hinner

theorem WellNamed.nodup (h : entry.WellNamed) : (entry.entries.map Entry.name).Nodup := by
  cases h with
  | file => exact List.nodup_nil
  | link => exact List.nodup_nil
  | directory _ _ distinct _ => exact distinct

theorem WellNamed.of_at (h : entry.WellNamed) {names : List String} (hat : entry.at? names = some inner) :
    inner.WellNamed := by
  induction names generalizing entry with
  | nil =>
      rw [at_nil, Option.some.injEq] at hat
      rwa [← hat]
  | cons name names ih =>
      obtain ⟨first, hfind, hrest⟩ := at_cons_eq_some_iff.mp hat
      exact ih (h.of_mem (mem_entries_of_find hfind)) hrest

theorem wellNamed_directory (name : String) (listable : Bool) : (Entry.directory name listable entries).WellNamed ↔
    (entries.map Entry.name).Nodup ∧ ∀ entry ∈ entries, entry.WellNamed :=
  ⟨fun h => ⟨h.nodup, fun _ hentry => h.of_mem hentry⟩, fun h => .directory name listable h.1 h.2⟩

theorem wellNamed_emptyDirectory (name : String) : (emptyDirectory name).WellNamed :=
  .directory name true List.nodup_nil (by simp)

theorem map_name_putEntry (new : Entry) (entries : List Entry) : (putEntry new entries).map Entry.name =
    if new.name ∈ entries.map Entry.name then entries.map Entry.name else entries.map Entry.name ++ [new.name] := by
  induction entries with
  | nil => rfl
  | cons first rest ih =>
      rw [putEntry]
      by_cases hname : first.name = new.name
      · rw [if_pos hname, List.map_cons, List.map_cons, hname, if_pos List.mem_cons_self]
      · rw [if_neg hname, List.map_cons, List.map_cons, ih]
        simp only [List.mem_cons, Ne.symm hname, false_or]
        split_ifs <;> rfl

theorem mem_or_eq_of_mem_putEntry {new entry : Entry} {entries : List Entry} (h : entry ∈ putEntry new entries) :
    entry ∈ entries ∨ entry = new := by
  induction entries with
  | nil => exact .inr (List.mem_singleton.mp h)
  | cons first rest ih =>
      rw [putEntry] at h
      split_ifs at h
      · rcases List.mem_cons.mp h with rfl | hrest
        · exact .inr rfl
        · exact .inl (List.mem_cons_of_mem _ hrest)
      · rcases List.mem_cons.mp h with rfl | hrest
        · exact .inl List.mem_cons_self
        · exact (ih hrest).imp_left (List.mem_cons_of_mem _)

theorem WellNamed.putEntry {new : Entry} (h : (Entry.directory name listable entries).WellNamed)
    (hnew : new.WellNamed) : (Entry.directory name listable (Entry.putEntry new entries)).WellNamed := by
  refine .directory name listable ?_ fun entry hentry => ?_
  · rw [map_name_putEntry]
    split_ifs with hmem
    · exact h.nodup
    · exact List.concat_eq_append ▸ h.nodup.concat hmem
  · rcases mem_or_eq_of_mem_putEntry hentry with hentry | rfl
    · exact h.of_mem hentry
    · exact hnew

theorem WellNamed.put {new : Entry} (h : entry.WellNamed) (hnew : new.WellNamed) (path : List String) :
    (entry.put path new).WellNamed := by
  induction path generalizing entry with
  | nil =>
      unfold put
      split
      · rename_i listable name old entries
        exact .directory name listable h.nodup fun inner hinner => h.of_mem hinner
      · exact hnew
  | cons name rest ih =>
      cases h with
      | file => exact .file _ _
      | link => exact .link _ _
      | directory own listable distinct inner =>
          rename_i entries
          rw [put]
          refine WellNamed.putEntry (.directory own listable distinct inner) (ih ?_)
          cases hfind : (Entry.directory own listable entries).find? name with
          | none => exact wellNamed_emptyDirectory name
          | some found => exact inner found (mem_entries_of_find hfind)

theorem WellNamed.map {change : Entry → Entry} (h : (Entry.directory name listable entries).WellNamed)
    (hname : ∀ entry ∈ entries, (change entry).name = entry.name)
    (hchange : ∀ entry ∈ entries, (change entry).WellNamed) :
    (Entry.directory name listable (entries.map change)).WellNamed := by
  refine .directory name listable ?_ (List.forall_mem_map.mpr hchange)
  rw [map_name_map hname]
  exact h.nodup

theorem name_remove (path : List String) (entry : Entry) : (entry.remove path).name = entry.name := by
  unfold remove
  split <;> rfl

theorem WellNamed.remove (h : entry.WellNamed) (path : List String) : (entry.remove path).WellNamed := by
  induction path generalizing entry with
  | nil => rwa [remove]
  | cons name rest ih =>
      cases h with
      | file => cases rest <;> exact .file _ _
      | link => cases rest <;> exact .link _ _
      | directory own listable distinct inner =>
          rename_i entries
          cases rest with
          | nil =>
              rw [remove]
              exact .directory own listable (distinct.sublist (List.filter_sublist.map _)) fun entry hentry =>
                inner entry (List.mem_filter.mp hentry).1
          | cons next rest =>
              have hnamed : (Entry.directory own listable entries).WellNamed := .directory own listable distinct inner
              rw [remove]
              · refine hnamed.map (fun entry _ => ?_) fun entry hentry => ?_
                · split_ifs
                  · exact name_remove _ entry
                  · rfl
                · split_ifs
                  · exact ih (inner entry hentry)
                  · exact inner entry hentry
              · exact List.cons_ne_nil next rest

end Entry

namespace FileTree

variable {tree : FileTree}

theorem find_eq_ok_iff {path : FilePath} {entry : Entry} : tree.find path = .ok entry ↔
    ∃ parts, tree.follow true path = .ok parts ∧ tree.root.at? parts = some entry := by
  refine Except.bind_eq_ok_iff.trans (exists_congr fun parts => and_congr_right fun _ => ?_)
  cases tree.root.at? parts <;> simp

theorem find_root (tree : FileTree) (first : Root) : tree.find ⟨first, []⟩ = .ok tree.root := by
  refine find_eq_ok_iff.mpr ⟨[], ?_, Entry.at_nil _⟩
  rw [follow, followFrom, List.reverse_nil]

theorem wellNamed_find (h : tree.root.WellNamed) {path : FilePath} {entry : Entry}
    (hfind : tree.find path = .ok entry) : entry.WellNamed := by
  obtain ⟨parts, -, hat⟩ := find_eq_ok_iff.mp hfind
  exact h.of_at hat

theorem wellNamed_empty : empty.root.WellNamed :=
  Entry.wellNamed_emptyDirectory ""

theorem wellNamed_put (h : tree.root.WellNamed) {new : Entry} (hnew : new.WellNamed) (path : FilePath) :
    (tree.put path new).root.WellNamed := by
  unfold put
  dsimp only
  split
  · exact h.put hnew _
  · exact h

theorem wellNamed_remove (h : tree.root.WellNamed) (path : FilePath) : (tree.remove path).root.WellNamed := by
  unfold remove
  split
  · exact h.remove _
  · exact h

theorem wellNamed_write (h : tree.root.WellNamed) {path : FilePath} {bytes : ByteArray} {tree' : FileTree}
    (hwrite : tree.write path bytes = .ok tree') : tree'.root.WellNamed := by
  obtain ⟨parts, -, hparts⟩ := Except.bind_eq_ok_iff.mp hwrite
  split at hparts
  · cases hparts
  · split at hparts
    · cases hparts
    · split_ifs at hparts
      exact Except.ok.inj hparts ▸ h.put (.file _ _) _
  · cases hparts

end FileTree

end MediaCatalog.Files
