import MediaCatalog.Proofs.Files.Names
import MediaCatalog.Proofs.Files.Preorder

/-!
Trees whose directories list the same entries in different orders. Paths lead to the same places in both, whatever links
they go through.
-/

namespace MediaCatalog.Files

namespace Entry

/-- Whether an entry is another one whose directories list their entries in other orders. -/
inductive Relisted : Entry → Entry → Prop
  | file (name : String) (content : FileContent) : Relisted (.file name content) (.file name content)
  | link (name target : String) : Relisted (.link name target) (.link name target)
  | directory (name : String) (listable : Bool) {entries entries' : List Entry} (change : Entry → Entry)
      (inner : ∀ entry ∈ entries, Relisted entry (change entry)) (order : (entries.map change).Perm entries') :
      Relisted (.directory name listable entries) (.directory name listable entries')

namespace Relisted

variable {entry entry' : Entry}

theorem refl (entry : Entry) : Relisted entry entry :=
  match entry with
  | .file name content => .file name content
  | .link name target => .link name target
  | .directory name listable entries =>
    .directory name listable id (fun inner _ => refl inner) (by rw [List.map_id])
termination_by entry.weight
decreasing_by exact weight_lt_of_mem ‹_›

theorem name_eq (h : Relisted entry entry') : entry'.name = entry.name := by
  cases h <;> rfl

theorem isDirectory_eq (h : Relisted entry entry') : entry'.isDirectory = entry.isDirectory := by
  cases h <;> rfl

section Lookups

variable {found found' : Option Entry}

theorem eq_none (h : Option.Rel Relisted found found') (hfound : found = none) : found' = none := by
  subst hfound
  cases h
  rfl

theorem exists_eq_some {inner : Entry} (h : Option.Rel Relisted found found') (hfound : found = some inner) :
    ∃ inner', found' = some inner' ∧ Relisted inner inner' := by
  subst hfound
  cases h with
  | some h => exact ⟨_, rfl, h⟩

theorem any_isDirectory (h : Option.Rel Relisted found found') :
    found'.any Entry.isDirectory = found.any Entry.isDirectory := by
  cases h with
  | none => rfl
  | some h => exact h.isDirectory_eq

end Lookups

theorem names_perm (h : Relisted entry entry') :
    (entry'.entries.map Entry.name).Perm (entry.entries.map Entry.name) := by
  cases h with
  | file => rfl
  | link => rfl
  | directory name listable change inner order =>
      refine (order.map Entry.name).symm.trans ?_
      rw [map_name_map fun entry hentry => (inner entry hentry).name_eq]
      rfl

theorem wellNamed (h : Relisted entry entry') (hnamed : entry.WellNamed) : entry'.WellNamed := by
  induction h with
  | file => exact hnamed
  | link => exact hnamed
  | directory name listable change inner order ih =>
      have hnames := (names_perm (.directory name listable change inner order)).nodup_iff.mpr hnamed.nodup
      refine .directory name listable hnames fun entry hentry => ?_
      obtain ⟨old, hold, rfl⟩ := List.mem_map.mp (order.mem_iff.mpr hentry)
      exact ih old hold (hnamed.of_mem hold)

/-- A name leads to entries that are one another, or to none. -/
theorem find (h : Relisted entry entry') (hnamed : entry.WellNamed) (name : String) :
    Option.Rel Relisted (entry.find? name) (entry'.find? name) := by
  cases hfind : entry.find? name with
  | none =>
      rw [find_eq_none_iff, ← h.names_perm.mem_iff, ← find_eq_none_iff] at hfind
      rw [hfind]
      exact .none
  | some found =>
      have hnamed' := h.wellNamed hnamed
      cases h with
      | file => cases hfind
      | link => cases hfind
      | directory own listable change inner order =>
          obtain ⟨hmem, rfl⟩ := (find_eq_some_iff hnamed.nodup).mp hfind
          have hfound := order.mem_iff.mp (List.mem_map_of_mem hmem)
          rw [(find_eq_some_iff hnamed'.nodup).mpr ⟨hfound, (inner found hmem).name_eq⟩]
          exact .some (inner found hmem)

theorem at_names (h : Relisted entry entry') (hnamed : entry.WellNamed) (names : List String) :
    Option.Rel Relisted (entry.at? names) (entry'.at? names) := by
  induction names generalizing entry entry' with
  | nil =>
      rw [at_nil, at_nil]
      exact .some h
  | cons name names ih =>
      rw [at?, at?]
      cases hfind : entry.find? name with
      | none =>
          rw [eq_none (h.find hnamed name) hfind]
          exact .none
      | some inner =>
          obtain ⟨inner', hfind', hinner⟩ := exists_eq_some (h.find hnamed name) hfind
          rw [hfind']
          exact ih hinner (hnamed.of_mem (mem_entries_of_find hfind))

end Relisted

/-- An entry, or another one in the place of the one that has a name. -/
def exchange (name : String) (new entry : Entry) : Entry :=
  if entry.name = name then new else entry

theorem Relisted.exchange {entries : List Entry} {inner inner' : Entry} (hnodup : (entries.map Entry.name).Nodup)
    (hmem : inner ∈ entries) (h : Relisted inner inner') :
    ∀ entry ∈ entries, Relisted entry (Entry.exchange inner.name inner' entry) := by
  intro entry hentry
  rw [Entry.exchange]
  split_ifs with hname
  · rwa [eq_of_name_eq hnodup hentry hmem hname]
  · exact refl entry

theorem Relisted.exists_at {entry inner inner' : Entry} {names : List String} (hnamed : entry.WellNamed)
    (hat : entry.at? names = some inner) (h : Relisted inner inner') :
    ∃ entry', Relisted entry entry' ∧ entry'.at? names = some inner' := by
  induction names generalizing entry with
  | nil =>
      rw [at_nil, Option.some.injEq] at hat
      exact ⟨inner', hat ▸ h, at_nil inner'⟩
  | cons name names ih =>
      obtain ⟨found, hfind, hrest⟩ := at_cons_eq_some_iff.mp hat
      obtain ⟨hmem, rfl⟩ := (find_eq_some_iff hnamed.nodup).mp hfind
      obtain ⟨found', hfound, hat'⟩ := ih (hnamed.of_mem hmem) hrest
      cases entry with
      | file => cases hmem
      | link => cases hmem
      | directory own listable entries =>
          have hrelisted : Relisted (.directory own listable entries)
              (.directory own listable (entries.map (Entry.exchange found.name found'))) :=
            .directory own listable _ (Relisted.exchange hnamed.nodup hmem hfound) (List.Perm.refl _)
          refine ⟨_, hrelisted, at_cons_eq_some_iff.mpr ⟨found', ?_, hat'⟩⟩
          refine (find_eq_some_iff (hrelisted.wellNamed hnamed).nodup).mpr ⟨?_, hfound.name_eq⟩
          exact List.mem_map.mpr ⟨found, hmem, if_pos rfl⟩

end Entry

namespace FileTree

variable {tree tree' : FileTree}

theorem followFrom_relisted (h : tree.root.Relisted tree'.root) (hnamed : tree.root.WellNamed) (strict : Bool)
    (links : Nat) (trail parts : List String) :
    tree'.followFrom strict links trail parts = tree.followFrom strict links trail parts := by
  -- A link takes one from the number of links, and every other name one from the parts.
  induction links using Nat.strongRecOn generalizing trail parts with
  | ind links ihlinks =>
      induction parts generalizing trail with
      | nil => rw [followFrom, followFrom]
      | cons name rest ih =>
          have hdirectory := Entry.Relisted.any_isDirectory (h.at_names hnamed trail.reverse)
          have hbelow := h.at_names hnamed (trail.reverse ++ [name])
          rw [Entry.at_concat, Entry.at_concat] at hbelow
          rw [followFrom, followFrom, hdirectory, ih, ih]
          refine if_congr Iff.rfl rfl (if_congr Iff.rfl rfl ?_)
          generalize (tree.root.at? trail.reverse).bind (fun inner => inner.find? name) = below at hbelow
          generalize (tree'.root.at? trail.reverse).bind (fun inner => inner.find? name) = below' at hbelow
          cases hbelow with
          | none => rfl
          | some hfound =>
              cases hfound with
              | file => rfl
              | directory => rfl
              | link =>
                  cases links with
                  | zero => rfl
                  | succ links => exact ihlinks links (Nat.lt_succ_self links) _ _

theorem follow_relisted (h : tree.root.Relisted tree'.root) (hnamed : tree.root.WellNamed) (strict : Bool)
    (path : FilePath) : tree'.follow strict path = tree.follow strict path :=
  followFrom_relisted h hnamed strict maxLinks [] path.parts

theorem find_relisted (h : tree.root.Relisted tree'.root) (hnamed : tree.root.WellNamed) {path : FilePath}
    {entry : Entry} (hfind : tree.find path = .ok entry) :
    ∃ entry', tree'.find path = .ok entry' ∧ entry.Relisted entry' := by
  obtain ⟨parts, hfollow, hat⟩ := find_eq_ok_iff.mp hfind
  obtain ⟨entry', hat', hentry⟩ := Entry.Relisted.exists_eq_some (h.at_names hnamed parts) hat
  exact ⟨entry', find_eq_ok_iff.mpr ⟨parts, (follow_relisted h hnamed true path).trans hfollow, hat'⟩, hentry⟩

theorem find_fault_relisted (h : tree.root.Relisted tree'.root) (hnamed : tree.root.WellNamed) {path : FilePath}
    {fault : FileFault} (hfind : tree.find path = .error fault) : tree'.find path = .error fault := by
  refine Except.bind_eq_error_iff.mpr ?_
  rw [follow_relisted h hnamed]
  rcases Except.bind_eq_error_iff.mp hfind with hfollow | ⟨parts, hfollow, hparts⟩
  · exact .inl hfollow
  · refine .inr ⟨parts, hfollow, ?_⟩
    cases hat : tree.root.at? parts with
    | some entry =>
        rw [hat] at hparts
        cases hparts
    | none =>
        rw [hat] at hparts
        rw [Entry.Relisted.eq_none (h.at_names hnamed parts) hat]
        exact hparts

theorem exists_find (hnamed : tree.root.WellNamed) {path : FilePath} {entry entry' : Entry}
    (hfind : tree.find path = .ok entry) (h : entry.Relisted entry') :
    ∃ tree' : FileTree, tree.root.Relisted tree'.root ∧ tree'.find path = .ok entry' := by
  obtain ⟨parts, hfollow, hat⟩ := find_eq_ok_iff.mp hfind
  obtain ⟨root', hroot, hat'⟩ := Entry.Relisted.exists_at hnamed hat h
  have hsame : (FileTree.mk root').follow true path = tree.follow true path := follow_relisted hroot hnamed true path
  exact ⟨⟨root'⟩, hroot, find_eq_ok_iff.mpr ⟨parts, hsame.trans hfollow, hat'⟩⟩

end FileTree

end MediaCatalog.Files
