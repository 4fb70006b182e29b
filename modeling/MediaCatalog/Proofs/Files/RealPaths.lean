import MediaCatalog.Proofs.Files.Names

/-!
Real paths. A path without links and without `..` is its own real path, and no other path is: what is found by following
links is such a path. So all paths on the way to a real path are real.
-/

namespace MediaCatalog.Files

theorem FilePath.isWithin_iff {path ancestor : FilePath} :
    path.isWithin ancestor ↔ path.root = ancestor.root ∧ ancestor.parts <+: path.parts := by
  rw [isWithin, Bool.and_eq_true, decide_eq_true_eq, List.isPrefixOf_iff_prefix]

theorem Entry.at_append (entry : Entry) (front names : List String) :
    entry.at? (front ++ names) = (entry.at? front).bind fun inner => inner.at? names := by
  induction front generalizing entry with
  | nil => rw [List.nil_append, at_nil, Option.bind_some]
  | cons name front ih =>
      rw [List.cons_append, at?, at?]
      cases entry.find? name with
      | none => rfl
      | some inner => exact ih inner

namespace FileTree

variable {tree : FileTree}

/-- Whether no name on a way from the root is `..` or belongs to a link. -/
def IsStraight (tree : FileTree) (parts : List String) : Prop :=
  ∀ front name, front ++ [name] <+: parts →
    name ≠ ".." ∧ ∀ own target, tree.root.at? (front ++ [name]) ≠ some (.link own target)

theorem isStraight_nil : tree.IsStraight [] := by
  intro front name hfront
  exact absurd (List.prefix_nil.mp hfront) (by simp)

theorem IsStraight.of_prefix {front parts : List String} (h : tree.IsStraight parts) (hfront : front <+: parts) :
    tree.IsStraight front :=
  fun first name hfirst => h first name (hfirst.trans hfront)

theorem isStraight_concat_iff {parts : List String} {name : String} : tree.IsStraight (parts ++ [name]) ↔
    tree.IsStraight parts ∧ name ≠ ".." ∧ ∀ own target, tree.root.at? (parts ++ [name]) ≠ some (.link own target) := by
  constructor
  · intro h
    exact ⟨h.of_prefix (List.prefix_append _ _), h parts name List.prefix_rfl⟩
  · rintro ⟨h, hname⟩ front name' hfront
    rcases List.prefix_concat_iff.mp hfront with heq | hfront
    · obtain ⟨rfl, hsingle⟩ := List.append_inj' heq rfl
      obtain rfl := List.singleton_inj.mp hsingle
      exact hname
    · exact h front name' hfront

theorem resolveFrom_link {followed : List (List String)} {trail rest : List String} {name own target : String}
    (hup : name ≠ "..") (hlink : tree.root.at? (name :: trail).reverse = some (.link own target)) :
    tree.resolveFrom followed trail (name :: rest) =
      if (name :: trail).reverse ∈ followed then .error .tooManyLinks
      else (tree.resolveFrom ((name :: trail).reverse :: followed)
        (if (FilePath.ofString target).root = .relative then trail else []) (FilePath.ofString target).parts).bind
          fun found => tree.resolveFrom followed found.reverse rest := by
  rw [resolveFrom, if_neg hup]
  split
  · rename_i own' target' hlink'
    obtain ⟨rfl, rfl⟩ := Entry.link.inj (Option.some.inj (hlink.symm.trans hlink'))
    rfl
  · rename_i hother
    exact absurd hlink (hother own target)

theorem resolveFrom_of_ne_link {followed : List (List String)} {trail rest : List String} {name : String}
    (hup : name ≠ "..") (hlink : ∀ own target, tree.root.at? (name :: trail).reverse ≠ some (.link own target)) :
    tree.resolveFrom followed trail (name :: rest) = tree.resolveFrom followed (name :: trail) rest := by
  rw [resolveFrom, if_neg hup]
  split
  · rename_i own target heq
    exact absurd heq (hlink own target)
  · rfl

theorem resolveFrom_of_isStraight {followed : List (List String)} {trail parts : List String}
    (h : tree.IsStraight (trail.reverse ++ parts)) :
    tree.resolveFrom followed trail parts = .ok (trail.reverse ++ parts) := by
  induction parts generalizing trail with
  | nil => rw [resolveFrom, List.append_nil]
  | cons name rest ih =>
      have hsplit : trail.reverse ++ name :: rest = (name :: trail).reverse ++ rest := by simp
      obtain ⟨hname, hlink⟩ := h trail.reverse name (by simp)
      rw [← List.reverse_cons] at hlink
      rw [hsplit] at h ⊢
      rw [resolveFrom_of_ne_link hname hlink]
      exact ih h

theorem eq_of_followFrom_of_isStraight {links : Nat} {trail parts result : List String}
    (h : tree.IsStraight (trail.reverse ++ parts)) (hfollow : tree.followFrom true links trail parts = .ok result) :
    result = trail.reverse ++ parts := by
  induction parts generalizing trail with
  | nil =>
      rw [followFrom] at hfollow
      rw [List.append_nil, Except.ok.inj hfollow]
  | cons name rest ih =>
      have hsplit : trail.reverse ++ name :: rest = (name :: trail).reverse ++ rest := by simp
      obtain ⟨hname, hlink⟩ := h trail.reverse name (by simp)
      rw [Entry.at_concat] at hlink
      rw [hsplit] at h ⊢
      rw [followFrom] at hfollow
      dsimp only at hfollow
      rw [if_neg hname] at hfollow
      by_cases hhere : (true && !(tree.root.at? trail.reverse).any Entry.isDirectory) = true
      · rw [if_pos hhere] at hfollow
        cases hfollow
      · rw [if_neg hhere] at hfollow
        split at hfollow
        · rename_i own target heq
          exact absurd heq (hlink own target)
        · cases hfollow
        · exact ih h hfollow

theorem isStraight_of_resolveFrom {followed : List (List String)} {trail parts result : List String}
    (h : tree.IsStraight trail.reverse) (hresolve : tree.resolveFrom followed trail parts = .ok result) :
    tree.IsStraight result := by
  induction followed, trail, parts using resolveFrom.induct tree generalizing result with
  | case1 followed trail =>
      rw [resolveFrom] at hresolve
      rwa [← Except.ok.inj hresolve]
  | case2 followed trail rest ih =>
      rw [resolveFrom, if_pos rfl] at hresolve
      refine ih (h.of_prefix ?_) hresolve
      rw [← List.dropLast_reverse]
      exact List.dropLast_prefix _
  | case3 followed trail name rest hup own target hlink hmem =>
      rw [resolveFrom_link hup hlink, if_pos hmem] at hresolve
      cases hresolve
  | case4 followed trail name rest hup own target hlink hnew path start ihtarget =>
      rename_i ihrest
      have hstart : tree.IsStraight start.reverse := by
        unfold start
        split_ifs
        · exact h
        · exact isStraight_nil
      rw [resolveFrom_link hup hlink, if_neg hnew] at hresolve
      obtain ⟨found, htarget, hfound⟩ := Except.bind_eq_ok_iff.mp hresolve
      refine ihrest found ?_ hfound
      rw [List.reverse_reverse]
      exact ihtarget hstart htarget
  | case5 followed trail name rest hup hother ih =>
      rw [resolveFrom_of_ne_link hup hother] at hresolve
      rw [List.reverse_cons] at ih hother
      exact ih (isStraight_concat_iff.mpr ⟨h, hup, hother⟩) hresolve

/-- Whether a path is its own real path. -/
def IsReal (tree : FileTree) (path : FilePath) : Prop :=
  tree.realPath path = .ok path

theorem isReal_iff {path : FilePath} : tree.IsReal path ↔ path.root = .slash ∧ tree.IsStraight path.parts := by
  rw [IsReal, realPath, Except.map_eq_ok_iff]
  constructor
  · rintro ⟨parts, hresolve, rfl⟩
    exact ⟨rfl, isStraight_of_resolveFrom isStraight_nil hresolve⟩
  · rintro ⟨hroot, hparts⟩
    refine ⟨path.parts, resolveFrom_of_isStraight hparts, ?_⟩
    rw [← hroot]

theorem isReal_of_realPath {path real : FilePath} (h : tree.realPath path = .ok real) : tree.IsReal real := by
  obtain ⟨parts, hresolve, rfl⟩ := Except.map_eq_ok_iff.mp h
  exact isReal_iff.mpr ⟨rfl, isStraight_of_resolveFrom isStraight_nil hresolve⟩

theorem IsReal.of_isWithin {path ancestor : FilePath} (h : tree.IsReal path) (hwithin : path.isWithin ancestor) :
    tree.IsReal ancestor := by
  obtain ⟨hroot, hparts⟩ := isReal_iff.mp h
  obtain ⟨hsame, hprefix⟩ := FilePath.isWithin_iff.mp hwithin
  exact isReal_iff.mpr ⟨hsame ▸ hroot, hparts.of_prefix hprefix⟩

theorem at_of_find_of_isReal {path : FilePath} {entry : Entry} (h : tree.IsReal path)
    (hfind : tree.find path = .ok entry) : tree.root.at? path.parts = some entry := by
  obtain ⟨parts, hfollow, hat⟩ := find_eq_ok_iff.mp hfind
  rwa [eq_of_followFrom_of_isStraight (isReal_iff.mp h).2 hfollow] at hat

end FileTree

end MediaCatalog.Files
