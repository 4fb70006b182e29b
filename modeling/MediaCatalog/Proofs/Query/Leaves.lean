import MediaCatalog.Proofs.Query.ParserCompleteness

/-!
The leaves of the constraint that a phrase stands for: they are the demands of its predicates in their order.
-/

namespace MediaCatalog.Query

namespace Constraint

/-- The constraints that no `and`, `or` or `not` makes up, from left to right. -/
def leaves : Constraint → List Constraint
  | and first second => first.leaves ++ second.leaves
  | or first second => first.leaves ++ second.leaves
  | not inner => inner.leaves
  | leaf => [leaf]

/-- The number of alternatives that were joined. -/
def orCount : Constraint → Nat
  | and first second => first.orCount + second.orCount
  | or first second => first.orCount + second.orCount + 1
  | not inner => inner.orCount
  | _ => 0

/-- A constraint that a predicate can make. -/
def IsDemand : Constraint → Prop
  | and _ _ | or _ _ | not _ | empty => False
  | _ => True

variable {c : Constraint}

theorem IsDemand.leaves_eq (h : c.IsDemand) : c.leaves = [c] := by
  cases c <;> first | rfl | exact h.elim

theorem IsDemand.orCount_eq (h : c.IsDemand) : c.orCount = 0 := by
  cases c <;> first | rfl | exact h.elim

theorem IsDemand.ne_empty (h : c.IsDemand) : c ≠ .empty := by
  rintro rfl
  exact h

@[simp] theorem leaves_negated (n : Nat) (c : Constraint) : (negated n c).leaves = c.leaves := by
  rw [negated]
  split <;> rfl

@[simp] theorem orCount_negated (n : Nat) (c : Constraint) : (negated n c).orCount = c.orCount := by
  rw [negated]
  split <;> rfl

end Constraint

theorem isDemand_of_singlePredicate {keyword : String} {build : String → Except QueryError Constraint}
    (hbuild : singlePredicate? keyword = some build) {value : String} {c : Constraint}
    (hvalue : build value = .ok c) : c.IsDemand := by
  unfold singlePredicate? at hbuild
  split at hbuild
  all_goals cases hbuild
  -- The dates come first; they alone can fail.
  · obtain ⟨date, _, rfl⟩ := Except.map_eq_ok_iff.mp hvalue
    trivial
  · obtain ⟨date, _, rfl⟩ := Except.map_eq_ok_iff.mp hvalue
    trivial
  all_goals
    cases hvalue
    trivial

theorem isDemand_of_locationPredicate {args : List String} {c : Constraint}
    (hargs : locationPredicate args = .ok c) : c.IsDemand := by
  unfold locationPredicate at hargs
  split at hargs
  · obtain ⟨⟩ := hargs
    trivial
  · obtain ⟨field, _, rfl⟩ := Except.map_eq_ok_iff.mp hargs
    trivial
  · exact absurd hargs (by simp)

theorem isDemand_of_buildPredicate {keyword : String} {args : List String} {c : Constraint}
    (hbuild : buildPredicate keyword args = .ok c) : c.IsDemand := by
  unfold buildPredicate at hbuild
  split at hbuild
  · exact isDemand_of_locationPredicate hbuild
  · split at hbuild
    · exact absurd hbuild (by simp)
    · rename_i hsingle
      exact isDemand_of_singlePredicate hsingle hbuild
    · exact absurd hbuild (by simp)

theorem Atom.isDemand {a : Atom} {c : Constraint} (h : a.build = .ok c) : c.IsDemand :=
  isDemand_of_buildPredicate h

/-- Whether all predicates make a demand. -/
def Buildable (atoms : List Atom) : Prop :=
  ∀ a ∈ atoms, ∃ c, a.build = .ok c

theorem buildable_append {first second : List Atom} :
    Buildable (first ++ second) ↔ Buildable first ∧ Buildable second := by
  simp only [Buildable, List.forall_mem_append]

theorem buildable_of_map_eq {atoms : List Atom} {leaves : List Constraint}
    (h : leaves.map .ok = atoms.map Atom.build) : Buildable atoms := by
  intro a ha
  obtain ⟨c, _, hc⟩ := List.mem_map.mp (h ▸ List.mem_map_of_mem ha)
  exact ⟨c, hc.symm⟩

theorem leaves_extend (full spelled : Bool) (read : Constraint × Constraint) (next : Constraint) :
    (extend full spelled read next).1.leaves ++ (extend full spelled read next).2.leaves =
      read.1.leaves ++ read.2.leaves ++ next.leaves := by
  rw [extend]
  split <;> simp [Constraint.leaves]

mutual

theorem Operand.leaves_of_parsed {o : Operand} {c : Constraint} (h : o.parsed = .ok c) :
    c.leaves.map .ok = o.atoms.map Atom.build := by
  cases o with
  | atom n a =>
      obtain ⟨inner, hbuild, rfl⟩ := Except.map_eq_ok_iff.mp h
      rw [Constraint.leaves_negated, (Atom.isDemand hbuild).leaves_eq, Operand.atoms, List.map_singleton,
        List.map_singleton, hbuild]
  | group n e =>
      obtain ⟨inner, hinner, rfl⟩ := Except.map_eq_ok_iff.mp h
      rw [Constraint.leaves_negated, Operand.atoms]
      exact Expression.leaves_of_parsed hinner

theorem Conjunction.leaves_of_parsed {k : Conjunction} {c : Constraint} (h : k.parsed = .ok c) :
    c.leaves.map .ok = k.atoms.map Atom.build := by
  cases k with
  | single o => exact Operand.leaves_of_parsed h
  | and k spelled o =>
      obtain ⟨lhs, hlhs, h⟩ := Except.bind_eq_ok_iff.mp h
      obtain ⟨next, hnext, rfl⟩ := Except.map_eq_ok_iff.mp h
      rw [Constraint.leaves, Conjunction.atoms, List.map_append, List.map_append,
        Conjunction.leaves_of_parsed hlhs, Operand.leaves_of_parsed hnext]

theorem Conjunction.leaves_of_parsedAfter {lhs : Constraint} {k : Conjunction}
    {read : Constraint × Constraint} (h : k.parsedAfter lhs = .ok read) :
    (read.1.leaves ++ read.2.leaves).map .ok = lhs.leaves.map .ok ++ k.atoms.map Atom.build := by
  cases k with
  | single o =>
      obtain ⟨c, hc, rfl⟩ := Except.map_eq_ok_iff.mp h
      rw [List.map_append, Operand.leaves_of_parsed hc, Conjunction.atoms]
  | and k spelled o =>
      obtain ⟨before, hbefore, h⟩ := Except.bind_eq_ok_iff.mp h
      obtain ⟨next, hnext, rfl⟩ := Except.map_eq_ok_iff.mp h
      rw [leaves_extend, List.map_append, Conjunction.leaves_of_parsedAfter hbefore,
        Operand.leaves_of_parsed hnext, Conjunction.atoms, List.map_append, List.append_assoc]

theorem Expression.leaves_of_parsed {e : Expression} {c : Constraint} (h : e.parsed = .ok c) :
    c.leaves.map .ok = e.atoms.map Atom.build := by
  cases e with
  | single k => exact Conjunction.leaves_of_parsed h
  | or e k =>
      obtain ⟨lhs, hlhs, h⟩ := Except.bind_eq_ok_iff.mp h
      obtain ⟨read, hread, rfl⟩ := Except.map_eq_ok_iff.mp h
      rw [Constraint.leaves, Conjunction.leaves_of_parsedAfter hread, Expression.leaves_of_parsed hlhs,
        Expression.atoms, List.map_append]

end

mutual

theorem Operand.exists_parsed {o : Operand} (h : Buildable o.atoms) : ∃ c, o.parsed = .ok c := by
  cases o with
  | atom n a =>
      obtain ⟨c, hc⟩ := h a (by rw [Operand.atoms]; exact List.mem_singleton_self a)
      exact ⟨negated n c, Except.map_eq_ok_iff.mpr ⟨c, hc, rfl⟩⟩
  | group n e =>
      obtain ⟨c, hc⟩ := Expression.exists_parsed (e := e) (by rwa [Operand.atoms] at h)
      exact ⟨negated n c, Except.map_eq_ok_iff.mpr ⟨c, hc, rfl⟩⟩

theorem Conjunction.exists_parsed {k : Conjunction} (h : Buildable k.atoms) :
    ∃ c, k.parsed = .ok c := by
  cases k with
  | single o => exact Operand.exists_parsed (by rwa [Conjunction.atoms] at h)
  | and k spelled o =>
      rw [Conjunction.atoms, buildable_append] at h
      obtain ⟨lhs, hlhs⟩ := Conjunction.exists_parsed h.1
      obtain ⟨next, hnext⟩ := Operand.exists_parsed h.2
      exact ⟨.and lhs next, by rw [Conjunction.parsed, hlhs, hnext]; rfl⟩

theorem Conjunction.exists_parsedAfter (lhs : Constraint) {k : Conjunction} (h : Buildable k.atoms) :
    ∃ read, k.parsedAfter lhs = .ok read := by
  cases k with
  | single o =>
      obtain ⟨c, hc⟩ := Operand.exists_parsed (o := o) (by rwa [Conjunction.atoms] at h)
      exact ⟨(lhs, c), by rw [Conjunction.parsedAfter, hc]; rfl⟩
  | and k spelled o =>
      rw [Conjunction.atoms, buildable_append] at h
      obtain ⟨before, hbefore⟩ := Conjunction.exists_parsedAfter lhs h.1
      obtain ⟨next, hnext⟩ := Operand.exists_parsed h.2
      exact ⟨extend k.full spelled before next, by rw [Conjunction.parsedAfter, hbefore, hnext]; rfl⟩

theorem Expression.exists_parsed {e : Expression} (h : Buildable e.atoms) :
    ∃ c, e.parsed = .ok c := by
  cases e with
  | single k => exact Conjunction.exists_parsed (by rwa [Expression.atoms] at h)
  | or e k =>
      rw [Expression.atoms, buildable_append] at h
      obtain ⟨lhs, hlhs⟩ := Expression.exists_parsed h.1
      obtain ⟨read, hread⟩ := Conjunction.exists_parsedAfter lhs h.2
      exact ⟨.or read.1 read.2, by rw [Expression.parsed, hlhs, Except.ok_bind, hread]; rfl⟩

end

theorem Expression.exists_parsed_iff (e : Expression) :
    (∃ c, e.parsed = .ok c) ↔ Buildable e.atoms := by
  constructor
  · rintro ⟨c, h⟩
    exact buildable_of_map_eq (Expression.leaves_of_parsed h)
  · exact Expression.exists_parsed

end MediaCatalog.Query
