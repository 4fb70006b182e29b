import MediaCatalog.Proofs.Query.Acceptance

/-!
Where the parser departs from the grammar. Behind an `or`, an operand that no `and` joins to the two or more
operands before it is made an alternative of its own. The answer has one more `or` than the query for every
such operand, and without one it is the constraint that the grammar gives.
-/

namespace MediaCatalog.Query

mutual

/-- The number of operands that the parser makes alternatives of their own. -/
def Operand.splits : Operand → Nat
  | .atom _ _ => 0
  | .group _ e => e.splits

/-- The same of a conjunction that begins an expression: only in its groups. -/
def Conjunction.splits : Conjunction → Nat
  | .single o => o.splits
  | .and k _ o => k.splits + o.splits

/-- The same of a conjunction behind an `or`. -/
def Conjunction.splitsAfter : Conjunction → Nat
  | .single o => o.splits
  | .and k spelled o => k.splitsAfter + o.splits + if spelled || !k.full then 0 else 1

def Expression.splits : Expression → Nat
  | .single k => k.splits
  | .or e k => e.splits + k.splitsAfter

end

/-- The number of times that `or` is written. -/
def orTokens (tokens : List Token) : Nat :=
  tokens.countP fun token => token.kind = .orOp

@[simp] theorem orTokens_append (first second : List Token) :
    orTokens (first ++ second) = orTokens first + orTokens second :=
  List.countP_append

theorem orTokens_cons_of_ne {token : Token} (tokens : List Token) (h : token.kind ≠ .orOp) :
    orTokens (token :: tokens) = orTokens tokens :=
  List.countP_cons_of_neg (by simpa using h)

theorem orTokens_cons_orToken (tokens : List Token) :
    orTokens (orToken :: tokens) = orTokens tokens + 1 :=
  List.countP_cons_of_pos (by decide)

@[simp] theorem orTokens_negations (n : Nat) : orTokens (List.replicate n notToken) = 0 := by
  rw [orTokens, List.countP_eq_zero]
  intro token htoken
  rw [List.eq_of_mem_replicate htoken]
  decide

@[simp] theorem orTokens_junction (spelled : Bool) : orTokens (junction spelled) = 0 := by
  cases spelled <;> decide

@[simp] theorem orTokens_atom (a : Atom) : orTokens a.tokens = 0 := by
  rw [orTokens, List.countP_eq_zero]
  intro token htoken
  simp only [Atom.tokens, Atom.argTokens, List.mem_cons, List.mem_append, List.mem_flatMap,
    List.mem_map, List.not_mem_nil, or_false] at htoken
  rcases htoken with rfl | rfl | ⟨_, _, rfl | rfl⟩ | ⟨_, _, rfl⟩ <;> simp [colonToken, argToken]

mutual

theorem Operand.orCount_of_tree {o : Operand} {c : Constraint} (h : o.tree = .ok c) :
    c.orCount = orTokens o.tokens := by
  cases o with
  | atom n a =>
      obtain ⟨inner, hbuild, rfl⟩ := Except.map_eq_ok_iff.mp h
      rw [Constraint.orCount_negated, (Atom.isDemand hbuild).orCount_eq, Operand.tokens]
      simp
  | group n e =>
      obtain ⟨inner, hinner, rfl⟩ := Except.map_eq_ok_iff.mp h
      rw [Constraint.orCount_negated, Expression.orCount_of_tree hinner, Operand.tokens, orTokens_append,
        orTokens_negations, orTokens_cons_of_ne _ (by decide), orTokens_append]
      simp [orTokens, closeToken]

theorem Conjunction.orCount_of_tree {k : Conjunction} {c : Constraint} (h : k.tree = .ok c) :
    c.orCount = orTokens k.tokens := by
  cases k with
  | single o =>
      rw [Conjunction.tokens]
      exact Operand.orCount_of_tree h
  | and k spelled o =>
      obtain ⟨lhs, hlhs, h⟩ := Except.bind_eq_ok_iff.mp h
      obtain ⟨next, hnext, rfl⟩ := Except.map_eq_ok_iff.mp h
      rw [Constraint.orCount, Conjunction.orCount_of_tree hlhs, Operand.orCount_of_tree hnext,
        Conjunction.tokens]
      simp

theorem Expression.orCount_of_tree {e : Expression} {c : Constraint} (h : e.tree = .ok c) :
    c.orCount = orTokens e.tokens := by
  cases e with
  | single k =>
      rw [Expression.tokens]
      exact Conjunction.orCount_of_tree h
  | or e k =>
      obtain ⟨lhs, hlhs, h⟩ := Except.bind_eq_ok_iff.mp h
      obtain ⟨next, hnext, rfl⟩ := Except.map_eq_ok_iff.mp h
      rw [Constraint.orCount, Expression.orCount_of_tree hlhs, Conjunction.orCount_of_tree hnext,
        Expression.tokens, orTokens_append, orTokens_cons_orToken]
      omega

end

theorem orCount_extend (full spelled : Bool) (read : Constraint × Constraint) (next : Constraint) :
    (extend full spelled read next).1.orCount + (extend full spelled read next).2.orCount =
      read.1.orCount + read.2.orCount + next.orCount + if spelled || !full then 0 else 1 := by
  rw [extend]
  split
  · simp only [Constraint.orCount]
    omega
  · simp only [Constraint.orCount]
    omega

mutual

theorem Operand.orCount_of_parsed {o : Operand} {c : Constraint} (h : o.parsed = .ok c) :
    c.orCount = orTokens o.tokens + o.splits := by
  cases o with
  | atom n a =>
      rw [Operand.splits, Nat.add_zero]
      exact Operand.orCount_of_tree (o := .atom n a) h
  | group n e =>
      obtain ⟨inner, hinner, rfl⟩ := Except.map_eq_ok_iff.mp h
      rw [Constraint.orCount_negated, Expression.orCount_of_parsed hinner, Operand.tokens, Operand.splits,
        orTokens_append, orTokens_negations, orTokens_cons_of_ne _ (by decide), orTokens_append]
      simp [orTokens, closeToken]

theorem Conjunction.orCount_of_parsed {k : Conjunction} {c : Constraint} (h : k.parsed = .ok c) :
    c.orCount = orTokens k.tokens + k.splits := by
  cases k with
  | single o =>
      rw [Conjunction.tokens, Conjunction.splits]
      exact Operand.orCount_of_parsed h
  | and k spelled o =>
      obtain ⟨lhs, hlhs, h⟩ := Except.bind_eq_ok_iff.mp h
      obtain ⟨next, hnext, rfl⟩ := Except.map_eq_ok_iff.mp h
      rw [Constraint.orCount, Conjunction.orCount_of_parsed hlhs, Operand.orCount_of_parsed hnext,
        Conjunction.tokens, Conjunction.splits, orTokens_append, orTokens_append, orTokens_junction]
      omega

theorem Conjunction.orCount_of_parsedAfter {lhs : Constraint} {k : Conjunction}
    {read : Constraint × Constraint} (h : k.parsedAfter lhs = .ok read) :
    read.1.orCount + read.2.orCount = lhs.orCount + orTokens k.tokens + k.splitsAfter := by
  cases k with
  | single o =>
      obtain ⟨c, hc, rfl⟩ := Except.map_eq_ok_iff.mp h
      rw [Operand.orCount_of_parsed hc, Conjunction.tokens, Conjunction.splitsAfter, Nat.add_assoc]
  | and k spelled o =>
      obtain ⟨before, hbefore, h⟩ := Except.bind_eq_ok_iff.mp h
      obtain ⟨next, hnext, rfl⟩ := Except.map_eq_ok_iff.mp h
      rw [orCount_extend, Conjunction.orCount_of_parsedAfter hbefore, Operand.orCount_of_parsed hnext,
        Conjunction.tokens, Conjunction.splitsAfter, orTokens_append, orTokens_append, orTokens_junction]
      omega

/-- The answer has an `or` for every one that is written and for every operand that is split off. -/
theorem Expression.orCount_of_parsed {e : Expression} {c : Constraint} (h : e.parsed = .ok c) :
    c.orCount = orTokens e.tokens + e.splits := by
  cases e with
  | single k =>
      rw [Expression.tokens, Expression.splits]
      exact Conjunction.orCount_of_parsed h
  | or e k =>
      obtain ⟨lhs, hlhs, h⟩ := Except.bind_eq_ok_iff.mp h
      obtain ⟨read, hread, rfl⟩ := Except.map_eq_ok_iff.mp h
      rw [Constraint.orCount, Conjunction.orCount_of_parsedAfter hread,
        Expression.orCount_of_parsed hlhs, Expression.tokens, Expression.splits, orTokens_append,
        orTokens_cons_orToken]
      omega

end

mutual

theorem Operand.parsed_eq_tree {o : Operand} (h : o.splits = 0) : o.parsed = o.tree := by
  cases o with
  | atom n a => rw [Operand.parsed, Operand.tree]
  | group n e => rw [Operand.parsed, Operand.tree, Expression.parsed_eq_tree (by rwa [Operand.splits] at h)]

theorem Conjunction.parsed_eq_tree {k : Conjunction} (h : k.splits = 0) : k.parsed = k.tree := by
  cases k with
  | single o =>
      rw [Conjunction.parsed, Conjunction.tree, Operand.parsed_eq_tree (by rwa [Conjunction.splits] at h)]
  | and k spelled o =>
      rw [Conjunction.splits] at h
      rw [Conjunction.parsed, Conjunction.tree, Conjunction.parsed_eq_tree (by omega),
        Operand.parsed_eq_tree (by omega)]

theorem Conjunction.parsedAfter_eq_tree (lhs : Constraint) {k : Conjunction} (h : k.splitsAfter = 0) :
    k.parsedAfter lhs = k.tree.map fun c => (lhs, c) := by
  cases k with
  | single o =>
      rw [Conjunction.parsedAfter, Conjunction.tree,
        Operand.parsed_eq_tree (by rwa [Conjunction.splitsAfter] at h)]
  | and k spelled o =>
      rw [Conjunction.splitsAfter] at h
      have hjoined : spelled || !k.full := by
        by_contra hsplit
        rw [if_neg hsplit] at h
        omega
      rw [Conjunction.parsedAfter, Conjunction.tree, Conjunction.parsedAfter_eq_tree lhs (by omega),
        Operand.parsed_eq_tree (by omega), Except.bind_map, Except.map_bind]
      apply congrArg
      funext first
      rw [Except.map_map]
      exact congrArg (Except.map · o.tree) (funext fun next => if_pos hjoined)

theorem Expression.parsed_eq_tree {e : Expression} (h : e.splits = 0) : e.parsed = e.tree := by
  cases e with
  | single k =>
      rw [Expression.parsed, Expression.tree, Conjunction.parsed_eq_tree (by rwa [Expression.splits] at h)]
  | or e k =>
      rw [Expression.splits] at h
      rw [Expression.parsed, Expression.tree, Expression.parsed_eq_tree (by omega)]
      apply congrArg
      funext lhs
      rw [Conjunction.parsedAfter_eq_tree lhs (by omega), Except.map_map]

end

mutual

theorem Operand.exists_tree {o : Operand} (h : Buildable o.atoms) : ∃ tree, o.tree = .ok tree := by
  cases o with
  | atom n a => exact Operand.exists_parsed (o := .atom n a) h
  | group n e =>
      obtain ⟨tree, htree⟩ := Expression.exists_tree (e := e) (by rwa [Operand.atoms] at h)
      exact ⟨negated n tree, Except.map_eq_ok_iff.mpr ⟨tree, htree, rfl⟩⟩

theorem Conjunction.exists_tree {k : Conjunction} (h : Buildable k.atoms) :
    ∃ tree, k.tree = .ok tree := by
  cases k with
  | single o => exact Operand.exists_tree (by rwa [Conjunction.atoms] at h)
  | and k spelled o =>
      rw [Conjunction.atoms, buildable_append] at h
      obtain ⟨lhs, hlhs⟩ := Conjunction.exists_tree h.1
      obtain ⟨next, hnext⟩ := Operand.exists_tree h.2
      exact ⟨.and lhs next, by rw [Conjunction.tree, hlhs, hnext]; rfl⟩

theorem Expression.exists_tree {e : Expression} (h : Buildable e.atoms) :
    ∃ tree, e.tree = .ok tree := by
  cases e with
  | single k => exact Conjunction.exists_tree (by rwa [Expression.atoms] at h)
  | or e k =>
      rw [Expression.atoms, buildable_append] at h
      obtain ⟨lhs, hlhs⟩ := Expression.exists_tree h.1
      obtain ⟨next, hnext⟩ := Conjunction.exists_tree h.2
      exact ⟨.or lhs next, by rw [Expression.tree, hlhs, hnext]; rfl⟩

end

/-- The answer is the constraint of the grammar exactly if no operand is split off. -/
theorem Expression.eq_tree_iff {e : Expression} {c tree : Constraint} (hparsed : e.parsed = .ok c)
    (htree : e.tree = .ok tree) : c = tree ↔ e.splits = 0 := by
  constructor
  · -- The constraint of the grammar has as many `or` as are written, and so none besides.
    rintro rfl
    have hcount := Expression.orCount_of_parsed hparsed
    rw [Expression.orCount_of_tree htree] at hcount
    omega
  · intro hsplits
    rw [Expression.parsed_eq_tree hsplits, htree] at hparsed
    exact (Except.ok.inj hparsed).symm

/-- An answer is what the grammar gives exactly if no operand was made an alternative of its own. -/
theorem parse_eq_tree_iff {query : String} {c : Constraint} (hparse : parse query = .ok c)
    (hquery : ∃ ch ∈ query.toList, ch ∉ spaces) :
    (∃ e : Expression, lex query = e.tokens ++ [Token.endOfQuery]) ∧
    ∀ e : Expression, lex query = e.tokens ++ [Token.endOfQuery] →
      ∃ tree, e.tree = .ok tree ∧ (c = tree ↔ e.splits = 0) ∧
        tree.orCount = orTokens (lex query) ∧ c.orCount = orTokens (lex query) + e.splits := by
  constructor
  · apply exists_phrase_of_parse hparse
    rw [Ne, lex_eq_end_iff]
    obtain ⟨ch, hmem, hspace⟩ := hquery
    exact fun hblank => hspace (hblank ch hmem)
  · intro e hlex
    have hparsed : e.parsed = .ok c := by rw [← parse_of_lex_eq e hlex, hparse]
    obtain ⟨tree, htree⟩ := Expression.exists_tree (e.exists_parsed_iff.mp ⟨c, hparsed⟩)
    have hend : orTokens (lex query) = orTokens e.tokens := by
      rw [hlex, orTokens_append]
      rfl
    refine ⟨tree, htree, Expression.eq_tree_iff hparsed htree, ?_, ?_⟩
    · rw [hend, Expression.orCount_of_tree htree]
    · rw [hend, Expression.orCount_of_parsed hparsed]

theorem parse_eq_tree_iff_two_behind_or :
    parse "tag:a or tag:b tag:c" = .ok (.or (.tag "a") (.and (.tag "b") (.tag "c"))) ∧
    (∃ ch ∈ "tag:a or tag:b tag:c".toList, ch ∉ spaces) ∧
    ∃ e : Expression, lex "tag:a or tag:b tag:c" = e.tokens ++ [Token.endOfQuery] := by
  have hparse : parse "tag:a or tag:b tag:c" = .ok (.or (.tag "a") (.and (.tag "b") (.tag "c"))) := by
    decide +kernel
  have hquery : ∃ ch ∈ "tag:a or tag:b tag:c".toList, ch ∉ spaces :=
    ⟨'t', by decide, by decide⟩
  exact ⟨hparse, hquery, (parse_eq_tree_iff hparse hquery).1⟩

/-- A predicate for a tag with nothing special in it. -/
def tagOperand (name : String) : Operand :=
  .atom 0 ⟨"tag", [], some name⟩

/-- The phrase `tag:a or tag:b tag:c tag:d`. -/
def threeBehindOr : Expression :=
  .or (.single (.single (tagOperand "a")))
    (.and (.and (.single (tagOperand "b")) false (tagOperand "c")) false (tagOperand "d"))

theorem parse_three_behind_or :
    lex "tag:a or tag:b tag:c tag:d" = threeBehindOr.tokens ++ [Token.endOfQuery] ∧
    threeBehindOr.tree =
      .ok (.or (.tag "a") (.and (.and (.tag "b") (.tag "c")) (.tag "d"))) ∧
    parse "tag:a or tag:b tag:c tag:d" =
      .ok (.or (.or (.tag "a") (.and (.tag "b") (.tag "c"))) (.tag "d")) ∧
    parse "tag:a or tag:b tag:c tag:d" ≠ threeBehindOr.tree := by
  decide +kernel

end MediaCatalog.Query
