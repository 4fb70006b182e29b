import MediaCatalog.Proofs.Query.Leaves
import MediaCatalog.Proofs.Query.ParserSoundness
import Mathlib.Data.List.TakeWhile

/-!
Which queries are answered. The tokens of an answered query are a word of the language in which operands stand
behind each other, with `and`, `or` or nothing between them, and the answer has a leaf for every predicate.
-/

namespace MediaCatalog.Query

mutual

/-- The tokens of an operand and its predicates from left to right. -/
inductive OperandWord : List Token → List Atom → Prop where
  | not {tokens atoms} : OperandWord tokens atoms → OperandWord (notToken :: tokens) atoms
  | atom (a : Atom) : OperandWord a.tokens [a]
  | group {tokens atoms} : ExpressionWord tokens atoms →
      OperandWord (openToken :: (tokens ++ [closeToken])) atoms

/-- The tokens of an expression and its predicates from left to right. -/
inductive ExpressionWord : List Token → List Atom → Prop where
  | operand {tokens atoms} : OperandWord tokens atoms → ExpressionWord tokens atoms
  | join {tokens joined atoms atoms'} (between : List Token)
      (hbetween : between = [] ∨ between = [andToken] ∨ between = [orToken]) :
      ExpressionWord tokens atoms → OperandWord joined atoms' →
      ExpressionWord (tokens ++ (between ++ joined)) (atoms ++ atoms')

end

/-- The tokens of a query before its end: nothing or those of an expression. -/
inductive QueryWord : List Token → List Atom → Prop where
  | nothing : QueryWord [] []
  | expression {tokens atoms} : ExpressionWord tokens atoms → QueryWord tokens atoms

theorem OperandWord.negations (n : Nat) {tokens : List Token} {atoms : List Atom}
    (h : OperandWord tokens atoms) : OperandWord (List.replicate n notToken ++ tokens) atoms := by
  induction n with
  | zero => exact h
  | succ n ih => exact .not ih

mutual

theorem Operand.word (o : Operand) : OperandWord o.tokens o.atoms := by
  cases o with
  | atom n a =>
      rw [Operand.tokens, Operand.atoms]
      exact (OperandWord.atom a).negations n
  | group n e =>
      rw [Operand.tokens, Operand.atoms]
      exact (OperandWord.group e.word).negations n

theorem Conjunction.word (k : Conjunction) : ExpressionWord k.tokens k.atoms := by
  cases k with
  | single o =>
      rw [Conjunction.tokens, Conjunction.atoms]
      exact .operand o.word
  | and k spelled o =>
      rw [Conjunction.tokens, Conjunction.atoms]
      refine .join _ ?_ k.word o.word
      cases spelled
      · exact .inl rfl
      · exact .inr (.inl rfl)

theorem Conjunction.word_behind_or {tokens : List Token} {atoms : List Atom}
    (h : ExpressionWord tokens atoms) (k : Conjunction) :
    ExpressionWord (tokens ++ orToken :: k.tokens) (atoms ++ k.atoms) := by
  cases k with
  | single o =>
      rw [Conjunction.tokens, Conjunction.atoms]
      exact .join [orToken] (.inr (.inr rfl)) h o.word
  | and k spelled o =>
      have hjoin := ExpressionWord.join (junction spelled) (by cases spelled <;> simp [junction])
        (Conjunction.word_behind_or h k) o.word
      rw [Conjunction.tokens, Conjunction.atoms]
      simpa using hjoin

theorem Expression.word (e : Expression) : ExpressionWord e.tokens e.atoms := by
  cases e with
  | single k =>
      rw [Expression.tokens, Expression.atoms]
      exact k.word
  | or e k =>
      rw [Expression.tokens, Expression.atoms]
      exact Conjunction.word_behind_or e.word k

end

/-- An operand with one more negation. -/
def Operand.negate : Operand → Operand
  | .atom n a => .atom (n + 1) a
  | .group n e => .group (n + 1) e

theorem Operand.tokens_negate (o : Operand) : o.negate.tokens = notToken :: o.tokens := by
  cases o <;> rw [Operand.negate, Operand.tokens, Operand.tokens, List.replicate_succ, List.cons_append]

theorem Operand.atoms_negate (o : Operand) : o.negate.atoms = o.atoms := by
  cases o <;> rw [Operand.negate, Operand.atoms, Operand.atoms]

/-- An expression with an operand more in its last conjunction. -/
def Expression.append (spelled : Bool) (o : Operand) : Expression → Expression
  | .single k => .single (.and k spelled o)
  | .or e k => .or e (.and k spelled o)

theorem Expression.tokens_append (spelled : Bool) (o : Operand) (e : Expression) :
    (e.append spelled o).tokens = e.tokens ++ (junction spelled ++ o.tokens) := by
  cases e <;> simp [Expression.append, Expression.tokens, Conjunction.tokens]

theorem Expression.atoms_append (spelled : Bool) (o : Operand) (e : Expression) :
    (e.append spelled o).atoms = e.atoms ++ o.atoms := by
  cases e <;> simp [Expression.append, Expression.atoms, Conjunction.atoms]

theorem ExpressionWord.exists_expression {tokens : List Token} {atoms : List Atom}
    (h : ExpressionWord tokens atoms) :
    ∃ e : Expression, e.tokens = tokens ∧ e.atoms = atoms := by
  refine @ExpressionWord.rec (fun tokens atoms _ => ∃ o : Operand, o.tokens = tokens ∧ o.atoms = atoms)
    (fun tokens atoms _ => ∃ e : Expression, e.tokens = tokens ∧ e.atoms = atoms)
    ?_ ?_ ?_ ?_ ?_ tokens atoms h
  · rintro _ _ _ ⟨o, rfl, rfl⟩
    exact ⟨o.negate, o.tokens_negate, o.atoms_negate⟩
  · intro a
    exact ⟨.atom 0 a, by rw [Operand.tokens]; rfl, by rw [Operand.atoms]⟩
  · rintro _ _ _ ⟨e, rfl, rfl⟩
    exact ⟨.group 0 e, by rw [Operand.tokens]; rfl, by rw [Operand.atoms]⟩
  · rintro _ _ _ ⟨o, rfl, rfl⟩
    exact ⟨.single (.single o), by rw [Expression.tokens, Conjunction.tokens],
      by rw [Expression.atoms, Conjunction.atoms]⟩
  · rintro _ _ _ _ between hbetween _ _ ⟨e, rfl, rfl⟩ ⟨o, rfl, rfl⟩
    rcases hbetween with rfl | rfl | rfl
    · exact ⟨e.append false o, e.tokens_append false o, e.atoms_append false o⟩
    · exact ⟨e.append true o, e.tokens_append true o, e.atoms_append true o⟩
    · exact ⟨.or e (.single o), by rw [Expression.tokens, Conjunction.tokens]; rfl,
        by rw [Expression.atoms, Conjunction.atoms]⟩

theorem predicateTokens_ne_end (text : List Char) : predicateTokens text ≠ [Token.endOfQuery] := by
  rw [predicateTokens_eq]
  split <;> simp [Token.endOfQuery]

theorem lex_eq_end_iff (query : String) :
    lex query = [Token.endOfQuery] ↔ ∀ c ∈ query.toList, c ∈ spaces := by
  have hdrop : query.toList.dropWhile spaces.contains = [] ↔ ∀ c ∈ query.toList, c ∈ spaces := by
    rw [List.dropWhile_eq_nil_iff]
    simp only [List.contains_iff_mem]
  rw [lex, lexChars_eq, ← hdrop]
  split
  · rename_i hrest
    simp [hrest]
  · rename_i c rest hrest
    simp only [hrest, reduceCtorEq, iff_false]
    split_ifs
    · simp [Token.endOfQuery]
    · simp [Token.endOfQuery]
    · simp [Token.endOfQuery]
    · exact predicateTokens_ne_end _

theorem parse_of_lex_eq_end {query : String} (hlex : lex query = [Token.endOfQuery]) :
    parse query = .ok .empty := by
  rw [parse_eq, hlex, readExpression_cons]
  rfl

/-- Whether a query is a word of the language and all its predicates make demands. -/
def Answerable (query : String) : Prop :=
  ∃ tokens atoms, lex query = tokens ++ [Token.endOfQuery] ∧ QueryWord tokens atoms ∧ Buildable atoms

theorem exists_parse_eq_ok_iff (query : String) :
    (∃ c, parse query = .ok c) ↔ Answerable query := by
  constructor
  · rintro ⟨c, hparse⟩
    by_cases hend : lex query = [Token.endOfQuery]
    · exact ⟨[], [], hend, .nothing, fun a ha => absurd ha (List.not_mem_nil)⟩
    · obtain ⟨e, hlex⟩ := exists_phrase_of_parse hparse hend
      rw [parse_of_lex_eq e hlex] at hparse
      exact ⟨e.tokens, e.atoms, hlex, .expression e.word, e.exists_parsed_iff.mp ⟨c, hparse⟩⟩
  · rintro ⟨tokens, atoms, hlex, hword, hbuildable⟩
    cases hword with
    | nothing => exact ⟨.empty, parse_of_lex_eq_end hlex⟩
    | expression hword =>
        obtain ⟨e, rfl, rfl⟩ := hword.exists_expression
        rw [parse_of_lex_eq e hlex]
        exact e.exists_parsed_iff.mpr hbuildable

theorem exists_lex_of_parse {query : String} {c : Constraint} (hparse : parse query = .ok c) :
    ∃ tokens, lex query = tokens ++ [Token.endOfQuery] := by
  obtain ⟨tokens, _, hlex, _⟩ := (exists_parse_eq_ok_iff query).mp ⟨c, hparse⟩
  exact ⟨tokens, hlex⟩

theorem leaves_of_parse {query : String} {c : Constraint} (hparse : parse query = .ok c)
    {tokens : List Token} {atoms : List Atom} (hlex : lex query = tokens ++ [Token.endOfQuery])
    (hword : ExpressionWord tokens atoms) : c.leaves.map .ok = atoms.map Atom.build := by
  obtain ⟨e, rfl, rfl⟩ := hword.exists_expression
  rw [parse_of_lex_eq e hlex] at hparse
  exact Expression.leaves_of_parsed hparse

/-- No predicate makes the constraint that stands for a query without any. -/
theorem empty_not_mem_leaves {leaves : List Constraint} {atoms : List Atom}
    (h : leaves.map .ok = atoms.map Atom.build) : .empty ∉ leaves := by
  intro hempty
  have hmem : .ok .empty ∈ atoms.map Atom.build := h ▸ List.mem_map_of_mem hempty
  obtain ⟨a, _, hbuild⟩ := List.mem_map.mp hmem
  exact (Atom.isDemand hbuild).ne_empty rfl

/-- Which queries are answered, and what with. -/
theorem parse_outcome (query : String) :
    ((∃ c, parse query = .ok c) ↔ Answerable query) ∧
    ((∃ error, parse query = .error error) ↔ ¬ Answerable query) ∧
    ∀ c, parse query = .ok c →
      ((∀ ch ∈ query.toList, ch ∈ spaces) → c = .empty) ∧
      ((∃ ch ∈ query.toList, ch ∉ spaces) → .empty ∉ c.leaves ∧
        ∀ tokens atoms, lex query = tokens ++ [Token.endOfQuery] → QueryWord tokens atoms →
          c.leaves.map .ok = atoms.map Atom.build) := by
  refine ⟨exists_parse_eq_ok_iff query, ?_, ?_⟩
  · rw [← exists_parse_eq_ok_iff]
    cases parse query <;> simp
  intro c hparse
  constructor
  · intro hblank
    rw [parse_of_lex_eq_end ((lex_eq_end_iff query).mpr hblank)] at hparse
    exact (Except.ok.inj hparse).symm
  · intro hquery
    have hend : lex query ≠ [Token.endOfQuery] := by
      rw [Ne, lex_eq_end_iff]
      obtain ⟨ch, hmem, hspace⟩ := hquery
      exact fun hblank => hspace (hblank ch hmem)
    have hleaves : ∀ {tokens atoms}, lex query = tokens ++ [Token.endOfQuery] →
        QueryWord tokens atoms → c.leaves.map .ok = atoms.map Atom.build := by
      intro tokens atoms hlex hword
      cases hword with
      | nothing => exact absurd hlex hend
      | expression hword => exact leaves_of_parse hparse hlex hword
    obtain ⟨tokens, atoms, hlex, hword, _⟩ := (exists_parse_eq_ok_iff query).mp ⟨c, hparse⟩
    exact ⟨empty_not_mem_leaves (hleaves hlex hword), fun _ _ => hleaves⟩

end MediaCatalog.Query
