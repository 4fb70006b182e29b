import MediaCatalog.Proofs.Query.Leaves
import MediaCatalog.Proofs.Query.Lexing

/-!
Writing constraints as queries. Every predicate is written with its last argument in quotes, `and` and `or` are
spelled out, and parentheses stand only where the order of `not`, `and` and `or` or their association to the
left asks for them. The parser reads the constraint back from what is written.
-/

namespace MediaCatalog.Query

open Text

/-- A constraint with the predicate that makes it, of which the last argument can be quoted. -/
structure Leaf where
  keyword : String
  inits : List String
  last : String
  constraint : Constraint
  built : buildPredicate keyword (inits ++ [last]) = .ok constraint
  spelled : HasQuotedSpelling last.toList

/-- A constraint made up of leaves. -/
inductive Formula where
  | leaf (leaf : Leaf)
  | and (first second : Formula)
  | or (first second : Formula)
  | not (inner : Formula)

def Leaf.written (l : Leaf) : List Char :=
  l.keyword.toList ++ ':' :: ((l.inits.flatMap fun value => value.toList ++ [':']) ++
    '"' :: (escaped l.last.toList ++ ['"']))

def inParentheses (needed : Bool) (text : List Char) : List Char :=
  if needed then '(' :: (text ++ [')']) else text

namespace Formula

def constraint : Formula → Constraint
  | leaf l => l.constraint
  | and first second => .and first.constraint second.constraint
  | or first second => .or first.constraint second.constraint
  | not inner => .not inner.constraint

def isOr : Formula → Bool
  | or _ _ => true
  | _ => false

def isAndOr : Formula → Bool
  | and _ _ | or _ _ => true
  | _ => false

def isLeaf : Formula → Bool
  | leaf _ => true
  | _ => false

def written : Formula → List Char
  | leaf l => l.written
  | and first second =>
    inParentheses first.isOr first.written ++
      (" and ".toList ++ inParentheses second.isAndOr second.written)
  | or first second => first.written ++ (" or ".toList ++ inParentheses second.isOr second.written)
  | not inner => '-' :: inParentheses (!inner.isLeaf) inner.written

end Formula

/-- The keywords of predicates. -/
def keywords : List String :=
  ["after", "before", "is", "format", "filename", "tag", "loc"]

theorem isLetter_of_mem_keywords {keyword : String} (h : keyword ∈ keywords) :
    ∀ c ∈ keyword.toList, isLetter c := by
  have hall : keywords.all (fun keyword => keyword.toList.all isLetter) := by decide +kernel
  exact List.all_eq_true.mp (List.all_eq_true.mp hall keyword h)

theorem mem_keywords_of_singlePredicate {keyword : String}
    {build : String → Except QueryError Constraint} (h : singlePredicate? keyword = some build) :
    keyword ∈ keywords := by
  unfold singlePredicate? at h
  split at h
  all_goals cases h
  all_goals decide

theorem mem_keywords_of_buildPredicate {keyword : String} {args : List String} {c : Constraint}
    (hbuild : buildPredicate keyword args = .ok c) : keyword ∈ keywords := by
  unfold buildPredicate at hbuild
  split at hbuild
  · rename_i hloc
    rw [hloc]
    decide
  · split at hbuild
    · exact absurd hbuild (by simp)
    · rename_i hsingle
      exact mem_keywords_of_singlePredicate hsingle
    · exact absurd hbuild (by simp)

theorem name_of_readLocationField {name : String} {field : LocationField}
    (h : readLocationField name = .ok field) : field.name = name := by
  have hchoice : LocationField.ofName name = .ok field := by
    rw [readLocationField] at h
    cases hname : LocationField.ofName name <;> rw [hname] at h <;> cases h
    rfl
  rw [LocationField.ofName, choose] at hchoice
  split at hchoice
  · rename_i found hlookup
    obtain rfl := Except.ok.inj hchoice
    simp only [List.map_cons, List.map_nil, List.lookup_cons] at hlookup
    repeat' split at hlookup
    all_goals cases hlookup
    all_goals exact (eq_of_beq ‹_›).symm
  · cases hchoice

theorem inits_of_buildPredicate {keyword last : String} {inits : List String} {c : Constraint}
    (hbuild : buildPredicate keyword (inits ++ [last]) = .ok c) :
    inits = [] ∨ ∃ field : LocationField, inits = [field.name] := by
  have hsingle : ∀ value, inits ++ [last] = [value] → inits = [] := by
    intro value hargs
    have hlength := congrArg List.length hargs
    rw [List.length_append] at hlength
    exact List.length_eq_zero_iff.mp (by simpa using hlength)
  unfold buildPredicate at hbuild
  split at hbuild
  · unfold locationPredicate at hbuild
    split at hbuild
    · rename_i value hargs
      exact .inl (hsingle value hargs)
    · rename_i name value hargs
      obtain ⟨field, hfield, _⟩ := Except.map_eq_ok_iff.mp hbuild
      refine .inr ⟨field, ?_⟩
      rw [name_of_readLocationField hfield]
      have hargs : inits ++ [last] = [name] ++ [value] := hargs
      exact (List.append_inj' hargs rfl).1
    · cases hbuild
  · split at hbuild
    · cases hbuild
    · rename_i hargs
      exact .inl (hsingle _ hargs)
    · cases hbuild

theorem argumentTokens_name (field : LocationField) (text : List Char) :
    argumentTokens (field.name.toList ++ ':' :: text) =
      argToken field.name :: colonToken :: argumentTokens text := by
  have hall : field.name.toList.all isWordChar := by cases field <;> decide
  have hword : ∀ c ∈ field.name.toList, isWordChar c := List.all_eq_true.mp hall
  have hcolon : ¬ isWordChar ':' := by decide
  obtain ⟨c, rest, hcons, hc⟩ : ∃ c rest, field.name.toList = c :: rest ∧ ¬ (c = '"' ∨ c = '\'') := by
    cases field <;> exact ⟨_, _, rfl, by decide⟩
  have htake := takeWhile_append_cons hword hcolon text
  have hdrop := dropWhile_append_cons hword hcolon text
  rw [hcons, List.cons_append] at htake hdrop ⊢
  rw [argumentTokens_word hc, htake, hdrop, ← hcons, String.ofList_toList]
  rfl

theorem argumentTokens_escaped {value : String} (hvalue : HasQuotedSpelling value.toList)
    (text : List Char) :
    argumentTokens ('"' :: (escaped value.toList ++ '"' :: text)) =
      argToken value :: operatorTokens text := by
  rw [argumentTokens_quote (.inl rfl), readString_escaped hvalue, argToken]
  simp only [String.ofList_toList]

theorem operatorTokens_and (text : List Char) :
    operatorTokens (" and ".toList ++ text) = andToken :: lexChars text := by
  have hdrop : (" and ".toList ++ text).dropWhile spaces.contains = ['a', 'n', 'd'] ++ ' ' :: text := rfl
  rw [operatorTokens_eq, hdrop]
  exact (keywordTokens_append .andOp rfl).trans
    (congrArg _ (lexChars_of_mem_spaces (by decide) text))

theorem operatorTokens_or (text : List Char) :
    operatorTokens (" or ".toList ++ text) = orToken :: lexChars text := by
  have hdrop : (" or ".toList ++ text).dropWhile spaces.contains = ['o', 'r'] ++ ' ' :: text := rfl
  rw [operatorTokens_eq, hdrop]
  exact (keywordTokens_append .orOp rfl).trans
    (congrArg _ (lexChars_of_mem_spaces (by decide) text))

theorem operatorTokens_close (text : List Char) :
    operatorTokens (')' :: text) = closeToken :: operatorTokens text := by
  rw [operatorTokens_eq]
  change lexChars (')' :: text) = _
  rw [lexChars_eq]
  rfl

def Leaf.atom (l : Leaf) : Atom :=
  ⟨l.keyword, l.inits, some l.last⟩

namespace Expression

/-- An expression as an operand, in parentheses unless it is a single one. -/
def asOperand : Expression → Operand
  | single (.single o) => o
  | e => .group 0 e

def asConjunction : Expression → Conjunction
  | single k => k
  | e => .single (.group 0 e)

end Expression

/-- The phrase of the grammar for a formula. -/
def Formula.expression : Formula → Expression
  | .leaf l => .single (.single (.atom 0 l.atom))
  | .and first second =>
    .single (.and first.expression.asConjunction true second.expression.asOperand)
  | .or first second => .or first.expression second.expression.asConjunction
  | .not (.leaf l) => .single (.single (.atom 1 l.atom))
  | .not inner => .single (.single (.group 1 inner.expression))

theorem lexChars_leaf (l : Leaf) (text : List Char) :
    lexChars (l.written ++ text) = l.atom.tokens ++ operatorTokens text := by
  have hkeyword := isLetter_of_mem_keywords (mem_keywords_of_buildPredicate l.built)
  rw [Leaf.written, List.append_assoc, List.cons_append, lexChars_word hkeyword, Leaf.atom, Atom.tokens,
    String.ofList_toList]
  rcases inits_of_buildPredicate l.built with hinits | ⟨field, hinits⟩
  · have hlast := argumentTokens_escaped l.spelled text
    simp only [hinits, Atom.argTokens, List.flatMap_nil, List.nil_append, List.cons_append,
      List.append_assoc, Option.toList_some, List.map_cons, List.map_nil, hlast]
  · have hlast := argumentTokens_escaped l.spelled text
    simp only [hinits, Atom.argTokens, List.flatMap_cons, List.flatMap_nil, List.append_nil,
      List.nil_append, List.cons_append, List.append_assoc, argumentTokens_name, hlast,
      Option.toList_some, List.map_cons, List.map_nil]

def enclosed (needed : Bool) (tokens : List Token) : List Token :=
  if needed then openToken :: (tokens ++ [closeToken]) else tokens

theorem tokens_asOperand (f : Formula) :
    f.expression.asOperand.tokens = enclosed f.isAndOr f.expression.tokens := by
  cases f with
  | leaf l => rfl
  | and first second =>
      rw [Formula.expression, Expression.asOperand, Operand.tokens]
      · rfl
      · simp
  | or first second =>
      rw [Formula.expression, Expression.asOperand, Operand.tokens]
      · rfl
      · simp
  | not inner => cases inner <;> rfl

theorem tokens_asConjunction (f : Formula) :
    f.expression.asConjunction.tokens = enclosed f.isOr f.expression.tokens := by
  cases f with
  | leaf l => rfl
  | and first second => rfl
  | or first second =>
      rw [Formula.expression, Expression.asConjunction, Conjunction.tokens, Operand.tokens]
      · rfl
      · simp
  | not inner => cases inner <;> rfl

theorem tokens_not (f : Formula) :
    (Formula.not f).expression.tokens = notToken :: enclosed (!f.isLeaf) f.expression.tokens := by
  cases f <;> rfl

theorem lexChars_inParentheses {text : List Char} {tokens : List Token}
    (h : ∀ rest, lexChars (text ++ rest) = tokens ++ operatorTokens rest) (needed : Bool)
    (rest : List Char) :
    lexChars (inParentheses needed text ++ rest) = enclosed needed tokens ++ operatorTokens rest := by
  cases needed with
  | false => exact h rest
  | true =>
      change lexChars ('(' :: (text ++ [')'] ++ rest)) = openToken :: (tokens ++ [closeToken]) ++ _
      rw [lexChars_open, List.append_assoc, List.singleton_append, h, operatorTokens_close]
      simp

theorem lexChars_written (f : Formula) (rest : List Char) :
    lexChars (f.written ++ rest) = f.expression.tokens ++ operatorTokens rest := by
  -- What is behind stays open, because the first part of a formula has an operator behind it.
  induction f generalizing rest with
  | leaf l =>
      rw [Formula.written, lexChars_leaf]
      rfl
  | and first second ihFirst ihSecond =>
      rw [Formula.written, List.append_assoc, lexChars_inParentheses ihFirst, List.append_assoc,
        operatorTokens_and, lexChars_inParentheses ihSecond, Formula.expression, Expression.tokens,
        Conjunction.tokens, tokens_asConjunction, tokens_asOperand]
      simp [junction]
  | or first second ihFirst ihSecond =>
      rw [Formula.written, List.append_assoc, ihFirst, List.append_assoc, operatorTokens_or,
        lexChars_inParentheses ihSecond, Formula.expression, Expression.tokens, tokens_asConjunction]
      simp
  | not inner ih =>
      rw [Formula.written, List.cons_append, lexChars_not, lexChars_inParentheses ih, tokens_not]
      rfl

theorem lex_written (f : Formula) :
    lex (String.ofList f.written) = f.expression.tokens ++ [Token.endOfQuery] := by
  have hwritten := lexChars_written f []
  rw [List.append_nil] at hwritten
  rw [lex, String.toList_ofList, hwritten, operatorTokens_nil]

section Answers

variable {e : Expression} {c : Constraint}

theorem parsed_asOperand (h : e.parsed = .ok c) : e.asOperand.parsed = .ok c := by
  unfold Expression.asOperand
  split
  · simpa [Expression.parsed, Conjunction.parsed] using h
  · rw [Operand.parsed, h]
    rfl

theorem parsed_asConjunction (h : e.parsed = .ok c) : e.asConjunction.parsed = .ok c := by
  unfold Expression.asConjunction
  split
  · simpa [Expression.parsed] using h
  · rw [Conjunction.parsed, Operand.parsed, h]
    rfl

end Answers

theorem parsed_expression (f : Formula) :
    f.expression.parsed = .ok f.constraint ∧
      ∀ lhs, f.expression.asConjunction.parsedAfter lhs = .ok (lhs, f.constraint) := by
  have hsingle : ∀ {o : Operand} {c : Constraint}, o.parsed = .ok c →
      (Expression.single (.single o)).parsed = .ok c ∧
        ∀ lhs, (Expression.single (.single o)).asConjunction.parsedAfter lhs = .ok (lhs, c) := by
    intro o c ho
    refine ⟨by rw [Expression.parsed, Conjunction.parsed, ho], ?_⟩
    intro lhs
    rw [Expression.asConjunction, Conjunction.parsedAfter, ho]
    rfl
  induction f with
  | leaf l =>
      apply hsingle
      have hbuild : l.atom.build = .ok l.constraint := l.built
      rw [Operand.parsed, hbuild]
      rfl
  | and first second ihFirst ihSecond =>
      have hsecond := parsed_asOperand ihSecond.1
      constructor
      · rw [Formula.expression, Expression.parsed, Conjunction.parsed, parsed_asConjunction ihFirst.1,
          hsecond]
        rfl
      · intro lhs
        rw [Formula.expression, Expression.asConjunction, Conjunction.parsedAfter, ihFirst.2, hsecond]
        rfl
  | or first second ihFirst ihSecond =>
      have hor : (Formula.or first second).expression.parsed = .ok (.or first.constraint second.constraint) := by
        rw [Formula.expression, Expression.parsed, ihFirst.1, Except.ok_bind, ihSecond.2]
        rfl
      refine ⟨hor, ?_⟩
      intro lhs
      rw [Formula.expression] at hor ⊢
      rw [Expression.asConjunction, Conjunction.parsedAfter, Operand.parsed, hor]
      · rfl
      · simp
  | not inner ih =>
      cases inner with
      | leaf l =>
          apply hsingle
          have hbuild : l.atom.build = .ok l.constraint := l.built
          rw [Operand.parsed, hbuild]
          rfl
      | _ =>
          apply hsingle
          rw [Operand.parsed, ih.1]
          rfl

/-- What is written for a formula is read as its constraint. -/
theorem parse_written (f : Formula) : parse (String.ofList f.written) = .ok f.constraint := by
  rw [parse_of_lex_eq f.expression (lex_written f), (parsed_expression f).1]

example :
    let tag (name : String) (h : '\\' ∉ name.toList) : Formula :=
      .leaf ⟨"tag", [], name, .ofTag name, rfl, .of_not_mem h⟩
    String.ofList (Formula.and (tag "a" (by decide))
      (.or (tag "b" (by decide)) (.not (tag "c" (by decide))))).written =
        "tag:\"a\" and (tag:\"b\" or -tag:\"c\")" := by
  decide +kernel

end MediaCatalog.Query
