import MediaCatalog.Proofs.Query.Acceptance
import MediaCatalog.Proofs.Query.Concatenation
import MediaCatalog.Proofs.Query.Written

/-!
Queries in parentheses. To the lexer a closing parenthesis is like the end of the query, but for two things: a
colon before it has an empty argument behind it, and `and` and `or` before it are no operators. Neither changes
what the parser answers to a query that it answers.
-/

namespace MediaCatalog.Query

open Text

/-- What a state yields for a text that a parenthesis closes, if it comes to the end of the text and the last
token is no operator. -/
def Closes (lexer : List Char → List Token) (previous : TokenKind) (behind text : List Char) : Prop :=
  ∀ tokens, lexer text = tokens ++ [Token.endOfQuery] →
    lastKind previous tokens ≠ .andOp → lastKind previous tokens ≠ .orOp →
    lexer (text ++ ')' :: behind) = completeTokens previous tokens ++ closeToken :: operatorTokens behind

theorem closes_lexChars {previous : TokenKind} (hprevious : previous.stateBehind = .start) (behind text : List Char) :
    Closes lexChars previous behind text := by
  intro tokens htokens hand hor
  refine lexes_iff.mp ((lexes_iff.mpr htokens).append_completed hprevious.symm (by simp) ?_ ?_ ?_)
  · rintro c ⟨⟩
    decide
  · rintro (h | h)
    · exact absurd h hand
    · exact absurd h hor
  · intro state hstate
    exact .closeParen hstate (lexes_operator behind)

/-- The same predicate with its last argument in place, though it is empty. -/
def Atom.completed (a : Atom) : Atom :=
  { a with last := some (a.last.getD "") }

theorem Atom.build_completed (a : Atom) : a.completed.build = a.build :=
  rfl

theorem Atom.argTokens_completed (inits : List String) (last : Option String) :
    argTokens inits (some (last.getD "")) = completeTokens .colon (argTokens inits last) := by
  induction inits with
  | nil => cases last <;> rfl
  | cons value inits ih => exact congrArg (fun tokens => argToken value :: colonToken :: tokens) ih

theorem Atom.lastKind_argTokens (inits : List String) (last : Option String) :
    lastKind .colon (argTokens inits last) = .colon ∨ lastKind .colon (argTokens inits last) = .arg := by
  induction inits with
  | nil =>
      cases last with
      | none => exact .inl rfl
      | some value => exact .inr rfl
  | cons value inits ih => exact ih

def Operand.completed : Operand → Operand
  | .atom n a => .atom n a.completed
  | .group n e => .group n e

def Conjunction.completed : Conjunction → Conjunction
  | .single o => .single o.completed
  | .and k spelled o => .and k spelled o.completed

/-- The phrase of which the last predicate has its argument in place. -/
def Expression.completed : Expression → Expression
  | .single k => .single k.completed
  | .or e k => .or e k.completed

section Completed

variable (previous : TokenKind) (first : List Token)

theorem Operand.complete_append_tokens (o : Operand) :
    completeTokens previous (first ++ o.tokens) = first ++ o.completed.tokens := by
  cases o with
  | atom n a =>
      have hargs := Atom.argTokens_completed a.inits a.last
      rw [Operand.completed, Operand.tokens, Operand.tokens, ← List.append_assoc, ← List.append_assoc,
        Atom.tokens, completeTokens_append_cons, Atom.tokens]
      exact congrArg (fun args => (first ++ List.replicate n notToken) ++
        ⟨.predicate, a.keyword⟩ :: colonToken :: args) hargs.symm
  | group n e =>
      rw [Operand.completed, Operand.tokens, ← List.cons_append, ← List.append_assoc, ← List.append_assoc,
        completeTokens_append_cons]
      rfl

theorem Conjunction.complete_append_tokens (k : Conjunction) :
    completeTokens previous (first ++ k.tokens) = first ++ k.completed.tokens := by
  cases k with
  | single o =>
      rw [Conjunction.completed, Conjunction.tokens, Conjunction.tokens, o.complete_append_tokens]
  | and k spelled o =>
      rw [Conjunction.completed, Conjunction.tokens, Conjunction.tokens, ← List.append_assoc,
        ← List.append_assoc, o.complete_append_tokens, List.append_assoc, List.append_assoc]

theorem Expression.complete_tokens (e : Expression) :
    completeTokens previous e.tokens = e.completed.tokens := by
  cases e with
  | single k => exact k.complete_append_tokens previous []
  | or e k =>
      have hk := k.complete_append_tokens previous (e.tokens ++ [orToken])
      rwa [List.append_assoc, List.append_assoc] at hk

theorem Operand.lastKind_append_tokens (o : Operand) :
    lastKind previous (first ++ o.tokens) ≠ .andOp ∧ lastKind previous (first ++ o.tokens) ≠ .orOp := by
  cases o with
  | atom n a =>
      rw [Operand.tokens, ← List.append_assoc, Atom.tokens, lastKind_append_cons]
      change lastKind .colon (Atom.argTokens a.inits a.last) ≠ .andOp ∧ lastKind .colon _ ≠ .orOp
      rcases Atom.lastKind_argTokens a.inits a.last with h | h <;> rw [h] <;> decide
  | group n e =>
      rw [Operand.tokens, ← List.cons_append, ← List.append_assoc, ← List.append_assoc,
        lastKind_append_cons]
      decide

theorem Conjunction.lastKind_append_tokens (k : Conjunction) :
    lastKind previous (first ++ k.tokens) ≠ .andOp ∧ lastKind previous (first ++ k.tokens) ≠ .orOp := by
  cases k with
  | single o =>
      rw [Conjunction.tokens]
      exact o.lastKind_append_tokens previous first
  | and k spelled o =>
      rw [Conjunction.tokens, ← List.append_assoc, ← List.append_assoc]
      exact o.lastKind_append_tokens previous _

theorem Expression.lastKind_tokens (e : Expression) :
    lastKind previous e.tokens ≠ .andOp ∧ lastKind previous e.tokens ≠ .orOp := by
  cases e with
  | single k => exact k.lastKind_append_tokens previous []
  | or e k =>
      have hk := k.lastKind_append_tokens previous (e.tokens ++ [orToken])
      rwa [List.append_assoc] at hk

end Completed

theorem Operand.parsed_completed (o : Operand) : o.completed.parsed = o.parsed := by
  cases o with
  | atom n a => rw [Operand.completed, Operand.parsed, Operand.parsed, a.build_completed]
  | group n e => rfl

theorem Conjunction.parsed_completed (k : Conjunction) : k.completed.parsed = k.parsed := by
  cases k with
  | single o => rw [Conjunction.completed, Conjunction.parsed, Conjunction.parsed, o.parsed_completed]
  | and k spelled o =>
      rw [Conjunction.completed, Conjunction.parsed, Conjunction.parsed, o.parsed_completed]

theorem Conjunction.parsedAfter_completed (lhs : Constraint) (k : Conjunction) :
    k.completed.parsedAfter lhs = k.parsedAfter lhs := by
  cases k with
  | single o =>
      rw [Conjunction.completed, Conjunction.parsedAfter, Conjunction.parsedAfter, o.parsed_completed]
  | and k spelled o =>
      rw [Conjunction.completed, Conjunction.parsedAfter, Conjunction.parsedAfter, o.parsed_completed]

theorem Expression.parsed_completed (e : Expression) : e.completed.parsed = e.parsed := by
  cases e with
  | single k => rw [Expression.completed, Expression.parsed, Expression.parsed, k.parsed_completed]
  | or e k =>
      rw [Expression.completed, Expression.parsed, Expression.parsed]
      apply congrArg
      funext lhs
      rw [k.parsedAfter_completed]

/-- Whether a text is read as an operand, whatever comes behind it. -/
def IsOperand (text : List Char) (o : Operand) : Prop :=
  ∀ behind, lexChars (text ++ behind) = o.tokens ++ operatorTokens behind

theorem exists_isOperand_of_parse {query : String} {c : Constraint} (hparse : parse query = .ok c)
    (hquery : ∃ ch ∈ query.toList, ch ∉ spaces) :
    ∃ e : Expression, e.parsed = .ok c ∧ IsOperand ('(' :: (query.toList ++ [')'])) (.group 0 e) := by
  have hend : lex query ≠ [Token.endOfQuery] := by
    rw [Ne, lex_eq_end_iff]
    obtain ⟨ch, hmem, hspace⟩ := hquery
    exact fun hblank => hspace (hblank ch hmem)
  obtain ⟨e, hlex⟩ := exists_phrase_of_parse hparse hend
  refine ⟨e.completed, ?_, ?_⟩
  · rw [e.parsed_completed, ← parse_of_lex_eq e hlex, hparse]
  · intro behind
    have hkind := e.lastKind_tokens .openParen
    have hcloses : Closes lexChars .openParen behind query.toList := closes_lexChars rfl behind query.toList
    have hclosed := hcloses e.tokens hlex hkind.1 hkind.2
    rw [List.cons_append, List.append_assoc, List.singleton_append, lexChars_open, hclosed, e.complete_tokens,
      Operand.tokens]
    simp

theorem parsed_group {e : Expression} {c : Constraint} (h : e.parsed = .ok c) (n : Nat) :
    (Operand.group n e).parsed = .ok (negated n c) := by
  rw [Operand.parsed, h]
  rfl

namespace IsOperand

variable {first second between : List Char} {o o' : Operand} {e : Expression} {n : Nat} {query : String}

theorem negate (h : IsOperand first (.group n e)) : IsOperand ('-' :: first) (.group (n + 1) e) := by
  intro behind
  rw [List.cons_append, lexChars_not, h behind]
  rfl

theorem lex_eq (h : IsOperand first o) (hquery : query.toList = first) :
    lex query = o.tokens ++ [Token.endOfQuery] := by
  have hlex := h []
  rwa [List.append_nil, operatorTokens_nil, ← hquery] at hlex

theorem lex_joined (h : IsOperand first o) (h' : IsOperand second o') {joint : List Token}
    (hjoint : operatorTokens (between ++ second) = joint ++ lexChars second)
    (hquery : query.toList = first ++ (between ++ second)) :
    lex query = o.tokens ++ (joint ++ o'.tokens) ++ [Token.endOfQuery] := by
  have hsecond := h' []
  rw [List.append_nil, operatorTokens_nil] at hsecond
  rw [lex, hquery, h, hjoint, hsecond, List.append_assoc, List.append_assoc]

theorem parse_eq (h : IsOperand first o) (hquery : query.toList = first) : parse query = o.parsed := by
  rw [parse_of_lex_eq (.single (.single o)) (h.lex_eq hquery)]
  rfl

theorem parse_and (h : IsOperand first o) (h' : IsOperand second o') (spelled : Bool)
    (hjoint : operatorTokens (between ++ second) = junction spelled ++ lexChars second)
    (hquery : query.toList = first ++ (between ++ second)) :
    parse query = o.parsed.bind fun lhs => o'.parsed.map (Constraint.and lhs) := by
  rw [parse_of_lex_eq (.single (.and (.single o) spelled o')) (h.lex_joined h' hjoint hquery)]
  rfl

theorem parse_or (h : IsOperand first o) (h' : IsOperand second o')
    (hjoint : operatorTokens (between ++ second) = [orToken] ++ lexChars second)
    (hquery : query.toList = first ++ (between ++ second)) :
    parse query = o.parsed.bind fun lhs => o'.parsed.map (Constraint.or lhs) := by
  rw [parse_of_lex_eq (.or (.single (.single o)) (.single o')) (h.lex_joined h' hjoint hquery), Expression.parsed,
    Expression.parsed, Conjunction.parsed]
  simp only [Conjunction.parsedAfter, Except.map_map]

end IsOperand

/-- Answered queries can be put in parentheses and joined. -/
theorem parse_parenthesized {p q : String} {P Q : Constraint} (hp : parse p = .ok P)
    (hq : parse q = .ok Q) (hpBlank : ∃ ch ∈ p.toList, ch ∉ spaces)
    (hqBlank : ∃ ch ∈ q.toList, ch ∉ spaces) :
    parse ("(" ++ p ++ ")") = .ok P ∧
    parse ("-(" ++ p ++ ")") = .ok (.not P) ∧
    parse ("(" ++ p ++ ") and (" ++ q ++ ")") = .ok (.and P Q) ∧
    parse ("(" ++ p ++ ") (" ++ q ++ ")") = .ok (.and P Q) ∧
    parse ("(" ++ p ++ ") or (" ++ q ++ ")") = .ok (.or P Q) := by
  obtain ⟨e, he, hp⟩ := exists_isOperand_of_parse hp hpBlank
  obtain ⟨f, hf, hq⟩ := exists_isOperand_of_parse hq hqBlank
  have hspace : ∀ text, operatorTokens ([' '] ++ '(' :: text) = lexChars ('(' :: text) := by
    intro text
    rw [operatorTokens_eq]
    rfl
  refine ⟨?_, ?_, ?_, ?_, ?_⟩
  · rw [hp.parse_eq (by simp [String.toList_append]), parsed_group he]
    rfl
  · rw [hp.negate.parse_eq (by simp [String.toList_append]), parsed_group he]
    rfl
  · rw [hp.parse_and hq true (operatorTokens_and _) (by simp [String.toList_append]), parsed_group he, parsed_group hf]
    rfl
  · rw [hp.parse_and hq false (hspace _) (by simp [String.toList_append]), parsed_group he, parsed_group hf]
    rfl
  · rw [hp.parse_or hq (operatorTokens_or _) (by simp [String.toList_append]), parsed_group he, parsed_group hf]
    rfl

theorem parse_parenthesized_trailing_colon :
    parse "tag:a or loc:label:" = .ok (.or (.tag "a") (.location .label "")) ∧
    parse "-is:image" = .ok (.not (.mediaType "image")) ∧
    parse "(tag:a or loc:label:) (-is:image)" =
      .ok (.and (.or (.tag "a") (.location .label "")) (.not (.mediaType "image"))) := by
  have hp : parse "tag:a or loc:label:" = .ok (.or (.tag "a") (.location .label "")) := by decide +kernel
  have hq : parse "-is:image" = .ok (.not (.mediaType "image")) := by decide +kernel
  exact ⟨hp, hq, (parse_parenthesized hp hq ⟨'t', by decide, by decide⟩ ⟨'i', by decide, by decide⟩).2.2.2.1⟩

end MediaCatalog.Query
