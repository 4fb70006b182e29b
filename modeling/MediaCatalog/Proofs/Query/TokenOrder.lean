import MediaCatalog.Proofs.Query.Lexing

/-!
The order in which the lexer yields tokens. Which kinds can come next depends on the last one alone, and only
the end of the query or an error ends the sequence.
-/

namespace MediaCatalog.Query

open Text

namespace TokenKind

/-- The kinds that can come after a kind. -/
def successors : TokenKind → List TokenKind
  | andOp | orOp | notOp | openParen => [openParen, closeParen, notOp, predicate, eof, error]
  | predicate => [colon]
  | colon => [arg, eof, error]
  | arg => [colon, andOp, orOp, openParen, closeParen, notOp, predicate, eof, error]
  | closeParen => [andOp, orOp, openParen, closeParen, notOp, predicate, eof, error]
  | eof | error => []

/-- The text of the tokens of a kind, if they all have the same. -/
def text? : TokenKind → Option String
  | andOp => some "and"
  | orOp => some "or"
  | notOp => some "-"
  | openParen => some "("
  | closeParen => some ")"
  | colon => some ":"
  | eof => some ""
  | arg | predicate | error => none

end TokenKind

/-- The tokens that can come after a token of some kind, up to the end of the query or an error. -/
inductive Continues : TokenKind → List Token → Prop where
  | last {kind : TokenKind} {token : Token} (hkind : token.kind ∈ kind.successors)
      (htext : ∀ text ∈ token.kind.text?, token.value = text)
      (hlast : token.kind = .eof ∨ token.kind = .error) : Continues kind [token]
  | cons {kind : TokenKind} {token : Token} {rest : List Token}
      (hkind : token.kind ∈ kind.successors)
      (htext : ∀ text ∈ token.kind.text?, token.value = text)
      (hrest : Continues token.kind rest) : Continues kind (token :: rest)

namespace Continues

theorem ne_nil {kind : TokenKind} {tokens : List Token} (h : Continues kind tokens) :
    tokens ≠ [] := by
  cases h <;> simp

theorem endOfQuery {kind : TokenKind} (hkind : .eof ∈ kind.successors) :
    Continues kind [Token.endOfQuery] :=
  .last hkind (by simp [Token.endOfQuery, TokenKind.text?]) (.inl rfl)

theorem error {kind : TokenKind} (hkind : .error ∈ kind.successors) (message : String) :
    Continues kind [⟨.error, message⟩] :=
  .last hkind (by simp [TokenKind.text?]) (.inr rfl)

theorem cons_inv {kind : TokenKind} {token : Token} {rest : List Token}
    (h : Continues kind (token :: rest)) :
    token.kind ∈ kind.successors ∧ (∀ text ∈ token.kind.text?, token.value = text) ∧
      (((token.kind = .eof ∨ token.kind = .error) ∧ rest = []) ∨ Continues token.kind rest) := by
  cases h with
  | last hkind htext hlast => exact ⟨hkind, htext, .inl ⟨hlast, rfl⟩⟩
  | cons hkind htext hrest => exact ⟨hkind, htext, .inr hrest⟩

theorem of_append {kind : TokenKind} {first rest : List Token} (h : Continues kind (first ++ rest))
    (hrest : rest ≠ []) : ∃ kind, Continues kind rest := by
  induction first generalizing kind with
  | nil => exact ⟨kind, h⟩
  | cons token first ih =>
      rcases (cons_inv h).2.2 with ⟨_, hlast⟩ | htail
      · exact absurd (List.append_eq_nil_iff.mp hlast).2 hrest
      · exact ih htail

end Continues

/-- Any of the kinds that the lexer finds between operands can come next. -/
def TokenKind.BeforeOperand (kind : TokenKind) : Prop :=
  ∀ next ∈ TokenKind.openParen.successors, next ∈ kind.successors

/-- Whether the lexer can be in a state behind a token of some kind. -/
def TokenKind.Before (kind : TokenKind) : LexerState → Prop
  | .start => kind.BeforeOperand
  | .operator => kind = .arg ∨ kind = .closeParen
  | .argument => kind = .colon
  | _ => False

theorem TokenKind.Before.beforeOperand {kind : TokenKind} {state : LexerState} (h : kind.Before state)
    (hstate : state.BetweenOperands) : kind.BeforeOperand := by
  rcases hstate with rfl | rfl
  · exact h
  · rcases h with rfl | rfl <;> simp [BeforeOperand, successors]

theorem beforeOperand_of_mem_operatorWords {word : List Char} {kind : TokenKind}
    (h : (word, kind) ∈ operatorWords) : kind.BeforeOperand := by
  rcases kind_of_mem_operatorWords h with rfl | rfl <;> simp [TokenKind.BeforeOperand, TokenKind.successors]

theorem text_of_mem_operatorWords {word : List Char} {kind : TokenKind} (h : (word, kind) ∈ operatorWords) :
    ∀ text ∈ kind.text?, String.ofList word = text := by
  rcases mem_operatorWords_iff.mp h with ⟨rfl, rfl⟩ | ⟨rfl, rfl⟩ <;> simp [TokenKind.text?]

theorem Continues.colon {kind : TokenKind} {tokens : List Token} (hkind : .colon ∈ kind.successors)
    (h : Continues .colon tokens) : Continues kind (colonToken :: tokens) :=
  .cons hkind (by simp [colonToken, TokenKind.text?]) h

theorem Continues.arg {tokens : List Token} (h : Continues .arg tokens) (value : String) :
    Continues .colon (argToken value :: tokens) :=
  .cons (by simp [argToken, TokenKind.successors]) (by simp [argToken, TokenKind.text?]) h

theorem Lexes.continues {state : LexerState} {text : List Char} {tokens : List Token} (h : Lexes state text tokens)
    {kind : TokenKind} (hkind : kind.Before state) : Continues kind tokens := by
  induction h generalizing kind with
  | finish hstate =>
      rcases hstate with hstate | rfl
      · exact .endOfQuery (hkind.beforeOperand hstate _ (by decide))
      · obtain rfl : kind = .colon := hkind
        exact .endOfQuery (by decide)
  | space _ _ _ ih => exact ih hkind
  | openParen hstate _ ih =>
      have hbehind : TokenKind.openParen.BeforeOperand := fun _ h => h
      exact .cons (hkind.beforeOperand hstate _ (by decide)) (by simp [openToken, TokenKind.text?]) (ih hbehind)
  | closeParen hstate _ ih =>
      exact .cons (hkind.beforeOperand hstate _ (by decide)) (by simp [closeToken, TokenKind.text?]) (ih (.inr rfl))
  | negation hstate _ ih =>
      have hbehind : TokenKind.notOp.BeforeOperand := fun _ h => h
      exact .cons (hkind.beforeOperand hstate _ (by decide)) (by simp [notToken, TokenKind.text?]) (ih hbehind)
  | operator hword _ _ ih =>
      refine .cons ?_ (text_of_mem_operatorWords hword) (ih (beforeOperand_of_mem_operatorWords hword))
      rcases kind_of_mem_operatorWords hword with rfl | rfl <;> rcases hkind with rfl | rfl <;> simp [TokenKind.successors]
  | predicate hstate _ _ ih =>
      exact .cons (hkind.beforeOperand hstate _ (by simp [TokenKind.successors])) (by simp [TokenKind.text?])
        ((ih rfl).colon (by simp [TokenKind.successors]))
  | bareLiteral hstate => exact .error (hkind.beforeOperand hstate _ (by decide)) _
  | quoted _ _ _ ih =>
      obtain rfl : kind = .colon := hkind
      exact (ih (.inl rfl)).arg _
  | unclosed =>
      obtain rfl : kind = .colon := hkind
      exact .error (by decide) _
  | word _ _ _ _ _ ih =>
      obtain rfl : kind = .colon := hkind
      exact (ih (.inl rfl)).arg _
  | chain _ _ _ ih =>
      obtain rfl : kind = .colon := hkind
      exact ((ih rfl).colon (by decide)).arg _

theorem continues_lex (query : String) : Continues .openParen (lex query) :=
  (lexes_start query.toList).continues fun _ h => h

end MediaCatalog.Query
