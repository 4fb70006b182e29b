import MediaCatalog.Query.Lexer
import MediaCatalog.Query.Predicate
import MediaCatalog.Query.TokenStream

/-!
The parser of the query language:

    expression := operand ((AND | OR)? operand)*
    operand    := NOT* (atom | OPEN expression CLOSE)
    atom       := PREDICATE COLON (ARG COLON)* ARG?

Neighbouring operands are joined as by AND, which binds tighter than OR; both associate to the left. Only behind
an OR an operand that no AND joins to two or more before it becomes an alternative of its own. A query without
operands is a constraint that nothing holds.

Each function takes the stream that it reads and answers with a value or an error, and the stream that it
leaves. An operand uses up a token, which is what ends the recursion. Left out are texts with lone surrogates, and a
limit of the recursion: negations and parentheses may be nested as deep as the query is long.
-/

namespace MediaCatalog.Query

open TokenStream

/-- A constraint or an error, and the stream behind it. With a constraint, fewer than `bound` tokens are
left. -/
structure Parsed (bound : Nat) where
  result : Except QueryError Constraint
  rest : TokenStream
  size_lt : result.isOk → rest.size < bound

namespace Parsed

/-- The same outcome under a weaker bound. -/
def weaken {bound bound' : Nat} (p : Parsed bound) (h : bound ≤ bound') : Parsed bound' where
  result := p.result
  rest := p.rest
  size_lt hok := Nat.lt_of_lt_of_le (p.size_lt hok) h

def fail {bound : Nat} (error : QueryError) (rest : TokenStream) : Parsed bound :=
  ⟨.error error, rest, nofun⟩

def negateIf {bound : Nat} (negated : Bool) (p : Parsed bound) : Parsed bound where
  result := p.result.map fun c => if negated then .not c else c
  rest := p.rest
  size_lt hok := p.size_lt (by cases h : p.result <;> simp_all [Except.map, Except.isOk, Except.toBool])

end Parsed

/-- Takes the negations ahead, and tells whether their number is odd. -/
def stripNot (s : TokenStream) : Bool × TokenStream :=
  if s.head.kind = .notOp then
    let (negated, rest) := stripNot s.tail
    (!negated, rest)
  else (false, s.looked)
termination_by s.size
decreasing_by exact size_tail_lt (by simp_all)

theorem size_stripNot_le (s : TokenStream) : (stripNot s).2.size ≤ s.size := by
  fun_induction stripNot s with
  | case1 s _ _ _ hrest ih =>
      rw [hrest] at ih
      exact Nat.le_trans ih (size_tail_le s)
  | case2 s _ => exact Nat.le_of_eq (size_looked s)

/-- Takes the colons and arguments ahead. `expected` says that the token before is a colon; one with
nothing after it stands before an empty argument. -/
def readArguments (expected : Bool) (s : TokenStream) : List String × TokenStream :=
  if s.head.kind = .colon then readArguments true s.tail
  else if s.head.kind = .arg then
    let (args, rest) := readArguments false s.tail
    (s.head.value :: args, rest)
  else (if expected then [""] else [], s.looked)
termination_by s.size
decreasing_by all_goals exact size_tail_lt (by simp_all)

theorem size_readArguments_le (expected : Bool) (s : TokenStream) :
    (readArguments expected s).2.size ≤ s.size := by
  fun_induction readArguments expected s with
  | case1 _ s _ ih => exact Nat.le_trans ih (size_tail_le s)
  | case2 _ s _ _ _ _ hrest ih =>
      rw [hrest] at ih
      exact Nat.le_trans ih (size_tail_le s)
  | case3 _ s => exact Nat.le_of_eq (size_looked s)

def skipAnd (s : TokenStream) : TokenStream :=
  if s.head.kind = .andOp then s.tail else s.looked

theorem size_skipAnd_le (s : TokenStream) : (skipAnd s).size ≤ s.size := by
  unfold skipAnd
  split
  · exact size_tail_le s
  · exact Nat.le_of_eq (size_looked s)

def parseAtom (s : TokenStream) : Parsed s.size :=
  if h : s.head.kind = .predicate then
    let read := readArguments false s.tail
    ⟨buildPredicate s.head.value read.1, read.2, fun _ =>
      Nat.lt_of_le_of_lt (size_readArguments_le false s.tail) (size_tail_lt (by simp [h]))⟩
  else .fail (.expectedPredicate s.head) s.tail

mutual

/-- Everything up to the end of the query or of the group. -/
def parseExpression (s : TokenStream) : Parsed (s.size + 1) :=
  if s.head.kind = .eof then ⟨.ok .empty, s.looked, fun _ => by simp⟩
  else
    have heq : s.looked.size = s.size := size_looked s
    match parseOperand s.looked with
    | ⟨.error error, rest, _⟩ => .fail error rest
    | ⟨.ok first, rest, h⟩ =>
      have hlt : rest.size < s.size := heq ▸ h rfl
      (parseExpressionRest first rest).weaken (by omega)
termination_by 7 * s.size + 5

/-- What follows the operands `lhs` of an expression. -/
def parseExpressionRest (lhs : Constraint) (s : TokenStream) : Parsed (s.size + 1) :=
  if hor : s.head.kind = .orOp then
    have hlt : s.tail.size < s.size := size_tail_lt (by simp [hor])
    (parseOrRest lhs s.tail).weaken (by omega)
  else if s.head.kind = .closeParen ∨ s.head.kind = .eof then
    ⟨.ok lhs, s.looked, fun _ => by simp⟩
  else
    have hle : (skipAnd s).size ≤ s.size := size_skipAnd_le s
    match parseAndRest lhs (skipAnd s) with
    | ⟨.error error, rest, _⟩ => .fail error rest
    | ⟨.ok both, rest, h⟩ =>
      have hlt : rest.size < s.size := Nat.lt_of_lt_of_le (h rfl) hle
      (parseExpressionRest both rest).weaken (by omega)
termination_by 7 * s.size + 4

def parseOperand (s : TokenStream) : Parsed s.size :=
  have hle : (stripNot s).2.size ≤ s.size := size_stripNot_le s
  ((parsePositive (stripNot s).2).negateIf (stripNot s).1).weaken hle
termination_by 7 * s.size + 1

def parsePositive (s : TokenStream) : Parsed s.size :=
  if s.head.kind = .error then .fail (.lexical s.head.value) s.looked
  else if s.head.kind = .eof then .fail (.expectedOperand s.head) s.looked
  else if s.head.kind = .closeParen then .fail .closeWithoutOpen s.looked
  else if hopen : s.head.kind = .openParen then
    have hlt : s.tail.size < s.size := size_tail_lt (by simp [hopen])
    (parseGroupRest s.tail).weaken (by omega)
  else parseAtom s
termination_by 7 * s.size

def parseGroupRest (s : TokenStream) : Parsed s.size :=
  match parseExpression s with
  | ⟨.error error, rest, _⟩ => .fail error rest
  | ⟨.ok inner, rest, h⟩ =>
    if hclose : rest.head.kind = .closeParen then
      ⟨.ok inner, rest.tail, fun _ =>
        Nat.lt_of_lt_of_le (size_tail_lt (by simp [hclose])) (Nat.le_of_lt_succ (h rfl))⟩
    else .fail .openWithoutClose rest.looked
termination_by 7 * s.size + 6

def parseOrRest (lhs : Constraint) (s : TokenStream) : Parsed s.size :=
  match parseConjunction s with
  | ⟨.error error, rest, _⟩ => .fail error rest
  | ⟨.ok next, rest, h⟩ =>
    have hlt : rest.size < s.size := h rfl
    if rest.head.kind = .orOp then
      have hle : rest.tail.size ≤ rest.size := size_tail_le rest
      (parseOrRest (.or lhs next) rest.tail).weaken (by omega)
    else if rest.head.kind = .andOp ∨ rest.head.kind = .closeParen ∨ rest.head.kind = .eof then
      ⟨.ok (.or lhs next), rest.looked, fun _ => by rw [size_looked]; exact hlt⟩
    else
      have heq : rest.looked.size = rest.size := size_looked rest
      (parseOrRest (.or lhs next) rest.looked).weaken (by omega)
termination_by 7 * s.size + 4

/-- An operand of an `or`: one operand or several that are joined as by `and`. -/
def parseConjunction (s : TokenStream) : Parsed s.size :=
  match parseOperand s with
  | ⟨.error error, rest, _⟩ => .fail error rest
  | ⟨.ok first, rest, h⟩ =>
    have hlt : rest.size < s.size := h rfl
    if rest.head.kind = .andOp then
      have hle : rest.tail.size ≤ rest.size := size_tail_le rest
      (parseAndRest first rest.tail).weaken (by omega)
    else if rest.head.kind = .orOp ∨ rest.head.kind = .closeParen ∨ rest.head.kind = .eof then
      ⟨.ok first, rest.looked, fun _ => by rw [size_looked]; exact hlt⟩
    else
      have heq : rest.looked.size = rest.size := size_looked rest
      (parseAndRest first rest.looked).weaken (by omega)
termination_by 7 * s.size + 3

/-- What follows an `and`, written or not, after the operands `lhs`. -/
def parseAndRest (lhs : Constraint) (s : TokenStream) : Parsed s.size :=
  match parseOperand s with
  | ⟨.error error, rest, _⟩ => .fail error rest
  | ⟨.ok next, rest, h⟩ =>
    have hlt : rest.size < s.size := h rfl
    if rest.head.kind = .andOp then
      have hle : rest.tail.size ≤ rest.size := size_tail_le rest
      (parseAndRest (.and lhs next) rest.tail).weaken (by omega)
    else ⟨.ok (.and lhs next), rest.looked, fun _ => by rw [size_looked]; exact hlt⟩
termination_by 7 * s.size + 2

end

/-- A group, from its opening parenthesis on; whatever token is there is taken for one. -/
def parseGroup (s : TokenStream) : Parsed s.size :=
  (parseGroupRest s.tail).weaken (size_tail_le s)

/-- A whole query, in which no closing parenthesis is left over. -/
def parseQuery (s : TokenStream) : Parsed (s.size + 1) :=
  match parseExpression s with
  | ⟨.error error, rest, _⟩ => .fail error rest
  | ⟨.ok constraint, rest, h⟩ =>
    if rest.head.kind = .closeParen then .fail .closeWithoutOpen rest.looked
    else ⟨.ok constraint, rest.looked, fun _ => by rw [size_looked]; exact h rfl⟩

def parse (query : String) : Except QueryError Constraint :=
  (parseQuery (ofTokens (lex query))).result

end MediaCatalog.Query
