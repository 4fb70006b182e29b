import MediaCatalog.Proofs.Query.ParserEquations

/-!
What the parser makes of the phrases of the grammar. It reads the first conjunction of an expression as the
grammar does. Behind an `or` it joins an operand without a written `and` only to a single one; to several
operands it adds such an operand as a new alternative.
-/

namespace MediaCatalog.Query

open TokenStream

/-- Whether the operands since the last alternative was begun are two or more. -/
def Conjunction.full : Conjunction → Bool
  | .single _ => false
  | .and k spelled _ => spelled || !k.full

/-- Adds an operand to the alternatives and the operands since then, of which there are several if `full`. -/
def extend (full spelled : Bool) (read : Constraint × Constraint) (next : Constraint) :
    Constraint × Constraint :=
  if spelled || !full then (read.1, .and read.2 next) else (.or read.1 read.2, next)

mutual

/-- What the parser answers to an operand. -/
def Operand.parsed : Operand → Except QueryError Constraint
  | .atom n a => a.build.map (negated n)
  | .group n e => e.parsed.map (negated n)

def Conjunction.parsed : Conjunction → Except QueryError Constraint
  | .single o => o.parsed
  | .and k _ o => k.parsed.bind fun lhs => o.parsed.map (.and lhs)

/-- What the parser has read behind an `or`: the alternatives before the last one, and the last one. -/
def Conjunction.parsedAfter (lhs : Constraint) :
    Conjunction → Except QueryError (Constraint × Constraint)
  | .single o => o.parsed.map fun c => (lhs, c)
  | .and k spelled o => (k.parsedAfter lhs).bind fun read => o.parsed.map (extend k.full spelled read)

def Expression.parsed : Expression → Except QueryError Constraint
  | .single k => k.parsed
  | .or e k => e.parsed.bind fun lhs => (k.parsedAfter lhs).map fun read => .or read.1 read.2

end

theorem readArguments_colon (expected : Bool) (tokens : List Token) :
    readArguments expected (ofTokens (colonToken :: tokens)) = readArguments true (ofTokens tokens) := by
  rw [readArguments]
  rfl

theorem readArguments_arg (expected : Bool) (value : String) (tokens : List Token) :
    readArguments expected (ofTokens (argToken value :: tokens)) =
      (value :: (readArguments false (ofTokens tokens)).1, (readArguments false (ofTokens tokens)).2) := by
  rw [readArguments]
  rfl

theorem readArguments_stop (expected : Bool) {token : Token} (tokens : List Token)
    (hcolon : token.kind ≠ .colon) (harg : token.kind ≠ .arg) :
    readArguments expected (ofTokens (token :: tokens)) =
      (if expected then [""] else [], (ofTokens (token :: tokens)).looked) := by
  rw [readArguments, if_neg (show (ofTokens (token :: tokens)).head.kind ≠ .colon from hcolon),
    if_neg (show (ofTokens (token :: tokens)).head.kind ≠ .arg from harg)]

theorem readArguments_argTokens (inits : List String) (last : Option String) {token : Token}
    (tokens : List Token) (hcolon : token.kind ≠ .colon) (harg : token.kind ≠ .arg) :
    readArguments true (ofTokens (Atom.argTokens inits last ++ token :: tokens)) =
      (inits ++ [last.getD ""], (ofTokens (token :: tokens)).looked) := by
  induction inits with
  | nil =>
      cases last with
      | none => exact readArguments_stop true tokens hcolon harg
      | some value =>
          change readArguments true (ofTokens (argToken value :: token :: tokens)) = _
          rw [readArguments_arg, readArguments_stop false tokens hcolon harg]
          rfl
  | cons value inits ih =>
      change readArguments true (ofTokens (argToken value :: colonToken ::
        (Atom.argTokens inits last ++ token :: tokens))) = _
      rw [readArguments_arg, readArguments_colon, ih]
      rfl

theorem readPositive_atom (a : Atom) {token : Token} (tokens : List Token)
    (hcolon : token.kind ≠ .colon) (harg : token.kind ≠ .arg) :
    readPositive (a.tokens ++ token :: tokens) = a.build.map fun c => (c, token :: tokens) := by
  rw [Atom.tokens, List.cons_append, readPositive_predicate _ rfl, List.cons_append,
    readArguments_colon, readArguments_argTokens _ _ _ hcolon harg]
  rfl

theorem Operand.tokens_eq_cons (o : Operand) :
    ∃ token tokens, o.tokens = token :: tokens ∧
      (token.kind = .notOp ∨ token.kind = .openParen ∨ token.kind = .predicate) := by
  cases o with
  | atom n a =>
      cases n with
      | zero => exact ⟨_, _, by rw [Operand.tokens, List.replicate_zero, List.nil_append, Atom.tokens], by simp⟩
      | succ n => exact ⟨notToken, _, by rw [Operand.tokens, List.replicate_succ, List.cons_append], .inl rfl⟩
  | group n e =>
      cases n with
      | zero => exact ⟨openToken, _, by rw [Operand.tokens, List.replicate_zero, List.nil_append], .inr (.inl rfl)⟩
      | succ n => exact ⟨notToken, _, by rw [Operand.tokens, List.replicate_succ, List.cons_append], .inl rfl⟩

theorem junction_tokens_eq_cons (spelled : Bool) (o : Operand) (tokens : List Token) :
    ∃ next rest, junction spelled ++ (o.tokens ++ tokens) = next :: rest ∧
      next.kind ≠ .colon ∧ next.kind ≠ .arg := by
  cases spelled with
  | true => exact ⟨andToken, o.tokens ++ tokens, rfl, by decide, by decide⟩
  | false =>
      obtain ⟨next, rest, hcons, hkind⟩ := o.tokens_eq_cons
      refine ⟨next, rest ++ tokens, by rw [hcons]; rfl, ?_, ?_⟩
      · rcases hkind with h | h | h <;> simp [h]
      · rcases hkind with h | h | h <;> simp [h]

theorem readExpressionRest_junction (lhs : Constraint) (spelled : Bool) (o : Operand)
    (tokens : List Token) :
    readExpressionRest lhs (junction spelled ++ (o.tokens ++ tokens)) =
      (readOperand (o.tokens ++ tokens)).bind fun read =>
        readExpressionRest (.and lhs read.1) read.2 := by
  cases spelled with
  | true => exact readExpressionRest_cons lhs andToken (o.tokens ++ tokens)
  | false =>
      obtain ⟨next, rest, hcons, hkind⟩ := o.tokens_eq_cons
      change readExpressionRest lhs (o.tokens ++ tokens) = _
      rw [hcons, List.cons_append, readExpressionRest_cons]
      rcases hkind with h | h | h <;> simp [h]

/-- Behind an `or` an operand without an `and` before it begins a new alternative if the last one is full. -/
theorem readRun_junction (lhs run : Constraint) (full spelled : Bool) (o : Operand)
    (tokens : List Token) :
    readRun lhs run full (junction spelled ++ (o.tokens ++ tokens)) =
      (readOperand (o.tokens ++ tokens)).bind fun read =>
        readRun (extend full spelled (lhs, run) read.1).1 (extend full spelled (lhs, run) read.1).2
          (spelled || !full) read.2 := by
  cases spelled with
  | true => exact readRun_cons lhs run full andToken (o.tokens ++ tokens)
  | false =>
      obtain ⟨next, rest, hcons, hkind⟩ := o.tokens_eq_cons
      have halternative := readOrRest_eq (.or lhs run) (next :: (rest ++ tokens))
      change readRun lhs run full (o.tokens ++ tokens) = _
      rw [hcons, List.cons_append, readRun_cons]
      cases full with
      | true => rcases hkind with h | h | h <;> simp [h, extend, halternative]
      | false => rcases hkind with h | h | h <;> simp [h, extend]

mutual

theorem readOperand_tokens (o : Operand) {token : Token} (tokens : List Token)
    (hcolon : token.kind ≠ .colon) (harg : token.kind ≠ .arg) :
    readOperand (o.tokens ++ token :: tokens) = o.parsed.map fun c => (c, token :: tokens) := by
  cases o with
  | atom n a =>
      have hread := readPositive_atom a tokens hcolon harg
      rw [Atom.tokens, List.cons_append] at hread
      rw [Operand.tokens, Atom.tokens, List.append_assoc, List.cons_append,
        readOperand_replicate n _ (by simp), hread, Operand.parsed, Except.map_map, Except.map_map]
  | group n e =>
      have hread := readExpression_tokens e (.inl rfl : closeToken.kind = .closeParen ∨ _) (token :: tokens)
      rw [Operand.tokens, List.append_assoc, List.cons_append, List.append_assoc, List.singleton_append,
        readOperand_replicate n _ (by simp [openToken]), readPositive_open _ rfl, hread, Operand.parsed,
        Except.bind_map, Except.map_bind, Except.map_map]
      cases e.parsed <;> rfl

theorem readExpression_conjunction (k : Conjunction) {token : Token} (tokens : List Token)
    (hcolon : token.kind ≠ .colon) (harg : token.kind ≠ .arg) :
    readExpression (k.tokens ++ token :: tokens) =
      k.parsed.bind fun c => readExpressionRest c (token :: tokens) := by
  cases k with
  | single o =>
      obtain ⟨next, rest, hcons, hkind⟩ := o.tokens_eq_cons
      have hread := readOperand_tokens o tokens hcolon harg
      have hstart : next.kind ≠ .eof := by rcases hkind with h | h | h <;> simp [h]
      rw [hcons, List.cons_append] at hread
      rw [Conjunction.tokens, hcons, List.cons_append, readExpression_cons, if_neg hstart, hread,
        Conjunction.parsed, Except.bind_map]
  | and k spelled o =>
      have hread := readOperand_tokens o tokens hcolon harg
      obtain ⟨next, rest, hcons, hnext, hnext'⟩ := junction_tokens_eq_cons spelled o (token :: tokens)
      rw [Conjunction.tokens, List.append_assoc, List.append_assoc, hcons,
        readExpression_conjunction k rest hnext hnext', Conjunction.parsed, Except.bind_assoc]
      apply congrArg
      funext lhs
      rw [← hcons, readExpressionRest_junction, hread, Except.bind_map, Except.bind_map]

theorem readOrRest_conjunction (lhs : Constraint) (k : Conjunction) {token : Token}
    (tokens : List Token) (hcolon : token.kind ≠ .colon) (harg : token.kind ≠ .arg) :
    readOrRest lhs (k.tokens ++ token :: tokens) =
      (k.parsedAfter lhs).bind fun read => readRun read.1 read.2 k.full (token :: tokens) := by
  cases k with
  | single o =>
      rw [Conjunction.tokens, readOrRest_eq, readOperand_tokens o tokens hcolon harg,
        Conjunction.parsedAfter, Except.bind_map, Except.bind_map]
      rfl
  | and k spelled o =>
      have hread := readOperand_tokens o tokens hcolon harg
      obtain ⟨next, rest, hcons, hnext, hnext'⟩ := junction_tokens_eq_cons spelled o (token :: tokens)
      rw [Conjunction.tokens, List.append_assoc, List.append_assoc, hcons,
        readOrRest_conjunction lhs k rest hnext hnext', Conjunction.parsedAfter, Except.bind_assoc]
      apply congrArg
      funext read
      rw [← hcons, readRun_junction, hread, Except.bind_map, Except.bind_map]
      rfl

theorem readExpression_or (e : Expression) (tokens : List Token) :
    readExpression (e.tokens ++ orToken :: tokens) = e.parsed.bind fun c => readOrRest c tokens := by
  cases e with
  | single k =>
      rw [Expression.tokens, readExpression_conjunction k tokens (by decide) (by decide),
        Expression.parsed]
      apply congrArg
      funext c
      rw [readExpressionRest_cons]
      rfl
  | or e k =>
      rw [Expression.tokens, List.append_assoc, List.cons_append, readExpression_or e,
        Expression.parsed, Except.bind_assoc]
      apply congrArg
      funext c
      rw [readOrRest_conjunction c k tokens (by decide) (by decide), Except.bind_map]
      apply congrArg
      funext read
      rw [readRun_cons]
      rfl

theorem readExpression_tokens (e : Expression) {token : Token}
    (hend : token.kind = .closeParen ∨ token.kind = .eof) (tokens : List Token) :
    readExpression (e.tokens ++ token :: tokens) = e.parsed.map fun c => (c, token :: tokens) := by
  have hcolon : token.kind ≠ .colon := by rcases hend with h | h <;> simp [h]
  have harg : token.kind ≠ .arg := by rcases hend with h | h <;> simp [h]
  cases e with
  | single k =>
      rw [Expression.tokens, readExpression_conjunction k tokens hcolon harg, Expression.parsed]
      cases k.parsed with
      | error error => rfl
      | ok c =>
          rw [Except.ok_bind, readExpressionRest_cons]
          rcases hend with h | h <;> simp [h]
  | or e k =>
      rw [Expression.tokens, List.append_assoc, List.cons_append, readExpression_or e,
        Expression.parsed, Except.map_bind]
      apply congrArg
      funext c
      rw [readOrRest_conjunction c k tokens hcolon harg, Except.map_map]
      cases k.parsedAfter c with
      | error error => rfl
      | ok read =>
          rw [Except.ok_bind, readRun_cons]
          rcases hend with h | h <;> simp [h]

end

/-- A query that the lexer cuts into the tokens of an expression is answered like that expression. -/
theorem parse_of_lex_eq {query : String} (e : Expression)
    (hlex : lex query = e.tokens ++ [Token.endOfQuery]) : parse query = e.parsed := by
  rw [parse_eq, hlex, readExpression_tokens e (.inr rfl)]
  cases e.parsed <;> rfl

end MediaCatalog.Query
