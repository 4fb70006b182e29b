import MediaCatalog.Proofs.Outcomes
import MediaCatalog.Proofs.Query.Grammar
import MediaCatalog.Query.Parser

/-!
The parser as functions of the tokens ahead. A stream shows its head, its tail and itself after a look, and
these depend only on the tokens to come, so that each function of the parser is one from lists of tokens to a
constraint and the tokens behind it.
-/

namespace MediaCatalog.Query

namespace Parsed

/-- A constraint and the stream behind it, or an error. -/
def reading {bound : Nat} (p : Parsed bound) : Except QueryError (Constraint × TokenStream) :=
  p.result.map fun c => (c, p.rest)

variable {bound bound' : Nat}

@[simp] theorem reading_weaken (p : Parsed bound) (h : bound ≤ bound') :
    (p.weaken h).reading = p.reading := rfl

@[simp] theorem reading_fail (error : QueryError) (rest : TokenStream) :
    (fail error rest : Parsed bound).reading = .error error := rfl

@[simp] theorem reading_error (error : QueryError) (rest : TokenStream) (h) :
    (⟨.error error, rest, h⟩ : Parsed bound).reading = .error error := rfl

@[simp] theorem reading_ok (c : Constraint) (rest : TokenStream) (h) :
    (⟨.ok c, rest, h⟩ : Parsed bound).reading = .ok (c, rest) := rfl

@[simp] theorem reading_negateIf (negated : Bool) (p : Parsed bound) :
    (p.negateIf negated).reading =
      p.reading.map fun read => (if negated then .not read.1 else read.1, read.2) := by
  obtain ⟨_ | _, _, _⟩ := p <;> rfl

end Parsed

namespace Reading

def expression (s : TokenStream) : Except QueryError (Constraint × TokenStream) :=
  (parseExpression s).reading

/-- Reads on behind the operands `lhs` of an expression. -/
def expressionRest (lhs : Constraint) (s : TokenStream) : Except QueryError (Constraint × TokenStream) :=
  (parseExpressionRest lhs s).reading

def operand (s : TokenStream) : Except QueryError (Constraint × TokenStream) :=
  (parseOperand s).reading

def positive (s : TokenStream) : Except QueryError (Constraint × TokenStream) :=
  (parsePositive s).reading

def groupRest (s : TokenStream) : Except QueryError (Constraint × TokenStream) :=
  (parseGroupRest s).reading

def orRest (lhs : Constraint) (s : TokenStream) : Except QueryError (Constraint × TokenStream) :=
  (parseOrRest lhs s).reading

def conjunction (s : TokenStream) : Except QueryError (Constraint × TokenStream) :=
  (parseConjunction s).reading

/-- Reads on behind an `and`, written or not. -/
def andRest (lhs : Constraint) (s : TokenStream) : Except QueryError (Constraint × TokenStream) :=
  (parseAndRest lhs s).reading

def atom (s : TokenStream) : Except QueryError (Constraint × TokenStream) :=
  (parseAtom s).reading

theorem expression_eq (s : TokenStream) :
    expression s =
      if s.head.kind = .eof then .ok (.empty, s.looked)
      else (operand s.looked).bind fun read => expressionRest read.1 read.2 := by
  rw [expression, parseExpression, operand]
  split
  · rfl
  · obtain ⟨_ | _, _, _⟩ := parseOperand s.looked <;> rfl

theorem expressionRest_eq (lhs : Constraint) (s : TokenStream) :
    expressionRest lhs s =
      if s.head.kind = .orOp then orRest lhs s.tail
      else if s.head.kind = .closeParen ∨ s.head.kind = .eof then .ok (lhs, s.looked)
      else (andRest lhs (skipAnd s)).bind fun read => expressionRest read.1 read.2 := by
  rw [expressionRest, parseExpressionRest, andRest]
  split
  · rfl
  · split
    · rfl
    · obtain ⟨_ | _, _, _⟩ := parseAndRest lhs (skipAnd s) <;> rfl

theorem operand_eq (s : TokenStream) :
    operand s =
      (positive (stripNot s).2).map fun read =>
        (if (stripNot s).1 then .not read.1 else read.1, read.2) := by
  rw [operand, parseOperand]
  simp [positive]

theorem positive_eq (s : TokenStream) :
    positive s =
      if s.head.kind = .error then .error (.lexical s.head.value)
      else if s.head.kind = .eof then .error (.expectedOperand s.head)
      else if s.head.kind = .closeParen then .error .closeWithoutOpen
      else if s.head.kind = .openParen then groupRest s.tail
      else atom s := by
  rw [positive, parsePositive]
  split_ifs <;> rfl

theorem groupRest_eq (s : TokenStream) :
    groupRest s =
      (expression s).bind fun read =>
        if read.2.head.kind = .closeParen then .ok (read.1, read.2.tail)
        else .error .openWithoutClose := by
  rw [groupRest, parseGroupRest, expression]
  obtain ⟨_ | _, rest, _⟩ := parseExpression s
  · rfl
  · simp only [Parsed.reading_ok, Except.ok_bind]
    split <;> rfl

theorem orRest_eq (lhs : Constraint) (s : TokenStream) :
    orRest lhs s =
      (conjunction s).bind fun read =>
        if read.2.head.kind = .orOp then orRest (.or lhs read.1) read.2.tail
        else if read.2.head.kind = .andOp ∨ read.2.head.kind = .closeParen ∨
            read.2.head.kind = .eof then .ok (.or lhs read.1, read.2.looked)
        else orRest (.or lhs read.1) read.2.looked := by
  rw [orRest, parseOrRest, conjunction]
  obtain ⟨_ | _, rest, _⟩ := parseConjunction s
  · rfl
  · simp only [Parsed.reading_ok, Except.ok_bind]
    split_ifs <;> rfl

theorem conjunction_eq (s : TokenStream) :
    conjunction s =
      (operand s).bind fun read =>
        if read.2.head.kind = .andOp then andRest read.1 read.2.tail
        else if read.2.head.kind = .orOp ∨ read.2.head.kind = .closeParen ∨
            read.2.head.kind = .eof then .ok (read.1, read.2.looked)
        else andRest read.1 read.2.looked := by
  rw [conjunction, parseConjunction, operand]
  obtain ⟨_ | _, rest, _⟩ := parseOperand s
  · rfl
  · simp only [Parsed.reading_ok, Except.ok_bind]
    split_ifs <;> rfl

theorem andRest_eq (lhs : Constraint) (s : TokenStream) :
    andRest lhs s =
      (operand s).bind fun read =>
        if read.2.head.kind = .andOp then andRest (.and lhs read.1) read.2.tail
        else .ok (.and lhs read.1, read.2.looked) := by
  rw [andRest, parseAndRest, operand]
  obtain ⟨_ | _, rest, _⟩ := parseOperand s
  · rfl
  · simp only [Parsed.reading_ok, Except.ok_bind]
    split_ifs <;> rfl

theorem atom_eq (s : TokenStream) :
    atom s =
      if s.head.kind = .predicate then
        (buildPredicate s.head.value (readArguments false s.tail).1).map fun c =>
          (c, (readArguments false s.tail).2)
      else .error (.expectedPredicate s.head) := by
  rw [atom, parseAtom]
  split <;> rfl

end Reading

namespace TokenStream

@[simp] theorem looked_looked (s : TokenStream) : s.looked.looked = s.looked := by
  rcases s with ⟨_ | _, _⟩ <;> rfl

/-- The tokens to come after a look at the first one. -/
def pending (s : TokenStream) : List Token :=
  s.looked.tokens

@[simp] theorem pending_looked (s : TokenStream) : s.looked.pending = s.pending := by
  rw [pending, looked_looked, pending]

theorem looked_ofTokens_pending (s : TokenStream) : (ofTokens s.pending).looked = s.looked := by
  rcases s with ⟨_ | _, _⟩ <;> rfl

theorem head_ofTokens_pending (s : TokenStream) : (ofTokens s.pending).head = s.head := by
  rw [← head_looked, looked_ofTokens_pending, head_looked]

theorem ofTokens_tail_pending (s : TokenStream) : ofTokens s.pending.tail = s.tail := by
  rcases s with ⟨_ | _, _⟩ <;> rfl

theorem eq_ofTokens_pending {α : Type} {f : TokenStream → α} (hlooked : ∀ s, f s.looked = f s)
    (s : TokenStream) : f s = f (ofTokens s.pending) := by
  rw [← hlooked (ofTokens s.pending), looked_ofTokens_pending, hlooked]

end TokenStream

open TokenStream

theorem stripNot_looked (s : TokenStream) : stripNot s.looked = stripNot s := by
  rw [stripNot, head_looked, tail_looked, looked_looked]
  conv_rhs => rw [stripNot]

theorem skipAnd_looked (s : TokenStream) : skipAnd s.looked = skipAnd s := by
  rw [skipAnd, head_looked, tail_looked, looked_looked, skipAnd]

namespace Reading

theorem expressionRest_looked (lhs : Constraint) (s : TokenStream) :
    expressionRest lhs s.looked = expressionRest lhs s := by
  rw [expressionRest_eq, expressionRest_eq lhs s, head_looked, looked_looked, tail_looked,
    skipAnd_looked]

theorem positive_looked (s : TokenStream) : positive s.looked = positive s := by
  rw [positive_eq, positive_eq s, atom_eq, atom_eq s, head_looked, tail_looked]

theorem operand_looked (s : TokenStream) : operand s.looked = operand s := by
  rw [operand_eq, operand_eq s, stripNot_looked]

theorem orRest_looked (lhs : Constraint) (s : TokenStream) :
    orRest lhs s.looked = orRest lhs s := by
  rw [orRest_eq, orRest_eq lhs s, conjunction_eq, conjunction_eq s, operand_looked]

theorem andRest_looked (lhs : Constraint) (s : TokenStream) :
    andRest lhs s.looked = andRest lhs s := by
  rw [andRest_eq, andRest_eq lhs s, operand_looked]

/-- Reads on behind the operands `run` of a conjunction. After two of them only a written `and` joins another
one: this is what `full` says. -/
def runRest (run : Constraint) (full : Bool) (s : TokenStream) :
    Except QueryError (Constraint × TokenStream) :=
  if s.head.kind = .andOp then andRest run s.tail
  else if full ∨ s.head.kind = .orOp ∨ s.head.kind = .closeParen ∨ s.head.kind = .eof then
    .ok (run, s.looked)
  else andRest run s.looked

/-- Reads on behind a conjunction that belongs to the alternatives `lhs`. -/
def orFinish (lhs : Constraint) (read : Constraint × TokenStream) :
    Except QueryError (Constraint × TokenStream) :=
  if read.2.head.kind = .orOp then orRest (.or lhs read.1) read.2.tail
  else if read.2.head.kind = .andOp ∨ read.2.head.kind = .closeParen ∨ read.2.head.kind = .eof then
    .ok (.or lhs read.1, read.2.looked)
  else orRest (.or lhs read.1) read.2.looked

theorem andRest_eq_runRest (lhs : Constraint) (s : TokenStream) :
    andRest lhs s = (operand s).bind fun read => runRest (.and lhs read.1) true read.2 := by
  rw [andRest_eq]
  simp [runRest]

theorem orRest_eq_runRest (lhs : Constraint) (s : TokenStream) :
    orRest lhs s = (operand s).bind fun read => (runRest read.1 false read.2).bind (orFinish lhs) := by
  rw [orRest_eq, conjunction_eq, Except.bind_assoc]
  simp only [runRest, Bool.false_eq_true, false_or]
  rfl

theorem runRest_looked (run : Constraint) (full : Bool) (s : TokenStream) :
    runRest run full s.looked = runRest run full s := by
  rw [runRest, head_looked, tail_looked, looked_looked, runRest]

end Reading

/-- A constraint and the tokens behind it. -/
def view (read : Constraint × TokenStream) : Constraint × List Token :=
  (read.1, read.2.pending)

def readExpression (tokens : List Token) : Except QueryError (Constraint × List Token) :=
  (Reading.expression (ofTokens tokens)).map view

/-- Reads on behind the operands `lhs` of an expression. -/
def readExpressionRest (lhs : Constraint) (tokens : List Token) :
    Except QueryError (Constraint × List Token) :=
  (Reading.expressionRest lhs (ofTokens tokens)).map view

def readOperand (tokens : List Token) : Except QueryError (Constraint × List Token) :=
  (Reading.operand (ofTokens tokens)).map view

def readPositive (tokens : List Token) : Except QueryError (Constraint × List Token) :=
  (Reading.positive (ofTokens tokens)).map view

def readOrRest (lhs : Constraint) (tokens : List Token) :
    Except QueryError (Constraint × List Token) :=
  (Reading.orRest lhs (ofTokens tokens)).map view

def readAndRest (lhs : Constraint) (tokens : List Token) :
    Except QueryError (Constraint × List Token) :=
  (Reading.andRest lhs (ofTokens tokens)).map view

theorem map_view_expressionRest (lhs : Constraint) (s : TokenStream) :
    (Reading.expressionRest lhs s).map view = readExpressionRest lhs s.pending := by
  rw [eq_ofTokens_pending (Reading.expressionRest_looked lhs) s, readExpressionRest]

theorem readExpression_cons (token : Token) (tokens : List Token) :
    readExpression (token :: tokens) =
      if token.kind = .eof then .ok (.empty, token :: tokens)
      else (readOperand (token :: tokens)).bind fun read => readExpressionRest read.1 read.2 := by
  rw [readExpression, Reading.expression_eq]
  change Except.map view (if token.kind = .eof then _ else _) = _
  split_ifs
  · rfl
  · rw [Reading.operand_looked, Except.map_bind, readOperand, Except.bind_map]
    exact congrArg _ (funext fun read => map_view_expressionRest read.1 read.2)

/-- Behind the operands of an `and`, the tokens are read on as an expression would read them. -/
theorem readAndRest_bind (lhs : Constraint) (tokens : List Token) :
    ((readAndRest lhs tokens).bind fun read => readExpressionRest read.1 read.2) =
      (readOperand tokens).bind fun read => readExpressionRest (.and lhs read.1) read.2 := by
  rw [readAndRest, Reading.andRest_eq, Except.bind_map, Except.bind_assoc, readOperand, Except.bind_map]
  apply congrArg
  funext read
  rw [view, ← map_view_expressionRest]
  by_cases hand : read.2.head.kind = .andOp
  · rw [if_pos hand, Reading.expressionRest_eq, hand, if_neg (by decide), if_neg (by decide), skipAnd,
      if_pos hand, Except.map_bind]
    exact congrArg _ (funext fun next => (map_view_expressionRest next.1 next.2).symm)
  · rw [if_neg hand, Except.ok_bind, map_view_expressionRest, view, pending_looked]

theorem readExpressionRest_cons (lhs : Constraint) (token : Token) (tokens : List Token) :
    readExpressionRest lhs (token :: tokens) =
      if token.kind = .orOp then readOrRest lhs tokens
      else if token.kind = .closeParen ∨ token.kind = .eof then .ok (lhs, token :: tokens)
      else (readOperand (if token.kind = .andOp then tokens else token :: tokens)).bind fun read =>
        readExpressionRest (.and lhs read.1) read.2 := by
  rw [readExpressionRest, Reading.expressionRest_eq]
  have hjoin : ∀ rest, ((Reading.andRest lhs (ofTokens rest)).bind fun read =>
      Reading.expressionRest read.1 read.2).map view =
        (readOperand rest).bind fun read => readExpressionRest (.and lhs read.1) read.2 := by
    intro rest
    rw [← readAndRest_bind, Except.map_bind, readAndRest, Except.bind_map]
    exact congrArg _ (funext fun read => map_view_expressionRest read.1 read.2)
  change Except.map view
    (if token.kind = .orOp then Reading.orRest lhs (ofTokens tokens)
    else if token.kind = .closeParen ∨ token.kind = .eof then
      .ok (lhs, (ofTokens (token :: tokens)).looked)
    else (Reading.andRest lhs
      (if token.kind = .andOp then ofTokens tokens else (ofTokens (token :: tokens)).looked)).bind
        fun read => Reading.expressionRest read.1 read.2) = _
  split_ifs
  · rfl
  · rfl
  · exact hjoin tokens
  · rw [Reading.andRest_looked]
    exact hjoin (token :: tokens)

/-- Reads on behind the alternatives `lhs` and the operands `run` of another one. -/
def readRun (lhs run : Constraint) (full : Bool) (tokens : List Token) :
    Except QueryError (Constraint × List Token) :=
  ((Reading.runRest run full (ofTokens tokens)).bind (Reading.orFinish lhs)).map view

theorem readOrRest_eq (lhs : Constraint) (tokens : List Token) :
    readOrRest lhs tokens =
      (readOperand tokens).bind fun read => readRun lhs read.1 false read.2 := by
  rw [readOrRest, Reading.orRest_eq_runRest, Except.map_bind, readOperand, Except.bind_map]
  apply congrArg
  funext read
  rw [readRun, view, ← eq_ofTokens_pending (Reading.runRest_looked read.1 false)]

theorem readRun_cons (lhs run : Constraint) (full : Bool) (token : Token) (tokens : List Token) :
    readRun lhs run full (token :: tokens) =
      if token.kind = .andOp then
        (readOperand tokens).bind fun read => readRun lhs (.and run read.1) true read.2
      else if token.kind = .orOp then readOrRest (.or lhs run) tokens
      else if token.kind = .closeParen ∨ token.kind = .eof then .ok (.or lhs run, token :: tokens)
      else if full then readOrRest (.or lhs run) (token :: tokens)
      else (readOperand (token :: tokens)).bind fun read => readRun lhs (.and run read.1) true read.2 := by
  have hjoin : ∀ rest,
      ((Reading.andRest run (ofTokens rest)).bind (Reading.orFinish lhs)).map view =
        (readOperand rest).bind fun read => readRun lhs (.and run read.1) true read.2 := by
    intro rest
    rw [Reading.andRest_eq_runRest, Except.bind_assoc, Except.map_bind, readOperand, Except.bind_map]
    apply congrArg
    funext read
    rw [readRun, view, ← eq_ofTokens_pending (Reading.runRest_looked _ _)]
  have hfinish : ((Reading.orFinish lhs (run, (ofTokens (token :: tokens)).looked)).map view) =
      if token.kind = .orOp then readOrRest (.or lhs run) tokens
      else if token.kind = .andOp ∨ token.kind = .closeParen ∨ token.kind = .eof then
        .ok (.or lhs run, token :: tokens)
      else readOrRest (.or lhs run) (token :: tokens) := by
    simp only [Reading.orFinish, looked_looked, head_looked, tail_looked, Reading.orRest_looked,
      apply_ite (Except.map view)]
    rfl
  rw [readRun, Reading.runRest]
  change ((if token.kind = .andOp then Reading.andRest run (ofTokens tokens)
    else if full ∨ token.kind = .orOp ∨ token.kind = .closeParen ∨ token.kind = .eof then
      .ok (run, (ofTokens (token :: tokens)).looked)
    else Reading.andRest run (ofTokens (token :: tokens)).looked).bind _).map _ = _
  by_cases hand : token.kind = .andOp
  · simp only [hand, if_true]
    exact hjoin tokens
  · by_cases hstop : full ∨ token.kind = .orOp ∨ token.kind = .closeParen ∨ token.kind = .eof
    · rw [if_neg hand, if_pos hstop, Except.ok_bind, hfinish]
      simp only [hand, false_or, if_false]
      split_ifs with hor hend hfull
      · rfl
      · rfl
      · rfl
      · simp_all
    · rw [if_neg hand, if_neg hstop, Reading.andRest_looked, hjoin]
      simp_all

theorem stripNot_replicate (n : Nat) {token : Token} (tokens : List Token)
    (htoken : token.kind ≠ .notOp) :
    stripNot (ofTokens (List.replicate n notToken ++ token :: tokens)) =
      (decide (n % 2 = 1), (ofTokens (token :: tokens)).looked) := by
  induction n with
  | zero =>
      rw [stripNot, if_neg]
      · rfl
      · exact htoken
  | succ n ih =>
      rw [List.replicate_succ, List.cons_append, stripNot]
      change (if notToken.kind = .notOp then
        (!(stripNot (ofTokens (List.replicate n notToken ++ token :: tokens))).1,
          (stripNot (ofTokens (List.replicate n notToken ++ token :: tokens))).2) else _) = _
      rw [ih, if_pos (show notToken.kind = .notOp from rfl), Prod.mk.injEq]
      refine ⟨?_, rfl⟩
      rw [← decide_not, decide_eq_decide]
      omega

theorem readOperand_replicate (n : Nat) {token : Token} (tokens : List Token)
    (htoken : token.kind ≠ .notOp) :
    readOperand (List.replicate n notToken ++ token :: tokens) =
      (readPositive (token :: tokens)).map fun read => (negated n read.1, read.2) := by
  rw [readOperand, Reading.operand_eq, stripNot_replicate n tokens htoken, Reading.positive_looked,
    readPositive, Except.map_map, Except.map_map]
  simp only [decide_eq_true_eq]
  rfl

theorem readPositive_open {token : Token} (tokens : List Token) (htoken : token.kind = .openParen) :
    readPositive (token :: tokens) =
      (readExpression tokens).bind fun read =>
        if (ofTokens read.2).head.kind = .closeParen then .ok (read.1, (ofTokens read.2.tail).pending)
        else .error .openWithoutClose := by
  have hhead : (ofTokens (token :: tokens)).head.kind = .openParen := htoken
  rw [readPositive, Reading.positive_eq, hhead]
  simp only [reduceCtorEq, if_false, if_true]
  rw [Reading.groupRest_eq, readExpression, Except.map_bind, Except.bind_map]
  apply congrArg
  funext read
  rw [view, head_ofTokens_pending, ofTokens_tail_pending, apply_ite (Except.map view)]
  rfl

theorem readPositive_predicate {token : Token} (tokens : List Token)
    (htoken : token.kind = .predicate) :
    readPositive (token :: tokens) =
      (buildPredicate token.value (readArguments false (ofTokens tokens)).1).map fun c =>
        (c, (readArguments false (ofTokens tokens)).2.pending) := by
  have hhead : (ofTokens (token :: tokens)).head.kind = .predicate := htoken
  rw [readPositive, Reading.positive_eq, hhead]
  simp only [reduceCtorEq, if_false]
  rw [Reading.atom_eq, if_pos hhead, Except.map_map]
  rfl

theorem kind_of_readPositive {token : Token} {tokens : List Token} {read : Constraint × List Token}
    (h : readPositive (token :: tokens) = .ok read) :
    token.kind = .openParen ∨ token.kind = .predicate := by
  by_cases hopen : token.kind = .openParen
  · exact .inl hopen
  · refine .inr ?_
    by_contra hpredicate
    have hhead : (ofTokens (token :: tokens)).head = token := rfl
    rw [readPositive, Reading.positive_eq, hhead, if_neg hopen, Reading.atom_eq, hhead,
      if_neg hpredicate] at h
    split_ifs at h <;> simp at h

theorem parse_eq (query : String) :
    parse query =
      (readExpression (lex query)).bind fun read =>
        if (ofTokens read.2).head.kind = .closeParen then .error .closeWithoutOpen
        else .ok read.1 := by
  rw [parse, parseQuery, readExpression, Except.bind_map]
  rw [Reading.expression]
  obtain ⟨_ | _, rest, _⟩ := parseExpression (ofTokens (lex query))
  · rfl
  · simp only [Parsed.reading_ok, Except.ok_bind, view, head_ofTokens_pending]
    split <;> rfl

end MediaCatalog.Query
