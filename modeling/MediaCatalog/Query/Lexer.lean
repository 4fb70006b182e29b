import MediaCatalog.Query.Cursor
import MediaCatalog.Text.Blank
import MediaCatalog.Text.Letter

/-!
The lexer of the query language is a machine whose states each hold some characters, queue some tokens and
name the next state. Every state either cuts something off the text or hands over to a state of lower rank,
so the machine stops.
-/

namespace MediaCatalog.Query

open Text

def spaces : List Char :=
  ['\t', '\n', '\r', ' ']

/-- What must follow the words `and` and `or` for them to be operators, unless the query ends. -/
def operatorBoundary : List Char :=
  ['\t', '\n', '\r', ' ', '(']

/-- The characters that lose the backslash before them in a quoted text. -/
def quoteEscapes : List Char :=
  ['"', '\'', ' ', '\t']

def isWordChar (c : Char) : Bool :=
  c != ':' && c != '(' && c != ')' && !isBlank c

inductive LexicalError where
  | bareLiteral
  | unclosedString
  | danglingEscape
deriving DecidableEq

namespace LexicalError

def message : LexicalError → String
  | bareLiteral => "bare literals unsupported"
  | unclosedString => "unclosed quoted string"
  | danglingEscape => "improperly terminated string"

end LexicalError

/-- A quoted text read after its opening quote: its value and what comes after the closing quote. -/
abbrev StringRead := Except LexicalError (List Char × List Char)

/-- What an escaped character stands for. The backslash stays before a character that needs none. -/
def unescape (c : Char) : List Char :=
  if quoteEscapes.contains c then [c] else ['\\', c]

def readString (quote : Char) : List Char → StringRead
  | [] => .error .unclosedString
  | c :: rest =>
    if c = '\\' then
      match rest with
      | [] => .error .danglingEscape
      | escaped :: rest =>
        (readString quote rest).map fun (value, rest) => (unescape escaped ++ value, rest)
    else if c = quote then .ok ([], rest)
    else (readString quote rest).map fun (value, rest) => (c :: value, rest)

inductive LexerState where
  | start
  | operator
  | keyword (word : List Char) (kind : TokenKind)
  | predicate
  | argument
  | string (quote : Char)
deriving DecidableEq

namespace LexerState

/-- States that hand over without cutting anything off the text go down in rank. -/
def rank : LexerState → Nat
  | predicate => 1
  | start => 2
  | keyword _ _ => 3
  | operator => 4
  | string _ => 5
  | argument => 6

/-- The next state, if there is one, and the cursor that the state leaves behind. -/
abbrev Step := Option LexerState × Cursor

def fail (error : LexicalError) (c : Cursor) : Step :=
  (none, c.emitValue .error error.message)

/-- Between operands: a parenthesis, a negation, a predicate or the end. -/
def stepStart (c : Cursor) : Step :=
  let c := (c.acceptRun spaces).2.ignore
  match c.peek with
  | none => (none, c.emit .eof)
  | some ch =>
    if ch = '(' then (some .start, (c.hold 1).emit .openParen)
    else if ch = ')' then (some .operator, (c.hold 1).emit .closeParen)
    else if ch = '-' then (some .start, (c.hold 1).emit .notOp)
    else (some .predicate, c)

def stepOperator (c : Cursor) : Step :=
  let c := (c.acceptRun spaces).2.ignore
  match c.peek with
  | some 'a' => (some (.keyword ['a', 'n', 'd'] .andOp), c)
  | some 'o' => (some (.keyword ['o', 'r'] .orOp), c)
  | _ => (some .start, c)

/-- An operator, or else a predicate that begins like one. -/
def stepKeyword (word : List Char) (kind : TokenKind) (c : Cursor) : Step :=
  let (found, c) := c.acceptText word
  if found && (c.atEnd || c.isAt operatorBoundary) then (some .start, c.emit kind)
  else (some .predicate, c.rewind)

def stepPredicate (c : Cursor) : Step :=
  let c := (c.acceptWhile isLetter).2
  if c.peek = some ':' then (some .argument, ((c.emit .predicate).hold 1).emit .colon)
  else fail .bareLiteral c

/-- After a colon: a quoted text, or a word that a further colon may follow. -/
def stepArgument (c : Cursor) : Step :=
  match c.peek with
  | none => (some .start, c)
  | some ch =>
    if ch = '"' ∨ ch = '\'' then (some (.string ch), c.hold 1)
    else
      let c := (c.rewind.acceptWhile isWordChar).2.emit .arg
      if c.peek = some ':' then (some .argument, (c.hold 1).emit .colon) else (some .operator, c)

def stepString (quote : Char) (c : Cursor) : Step :=
  match readString quote c.ahead with
  | .ok (value, rest) =>
    (some .operator,
      (c.hold (c.ahead.length - rest.length)).emitValue .arg (String.ofList value))
  | .error error => fail error c

def step : LexerState → Cursor → Step
  | .start => stepStart
  | .operator => stepOperator
  | .keyword word kind => stepKeyword word kind
  | .predicate => stepPredicate
  | .argument => stepArgument
  | .string quote => stepString quote

end LexerState

namespace Cursor

def remaining (c : Cursor) : Nat :=
  c.held.length + c.ahead.length

@[simp] theorem remaining_hold (n : Nat) (c : Cursor) : (c.hold n).remaining = c.remaining := by
  simp only [remaining, hold, List.length_append, List.length_reverse, List.length_take,
    List.length_drop]
  omega

@[simp] theorem remaining_rewind (c : Cursor) : c.rewind.remaining = c.remaining := by
  simp only [remaining, rewind, List.length_append, List.length_reverse, List.length_nil]
  omega

@[simp] theorem remaining_ignore (c : Cursor) : c.ignore.remaining = c.ahead.length := by
  simp [remaining, ignore]

@[simp] theorem remaining_emitValue (kind : TokenKind) (value : String) (c : Cursor) :
    (c.emitValue kind value).remaining = c.ahead.length := by
  simp [remaining, emitValue, ignore]

@[simp] theorem remaining_emit (kind : TokenKind) (c : Cursor) :
    (c.emit kind).remaining = c.ahead.length := by
  simp [emit]

@[simp] theorem remaining_takeQueue (c : Cursor) : c.takeQueue.2.remaining = c.remaining := rfl

@[simp] theorem ahead_emitValue (kind : TokenKind) (value : String) (c : Cursor) :
    (c.emitValue kind value).ahead = c.ahead := rfl

@[simp] theorem ahead_emit (kind : TokenKind) (c : Cursor) : (c.emit kind).ahead = c.ahead := rfl

@[simp] theorem ahead_ignore (c : Cursor) : c.ignore.ahead = c.ahead := rfl

@[simp] theorem ahead_hold (n : Nat) (c : Cursor) : (c.hold n).ahead = c.ahead.drop n := rfl

theorem remaining_acceptWhile (p : Char → Bool) (c : Cursor) :
    (c.acceptWhile p).2.remaining = c.remaining := by
  simp [acceptWhile]

theorem length_ahead_le (c : Cursor) : c.ahead.length ≤ c.remaining := by
  simp [remaining]

theorem remaining_acceptText (text : List Char) (c : Cursor) :
    (c.acceptText text).2.remaining = c.remaining :=
  acceptText_keeps (remaining_hold 1) remaining_rewind text c

theorem length_ahead_pos {c : Cursor} {ch : Char} (h : c.peek = some ch) : 0 < c.ahead.length := by
  cases hahead : c.ahead with
  | nil => simp [peek, hahead] at h
  | cons _ _ => simp

end Cursor

namespace LexerState

/-- A bound on the number of steps to the end: it goes down with every step. -/
def stepBound (state : LexerState) (c : Cursor) : Nat :=
  c.remaining * 7 + state.rank

theorem stepBound_lt_of_remaining {c c' : Cursor} (state state' : LexerState)
    (h : c'.remaining < c.remaining) : state'.stepBound c' < state.stepBound c := by
  have hrank : state'.rank ≤ 6 := by cases state' <;> simp [rank]
  simp only [stepBound]
  omega

theorem stepBound_lt_of_rank {c c' : Cursor} {state state' : LexerState}
    (h : c'.remaining ≤ c.remaining) (hrank : state'.rank < state.rank) :
    state'.stepBound c' < state.stepBound c := by
  simp only [stepBound]
  omega

theorem remaining_spaces (c : Cursor) :
    (c.acceptRun spaces).2.ignore.remaining ≤ c.remaining := by
  have h := Cursor.length_ahead_le (c.acceptRun spaces).2
  rw [Cursor.acceptRun, Cursor.remaining_acceptWhile] at h
  exact Nat.le_trans (Nat.le_of_eq (Cursor.remaining_ignore _)) h

theorem remaining_hold_emit {c : Cursor} {ch : Char} (h : c.peek = some ch) (kind : TokenKind) :
    ((c.hold 1).emit kind).remaining < c.remaining := by
  have hpos := Cursor.length_ahead_pos h
  have hle := Cursor.length_ahead_le c
  simp only [Cursor.remaining_emit, Cursor.ahead_hold, List.length_drop]
  omega

theorem stepBound_stepStart {c c' : Cursor} {state : LexerState}
    (h : stepStart c = (some state, c')) : state.stepBound c' < start.stepBound c := by
  have hle := remaining_spaces c
  revert h
  simp only [stepStart]
  generalize (c.acceptRun spaces).2.ignore = d at hle ⊢
  cases hpeek : d.peek with
  | none => simp
  | some ch =>
      have hcut := fun kind => Nat.lt_of_lt_of_le (remaining_hold_emit hpeek kind) hle
      simp only
      split
      · rintro ⟨⟩
        exact stepBound_lt_of_remaining _ _ (hcut _)
      · split
        · rintro ⟨⟩
          exact stepBound_lt_of_remaining _ _ (hcut _)
        · split
          · rintro ⟨⟩
            exact stepBound_lt_of_remaining _ _ (hcut _)
          · rintro ⟨⟩
            exact stepBound_lt_of_rank hle (by decide)

theorem stepBound_stepOperator {c c' : Cursor} {state : LexerState}
    (h : stepOperator c = (some state, c')) : state.stepBound c' < operator.stepBound c := by
  have hle := remaining_spaces c
  revert h
  simp only [stepOperator]
  generalize (c.acceptRun spaces).2.ignore = d at hle ⊢
  split <;> rintro ⟨⟩ <;> exact stepBound_lt_of_rank hle (by simp [rank])

theorem stepBound_stepKeyword {c c' : Cursor} {state : LexerState} {word : List Char}
    {kind : TokenKind} (h : stepKeyword word kind c = (some state, c')) :
    state.stepBound c' < (keyword word kind).stepBound c := by
  have hle := Cursor.remaining_acceptText word c
  revert h
  simp only [stepKeyword]
  generalize c.acceptText word = d at hle ⊢
  have hahead := Cursor.length_ahead_le d.2
  split
  · rintro ⟨⟩
    exact stepBound_lt_of_rank (by simp; omega) (by simp [rank])
  · rintro ⟨⟩
    exact stepBound_lt_of_rank (by simp; omega) (by simp [rank])

theorem stepBound_stepPredicate {c c' : Cursor} {state : LexerState}
    (h : stepPredicate c = (some state, c')) : state.stepBound c' < predicate.stepBound c := by
  have hle := Cursor.remaining_acceptWhile isLetter c
  revert h
  simp only [stepPredicate]
  generalize (c.acceptWhile isLetter).2 = d at hle ⊢
  have hahead := Cursor.length_ahead_le d
  split
  · rename_i hpeek
    have hpos := Cursor.length_ahead_pos hpeek
    rintro ⟨⟩
    refine stepBound_lt_of_remaining _ _ ?_
    simp only [Cursor.remaining_emit, Cursor.ahead_hold, Cursor.ahead_emit, List.length_drop]
    omega
  · simp [fail]

theorem stepBound_stepArgument {c c' : Cursor} {state : LexerState}
    (h : stepArgument c = (some state, c')) : state.stepBound c' < argument.stepBound c := by
  revert h
  simp only [stepArgument]
  cases hpeek : c.peek with
  | none =>
      rintro ⟨⟩
      exact stepBound_lt_of_rank (Nat.le_refl _) (by decide)
  | some ch =>
      simp only
      split
      · rintro ⟨⟩
        exact stepBound_lt_of_rank (Nat.le_of_eq (Cursor.remaining_hold 1 c)) (by simp [rank])
      · have hword := Cursor.remaining_acceptWhile isWordChar c.rewind
        have hle := Cursor.length_ahead_le (c.rewind.acceptWhile isWordChar).2
        rw [hword, Cursor.remaining_rewind] at hle
        split
        · rename_i hcolon
          have hcut := remaining_hold_emit hcolon .colon
          rintro ⟨⟩
          refine stepBound_lt_of_remaining _ _ (Nat.lt_of_lt_of_le hcut ?_)
          exact Nat.le_trans (Nat.le_of_eq (Cursor.remaining_emit .arg _)) hle
        · rintro ⟨⟩
          exact stepBound_lt_of_rank (by simpa using hle) (by simp [rank])

theorem stepBound_stepString {c c' : Cursor} {state : LexerState} {quote : Char}
    (h : stepString quote c = (some state, c')) :
    state.stepBound c' < (string quote).stepBound c := by
  revert h
  simp only [stepString]
  split
  · rintro ⟨⟩
    have hle := Cursor.length_ahead_le c
    refine stepBound_lt_of_rank ?_ (by simp [rank])
    simp only [Cursor.remaining_emitValue, Cursor.ahead_hold, List.length_drop]
    omega
  · simp [fail]

theorem stepBound_step {c c' : Cursor} {state state' : LexerState}
    (h : step state c = (some state', c')) : state'.stepBound c' < state.stepBound c := by
  cases state with
  | start => exact stepBound_stepStart h
  | operator => exact stepBound_stepOperator h
  | keyword word kind => exact stepBound_stepKeyword h
  | predicate => exact stepBound_stepPredicate h
  | argument => exact stepBound_stepArgument h
  | string quote => exact stepBound_stepString h

end LexerState

/-- The tokens that the lexer yields from a state on, up to the end of the query or an error. -/
def tokensFrom (state : LexerState) (c : Cursor) : List Token :=
  match _ : state.step c with
  | (none, c') => c'.takeQueue.1
  | (some state', c') => c'.takeQueue.1 ++ tokensFrom state' c'.takeQueue.2
termination_by state.stepBound c
decreasing_by
  rename_i hstep
  have hlt := LexerState.stepBound_step hstep
  exact hlt

def lexChars (text : List Char) : List Token :=
  tokensFrom .start (Cursor.ofChars text)

/-- The tokens of a query. The last one is its end or an error, and no other is. -/
def lex (query : String) : List Token :=
  lexChars query.toList

end MediaCatalog.Query
