import Mathlib.Tactic.Common
import MediaCatalog.Proofs.Outcomes
import MediaCatalog.Query.Lexer

/-!
The lexer as functions of the text ahead. What a cursor has passed has no influence on the tokens to come, so
each state of the machine is a function from texts to tokens, and four of these functions, which call each
other, make up the lexer.
-/

namespace MediaCatalog.Query

open Text

namespace Cursor

/-- The cursor in a longer text, of which `earlier` was passed before; the nearest character is first. -/
def after (earlier : List Char) (c : Cursor) : Cursor :=
  { c with passed := c.passed ++ earlier }

variable (earlier : List Char) (c : Cursor)

@[simp] theorem held_after : (c.after earlier).held = c.held := rfl

@[simp] theorem ahead_after : (c.after earlier).ahead = c.ahead := rfl

@[simp] theorem queue_after : (c.after earlier).queue = c.queue := rfl

@[simp] theorem takeQueue_after :
    (c.after earlier).takeQueue = (c.takeQueue.1, c.takeQueue.2.after earlier) := rfl

@[simp] theorem peek_after : (c.after earlier).peek = c.peek := rfl

@[simp] theorem atEnd_after : (c.after earlier).atEnd = c.atEnd := rfl

@[simp] theorem isAt_after (valid : List Char) : (c.after earlier).isAt valid = c.isAt valid := rfl

@[simp] theorem ignore_after : (c.after earlier).ignore = c.ignore.after earlier := by
  simp [after, ignore]

@[simp] theorem rewind_after : (c.after earlier).rewind = c.rewind.after earlier := rfl

@[simp] theorem hold_after (n : Nat) : (c.after earlier).hold n = (c.hold n).after earlier := rfl

@[simp] theorem emitValue_after (kind : TokenKind) (value : String) :
    (c.after earlier).emitValue kind value = (c.emitValue kind value).after earlier := by
  simp [emitValue, after, ignore]

@[simp] theorem emit_after (kind : TokenKind) :
    (c.after earlier).emit kind = (c.emit kind).after earlier :=
  emitValue_after earlier c kind _

@[simp] theorem acceptWhile_after (p : Char → Bool) :
    (c.after earlier).acceptWhile p =
      ((c.acceptWhile p).1, (c.acceptWhile p).2.after earlier) := rfl

@[simp] theorem acceptRun_after (valid : List Char) :
    (c.after earlier).acceptRun valid =
      ((c.acceptRun valid).1, (c.acceptRun valid).2.after earlier) := rfl

@[simp] theorem acceptText_after (expected : List Char) :
    (c.after earlier).acceptText expected =
      ((c.acceptText expected).1, (c.acceptText expected).2.after earlier) := by
  induction expected generalizing c with
  | nil => rfl
  | cons e expected ih =>
      rw [acceptText, acceptText, peek_after]
      split
      · rw [hold_after, ih]
      · rw [rewind_after]

theorem hold_append {word rest : List Char} (h : c.ahead = word ++ rest) :
    c.hold word.length = ⟨c.passed, word.reverse ++ c.held, rest, c.queue⟩ := by
  simp [hold, h]

theorem acceptWhile_snd (p : Char → Bool) :
    (c.acceptWhile p).2 =
      ⟨c.passed, (c.ahead.takeWhile p).reverse ++ c.held, c.ahead.dropWhile p, c.queue⟩ :=
  hold_append c (List.takeWhile_append_dropWhile).symm

theorem acceptText_append {word rest : List Char} (h : c.ahead = word ++ rest) :
    c.acceptText word = (true, ⟨c.passed, word.reverse ++ c.held, rest, c.queue⟩) := by
  induction word generalizing c with
  | nil =>
      cases c
      simp_all [acceptText]
  | cons e word ih =>
      have hpeek : c.peek = some e := by simp [peek, h]
      rw [acceptText, if_pos hpeek, ih (c.hold 1) (by simp [h])]
      simp [hold, h]

theorem acceptText_of_not_prefix {word : List Char} (h : ¬ word <+: c.ahead) :
    c.acceptText word = (false, c.rewind) := by
  induction word generalizing c with
  | nil => simp at h
  | cons e word ih =>
      rw [acceptText]
      split
      · rename_i hpeek
        obtain ⟨rest, hrest⟩ := List.head?_eq_some_iff.mp hpeek
        have hshort : ¬ word <+: (c.hold 1).ahead := by
          simpa [hrest, List.cons_prefix_cons] using h
        rw [ih _ hshort]
        simp [rewind, hold, hrest]
      · rfl

end Cursor

namespace LexerState

theorem step_after (state : LexerState) (earlier : List Char) (c : Cursor) :
    state.step (c.after earlier) = ((state.step c).1, (state.step c).2.after earlier) := by
  cases state with
  | start =>
      simp only [step, stepStart, Cursor.acceptRun_after, Cursor.ignore_after, Cursor.peek_after]
      split
      · simp
      · split_ifs <;> simp
  | operator =>
      simp only [step, stepOperator, Cursor.acceptRun_after, Cursor.ignore_after, Cursor.peek_after]
      split <;> simp
  | keyword word kind =>
      simp only [step, stepKeyword, Cursor.acceptText_after, Cursor.atEnd_after, Cursor.isAt_after]
      split <;> simp
  | predicate =>
      simp only [step, stepPredicate, Cursor.acceptWhile_after, Cursor.peek_after]
      split <;> rename_i hcolon <;> simp [fail, hcolon]
  | argument =>
      simp only [step, stepArgument, Cursor.peek_after, Cursor.rewind_after,
        Cursor.acceptWhile_after, Cursor.emit_after]
      split
      · simp
      · split_ifs <;> simp
  | string quote =>
      simp only [step, stepString, Cursor.ahead_after]
      split <;> simp [fail]

end LexerState

theorem tokensFrom_after (state : LexerState) (earlier : List Char) (c : Cursor) :
    tokensFrom state (c.after earlier) = tokensFrom state c := by
  fun_induction tokensFrom state c with
  | case1 state c c' hstep =>
      rw [tokensFrom, LexerState.step_after, hstep]
      simp
  | case2 state c state' c' hstep ih =>
      rw [tokensFrom, LexerState.step_after, hstep]
      simp [ih]

/-- The tokens of a text that a state has before it. -/
def tokensOf (state : LexerState) (text : List Char) : List Token :=
  tokensFrom state (Cursor.ofChars text)

theorem tokensFrom_eq_tokensOf {c : Cursor} (state : LexerState) (hheld : c.held = [])
    (hqueue : c.queue = []) : tokensFrom state c = tokensOf state c.ahead := by
  have hc : c = (Cursor.ofChars c.ahead).after c.passed := by
    cases c
    simp_all [Cursor.ofChars, Cursor.after]
  rw [tokensOf]
  conv_lhs => rw [hc]
  exact tokensFrom_after state c.passed _

theorem tokensFrom_of_step_none {state : LexerState} {c c' : Cursor}
    (h : state.step c = (none, c')) : tokensFrom state c = c'.queue := by
  rw [tokensFrom, h]
  rfl

theorem tokensFrom_of_step_some {state state' : LexerState} {c c' : Cursor}
    (h : state.step c = (some state', c')) :
    tokensFrom state c = c'.queue ++ tokensFrom state' { c' with queue := [] } := by
  rw [tokensFrom, h]
  rfl

theorem tokensOf_of_step_some {state state' : LexerState} {text : List Char} {c : Cursor}
    (h : state.step (Cursor.ofChars text) = (some state', c)) (hheld : c.held = []) :
    tokensOf state text = c.queue ++ tokensOf state' c.ahead := by
  rw [tokensOf, tokensFrom_of_step_some h]
  exact congrArg (c.queue ++ ·) (tokensFrom_eq_tokensOf state' hheld rfl)

/-- The tokens behind an operand. -/
abbrev operatorTokens (text : List Char) : List Token :=
  tokensOf .operator text

/-- The tokens of a text that a predicate has to begin. -/
abbrev predicateTokens (text : List Char) : List Token :=
  tokensOf .predicate text

/-- The tokens behind a colon. -/
abbrev argumentTokens (text : List Char) : List Token :=
  tokensOf .argument text

theorem skipSpaces_ofChars (text : List Char) :
    ((Cursor.ofChars text).acceptRun spaces).2.ignore =
      ⟨(text.takeWhile spaces.contains).reverse, [], text.dropWhile spaces.contains, []⟩ := by
  simp [Cursor.acceptRun, Cursor.acceptWhile_snd, Cursor.ofChars, Cursor.ignore]

theorem lexChars_eq (text : List Char) :
    lexChars text =
      match text.dropWhile spaces.contains with
      | [] => [Token.endOfQuery]
      | c :: rest =>
        if c = '(' then ⟨.openParen, "("⟩ :: lexChars rest
        else if c = ')' then ⟨.closeParen, ")"⟩ :: operatorTokens rest
        else if c = '-' then ⟨.notOp, "-"⟩ :: lexChars rest
        else predicateTokens (c :: rest) := by
  have hstep : LexerState.start.step (Cursor.ofChars text) = LexerState.stepStart (Cursor.ofChars text) := rfl
  rw [LexerState.stepStart, skipSpaces_ofChars] at hstep
  change tokensOf .start text = _
  split
  · rename_i hnil
    exact tokensFrom_of_step_none (by rw [hstep, hnil]; rfl)
  · rename_i c rest hcons
    rw [hcons] at hstep
    simp only [Cursor.peek, List.head?_cons] at hstep
    split_ifs at hstep ⊢ with hopen hclose hnot
    · subst hopen
      exact tokensOf_of_step_some hstep rfl
    · subst hclose
      exact tokensOf_of_step_some hstep rfl
    · subst hnot
      exact tokensOf_of_step_some hstep rfl
    · exact tokensOf_of_step_some hstep rfl

/-- The tokens of a text that begins like an operator. -/
abbrev keywordTokens (word : List Char) (kind : TokenKind) (text : List Char) : List Token :=
  tokensOf (.keyword word kind) text

theorem operatorTokens_eq (text : List Char) :
    operatorTokens text =
      match text.dropWhile spaces.contains with
      | 'a' :: rest => keywordTokens ['a', 'n', 'd'] .andOp ('a' :: rest)
      | 'o' :: rest => keywordTokens ['o', 'r'] .orOp ('o' :: rest)
      | rest => lexChars rest := by
  have hstep : LexerState.operator.step (Cursor.ofChars text) =
      LexerState.stepOperator (Cursor.ofChars text) := rfl
  rw [LexerState.stepOperator, skipSpaces_ofChars] at hstep
  split
  · rename_i rest hrest
    rw [hrest] at hstep
    exact tokensOf_of_step_some hstep rfl
  · rename_i rest hrest
    rw [hrest] at hstep
    exact tokensOf_of_step_some hstep rfl
  · rename_i hand hor
    generalize text.dropWhile spaces.contains = rest at hand hor hstep ⊢
    split at hstep
    · rename_i hpeek
      obtain ⟨tail, htail⟩ := List.head?_eq_some_iff.mp hpeek
      exact absurd htail (hand tail)
    · rename_i hpeek
      obtain ⟨tail, htail⟩ := List.head?_eq_some_iff.mp hpeek
      exact absurd htail (hor tail)
    · exact tokensOf_of_step_some hstep rfl

/-- Whether a word that was read up to here is an operator. -/
def endsOperator (rest : List Char) : Bool :=
  rest.isEmpty || rest.head?.any operatorBoundary.contains

theorem keywordTokens_append {word rest : List Char} (kind : TokenKind) (h : endsOperator rest) :
    keywordTokens word kind (word ++ rest) = ⟨kind, String.ofList word⟩ :: lexChars rest := by
  have hend : rest.isEmpty || rest.head?.any operatorBoundary.contains := h
  have hstep : (LexerState.keyword word kind).step (Cursor.ofChars (word ++ rest)) =
      (some .start, ⟨word.reverse, [], rest, [⟨kind, String.ofList word⟩]⟩) := by
    simp only [LexerState.step, LexerState.stepKeyword]
    rw [Cursor.acceptText_append (Cursor.ofChars _) rfl]
    simp only [Cursor.atEnd, Cursor.isAt, Cursor.peek, Bool.true_and, hend, if_true]
    simp [Cursor.ofChars, Cursor.emit, Cursor.emitValue, Cursor.ignore]
  exact tokensOf_of_step_some hstep rfl

theorem keywordTokens_of_not_operator {word text : List Char} (kind : TokenKind)
    (h : ∀ rest, text = word ++ rest → ¬ endsOperator rest) :
    keywordTokens word kind text = predicateTokens text := by
  have hstep : (LexerState.keyword word kind).step (Cursor.ofChars text) =
      (some .predicate, Cursor.ofChars text) := by
    simp only [LexerState.step, LexerState.stepKeyword]
    by_cases hprefix : word <+: text
    · obtain ⟨rest, rfl⟩ := hprefix
      have hend : ¬ (rest.isEmpty || rest.head?.any operatorBoundary.contains) := h rest rfl
      rw [Cursor.acceptText_append (Cursor.ofChars _) rfl]
      simp only [Cursor.atEnd, Cursor.isAt, Cursor.peek, Bool.true_and, hend]
      simp [Cursor.ofChars, Cursor.rewind]
    · rw [Cursor.acceptText_of_not_prefix (Cursor.ofChars text) hprefix]
      simp [Cursor.ofChars, Cursor.rewind]
  exact tokensOf_of_step_some hstep rfl

theorem predicateTokens_eq (text : List Char) :
    predicateTokens text =
      match text.dropWhile isLetter with
      | ':' :: rest =>
        ⟨.predicate, String.ofList (text.takeWhile isLetter)⟩ :: ⟨.colon, ":"⟩ :: argumentTokens rest
      | _ => [⟨.error, LexicalError.bareLiteral.message⟩] := by
  have hstep : LexerState.predicate.step (Cursor.ofChars text) =
      LexerState.stepPredicate (Cursor.ofChars text) := rfl
  rw [LexerState.stepPredicate, Cursor.acceptWhile_snd] at hstep
  simp only [Cursor.ofChars, Cursor.peek, List.append_nil] at hstep
  split
  · rename_i rest hrest
    rw [hrest, List.head?_cons, if_pos rfl] at hstep
    refine (tokensOf_of_step_some hstep rfl).trans ?_
    simp [Cursor.emit, Cursor.emitValue, Cursor.ignore, Cursor.hold]
  · rename_i hcolon
    rw [if_neg] at hstep
    · exact tokensFrom_of_step_none hstep
    · intro hpeek
      obtain ⟨rest, hrest⟩ := List.head?_eq_some_iff.mp hpeek
      exact hcolon rest hrest

theorem lexChars_nil : lexChars [] = [Token.endOfQuery] :=
  lexChars_eq []

theorem operatorTokens_nil : operatorTokens [] = [Token.endOfQuery] :=
  (operatorTokens_eq []).trans lexChars_nil

theorem argumentTokens_nil : argumentTokens [] = [Token.endOfQuery] := by
  have hstep : LexerState.argument.step (Cursor.ofChars []) = (some .start, Cursor.ofChars []) := rfl
  exact (tokensOf_of_step_some hstep rfl).trans lexChars_nil

theorem readString_suffix {quote : Char} {text value rest : List Char}
    (h : readString quote text = .ok (value, rest)) : rest <:+ text := by
  fun_induction readString quote text generalizing value with
  | case1 => simp at h
  | case2 => simp at h
  | case3 escaped text ih =>
      obtain ⟨⟨inner, _⟩, hinner, heq⟩ := Except.map_eq_ok_iff.mp h
      cases heq
      exact (ih hinner).trans ⟨['\\', escaped], rfl⟩
  | case4 text _ =>
      cases h
      exact List.suffix_cons _ _
  | case5 c text _ _ ih =>
      obtain ⟨⟨inner, _⟩, hinner, heq⟩ := Except.map_eq_ok_iff.mp h
      cases heq
      exact (ih hinner).trans (List.suffix_cons c text)

theorem argumentTokens_quote {quote : Char} (hquote : quote = '"' ∨ quote = '\'')
    (text : List Char) :
    argumentTokens (quote :: text) =
      match readString quote text with
      | .ok (value, rest) => ⟨.arg, String.ofList value⟩ :: operatorTokens rest
      | .error error => [⟨.error, error.message⟩] := by
  have hstep : LexerState.argument.step (Cursor.ofChars (quote :: text)) =
      (some (.string quote), ⟨[], [quote], text, []⟩) := by
    simp [LexerState.step, LexerState.stepArgument, Cursor.ofChars, Cursor.peek, hquote, Cursor.hold]
  refine (tokensFrom_of_step_some hstep).trans ?_
  rw [List.nil_append]
  cases hread : readString quote text with
  | error error =>
      have hnext : (LexerState.string quote).step ⟨[], [quote], text, []⟩ =
          (none, ⟨[quote], [], text, [⟨.error, error.message⟩]⟩) := by
        simp [LexerState.step, LexerState.stepString, hread, LexerState.fail, Cursor.emitValue,
          Cursor.ignore]
      exact tokensFrom_of_step_none hnext
  | ok read =>
      obtain ⟨value, rest⟩ := read
      obtain ⟨body, rfl⟩ := readString_suffix hread
      have hnext : (LexerState.string quote).step ⟨[], [quote], body ++ rest, []⟩ =
          (some .operator, ⟨body.reverse ++ [quote], [], rest, [⟨.arg, String.ofList value⟩]⟩) := by
        simp [LexerState.step, LexerState.stepString, hread, Cursor.hold, Cursor.emitValue,
          Cursor.ignore]
      rw [tokensFrom_of_step_some hnext]
      exact congrArg (_ :: ·) (tokensFrom_eq_tokensOf .operator rfl rfl)

theorem argumentTokens_word {c : Char} (hquote : ¬ (c = '"' ∨ c = '\'')) (text : List Char) :
    argumentTokens (c :: text) =
      ⟨.arg, String.ofList ((c :: text).takeWhile isWordChar)⟩ ::
        match (c :: text).dropWhile isWordChar with
        | ':' :: rest => ⟨.colon, ":"⟩ :: argumentTokens rest
        | rest => operatorTokens rest := by
  have hstep : LexerState.argument.step (Cursor.ofChars (c :: text)) =
      LexerState.stepArgument (Cursor.ofChars (c :: text)) := rfl
  simp only [LexerState.stepArgument, Cursor.ofChars, Cursor.peek, List.head?_cons, if_neg hquote,
    Cursor.acceptWhile_snd, Cursor.rewind, Cursor.emit, Cursor.emitValue, Cursor.ignore,
    List.reverse_nil, List.nil_append, List.append_nil, List.reverse_reverse] at hstep
  split
  · rename_i rest hrest
    rw [hrest, List.head?_cons, if_pos rfl] at hstep
    exact tokensOf_of_step_some hstep rfl
  · rename_i hcolon
    rw [if_neg] at hstep
    · exact tokensOf_of_step_some hstep rfl
    · intro hpeek
      obtain ⟨rest, hrest⟩ := List.head?_eq_some_iff.mp hpeek
      exact hcolon rest hrest

theorem length_lt_of_dropWhile_eq_cons {p : Char → Bool} {text rest : List Char} {c : Char}
    (h : text.dropWhile p = c :: rest) : rest.length < text.length := by
  have hle := (List.dropWhile_suffix (l := text) p).length_le
  rw [h, List.length_cons] at hle
  exact hle

/-- Induction along the four functions. Each may be assumed to have the property asked of it on shorter texts,
and on texts of equal length in the order predicate, start, operator, argument. -/
theorem lexer_induction (start operator predicate argument : List Char → Prop)
    (hpredicate : ∀ text, (∀ rest, rest.length < text.length → argument rest) → predicate text)
    (hstart : ∀ text, (∀ rest, rest.length < text.length → start rest) →
      (∀ rest, rest.length < text.length → operator rest) →
      (∀ rest, rest.length ≤ text.length → predicate rest) → start text)
    (hoperator : ∀ text, (∀ rest, rest.length ≤ text.length → start rest) →
      (∀ rest, rest.length ≤ text.length → predicate rest) → operator text)
    (hargument : ∀ text, (∀ rest, rest.length < text.length → argument rest) →
      (∀ rest, rest.length ≤ text.length → operator rest) → argument text)
    (text : List Char) : start text ∧ operator text ∧ predicate text ∧ argument text := by
  have hall : ∀ n, ∀ text : List Char, text.length < n →
      start text ∧ operator text ∧ predicate text ∧ argument text := by
    intro n
    induction n with
    | zero =>
        intro text hlt
        exact absurd hlt (Nat.not_lt_zero _)
    | succ n ih =>
        -- Of the texts of length `n` each property rests on those shown before it.
        have hpre : ∀ text : List Char, text.length ≤ n → predicate text := by
          intro text hle
          exact hpredicate text fun rest hrest => (ih rest (by omega)).2.2.2
        have hst : ∀ text : List Char, text.length ≤ n → start text := by
          intro text hle
          exact hstart text (fun rest hrest => (ih rest (by omega)).1)
            (fun rest hrest => (ih rest (by omega)).2.1) (fun rest hrest => hpre rest (by omega))
        have hop : ∀ text : List Char, text.length ≤ n → operator text := by
          intro text hle
          exact hoperator text (fun rest hrest => hst rest (by omega))
            (fun rest hrest => hpre rest (by omega))
        intro text hlt
        have hle : text.length ≤ n := Nat.le_of_lt_succ hlt
        refine ⟨hst text hle, hop text hle, hpre text hle, ?_⟩
        exact hargument text (fun rest hrest => (ih rest (by omega)).2.2.2)
          (fun rest hrest => hop rest (by omega))
  exact hall (text.length + 1) text (Nat.lt_succ_self _)

end MediaCatalog.Query
