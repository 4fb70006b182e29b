import MediaCatalog.Proofs.Query.Grammar
import MediaCatalog.Proofs.Query.LexerEquations
import MediaCatalog.Proofs.Query.Quoting
import Mathlib.Data.List.TakeWhile

/-!
Lexing as a relation between texts and tokens, with one rule for each way in which the lexer cuts a token off a
text. A rule looks at the text behind its token in two cases only: a word ends where another character begins, and
`and` and `or` are operators only before certain characters. So what stands in front of a text and what is written
behind it can be told apart again in its tokens.
-/

namespace MediaCatalog.Query

open Text

/-- The words of the operators. -/
def operatorWords : List (List Char × TokenKind) :=
  [(['a', 'n', 'd'], .andOp), (['o', 'r'], .orOp)]

def BeginsOperator (text : List Char) : Prop :=
  ∃ word kind rest, (word, kind) ∈ operatorWords ∧ text = word ++ rest ∧ endsOperator rest

/-- Whether a text has to begin with a predicate, unless it is an operator that it begins with. -/
def BeginsPredicate (text : List Char) : Prop :=
  ∃ c rest, text = c :: rest ∧ c ∉ spaces ∧ c ∉ ['(', ')', '-']

/-- The states in which white space is skipped. -/
abbrev LexerState.BetweenOperands (state : LexerState) : Prop :=
  state = .start ∨ state = .operator

/-- What the lexer yields for a text that a state has before it. -/
inductive Lexes : LexerState → List Char → List Token → Prop where
  | finish {state : LexerState} (hstate : state.BetweenOperands ∨ state = .argument) :
      Lexes state [] [Token.endOfQuery]
  | space {state : LexerState} {c : Char} {text : List Char} {tokens : List Token}
      (hstate : state.BetweenOperands) (hc : c ∈ spaces) (h : Lexes state text tokens) :
      Lexes state (c :: text) tokens
  | openParen {state : LexerState} {text : List Char} {tokens : List Token}
      (hstate : state.BetweenOperands) (h : Lexes .start text tokens) :
      Lexes state ('(' :: text) (openToken :: tokens)
  | closeParen {state : LexerState} {text : List Char} {tokens : List Token}
      (hstate : state.BetweenOperands) (h : Lexes .operator text tokens) :
      Lexes state (')' :: text) (closeToken :: tokens)
  | negation {state : LexerState} {text : List Char} {tokens : List Token}
      (hstate : state.BetweenOperands) (h : Lexes .start text tokens) :
      Lexes state ('-' :: text) (notToken :: tokens)
  | operator {word : List Char} {kind : TokenKind} {text : List Char} {tokens : List Token}
      (hword : (word, kind) ∈ operatorWords) (hend : endsOperator text) (h : Lexes .start text tokens) :
      Lexes .operator (word ++ text) (⟨kind, String.ofList word⟩ :: tokens)
  | predicate {state : LexerState} {word text : List Char} {tokens : List Token}
      (hstate : state.BetweenOperands) (hword : ∀ c ∈ word, isLetter c) (h : Lexes .argument text tokens) :
      Lexes state (word ++ ':' :: text) (⟨.predicate, String.ofList word⟩ :: colonToken :: tokens)
  | bareLiteral {state : LexerState} {text : List Char} (hstate : state.BetweenOperands)
      (hbegins : BeginsPredicate text) (hcolon : (text.dropWhile isLetter).head? ≠ some ':')
      (hoperator : state = .operator → ¬ BeginsOperator text) :
      Lexes state text [⟨.error, LexicalError.bareLiteral.message⟩]
  | quoted {quote : Char} {body value text : List Char} {tokens : List Token}
      (hquote : quote = '"' ∨ quote = '\'') (hbody : QuotedBody quote body value)
      (h : Lexes .operator text tokens) :
      Lexes .argument (quote :: (body ++ quote :: text)) (argToken (String.ofList value) :: tokens)
  | unclosed {quote : Char} {text : List Char} {error : LexicalError}
      (hquote : quote = '"' ∨ quote = '\'') (hread : readString quote text = .error error) :
      Lexes .argument (quote :: text) [⟨.error, error.message⟩]
  | word {word text : List Char} {tokens : List Token} (hword : ∀ c ∈ word, isWordChar c)
      (hquote : ∀ c ∈ word.head?, ¬ (c = '"' ∨ c = '\'')) (hsome : word ++ text ≠ [])
      (hend : ∀ c ∈ text.head?, ¬ isWordChar c ∧ c ≠ ':') (h : Lexes .operator text tokens) :
      Lexes .argument (word ++ text) (argToken (String.ofList word) :: tokens)
  | chain {word text : List Char} {tokens : List Token} (hword : ∀ c ∈ word, isWordChar c)
      (hquote : ∀ c ∈ word.head?, ¬ (c = '"' ∨ c = '\'')) (h : Lexes .argument text tokens) :
      Lexes .argument (word ++ ':' :: text) (argToken (String.ofList word) :: colonToken :: tokens)

theorem dropWhile_append_cons {p : Char → Bool} {word : List Char} {c : Char}
    (hword : ∀ c ∈ word, p c) (hc : ¬ p c) (rest : List Char) : (word ++ c :: rest).dropWhile p = c :: rest := by
  rw [List.dropWhile_append_of_pos hword, List.dropWhile_cons_of_neg hc]

theorem takeWhile_append_cons {p : Char → Bool} {word : List Char} {c : Char}
    (hword : ∀ c ∈ word, p c) (hc : ¬ p c) (rest : List Char) : (word ++ c :: rest).takeWhile p = word := by
  rw [List.takeWhile_append_of_pos hword, List.takeWhile_cons_of_neg hc, List.append_nil]

theorem lexChars_of_mem_spaces {c : Char} (hc : c ∈ spaces) (text : List Char) :
    lexChars (c :: text) = lexChars text := by
  rw [lexChars_eq, lexChars_eq text, List.dropWhile_cons_of_pos (by simpa using hc)]

theorem predicateTokens_word {word : List Char} (hword : ∀ c ∈ word, isLetter c) (text : List Char) :
    predicateTokens (word ++ ':' :: text) =
      ⟨.predicate, String.ofList word⟩ :: colonToken :: argumentTokens text := by
  have hcolon : ¬ isLetter ':' := by decide +kernel
  rw [predicateTokens_eq, dropWhile_append_cons hword hcolon, takeWhile_append_cons hword hcolon]
  rfl

theorem lexChars_open (text : List Char) : lexChars ('(' :: text) = openToken :: lexChars text := by
  rw [lexChars_eq]
  rfl

theorem lexChars_not (text : List Char) : lexChars ('-' :: text) = notToken :: lexChars text := by
  rw [lexChars_eq]
  rfl

theorem lexChars_close (text : List Char) :
    lexChars (')' :: text) = closeToken :: operatorTokens text := by
  rw [lexChars_eq]
  rfl

section Functions

variable {text : List Char}

theorem BeginsPredicate.head_not_mem_spaces (h : BeginsPredicate text) : ∀ c ∈ text.head?, c ∉ spaces := by
  obtain ⟨c, rest, rfl, hspace, _⟩ := h
  rintro _ ⟨⟩
  exact hspace

theorem BeginsPredicate.lexChars_eq (h : BeginsPredicate text) : lexChars text = predicateTokens text := by
  obtain ⟨c, rest, rfl, hspace, hother⟩ := h
  simp only [List.mem_cons, List.not_mem_nil, or_false, not_or] at hother
  rw [Query.lexChars_eq, List.dropWhile_cons_of_neg (by simpa using hspace)]
  simp only [if_neg hother.1, if_neg hother.2.1, if_neg hother.2.2]

theorem beginsPredicate_word {word : List Char} (hword : ∀ c ∈ word, isLetter c) (text : List Char) :
    BeginsPredicate (word ++ ':' :: text) := by
  cases word with
  | nil => exact ⟨':', text, rfl, by decide, by decide⟩
  | cons c word =>
      have hletter := hword c List.mem_cons_self
      have hspaces : spaces.all (fun c => !isLetter c) := by decide +kernel
      have hother : ['(', ')', '-'].all (fun c => !isLetter c) := by decide +kernel
      refine ⟨c, word ++ ':' :: text, rfl, fun hc => ?_, fun hc => ?_⟩
      · simpa [hletter] using List.all_eq_true.mp hspaces c hc
      · simpa [hletter] using List.all_eq_true.mp hother c hc

theorem lexChars_word {word : List Char} (hword : ∀ c ∈ word, isLetter c) (text : List Char) :
    lexChars (word ++ ':' :: text) =
      ⟨.predicate, String.ofList word⟩ :: colonToken :: argumentTokens text := by
  rw [(beginsPredicate_word hword text).lexChars_eq, predicateTokens_word hword]

theorem operatorTokens_of_mem_spaces {c : Char} (hc : c ∈ spaces) (text : List Char) :
    operatorTokens (c :: text) = operatorTokens text := by
  rw [operatorTokens_eq, operatorTokens_eq text, List.dropWhile_cons_of_pos (by simpa using hc)]

theorem mem_operatorWords_iff {word : List Char} {kind : TokenKind} :
    (word, kind) ∈ operatorWords ↔ word = ['a', 'n', 'd'] ∧ kind = .andOp ∨ word = ['o', 'r'] ∧ kind = .orOp := by
  simp [operatorWords]

theorem isLetter_of_mem_operatorWords {word : List Char} {kind : TokenKind}
    (hword : (word, kind) ∈ operatorWords) : ∀ c ∈ word, isLetter c := by
  have hall : operatorWords.all (fun operator => operator.1.all isLetter) := by decide +kernel
  exact List.all_eq_true.mp (List.all_eq_true.mp hall _ hword)

theorem length_pos_of_mem_operatorWords {word : List Char} {kind : TokenKind} (h : (word, kind) ∈ operatorWords) :
    0 < word.length := by
  rcases mem_operatorWords_iff.mp h with ⟨rfl, _⟩ | ⟨rfl, _⟩ <;> decide

theorem kind_of_mem_operatorWords {word : List Char} {kind : TokenKind} (h : (word, kind) ∈ operatorWords) :
    kind = .andOp ∨ kind = .orOp :=
  (mem_operatorWords_iff.mp h).imp And.right And.right

theorem BeginsOperator.head_ne_colon (h : BeginsOperator text) :
    (text.dropWhile isLetter).head? ≠ some ':' := by
  obtain ⟨word, kind, rest, hword, rfl, hend⟩ := h
  rw [List.dropWhile_append_of_pos (isLetter_of_mem_operatorWords hword)]
  cases rest with
  | nil => simp
  | cons c rest =>
      have hboundary : operatorBoundary.all (fun c => !isLetter c && c != ':') := by decide +kernel
      have hc := List.all_eq_true.mp hboundary c (by simpa [endsOperator] using hend)
      rw [Bool.and_eq_true, Bool.not_eq_true', bne_iff_ne] at hc
      rw [List.dropWhile_cons_of_neg (by simp [hc.1])]
      simpa using hc.2

theorem operatorTokens_of_beginsOperator {word : List Char} {kind : TokenKind}
    (hword : (word, kind) ∈ operatorWords) (hend : endsOperator text) :
    operatorTokens (word ++ text) = ⟨kind, String.ofList word⟩ :: lexChars text := by
  have hkeyword : operatorTokens (word ++ text) = keywordTokens word kind (word ++ text) := by
    rw [operatorTokens_eq]
    rcases mem_operatorWords_iff.mp hword with ⟨rfl, rfl⟩ | ⟨rfl, rfl⟩ <;> rfl
  rw [hkeyword, keywordTokens_append kind hend]

theorem operatorTokens_of_not_beginsOperator (hspace : ∀ c ∈ text.head?, c ∉ spaces)
    (h : ¬ BeginsOperator text) : operatorTokens text = lexChars text := by
  have hkeyword : ∀ {word kind} (rest : List Char) (c : Char), (word, kind) ∈ operatorWords →
      c ∉ spaces → c ∉ ['(', ')', '-'] → text = c :: rest →
      keywordTokens word kind text = lexChars text := by
    intro word kind rest c hword hc hother htext
    have hpredicate : BeginsPredicate text := ⟨c, rest, htext, hc, hother⟩
    rw [hpredicate.lexChars_eq]
    exact keywordTokens_of_not_operator kind fun rest hrest hend => h ⟨word, kind, rest, hword, hrest, hend⟩
  have hdrop : text.dropWhile spaces.contains = text := by
    cases text with
    | nil => rfl
    | cons c rest => exact List.dropWhile_cons_of_neg (by simpa using hspace c rfl)
  rw [operatorTokens_eq, hdrop]
  split
  · exact hkeyword _ 'a' (by decide) (by decide) (by decide) rfl
  · exact hkeyword _ 'o' (by decide) (by decide) (by decide) rfl
  · rfl

theorem predicateTokens_of_head_ne_colon (h : (text.dropWhile isLetter).head? ≠ some ':') :
    predicateTokens text = [⟨.error, LexicalError.bareLiteral.message⟩] := by
  rw [predicateTokens_eq]
  split
  · rename_i rest hrest
    exact absurd (by rw [hrest]; rfl) h
  · rfl

/-- Between operands the two states differ at operators only. -/
theorem tokensOf_eq_lexChars {state : LexerState} (hstate : state.BetweenOperands)
    (hspace : ∀ c ∈ text.head?, c ∉ spaces) (h : state = .operator → ¬ BeginsOperator text) :
    tokensOf state text = lexChars text := by
  rcases hstate with rfl | rfl
  · rfl
  · exact operatorTokens_of_not_beginsOperator hspace (h rfl)

theorem not_beginsOperator_cons {c : Char} (hc : ¬ isLetter c) (rest : List Char) :
    ¬ BeginsOperator (c :: rest) := by
  rintro ⟨word, kind, behind, hword, htext, _⟩
  cases word with
  | nil => simp [operatorWords] at hword
  | cons first word =>
      obtain ⟨rfl, _⟩ := List.cons.inj htext
      exact hc (isLetter_of_mem_operatorWords hword c List.mem_cons_self)

theorem dropWhile_word {word : List Char} (hword : ∀ c ∈ word, isLetter c) (rest : List Char) :
    (word ++ ':' :: rest).dropWhile isLetter = ':' :: rest :=
  dropWhile_append_cons hword (by decide +kernel) rest

theorem argumentTokens_append {word : List Char} {c : Char} (hword : ∀ c ∈ word, isWordChar c)
    (hc : ¬ isWordChar c) (hquote : ∀ first ∈ (word ++ [c]).head?, ¬ (first = '"' ∨ first = '\''))
    (rest : List Char) :
    argumentTokens (word ++ c :: rest) = argToken (String.ofList word) ::
      if c = ':' then colonToken :: argumentTokens rest else operatorTokens (c :: rest) := by
  obtain ⟨first, tail, hcons, hfirst⟩ : ∃ first tail, word ++ c :: rest = first :: tail ∧
      ¬ (first = '"' ∨ first = '\'') := by
    cases word with
    | nil => exact ⟨c, rest, rfl, hquote c rfl⟩
    | cons first word => exact ⟨first, word ++ c :: rest, rfl, hquote first rfl⟩
  rw [hcons, argumentTokens_word hfirst, ← hcons, takeWhile_append_cons hword hc,
    dropWhile_append_cons hword hc]
  apply congrArg
  split
  · rename_i rest' heq
    obtain ⟨rfl, rfl⟩ := List.cons.inj heq
    rfl
  · rename_i hcolon
    rw [if_neg]
    rintro rfl
    exact hcolon rest rfl

theorem argumentTokens_end {c : Char} {word : List Char} (hword : ∀ letter ∈ c :: word, isWordChar letter)
    (hquote : ¬ (c = '"' ∨ c = '\'')) :
    argumentTokens (c :: word) = [argToken (String.ofList (c :: word)), Token.endOfQuery] := by
  rw [argumentTokens_word hquote, List.takeWhile_eq_self_iff.mpr hword, List.dropWhile_eq_nil_iff.mpr hword]
  exact congrArg (argToken (String.ofList (c :: word)) :: ·) operatorTokens_nil

theorem not_quote_of_not_isWordChar {c : Char} (hc : ¬ isWordChar c) : ¬ (c = '"' ∨ c = '\'') := by
  rintro (rfl | rfl) <;> exact hc (by decide)

theorem head_append_not_quote {word : List Char} {c : Char} (hquote : ∀ c ∈ word.head?, ¬ (c = '"' ∨ c = '\''))
    (hc : ¬ isWordChar c) : ∀ first ∈ (word ++ [c]).head?, ¬ (first = '"' ∨ first = '\'') := by
  intro first hfirst
  cases word with
  | nil =>
      obtain rfl := Option.mem_some.mp hfirst
      exact not_quote_of_not_isWordChar hc
  | cons head word => exact hquote first hfirst

end Functions

theorem Lexes.tokensOf_eq {state : LexerState} {text : List Char} {tokens : List Token}
    (h : Lexes state text tokens) : tokensOf state text = tokens := by
  induction h with
  | finish hstate =>
      rcases hstate with (rfl | rfl) | rfl
      · exact lexChars_nil
      · exact operatorTokens_nil
      · exact argumentTokens_nil
  | space hstate hc _ ih =>
      rcases hstate with rfl | rfl
      · exact (lexChars_of_mem_spaces hc _).trans ih
      · exact (operatorTokens_of_mem_spaces hc _).trans ih
  | @openParen _ text _ hstate _ ih =>
      rw [tokensOf_eq_lexChars hstate (by simp [spaces]) fun _ => not_beginsOperator_cons (by decide +kernel) text,
        lexChars_open]
      exact congrArg (openToken :: ·) ih
  | @closeParen _ text _ hstate _ ih =>
      rw [tokensOf_eq_lexChars hstate (by simp [spaces]) fun _ => not_beginsOperator_cons (by decide +kernel) text,
        lexChars_close]
      exact congrArg (closeToken :: ·) ih
  | @negation _ text _ hstate _ ih =>
      rw [tokensOf_eq_lexChars hstate (by simp [spaces]) fun _ => not_beginsOperator_cons (by decide +kernel) text,
        lexChars_not]
      exact congrArg (notToken :: ·) ih
  | operator hword hend _ ih =>
      refine (operatorTokens_of_beginsOperator hword hend).trans ?_
      exact congrArg (_ :: ·) ih
  | @predicate _ word text _ hstate hword _ ih =>
      have hoperator : ¬ BeginsOperator (word ++ ':' :: text) :=
        fun h => h.head_ne_colon (by rw [dropWhile_word hword]; rfl)
      rw [tokensOf_eq_lexChars hstate (beginsPredicate_word hword text).head_not_mem_spaces fun _ => hoperator, lexChars_word hword]
      exact congrArg (fun rest => _ :: colonToken :: rest) ih
  | @bareLiteral _ text hstate hbegins hcolon hoperator =>
      rw [tokensOf_eq_lexChars hstate hbegins.head_not_mem_spaces hoperator, hbegins.lexChars_eq,
        predicateTokens_of_head_ne_colon hcolon]
  | quoted hquote hbody _ ih =>
      refine (argumentTokens_quote hquote _).trans ?_
      rw [readString_of_body hquote hbody]
      exact congrArg (_ :: ·) ih
  | unclosed hquote hread =>
      refine (argumentTokens_quote hquote _).trans ?_
      rw [hread]
  | @word word text _ hword hquote hsome hend _ ih =>
      cases text with
      | nil =>
          rw [List.append_nil] at hsome ⊢
          obtain ⟨c, word, rfl⟩ := List.exists_cons_of_ne_nil hsome
          rw [← ih]
          exact (argumentTokens_end hword (hquote c rfl)).trans (congrArg _ operatorTokens_nil.symm)
      | cons c text =>
          obtain ⟨hc, hcolon⟩ := hend c rfl
          refine (argumentTokens_append hword hc (head_append_not_quote hquote hc) text).trans ?_
          rw [if_neg hcolon]
          exact congrArg (_ :: ·) ih
  | @chain word text _ hword hquote _ ih =>
      have hcolon : ¬ isWordChar ':' := by decide
      refine (argumentTokens_append hword hcolon (head_append_not_quote hquote hcolon) text).trans ?_
      rw [if_pos rfl]
      exact congrArg (fun rest => _ :: colonToken :: rest) ih

theorem Lexes.operator_of_start {text : List Char} {tokens : List Token} (h : Lexes .start text tokens)
    (hspace : ∀ c ∈ text.head?, c ∉ spaces) (hoperator : ¬ BeginsOperator text) : Lexes .operator text tokens := by
  cases h with
  | finish => exact .finish (.inl (.inr rfl))
  | @space _ c _ _ _ hc => exact absurd hc (hspace c rfl)
  | openParen _ h => exact .openParen (.inr rfl) h
  | closeParen _ h => exact .closeParen (.inr rfl) h
  | negation _ h => exact .negation (.inr rfl) h
  | predicate _ hword h => exact .predicate (.inr rfl) hword h
  | bareLiteral _ hbegins hcolon _ => exact .bareLiteral (.inr rfl) hbegins hcolon fun _ => hoperator

section States

variable {text : List Char}

theorem lexes_predicateTokens
    (hargument : ∀ rest, rest.length < text.length → Lexes .argument rest (argumentTokens rest))
    (hbegins : BeginsPredicate text) : Lexes .start text (predicateTokens text) := by
  rw [predicateTokens_eq]
  split
  · rename_i rest hrest
    have hsplit : text.takeWhile isLetter ++ ':' :: rest = text := by
      rw [← hrest, List.takeWhile_append_dropWhile]
    have hword : ∀ c ∈ text.takeWhile isLetter, isLetter c := fun _ hc => List.mem_takeWhile_imp hc
    have h := Lexes.predicate (.inl rfl) hword (hargument rest (length_lt_of_dropWhile_eq_cons hrest))
    rwa [hsplit] at h
  · rename_i hcolon
    refine .bareLiteral (.inl rfl) hbegins ?_ nofun
    intro hhead
    obtain ⟨rest, hrest⟩ := List.head?_eq_some_iff.mp hhead
    exact hcolon rest hrest

theorem lexes_lexChars (hstart : ∀ rest, rest.length < text.length → Lexes .start rest (lexChars rest))
    (hoperator : ∀ rest, rest.length < text.length → Lexes .operator rest (operatorTokens rest))
    (hpredicate : BeginsPredicate text → Lexes .start text (predicateTokens text)) :
    Lexes .start text (lexChars text) := by
  cases text with
  | nil =>
      rw [lexChars_nil]
      exact .finish (.inl (.inl rfl))
  | cons c rest =>
      have hlt : rest.length < (c :: rest).length := Nat.lt_succ_self _
      by_cases hspace : c ∈ spaces
      · rw [lexChars_of_mem_spaces hspace]
        exact .space (.inl rfl) hspace (hstart rest hlt)
      by_cases hopen : c = '('
      · rw [hopen, lexChars_open]
        exact .openParen (.inl rfl) (hstart rest hlt)
      by_cases hclose : c = ')'
      · rw [hclose, lexChars_close]
        exact .closeParen (.inl rfl) (hoperator rest hlt)
      by_cases hnot : c = '-'
      · rw [hnot, lexChars_not]
        exact .negation (.inl rfl) (hstart rest hlt)
      have hbegins : BeginsPredicate (c :: rest) := ⟨c, rest, rfl, hspace, by simp [hopen, hclose, hnot]⟩
      rw [hbegins.lexChars_eq]
      exact hpredicate hbegins

theorem lexes_operatorTokens (hstart : ∀ rest, rest.length ≤ text.length → Lexes .start rest (lexChars rest)) :
    Lexes .operator text (operatorTokens text) := by
  -- White space is skipped without leaving the state.
  induction text with
  | nil =>
      rw [operatorTokens_nil]
      exact .finish (.inl (.inr rfl))
  | cons c rest ih =>
      by_cases hspace : c ∈ spaces
      · rw [operatorTokens_of_mem_spaces hspace]
        exact .space (.inr rfl) hspace (ih fun tail htail => hstart tail (Nat.le_succ_of_le htail))
      have hhead : ∀ first ∈ (c :: rest).head?, first ∉ spaces := by
        rintro first ⟨⟩
        exact hspace
      by_cases hoperator : BeginsOperator (c :: rest)
      · obtain ⟨word, kind, tail, hword, htext, hend⟩ := hoperator
        have hle : tail.length ≤ (c :: rest).length := by simp [htext]
        rw [htext, operatorTokens_of_beginsOperator hword hend]
        exact .operator hword hend (hstart tail hle)
      · rw [operatorTokens_of_not_beginsOperator hhead hoperator]
        exact (hstart _ (Nat.le_refl _)).operator_of_start hhead hoperator

theorem head_takeWhile_not_quote {c : Char} (hc : ¬ (c = '"' ∨ c = '\'')) (text : List Char) :
    ∀ first ∈ ((c :: text).takeWhile isWordChar).head?, ¬ (first = '"' ∨ first = '\'') := by
  intro first hfirst
  rw [List.takeWhile_cons] at hfirst
  split at hfirst
  · obtain rfl := Option.mem_some.mp hfirst
    exact hc
  · cases hfirst

theorem lexes_argumentTokens_word {c : Char} (hquote : ¬ (c = '"' ∨ c = '\''))
    (hargument : ∀ rest, rest.length < (c :: text).length → Lexes .argument rest (argumentTokens rest))
    (hoperator : ∀ rest, rest.length ≤ (c :: text).length → Lexes .operator rest (operatorTokens rest)) :
    Lexes .argument (c :: text) (argumentTokens (c :: text)) := by
  have hsplit := List.takeWhile_append_dropWhile (p := isWordChar) (l := c :: text)
  have hle := (List.dropWhile_suffix (l := c :: text) isWordChar).length_le
  have hhead := List.head?_dropWhile_not isWordChar (c :: text)
  have hword : ∀ letter ∈ (c :: text).takeWhile isWordChar, isWordChar letter :=
    fun _ hletter => List.mem_takeWhile_imp hletter
  have hfirst := head_takeWhile_not_quote hquote text
  rw [argumentTokens_word hquote]
  generalize (c :: text).takeWhile isWordChar = word at hsplit hword hfirst ⊢
  generalize (c :: text).dropWhile isWordChar = shown at hsplit hle hhead ⊢
  rw [← hsplit]
  split
  · rename_i rest
    exact .chain hword hfirst (hargument rest hle)
  · rename_i hcolon
    refine .word hword hfirst (by rw [hsplit]; simp) ?_ (hoperator shown hle)
    intro letter hletter
    rw [Option.mem_def.mp hletter] at hhead
    refine ⟨by simpa using hhead, ?_⟩
    rintro rfl
    obtain ⟨rest, hrest⟩ := List.head?_eq_some_iff.mp hletter
    exact hcolon rest hrest

theorem lexes_argumentTokens
    (hargument : ∀ rest, rest.length < text.length → Lexes .argument rest (argumentTokens rest))
    (hoperator : ∀ rest, rest.length ≤ text.length → Lexes .operator rest (operatorTokens rest)) :
    Lexes .argument text (argumentTokens text) := by
  cases text with
  | nil =>
      rw [argumentTokens_nil]
      exact .finish (.inr rfl)
  | cons c text =>
      by_cases hquote : c = '"' ∨ c = '\''
      · rw [argumentTokens_quote hquote]
        split
        · rename_i value rest hread
          obtain ⟨body, hbody, rfl⟩ := exists_body_of_readString hread
          exact .quoted hquote hbody (hoperator rest (by simp; omega))
        · rename_i hread
          exact .unclosed hquote hread
      · exact lexes_argumentTokens_word hquote hargument hoperator

end States

theorem lexes_lexer (text : List Char) :
    Lexes .start text (lexChars text) ∧ Lexes .operator text (operatorTokens text) ∧
      (BeginsPredicate text → Lexes .start text (predicateTokens text)) ∧ Lexes .argument text (argumentTokens text) :=
  lexer_induction (fun text => Lexes .start text (lexChars text))
    (fun text => Lexes .operator text (operatorTokens text))
    (fun text => BeginsPredicate text → Lexes .start text (predicateTokens text))
    (fun text => Lexes .argument text (argumentTokens text)) (fun _ => lexes_predicateTokens)
    (fun text hstart hoperator hpredicate => lexes_lexChars hstart hoperator (hpredicate text (Nat.le_refl _)))
    (fun _ hstart _ => lexes_operatorTokens hstart) (fun _ => lexes_argumentTokens) text

theorem lexes_start (text : List Char) : Lexes .start text (lexChars text) :=
  (lexes_lexer text).1

theorem lexes_operator (text : List Char) : Lexes .operator text (operatorTokens text) :=
  (lexes_lexer text).2.1

theorem lexes_argument (text : List Char) : Lexes .argument text (argumentTokens text) :=
  (lexes_lexer text).2.2.2

/-- The lexer yields what the rules derive, and nothing else. -/
theorem lexes_iff {text : List Char} {tokens : List Token} : Lexes .start text tokens ↔ lexChars text = tokens := by
  constructor
  · exact Lexes.tokensOf_eq
  · rintro rfl
    exact lexes_start text

end MediaCatalog.Query
