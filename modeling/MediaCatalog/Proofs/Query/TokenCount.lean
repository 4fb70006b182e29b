import MediaCatalog.Proofs.Query.TokenOrder
import Mathlib.Logic.Function.Iterate

/-!
How long the lexer runs and how many tokens it yields. Each step goes down in a measure of the text that is left and
the state, so that the machine comes to rest. A character makes at most two tokens, and one token is there
besides: the end of the query or the error.
-/

namespace MediaCatalog.Query

open Text

/-- The machine between two steps: the state to go on from, if any, the cursor, and the tokens up to here. -/
structure Lexing where
  state : Option LexerState
  cursor : Cursor
  yielded : List Token

namespace Lexing

def ofQuery (query : String) : Lexing :=
  ⟨some .start, Cursor.ofChars query.toList, []⟩

/-- One step, after which the queue is yielded. A machine without a state is at rest. -/
def advance (l : Lexing) : Lexing :=
  match l.state with
  | none => l
  | some state =>
    let (next, c) := state.step l.cursor
    ⟨next, c.takeQueue.2, l.yielded ++ c.takeQueue.1⟩

theorem stepBound_pos (state : LexerState) (c : Cursor) : 0 < state.stepBound c := by
  cases state <;> simp [LexerState.stepBound, LexerState.rank]

/-- A machine comes to rest, and what it has yielded then are the tokens of the lexer. -/
theorem exists_advance_eq (state : LexerState) (c : Cursor) (yielded : List Token) :
    ∃ n ≤ state.stepBound c, ∃ c', advance^[n] ⟨some state, c, yielded⟩ =
      ⟨none, c', yielded ++ tokensFrom state c⟩ := by
  fun_induction tokensFrom state c generalizing yielded with
  | case1 state c c' hstep =>
      refine ⟨1, stepBound_pos state c, c'.takeQueue.2, ?_⟩
      simp only [Function.iterate_one, advance, hstep]
  | case2 state c state' c' hstep ih =>
      obtain ⟨n, hn, rest, hrest⟩ := ih (yielded ++ c'.takeQueue.1)
      have hlt : state'.stepBound c' < state.stepBound c := LexerState.stepBound_step hstep
      refine ⟨n + 1, Nat.lt_of_le_of_lt hn hlt, rest, ?_⟩
      have hadvance : advance ⟨some state, c, yielded⟩ =
          ⟨some state', c'.takeQueue.2, yielded ++ c'.takeQueue.1⟩ := by
        simp only [advance, hstep]
      rw [Function.iterate_succ_apply, hadvance, hrest, List.append_assoc]

theorem exists_advance_ofQuery (query : String) :
    ∃ n ≤ 7 * query.length + 2, ∃ c, advance^[n] (ofQuery query) = ⟨none, c, lex query⟩ := by
  have hbound : LexerState.start.stepBound (Cursor.ofChars query.toList) = 7 * query.length + 2 := by
    simp [LexerState.stepBound, LexerState.rank, Cursor.ofChars, Cursor.remaining, String.length_toList,
      Nat.mul_comm]
  obtain ⟨n, hn, c, hrest⟩ := exists_advance_eq .start (Cursor.ofChars query.toList) []
  exact ⟨n, hbound ▸ hn, c, hrest⟩

end Lexing

/-- A text makes two tokens for each character and one more. The one more is saved if the text begins with something
else than a colon. -/
def spare (text : List Char) : Nat :=
  if text.head?.all (· = ':') then 1 else 0

theorem spare_le (text : List Char) : spare text ≤ 1 := by
  rw [spare]
  split <;> omega

theorem spare_cons_of_ne {c : Char} (hc : c ≠ ':') (text : List Char) : spare (c :: text) = 0 := by
  simp [spare, hc]

/-- The tokens of a text beyond two for each character. -/
def LexerState.surplus (state : LexerState) (text : List Char) : Nat :=
  if state = .argument then 1 else spare text

theorem LexerState.BetweenOperands.surplus_eq {state : LexerState} (h : state.BetweenOperands) (text : List Char) :
    state.surplus text = spare text := by
  rcases h with rfl | rfl <;> rfl

theorem surplus_argument (text : List Char) : LexerState.argument.surplus text = 1 :=
  rfl

theorem surplus_operator (text : List Char) : LexerState.operator.surplus text = spare text :=
  rfl

theorem surplus_start (text : List Char) : LexerState.start.surplus text = spare text :=
  rfl

/-- A character pays for the token that it makes and for one that is spared behind it. -/
theorem length_cons_le_of_length_le {text : List Char} {tokens : List Token} {token : Token} {c : Char} {n : Nat}
    (h : tokens.length ≤ 2 * text.length + spare text) :
    (token :: tokens).length ≤ 2 * (c :: text).length + n := by
  have hspare := spare_le text
  rw [List.length_cons, List.length_cons]
  omega

/-- Each rule takes half as many characters as it yields tokens at least, or lowers the surplus. -/
theorem Lexes.length_le {state : LexerState} {text : List Char} {tokens : List Token} (h : Lexes state text tokens) :
    tokens.length ≤ 2 * text.length + state.surplus text := by
  induction h with
  | finish hstate => rcases hstate with (rfl | rfl) | rfl <;> exact Nat.le_refl _
  | @space _ _ text _ hstate _ _ ih =>
      have hspare := spare_le text
      rw [hstate.surplus_eq] at ih
      rw [List.length_cons]
      omega
  | openParen _ _ ih => exact length_cons_le_of_length_le ih
  | closeParen _ _ ih => exact length_cons_le_of_length_le ih
  | negation _ _ ih => exact length_cons_le_of_length_le ih
  | @operator word _ text _ hword _ _ ih =>
      have hspare := spare_le text
      have hpos := length_pos_of_mem_operatorWords hword
      rw [surplus_start] at ih
      rw [List.length_cons, List.length_append]
      omega
  | @predicate state word text _ hstate _ _ ih =>
      rw [surplus_argument] at ih
      rw [hstate.surplus_eq, List.length_cons, List.length_cons, List.length_append, List.length_cons]
      cases word with
      | nil =>
          -- A text that begins with a colon makes a token more.
          have hspare : spare ([] ++ ':' :: text) = 1 := rfl
          omega
      | cons c word =>
          rw [List.length_cons]
          omega
  | bareLiteral _ hbegins =>
      obtain ⟨c, rest, rfl, _⟩ := hbegins
      rw [List.length_singleton, List.length_cons]
      omega
  | @quoted _ body _ text _ _ _ _ ih =>
      have hspare := spare_le text
      rw [surplus_operator] at ih
      rw [surplus_argument, List.length_cons, List.length_cons, List.length_append, List.length_cons]
      omega
  | unclosed =>
      rw [surplus_argument, List.length_singleton]
      omega
  | @word word text _ _ _ hsome hend _ ih =>
      rw [surplus_operator] at ih
      rw [surplus_argument, List.length_cons, List.length_append]
      cases text with
      | nil =>
          have hpos := List.length_pos_iff.mpr hsome
          rw [List.append_nil] at hpos
          have hspare := spare_le []
          omega
      | cons c text =>
          -- What ends a word and is no colon makes a token less than a text can.
          rw [spare_cons_of_ne (hend c rfl).2] at ih
          omega
  | chain _ _ _ ih =>
      rw [surplus_argument] at ih
      rw [surplus_argument, List.length_cons, List.length_cons, List.length_append, List.length_cons]
      omega

theorem length_lex_le (query : String) : (lex query).length ≤ 2 * query.length + 1 := by
  have hle := (lexes_start query.toList).length_le
  have hspare := spare_le query.toList
  rw [surplus_start, String.length_toList] at hle
  rw [lex]
  omega

namespace Continues

theorem ne_final {kind : TokenKind} {tokens : List Token} (h : Continues kind tokens) :
    kind ≠ .eof ∧ kind ≠ .error := by
  have hnext : ∃ next, next ∈ kind.successors := by
    cases h with
    | last hkind => exact ⟨_, hkind⟩
    | cons hkind => exact ⟨_, hkind⟩
  obtain ⟨next, hnext⟩ := hnext
  constructor <;> rintro rfl <;> simp [TokenKind.successors] at hnext

theorem exists_last {kind : TokenKind} {tokens : List Token} (h : Continues kind tokens) :
    ∃ init last, tokens = init ++ [last] ∧ (last.kind = .eof ∨ last.kind = .error) ∧
      ∀ token ∈ init, token.kind ≠ .eof ∧ token.kind ≠ .error := by
  induction h with
  | @last _ token _ _ hlast => exact ⟨[], token, rfl, hlast, by simp⟩
  | @cons _ token _ _ _ hrest ih =>
      obtain ⟨init, last, rfl, hlast, hinit⟩ := ih
      exact ⟨token :: init, last, rfl, hlast, List.forall_mem_cons.mpr ⟨hrest.ne_final, hinit⟩⟩

end Continues

end MediaCatalog.Query
