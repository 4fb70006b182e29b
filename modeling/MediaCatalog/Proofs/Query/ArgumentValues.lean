import MediaCatalog.Proofs.Query.Concatenation
import MediaCatalog.Proofs.Query.Written

/-!
Which values a query can search for. A value can be written without quotes if no character of it ends a word and
it does not begin like a quoted text, and within quotes if none of its backslashes would be lost there.
-/

namespace MediaCatalog.Query

open Text

/-- A text that is an argument as it stands, without quotes. -/
def HasBareSpelling (text : List Char) : Prop :=
  text ≠ [] ∧ (∀ c ∈ text.head?, c ≠ '"' ∧ c ≠ '\'') ∧ ∀ c ∈ text, c ∉ [':', '(', ')'] ∧ ¬ isBlank c

theorem isWordChar_iff (c : Char) : isWordChar c ↔ c ∉ [':', '(', ')'] ∧ ¬ isBlank c := by
  simp [isWordChar, and_assoc]

theorem spelling_of_word {word : List Char} (hword : ∀ c ∈ word, isWordChar c)
    (hquote : ∀ c ∈ word.head?, ¬ (c = '"' ∨ c = '\'')) : HasQuotedSpelling word ∨ HasBareSpelling word := by
  cases word with
  | nil => exact .inl (.of_not_mem (by simp))
  | cons c word =>
      exact .inr ⟨by simp, fun c hc => not_or.mp (hquote c hc), fun c hc => (isWordChar_iff c).mp (hword c hc)⟩

theorem spelling_of_mem_cons {word : List Char} {tokens : List Token} {value : String}
    (hword : HasQuotedSpelling word ∨ HasBareSpelling word)
    (htokens : argToken value ∈ tokens → HasQuotedSpelling value.toList ∨ HasBareSpelling value.toList)
    (hmem : argToken value ∈ argToken (String.ofList word) :: tokens) :
    HasQuotedSpelling value.toList ∨ HasBareSpelling value.toList := by
  rcases List.mem_cons.mp hmem with heq | hmem
  · obtain rfl : value = String.ofList word := congrArg Token.value heq
    rwa [String.toList_ofList]
  · exact htokens hmem

theorem Lexes.spelling_of_mem {state : LexerState} {text : List Char} {tokens : List Token}
    (h : Lexes state text tokens) {value : String} (hmem : argToken value ∈ tokens) :
    HasQuotedSpelling value.toList ∨ HasBareSpelling value.toList := by
  induction h with
  | finish => simp [argToken, Token.endOfQuery] at hmem
  | space _ _ _ ih => exact ih hmem
  | openParen _ _ ih => exact ih (by simpa [argToken, openToken] using hmem)
  | closeParen _ _ ih => exact ih (by simpa [argToken, closeToken] using hmem)
  | negation _ _ ih => exact ih (by simpa [argToken, notToken] using hmem)
  | @operator _ kind _ _ hword _ _ ih =>
      refine ih ((List.mem_cons.mp hmem).resolve_left fun heq => ?_)
      obtain rfl : TokenKind.arg = kind := congrArg Token.kind heq
      simpa using kind_of_mem_operatorWords hword
  | predicate _ _ _ ih => exact ih (by simpa [argToken, colonToken] using hmem)
  | bareLiteral => simp [argToken] at hmem
  | quoted _ hbody _ ih => exact spelling_of_mem_cons (.inl hbody.hasQuotedSpelling) ih hmem
  | unclosed => simp [argToken] at hmem
  | word hword hquote _ _ _ ih => exact spelling_of_mem_cons (spelling_of_word hword hquote) ih hmem
  | chain hword hquote _ ih =>
      refine spelling_of_mem_cons (spelling_of_word hword hquote) (fun hmem => ih ?_) hmem
      simpa [argToken, colonToken] using hmem

/-- A query for a value, in one of its spellings. -/
def tagQuery (spelling : List Char) : String :=
  String.ofList ("tag".toList ++ ':' :: spelling)

theorem lex_tagQuery (spelling : List Char) :
    lex (tagQuery spelling) = ⟨.predicate, "tag"⟩ :: colonToken :: argumentTokens spelling := by
  have hword : ∀ c ∈ "tag".toList, isLetter c := isLetter_of_mem_keywords (by decide)
  have hlex := lexChars_word hword spelling
  rw [String.ofList_toList] at hlex
  exact (congrArg lexChars String.toList_ofList).trans hlex

theorem searches_of_argumentTokens {spelling : List Char} {value : String}
    (h : argumentTokens spelling = [argToken value, Token.endOfQuery]) :
    EndsQuery (lex (tagQuery spelling)) ∧ argToken value ∈ lex (tagQuery spelling) := by
  rw [lex_tagQuery, h]
  exact ⟨rfl, by simp⟩

theorem HasBareSpelling.argumentTokens_eq {value : String} (h : HasBareSpelling value.toList) :
    argumentTokens value.toList = [argToken value, Token.endOfQuery] := by
  obtain ⟨hsome, hquote, hchars⟩ := h
  obtain ⟨c, rest, hvalue⟩ := List.exists_cons_of_ne_nil hsome
  rw [hvalue] at hquote hchars
  have hword : ∀ letter ∈ c :: rest, isWordChar letter := fun letter hletter =>
    (isWordChar_iff letter).mpr (hchars letter hletter)
  rw [hvalue, argumentTokens_end hword (not_or.mpr (hquote c rfl)), ← hvalue, String.ofList_toList]

/-- The values that queries without a lexical error search for, and the spelling in quotes of those that have
one, which is read as it is meant behind any colon. -/
theorem searchable_iff (value : String) :
    ((∃ query, EndsQuery (lex query) ∧ argToken value ∈ lex query) ↔
      HasQuotedSpelling value.toList ∨ HasBareSpelling value.toList) ∧
    (HasQuotedSpelling value.toList → ∀ before tokens behind,
      lexChars before = tokens ++ [colonToken, Token.endOfQuery] →
      lexChars (before ++ '"' :: (escaped value.toList ++ '"' :: behind)) =
        tokens ++ colonToken :: argToken value :: operatorTokens behind) := by
  refine ⟨⟨?_, ?_⟩, ?_⟩
  · rintro ⟨query, _, hmem⟩
    exact (lexes_start query.toList).spelling_of_mem hmem
  · rintro (hquoted | hbare)
    · have htokens := argumentTokens_escaped hquoted []
      rw [operatorTokens_nil] at htokens
      exact ⟨_, searches_of_argumentTokens htokens⟩
    · exact ⟨_, searches_of_argumentTokens hbare.argumentTokens_eq⟩
  · intro hquoted before tokens behind hbefore
    rw [lexChars_append_of_colon hbefore, argumentTokens_escaped hquoted]

end MediaCatalog.Query
