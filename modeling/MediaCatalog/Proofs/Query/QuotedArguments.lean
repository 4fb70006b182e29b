import MediaCatalog.Proofs.Query.Acceptance
import MediaCatalog.Proofs.Query.Agreement
import MediaCatalog.Proofs.Query.Concatenation
import MediaCatalog.Proofs.Query.Written

/-!
Arguments with and without quotes. What the lexer yields for a word is what it yields for the word in quotes, but
behind it a colon is looked for behind a word only. So the last argument of a predicate can be quoted, and an
argument before it cannot.
-/

namespace MediaCatalog.Query

open Text

/-- An argument without quotes in a query: `before` ends with the colon that it stands behind, and it goes on for as
long as it can. -/
structure BareArgument (query : String) (tokens : List Token) (before value behind : List Char) : Prop where
  text : query.toList = before ++ (value ++ behind)
  colon : lexChars before = tokens ++ [colonToken, Token.endOfQuery]
  unquoted : ∀ c ∈ value.head?, ¬ (c = '"' ∨ c = '\'')
  word : ∀ c ∈ value, isWordChar c
  ends : ∀ c ∈ behind.head?, ¬ isWordChar c

/-- An argument in quotes, with the body that stands for its value. -/
structure QuotedArgument (query : String) (tokens : List Token) (before value behind : List Char) : Prop where
  text : ∃ quote body, (quote = '"' ∨ quote = '\'') ∧ QuotedBody quote body value ∧
    query.toList = before ++ quote :: (body ++ quote :: behind)
  colon : lexChars before = tokens ++ [colonToken, Token.endOfQuery]

/-- The query with an argument put in quotes. -/
def inQuotes (before value behind : List Char) : String :=
  String.ofList (before ++ '"' :: (value ++ '"' :: behind))

theorem Continues.text_of_mem {kind : TokenKind} {tokens : List Token} (h : Continues kind tokens) {token : Token}
    (hmem : token ∈ tokens) : ∀ text ∈ token.kind.text?, token.value = text := by
  induction h with
  | last _ htext _ =>
      obtain rfl := List.mem_singleton.mp hmem
      exact htext
  | cons _ htext _ ih =>
      rcases List.mem_cons.mp hmem with rfl | hmem
      · exact htext
      · exact ih hmem

theorem exists_colon_before_arg {query value : String} {first more : List Token}
    (h : lex query = first ++ argToken value :: more) : ∃ tokens, first = tokens ++ [colonToken] := by
  obtain ⟨⟨kind, text⟩, hlast, hkind⟩ := (wellShaped_lex query).before_arg h rfl
  obtain ⟨tokens, rfl⟩ := List.getLast?_eq_some_iff.mp hlast
  obtain rfl : kind = .colon := hkind
  have hmem : ⟨.colon, text⟩ ∈ lex query := by simp [h]
  obtain rfl : text = ":" := (continues_lex query).text_of_mem hmem ":" rfl
  exact ⟨tokens, rfl⟩

theorem exists_argument {query value : String} {first more : List Token}
    (h : lex query = first ++ argToken value :: more) :
    ∃ tokens before behind, first = tokens ++ [colonToken] ∧
      (BareArgument query tokens before value.toList behind ∨
        QuotedArgument query tokens before value.toList behind) := by
  obtain ⟨tokens, rfl⟩ := exists_colon_before_arg h
  rw [List.append_assoc] at h
  obtain ⟨before, rest, htext, hbefore, hrest⟩ := (lexes_start query.toList).split_colon h
  have hcolon := lexes_iff.mp hbefore
  generalize hall : argToken value :: more = all at hrest
  have hvalue : ∀ {word : List Char} {rest : List Token},
      argToken value :: more = argToken (String.ofList word) :: rest → value.toList = word := by
    intro word rest heq
    obtain rfl : value = String.ofList word := congrArg Token.value (List.cons.inj heq).1
    exact String.toList_ofList
  cases hrest with
  | finish => simp [argToken, Token.endOfQuery] at hall
  | space hstate => rcases hstate with h | h <;> cases h
  | openParen hstate => rcases hstate with h | h <;> cases h
  | closeParen hstate => rcases hstate with h | h <;> cases h
  | negation hstate => rcases hstate with h | h <;> cases h
  | predicate hstate => rcases hstate with h | h <;> cases h
  | bareLiteral hstate => rcases hstate with h | h <;> cases h
  | unclosed => simp [argToken] at hall
  | @quoted quote body word behind _ hquote hbody _ =>
      rw [hvalue hall]
      exact ⟨tokens, before, behind, rfl, .inr ⟨⟨quote, body, hquote, hbody, htext⟩, hcolon⟩⟩
  | @word word behind _ hword hquote _ hend _ =>
      rw [hvalue hall]
      exact ⟨tokens, before, behind, rfl, .inl ⟨htext, hcolon, hquote, hword, fun c hc => (hend c hc).1⟩⟩
  | @chain word behind _ hword hquote _ =>
      rw [hvalue hall]
      refine ⟨tokens, before, ':' :: behind, rfl, .inl ⟨htext, hcolon, hquote, hword, ?_⟩⟩
      rintro c ⟨⟩
      decide

theorem parse_eq_of_lex_eq {query query' : String} (h : lex query = lex query') : parse query = parse query' := by
  rw [parse_eq, parse_eq, h]

section Spellings

variable {query : String} {tokens : List Token} {before value behind : List Char}

theorem lex_inQuotes (behind : List Char) (hbefore : lexChars before = tokens ++ [colonToken, Token.endOfQuery])
    (hvalue : ∀ c ∈ value, c ∉ ['\\', '"', '\'']) :
    lex (inQuotes before value behind) =
      tokens ++ colonToken :: argToken (String.ofList value) :: operatorTokens behind := by
  have hspelling : HasQuotedSpelling (String.ofList value).toList := by
    rw [String.toList_ofList]
    exact .of_not_mem fun hmem => hvalue _ hmem (by decide)
  have hescaped : escaped (String.ofList value).toList = value := by
    rw [String.toList_ofList]
    exact escaped_of_not_mem fun hmem => hvalue _ hmem (by decide)
  have htokens := argumentTokens_escaped hspelling behind
  rw [hescaped] at htokens
  rw [lex, inQuotes, String.toList_ofList, lexChars_append_of_colon hbefore, htokens]

/-- Where no colon comes next, a word leaves the lexer where a quoted text does. -/
theorem BareArgument.lex_eq (h : BareArgument query tokens before value behind) (hvalue : value ≠ [])
    (hcolon : behind.head? ≠ some ':') :
    lex query = tokens ++ colonToken :: argToken (String.ofList value) :: operatorTokens behind := by
  have htokens : argumentTokens (value ++ behind) = argToken (String.ofList value) :: operatorTokens behind := by
    have hsome : value ++ behind ≠ [] := List.append_ne_nil_of_left_ne_nil hvalue behind
    have hend : ∀ c ∈ behind.head?, ¬ isWordChar c ∧ c ≠ ':' := by
      intro c hc
      refine ⟨h.ends c hc, ?_⟩
      rintro rfl
      exact hcolon hc
    have hlexes := Lexes.word h.word h.unquoted hsome hend (lexes_operator behind)
    exact hlexes.tokensOf_eq
  rw [lex, h.text, lexChars_append_of_colon h.colon, htokens]

end Spellings

theorem ExpressionWord.exists_atom {tokens : List Token} {atoms : List Atom} (h : ExpressionWord tokens atoms)
    {token : Token} (hmem : token ∈ tokens) (hkind : token.kind = .predicate) :
    ∃ a ∈ atoms, a.keyword = token.value := by
  refine @ExpressionWord.rec (fun tokens atoms _ => token ∈ tokens → ∃ a ∈ atoms, a.keyword = token.value)
    (fun tokens atoms _ => token ∈ tokens → ∃ a ∈ atoms, a.keyword = token.value)
    ?_ ?_ ?_ ?_ ?_ tokens atoms h hmem
  · intro tokens atoms _ ih hmem
    refine ih ((List.mem_cons.mp hmem).resolve_left ?_)
    rintro rfl
    cases hkind
  · intro a hmem
    refine ⟨a, List.mem_singleton_self a, ?_⟩
    rcases List.mem_cons.mp hmem with rfl | hmem
    · rfl
    · rcases List.mem_cons.mp hmem with rfl | hmem
      · cases hkind
      · rcases Atom.kind_of_mem_argTokens hmem with h | h <;> cases h.symm.trans hkind
  · intro tokens atoms _ ih hmem
    have hnot : token ≠ openToken ∧ token ≠ closeToken := by
      constructor <;> rintro rfl <;> cases hkind
    exact ih (by simpa [hnot] using hmem)
  · intro tokens atoms _ ih hmem
    exact ih hmem
  · intro tokens joined atoms atoms' between hbetween _ _ ih ih' hmem
    have hnot : token ∉ between := by
      rcases hbetween with rfl | rfl | rfl
      · exact List.not_mem_nil
      · rintro hbetween
        obtain rfl := List.mem_singleton.mp hbetween
        cases hkind
      · rintro hbetween
        obtain rfl := List.mem_singleton.mp hbetween
        cases hkind
    rcases List.mem_append.mp hmem with hmem | hmem
    · obtain ⟨a, ha, hkeyword⟩ := ih hmem
      exact ⟨a, List.mem_append_left _ ha, hkeyword⟩
    · obtain ⟨a, ha, hkeyword⟩ := ih' ((List.mem_append.mp hmem).resolve_left hnot)
      exact ⟨a, List.mem_append_right _ ha, hkeyword⟩

theorem mem_keywords_of_parse {query : String} {c : Constraint} (hparse : parse query = .ok c) {token : Token}
    (hmem : token ∈ lex query) (hkind : token.kind = .predicate) : token.value ∈ keywords := by
  have hend : lex query ≠ [Token.endOfQuery] := by
    intro hend
    obtain rfl := List.mem_singleton.mp (hend ▸ hmem)
    cases hkind
  obtain ⟨e, hlex⟩ := exists_phrase_of_parse hparse hend
  rw [parse_of_lex_eq e hlex] at hparse
  have htoken : token ∈ e.tokens := by
    rw [hlex] at hmem
    refine (List.mem_append.mp hmem).resolve_right fun hlast => ?_
    obtain rfl := List.mem_singleton.mp hlast
    cases hkind
  obtain ⟨a, ha, hkeyword⟩ := e.word.exists_atom htoken hkind
  obtain ⟨c, hbuild⟩ := e.exists_parsed_iff.mp ⟨c, hparse⟩ a ha
  exact hkeyword ▸ mem_keywords_of_buildPredicate hbuild

theorem operatorTokens_colon (text : List Char) :
    operatorTokens (':' :: text) = ⟨.predicate, ""⟩ :: colonToken :: argumentTokens text := by
  have hlexes : Lexes .operator ([] ++ ':' :: text) (⟨.predicate, ""⟩ :: colonToken :: argumentTokens text) :=
    .predicate (.inr rfl) (List.forall_mem_nil _) (lexes_argument text)
  exact hlexes.tokensOf_eq

/-- Each argument of an answered query is a word or quoted. A word without backslashes and quotes can be quoted if it
is the last argument of its predicate, and otherwise the query is refused with quotes there. -/
theorem parse_inQuotes {query : String} {c : Constraint} (hparse : parse query = .ok c) :
    (∀ first value more, lex query = first ++ argToken value :: more →
      ∃ tokens before behind, first = tokens ++ [colonToken] ∧
        (BareArgument query tokens before value.toList behind ∨
          QuotedArgument query tokens before value.toList behind)) ∧
    ∀ tokens before value behind, BareArgument query tokens before value behind → value ≠ [] →
      (∀ ch ∈ value, ch ∉ ['\\', '"', '\'']) →
      (behind.head? ≠ some ':' → parse (inQuotes before value behind) = .ok c) ∧
      (behind.head? = some ':' → ∃ error, parse (inQuotes before value behind) = .error error) := by
  refine ⟨fun _ _ _ => exists_argument, ?_⟩
  intro tokens before value behind harg hsome hvalue
  have hquoted := lex_inQuotes behind harg.colon hvalue
  constructor
  · intro hcolon
    rw [← hparse]
    exact parse_eq_of_lex_eq (hquoted.trans (harg.lex_eq hsome hcolon).symm)
  · intro hcolon
    obtain ⟨rest, rfl⟩ := List.head?_eq_some_iff.mp hcolon
    rw [operatorTokens_colon] at hquoted
    cases hanswer : parse (inQuotes before value (':' :: rest)) with
    | error error => exact ⟨error, rfl⟩
    | ok answer =>
        have hmem : ⟨.predicate, ""⟩ ∈ lex (inQuotes before value (':' :: rest)) := by simp [hquoted]
        exact absurd (mem_keywords_of_parse hanswer hmem rfl) (by decide)

theorem parse_inQuotes_last_of_chain :
    parse "tag:a or loc:city:paris -is:image" =
      .ok (.or (.tag "a") (.and (.location .city "paris") (.not (.mediaType "image")))) ∧
    parse "tag:a or loc:city:\"paris\" -is:image" =
      .ok (.or (.tag "a") (.and (.location .city "paris") (.not (.mediaType "image")))) := by
  have hparse : parse "tag:a or loc:city:paris -is:image" =
      .ok (.or (.tag "a") (.and (.location .city "paris") (.not (.mediaType "image")))) := by decide +kernel
  have harg : BareArgument "tag:a or loc:city:paris -is:image"
      [⟨.predicate, "tag"⟩, colonToken, argToken "a", orToken, ⟨.predicate, "loc"⟩, colonToken, argToken "city"]
      "tag:a or loc:city:".toList "paris".toList " -is:image".toList :=
    ⟨rfl, by decide +kernel, by simp, List.all_eq_true.mp (by decide), by simp [isWordChar, isBlank]⟩
  exact ⟨hparse, ((parse_inQuotes hparse).2 _ _ _ _ harg (by simp) (by simp)).1 (by simp)⟩

/-- The field of a place cannot be quoted. -/
theorem parse_inQuotes_field :
    BareArgument "loc:city:paris" [⟨.predicate, "loc"⟩] "loc:".toList "city".toList ":paris".toList ∧
    inQuotes "loc:".toList "city".toList ":paris".toList = "loc:\"city\":paris" ∧
    parse "loc:city:paris" = .ok (.location .city "paris") ∧
    parse "loc:\"city\":paris" = .error (.unsupportedPredicate "") := by
  have harg : BareArgument "loc:city:paris" [⟨.predicate, "loc"⟩] "loc:".toList "city".toList ":paris".toList :=
    ⟨rfl, by decide +kernel, by simp, List.all_eq_true.mp (by decide), by simp [isWordChar]⟩
  exact ⟨harg, by decide, by decide +kernel, by decide +kernel⟩

end MediaCatalog.Query
