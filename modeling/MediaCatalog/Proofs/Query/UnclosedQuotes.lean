import MediaCatalog.Proofs.Query.Parentheses

/-!
Quoted texts that are not closed. The lexer ends with an error there, in the place of the argument. The parser reads
this argument as an empty one and makes the demand of the predicate before it comes to the error. So the error is
reported if there is a demand for an empty argument, and there is none for dates.
-/

namespace MediaCatalog.Query

open Text TokenStream

theorem readOperand_error (message : String) : readOperand [⟨.error, message⟩] = .error (.lexical message) := by
  have hkind : (⟨.error, message⟩ : Token).kind ≠ .notOp := nofun
  have hpositive : readPositive [⟨.error, message⟩] = .error (.lexical message) := by
    rw [readPositive, Reading.positive_eq]
    rfl
  have hoperand := readOperand_replicate 0 [] hkind
  rwa [hpositive] at hoperand

theorem readExpressionRest_error (lhs : Constraint) (message : String) :
    readExpressionRest lhs [⟨.error, message⟩] = .error (.lexical message) := by
  simp [readExpressionRest_cons, readOperand_error]

theorem readRun_error (lhs run : Constraint) (full : Bool) (message : String) :
    readRun lhs run full [⟨.error, message⟩] = .error (.lexical message) := by
  cases full <;> simp [readRun_cons, readOrRest_eq, readOperand_error]

theorem readExpression_error (e : Expression) (message : String) :
    readExpression (e.tokens ++ [⟨.error, message⟩]) = e.parsed.bind fun _ => .error (.lexical message) := by
  cases e with
  | single k =>
      rw [Expression.tokens, readExpression_conjunction k [] (by simp) (by simp), Expression.parsed]
      simp only [readExpressionRest_error]
  | or e k =>
      rw [Expression.tokens, List.append_assoc, List.cons_append, readExpression_or, Expression.parsed,
        Except.bind_assoc]
      apply congrArg
      funext lhs
      rw [readOrRest_conjunction lhs k [] (by simp) (by simp), Except.bind_map]
      simp only [readRun_error]

theorem parse_of_lex_eq_error {query message : String} (e : Expression)
    (hlex : lex query = e.tokens ++ [⟨.error, message⟩]) :
    parse query = e.parsed.bind fun _ => .error (.lexical message) := by
  rw [parse_eq, hlex, readExpression_error, Except.bind_assoc]
  rfl

theorem Expression.bind_parsed_append {α : Type} (e : Expression) (spelled : Bool) (o : Operand)
    (outcome : Except QueryError α) :
    ((e.append spelled o).parsed.bind fun _ => outcome) = e.parsed.bind fun _ => o.parsed.bind fun _ => outcome := by
  cases e with
  | single k =>
      rw [Expression.append, Expression.parsed, Expression.parsed, Conjunction.parsed, Except.bind_assoc]
      simp only [Except.bind_map]
  | or e k =>
      rw [Expression.append, Expression.parsed, Expression.parsed, Except.bind_assoc, Except.bind_assoc]
      simp only [Conjunction.parsedAfter, Except.map_bind, Except.bind_map, Except.bind_assoc]

/-- What can be written before the colon of a last argument, and the predicate that it begins. -/
inductive Heads : String → Atom → Prop where
  | keyword {keyword : String} (h : keyword ∈ keywords) : Heads keyword ⟨keyword, [], none⟩
  | place (field : LocationField) : Heads ("loc:" ++ field.name) ⟨"loc", [field.name], none⟩

namespace Heads

variable {head : String} {a : Atom}

theorem lexes (h : Heads head a) {state : LexerState} (hstate : state.BetweenOperands) (rest : List Char) :
    Lexes state (head.toList ++ ':' :: rest) (a.tokens ++ argumentTokens rest) := by
  cases h with
  | keyword h =>
      have hlexes := Lexes.predicate hstate (isLetter_of_mem_keywords h) (lexes_argument rest)
      rwa [String.ofList_toList] at hlexes
  | place field =>
      have hword : ∀ c ∈ "loc".toList, isLetter c := isLetter_of_mem_keywords (by decide)
      have hlexes := Lexes.predicate hstate hword (lexes_argument (field.name.toList ++ ':' :: rest))
      rw [argumentTokens_name] at hlexes
      rw [String.toList_append, List.append_assoc]
      exact hlexes

/-- Only a date cannot be empty. -/
theorem build_eq (h : Heads head a) :
    ((head = "after" ∨ head = "before") ∧ a.build = .error (.invalidDate "")) ∨
      (head ≠ "after" ∧ head ≠ "before" ∧ ∃ c, a.build = .ok c) := by
  cases h with
  | keyword h =>
      simp only [keywords, List.mem_cons, List.not_mem_nil, or_false] at h
      rcases h with rfl | rfl | rfl | rfl | rfl | rfl | rfl
      · exact .inl ⟨.inl rfl, by decide +kernel⟩
      · exact .inl ⟨.inr rfl, by decide +kernel⟩
      all_goals exact .inr ⟨by decide, by decide, _, rfl⟩
  | place field => cases field <;> exact .inr ⟨by decide, by decide, _, rfl⟩

end Heads

/-- A query, and behind it a predicate with a quoted argument. -/
def withQuoted (query head : String) (quote : Char) (text : String) : String :=
  query ++ " " ++ head ++ ":" ++ String.singleton quote ++ text

theorem argumentTokens_unclosed {quote : Char} (hquote : quote = '"' ∨ quote = '\'') {text : List Char}
    (hopen : ∀ body value rest, QuotedBody quote body value → text ≠ body ++ quote :: rest) :
    ∃ error : LexicalError, argumentTokens (quote :: text) = [⟨.error, error.message⟩] := by
  rw [argumentTokens_quote hquote]
  cases hread : readString quote text with
  | error error => exact ⟨error, rfl⟩
  | ok read =>
      obtain ⟨value, rest⟩ := read
      obtain ⟨body, hbody, htext⟩ := exists_body_of_readString hread
      exact absurd htext (hopen body value rest hbody)

section Unclosed

variable {query head text : String} {quote : Char} {a : Atom} {error : LexicalError}

theorem lex_withQuoted (hhead : Heads head a)
    (hargument : argumentTokens (quote :: text.toList) = [⟨.error, error.message⟩]) {tokens : List Token}
    (hlex : lex query = tokens ++ [Token.endOfQuery]) :
    lex (withQuoted query head quote text) =
      completeTokens .openParen tokens ++ (a.tokens ++ [⟨.error, error.message⟩]) := by
  have htext : (withQuoted query head quote text).toList =
      query.toList ++ ' ' :: (head.toList ++ ':' :: quote :: text.toList) := by
    simp [withQuoted, String.toList_append]
  have hmore : ∀ state : LexerState, state.BetweenOperands →
      Lexes state (' ' :: (head.toList ++ ':' :: quote :: text.toList)) (a.tokens ++ [⟨.error, error.message⟩]) := by
    intro state hstate
    rw [← hargument]
    exact .space hstate (by decide) (hhead.lexes hstate _)
  have hquery : Lexes .start query.toList (tokens ++ [Token.endOfQuery]) := lexes_iff.mpr hlex
  have hstart : LexerState.start = TokenKind.openParen.stateBehind := rfl
  rw [lex, htext]
  refine lexes_iff.mp (hquery.append_completed hstart (by simp) ?_ (fun _ => rfl) hmore)
  rintro c ⟨⟩
  decide

theorem exists_phrase_withQuoted {c : Constraint} (hparse : parse query = .ok c) (hhead : Heads head a)
    (hargument : argumentTokens (quote :: text.toList) = [⟨.error, error.message⟩]) :
    ∃ e : Expression, lex (withQuoted query head quote text) = e.tokens ++ [⟨.error, error.message⟩] ∧
      ∀ outcome : Except QueryError Constraint,
        (e.parsed.bind fun _ => outcome) = a.build.bind fun _ => outcome := by
  have hatom : (Operand.atom 0 a).tokens = a.tokens := by
    rw [Operand.tokens, List.replicate_zero, List.nil_append]
  by_cases hend : lex query = [Token.endOfQuery]
  · -- The predicate is all that there is.
    have hlex := lex_withQuoted hhead hargument (hend.trans (List.nil_append _).symm)
    refine ⟨.single (.single (.atom 0 a)), hlex.trans ?_, fun outcome => ?_⟩
    · rw [Expression.tokens, Conjunction.tokens, hatom]
      rfl
    · rw [Expression.parsed, Conjunction.parsed, Operand.parsed, Except.bind_map]
  · obtain ⟨e, he⟩ := exists_phrase_of_parse hparse hend
    have hlex := lex_withQuoted hhead hargument he
    rw [e.complete_tokens, ← List.append_assoc] at hlex
    rw [parse_of_lex_eq e he] at hparse
    refine ⟨e.completed.append false (.atom 0 a), hlex.trans ?_, fun outcome => ?_⟩
    · rw [Expression.tokens_append, hatom]
      rfl
    · rw [Expression.bind_parsed_append, e.parsed_completed, hparse, Except.ok_bind, Operand.parsed, Except.bind_map]

theorem parse_withQuoted {c : Constraint} (hparse : parse query = .ok c) (hhead : Heads head a)
    (hargument : argumentTokens (quote :: text.toList) = [⟨.error, error.message⟩]) :
    parse (withQuoted query head quote text) = a.build.bind fun _ => .error (.lexical error.message) := by
  obtain ⟨e, hlex, hparsed⟩ := exists_phrase_withQuoted hparse hhead hargument
  rw [parse_of_lex_eq_error e hlex, hparsed]

end Unclosed

theorem message_ne_invalidDate (error : LexicalError) : (QueryError.invalidDate "").message ≠ error.message := by
  cases error <;> decide

/-- A quoted text that is not closed ends the query with an error, and the parser reports this error unless the text
should be a date. -/
theorem parse_unclosed {query head text : String} {quote : Char}
    (hquery : (∀ c ∈ query.toList, c ∈ spaces) ∨ ∃ c, parse query = .ok c)
    (hhead : head ∈ keywords ∨ ∃ field : LocationField, head = "loc:" ++ field.name)
    (hquote : quote = '"' ∨ quote = '\'')
    (hopen : ∀ body value rest, QuotedBody quote body value → text.toList ≠ body ++ quote :: rest) :
    ∃ message, (lex (withQuoted query head quote text)).getLast? = some ⟨.error, message⟩ ∧
      ((∃ error, parse (withQuoted query head quote text) = .error error ∧ error.message = message) ↔
        head ≠ "after" ∧ head ≠ "before") ∧
      (head = "after" ∨ head = "before" →
        parse (withQuoted query head quote text) = .error (.invalidDate "")) := by
  obtain ⟨c, hparse⟩ : ∃ c, parse query = .ok c :=
    hquery.elim (fun hblank => ⟨.empty, parse_of_lex_eq_end ((lex_eq_end_iff query).mpr hblank)⟩) id
  obtain ⟨a, hheads⟩ : ∃ a, Heads head a := by
    rcases hhead with hkeyword | ⟨field, rfl⟩
    · exact ⟨_, .keyword hkeyword⟩
    · exact ⟨_, .place field⟩
  obtain ⟨error, hargument⟩ := argumentTokens_unclosed hquote hopen
  obtain ⟨tokens, hlex⟩ := exists_lex_of_parse hparse
  have hanswer := parse_withQuoted hparse hheads hargument
  refine ⟨error.message, ?_, ?_⟩
  · rw [lex_withQuoted hheads hargument hlex, ← List.append_assoc, List.getLast?_concat]
  rcases hheads.build_eq with ⟨hdate, hbuild⟩ | ⟨hafter, hbefore, demand, hbuild⟩
  · rw [hbuild, Except.error_bind] at hanswer
    refine ⟨⟨?_, ?_⟩, fun _ => hanswer⟩
    · rintro ⟨reported, hreported, hmessage⟩
      obtain rfl := Except.error.inj (hanswer.symm.trans hreported)
      exact absurd hmessage (message_ne_invalidDate error)
    · rintro ⟨hafter, hbefore⟩
      exact (hdate.elim hafter hbefore).elim
  · rw [hbuild, Except.ok_bind] at hanswer
    refine ⟨⟨fun _ => ⟨hafter, hbefore⟩, fun _ => ⟨_, hanswer, rfl⟩⟩, ?_⟩
    rintro (rfl | rfl)
    · exact absurd rfl hafter
    · exact absurd rfl hbefore

theorem parse_unclosed_place :
    withQuoted "tag:a or tag:" "loc:city" '\'' "it\\'s" = "tag:a or tag: loc:city:'it\\'s" ∧
      ∃ message, (lex (withQuoted "tag:a or tag:" "loc:city" '\'' "it\\'s")).getLast? = some ⟨.error, message⟩ ∧
        ∃ error, parse (withQuoted "tag:a or tag:" "loc:city" '\'' "it\\'s") = .error error ∧
          error.message = message := by
  have hquery : ∃ c, parse "tag:a or tag:" = .ok c := ⟨.or (.tag "a") (.tag ""), by decide +kernel⟩
  have hhead : "loc:city" = "loc:" ++ LocationField.city.name := by decide
  have hopen : ∀ body value rest, QuotedBody '\'' body value → "it\\'s".toList ≠ body ++ '\'' :: rest := by
    intro body value rest hbody htext
    have hunclosed : readString '\'' "it\\'s".toList = .error .unclosedString := by decide +kernel
    rw [htext, readString_of_body (.inr rfl) hbody rest] at hunclosed
    cases hunclosed
  obtain ⟨message, hlast, hreported, _⟩ :=
    parse_unclosed (.inr hquery) (.inr ⟨.city, hhead⟩) (.inr rfl) hopen
  exact ⟨by decide, message, hlast, hreported.mpr ⟨by decide, by decide⟩⟩

/-- A date is refused before the error of the lexer is seen. -/
theorem parse_unclosed_date :
    withQuoted "" "after" '"' "2020" = " after:\"2020" ∧
    lex " after:\"2020" = [⟨.predicate, "after"⟩, colonToken, ⟨.error, "unclosed quoted string"⟩] ∧
    parse " after:\"2020" = .error (.invalidDate "") ∧
    (QueryError.invalidDate "").message = "invalid date: ''" :=
  ⟨by decide, by decide +kernel, by decide +kernel, by decide⟩

end MediaCatalog.Query
