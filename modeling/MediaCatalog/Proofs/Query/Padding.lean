import MediaCatalog.Proofs.Query.Parentheses

/-!
White space around queries. In front of a query it is skipped. Behind a query it completes a predicate that ends with
a colon, which does not change the answer, and it neither mends an error of the lexer nor hides one.
-/

namespace MediaCatalog.Query

open Text

theorem lexes_spaces {state : LexerState} (hstate : state.BetweenOperands) {text : List Char}
    (h : ∀ c ∈ text, c ∈ spaces) : Lexes state text [Token.endOfQuery] := by
  induction text with
  | nil => exact .finish (.inl hstate)
  | cons c text ih =>
      obtain ⟨hc, htext⟩ := List.forall_mem_cons.mp h
      exact .space hstate hc (ih htext)

theorem lexChars_spaces_append {first : List Char} (h : ∀ c ∈ first, c ∈ spaces) (text : List Char) :
    lexChars (first ++ text) = lexChars text := by
  induction first with
  | nil => rfl
  | cons c first ih =>
      obtain ⟨hc, hfirst⟩ := List.forall_mem_cons.mp h
      rw [List.cons_append, lexChars_of_mem_spaces hc, ih hfirst]

section Behind

variable {text behind : List Char} (hspaces : ∀ c ∈ behind, c ∈ spaces)

include hspaces

theorem lexChars_append_spaces {tokens : List Token} (h : lexChars text = tokens ++ [Token.endOfQuery])
    (hsome : behind ≠ []) :
    lexChars (text ++ behind) = completeTokens .openParen tokens ++ [Token.endOfQuery] := by
  refine lexes_iff.mp ((lexes_iff.mpr h).append_completed rfl hsome ?_ (fun _ => endsOperator_spaces hspaces)
    fun state hstate => lexes_spaces hstate hspaces)
  intro c hc
  have hspace := of_mem_spaces (head_of_spaces hspaces c hc)
  exact ⟨hspace.2.1, hspace.2.2.1⟩

theorem endsQuery_of_append_spaces (h : EndsQuery (lexChars (text ++ behind))) : EndsQuery (lexChars text) := by
  obtain ⟨all, hall, hends⟩ := (lexes_start text).append_spaces hspaces
  exact hends (lexes_iff.mp hall ▸ h)

end Behind

theorem Atom.argTokens_some (inits : List String) (value : String) :
    argTokens inits (some value) = argTokens inits none ++ [argToken value] := by
  simp [argTokens]

theorem Atom.lastKind_argTokens_none (inits : List String) : lastKind .colon (argTokens inits none) = .colon := by
  induction inits with
  | nil => rfl
  | cons value inits ih => exact ih

section Completed

variable {first tokens : List Token}

theorem Operand.exists_completed {o : Operand} (h : first ++ o.tokens = tokens ++ [argToken ""]) :
    ∃ o' : Operand, o'.completed = o ∧ first ++ o'.tokens = tokens := by
  have hkind : lastKind .openParen (first ++ o.tokens) = .arg := by
    rw [h]
    exact lastKind_append_cons ..
  cases o with
  | atom n a =>
      obtain ⟨keyword, inits, last⟩ := a
      cases last with
      | none =>
          -- The last token is a colon.
          rw [Operand.tokens, ← List.append_assoc, Atom.tokens, lastKind_append_cons] at hkind
          change lastKind .colon (Atom.argTokens inits none) = .arg at hkind
          rw [Atom.lastKind_argTokens_none] at hkind
          cases hkind
      | some value =>
          have hvalue : first ++ (Operand.atom n ⟨keyword, inits, none⟩).tokens ++ [argToken value] =
              tokens ++ [argToken ""] := by
            rw [← h, Operand.tokens, Operand.tokens, Atom.tokens, Atom.tokens, Atom.argTokens_some]
            simp
          obtain ⟨htokens, hlast⟩ := List.append_inj' hvalue rfl
          obtain rfl : value = "" := congrArg Token.value (List.singleton_inj.mp hlast)
          exact ⟨.atom n ⟨keyword, inits, none⟩, rfl, htokens⟩
  | group n e =>
      rw [Operand.tokens, ← List.cons_append, ← List.append_assoc, ← List.append_assoc, lastKind_append_cons] at hkind
      cases hkind

theorem Conjunction.exists_completed {k : Conjunction} (h : first ++ k.tokens = tokens ++ [argToken ""]) :
    ∃ k' : Conjunction, k'.completed = k ∧ first ++ k'.tokens = tokens := by
  cases k with
  | single o =>
      rw [Conjunction.tokens] at h
      obtain ⟨o', rfl, htokens⟩ := Operand.exists_completed h
      exact ⟨.single o', rfl, by rw [Conjunction.tokens, htokens]⟩
  | and k spelled o =>
      rw [Conjunction.tokens, ← List.append_assoc, ← List.append_assoc] at h
      obtain ⟨o', rfl, htokens⟩ := Operand.exists_completed h
      refine ⟨.and k spelled o', rfl, ?_⟩
      rw [Conjunction.tokens, ← List.append_assoc, ← List.append_assoc, htokens]

theorem Expression.exists_completed {e : Expression} (h : e.tokens = tokens ++ [argToken ""]) :
    ∃ e' : Expression, e'.completed = e ∧ e'.tokens = tokens := by
  cases e with
  | single k =>
      have hlast : [] ++ k.tokens = tokens ++ [argToken ""] := by rw [← h, Expression.tokens, List.nil_append]
      obtain ⟨k', rfl, htokens⟩ := Conjunction.exists_completed hlast
      exact ⟨.single k', rfl, by rw [Expression.tokens]; exact htokens⟩
  | or e k =>
      rw [Expression.tokens, List.append_cons] at h
      obtain ⟨k', rfl, htokens⟩ := Conjunction.exists_completed h
      exact ⟨.or e k', rfl, by rw [Expression.tokens, List.append_cons, htokens]⟩

theorem Expression.exists_parsed_of_complete {e : Expression} (h : e.tokens = completeTokens .openParen tokens) :
    ∃ e' : Expression, e'.tokens = tokens ∧ e'.parsed = e.parsed := by
  rw [completeTokens_eq] at h
  split at h
  · obtain ⟨e', rfl, htokens⟩ := Expression.exists_completed h
    exact ⟨e', htokens, e'.parsed_completed.symm⟩
  · exact ⟨e, h.trans (List.append_nil tokens), rfl⟩

end Completed

section Answers

variable {query padded : String} {tokens : List Token}

theorem completeTokens_eq_nil (h : completeTokens .openParen tokens = []) : tokens = [] := by
  cases tokens with
  | nil => rfl
  | cons => cases h

theorem parse_eq_ok_iff_of_complete (hlex : lex query = tokens ++ [Token.endOfQuery])
    (hpadded : lex padded = completeTokens .openParen tokens ++ [Token.endOfQuery]) (c : Constraint) :
    parse padded = .ok c ↔ parse query = .ok c := by
  by_cases hnil : tokens = []
  · rw [hnil] at hlex hpadded
    rw [parse_of_lex_eq_end hpadded, parse_of_lex_eq_end hlex]
  constructor
  · intro hparse
    have hend : lex padded ≠ [Token.endOfQuery] := by
      rw [hpadded]
      exact fun h => hnil (completeTokens_eq_nil (eq_nil_of_end h.symm))
    obtain ⟨e, he⟩ := exists_phrase_of_parse hparse hend
    obtain ⟨e', rfl, hparsed⟩ :=
      Expression.exists_parsed_of_complete (List.append_cancel_right (he.symm.trans hpadded))
    rw [parse_of_lex_eq e' hlex, hparsed, ← parse_of_lex_eq e he, hparse]
  · intro hparse
    have hend : lex query ≠ [Token.endOfQuery] := by
      rw [hlex]
      exact fun h => hnil (eq_nil_of_end h.symm)
    obtain ⟨e, he⟩ := exists_phrase_of_parse hparse hend
    obtain rfl := List.append_cancel_right (he.symm.trans hlex)
    rw [e.complete_tokens] at hpadded
    rw [parse_of_lex_eq e.completed hpadded, e.parsed_completed, ← parse_of_lex_eq e he, hparse]

theorem endsQuery_of_parse {c : Constraint} (hparse : parse query = .ok c) :
    EndsQuery (lex query) := by
  obtain ⟨tokens, hlex⟩ := exists_lex_of_parse hparse
  rw [hlex]
  exact List.getLast?_concat

theorem parse_eq_ok_iff_of_spaces {before behind : List Char} (hbefore : ∀ c ∈ before, c ∈ spaces)
    (hbehind : ∀ c ∈ behind, c ∈ spaces) (hpadded : padded.toList = before ++ query.toList ++ behind)
    (c : Constraint) : parse padded = .ok c ↔ parse query = .ok c := by
  have hlex : lex padded = lexChars (query.toList ++ behind) := by
    rw [lex, hpadded, List.append_assoc, lexChars_spaces_append hbefore]
  by_cases hnil : behind = []
  · rw [hnil, List.append_nil] at hlex
    rw [parse_eq padded, hlex, ← lex, ← parse_eq]
  by_cases hends : EndsQuery (lex query)
  · obtain ⟨tokens, htokens⟩ := List.getLast?_eq_some_iff.mp hends
    exact parse_eq_ok_iff_of_complete htokens (hlex.trans (lexChars_append_spaces hbehind htokens hnil)) c
  · constructor
    · intro hparse
      have hpadded := endsQuery_of_parse hparse
      rw [hlex] at hpadded
      exact absurd (endsQuery_of_append_spaces hbehind hpadded) hends
    · intro hparse
      exact absurd (endsQuery_of_parse hparse) hends

end Answers

end MediaCatalog.Query
