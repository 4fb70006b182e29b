import MediaCatalog.Proofs.Query.ParserSoundness
import MediaCatalog.Proofs.Query.TokenCount

/-!
What the parser takes from a stream, and what draining takes after it. The parser only looks ahead and takes
tokens that end nothing, whether it succeeds or not, so that the end of the query or the error is left for the
drain, and together they take every token once.
-/

namespace MediaCatalog.Query

open TokenStream

namespace TokenStream

/-- A stream comes out of another one by looks at the next token and by taking tokens that end nothing. -/
inductive Advances : TokenStream → TokenStream → Prop where
  | refl (s : TokenStream) : Advances s s
  | look {s s' : TokenStream} (h : Advances s s') : Advances s s'.looked
  | take {s s' : TokenStream} (h : Advances s s') (heof : s'.head.kind ≠ .eof)
      (herror : s'.head.kind ≠ .error) : Advances s s'.tail

namespace Advances

theorem trans {s s' s'' : TokenStream} (h : Advances s s') (h' : Advances s' s'') : Advances s s'' := by
  induction h' with
  | refl => exact h
  | look _ ih => exact ih.look
  | take _ heof herror ih => exact ih.take heof herror

theorem looked (s : TokenStream) : Advances s s.looked :=
  (refl s).look

theorem tail {s : TokenStream} {kind : TokenKind} (h : s.head.kind = kind) (heof : kind ≠ .eof)
    (herror : kind ≠ .error) : Advances s s.tail :=
  (refl s).take (h ▸ heof) (h ▸ herror)

end Advances

end TokenStream

theorem advances_stripNot (s : TokenStream) : s.Advances (stripNot s).2 := by
  fun_induction stripNot s with
  | case1 s hnot _ _ hrest ih =>
      rw [hrest] at ih
      exact (Advances.tail hnot (by decide) (by decide)).trans ih
  | case2 s _ => exact .looked s

theorem advances_readArguments (expected : Bool) (s : TokenStream) :
    s.Advances (readArguments expected s).2 := by
  fun_induction readArguments expected s with
  | case1 _ s hcolon ih => exact (Advances.tail hcolon (by decide) (by decide)).trans ih
  | case2 _ s _ harg _ _ hrest ih =>
      rw [hrest] at ih
      exact (Advances.tail harg (by decide) (by decide)).trans ih
  | case3 _ s => exact .looked s

theorem advances_skipAnd (s : TokenStream) : s.Advances (skipAnd s) := by
  rw [skipAnd]
  split
  · rename_i hand
    exact .tail hand (by decide) (by decide)
  · exact .looked s

theorem advances_parseAtom {s : TokenStream} (heof : s.head.kind ≠ .eof) (herror : s.head.kind ≠ .error) :
    s.Advances (parseAtom s).rest := by
  have htail : s.Advances s.tail := (Advances.refl s).take heof herror
  rw [parseAtom]
  split
  · exact htail.trans (advances_readArguments false s.tail)
  · exact htail

mutual

theorem advances_parseExpression (s : TokenStream) : s.Advances (parseExpression s).rest := by
  rw [parseExpression]
  split
  · exact .looked s
  · have hsize : s.looked.size = s.size := size_looked s
    have hoperand := (Advances.looked s).trans (advances_parseOperand s.looked)
    split
    · rename_i hfirst
      rw [hfirst] at hoperand
      exact hoperand
    · rename_i first rest hlt hfirst
      rw [hfirst] at hoperand
      have hlt : rest.size < s.size := hsize ▸ hlt rfl
      exact hoperand.trans (advances_parseExpressionRest first rest)
termination_by 7 * s.size + 5

theorem advances_parseExpressionRest (lhs : Constraint) (s : TokenStream) :
    s.Advances (parseExpressionRest lhs s).rest := by
  rw [parseExpressionRest]
  split
  · rename_i hor
    have hlt : s.tail.size < s.size := size_tail_lt (by simp [hor])
    exact (Advances.tail hor (by decide) (by decide)).trans (advances_parseOrRest lhs s.tail)
  · split
    · exact .looked s
    · have hle : (skipAnd s).size ≤ s.size := size_skipAnd_le s
      have hboth := (advances_skipAnd s).trans (advances_parseAndRest lhs (skipAnd s))
      split
      · rename_i hread
        rw [hread] at hboth
        exact hboth
      · rename_i both rest hlt hread
        rw [hread] at hboth
        have hlt : rest.size < s.size := Nat.lt_of_lt_of_le (hlt rfl) hle
        exact hboth.trans (advances_parseExpressionRest both rest)
termination_by 7 * s.size + 4

theorem advances_parseOperand (s : TokenStream) : s.Advances (parseOperand s).rest := by
  have hle : (stripNot s).2.size ≤ s.size := size_stripNot_le s
  rw [parseOperand]
  exact (advances_stripNot s).trans (advances_parsePositive (stripNot s).2)
termination_by 7 * s.size + 1

theorem advances_parsePositive (s : TokenStream) : s.Advances (parsePositive s).rest := by
  rw [parsePositive]
  split_ifs with herror heof hclose hopen
  · exact .looked s
  · exact .looked s
  · exact .looked s
  · have hlt : s.tail.size < s.size := size_tail_lt (by simp [hopen])
    exact (Advances.tail hopen (by decide) (by decide)).trans (advances_parseGroupRest s.tail)
  · exact advances_parseAtom heof herror
termination_by 7 * s.size

theorem advances_parseGroupRest (s : TokenStream) : s.Advances (parseGroupRest s).rest := by
  have hinner := advances_parseExpression s
  rw [parseGroupRest]
  split
  · rename_i hread
    rw [hread] at hinner
    exact hinner
  · rename_i inner rest hlt hread
    rw [hread] at hinner
    split
    · rename_i hclose
      exact hinner.trans (.tail hclose (by decide) (by decide))
    · exact hinner.look
termination_by 7 * s.size + 6

theorem advances_parseOrRest (lhs : Constraint) (s : TokenStream) : s.Advances (parseOrRest lhs s).rest := by
  have hnext := advances_parseConjunction s
  rw [parseOrRest]
  split
  · rename_i hread
    rw [hread] at hnext
    exact hnext
  · rename_i next rest hlt hread
    rw [hread] at hnext
    have hlt : rest.size < s.size := hlt rfl
    split_ifs with hor hend
    · have hle : rest.tail.size ≤ rest.size := size_tail_le rest
      exact (hnext.trans (.tail hor (by decide) (by decide))).trans (advances_parseOrRest _ rest.tail)
    · exact hnext.look
    · have heq : rest.looked.size = rest.size := size_looked rest
      exact hnext.look.trans (advances_parseOrRest _ rest.looked)
termination_by 7 * s.size + 4

theorem advances_parseConjunction (s : TokenStream) : s.Advances (parseConjunction s).rest := by
  have hfirst := advances_parseOperand s
  rw [parseConjunction]
  split
  · rename_i hread
    rw [hread] at hfirst
    exact hfirst
  · rename_i first rest hlt hread
    rw [hread] at hfirst
    have hlt : rest.size < s.size := hlt rfl
    split_ifs with hand hend
    · have hle : rest.tail.size ≤ rest.size := size_tail_le rest
      exact (hfirst.trans (.tail hand (by decide) (by decide))).trans (advances_parseAndRest _ rest.tail)
    · exact hfirst.look
    · have heq : rest.looked.size = rest.size := size_looked rest
      exact hfirst.look.trans (advances_parseAndRest _ rest.looked)
termination_by 7 * s.size + 3

theorem advances_parseAndRest (lhs : Constraint) (s : TokenStream) : s.Advances (parseAndRest lhs s).rest := by
  have hnext := advances_parseOperand s
  rw [parseAndRest]
  split
  · rename_i hread
    rw [hread] at hnext
    exact hnext
  · rename_i next rest hlt hread
    rw [hread] at hnext
    have hlt : rest.size < s.size := hlt rfl
    split_ifs with hand
    · have hle : rest.tail.size ≤ rest.size := size_tail_le rest
      exact (hnext.trans (.tail hand (by decide) (by decide))).trans (advances_parseAndRest _ rest.tail)
    · exact hnext.look
termination_by 7 * s.size + 2

end

theorem advances_parseQuery (s : TokenStream) : s.Advances (parseQuery s).rest := by
  have hexpression := advances_parseExpression s
  rw [parseQuery]
  split
  · rename_i hread
    rw [hread] at hexpression
    exact hexpression
  · rename_i hread
    rw [hread] at hexpression
    split_ifs
    · exact hexpression.look
    · exact hexpression.look

theorem TokenStream.pending_eq_cons (s : TokenStream) : s.pending = s.head :: s.pending.tail := by
  rcases s with ⟨_ | _, _⟩ <;> rfl

theorem pending_ofTokens_lex (query : String) : (ofTokens (lex query)).pending = lex query := by
  obtain ⟨token, rest, hrest⟩ := List.exists_cons_of_ne_nil (continues_lex query).ne_nil
  rw [hrest]
  rfl

theorem Continues.pending_tail {kind : TokenKind} {s : TokenStream} (h : Continues kind s.pending)
    (heof : s.head.kind ≠ .eof) (herror : s.head.kind ≠ .error) :
    s.pending = s.head :: s.tail.pending ∧ Continues s.head.kind s.tail.pending := by
  rw [pending_eq_cons] at h
  have hbehind := h.tail heof herror
  have htail : s.tail.pending = s.pending.tail := by
    obtain ⟨token, rest, hrest⟩ := List.exists_cons_of_ne_nil hbehind.ne_nil
    rw [← ofTokens_tail_pending, hrest]
    rfl
  rw [htail]
  exact ⟨pending_eq_cons s, hbehind⟩

/-- What a stream has passed on its way is gone from the tokens to come, and nothing else is. -/
theorem TokenStream.Advances.exists_taken {s s' : TokenStream} {kind : TokenKind} (h : s.Advances s')
    (hcontinues : Continues kind s.pending) :
    ∃ taken kind', s.pending = taken ++ s'.pending ∧ Continues kind' s'.pending := by
  induction h with
  | refl => exact ⟨[], kind, rfl, hcontinues⟩
  | look _ ih =>
      rw [pending_looked]
      exact ih
  | @take s' _ heof herror ih =>
      obtain ⟨taken, kind', htaken, hrest⟩ := ih
      obtain ⟨hpending, htail⟩ := hrest.pending_tail heof herror
      exact ⟨taken ++ [s'.head], s'.head.kind, by rw [htaken, hpending, List.append_assoc]; rfl, htail⟩

theorem drain_eq {s : TokenStream} {kind : TokenKind} (h : Continues kind s.pending) :
    s.drain = (s.pending, ⟨none, []⟩) := by
  fun_induction drain s generalizing kind with
  | case1 s hfinal =>
      have hnil : s.pending.tail = [] := by
        rw [pending_eq_cons] at h
        rcases h.cons_inv.2.2 with ⟨_, hnil⟩ | hbehind
        · exact hnil
        · exact absurd hfinal (not_or.mpr hbehind.ne_final)
      have hclosed : s.tail.close = ⟨none, []⟩ := by rcases s with ⟨_ | _, _⟩ <;> rfl
      rw [pending_eq_cons, hnil, hclosed]
  | case2 s hfinal taken rest hdrain ih =>
      obtain ⟨heof, herror⟩ := not_or.mp hfinal
      obtain ⟨hpending, hbehind⟩ := h.pending_tail heof herror
      obtain ⟨rfl, rfl⟩ := Prod.mk.inj (hdrain.symm.trans (ih hbehind))
      rw [hpending]

/-- The lexer comes to rest within a bound, with at most two tokens for a character and one more, of which the last
alone ends something; and what the parser has not taken of them, whether it succeeds or not, the drain takes. -/
theorem lex_finishes (query : String) :
    (∃ n ≤ 7 * query.length + 2, ∃ c,
      Lexing.advance^[n] (Lexing.ofQuery query) = ⟨none, c, lex query⟩) ∧
    (lex query).length ≤ 2 * query.length + 1 ∧
    (∃ init last, lex query = init ++ [last] ∧ (last.kind = .eof ∨ last.kind = .error) ∧
      ∀ token ∈ init, token.kind ≠ .eof ∧ token.kind ≠ .error) ∧
    ∃ taken left, lex query = taken ++ left ∧
      (parseQuery (ofTokens (lex query))).rest.drain = (left, ⟨none, []⟩) := by
  have hcontinues := continues_lex query
  rw [← pending_ofTokens_lex query] at hcontinues
  obtain ⟨taken, kind, htaken, hleft⟩ := (advances_parseQuery (ofTokens (lex query))).exists_taken hcontinues
  rw [pending_ofTokens_lex] at htaken
  exact ⟨Lexing.exists_advance_ofQuery query, length_lex_le query, (continues_lex query).exists_last,
    taken, _, htaken, drain_eq hleft⟩

end MediaCatalog.Query
