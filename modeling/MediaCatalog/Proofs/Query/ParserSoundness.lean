import MediaCatalog.Proofs.Query.ParserCompleteness
import MediaCatalog.Proofs.Query.TokenOrder

/-!
What the parser accepts is a phrase of the grammar. The parser looks at nothing but the kinds of tokens, and
the order in which the lexer yields them gives the predicates their form.
-/

namespace MediaCatalog.Query

open TokenStream

/-- Tokens that come next behind an operand: none of them belongs to it. -/
def EndsOperand (tokens : List Token) : Prop :=
  ∃ kind token rest, tokens = token :: rest ∧ Continues kind tokens ∧
    token.kind ≠ .colon ∧ token.kind ≠ .arg

theorem Continues.head_eq {kind : TokenKind} {token : Token} {tokens : List Token}
    (h : Continues kind (token :: tokens)) {text : String} (htext : token.kind.text? = some text) :
    token = ⟨token.kind, text⟩ := by
  have hvalue := h.cons_inv.2.1 text htext
  rw [← hvalue]

theorem Continues.tail {kind : TokenKind} {token : Token} {tokens : List Token}
    (h : Continues kind (token :: tokens)) (heof : token.kind ≠ .eof) (herror : token.kind ≠ .error) :
    Continues token.kind tokens := by
  rcases h.cons_inv.2.2 with ⟨hlast, _⟩ | htail
  · rcases hlast with h | h
    · exact absurd h heof
    · exact absurd h herror
  · exact htail

theorem exists_negations {kind : TokenKind} {tokens : List Token} (h : Continues kind tokens) :
    ∃ n token rest kind, tokens = List.replicate n notToken ++ token :: rest ∧
      token.kind ≠ .notOp ∧ Continues kind (token :: rest) := by
  induction h with
  | @last kind token hkind htext hlast =>
      refine ⟨0, token, [], kind, rfl, ?_, .last hkind htext hlast⟩
      rcases hlast with h | h <;> simp [h]
  | @cons kind token rest hkind htext hrest ih =>
      by_cases hnot : token.kind = .notOp
      · obtain ⟨n, next, rest, kind, rfl, hnext, hcontinues⟩ := ih
        refine ⟨n + 1, next, rest, kind, ?_, hnext, hcontinues⟩
        have heq := (Continues.cons hkind htext hrest).head_eq (by rw [hnot]; rfl)
        rw [List.replicate_succ, List.cons_append, heq, hnot, notToken]
      · exact ⟨0, token, rest, kind, rfl, hnot, .cons hkind htext hrest⟩

theorem exists_arguments {tokens : List Token} (h : Continues .colon tokens) :
    ∃ inits last rest, tokens = Atom.argTokens inits last ++ rest ∧ EndsOperand rest := by
  obtain ⟨n, hn⟩ : ∃ n, tokens.length = n := ⟨_, rfl⟩
  induction n using Nat.strongRecOn generalizing tokens with
  | _ n ih =>
      obtain ⟨token, tokens, rfl⟩ := List.exists_cons_of_ne_nil h.ne_nil
      by_cases harg : token.kind = .arg
      · have htail := h.tail (by simp [harg]) (by simp [harg])
        rw [harg] at htail
        have hvalue : token = argToken token.value := by rw [argToken, ← harg]
        obtain ⟨next, rest, rfl⟩ := List.exists_cons_of_ne_nil htail.ne_nil
        by_cases hcolon : next.kind = .colon
        · have hnext := htail.tail (by simp [hcolon]) (by simp [hcolon])
          have heq := htail.head_eq (by rw [hcolon]; rfl)
          rw [hcolon] at hnext heq
          obtain ⟨inits, last, behind, rfl, hends⟩ := ih rest.length (by simp at hn; omega) hnext rfl
          refine ⟨token.value :: inits, last, behind, ?_, hends⟩
          conv_lhs => rw [hvalue, heq]
          rfl
        · refine ⟨[], some token.value, next :: rest, ?_, .arg, next, rest, rfl, htail, hcolon, ?_⟩
          · conv_lhs => rw [hvalue]
            rfl
          · have hkind := htail.cons_inv.1
            rintro hnext
            simp [hnext, TokenKind.successors] at hkind
      · refine ⟨[], none, token :: tokens, rfl, .colon, token, tokens, rfl, h, ?_, harg⟩
        have hkind := h.cons_inv.1
        rintro hcolon
        simp [hcolon, TokenKind.successors] at hkind

/-- Tokens that come next behind an expression. -/
def EndsExpression (tokens : List Token) : Prop :=
  ∃ kind token rest, tokens = token :: rest ∧ Continues kind tokens ∧
    (token.kind = .closeParen ∨ token.kind = .eof)

/-- Where an expression is accepted stands a phrase. -/
def AcceptsPhrase (tokens : List Token) : Prop :=
  ∀ kind token behind c rest, tokens = token :: behind → Continues kind tokens →
    token.kind ≠ .eof → readExpression tokens = .ok (c, rest) →
    ∃ e : Expression, tokens = e.tokens ++ rest ∧ EndsExpression rest

/-- A predicate begins an atom, up to the tokens that come next behind an operand. -/
theorem exists_atom_tokens {kind : TokenKind} {token : Token} {tokens : List Token}
    (h : Continues kind (token :: tokens)) (htoken : token.kind = .predicate) :
    ∃ (a : Atom) (rest : List Token), token :: tokens = a.tokens ++ rest ∧ EndsOperand rest := by
  have htail := h.tail (by simp [htoken]) (by simp [htoken])
  rw [htoken] at htail
  obtain ⟨colon, tokens, rfl⟩ := List.exists_cons_of_ne_nil htail.ne_nil
  have hcolon : colon.kind = .colon := by simpa [TokenKind.successors] using htail.cons_inv.1
  have harguments := htail.tail (by simp [hcolon]) (by simp [hcolon])
  have heq := htail.head_eq (by rw [hcolon]; rfl)
  rw [hcolon] at harguments heq
  obtain ⟨inits, last, rest, rfl, hends⟩ := exists_arguments harguments
  refine ⟨⟨token.value, inits, last⟩, rest, ?_, hends⟩
  conv_lhs => rw [heq]
  rw [Atom.tokens, ← htoken]
  rfl

theorem exists_atom {kind : TokenKind} {token : Token} {tokens rest : List Token} {c : Constraint}
    (h : Continues kind (token :: tokens)) (htoken : token.kind = .predicate)
    (hread : readPositive (token :: tokens) = .ok (c, rest)) :
    ∃ a : Atom, token :: tokens = a.tokens ++ rest ∧ EndsOperand rest := by
  obtain ⟨a, behind, htokens, hends⟩ := exists_atom_tokens h htoken
  obtain ⟨_, next, behind, rfl, _, hnext, hnext'⟩ := id hends
  rw [htokens, readPositive_atom _ _ hnext hnext'] at hread
  obtain ⟨_, _, heq⟩ := Except.map_eq_ok_iff.mp hread
  obtain ⟨_, rfl⟩ := Prod.mk.inj heq
  exact ⟨a, htokens, hends⟩

theorem exists_group {kind : TokenKind} {token : Token} {tokens rest : List Token} {c : Constraint}
    (hinner : AcceptsPhrase tokens) (h : Continues kind (token :: tokens))
    (htoken : token.kind = .openParen) (hread : readPositive (token :: tokens) = .ok (c, rest)) :
    ∃ e : Expression, token :: tokens = openToken :: (e.tokens ++ closeToken :: rest) ∧
      EndsOperand rest := by
  have htail := h.tail (by simp [htoken]) (by simp [htoken])
  have heq := h.head_eq (by rw [htoken]; rfl)
  rw [htoken] at htail heq
  rw [readPositive_open tokens htoken] at hread
  obtain ⟨⟨inner, left⟩, hexpression, hclose⟩ := Except.bind_eq_ok_iff.mp hread
  obtain ⟨first, behind, rfl⟩ := List.exists_cons_of_ne_nil htail.ne_nil
  by_cases hfirst : first.kind = .eof
  · rw [readExpression_cons, if_pos hfirst] at hexpression
    obtain ⟨rfl, rfl⟩ := Prod.mk.inj (Except.ok.inj hexpression)
    rw [if_neg (show (ofTokens (first :: behind)).head.kind ≠ .closeParen by
      change first.kind ≠ _
      simp [hfirst])] at hclose
    exact absurd hclose (by simp)
  · obtain ⟨e, hphrase, _, close, behind, rfl, hcontinues, _⟩ :=
      hinner _ first behind inner left rfl htail hfirst hexpression
    split_ifs at hclose with hkind
    have hkind : close.kind = .closeParen := hkind
    have hbehind := hcontinues.tail (by simp [hkind]) (by simp [hkind])
    have hcloseToken := hcontinues.head_eq (by rw [hkind]; rfl)
    rw [hkind] at hbehind hcloseToken
    obtain ⟨next, behind, rfl⟩ := List.exists_cons_of_ne_nil hbehind.ne_nil
    obtain ⟨_, rfl⟩ := Prod.mk.inj (Except.ok.inj hclose)
    refine ⟨e, ?_, .closeParen, next, behind, rfl, hbehind, ?_, ?_⟩
    · rw [hphrase, hcloseToken]
      conv_lhs => rw [heq]
      rfl
    · rintro hnext
      exact absurd hbehind.cons_inv.1 (by simp [hnext, TokenKind.successors])
    · rintro hnext
      exact absurd hbehind.cons_inv.1 (by simp [hnext, TokenKind.successors])

section Shorter

variable {bound : Nat} (hshorter : ∀ tokens, tokens.length < bound → AcceptsPhrase tokens)

include hshorter

theorem exists_operand {kind : TokenKind} {tokens rest : List Token} {c : Constraint}
    (hlength : tokens.length ≤ bound) (h : Continues kind tokens)
    (hread : readOperand tokens = .ok (c, rest)) :
    ∃ o : Operand, tokens = o.tokens ++ rest ∧ EndsOperand rest := by
  obtain ⟨n, token, behind, kind, rfl, hnot, hpositive⟩ := exists_negations h
  rw [readOperand_replicate n behind hnot] at hread
  obtain ⟨⟨inner, left⟩, hinner, heq⟩ := Except.map_eq_ok_iff.mp hread
  obtain ⟨_, rfl⟩ := Prod.mk.inj heq
  rw [List.length_append, List.length_cons] at hlength
  rcases kind_of_readPositive hinner with hopen | hpredicate
  · obtain ⟨e, htokens, hends⟩ :=
      exists_group (hshorter behind (by omega)) hpositive hopen hinner
    refine ⟨.group n e, ?_, hends⟩
    rw [htokens, Operand.tokens]
    simp
  · obtain ⟨a, htokens, hends⟩ := exists_atom hpositive hpredicate hinner
    refine ⟨.atom n a, ?_, hends⟩
    rw [htokens, Operand.tokens, List.append_assoc]

theorem exists_of_readRun {tokens rest : List Token} {lhs run c : Constraint} {full : Bool}
    (hlength : tokens.length ≤ bound) (h : EndsOperand tokens)
    (hread : readRun lhs run full tokens = .ok (c, rest)) :
    EndsExpression rest ∧ ∀ (e : Expression) (k : Conjunction), ∃ whole : Expression,
      e.tokens ++ orToken :: (k.tokens ++ tokens) = whole.tokens ++ rest := by
  obtain ⟨n, hn⟩ : ∃ n, tokens.length = n := ⟨_, rfl⟩
  induction n using Nat.strongRecOn generalizing tokens lhs run full with
  | _ n ih =>
      -- However the next operand is joined, it is read and the rest is read on behind it.
      have hnext : ∀ {kind between}, Continues kind between → between.length ≤ tokens.length →
          ∀ (run : Constraint → Constraint) {lhs : Constraint} {full : Bool},
          ((readOperand between).bind fun read => readRun lhs (run read.1) full read.2) = .ok (c, rest) →
          EndsExpression rest ∧ ∃ (o : Operand) (behind : List Token), between = o.tokens ++ behind ∧
            ∀ (e : Expression) (k : Conjunction), ∃ whole : Expression,
              e.tokens ++ orToken :: (k.tokens ++ behind) = whole.tokens ++ rest := by
        intro kind between hbetween hle run lhs full hread
        obtain ⟨⟨next, behind⟩, hoperand, hrest⟩ := Except.bind_eq_ok_iff.mp hread
        obtain ⟨o, rfl, hends⟩ := exists_operand hshorter (by omega) hbetween hoperand
        have hlt : behind.length < n := by
          obtain ⟨token, operand, hcons, _⟩ := o.tokens_eq_cons
          rw [hcons, List.length_append, List.length_cons] at hle
          omega
        obtain ⟨hend, hwhole⟩ := ih behind.length hlt (by omega) hends hrest rfl
        exact ⟨hend, o, behind, rfl, hwhole⟩
      obtain ⟨kind, token, between, rfl, hcontinues, _, _⟩ := h
      rw [readRun_cons] at hread
      split_ifs at hread with hand hor hend hfull
      · have hbetween := hcontinues.tail (by simp [hand]) (by simp [hand])
        have heq := hcontinues.head_eq (by rw [hand]; rfl)
        obtain ⟨hend, o, behind, rfl, hwhole⟩ := hnext hbetween (by simp) (.and run) hread
        refine ⟨hend, ?_⟩
        intro e k
        obtain ⟨whole, hwhole⟩ := hwhole e (.and k true o)
        refine ⟨whole, ?_⟩
        rw [← hwhole, heq, hand, Conjunction.tokens]
        simp [junction, andToken]
      · have hbetween := hcontinues.tail (by simp [hor]) (by simp [hor])
        have heq := hcontinues.head_eq (by rw [hor]; rfl)
        rw [readOrRest_eq] at hread
        obtain ⟨hend, o, behind, rfl, hwhole⟩ := hnext hbetween (by simp) id hread
        refine ⟨hend, ?_⟩
        intro e k
        obtain ⟨whole, hwhole⟩ := hwhole (.or e k) (.single o)
        refine ⟨whole, ?_⟩
        rw [← hwhole, heq, hor, Conjunction.tokens, Expression.tokens]
        simp [orToken]
      · obtain ⟨_, rfl⟩ := Prod.mk.inj (Except.ok.inj hread)
        refine ⟨⟨kind, token, between, rfl, hcontinues, hend⟩, fun e k => ⟨.or e k, ?_⟩⟩
        rw [Expression.tokens]
        simp
      · rw [readOrRest_eq] at hread
        obtain ⟨hend, o, behind, hbetween, hwhole⟩ := hnext hcontinues (Nat.le_refl _) id hread
        refine ⟨hend, ?_⟩
        intro e k
        obtain ⟨whole, hwhole⟩ := hwhole e (.and k false o)
        refine ⟨whole, ?_⟩
        rw [← hwhole, hbetween, Conjunction.tokens]
        simp [junction]
      · obtain ⟨hend, o, behind, hbetween, hwhole⟩ :=
          hnext hcontinues (Nat.le_refl _) (.and run) hread
        refine ⟨hend, ?_⟩
        intro e k
        obtain ⟨whole, hwhole⟩ := hwhole e (.and k false o)
        refine ⟨whole, ?_⟩
        rw [← hwhole, hbetween, Conjunction.tokens]
        simp [junction]

theorem exists_of_readExpressionRest {tokens rest : List Token} {lhs c : Constraint}
    (hlength : tokens.length ≤ bound) (h : EndsOperand tokens)
    (hread : readExpressionRest lhs tokens = .ok (c, rest)) :
    EndsExpression rest ∧ ∀ k : Conjunction, ∃ whole : Expression,
      k.tokens ++ tokens = whole.tokens ++ rest := by
  obtain ⟨n, hn⟩ : ∃ n, tokens.length = n := ⟨_, rfl⟩
  induction n using Nat.strongRecOn generalizing tokens lhs with
  | _ n ih =>
      obtain ⟨kind, token, between, rfl, hcontinues, _, _⟩ := h
      rw [readExpressionRest_cons] at hread
      by_cases hor : token.kind = .orOp
      · have hbetween := hcontinues.tail (by simp [hor]) (by simp [hor])
        have heq := hcontinues.head_eq (by rw [hor]; rfl)
        rw [if_pos hor, readOrRest_eq] at hread
        obtain ⟨⟨next, behind⟩, hoperand, hrest⟩ := Except.bind_eq_ok_iff.mp hread
        rw [List.length_cons] at hlength
        obtain ⟨o, rfl, hends⟩ := exists_operand hshorter (by omega) hbetween hoperand
        rw [List.length_append] at hlength
        obtain ⟨hend, hwhole⟩ := exists_of_readRun hshorter (by omega) hends hrest
        refine ⟨hend, ?_⟩
        intro k
        obtain ⟨whole, hwhole⟩ := hwhole (.single k) (.single o)
        refine ⟨whole, ?_⟩
        rw [← hwhole, heq, hor, Conjunction.tokens, Expression.tokens]
        rfl
      · rw [if_neg hor] at hread
        by_cases hend : token.kind = .closeParen ∨ token.kind = .eof
        · rw [if_pos hend] at hread
          obtain ⟨_, rfl⟩ := Prod.mk.inj (Except.ok.inj hread)
          exact ⟨⟨kind, token, between, rfl, hcontinues, hend⟩, fun k => ⟨.single k, rfl⟩⟩
        · rw [if_neg hend] at hread
          obtain ⟨spelled, kind, joined, htokens, hcontinues, hjoined⟩ :
              ∃ spelled kind joined, token :: between = junction spelled ++ joined ∧
                Continues kind joined ∧
                (if token.kind = .andOp then between else token :: between) = joined := by
            by_cases hand : token.kind = .andOp
            · have hbetween := hcontinues.tail (by simp [hand]) (by simp [hand])
              have heq := hcontinues.head_eq (by rw [hand]; rfl)
              refine ⟨true, _, between, ?_, hbetween, if_pos hand⟩
              rw [heq, hand]
              rfl
            · exact ⟨false, kind, _, rfl, hcontinues, if_neg hand⟩
          rw [hjoined] at hread
          rw [htokens] at hlength hn ⊢
          obtain ⟨⟨next, behind⟩, hoperand, hrest⟩ := Except.bind_eq_ok_iff.mp hread
          rw [List.length_append] at hlength hn
          obtain ⟨o, rfl, hends⟩ := exists_operand hshorter (by omega) hcontinues hoperand
          obtain ⟨first, operand, hcons, _⟩ := o.tokens_eq_cons
          rw [hcons, List.length_append, List.length_cons] at hlength hn
          obtain ⟨hend, hwhole⟩ := ih behind.length (by omega) (by omega) hends hrest rfl
          refine ⟨hend, ?_⟩
          intro k
          obtain ⟨whole, hwhole⟩ := hwhole (.and k spelled o)
          refine ⟨whole, ?_⟩
          rw [← hwhole, Conjunction.tokens]
          simp

end Shorter

theorem acceptsPhrase (tokens : List Token) : AcceptsPhrase tokens := by
  obtain ⟨n, hn⟩ : ∃ n, tokens.length = n := ⟨_, rfl⟩
  induction n using Nat.strongRecOn generalizing tokens with
  | _ n ih =>
      intro kind token behind c rest htokens h htoken hread
      -- The phrase in a group is that of a shorter list.
      have hshorter : ∀ shorter, shorter.length < tokens.length → AcceptsPhrase shorter :=
        fun shorter hlt => ih _ (hn ▸ hlt) shorter rfl
      rw [htokens, readExpression_cons, if_neg htoken, ← htokens] at hread
      obtain ⟨⟨first, left⟩, hoperand, hrest⟩ := Except.bind_eq_ok_iff.mp hread
      obtain ⟨o, rfl, hends⟩ := exists_operand hshorter (Nat.le_refl _) h hoperand
      obtain ⟨hend, hwhole⟩ := exists_of_readExpressionRest hshorter (by simp) hends hrest
      obtain ⟨whole, hwhole⟩ := hwhole (.single o)
      exact ⟨whole, by rw [← hwhole, Conjunction.tokens], hend⟩

/-- A query that is answered and has a token is a phrase of the grammar. -/
theorem exists_phrase_of_parse {query : String} {c : Constraint} (hparse : parse query = .ok c)
    (hquery : lex query ≠ [Token.endOfQuery]) :
    ∃ e : Expression, lex query = e.tokens ++ [Token.endOfQuery] := by
  have h := continues_lex query
  rw [parse_eq] at hparse
  obtain ⟨⟨constraint, rest⟩, hread, hend⟩ := Except.bind_eq_ok_iff.mp hparse
  obtain ⟨token, behind, htokens⟩ := List.exists_cons_of_ne_nil h.ne_nil
  have hstart : token.kind ≠ .eof := by
    intro heof
    rw [htokens] at h hquery
    rcases h.cons_inv.2.2 with ⟨_, rfl⟩ | hbehind
    · exact hquery (by rw [h.head_eq (by rw [heof]; rfl), heof]; rfl)
    · rw [heof] at hbehind
      cases hbehind <;> simp_all [TokenKind.successors]
  obtain ⟨e, hphrase, kind, last, behind, rfl, hcontinues, hlast⟩ :=
    acceptsPhrase _ _ token behind constraint rest htokens h hstart hread
  split_ifs at hend with hclose
  have hclose : last.kind ≠ .closeParen := hclose
  have heof : last.kind = .eof := hlast.resolve_left hclose
  refine ⟨e, ?_⟩
  rw [hphrase]
  rcases hcontinues.cons_inv.2.2 with ⟨_, rfl⟩ | hbehind
  · rw [hcontinues.head_eq (by rw [heof]; rfl), heof]
    rfl
  · rw [heof] at hbehind
    cases hbehind <;> simp_all [TokenKind.successors]

end MediaCatalog.Query
