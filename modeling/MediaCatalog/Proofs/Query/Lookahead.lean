import MediaCatalog.Proofs.Query.Draining

/-!
Requests to a parser, in any order. Every request comes down to looking at the next token and taking tokens, so what
was taken, the token that was looked at and those behind it are always the tokens of the query, whatever failed on
the way. That a token was looked at before shows in no answer.
-/

namespace MediaCatalog.Query

namespace TokenStream

/-- A stream comes out of another one by `peek` and `next`, and `next` hands over these tokens on the way. -/
inductive Takes : TokenStream → List Token → TokenStream → Prop where
  | refl (s : TokenStream) : Takes s [] s
  | peek {s s' : TokenStream} {taken : List Token} (h : Takes s taken s') : Takes s taken s'.peek.2
  | next {s s' : TokenStream} {taken : List Token} (h : Takes s taken s') :
      Takes s (taken ++ [s'.next.1]) s'.next.2

theorem Takes.trans {s s' s'' : TokenStream} {taken taken' : List Token} (h : s.Takes taken s')
    (h' : s'.Takes taken' s'') : s.Takes (taken ++ taken') s'' := by
  induction h' with
  | refl => rwa [List.append_nil]
  | peek _ ih => exact ih.peek
  | next _ ih =>
      rw [← List.append_assoc]
      exact ih.next

theorem takes_next (s : TokenStream) : s.Takes [s.next.1] s.next.2 :=
  (Takes.refl s).next

theorem Advances.exists_takes {s s' : TokenStream} (h : s.Advances s') : ∃ taken, s.Takes taken s' := by
  induction h with
  | refl => exact ⟨[], .refl _⟩
  | look _ ih =>
      obtain ⟨taken, htaken⟩ := ih
      exact ⟨taken, htaken.peek⟩
  | take _ _ _ ih =>
      obtain ⟨taken, htaken⟩ := ih
      exact ⟨_, htaken.next⟩

/-- The tokens that were consumed, the one that was looked at and those to come are the given ones, with ends of the
query supplied behind them once no more come. -/
def Accounts (tokens consumed : List Token) (s : TokenStream) : Prop :=
  ∃ supplied, consumed ++ (s.peeked.toList ++ s.upcoming) = tokens ++ List.replicate supplied Token.endOfQuery ∧
    (supplied ≠ 0 → s.upcoming = [])

/-- Nothing but ends of the query comes any more. -/
def Spent (s : TokenStream) : Prop :=
  s.head = Token.endOfQuery ∧ s.upcoming = []

variable {tokens consumed taken : List Token} {s s' : TokenStream}

theorem accounts_ofTokens (tokens : List Token) : Accounts tokens [] (ofTokens tokens) :=
  ⟨0, (List.append_nil tokens).symm, fun h => absurd rfl h⟩

theorem Accounts.peek (h : Accounts tokens consumed s) : Accounts tokens consumed s.peek.2 := by
  obtain ⟨supplied, htokens, hexhausted⟩ := h
  rcases s with ⟨_ | token, _ | ⟨first, rest⟩⟩
  · have hconsumed : consumed = tokens ++ List.replicate supplied Token.endOfQuery := by
      rw [← htokens]
      exact (List.append_nil consumed).symm
    refine ⟨supplied + 1, ?_, fun _ => rfl⟩
    rw [List.replicate_succ', ← List.append_assoc tokens, ← hconsumed]
    rfl
  · exact ⟨supplied, htokens, fun hne => absurd (hexhausted hne) (List.cons_ne_nil _ _)⟩
  · exact ⟨supplied, htokens, hexhausted⟩
  · exact ⟨supplied, htokens, hexhausted⟩

theorem Accounts.next (h : Accounts tokens consumed s) : Accounts tokens (consumed ++ [s.next.1]) s.next.2 := by
  obtain ⟨supplied, htokens, hexhausted⟩ := h.peek
  refine ⟨supplied, ?_, ?_⟩
  · rw [← htokens, List.append_assoc]
    rcases s with ⟨_ | _, _⟩ <;> rfl
  · rcases s with ⟨_ | _, _⟩ <;> exact hexhausted

theorem Accounts.takes (h : Accounts tokens consumed s) (htaken : s.Takes taken s') :
    Accounts tokens (consumed ++ taken) s' := by
  induction htaken with
  | refl => rwa [List.append_nil]
  | peek _ ih => exact ih.peek
  | next _ ih =>
      rw [← List.append_assoc]
      exact ih.next

theorem Spent.peek (h : s.Spent) : s.peek.2.Spent := by
  rcases s with ⟨_ | token, upcoming⟩ <;> obtain ⟨hhead, rfl⟩ := h
  · exact ⟨rfl, rfl⟩
  · exact ⟨hhead, rfl⟩

theorem Spent.next (h : s.Spent) : s.next.2.Spent := by
  rcases s with ⟨_ | token, upcoming⟩ <;> obtain ⟨_, rfl⟩ := h
  · exact ⟨rfl, rfl⟩
  · exact ⟨rfl, rfl⟩

theorem Spent.takes (h : s.Spent) (htaken : s.Takes taken s') : s'.Spent := by
  induction htaken with
  | refl => exact h
  | peek _ ih => exact ih.peek
  | next _ ih => exact ih.next

theorem drain_looked (s : TokenStream) : s.looked.drain = s.drain := by
  rw [drain, head_looked, tail_looked]
  conv_rhs => rw [drain]

theorem spent_drain (s : TokenStream) : s.drain.2.Spent := by
  fun_induction drain s with
  | case1 s _ =>
      rcases s with ⟨_ | _, _⟩
      · exact ⟨rfl, rfl⟩
      · exact ⟨rfl, rfl⟩
  | case2 s _ taken rest hdrain ih => rwa [hdrain] at ih

/-- Where a token ends the query or is an error, no more come behind it, so that closing the stream loses none. -/
theorem Accounts.upcoming_next {query : String} (h : Accounts (lex query) consumed s)
    (hfinal : s.head.kind = .eof ∨ s.head.kind = .error) : s.next.2.upcoming = [] := by
  obtain ⟨init, last, hlex, _, hinit⟩ := (continues_lex query).exists_last
  obtain ⟨supplied, htokens, hexhausted⟩ := h.next
  have hpeeked : s.next.2.peeked = none := by rcases s with ⟨_ | _, _⟩ <;> rfl
  by_contra hne
  have hsupplied : supplied = 0 := not_not.mp fun hsupplied => hne (hexhausted hsupplied)
  rw [hlex, hpeeked, hsupplied, List.replicate_zero, List.append_nil, Option.toList_none, List.nil_append] at htokens
  -- With a token behind it, the head is not the last token of the query, and only that one ends anything.
  have hbefore := congrArg List.dropLast htokens
  rw [List.dropLast_append_of_ne_nil hne, List.dropLast_concat] at hbefore
  have hmem : s.head ∈ init := by
    rw [← hbefore]
    simp [TokenStream.next]
  exact not_or.mpr (hinit s.head hmem) hfinal

theorem Accounts.drain {query : String} (h : Accounts (lex query) consumed s) :
    Accounts (lex query) (consumed ++ s.drain.1) s.drain.2 := by
  fun_induction TokenStream.drain s generalizing consumed with
  | case1 s hfinal =>
      have hupcoming := h.upcoming_next hfinal
      have hclose : s.tail.close = s.next.2 := by
        rw [close, ← hupcoming]
        rfl
      rw [hclose]
      exact h.next
  | case2 s hfinal taken rest hdrain ih =>
      have hrest := ih h.next
      rw [hdrain, List.append_assoc] at hrest
      exact hrest

end TokenStream

open TokenStream

/-- What a request to a parser is answered with. -/
inductive ParserAnswer where
  | nothing
  | flag (b : Bool)
  | token (token : Token)
  | parsed (result : Except QueryError Constraint)

inductive ParserRequest where
  | next
  | peek
  | stripNot
  | query
  | expression
  | operand
  | atom
  | group
  | conjunction
  | orRest (lhs : Constraint)
  | andRest (lhs : Constraint)
  | drain

/-- A constraint or an error as an answer, and the stream behind it. -/
def Parsed.answered {bound : Nat} (p : Parsed bound) : ParserAnswer × TokenStream :=
  (.parsed p.result, p.rest)

theorem exists_takes_parseAtom (s : TokenStream) : ∃ taken, s.Takes taken (parseAtom s).rest := by
  rw [parseAtom]
  split
  · obtain ⟨taken, htaken⟩ := (advances_readArguments false s.tail).exists_takes
    exact ⟨_, s.takes_next.trans htaken⟩
  · exact ⟨_, s.takes_next⟩

theorem exists_takes_parseGroup (s : TokenStream) : ∃ taken, s.Takes taken (parseGroup s).rest := by
  obtain ⟨taken, htaken⟩ := (advances_parseGroupRest s.tail).exists_takes
  exact ⟨_, s.takes_next.trans htaken⟩

namespace ParserRequest

/-- The answer to a request, and the stream that it leaves. -/
def perform : ParserRequest → TokenStream → ParserAnswer × TokenStream
  | .next, s => (.token s.next.1, s.next.2)
  | .peek, s => (.token s.peek.1, s.peek.2)
  | .stripNot, s => (.flag (Query.stripNot s).1, (Query.stripNot s).2)
  | .query, s => (parseQuery s).answered
  | .expression, s => (parseExpression s).answered
  | .operand, s => (parseOperand s).answered
  | .atom, s => (parseAtom s).answered
  | .group, s => (parseGroup s).answered
  | .conjunction, s => (parseConjunction s).answered
  | .orRest lhs, s => (parseOrRest lhs s).answered
  | .andRest lhs, s => (parseAndRest lhs s).answered
  | .drain, s => (.nothing, s.drain.2)

/-- Whether a request consumes some tokens. What the parser itself takes is known from the stream that it leaves. -/
def Consumes : ParserRequest → TokenStream → List Token → Prop
  | .next, s, taken => taken = [s.next.1]
  | .peek, _, taken => taken = []
  | .drain, s, taken => taken = s.drain.1
  | request, s, taken => s.Takes taken (request.perform s).2

theorem exists_consumes (request : ParserRequest) (s : TokenStream) : ∃ taken, request.Consumes s taken := by
  cases request with
  | next | peek | drain => exact ⟨_, rfl⟩
  -- An atom and a group take their first token whatever it is; all others take only tokens that end nothing.
  | atom => exact exists_takes_parseAtom s
  | group => exact exists_takes_parseGroup s
  | stripNot => exact (advances_stripNot s).exists_takes
  | query => exact (advances_parseQuery s).exists_takes
  | expression => exact (advances_parseExpression s).exists_takes
  | operand => exact (advances_parseOperand s).exists_takes
  | conjunction => exact (advances_parseConjunction s).exists_takes
  | orRest lhs => exact (advances_parseOrRest lhs s).exists_takes
  | andRest lhs => exact (advances_parseAndRest lhs s).exists_takes

variable {request : ParserRequest} {s : TokenStream} {taken : List Token}

theorem Consumes.accounts {query : String} {consumed : List Token} (h : request.Consumes s taken)
    (hs : Accounts (lex query) consumed s) : Accounts (lex query) (consumed ++ taken) (request.perform s).2 := by
  cases request with
  | next =>
      obtain rfl : taken = [s.next.1] := h
      exact hs.next
  | peek =>
      obtain rfl : taken = [] := h
      rw [List.append_nil]
      exact hs.peek
  | drain =>
      obtain rfl : taken = s.drain.1 := h
      exact hs.drain
  | stripNot | query | expression | operand | atom | group | conjunction | orRest | andRest => exact hs.takes h

theorem Consumes.spent (h : request.Consumes s taken) (hs : s.Spent) : (request.perform s).2.Spent := by
  cases request with
  | next => exact hs.next
  | peek => exact hs.peek
  | drain => exact s.spent_drain
  | stripNot | query | expression | operand | atom | group | conjunction | orRest | andRest => exact hs.takes h

end ParserRequest

theorem Parsed.exists_of_answered_eq {bound bound' : Nat} {p : Parsed bound} {p' : Parsed bound'}
    (h : p.answered = p'.answered) :
    ∃ result rest hlt hlt', p = ⟨result, rest, hlt⟩ ∧ p' = ⟨result, rest, hlt'⟩ := by
  obtain ⟨result, rest, hlt⟩ := p
  obtain ⟨_, _, hlt'⟩ := p'
  cases h
  exact ⟨result, rest, hlt, hlt', rfl, rfl⟩

theorem answered_parseAtom_looked (s : TokenStream) : (parseAtom s.looked).answered = (parseAtom s).answered := by
  rw [parseAtom, parseAtom]
  simp only [head_looked, tail_looked]
  split <;> rfl

theorem answered_parseGroup_looked (s : TokenStream) : (parseGroup s.looked).answered = (parseGroup s).answered := by
  change (parseGroupRest s.looked.tail).answered = (parseGroupRest s.tail).answered
  rw [tail_looked]

theorem answered_parseOperand_looked (s : TokenStream) :
    (parseOperand s.looked).answered = (parseOperand s).answered := by
  have hstrip : ∀ s, (parseOperand s).answered =
      ((parsePositive (stripNot s).2).negateIf (stripNot s).1).answered := by
    intro s
    rw [parseOperand]
    rfl
  rw [hstrip, hstrip s, stripNot_looked]

theorem answered_parseAndRest_looked (lhs : Constraint) (s : TokenStream) :
    (parseAndRest lhs s.looked).answered = (parseAndRest lhs s).answered := by
  obtain ⟨result, rest, _, _, hlooked, hread⟩ := Parsed.exists_of_answered_eq (answered_parseOperand_looked s)
  rw [parseAndRest, hlooked]
  conv_rhs => rw [parseAndRest, hread]
  cases result
  · rfl
  · dsimp only
    split_ifs <;> rfl

theorem answered_parseConjunction_looked (s : TokenStream) :
    (parseConjunction s.looked).answered = (parseConjunction s).answered := by
  obtain ⟨result, rest, _, _, hlooked, hread⟩ := Parsed.exists_of_answered_eq (answered_parseOperand_looked s)
  rw [parseConjunction, hlooked]
  conv_rhs => rw [parseConjunction, hread]
  cases result
  · rfl
  · dsimp only
    split_ifs <;> rfl

theorem answered_parseOrRest_looked (lhs : Constraint) (s : TokenStream) :
    (parseOrRest lhs s.looked).answered = (parseOrRest lhs s).answered := by
  obtain ⟨result, rest, _, _, hlooked, hread⟩ := Parsed.exists_of_answered_eq (answered_parseConjunction_looked s)
  rw [parseOrRest, hlooked]
  conv_rhs => rw [parseOrRest, hread]
  cases result
  · rfl
  · dsimp only
    split_ifs <;> rfl

theorem answered_parseExpression_looked (s : TokenStream) :
    (parseExpression s.looked).answered = (parseExpression s).answered := by
  obtain ⟨result, rest, _, _, hlooked, hread⟩ :=
    Parsed.exists_of_answered_eq (answered_parseOperand_looked s.looked)
  rw [parseExpression, hlooked]
  conv_rhs => rw [parseExpression, hread]
  simp only [head_looked]
  split_ifs
  · exact congrArg _ (looked_looked s)
  · cases result <;> rfl

theorem answered_parseQuery_looked (s : TokenStream) : (parseQuery s.looked).answered = (parseQuery s).answered := by
  obtain ⟨result, rest, _, _, hlooked, hread⟩ := Parsed.exists_of_answered_eq (answered_parseExpression_looked s)
  rw [parseQuery, hlooked, parseQuery, hread]
  cases result
  · rfl
  · dsimp only
    split_ifs <;> rfl

theorem ParserRequest.perform_peek (request : ParserRequest) (s : TokenStream) :
    request.perform s.peek.2 = request.perform s := by
  change request.perform s.looked = request.perform s
  cases request with
  | next => rw [perform, perform, TokenStream.next, head_looked, tail_looked, TokenStream.next]
  | peek => rw [perform, perform, TokenStream.peek, head_looked, looked_looked, TokenStream.peek]
  | drain => rw [perform, perform, drain_looked]
  | stripNot => rw [perform, perform, stripNot_looked]
  | query => exact answered_parseQuery_looked s
  | expression => exact answered_parseExpression_looked s
  | operand => exact answered_parseOperand_looked s
  | atom => exact answered_parseAtom_looked s
  | group => exact answered_parseGroup_looked s
  | conjunction => exact answered_parseConjunction_looked s
  | orRest lhs => exact answered_parseOrRest_looked lhs s
  | andRest lhs => exact answered_parseAndRest_looked lhs s

/-- Whether some requests consume some tokens together. -/
inductive Consumed : TokenStream → List ParserRequest → List Token → Prop where
  | nil {s : TokenStream} : Consumed s [] []
  | cons {s : TokenStream} {request : ParserRequest} {requests : List ParserRequest} {taken consumed : List Token}
      (htaken : request.Consumes s taken) (hrest : Consumed (request.perform s).2 requests consumed) :
      Consumed s (request :: requests) (taken ++ consumed)

namespace TokenStream

/-- The stream after some requests, whether they succeed or fail. -/
def performAll (s : TokenStream) (requests : List ParserRequest) : TokenStream :=
  requests.foldl (fun s request => (request.perform s).2) s

theorem exists_consumed (s : TokenStream) (requests : List ParserRequest) :
    ∃ consumed, Consumed s requests consumed := by
  induction requests generalizing s with
  | nil => exact ⟨[], .nil⟩
  | cons request requests ih =>
      obtain ⟨taken, htaken⟩ := request.exists_consumes s
      obtain ⟨consumed, hconsumed⟩ := ih (request.perform s).2
      exact ⟨taken ++ consumed, .cons htaken hconsumed⟩

theorem Spent.performAll {s : TokenStream} (h : s.Spent) (requests : List ParserRequest) :
    (s.performAll requests).Spent := by
  induction requests generalizing s with
  | nil => exact h
  | cons request requests ih =>
      obtain ⟨_, htaken⟩ := request.exists_consumes s
      exact ih (htaken.spent h)

end TokenStream

theorem Consumed.accounts {query : String} {s : TokenStream} {requests : List ParserRequest}
    {earlier consumed : List Token} (h : Consumed s requests consumed) (hs : Accounts (lex query) earlier s) :
    Accounts (lex query) (earlier ++ consumed) (s.performAll requests) := by
  induction h generalizing earlier with
  | nil => rwa [List.append_nil]
  | cons htaken _ ih =>
      rw [← List.append_assoc]
      exact ih (htaken.accounts hs)

/-- How a parser of a query gets over its tokens by some requests. -/
structure KeepsTokens (query : String) (requests : List ParserRequest) (s : TokenStream) : Prop where
  /-- Whatever is requested, tokens are looked at and taken, and nothing else is done with them. -/
  consumed : ∃ consumed, Consumed (ofTokens (lex query)) requests consumed
  /-- No token is lost or comes again. -/
  accounts : ∀ consumed, Consumed (ofTokens (lex query)) requests consumed → Accounts (lex query) consumed s
  /-- A look consumes nothing: the same token comes next, and the same behind it. -/
  next_peek : s.peek.2.next = (s.peek.1, s.next.2)
  /-- No answer shows whether a token was looked at before. -/
  perform_peek : ∀ request : ParserRequest, request.perform s.peek.2 = request.perform s
  /-- Behind a drain nothing but ends of the query comes, whatever is requested. -/
  drained : ∀ more, (s.performAll (.drain :: more)).next.1 = Token.endOfQuery ∧
    (s.performAll (.drain :: more)).peek.1 = Token.endOfQuery

theorem keepsTokens_performAll (query : String) (requests : List ParserRequest) :
    KeepsTokens query requests ((ofTokens (lex query)).performAll requests) := by
  constructor
  · exact exists_consumed _ requests
  · exact fun _ h => h.accounts (accounts_ofTokens (lex query))
  · rw [TokenStream.peek, TokenStream.next, head_looked, tail_looked]
    rfl
  · exact fun request => request.perform_peek _
  · intro more
    have hspent := (spent_drain ((ofTokens (lex query)).performAll requests)).performAll more
    exact ⟨hspent.1, hspent.1⟩

end MediaCatalog.Query
