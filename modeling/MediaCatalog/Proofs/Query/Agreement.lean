import MediaCatalog.Proofs.Query.Draining
import MediaCatalog.Proofs.Query.ParserCalls

/-!
Lexer and parser agree on the shape of the tokens. Which kinds can stand next to each other is settled by the lexer;
and wherever the parser reads an operand, a token is ahead that the lexer yields between operands, as the parser
has taken the operators and all arguments before it. So no operand is read at an operator, a colon or an argument.
-/

namespace MediaCatalog.Query

open TokenStream

/-- What the tokens of a query have next to them. -/
structure WellShaped (tokens : List Token) : Prop where
  behind_predicate {before after : List Token} {token : Token} (h : tokens = before ++ token :: after)
    (hkind : token.kind = .predicate) : ∃ next ∈ after.head?, next.kind = .colon
  before_arg {before after : List Token} {token : Token} (h : tokens = before ++ token :: after)
    (hkind : token.kind = .arg) : ∃ last ∈ before.getLast?, last.kind = .colon
  behind_colon {before after : List Token} {token : Token} (h : tokens = before ++ token :: after)
    (hkind : token.kind = .colon) :
    ∃ next ∈ after.head?, next.kind = .arg ∨ next.kind = .eof ∨ next.kind = .error
  before_operator {before after : List Token} {token : Token} (h : tokens = before ++ token :: after)
    (hkind : token.kind = .andOp ∨ token.kind = .orOp) :
    ∃ last ∈ before.getLast?, last.kind = .arg ∨ last.kind = .closeParen

theorem Continues.kind_mem {kind : TokenKind} {before after : List Token} {token : Token}
    (h : Continues kind (before ++ token :: after)) :
    token.kind ∈ ((before.getLast?.map Token.kind).getD kind).successors := by
  induction before generalizing kind with
  | nil => exact h.cons_inv.1
  | cons first before ih =>
      rcases h.cons_inv.2.2 with ⟨_, hnil⟩ | hbehind
      · simp at hnil
      · have hmem := ih hbehind
        rw [List.getLast?_cons]
        cases hlast : before.getLast? <;> simpa [hlast] using hmem

theorem Continues.exists_next {kind : TokenKind} {before after : List Token} {token : Token}
    (h : Continues kind (before ++ token :: after)) (heof : token.kind ≠ .eof)
    (herror : token.kind ≠ .error) : ∃ next ∈ after.head?, next.kind ∈ token.kind.successors := by
  obtain ⟨kind, hrest⟩ := h.of_append (List.cons_ne_nil token after)
  have hbehind := hrest.tail heof herror
  obtain ⟨next, rest, rfl⟩ := List.exists_cons_of_ne_nil hbehind.ne_nil
  exact ⟨next, rfl, hbehind.cons_inv.1⟩

theorem exists_last_of_kind_mem {before : List Token} {kind : TokenKind}
    (hfirst : kind ∉ TokenKind.openParen.successors)
    (h : kind ∈ ((before.getLast?.map Token.kind).getD .openParen).successors) :
    ∃ last ∈ before.getLast?, kind ∈ last.kind.successors := by
  cases hlast : before.getLast? with
  | none =>
      rw [hlast] at h
      exact absurd h hfirst
  | some last =>
      rw [hlast] at h
      exact ⟨last, rfl, h⟩

theorem wellShaped_lex (query : String) : WellShaped (lex query) where
  behind_predicate h hkind := by
    obtain ⟨next, hnext, hmem⟩ := (h ▸ continues_lex query).exists_next (by simp [hkind]) (by simp [hkind])
    rw [hkind] at hmem
    exact ⟨next, hnext, by simpa [TokenKind.successors] using hmem⟩
  before_arg h hkind := by
    have hmem := (h ▸ continues_lex query).kind_mem
    rw [hkind] at hmem
    obtain ⟨last, hlast, hmem⟩ := exists_last_of_kind_mem (by decide) hmem
    exact ⟨last, hlast, by cases hkind : last.kind <;> simp_all [TokenKind.successors]⟩
  behind_colon h hkind := by
    obtain ⟨next, hnext, hmem⟩ := (h ▸ continues_lex query).exists_next (by simp [hkind]) (by simp [hkind])
    rw [hkind] at hmem
    exact ⟨next, hnext, by simpa [TokenKind.successors] using hmem⟩
  before_operator h hkind := by
    have hmem := (h ▸ continues_lex query).kind_mem
    obtain ⟨last, hlast, hmem⟩ := exists_last_of_kind_mem (by rcases hkind with h | h <;> rw [h] <;> decide) hmem
    refine ⟨last, hlast, ?_⟩
    rcases hkind with hkind | hkind <;> rw [hkind] at hmem <;>
      cases hkind : last.kind <;> simp_all [TokenKind.successors]

namespace TokenStream

/-- Next is what the lexer yields before an operand. -/
def AtOperand (s : TokenStream) : Prop :=
  ∃ kind, Continues kind s.pending ∧ s.head.kind ∈ TokenKind.openParen.successors

/-- Next is what the lexer yields behind an operand that was read with all its arguments. -/
def BehindOperand (s : TokenStream) : Prop :=
  ∃ kind, Continues kind s.pending ∧ s.head.kind ≠ .colon ∧ s.head.kind ≠ .arg

@[simp] theorem atOperand_looked {s : TokenStream} : s.looked.AtOperand ↔ s.AtOperand := by
  rw [AtOperand, pending_looked, head_looked, AtOperand]

@[simp] theorem behindOperand_looked {s : TokenStream} : s.looked.BehindOperand ↔ s.BehindOperand := by
  rw [BehindOperand, pending_looked, head_looked, BehindOperand]

theorem behindOperand_of_endsOperand {s : TokenStream} (h : EndsOperand s.pending) : s.BehindOperand := by
  obtain ⟨kind, token, rest, htokens, hcontinues, hcolon, harg⟩ := h
  rw [pending_eq_cons] at htokens
  obtain ⟨rfl, _⟩ := List.cons.inj htokens
  exact ⟨kind, hcontinues, hcolon, harg⟩

theorem atOperand_tail {s : TokenStream} {kind : TokenKind} (h : Continues kind s.pending)
    (hkind : s.head.kind = .andOp ∨ s.head.kind = .orOp ∨ s.head.kind = .notOp ∨ s.head.kind = .openParen) :
    s.tail.AtOperand := by
  have hsuccessors : s.head.kind.successors = TokenKind.openParen.successors := by
    rcases hkind with h | h | h | h <;> rw [h] <;> rfl
  have hfinal : s.head.kind ≠ .eof ∧ s.head.kind ≠ .error := by
    rcases hkind with h | h | h | h <;> rw [h] <;> decide
  have hbehind := (h.pending_tail hfinal.1 hfinal.2).2
  refine ⟨s.head.kind, hbehind, ?_⟩
  rw [pending_eq_cons] at hbehind
  rw [← hsuccessors]
  exact hbehind.cons_inv.1

theorem BehindOperand.atOperand {s : TokenStream} (h : s.BehindOperand) (hand : s.head.kind ≠ .andOp)
    (hor : s.head.kind ≠ .orOp) : s.AtOperand := by
  obtain ⟨kind, hcontinues, hcolon, harg⟩ := h
  refine ⟨kind, hcontinues, ?_⟩
  cases hkind : s.head.kind <;> simp_all [TokenKind.successors]

theorem BehindOperand.atOperand_skipAnd {s : TokenStream} (h : s.BehindOperand)
    (hor : s.head.kind ≠ .orOp) : (skipAnd s).AtOperand := by
  rw [skipAnd]
  split
  · rename_i hand
    obtain ⟨kind, hcontinues, _⟩ := h
    exact atOperand_tail hcontinues (.inl hand)
  · rename_i hand
    exact atOperand_looked.mpr (h.atOperand hand hor)

theorem AtOperand.stripNot {s : TokenStream} (h : s.AtOperand) :
    (stripNot s).2.AtOperand ∧ (stripNot s).2.head.kind ≠ .notOp := by
  fun_induction Query.stripNot s with
  | case1 s hnot _ _ hrest ih =>
      rw [hrest] at ih
      obtain ⟨kind, hcontinues, _⟩ := h
      exact ih (atOperand_tail hcontinues (.inr (.inr (.inl hnot))))
  | case2 s hnot => exact ⟨atOperand_looked.mpr h, by rwa [head_looked]⟩

theorem AtOperand.operand {s : TokenStream} {read : Constraint × TokenStream} (h : s.AtOperand)
    (hread : Reading.operand s = .ok read) : read.2.BehindOperand := by
  obtain ⟨kind, hcontinues, _⟩ := h
  have hview : readOperand s.pending = .ok (read.1, read.2.pending) := by
    rw [readOperand, ← eq_ofTokens_pending Reading.operand_looked, hread]
    rfl
  obtain ⟨_, _, hends⟩ := exists_operand (fun tokens _ => acceptsPhrase tokens) (Nat.le_refl _) hcontinues hview
  exact behindOperand_of_endsOperand hends

theorem BehindOperand.tail {s : TokenStream} (h : s.BehindOperand)
    (hkind : s.head.kind = .andOp ∨ s.head.kind = .orOp) : s.tail.AtOperand := by
  obtain ⟨kind, hcontinues, _⟩ := h
  exact atOperand_tail hcontinues (hkind.imp_right .inl)

end TokenStream

namespace Reading

theorem andRest_leaves {lhs : Constraint} {s : TokenStream} {read : Constraint × TokenStream}
    (h : andRest lhs s = .ok read) :
    read.2.head.kind ≠ .andOp ∧ (s.AtOperand → read.2.BehindOperand) := by
  obtain ⟨n, hn⟩ : ∃ n, s.size = n := ⟨_, rfl⟩
  induction n using Nat.strongRecOn generalizing lhs s with
  | _ n ih =>
      rw [andRest_eq] at h
      obtain ⟨next, hnext, hrest⟩ := Except.bind_eq_ok_iff.mp h
      have hlt : next.2.size < s.size := Parsed.size_lt_of_reading hnext
      split_ifs at hrest with hand
      · have hle := size_tail_le next.2
        obtain ⟨hhead, hbehind⟩ := ih next.2.tail.size (by omega) hrest rfl
        exact ⟨hhead, fun hs => hbehind ((hs.operand hnext).tail (.inl hand))⟩
      · obtain rfl := Except.ok.inj hrest
        exact ⟨by rwa [head_looked], fun hs => behindOperand_looked.mpr (hs.operand hnext)⟩

theorem conjunction_leaves {s : TokenStream} {read : Constraint × TokenStream}
    (h : conjunction s = .ok read) :
    read.2.head.kind ≠ .andOp ∧ (s.AtOperand → read.2.BehindOperand) := by
  rw [conjunction_eq] at h
  obtain ⟨first, hfirst, hrest⟩ := Except.bind_eq_ok_iff.mp h
  split_ifs at hrest with hand hend
  · obtain ⟨hhead, hbehind⟩ := andRest_leaves hrest
    exact ⟨hhead, fun hs => hbehind ((hs.operand hfirst).tail (.inl hand))⟩
  · obtain rfl := Except.ok.inj hrest
    exact ⟨by rwa [head_looked], fun hs => behindOperand_looked.mpr (hs.operand hfirst)⟩
  · obtain ⟨hhead, hbehind⟩ := andRest_leaves hrest
    refine ⟨hhead, fun hs => hbehind (atOperand_looked.mpr ?_)⟩
    exact (hs.operand hfirst).atOperand hand fun hor => hend (.inl hor)

/-- Alternatives end where the group or the query ends. -/
theorem orRest_leaves {lhs : Constraint} {s : TokenStream} {read : Constraint × TokenStream}
    (h : orRest lhs s = .ok read) : read.2.head.kind = .closeParen ∨ read.2.head.kind = .eof := by
  obtain ⟨n, hn⟩ : ∃ n, s.size = n := ⟨_, rfl⟩
  induction n using Nat.strongRecOn generalizing lhs s with
  | _ n ih =>
      rw [orRest_eq] at h
      obtain ⟨next, hnext, hrest⟩ := Except.bind_eq_ok_iff.mp h
      have hlt : next.2.size < s.size := Parsed.size_lt_of_reading hnext
      split_ifs at hrest with hor hend
      · have hle := size_tail_le next.2
        exact ih next.2.tail.size (by omega) hrest rfl
      · obtain rfl := Except.ok.inj hrest
        rw [head_looked]
        exact hend.resolve_left (conjunction_leaves hnext).1
      · exact ih next.2.looked.size (by rw [size_looked]; omega) hrest rfl

end Reading

namespace ParserCall

/-- What stands ahead when a function of the parser is called. -/
def Expected : ParserCall → Prop
  | expression s | operand s | groupRest s | orRest _ s | conjunction s | andRest _ s => s.AtOperand
  | expressionRest _ s => s.BehindOperand
  | positive s => s.AtOperand ∧ s.head.kind ≠ .notOp
  | atom s => s.AtOperand ∧ s.head.kind = .predicate

theorem Makes.expected {call next : ParserCall} (h : call.Makes next) (hcall : call.Expected) :
    next.Expected := by
  cases h with simp only [Expected] at hcall ⊢
  | first => exact atOperand_looked.mpr hcall
  | afterFirst _ hread => exact (atOperand_looked.mpr hcall).operand hread
  | alternatives hor => exact hcall.tail (.inr hor)
  | joined hor => exact hcall.atOperand_skipAnd hor
  | afterJoined hor _ hread => exact (Reading.andRest_leaves hread).2 (hcall.atOperand_skipAnd hor)
  | positive => exact hcall.stripNot
  | group hopen =>
      obtain ⟨kind, hcontinues, _⟩ := hcall.1
      exact atOperand_tail hcontinues (.inr (.inr (.inr hopen)))
  | @atom s herror heof hclose hopen =>
      obtain ⟨⟨kind, hcontinues, hmem⟩, hnot⟩ := hcall
      refine ⟨⟨kind, hcontinues, hmem⟩, ?_⟩
      cases hkind : s.head.kind <;> simp_all [TokenKind.successors]
  | inner | alternative | firstJoined | nextJoined => exact hcall
  | afterOr hread hor => exact ((Reading.conjunction_leaves hread).2 hcall).tail (.inr hor)
  | afterAlternative hread hor =>
      obtain ⟨hand, hbehind⟩ := Reading.conjunction_leaves hread
      exact atOperand_looked.mpr ((hbehind hcall).atOperand hand hor)
  | afterAnd hread hand | afterNextAnd hread hand => exact (hcall.operand hread).tail (.inl hand)
  | juxtaposed hread hand hend =>
      exact atOperand_looked.mpr ((hcall.operand hread).atOperand hand fun hor => hend (.inl hor))

theorem Reaches.expected {call origin : ParserCall} (h : call.Reaches origin) (hcall : call.Expected) :
    origin.Expected := by
  induction h with
  | refl => exact hcall
  | tail _ hmakes ih => exact hmakes.expected ih

theorem expected_ofQuery (query : String) : (ofQuery query).Expected := by
  have hcontinues := continues_lex query
  rw [← pending_ofTokens_lex query] at hcontinues
  refine ⟨.openParen, hcontinues, ?_⟩
  rw [pending_eq_cons] at hcontinues
  exact hcontinues.cons_inv.1

end ParserCall

theorem Atom.kind_of_mem_argTokens {inits : List String} {last : Option String} {token : Token}
    (h : token ∈ argTokens inits last) : token.kind = .arg ∨ token.kind = .colon := by
  rcases List.mem_append.mp h with hinits | hlast
  · obtain ⟨value, _, hvalue⟩ := List.mem_flatMap.mp hinits
    rcases List.mem_pair.mp hvalue with rfl | rfl
    · exact .inl rfl
    · exact .inr rfl
  · obtain ⟨value, _, rfl⟩ := List.mem_map.mp hlast
    exact .inl rfl

theorem Atom.countP_argTokens (inits : List String) (last : Option String) :
    (argTokens inits last).countP (·.kind = .colon) = inits.length := by
  induction inits with
  | nil => cases last <;> rfl
  | cons value inits ih =>
      change (argToken value :: colonToken :: argTokens inits last).countP _ = _
      simp [ih, argToken, colonToken]

theorem Atom.length_args (a : Atom) : a.args.length = a.tokens.countP (·.kind = .colon) := by
  simp [args, tokens, colonToken, countP_argTokens]

theorem exists_atom_of_expected {s : TokenStream} (h : (ParserCall.atom s).Expected) :
    ∃ a : Atom, s.pending = a.tokens ++ (readArguments false s.tail).2.pending ∧
      (readArguments false s.tail).2.BehindOperand ∧ (readArguments false s.tail).1 = a.args := by
  obtain ⟨⟨kind, hcontinues, _⟩, hpredicate⟩ := h
  rw [pending_eq_cons] at hcontinues
  obtain ⟨a, rest, htokens, hends⟩ := exists_atom_tokens hcontinues hpredicate
  obtain ⟨_, token, behind, rfl, _, hcolon, harg⟩ := id hends
  have htail : s.pending.tail = colonToken :: (Atom.argTokens a.inits a.last ++ token :: behind) :=
    (List.cons.inj htokens).2
  have hread : readArguments false s.tail = (a.args, (ofTokens (token :: behind)).looked) := by
    rw [← ofTokens_tail_pending, htail, readArguments_colon, readArguments_argTokens _ _ _ hcolon harg]
    rfl
  have hbehind : (ofTokens (token :: behind)).BehindOperand := behindOperand_of_endsOperand hends
  rw [hread, pending_eq_cons, htokens]
  exact ⟨a, rfl, behindOperand_looked.mpr hbehind, rfl⟩

theorem ParserCall.Raises.ne_expectedPredicate {call : ParserCall} {error : QueryError}
    (h : call.Raises error) (hcall : call.Expected) (found : Token) : error ≠ .expectedPredicate found := by
  cases h with
  | lexical | expectedOperand | closeWithoutOpen | openWithoutClose => simp
  | expectedPredicate hpredicate => exact absurd hcall.2 hpredicate
  | predicate _ hbuild =>
      rcases buildPredicate_error hbuild with rfl | rfl | rfl | rfl | ⟨_, _, rfl⟩ <;> simp

/-- The parser never meets a token that it does not expect: it reads an atom only at a predicate, with an argument
for each colon, and the alternatives behind an `or` only up to the end of the group or the query. -/
theorem lexer_parser_agree (query : String) :
    WellShaped (lex query) ∧
    (∀ found, parse query ≠ .error (.expectedPredicate found)) ∧
    (∀ s, (ParserCall.ofQuery query).Reaches (.atom s) →
      s.head.kind = .predicate ∧
      Reading.atom s = (buildPredicate s.head.value (readArguments false s.tail).1).map
        (fun c => (c, (readArguments false s.tail).2)) ∧
      (readArguments false s.tail).1 ≠ [] ∧
      ∃ a : Atom, s.pending = a.tokens ++ (readArguments false s.tail).2.pending ∧
        (readArguments false s.tail).2.BehindOperand ∧
        (readArguments false s.tail).1.length = a.tokens.countP (·.kind = .colon)) ∧
    ∀ lhs s read, Reading.orRest lhs s = .ok read →
      read.2.head.kind = .closeParen ∨ read.2.head.kind = .eof := by
  refine ⟨wellShaped_lex query, ?_, ?_, fun _ _ _ => Reading.orRest_leaves⟩
  · intro found hparse
    rcases ParserCall.exists_raises_of_parse hparse with ⟨_, _, _, herror⟩ | ⟨origin, hreaches, hraises⟩
    · cases herror
    · exact hraises.ne_expectedPredicate (hreaches.expected (ParserCall.expected_ofQuery query)) found rfl
  · intro s hreaches
    have hatom := hreaches.expected (ParserCall.expected_ofQuery query)
    obtain ⟨a, htokens, hbehind, hargs⟩ := exists_atom_of_expected hatom
    refine ⟨hatom.2, ?_, ?_, a, htokens, hbehind, ?_⟩
    · rw [Reading.atom_eq, if_pos hatom.2]
    · rw [hargs, Atom.args]
      simp
    · rw [hargs, a.length_args]

end MediaCatalog.Query
