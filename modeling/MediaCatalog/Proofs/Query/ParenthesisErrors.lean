import MediaCatalog.Proofs.Query.OpenGroups

/-!
What the parser says about parentheses, and what is true of them. A scan counts the groups that are open, so the
parentheses of the tokens that it has passed are balanced but for these. An error of a group is raised where the scan
stops, and its message can be checked against the parentheses up to there.
-/

namespace MediaCatalog.Query

open TokenStream

def occurrences (kind : TokenKind) (tokens : List Token) : Nat :=
  tokens.countP fun token => token.kind = kind

theorem occurrences_append (kind : TokenKind) (tokens tokens' : List Token) :
    occurrences kind (tokens ++ tokens') = occurrences kind tokens + occurrences kind tokens' :=
  List.countP_append

theorem occurrences_atom {kind : TokenKind} (hkind : kind ∉ [TokenKind.predicate, .colon, .arg]) (a : Atom) :
    occurrences kind a.tokens = 0 := by
  rw [occurrences, List.countP_eq_zero]
  intro token htoken
  rw [decide_eq_true_eq]
  rintro rfl
  rw [Atom.tokens, List.mem_cons, List.mem_cons] at htoken
  rcases htoken with rfl | rfl | htoken
  · exact hkind (by simp)
  · exact hkind (by simp [colonToken])
  · rcases Atom.kind_of_mem_argTokens htoken with h | h <;> exact hkind (by simp [h])

/-- Whether up to some place more groups are closed than were opened. -/
def HasStrayClose (tokens : List Token) : Prop :=
  ∃ front, front <+: tokens ∧ occurrences .openParen front < occurrences .closeParen front

namespace GroupScan

/-- What a scan passes on its way. The parentheses of these tokens account for the groups that are open, and unless the
scan is behind an operand, an operand has to come behind the last of them. -/
structure Passes (s s' : GroupScan) (passed : List Token) : Prop where
  pending : s.ahead.pending = passed ++ s'.ahead.pending
  depth : occurrences .openParen passed + s.depth = occurrences .closeParen passed + s'.depth
  fronts : ∀ front, front <+: passed → occurrences .closeParen front ≤ occurrences .openParen front + s.depth
  last : s'.place ≠ .operand → (passed = [] ∧ s'.place = s.place) ∨
    ∃ last ∈ passed.getLast?, last.kind ∈ [TokenKind.openParen, .notOp, .andOp, .orOp]

theorem Passes.refl (s : GroupScan) : s.Passes s [] := by
  refine ⟨rfl, rfl, ?_, fun _ => .inl ⟨rfl, rfl⟩⟩
  intro front hfront
  rw [List.prefix_nil.mp hfront]
  exact Nat.zero_le _

theorem Passes.trans {s s' s'' : GroupScan} {passed passed' : List Token} (h : s.Passes s' passed)
    (h' : s'.Passes s'' passed') : s.Passes s'' (passed ++ passed') := by
  have hdepth := h.depth
  have hdepth' := h'.depth
  refine ⟨?_, ?_, ?_, ?_⟩
  · rw [h.pending, h'.pending, List.append_assoc]
  · rw [occurrences_append, occurrences_append]
    omega
  · rintro front ⟨rest, hfront⟩
    rcases List.append_eq_append_iff.mp hfront with ⟨left, hpassed, _⟩ | ⟨more, rfl, hpassed⟩
    · exact h.fronts front ⟨left, hpassed.symm⟩
    · have hmore := h'.fronts more ⟨rest, hpassed.symm⟩
      rw [occurrences_append, occurrences_append]
      omega
  · intro hplace
    rcases h'.last hplace with ⟨rfl, hsame⟩ | ⟨last, hlast, hkind⟩
    · rw [List.append_nil, hsame]
      exact h.last (hsame ▸ hplace)
    · refine .inr ⟨last, ?_, hkind⟩
      rw [List.getLast?_append, Option.mem_def.mp hlast]
      rfl

theorem passes_head {place place' : ScanPlace} {depth depth' : Nat} {s : TokenStream} {kind : TokenKind}
    (hcontinues : Continues kind s.pending) (heof : s.head.kind ≠ .eof) (herror : s.head.kind ≠ .error)
    (hdepth : occurrences .openParen [s.head] + depth = occurrences .closeParen [s.head] + depth')
    (hlast : place' ≠ .operand → s.head.kind ∈ [TokenKind.openParen, .notOp, .andOp, .orOp]) :
    Passes ⟨place, depth, s⟩ ⟨place', depth', s.tail⟩ [s.head] := by
  refine ⟨(hcontinues.pending_tail heof herror).1, hdepth, ?_, fun hplace => .inr ⟨s.head, rfl, hlast hplace⟩⟩
  intro front hfront
  rcases List.prefix_cons_iff.mp hfront with rfl | ⟨rest, rfl, hrest⟩
  · exact Nat.zero_le _
  · rw [List.prefix_nil.mp hrest]
    exact hdepth ▸ Nat.le_add_right _ _

theorem passes_predicate {place : ScanPlace} {depth : Nat} {s : TokenStream} {kind : TokenKind}
    (hcontinues : Continues kind s.pending) (hkind : s.head.kind = .predicate) :
    ∃ passed kind', Passes ⟨place, depth, s⟩ ⟨.operand, depth, (readArguments false s.tail).2⟩ passed ∧
      Continues kind' (readArguments false s.tail).2.pending := by
  have hexpected : (ParserCall.atom s).Expected := ⟨⟨kind, hcontinues, by rw [hkind]; decide⟩, hkind⟩
  obtain ⟨a, htokens, ⟨kind', hbehind, _⟩, _⟩ := exists_atom_of_expected hexpected
  refine ⟨a.tokens, kind', ⟨htokens, ?_, ?_, fun hplace => absurd rfl hplace⟩, hbehind⟩
  · rw [occurrences_atom (by decide), occurrences_atom (by decide)]
  · rintro front hfront
    have hle : occurrences .closeParen front ≤ occurrences .closeParen a.tokens := hfront.sublist.countP_le
    rw [occurrences_atom (by decide)] at hle
    omega

theorem Moves.exists_passed {s next : GroupScan} (h : s.Moves next) {kind : TokenKind}
    (hcontinues : Continues kind s.ahead.pending) :
    ∃ passed kind', s.Passes next passed ∧ Continues kind' next.ahead.pending := by
  have hbehind : s.ahead.head.kind ≠ .eof → s.ahead.head.kind ≠ .error →
      Continues s.ahead.head.kind s.ahead.tail.pending :=
    fun heof herror => (hcontinues.pending_tail heof herror).2
  cases h with
  | negation hkind =>
      refine ⟨_, _, passes_head hcontinues ?_ ?_ ?_ ?_, hbehind ?_ ?_⟩ <;> simp [occurrences, hkind]
  | openParen hkind =>
      refine ⟨_, _, passes_head hcontinues ?_ ?_ ?_ ?_, hbehind ?_ ?_⟩ <;>
        simp [occurrences, hkind, Nat.add_comm]
  | operator hkind =>
      refine ⟨_, _, passes_head hcontinues ?_ ?_ ?_ ?_, hbehind ?_ ?_⟩ <;>
        rcases hkind with hkind | hkind <;> simp [occurrences, hkind]
  | closeParen hkind =>
      refine ⟨_, _, passes_head hcontinues ?_ ?_ ?_ ?_, hbehind ?_ ?_⟩ <;>
        simp [occurrences, hkind, Nat.add_comm]
  | predicate hkind => exact passes_predicate hcontinues hkind

theorem exists_passed (s : GroupScan) {kind : TokenKind} (hcontinues : Continues kind s.ahead.pending) :
    ∃ passed kind', s.Passes s.stop passed ∧ Continues kind' s.stop.ahead.pending := by
  fun_induction stop s generalizing kind with
  | case1 s next hnext ih =>
      obtain ⟨passed, kind', hpassed, hbehind⟩ := (moves_of_next hnext).exists_passed hcontinues
      obtain ⟨passed', kind'', hpassed', hstop⟩ := ih hbehind
      exact ⟨passed ++ passed', kind'', hpassed.trans hpassed', hstop⟩
  | case2 s hnone => exact ⟨[], kind, .refl s, hcontinues⟩

theorem next_stop (s : GroupScan) : s.stop.next? = none := by
  fun_induction stop s with
  | case1 s next hnext ih => exact ih
  | case2 s hnone => exact hnone

end GroupScan

/-- Whether a query is refused with a message. -/
def RefusedWith (query message : String) : Prop :=
  ∃ error, parse query = .error error ∧ error.message = message

theorem Lexes.message_of_mem {state : LexerState} {text : List Char} {tokens : List Token}
    (h : Lexes state text tokens) {token : Token} (hmem : token ∈ tokens) (hkind : token.kind = .error) :
    ∃ error : LexicalError, token.value = error.message := by
  induction h with
  | finish =>
      rw [List.mem_singleton.mp hmem] at hkind
      cases hkind
  | bareLiteral => exact ⟨_, by rw [List.mem_singleton.mp hmem]⟩
  | unclosed => exact ⟨_, by rw [List.mem_singleton.mp hmem]⟩
  | space _ _ _ ih => exact ih hmem
  | operator hword _ _ ih =>
      rcases List.mem_cons.mp hmem with rfl | hmem
      · rcases kind_of_mem_operatorWords hword with rfl | rfl <;> cases hkind
      · exact ih hmem
  | openParen _ _ ih | closeParen _ _ ih | negation _ _ ih | quoted _ _ _ ih | word _ _ _ _ _ ih =>
      rcases List.mem_cons.mp hmem with rfl | hmem
      · cases hkind
      · exact ih hmem
  | predicate _ _ _ ih | chain _ _ _ ih =>
      rcases List.mem_cons.mp hmem with rfl | hmem
      · cases hkind
      · rcases List.mem_cons.mp hmem with rfl | hmem
        · cases hkind
        · exact ih hmem

theorem getLast_message_lexical (error : LexicalError) : error.message.toList.getLast? ≠ some '(' := by
  cases error <;> decide +kernel

/-- Only the error of a group is reported in its words. -/
theorem eq_of_message {error : QueryError} {group : QueryError}
    (hgroup : group = .closeWithoutOpen ∨ group = .openWithoutClose)
    (hlexical : ∀ message, error = .lexical message → ∃ lexical : LexicalError, message = lexical.message)
    (h : error.message = group.message) : error = group := by
  have hlast : error.message.toList.getLast? = some '(' := by
    rw [h]
    rcases hgroup with rfl | rfl <;> decide +kernel
  have hhead : error.message.toList.head? ∈ [some 'f', some 'n'] := by
    rw [h]
    rcases hgroup with rfl | rfl <;> decide +kernel
  -- The other messages end with another character or begin with another one, whatever they quote.
  have hbegins : ∀ begin rest : String, begin.toList.head? ∉ [none, some 'f', some 'n'] →
      ¬ (begin ++ rest).toList.head? ∈ [some 'f', some 'n'] := by
    intro begin rest hbegin
    rw [String.toList_append, List.head?_append]
    cases hchar : begin.toList.head? <;> simp_all
  cases error with
  | closeWithoutOpen =>
      rcases hgroup with rfl | rfl
      · rfl
      · exact absurd h (by decide +kernel)
  | openWithoutClose =>
      rcases hgroup with rfl | rfl
      · exact absurd h (by decide +kernel)
      · rfl
  | lexical message =>
      obtain ⟨lexical, hmessage⟩ := hlexical message rfl
      exact absurd (congrArg (fun s => s.toList.getLast?) hmessage ▸ hlast) (getLast_message_lexical lexical)
  | locationArguments | locationField => exact absurd hlast (by decide +kernel)
  | singleArgument keyword =>
      change (keyword ++ ": requires 1 argument").toList.getLast? = _ at hlast
      rw [String.toList_append, List.getLast?_append] at hlast
      exact absurd hlast (by simp)
  | expectedOperand found => exact absurd hhead (hbegins "expected operand, got " found.written (by decide))
  | expectedPredicate found => exact absurd hhead (hbegins "expected predicate, got " found.written (by decide))
  | unsupportedPredicate keyword => exact absurd hhead (hbegins "unsupported predicate: " keyword (by decide))
  | invalidDate value => exact absurd hhead (hbegins "invalid date: " (Text.quoted value) (by decide))

/-- Whether the first thing wrong with a query is a closing parenthesis where its group still needs an operand. -/
def ClosesTooSoon (query : String) : Prop :=
  let stop := (GroupScan.ofQuery query).stop
  stop.ahead.head.kind = .closeParen ∧ stop.depth ≠ 0

theorem Continues.eq_endOfQuery {kind : TokenKind} {token : Token} {rest : List Token}
    (h : Continues kind (token :: rest)) (hkind : token.kind = .eof) : token = Token.endOfQuery ∧ rest = [] := by
  obtain ⟨_, htext, hrest⟩ := h.cons_inv
  refine ⟨?_, ?_⟩
  · obtain ⟨kind, value⟩ := token
    obtain rfl : kind = .eof := hkind
    exact congrArg (Token.mk .eof) (htext "" rfl)
  · rcases hrest with ⟨_, hnil⟩ | hbehind
    · exact hnil
    · exact absurd (.inl hkind) (not_or.mpr hbehind.ne_final)

section Stop

variable {query : String}

theorem exists_passed_lex (query : String) :
    ∃ passed kind after, (GroupScan.ofQuery query).Passes (GroupScan.ofQuery query).stop passed ∧
      Continues kind ((GroupScan.ofQuery query).stop.ahead.head :: after) ∧
      lex query = passed ++ (GroupScan.ofQuery query).stop.ahead.head :: after := by
  have hstart : (GroupScan.ofQuery query).ahead.pending = lex query := pending_ofTokens_lex query
  obtain ⟨passed, kind, hpassed, hbehind⟩ :=
    (GroupScan.ofQuery query).exists_passed (hstart ▸ continues_lex query)
  have hlex := hstart.symm.trans hpassed.pending
  rw [pending_eq_cons] at hbehind hlex
  exact ⟨passed, kind, _, hpassed, hbehind, hlex⟩

theorem fault_of_parse {error : QueryError} (h : parse query = .error error) :
    (GroupScan.ofQuery query).stop.fault? = some error :=
  parse_eq_error_iff.mp h

/-- The faults that groups and the lexer are behind, and all others. -/
theorem fault_cases {s : GroupScan} {error : QueryError} (h : s.fault? = some error) :
    (s.ahead.head.kind = .closeParen ∧ error = .closeWithoutOpen) ∨
    ((s.ahead.head.kind = .eof ∧ s.depth ≠ 0) ∧ error = .openWithoutClose) ∨
    (s.ahead.head.kind = .error ∧ error = .lexical s.ahead.head.value) ∨
    (error ≠ .closeWithoutOpen ∧ error ≠ .openWithoutClose ∧ ∀ message, error ≠ .lexical message) := by
  unfold GroupScan.fault? at h
  split at h
  case h_1 hkind => exact .inr (.inr (.inl ⟨hkind, (Option.some.inj h).symm⟩))
  case h_2 hkind =>
    split_ifs at h with hplace hdepth <;> obtain rfl := Option.some.inj h
    · simp [hkind]
    · simp [hkind, hdepth]
  case h_3 hkind => exact .inl ⟨hkind, (Option.some.inj h).symm⟩
  case h_4 hkind =>
    split at h
    · rename_i hbuild
      obtain rfl := Option.some.inj h
      rcases ParserCall.buildPredicate_error hbuild with rfl | rfl | rfl | rfl | ⟨_, _, rfl⟩ <;> simp [hkind]
    · cases h
  all_goals
    rename_i hkind
    obtain rfl := Option.some.inj h
    simp [hkind]

theorem exists_lexical_of_parse {message : String} (h : parse query = .error (.lexical message)) :
    ∃ lexical : LexicalError, message = lexical.message := by
  rcases fault_cases (fault_of_parse h) with ⟨-, h⟩ | ⟨-, h⟩ | ⟨hkind, h⟩ | ⟨-, -, h⟩
  · cases h
  · cases h
  · obtain rfl := QueryError.lexical.inj h
    obtain ⟨passed, _, after, _, _, hlex⟩ := exists_passed_lex query
    refine (lexes_iff.mpr hlex).message_of_mem ?_ hkind
    simp
  · exact absurd rfl (h message)

theorem refusedWith_iff {group : QueryError} (hgroup : group = .closeWithoutOpen ∨ group = .openWithoutClose) :
    RefusedWith query group.message ↔ (GroupScan.ofQuery query).stop.fault? = some group := by
  refine ⟨?_, fun h => ⟨group, parse_eq_error_iff.mpr h, rfl⟩⟩
  rintro ⟨error, hparse, hmessage⟩
  obtain rfl := eq_of_message hgroup (fun message h => exists_lexical_of_parse (h ▸ hparse)) hmessage
  exact fault_of_parse hparse

theorem fault_eq_closeWithoutOpen_iff {s : GroupScan} :
    s.fault? = some .closeWithoutOpen ↔ s.ahead.head.kind = .closeParen := by
  refine ⟨fun h => ?_, fun hkind => by rw [GroupScan.fault?, hkind]⟩
  rcases fault_cases h with ⟨hkind, -⟩ | ⟨-, h⟩ | ⟨-, h⟩ | ⟨h, -⟩
  · exact hkind
  · cases h
  · cases h
  · exact absurd rfl h

theorem fault_eq_openWithoutClose {s : GroupScan} (h : s.fault? = some .openWithoutClose) :
    s.ahead.head.kind = .eof ∧ s.depth ≠ 0 := by
  rcases fault_cases h with ⟨-, h⟩ | ⟨hopen, -⟩ | ⟨-, h⟩ | ⟨-, h, -⟩
  · cases h
  · exact hopen
  · cases h
  · exact absurd rfl h

theorem place_ne_operand_of_closesTooSoon (h : ClosesTooSoon query) :
    (GroupScan.ofQuery query).stop.place ≠ .operand := by
  intro hplace
  have hnone := (GroupScan.ofQuery query).next_stop
  rw [GroupScan.next?, h.1] at hnone
  simp [hplace, h.2] at hnone

end Stop

/-- A closing parenthesis that is reported has no group to close, or else its group still needs an operand; a group that
is reported was opened and not closed. -/
theorem parenthesis_errors (query : String) :
    (RefusedWith query "found ) without (" → HasStrayClose (lex query) ∨ ClosesTooSoon query) ∧
    (ClosesTooSoon query → RefusedWith query "found ) without (" ∧
      ∃ before token after, lex query = before ++ token :: after ∧ token.kind = .closeParen ∧
        (∀ front, front <+: before → occurrences .closeParen front ≤ occurrences .openParen front) ∧
        occurrences .closeParen before < occurrences .openParen before ∧
        ∃ last ∈ before.getLast?, last.kind ∈ [TokenKind.openParen, .notOp, .andOp, .orOp]) ∧
    (RefusedWith query "no matching ) for (" →
      (lex query).getLast? = some Token.endOfQuery ∧
        occurrences .closeParen (lex query) < occurrences .openParen (lex query)) := by
  obtain ⟨passed, kind, after, hpassed, hbehind, hlex⟩ := exists_passed_lex query
  have hdepth : occurrences .openParen passed =
      occurrences .closeParen passed + (GroupScan.ofQuery query).stop.depth := hpassed.depth
  have hclose :
      RefusedWith query "found ) without (" ↔ (GroupScan.ofQuery query).stop.ahead.head.kind = .closeParen :=
    (refusedWith_iff (.inl rfl)).trans fault_eq_closeWithoutOpen_iff
  refine ⟨fun hrefused => ?_, fun hsoon => ?_, fun hrefused => ?_⟩
  · have hkind := hclose.mp hrefused
    by_cases hzero : (GroupScan.ofQuery query).stop.depth = 0
    · rw [List.append_cons] at hlex
      refine .inl ⟨_, ⟨after, hlex.symm⟩, ?_⟩
      rw [occurrences_append, occurrences_append, hdepth, hzero]
      simp [occurrences, hkind]
    · exact .inr ⟨hkind, hzero⟩
  · have hkind := hsoon.1
    have hopen := hsoon.2
    refine ⟨hclose.mpr hkind, passed, _, after, hlex, hkind, hpassed.fronts, by omega, ?_⟩
    rcases hpassed.last (place_ne_operand_of_closesTooSoon hsoon) with ⟨rfl, _⟩ | hlast
    · exact absurd hdepth.symm (by simpa [occurrences] using hopen)
    · exact hlast
  · obtain ⟨hkind, hopen⟩ := fault_eq_openWithoutClose ((refusedWith_iff (.inr rfl)).mp hrefused)
    obtain ⟨hend, rfl⟩ := hbehind.eq_endOfQuery hkind
    rw [hend] at hlex
    rw [hlex, occurrences_append, occurrences_append]
    refine ⟨List.getLast?_concat, ?_⟩
    change occurrences .closeParen passed + 0 < occurrences .openParen passed + 0
    omega

/-- A group without an operand is closed by a parenthesis that has one to close. -/
theorem parenthesis_errors_empty_group :
    parse "()" = .error .closeWithoutOpen ∧ QueryError.closeWithoutOpen.message = "found ) without (" ∧
    ∀ front ∈ (lex "()").inits, occurrences .closeParen front ≤ occurrences .openParen front := by
  decide +kernel

end MediaCatalog.Query
