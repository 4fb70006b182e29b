import MediaCatalog.Proofs.Query.ParserEquations
import Mathlib.Logic.Relation

/-!
Which functions of the parser are called while it reads. A call is answered from the answers of the calls that it
makes, and each of these has less to read or is lower in the grammar. So an error of the parser has its origin in
one of its calls, where it is raised for what stands there.
-/

namespace MediaCatalog.Query

open TokenStream

theorem Parsed.size_lt_of_reading {bound : Nat} {p : Parsed bound} {read : Constraint × TokenStream}
    (h : p.reading = .ok read) : read.2.size < bound := by
  obtain ⟨c, hresult, rfl⟩ := Except.map_eq_ok_iff.mp h
  exact p.size_lt (by rw [hresult]; rfl)

/-- A function of the parser and what it is applied to. -/
inductive ParserCall where
  | expression (s : TokenStream)
  | expressionRest (lhs : Constraint) (s : TokenStream)
  | operand (s : TokenStream)
  | positive (s : TokenStream)
  | groupRest (s : TokenStream)
  | orRest (lhs : Constraint) (s : TokenStream)
  | conjunction (s : TokenStream)
  | andRest (lhs : Constraint) (s : TokenStream)
  | atom (s : TokenStream)

namespace ParserCall

/-- The answer to a call. -/
def reading : ParserCall → Except QueryError (Constraint × TokenStream)
  | expression s => Reading.expression s
  | expressionRest lhs s => Reading.expressionRest lhs s
  | operand s => Reading.operand s
  | positive s => Reading.positive s
  | groupRest s => Reading.groupRest s
  | orRest lhs s => Reading.orRest lhs s
  | conjunction s => Reading.conjunction s
  | andRest lhs s => Reading.andRest lhs s
  | atom s => Reading.atom s

/-- The calls that a call makes, with one rule for each place in the parser where a function is called. -/
inductive Makes : ParserCall → ParserCall → Prop where
  | first {s : TokenStream} (heof : s.head.kind ≠ .eof) : Makes (expression s) (operand s.looked)
  | afterFirst {s : TokenStream} {read : Constraint × TokenStream} (heof : s.head.kind ≠ .eof)
      (hread : Reading.operand s.looked = .ok read) :
      Makes (expression s) (expressionRest read.1 read.2)
  | alternatives {lhs : Constraint} {s : TokenStream} (hor : s.head.kind = .orOp) :
      Makes (expressionRest lhs s) (orRest lhs s.tail)
  | joined {lhs : Constraint} {s : TokenStream} (hor : s.head.kind ≠ .orOp)
      (hend : ¬(s.head.kind = .closeParen ∨ s.head.kind = .eof)) :
      Makes (expressionRest lhs s) (andRest lhs (skipAnd s))
  | afterJoined {lhs : Constraint} {s : TokenStream} {read : Constraint × TokenStream}
      (hor : s.head.kind ≠ .orOp) (hend : ¬(s.head.kind = .closeParen ∨ s.head.kind = .eof))
      (hread : Reading.andRest lhs (skipAnd s) = .ok read) :
      Makes (expressionRest lhs s) (expressionRest read.1 read.2)
  | positive {s : TokenStream} : Makes (operand s) (positive (stripNot s).2)
  | group {s : TokenStream} (hopen : s.head.kind = .openParen) : Makes (positive s) (groupRest s.tail)
  | atom {s : TokenStream} (herror : s.head.kind ≠ .error) (heof : s.head.kind ≠ .eof)
      (hclose : s.head.kind ≠ .closeParen) (hopen : s.head.kind ≠ .openParen) :
      Makes (positive s) (atom s)
  | inner {s : TokenStream} : Makes (groupRest s) (expression s)
  | alternative {lhs : Constraint} {s : TokenStream} : Makes (orRest lhs s) (conjunction s)
  | afterOr {lhs : Constraint} {s : TokenStream} {read : Constraint × TokenStream}
      (hread : Reading.conjunction s = .ok read) (hor : read.2.head.kind = .orOp) :
      Makes (orRest lhs s) (orRest (.or lhs read.1) read.2.tail)
  | afterAlternative {lhs : Constraint} {s : TokenStream} {read : Constraint × TokenStream}
      (hread : Reading.conjunction s = .ok read) (hor : read.2.head.kind ≠ .orOp)
      (hend : ¬(read.2.head.kind = .andOp ∨ read.2.head.kind = .closeParen ∨ read.2.head.kind = .eof)) :
      Makes (orRest lhs s) (orRest (.or lhs read.1) read.2.looked)
  | firstJoined {s : TokenStream} : Makes (conjunction s) (operand s)
  | afterAnd {s : TokenStream} {read : Constraint × TokenStream} (hread : Reading.operand s = .ok read)
      (hand : read.2.head.kind = .andOp) : Makes (conjunction s) (andRest read.1 read.2.tail)
  | juxtaposed {s : TokenStream} {read : Constraint × TokenStream} (hread : Reading.operand s = .ok read)
      (hand : read.2.head.kind ≠ .andOp)
      (hend : ¬(read.2.head.kind = .orOp ∨ read.2.head.kind = .closeParen ∨ read.2.head.kind = .eof)) :
      Makes (conjunction s) (andRest read.1 read.2.looked)
  | nextJoined {lhs : Constraint} {s : TokenStream} : Makes (andRest lhs s) (operand s)
  | afterNextAnd {lhs : Constraint} {s : TokenStream} {read : Constraint × TokenStream}
      (hread : Reading.operand s = .ok read) (hand : read.2.head.kind = .andOp) :
      Makes (andRest lhs s) (andRest (.and lhs read.1) read.2.tail)

/-- The calls that are made in the course of a call, which is one of them. -/
abbrev Reaches : ParserCall → ParserCall → Prop :=
  Relation.ReflTransGen Makes

/-- What goes down from a call to those that it makes. -/
def bound : ParserCall → Nat
  | groupRest s => 8 * s.size + 7
  | expression s => 8 * s.size + 6
  | expressionRest _ s | orRest _ s => 8 * s.size + 5
  | conjunction s => 8 * s.size + 4
  | andRest _ s => 8 * s.size + 3
  | operand s => 8 * s.size + 2
  | positive s => 8 * s.size + 1
  | atom s => 8 * s.size

theorem Makes.bound_lt {call next : ParserCall} (h : call.Makes next) : next.bound < call.bound := by
  have hoperand : ∀ {s read}, Reading.operand s = .ok read → read.2.size < s.size :=
    Parsed.size_lt_of_reading
  have hconjunction : ∀ {s read}, Reading.conjunction s = .ok read → read.2.size < s.size :=
    Parsed.size_lt_of_reading
  have handRest : ∀ {lhs s read}, Reading.andRest lhs s = .ok read → read.2.size < s.size :=
    Parsed.size_lt_of_reading
  cases h with simp only [bound, size_looked]
  | first | atom | inner | alternative | firstJoined | nextJoined => omega
  | afterFirst heof hread =>
      have hlt := hoperand hread
      rw [size_looked] at hlt
      omega
  | @alternatives _ s hor =>
      have hlt : s.tail.size < s.size := size_tail_lt (by simp [hor])
      omega
  | @joined _ s =>
      have hle := size_skipAnd_le s
      omega
  | @afterJoined _ s _ _ _ hread =>
      have hle := size_skipAnd_le s
      have hlt := handRest hread
      omega
  | @positive s =>
      have hle := size_stripNot_le s
      omega
  | @group s hopen =>
      have hlt : s.tail.size < s.size := size_tail_lt (by simp [hopen])
      omega
  | @afterOr _ _ read hread =>
      have hlt := hconjunction hread
      have hle := size_tail_le read.2
      omega
  | afterAlternative hread =>
      have hlt := hconjunction hread
      omega
  | @afterAnd _ read hread | @afterNextAnd _ _ read hread =>
      have hlt := hoperand hread
      have hle := size_tail_le read.2
      omega
  | juxtaposed hread =>
      have hlt := hoperand hread
      omega

theorem readLocationField_error {name : String} {error : QueryError}
    (h : readLocationField name = .error error) : error = .locationField := by
  rw [readLocationField] at h
  cases hname : LocationField.ofName name <;> rw [hname] at h <;> cases h
  rfl

theorem readDate_error {value : String} {error : QueryError} (h : readDate value = .error error) :
    error = .invalidDate value := by
  rw [readDate] at h
  split at h <;> cases h
  rfl

theorem singlePredicate_error {keyword value : String} {build : String → Except QueryError Constraint}
    {error : QueryError} (hbuild : singlePredicate? keyword = some build)
    (h : build value = .error error) : error = .invalidDate value := by
  unfold singlePredicate? at hbuild
  split at hbuild
  all_goals cases hbuild
  · exact readDate_error (Except.map_eq_error_iff.mp h)
  · exact readDate_error (Except.map_eq_error_iff.mp h)
  all_goals cases h

theorem buildPredicate_error {keyword : String} {args : List String} {error : QueryError}
    (h : buildPredicate keyword args = .error error) :
    error = .unsupportedPredicate keyword ∨ error = .locationArguments ∨ error = .singleArgument keyword ∨
      error = .locationField ∨ ∃ value ∈ args, error = .invalidDate value := by
  unfold buildPredicate at h
  split at h
  · unfold locationPredicate at h
    split at h
    · cases h
    · exact .inr (.inr (.inr (.inl (readLocationField_error (Except.map_eq_error_iff.mp h)))))
    · exact .inr (.inl (Except.error.inj h).symm)
  · split at h
    · exact .inl (Except.error.inj h).symm
    · rename_i build value hsingle
      exact .inr (.inr (.inr (.inr ⟨value, by simp, singlePredicate_error hsingle h⟩)))
    · exact .inr (.inr (.inl (Except.error.inj h).symm))

/-- The call that reads a whole query. -/
def ofQuery (query : String) : ParserCall :=
  expression (ofTokens (lex query))

/-- The errors that a call raises itself. -/
inductive Raises : ParserCall → QueryError → Prop where
  | lexical {s : TokenStream} (herror : s.head.kind = .error) :
      Raises (positive s) (.lexical s.head.value)
  | expectedOperand {s : TokenStream} (heof : s.head.kind = .eof) :
      Raises (positive s) (.expectedOperand s.head)
  | closeWithoutOpen {s : TokenStream} (hclose : s.head.kind = .closeParen) :
      Raises (positive s) .closeWithoutOpen
  | openWithoutClose {s : TokenStream} {read : Constraint × TokenStream}
      (hread : Reading.expression s = .ok read) (hclose : read.2.head.kind ≠ .closeParen) :
      Raises (groupRest s) .openWithoutClose
  | expectedPredicate {s : TokenStream} (hpredicate : s.head.kind ≠ .predicate) :
      Raises (atom s) (.expectedPredicate s.head)
  | predicate {s : TokenStream} {error : QueryError} (hpredicate : s.head.kind = .predicate)
      (hbuild : buildPredicate s.head.value (readArguments false s.tail).1 = .error error) :
      Raises (atom s) error

/-- An error is raised by the call that answers with it or comes from a call that it makes. -/
theorem raises_or_makes {call : ParserCall} {error : QueryError} (h : call.reading = .error error) :
    call.Raises error ∨ ∃ next, call.Makes next ∧ next.reading = .error error := by
  cases call with simp only [reading] at h
  | expression s =>
      rw [Reading.expression_eq] at h
      split_ifs at h with heof
      rcases Except.bind_eq_error_iff.mp h with hfirst | ⟨read, hread, hrest⟩
      · exact .inr ⟨_, .first heof, hfirst⟩
      · exact .inr ⟨_, .afterFirst heof hread, hrest⟩
  | expressionRest lhs s =>
      rw [Reading.expressionRest_eq] at h
      split_ifs at h with hor hend
      · exact .inr ⟨_, .alternatives hor, h⟩
      · rcases Except.bind_eq_error_iff.mp h with hjoined | ⟨read, hread, hrest⟩
        · exact .inr ⟨_, .joined hor hend, hjoined⟩
        · exact .inr ⟨_, .afterJoined hor hend hread, hrest⟩
  | operand s =>
      rw [Reading.operand_eq, Except.map_eq_error_iff] at h
      exact .inr ⟨_, .positive, h⟩
  | positive s =>
      rw [Reading.positive_eq] at h
      split_ifs at h with herror heof hclose hopen
      · exact .inl (Except.error.inj h ▸ .lexical herror)
      · exact .inl (Except.error.inj h ▸ .expectedOperand heof)
      · exact .inl (Except.error.inj h ▸ .closeWithoutOpen hclose)
      · exact .inr ⟨_, .group hopen, h⟩
      · exact .inr ⟨_, .atom herror heof hclose hopen, h⟩
  | groupRest s =>
      rw [Reading.groupRest_eq] at h
      rcases Except.bind_eq_error_iff.mp h with hinner | ⟨read, hread, hend⟩
      · exact .inr ⟨_, .inner, hinner⟩
      · split_ifs at hend with hclose
        exact .inl (Except.error.inj hend ▸ .openWithoutClose hread hclose)
  | orRest lhs s =>
      rw [Reading.orRest_eq] at h
      rcases Except.bind_eq_error_iff.mp h with hnext | ⟨read, hread, hrest⟩
      · exact .inr ⟨_, .alternative, hnext⟩
      · split_ifs at hrest with hor hend
        · exact .inr ⟨_, .afterOr hread hor, hrest⟩
        · exact .inr ⟨_, .afterAlternative hread hor hend, hrest⟩
  | conjunction s =>
      rw [Reading.conjunction_eq] at h
      rcases Except.bind_eq_error_iff.mp h with hfirst | ⟨read, hread, hrest⟩
      · exact .inr ⟨_, .firstJoined, hfirst⟩
      · split_ifs at hrest with hand hend
        · exact .inr ⟨_, .afterAnd hread hand, hrest⟩
        · exact .inr ⟨_, .juxtaposed hread hand hend, hrest⟩
  | andRest lhs s =>
      rw [Reading.andRest_eq] at h
      rcases Except.bind_eq_error_iff.mp h with hnext | ⟨read, hread, hrest⟩
      · exact .inr ⟨_, .nextJoined, hnext⟩
      · split_ifs at hrest with hand
        exact .inr ⟨_, .afterNextAnd hread hand, hrest⟩
  | atom s =>
      rw [Reading.atom_eq] at h
      split_ifs at h with hpredicate
      · exact .inl (.predicate hpredicate (Except.map_eq_error_iff.mp h))
      · exact .inl (Except.error.inj h ▸ .expectedPredicate hpredicate)

theorem exists_raises {call : ParserCall} {error : QueryError} (h : call.reading = .error error) :
    ∃ origin, call.Reaches origin ∧ origin.Raises error := by
  obtain ⟨n, hn⟩ : ∃ n, call.bound = n := ⟨_, rfl⟩
  induction n using Nat.strongRecOn generalizing call with
  | _ n ih =>
      rcases raises_or_makes h with hraises | ⟨next, hmakes, hnext⟩
      · exact ⟨call, .refl, hraises⟩
      · obtain ⟨origin, hreaches, hraises⟩ := ih next.bound (hn ▸ hmakes.bound_lt) hnext rfl
        exact ⟨origin, .head hmakes hreaches, hraises⟩

/-- The error of a query has its origin in a call, unless it is for a parenthesis behind the expression. -/
theorem exists_raises_of_parse {query : String} {error : QueryError} (h : parse query = .error error) :
    (∃ read, (ofQuery query).reading = .ok read ∧ read.2.head.kind = .closeParen ∧
      error = .closeWithoutOpen) ∨
    ∃ origin, (ofQuery query).Reaches origin ∧ origin.Raises error := by
  rw [parse_eq, readExpression, Except.bind_map] at h
  rcases Except.bind_eq_error_iff.mp h with hexpression | ⟨read, hread, hend⟩
  · exact .inr (exists_raises hexpression)
  · rw [view, head_ofTokens_pending] at hend
    split_ifs at hend with hclose
    exact .inl ⟨read, hread, hclose, (Except.error.inj hend).symm⟩

end ParserCall

end MediaCatalog.Query
