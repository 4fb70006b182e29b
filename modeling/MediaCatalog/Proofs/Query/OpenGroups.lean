import MediaCatalog.Proofs.Query.Agreement

/-!
Reading a query from left to right without a tree. A scan keeps only what it is behind and how many groups are open,
and stops at the first token that it cannot go on with. The parser, which calls itself for each group, raises the
error that stands where the scan stops.
-/

namespace MediaCatalog.Query

open TokenStream

/-- What a place in a query is behind, as far as this settles what can come next. -/
inductive ScanPlace where
  /-- Behind the beginning of the query or of a group. -/
  | opening
  /-- Behind an operator or a negation. -/
  | operator
  | operand
deriving DecidableEq

structure GroupScan where
  place : ScanPlace
  /-- The number of groups that are open. -/
  depth : Nat
  ahead : TokenStream

namespace GroupScan

/-- The scan behind the next token, or behind the predicate that begins there, if that can stand in this place. -/
def next? (s : GroupScan) : Option GroupScan :=
  match s.ahead.head.kind with
  | .notOp => some ⟨.operator, s.depth, s.ahead.tail⟩
  | .openParen => some ⟨.opening, s.depth + 1, s.ahead.tail⟩
  | .andOp | .orOp => if s.place = .operand then some ⟨.operator, s.depth, s.ahead.tail⟩ else none
  | .closeParen =>
    if s.place = .operand ∧ s.depth ≠ 0 then some ⟨.operand, s.depth - 1, s.ahead.tail⟩ else none
  | .predicate =>
    let read := readArguments false s.ahead.tail
    if (buildPredicate s.ahead.head.value read.1).isOk then some ⟨.operand, s.depth, read.2⟩ else none
  | .arg | .colon | .eof | .error => none

/-- What is wrong with the next token of a scan that cannot go on. -/
def fault? (s : GroupScan) : Option QueryError :=
  match s.ahead.head.kind with
  | .error => some (.lexical s.ahead.head.value)
  | .eof =>
    if s.place = .operator then some (.expectedOperand s.ahead.head)
    else if s.depth = 0 then none
    else some .openWithoutClose
  | .closeParen => some .closeWithoutOpen
  | .predicate =>
    match buildPredicate s.ahead.head.value (readArguments false s.ahead.tail).1 with
    | .error error => some error
    | .ok _ => none
  | .andOp | .orOp | .notOp | .openParen | .arg | .colon => some (.expectedPredicate s.ahead.head)

/-- The moves of a scan, with one rule for each kind of token that it can go on with. -/
inductive Moves : GroupScan → GroupScan → Prop where
  | negation {place : ScanPlace} {depth : Nat} {s : TokenStream} (hkind : s.head.kind = .notOp) :
      Moves ⟨place, depth, s⟩ ⟨.operator, depth, s.tail⟩
  | openParen {place : ScanPlace} {depth : Nat} {s : TokenStream} (hkind : s.head.kind = .openParen) :
      Moves ⟨place, depth, s⟩ ⟨.opening, depth + 1, s.tail⟩
  | operator {depth : Nat} {s : TokenStream} (hkind : s.head.kind = .andOp ∨ s.head.kind = .orOp) :
      Moves ⟨.operand, depth, s⟩ ⟨.operator, depth, s.tail⟩
  | closeParen {depth : Nat} {s : TokenStream} (hkind : s.head.kind = .closeParen) :
      Moves ⟨.operand, depth + 1, s⟩ ⟨.operand, depth, s.tail⟩
  | predicate {place : ScanPlace} {depth : Nat} {s : TokenStream} (hkind : s.head.kind = .predicate) :
      Moves ⟨place, depth, s⟩ ⟨.operand, depth, (readArguments false s.tail).2⟩

theorem moves_of_next {s next : GroupScan} (h : s.next? = some next) : s.Moves next := by
  obtain ⟨place, depth, ahead⟩ := s
  unfold next? at h
  split at h
  · rename_i hkind
    obtain rfl := Option.some.inj h
    exact .negation hkind
  · rename_i hkind
    obtain rfl := Option.some.inj h
    exact .openParen hkind
  · rename_i hkind
    split_ifs at h with hplace
    obtain rfl := Option.some.inj h
    obtain rfl : place = .operand := hplace
    exact .operator (.inl hkind)
  · rename_i hkind
    split_ifs at h with hplace
    obtain rfl := Option.some.inj h
    obtain rfl : place = .operand := hplace
    exact .operator (.inr hkind)
  · rename_i hkind
    split_ifs at h with hclose
    obtain rfl := Option.some.inj h
    obtain ⟨rfl, hdepth⟩ : place = .operand ∧ depth ≠ 0 := hclose
    obtain ⟨depth, rfl⟩ := Nat.exists_eq_succ_of_ne_zero hdepth
    exact .closeParen hkind
  · rename_i hkind
    dsimp only at h
    split_ifs at h
    obtain rfl := Option.some.inj h
    exact .predicate hkind
  all_goals cases h

theorem Moves.size_lt {s next : GroupScan} (h : s.Moves next) : next.ahead.size < s.ahead.size := by
  cases h with
  | negation hkind | openParen hkind | closeParen hkind => exact size_tail_lt (by simp [hkind])
  | operator hkind => exact size_tail_lt (by rcases hkind with h | h <;> simp [h])
  | @predicate _ _ s hkind =>
      exact Nat.lt_of_le_of_lt (size_readArguments_le false s.tail) (size_tail_lt (by simp [hkind]))

/-- The scan at the first token with which it cannot go on. -/
def stop (s : GroupScan) : GroupScan :=
  match _ : s.next? with
  | some next => next.stop
  | none => s
termination_by s.ahead.size
decreasing_by
  rename_i h
  exact (moves_of_next h).size_lt

/-- Where the scan of a query begins. -/
def ofQuery (query : String) : GroupScan :=
  ⟨.opening, 0, ofTokens (lex query)⟩

/-- The first fault of the tokens ahead. -/
def firstFault (s : GroupScan) : Option QueryError :=
  s.stop.fault?

theorem stop_of_next {s next : GroupScan} (h : s.next? = some next) : s.stop = next.stop := by
  rw [stop]
  split
  · rename_i hnext
    rw [Option.some.inj (h.symm.trans hnext)]
  · rename_i hnone
    rw [hnone] at h
    cases h

theorem stop_of_none {s : GroupScan} (h : s.next? = none) : s.stop = s := by
  rw [stop]
  split
  · rename_i hnext
    rw [hnext] at h
    cases h
  · rfl

theorem firstFault_of_next {s next : GroupScan} (h : s.next? = some next) : s.firstFault = next.firstFault := by
  rw [firstFault, stop_of_next h, firstFault]

theorem firstFault_of_none {s : GroupScan} (h : s.next? = none) : s.firstFault = s.fault? := by
  rw [firstFault, stop_of_none h]

theorem firstFault_congr {s s' : GroupScan} (hnext : s.next? = s'.next?)
    (hfault : s.next? = none → s.fault? = s'.fault?) : s.firstFault = s'.firstFault := by
  cases h : s.next? with
  | none => rw [firstFault_of_none h, firstFault_of_none (hnext.symm.trans h), hfault h]
  | some next => rw [firstFault_of_next h, firstFault_of_next (hnext.symm.trans h)]

theorem firstFault_of_fault {s : GroupScan} {error : QueryError} (hnext : s.next? = none)
    (hfault : s.fault? = some error) : s.firstFault = some error :=
  (firstFault_of_none hnext).trans hfault

theorem firstFault_looked (place : ScanPlace) (depth : Nat) (s : TokenStream) :
    firstFault ⟨place, depth, s.looked⟩ = firstFault ⟨place, depth, s⟩ := by
  apply firstFault_congr
  · simp only [next?, head_looked, tail_looked]
  · simp only [fault?, head_looked, tail_looked, implies_true]

theorem firstFault_opening (depth : Nat) {s : TokenStream} (heof : s.head.kind ≠ .eof) :
    firstFault ⟨.opening, depth, s⟩ = firstFault ⟨.operator, depth, s⟩ := by
  apply firstFault_congr
  · simp [next?]
  · intro _
    unfold fault?
    dsimp only
    split <;> simp_all

theorem firstFault_operand (depth : Nat) {s : TokenStream}
    (hkind : s.head.kind ≠ .andOp ∧ s.head.kind ≠ .orOp ∧ s.head.kind ≠ .closeParen ∧ s.head.kind ≠ .eof) :
    firstFault ⟨.operand, depth, s⟩ = firstFault ⟨.operator, depth, s⟩ := by
  obtain ⟨hand, hor, hclose, heof⟩ := hkind
  apply firstFault_congr
  · unfold next?
    dsimp only
    split <;> simp_all
  · intro _
    unfold fault?
    dsimp only
    split <;> simp_all

theorem firstFault_operator (depth : Nat) {s : TokenStream} (hkind : s.head.kind = .andOp ∨ s.head.kind = .orOp) :
    firstFault ⟨.operand, depth, s⟩ = firstFault ⟨.operator, depth, s.tail⟩ := by
  apply firstFault_of_next
  rcases hkind with h | h <;> simp [next?, h]

theorem firstFault_close (depth : Nat) {s : TokenStream} (hclose : s.head.kind = .closeParen) :
    firstFault ⟨.operand, depth + 1, s⟩ = firstFault ⟨.operand, depth, s.tail⟩ := by
  apply firstFault_of_next
  simp [next?, hclose]

theorem firstFault_open (place : ScanPlace) (depth : Nat) {s : TokenStream} (hopen : s.head.kind = .openParen) :
    firstFault ⟨place, depth, s⟩ = firstFault ⟨.opening, depth + 1, s.tail⟩ := by
  apply firstFault_of_next
  simp [next?, hopen]

theorem firstFault_stripNot (depth : Nat) (s : TokenStream) :
    firstFault ⟨.operator, depth, s⟩ = firstFault ⟨.operator, depth, (stripNot s).2⟩ := by
  fun_induction stripNot s with
  | case1 s hnot _ rest hrest ih =>
      rw [hrest] at ih
      refine Eq.trans ?_ ih
      apply firstFault_of_next
      simp [next?, hnot]
  | case2 s _ => exact (firstFault_looked .operator depth s).symm

/-- The first fault behind an answer of the parser, which is an operand, or the error that is the answer. -/
def firstFaultBehind (depth : Nat) : Except QueryError (Constraint × TokenStream) → Option QueryError
  | .error error => some error
  | .ok read => firstFault ⟨.operand, depth, read.2⟩

theorem firstFaultBehind_bind {depth : Nat} {x : Except QueryError (Constraint × TokenStream)}
    {f : Constraint × TokenStream → Except QueryError (Constraint × TokenStream)}
    (h : ∀ read, x = .ok read → firstFaultBehind depth (f read) = firstFault ⟨.operand, depth, read.2⟩) :
    firstFaultBehind depth (x.bind f) = firstFaultBehind depth x := by
  cases x with
  | error error => rfl
  | ok read => exact h read rfl

end GroupScan

namespace Reading

theorem expressionRest_leaves {lhs : Constraint} {s : TokenStream} {read : Constraint × TokenStream}
    (h : expressionRest lhs s = .ok read) : read.2.head.kind = .closeParen ∨ read.2.head.kind = .eof := by
  obtain ⟨n, hn⟩ : ∃ n, s.size = n := ⟨_, rfl⟩
  induction n using Nat.strongRecOn generalizing lhs s with
  | _ n ih =>
      rw [expressionRest_eq] at h
      split_ifs at h with hor hend
      · exact orRest_leaves h
      · obtain rfl := Except.ok.inj h
        rwa [head_looked]
      · obtain ⟨joined, hjoined, hrest⟩ := Except.bind_eq_ok_iff.mp h
        have hlt : joined.2.size < (skipAnd s).size := Parsed.size_lt_of_reading hjoined
        have hle := size_skipAnd_le s
        exact ih joined.2.size (by omega) hrest rfl

theorem expression_leaves {s : TokenStream} {read : Constraint × TokenStream} (h : expression s = .ok read) :
    read.2.head.kind = .closeParen ∨ read.2.head.kind = .eof := by
  rw [expression_eq] at h
  split_ifs at h with heof
  · obtain rfl := Except.ok.inj h
    rw [head_looked]
    exact .inr heof
  · obtain ⟨first, _, hrest⟩ := Except.bind_eq_ok_iff.mp h
    exact expressionRest_leaves hrest

end Reading

namespace ParserCall

open GroupScan

/-- Where a scan stands when a function of the parser is called that is to leave `depth` groups open. -/
def scan (depth : Nat) : ParserCall → GroupScan
  | expression s => ⟨.opening, depth, s⟩
  | groupRest s => ⟨.opening, depth + 1, s⟩
  | expressionRest _ s => ⟨.operand, depth, s⟩
  | operand s | positive s | orRest _ s | conjunction s | andRest _ s | atom s => ⟨.operator, depth, s⟩

/-- One call of the parser, if the calls that it makes find what a scan finds. -/
theorem firstFault_scan_of_makes {call : ParserCall} (hcall : call.Expected)
    (hmade : ∀ {next : ParserCall}, call.Makes next → ∀ depth,
      (next.scan depth).firstFault = firstFaultBehind depth next.reading) (depth : Nat) :
    (call.scan depth).firstFault = firstFaultBehind depth call.reading := by
  cases call with simp only [reading, scan]
  | expression s =>
      rw [Reading.expression_eq]
      split_ifs with heof
      · refine (firstFault_congr ?_ ?_).trans (firstFault_looked .operand depth s).symm <;>
          simp [next?, fault?, heof]
      · rw [firstFault_opening depth heof, ← firstFault_looked]
        refine (hmade (.first heof) depth).trans (firstFaultBehind_bind ?_).symm
        exact fun read hread => (hmade (.afterFirst heof hread) depth).symm
  | expressionRest lhs s =>
      rw [Reading.expressionRest_eq]
      split_ifs with hor hend
      · exact (firstFault_operator depth (.inr hor)).trans (hmade (.alternatives hor) depth)
      · exact (firstFault_looked .operand depth s).symm
      · have hjoined : firstFault ⟨.operand, depth, s⟩ = firstFault ⟨.operator, depth, skipAnd s⟩ := by
          rw [skipAnd]
          split_ifs with hand
          · exact firstFault_operator depth (.inl hand)
          · rw [firstFault_looked]
            exact firstFault_operand depth ⟨hand, hor, not_or.mp hend⟩
        refine (hjoined.trans (hmade (.joined hor hend) depth)).trans (firstFaultBehind_bind ?_).symm
        exact fun read hread => (hmade (.afterJoined hor hend hread) depth).symm
  | operand s =>
      refine (firstFault_stripNot depth s).trans ((hmade .positive depth).trans ?_)
      rw [Reading.operand_eq]
      change firstFaultBehind depth (Reading.positive (stripNot s).2) = _
      cases Reading.positive (stripNot s).2 <;> rfl
  | positive s =>
      rw [Reading.positive_eq]
      split_ifs with herror heof hclose hopen
      · exact firstFault_of_fault (by simp [next?, herror]) (by simp [fault?, herror])
      · exact firstFault_of_fault (by simp [next?, heof]) (by simp [fault?, heof])
      · exact firstFault_of_fault (by simp [next?, hclose]) (by simp [fault?, hclose])
      · exact (firstFault_open .operator depth hopen).trans (hmade (.group hopen) depth)
      · exact hmade (.atom herror heof hclose hopen) depth
  | groupRest s =>
      rw [Reading.groupRest_eq]
      refine (hmade .inner (depth + 1)).trans ?_
      change firstFaultBehind (depth + 1) (Reading.expression s) = _
      cases hread : Reading.expression s with
      | error error => rfl
      | ok read =>
          rw [Except.ok_bind]
          split_ifs with hclose
          · exact firstFault_close depth hclose
          · have heof := (Reading.expression_leaves hread).resolve_left hclose
            exact firstFault_of_fault (by simp [next?, heof]) (by simp [fault?, heof])
  | orRest lhs s =>
      rw [Reading.orRest_eq]
      refine (hmade .alternative depth).trans (firstFaultBehind_bind fun read hread => ?_).symm
      split_ifs with hor hend
      · exact (hmade (.afterOr hread hor) depth).symm.trans (firstFault_operator depth (.inr hor)).symm
      · exact firstFault_looked .operand depth read.2
      · refine (hmade (.afterAlternative hread hor hend) depth).symm.trans ?_
        rw [not_or] at hend
        exact (firstFault_looked .operator depth read.2).trans
          (firstFault_operand depth ⟨hend.1, hor, not_or.mp hend.2⟩).symm
  | conjunction s =>
      rw [Reading.conjunction_eq]
      refine (hmade .firstJoined depth).trans (firstFaultBehind_bind fun read hread => ?_).symm
      split_ifs with hand hend
      · exact (hmade (.afterAnd hread hand) depth).symm.trans (firstFault_operator depth (.inl hand)).symm
      · exact firstFault_looked .operand depth read.2
      · refine (hmade (.juxtaposed hread hand hend) depth).symm.trans ?_
        rw [not_or] at hend
        exact (firstFault_looked .operator depth read.2).trans
          (firstFault_operand depth ⟨hand, hend.1, not_or.mp hend.2⟩).symm
  | andRest lhs s =>
      rw [Reading.andRest_eq]
      refine (hmade .nextJoined depth).trans (firstFaultBehind_bind fun read hread => ?_).symm
      split_ifs with hand
      · exact (hmade (.afterNextAnd hread hand) depth).symm.trans (firstFault_operator depth (.inl hand)).symm
      · exact firstFault_looked .operand depth read.2
  | atom s =>
      have hpredicate : s.head.kind = .predicate := hcall.2
      rw [Reading.atom_eq, if_pos hpredicate]
      cases hbuild : buildPredicate s.head.value (readArguments false s.tail).1 with
      | error error =>
          exact firstFault_of_fault (by simp [next?, hpredicate, hbuild, Except.isOk, Except.toBool])
            (by simp [fault?, hpredicate, hbuild])
      | ok c =>
          exact firstFault_of_next (by simp [next?, hpredicate, hbuild, Except.isOk, Except.toBool])

/-- A call of the parser raises the first fault of the tokens that it takes, and if these have none, it leaves the scan
behind an operand. -/
theorem firstFault_scan {call : ParserCall} (hcall : call.Expected) (depth : Nat) :
    (call.scan depth).firstFault = firstFaultBehind depth call.reading := by
  obtain ⟨n, hn⟩ : ∃ n, call.bound = n := ⟨_, rfl⟩
  induction n using Nat.strongRecOn generalizing call depth with
  | _ n ih =>
      refine firstFault_scan_of_makes hcall (fun hmakes depth => ?_) depth
      exact ih _ (hn ▸ hmakes.bound_lt) (hmakes.expected hcall) depth rfl

end ParserCall

/-- A query has the error that a scan of its tokens finds first, and none if the scan comes to the end. -/
theorem parse_eq_error_iff {query : String} {error : QueryError} :
    parse query = .error error ↔ (GroupScan.ofQuery query).firstFault = some error := by
  have hscan := ParserCall.firstFault_scan (ParserCall.expected_ofQuery query) 0
  change (GroupScan.ofQuery query).firstFault =
    GroupScan.firstFaultBehind 0 (Reading.expression (ofTokens (lex query))) at hscan
  rw [parse_eq, readExpression, Except.bind_map, hscan]
  cases hread : Reading.expression (ofTokens (lex query)) with
  | error raised => simp [GroupScan.firstFaultBehind]
  | ok read =>
      simp only [Except.ok_bind, view, head_ofTokens_pending, GroupScan.firstFaultBehind]
      rcases Reading.expression_leaves hread with hclose | heof
      · rw [GroupScan.firstFault_of_none (by simp [GroupScan.next?, hclose])]
        simp [GroupScan.fault?, hclose]
      · rw [GroupScan.firstFault_of_none (by simp [GroupScan.next?, heof])]
        simp [GroupScan.fault?, heof]

end MediaCatalog.Query
