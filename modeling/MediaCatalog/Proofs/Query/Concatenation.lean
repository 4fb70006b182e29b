import MediaCatalog.Proofs.Query.Lexing

/-!
Texts behind texts. What is written behind a text that is lexed to its end is lexed on in the state that the last
token leaves, and white space behind a text changes at most a colon at its end, which gets an empty argument. The
other way round, a text can be cut where one of its colons stands.
-/

namespace MediaCatalog.Query

open Text

/-- The kind of the last token, which is `previous` if there is none. -/
def lastKind (previous : TokenKind) : List Token → TokenKind
  | [] => previous
  | token :: rest => lastKind token.kind rest

/-- The tokens of a text with something else than an argument behind it: a colon at the end has an argument. -/
def completeTokens (previous : TokenKind) : List Token → List Token
  | [] => if previous = .colon then [argToken ""] else []
  | token :: rest => token :: completeTokens token.kind rest

@[simp] theorem lastKind_append_cons (previous : TokenKind) (first : List Token) (token : Token)
    (rest : List Token) :
    lastKind previous (first ++ token :: rest) = lastKind token.kind rest := by
  induction first generalizing previous with
  | nil => rfl
  | cons next first ih => exact ih next.kind

@[simp] theorem completeTokens_append_cons (previous : TokenKind) (first : List Token) (token : Token)
    (rest : List Token) :
    completeTokens previous (first ++ token :: rest) = first ++ token :: completeTokens token.kind rest := by
  induction first generalizing previous with
  | nil => rfl
  | cons next first ih => exact congrArg (next :: ·) (ih next.kind)

theorem completeTokens_eq (previous : TokenKind) (tokens : List Token) :
    completeTokens previous tokens = tokens ++ if lastKind previous tokens = .colon then [argToken ""] else [] := by
  induction tokens generalizing previous with
  | nil => rfl
  | cons token rest ih => exact congrArg (token :: ·) (ih token.kind)

/-- The state in which the lexer goes on behind a token. -/
def TokenKind.stateBehind : TokenKind → LexerState
  | .colon => .argument
  | .arg | .closeParen => .operator
  | _ => .start

/-- Whether a token of some kind is as it is before the end of the query if a text stands behind it. -/
structure TokenKind.StaysBefore (kind : TokenKind) (behind : List Char) : Prop where
  arg : kind = .arg → ∀ c ∈ behind.head?, ¬ isWordChar c ∧ c ≠ ':'
  operator : kind = .andOp ∨ kind = .orOp → endsOperator behind

/-- Whether the query was read to its end. -/
def EndsQuery (tokens : List Token) : Prop :=
  tokens.getLast? = some Token.endOfQuery

theorem EndsQuery.cons {token : Token} {rest rest' : List Token} (htoken : token.kind ≠ .eof)
    (h : EndsQuery rest' → EndsQuery rest) : EndsQuery (token :: rest') → EndsQuery (token :: rest) := by
  intro hend
  cases rest' with
  | nil =>
      obtain rfl := Option.some.inj hend
      exact absurd rfl htoken
  | cons next' rest' =>
      have hrest : EndsQuery rest := h (List.getLast?_cons_cons.symm.trans hend)
      cases rest with
      | nil => cases hrest
      | cons next rest => exact List.getLast?_cons_cons.trans hrest

theorem BeginsPredicate.append {text : List Char} (h : BeginsPredicate text) (behind : List Char) :
    BeginsPredicate (text ++ behind) := by
  obtain ⟨c, rest, rfl, hspace, hother⟩ := h
  exact ⟨c, rest ++ behind, rfl, hspace, hother⟩

theorem endsOperator_of_append {text behind : List Char} (h : endsOperator (text ++ behind)) : endsOperator text := by
  cases text with
  | nil => rfl
  | cons c text => exact h

theorem of_mem_spaces {c : Char} (hc : c ∈ spaces) :
    ¬ isLetter c ∧ ¬ isWordChar c ∧ c ≠ ':' ∧ c ∈ operatorBoundary := by
  have hall : spaces.all fun c => !isLetter c && !isWordChar c && c != ':' && operatorBoundary.contains c := by
    decide +kernel
  have hc := List.all_eq_true.mp hall c hc
  simpa [and_assoc] using hc

theorem head_of_spaces {text : List Char} (h : ∀ c ∈ text, c ∈ spaces) : ∀ c ∈ text.head?, c ∈ spaces :=
  fun c hc => h c (List.mem_of_mem_head? hc)

theorem endsOperator_spaces {text : List Char} (h : ∀ c ∈ text, c ∈ spaces) : endsOperator text := by
  cases text with
  | nil => rfl
  | cons c text =>
      have hc := (of_mem_spaces (h c List.mem_cons_self)).2.2.2
      simpa [endsOperator] using hc

theorem BeginsOperator.of_append_spaces {text behind : List Char} (h : BeginsOperator (text ++ behind))
    (hspaces : ∀ c ∈ behind, c ∈ spaces) : BeginsOperator text := by
  obtain ⟨word, kind, rest, hword, htext, hend⟩ := h
  rcases List.append_eq_append_iff.mp htext with ⟨first, hfirst, hbehind⟩ | ⟨tail, rfl, rfl⟩
  · cases first with
    | nil => exact ⟨word, kind, [], hword, by simpa using hfirst.symm, rfl⟩
    | cons c first =>
        have hletter : isLetter c := isLetter_of_mem_operatorWords hword c (by simp [hfirst])
        exact absurd hletter (of_mem_spaces (hspaces c (by simp [hbehind]))).1
  · exact ⟨word, kind, tail, hword, rfl, endsOperator_of_append hend⟩

theorem head_dropWhile_append_spaces {text behind : List Char} (h : (text.dropWhile isLetter).head? ≠ some ':')
    (hspaces : ∀ c ∈ behind, c ∈ spaces) : ((text ++ behind).dropWhile isLetter).head? ≠ some ':' := by
  rw [List.dropWhile_append]
  split
  · intro hhead
    have hmem := (List.dropWhile_suffix (l := behind) isLetter).subset (List.mem_of_mem_head? hhead)
    exact (of_mem_spaces (hspaces ':' hmem)).2.2.1 rfl
  · rename_i hsome
    rw [List.head?_append_of_ne_nil _ fun hnil => hsome (by rw [hnil]; rfl)]
    exact h

theorem exists_readString_append_spaces {quote : Char} (hquote : quote = '"' ∨ quote = '\'') {text behind : List Char}
    {error : LexicalError} (h : readString quote text = .error error) (hspaces : ∀ c ∈ behind, c ∈ spaces) :
    ∃ error, readString quote (text ++ behind) = .error error := by
  have hbehind : quote ∉ behind := by
    intro hmem
    rcases hquote with rfl | rfl <;> exact absurd (hspaces _ hmem) (by decide)
  cases hread : readString quote (text ++ behind) with
  | error error => exact ⟨error, rfl⟩
  | ok read =>
      obtain ⟨value, rest⟩ := read
      obtain ⟨body, hbody, htext⟩ := exists_body_of_readString hread
      rcases List.append_eq_append_iff.mp htext with ⟨first, _, hfirst⟩ | ⟨tail, htail, hquoted⟩
      · exact absurd (by simp [hfirst]) hbehind
      · cases tail with
        | nil =>
            rw [List.nil_append] at hquoted
            exact absurd (by rw [← hquoted]; exact List.mem_cons_self) hbehind
        | cons c tail =>
            obtain ⟨rfl, _⟩ := List.cons.inj hquoted
            rw [htail, readString_of_body hquote hbody] at h
            cases h

theorem exists_of_cons_eq_append_cons {token other : Token} {rest first more : List Token}
    (h : token :: rest = first ++ other :: more) (hne : token ≠ other) :
    ∃ tail, first = token :: tail ∧ rest = tail ++ other :: more := by
  cases first with
  | nil => exact absurd (List.cons.inj h).1 hne
  | cons head tail =>
      obtain ⟨rfl, hrest⟩ := List.cons.inj h
      exact ⟨tail, rfl, hrest⟩

theorem cases_of_colon {token : Token} {rest first more : List Token}
    (h : token :: colonToken :: rest = first ++ colonToken :: more) (htoken : token ≠ colonToken) :
    (first = [token] ∧ rest = more) ∨
      ∃ tail, first = token :: colonToken :: tail ∧ rest = tail ++ colonToken :: more := by
  obtain ⟨tail, rfl, htail⟩ := exists_of_cons_eq_append_cons h htoken
  cases tail with
  | nil => exact .inl ⟨rfl, (List.cons.inj htail).2⟩
  | cons next tail =>
      obtain ⟨rfl, hrest⟩ := List.cons.inj htail
      exact .inr ⟨tail, rfl, hrest⟩

theorem exists_of_cons_eq_append_end {token : Token} {more tokens : List Token}
    (h : token :: more = tokens ++ [Token.endOfQuery]) (htoken : token.kind ≠ .eof) :
    ∃ rest, tokens = token :: rest ∧ more = rest ++ [Token.endOfQuery] :=
  exists_of_cons_eq_append_cons h fun heq => htoken (congrArg Token.kind heq)

theorem eq_nil_of_end {tokens : List Token} (h : [Token.endOfQuery] = tokens ++ [Token.endOfQuery]) :
    tokens = [] := by
  simpa using h

theorem endsOperator_append {text : List Char} (h : endsOperator text) {behind : List Char}
    (hbehind : text = [] → endsOperator behind) : endsOperator (text ++ behind) := by
  cases text with
  | nil => exact hbehind rfl
  | cons c text => exact h

theorem ne_colonToken_of_mem_operatorWords {word : List Char} {kind : TokenKind} (h : (word, kind) ∈ operatorWords) :
    (⟨kind, String.ofList word⟩ : Token) ≠ colonToken := by
  intro heq
  obtain rfl : kind = .colon := congrArg Token.kind heq
  simpa using kind_of_mem_operatorWords h

namespace Lexes

variable {state : LexerState} {text behind : List Char} {all tokens more : List Token} {previous : TokenKind}

theorem eq_nil_of_nil (h : Lexes state [] (tokens ++ [Token.endOfQuery])) (hstate : state.BetweenOperands) :
    tokens = [] := by
  rcases hstate with rfl | rfl
  · exact eq_nil_of_end (lexChars_nil.symm.trans h.tokensOf_eq)
  · exact eq_nil_of_end (operatorTokens_nil.symm.trans h.tokensOf_eq)

/-- A text that ends with the query is lexed on where another text stands behind it. -/
theorem append (h : Lexes state text all) (hstate : state = previous.stateBehind)
    (hall : all = tokens ++ [Token.endOfQuery]) (hstays : (lastKind previous tokens).StaysBefore behind)
    (hmore : Lexes (lastKind previous tokens).stateBehind behind more) :
    Lexes state (text ++ behind) (tokens ++ more) := by
  induction h generalizing previous tokens with
  | finish =>
      obtain rfl := eq_nil_of_end hall
      exact hstate ▸ hmore
  | space hbetween hc _ ih => exact .space hbetween hc (ih hstate hall hstays hmore)
  | openParen hbetween _ ih =>
      obtain ⟨rest, rfl, hrest⟩ := exists_of_cons_eq_append_end hall (by decide)
      exact .openParen hbetween (ih rfl hrest hstays hmore)
  | closeParen hbetween _ ih =>
      obtain ⟨rest, rfl, hrest⟩ := exists_of_cons_eq_append_end hall (by decide)
      exact .closeParen hbetween (ih rfl hrest hstays hmore)
  | negation hbetween _ ih =>
      obtain ⟨rest, rfl, hrest⟩ := exists_of_cons_eq_append_end hall (by decide)
      exact .negation hbetween (ih rfl hrest hstays hmore)
  | @operator word kind text _ hword hend htext ih =>
      have hkind := kind_of_mem_operatorWords hword
      obtain ⟨rest, rfl, hrest⟩ := exists_of_cons_eq_append_end hall (by rcases hkind with rfl | rfl <;> simp)
      rw [List.append_assoc]
      refine .operator hword (endsOperator_append hend ?_) (ih ?_ hrest hstays hmore)
      · -- At the end of the text the operator is the last token.
        rintro rfl
        obtain rfl := eq_nil_of_nil (hrest ▸ htext) (.inl rfl)
        exact hstays.operator hkind
      · rcases hkind with rfl | rfl <;> rfl
  | predicate hbetween hword _ ih =>
      obtain ⟨_, rfl, hcolon⟩ := exists_of_cons_eq_append_end hall (by simp)
      obtain ⟨rest, rfl, hrest⟩ := exists_of_cons_eq_append_end hcolon (by decide)
      rw [List.append_assoc]
      exact .predicate hbetween hword (ih rfl hrest hstays hmore)
  | bareLiteral =>
      obtain ⟨_, _, hrest⟩ := exists_of_cons_eq_append_end hall (by simp)
      exact absurd hrest (by simp)
  | quoted hquote hbody _ ih =>
      obtain ⟨rest, rfl, hrest⟩ := exists_of_cons_eq_append_end hall (by simp [argToken])
      rw [List.cons_append, List.append_assoc]
      exact .quoted hquote hbody (ih rfl hrest hstays hmore)
  | unclosed =>
      obtain ⟨_, _, hrest⟩ := exists_of_cons_eq_append_end hall (by simp)
      exact absurd hrest (by simp)
  | @word word text _ hword hquote hsome hend htext ih =>
      obtain ⟨rest, rfl, hrest⟩ := exists_of_cons_eq_append_end hall (by simp [argToken])
      rw [List.append_assoc]
      refine .word hword hquote ?_ ?_ (ih rfl hrest hstays hmore)
      · rw [← List.append_assoc]
        exact List.append_ne_nil_of_left_ne_nil hsome _
      · cases text with
        | nil =>
            obtain rfl := eq_nil_of_nil (hrest ▸ htext) (.inr rfl)
            exact hstays.arg rfl
        | cons c text => exact hend
  | chain hword hquote _ ih =>
      obtain ⟨_, rfl, hcolon⟩ := exists_of_cons_eq_append_end hall (by simp [argToken])
      obtain ⟨rest, rfl, hrest⟩ := exists_of_cons_eq_append_end hcolon (by decide)
      rw [List.append_assoc]
      exact .chain hword hquote (ih rfl hrest hstays hmore)

/-- The same where no argument can go on behind the text: what is lexed behind it does not depend on the state, but
for the empty argument of a colon. -/
theorem append_completed (h : Lexes state text (tokens ++ [Token.endOfQuery])) (hstate : state = previous.stateBehind)
    (hsome : behind ≠ []) (hhead : ∀ c ∈ behind.head?, ¬ isWordChar c ∧ c ≠ ':')
    (hoperator : lastKind previous tokens = .andOp ∨ lastKind previous tokens = .orOp → endsOperator behind)
    (hmore : ∀ state : LexerState, state.BetweenOperands → Lexes state behind more) :
    Lexes state (text ++ behind) (completeTokens previous tokens ++ more) := by
  have hstays : (lastKind previous tokens).StaysBefore behind := ⟨fun _ => hhead, hoperator⟩
  rw [completeTokens_eq, List.append_assoc]
  refine h.append hstate rfl hstays ?_
  split
  · rename_i hcolon
    rw [hcolon]
    exact .word (List.forall_mem_nil _) nofun hsome hhead (hmore .operator (.inr rfl))
  · rename_i hcolon
    apply hmore
    revert hcolon
    cases lastKind previous tokens <;> simp [TokenKind.stateBehind, LexerState.BetweenOperands]

theorem append_spaces (h : Lexes state text all) (hspaces : ∀ c ∈ behind, c ∈ spaces) :
    ∃ all', Lexes state (text ++ behind) all' ∧ (EndsQuery all' → EndsQuery all) := by
  induction h with
  | finish hstate =>
      rcases hstate with (rfl | rfl) | rfl
      · exact ⟨_, lexes_start behind, fun _ => rfl⟩
      · exact ⟨_, lexes_operator behind, fun _ => rfl⟩
      · exact ⟨_, lexes_argument behind, fun _ => rfl⟩
  | space hbetween hc _ ih =>
      obtain ⟨all', h, hend⟩ := ih
      exact ⟨all', .space hbetween hc h, hend⟩
  | openParen hbetween _ ih =>
      obtain ⟨all', h, hend⟩ := ih
      exact ⟨_, .openParen hbetween h, .cons (by decide) hend⟩
  | closeParen hbetween _ ih =>
      obtain ⟨all', h, hend⟩ := ih
      exact ⟨_, .closeParen hbetween h, .cons (by decide) hend⟩
  | negation hbetween _ ih =>
      obtain ⟨all', h, hend⟩ := ih
      exact ⟨_, .negation hbetween h, .cons (by decide) hend⟩
  | @operator word kind text _ hword hend _ ih =>
      obtain ⟨all', h, hends⟩ := ih
      rw [List.append_assoc]
      refine ⟨_, .operator hword (endsOperator_append hend fun _ => endsOperator_spaces hspaces) h, .cons ?_ hends⟩
      rcases kind_of_mem_operatorWords hword with rfl | rfl <;> simp
  | predicate hbetween hword _ ih =>
      obtain ⟨all', h, hend⟩ := ih
      rw [List.append_assoc]
      exact ⟨_, .predicate hbetween hword h, .cons (by simp) (.cons (by decide) hend)⟩
  | @bareLiteral state text hbetween hbegins hcolon hoperator =>
      refine ⟨_, .bareLiteral hbetween (hbegins.append behind) (head_dropWhile_append_spaces hcolon hspaces) ?_, id⟩
      exact fun hstate h => hoperator hstate (h.of_append_spaces hspaces)
  | quoted hquote hbody _ ih =>
      obtain ⟨all', h, hend⟩ := ih
      rw [List.cons_append, List.append_assoc]
      exact ⟨_, .quoted hquote hbody h, .cons (by simp [argToken]) hend⟩
  | @unclosed quote text error hquote hread =>
      obtain ⟨error, hread⟩ := exists_readString_append_spaces hquote hread hspaces
      exact ⟨_, .unclosed hquote hread, fun h => absurd h (by simp [EndsQuery, Token.endOfQuery])⟩
  | @word word text _ hword hquote hsome hend _ ih =>
      obtain ⟨all', h, hends⟩ := ih
      rw [List.append_assoc]
      refine ⟨_, .word hword hquote ?_ ?_ h, .cons (by simp [argToken]) hends⟩
      · rw [← List.append_assoc]
        exact List.append_ne_nil_of_left_ne_nil hsome _
      · cases text with
        | nil =>
            intro c hc
            have hspace := of_mem_spaces (head_of_spaces hspaces c hc)
            exact ⟨hspace.2.1, hspace.2.2.1⟩
        | cons c text => exact hend
  | chain hword hquote _ ih =>
      obtain ⟨all', h, hend⟩ := ih
      rw [List.append_assoc]
      exact ⟨_, .chain hword hquote h, .cons (by simp [argToken]) (.cons (by decide) hend)⟩

/-- The tokens up to a colon are those of a part of the text, and the others those of an argument behind it. -/
theorem split_colon {first : List Token} (h : Lexes state text all) (hall : all = first ++ colonToken :: more) :
    ∃ before rest, text = before ++ rest ∧ Lexes state before (first ++ [colonToken, Token.endOfQuery]) ∧
      Lexes .argument rest more := by
  induction h generalizing first with
  | finish => cases first <;> simp [colonToken, Token.endOfQuery] at hall
  | space hbetween hc _ ih =>
      obtain ⟨before, rest, rfl, hbefore, hrest⟩ := ih hall
      exact ⟨_, rest, rfl, .space hbetween hc hbefore, hrest⟩
  | openParen hbetween _ ih =>
      obtain ⟨_, rfl, htokens⟩ := exists_of_cons_eq_append_cons hall (by decide)
      obtain ⟨before, rest, rfl, hbefore, hrest⟩ := ih htokens
      exact ⟨_, rest, rfl, .openParen hbetween hbefore, hrest⟩
  | closeParen hbetween _ ih =>
      obtain ⟨_, rfl, htokens⟩ := exists_of_cons_eq_append_cons hall (by decide)
      obtain ⟨before, rest, rfl, hbefore, hrest⟩ := ih htokens
      exact ⟨_, rest, rfl, .closeParen hbetween hbefore, hrest⟩
  | negation hbetween _ ih =>
      obtain ⟨_, rfl, htokens⟩ := exists_of_cons_eq_append_cons hall (by decide)
      obtain ⟨before, rest, rfl, hbefore, hrest⟩ := ih htokens
      exact ⟨_, rest, rfl, .negation hbetween hbefore, hrest⟩
  | operator hword hend _ ih =>
      obtain ⟨_, rfl, htokens⟩ := exists_of_cons_eq_append_cons hall (ne_colonToken_of_mem_operatorWords hword)
      obtain ⟨before, rest, rfl, hbefore, hrest⟩ := ih htokens
      exact ⟨_, rest, (List.append_assoc ..).symm, .operator hword (endsOperator_of_append hend) hbefore, hrest⟩
  | @predicate _ word text _ hbetween hword htext ih =>
      rcases cases_of_colon hall (by simp [colonToken]) with ⟨rfl, rfl⟩ | ⟨tail, rfl, htokens⟩
      · exact ⟨word ++ [':'], text, by simp, .predicate hbetween hword (.finish (.inr rfl)), htext⟩
      · obtain ⟨before, rest, rfl, hbefore, hrest⟩ := ih htokens
        exact ⟨word ++ ':' :: before, rest, by simp, .predicate hbetween hword hbefore, hrest⟩
  | bareLiteral => cases first <;> simp [colonToken] at hall
  | quoted hquote hbody _ ih =>
      obtain ⟨_, rfl, htokens⟩ := exists_of_cons_eq_append_cons hall (by simp [argToken, colonToken])
      obtain ⟨before, rest, rfl, hbefore, hrest⟩ := ih htokens
      exact ⟨_, rest, by simp, .quoted hquote hbody hbefore, hrest⟩
  | unclosed => cases first <;> simp [colonToken] at hall
  | @word word text _ hword hquote hsome hend htext ih =>
      obtain ⟨_, rfl, htokens⟩ := exists_of_cons_eq_append_cons hall (by simp [argToken, colonToken])
      obtain ⟨before, rest, rfl, hbefore, hrest⟩ := ih htokens
      cases before with
      | nil =>
          rw [List.append_cons] at hbefore
          exact absurd (eq_nil_of_nil hbefore (.inr rfl)) (by simp)
      | cons c before =>
          refine ⟨word ++ c :: before, rest, (List.append_assoc ..).symm, ?_, hrest⟩
          exact .word hword hquote (by simp) hend hbefore
  | @chain word text _ hword hquote htext ih =>
      rcases cases_of_colon hall (by simp [argToken, colonToken]) with ⟨rfl, rfl⟩ | ⟨tail, rfl, htokens⟩
      · exact ⟨word ++ [':'], text, by simp, .chain hword hquote (.finish (.inr rfl)), htext⟩
      · obtain ⟨before, rest, rfl, hbefore, hrest⟩ := ih htokens
        exact ⟨word ++ ':' :: before, rest, by simp, .chain hword hquote hbefore, hrest⟩

end Lexes

theorem lexChars_append_of_colon {before : List Char} {tokens : List Token}
    (hbefore : lexChars before = tokens ++ [colonToken, Token.endOfQuery]) (text : List Char) :
    lexChars (before ++ text) = tokens ++ colonToken :: argumentTokens text := by
  have hlast : lastKind .openParen (tokens ++ [colonToken]) = .colon := lastKind_append_cons _ tokens colonToken []
  have hall : tokens ++ [colonToken, Token.endOfQuery] = (tokens ++ [colonToken]) ++ [Token.endOfQuery] :=
    List.append_cons ..
  have hstays : (lastKind .openParen (tokens ++ [colonToken])).StaysBefore text := by
    rw [hlast]
    exact ⟨nofun, nofun⟩
  have hmore : Lexes (lastKind .openParen (tokens ++ [colonToken])).stateBehind text (argumentTokens text) := by
    rw [hlast]
    exact lexes_argument text
  rw [lexes_iff.mp ((lexes_iff.mpr hbefore).append rfl hall hstays hmore), List.append_assoc]
  rfl

end MediaCatalog.Query
