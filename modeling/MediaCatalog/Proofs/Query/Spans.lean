import MediaCatalog.Proofs.Query.Lexing

/-!
Where tokens come from. Each token but an error is cut from a stretch of the query that no other token has a part
in, these stretches stand in the order of the tokens, and nothing but white space lies between them. A quoted
argument takes up its quotes and backslashes too; any other token is the text of its stretch.
-/

namespace MediaCatalog.Query

open Text

/-- Whether a token is cut from a stretch of text. An argument that is not quoted does not begin like one that is. -/
inductive Token.CutFrom : Token → List Char → Prop where
  | verbatim {kind : TokenKind} {stretch : List Char}
      (hquote : kind = .arg → ∀ c ∈ stretch.head?, ¬ (c = '"' ∨ c = '\'')) :
      CutFrom ⟨kind, String.ofList stretch⟩ stretch
  | quoted {quote : Char} {body value : List Char} (hquote : quote = '"' ∨ quote = '\'')
      (hbody : QuotedBody quote body value) :
      CutFrom ⟨.arg, String.ofList value⟩ (quote :: (body ++ [quote]))

/-- The place of a token in a text: what is skipped before it, and the stretch that it is cut from. -/
structure Place where
  skipped : List Char
  stretch : List Char

def Place.text (place : Place) : List Char :=
  place.skipped ++ place.stretch

/-- Whether a text is made up of the places of some tokens and a rest, which is white space if the text was read to
its end. An error has no place. -/
def Covers (tokens : List Token) (text : List Char) : Prop :=
  ∃ (places : List Place) (rest : List Char),
    text = places.flatMap Place.text ++ rest ∧
    (∀ place ∈ places, ∀ c ∈ place.skipped, c ∈ spaces) ∧
    List.Forall₂ (fun token place => token.CutFrom place.stretch)
      (tokens.filter fun token => token.kind ≠ .error) places ∧
    ((∃ token ∈ tokens, token.kind = .eof) → ∀ c ∈ rest, c ∈ spaces)

namespace Covers

variable {tokens : List Token} {text : List Char}

theorem error (message : String) (text : List Char) : Covers [⟨.error, message⟩] text := by
  refine ⟨[], text, rfl, by simp, .nil, ?_⟩
  rintro ⟨token, htoken, heof⟩
  obtain rfl := List.mem_singleton.mp htoken
  cases heof

theorem endOfQuery (h : ∀ c ∈ text, c ∈ spaces) : Covers [Token.endOfQuery] text := by
  refine ⟨[⟨text, []⟩], [], by simp [Place.text], by simpa using h, ?_, by simp⟩
  exact .cons (.verbatim (by simp)) .nil

/-- White space before a text belongs to the place of the first token. -/
theorem skipChar {c : Char} (hc : c ∈ spaces) (h : Covers tokens text) : Covers tokens (c :: text) := by
  obtain ⟨places, rest, rfl, hspaces, hcut, hrest⟩ := h
  cases places with
  | nil => exact ⟨[], c :: rest, rfl, hspaces, hcut, fun heof => List.forall_mem_cons.mpr ⟨hc, hrest heof⟩⟩
  | cons place places =>
      obtain ⟨hplace, hplaces⟩ := List.forall_mem_cons.mp hspaces
      refine ⟨⟨c :: place.skipped, place.stretch⟩ :: places, rest, rfl, ?_, ?_, hrest⟩
      · exact List.forall_mem_cons.mpr ⟨List.forall_mem_cons.mpr ⟨hc, hplace⟩, hplaces⟩
      · obtain ⟨token, tokens, hfirst, hcut, htokens⟩ := List.forall₂_cons_right_iff.mp hcut
        rw [htokens]
        exact .cons hfirst hcut

theorem cons {token : Token} {stretch : List Char} (h : Covers tokens text) (heof : token.kind ≠ .eof)
    (herror : token.kind ≠ .error) (hcut : token.CutFrom stretch) : Covers (token :: tokens) (stretch ++ text) := by
  obtain ⟨places, rest, rfl, hspaces, hplaces, hrest⟩ := h
  refine ⟨⟨[], stretch⟩ :: places, rest, by simp [Place.text], ?_, ?_, ?_⟩
  · exact List.forall_mem_cons.mpr ⟨by simp, hspaces⟩
  · rw [List.filter_cons_of_pos (by simpa using herror)]
    exact .cons hcut hplaces
  · rintro ⟨other, hother, hend⟩
    rcases List.mem_cons.mp hother with rfl | hother
    · exact absurd hend heof
    · exact hrest ⟨other, hother, hend⟩

theorem consChar {token : Token} {c : Char} (h : Covers tokens text) (heof : token.kind ≠ .eof)
    (herror : token.kind ≠ .error) (hcut : token.CutFrom [c]) : Covers (token :: tokens) (c :: text) :=
  h.cons heof herror hcut

theorem colon (h : Covers tokens text) : Covers (colonToken :: tokens) (':' :: text) :=
  h.consChar nofun nofun (.verbatim nofun)

end Covers

/-- Each rule cuts one token off the text or two, or skips white space. -/
theorem Lexes.covers {state : LexerState} {text : List Char} {tokens : List Token} (h : Lexes state text tokens) :
    Covers tokens text := by
  induction h with
  | finish => exact .endOfQuery (by simp)
  | space _ hc _ ih => exact ih.skipChar hc
  | openParen _ _ ih => exact ih.consChar nofun nofun (.verbatim nofun)
  | closeParen _ _ ih => exact ih.consChar nofun nofun (.verbatim nofun)
  | negation _ _ ih => exact ih.consChar nofun nofun (.verbatim nofun)
  | operator hword _ _ ih =>
      rcases kind_of_mem_operatorWords hword with rfl | rfl
      · exact ih.cons nofun nofun (.verbatim nofun)
      · exact ih.cons nofun nofun (.verbatim nofun)
  | predicate _ _ _ ih => exact ih.colon.cons nofun nofun (.verbatim nofun)
  | bareLiteral => exact .error _ _
  | @quoted quote body value text _ hquote hbody _ ih =>
      have htext : quote :: (body ++ quote :: text) = (quote :: (body ++ [quote])) ++ text := by simp
      rw [htext]
      exact ih.cons nofun nofun (.quoted hquote hbody)
  | unclosed => exact .error _ _
  | word _ hquote _ _ _ ih => exact ih.cons nofun nofun (.verbatim fun _ => hquote)
  | chain _ hquote _ ih => exact ih.colon.cons nofun nofun (.verbatim fun _ => hquote)

/-- The lexer loses nothing of a query. -/
theorem lex_covers (query : String) :
    ∃ (places : List Place) (rest : List Char),
      query.toList = places.flatMap Place.text ++ rest ∧
      (∀ place ∈ places, ∀ c ∈ place.skipped, c ∈ spaces) ∧
      List.Forall₂ (fun token place => token.CutFrom place.stretch)
        ((lex query).filter fun token => token.kind ≠ .error) places ∧
      (∀ last ∈ (lex query).getLast?, last.kind = .eof → ∀ c ∈ rest, c ∈ spaces) := by
  obtain ⟨places, rest, hquery, hspaces, hcut, hrest⟩ := (lexes_start query.toList).covers
  refine ⟨places, rest, hquery, hspaces, hcut, ?_⟩
  intro last hlast heof
  exact hrest ⟨last, List.mem_of_getLast? hlast, heof⟩

end MediaCatalog.Query
