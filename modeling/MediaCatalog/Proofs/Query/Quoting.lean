import MediaCatalog.Proofs.Outcomes
import MediaCatalog.Query.Lexer
import Mathlib.Algebra.Group.Nat.Even

/-!
Quoted texts. A backslash is text of its own unless it stands before a character that a backslash can escape,
and then it takes another backslash to be one. So a text can be quoted if in all the places where such a
character or the closing quote comes next, the backslashes before it are even in number.
-/

namespace MediaCatalog.Query

/-- A text in which an even number of backslashes stands before each character that loses the one before it,
and at the end. -/
def HasQuotedSpelling (text : List Char) : Prop :=
  ∀ before n behind, text = before ++ (List.replicate n '\\' ++ behind) →
    before.getLast? ≠ some '\\' → (∀ c ∈ behind.head?, c ∈ quoteEscapes) → Even n

def escaped (text : List Char) : List Char :=
  text.flatMap fun c => if c = '"' then ['\\', '"'] else [c]

theorem escaped_cons (c : Char) (text : List Char) :
    escaped (c :: text) = (if c = '"' then ['\\', '"'] else [c]) ++ escaped text :=
  rfl

theorem escaped_of_not_mem {text : List Char} (h : '"' ∉ text) : escaped text = text := by
  induction text with
  | nil => rfl
  | cons c text ih =>
      rw [List.mem_cons, not_or] at h
      rw [escaped_cons, if_neg (Ne.symm h.1), ih h.2, List.singleton_append]

namespace HasQuotedSpelling

theorem of_append {first rest : List Char} (h : HasQuotedSpelling (first ++ rest))
    (hfirst : first.getLast? ≠ some '\\') : HasQuotedSpelling rest := by
  intro before n behind hrest hbefore hbehind
  refine h (first ++ before) n behind (by rw [hrest, List.append_assoc]) ?_ hbehind
  rw [List.getLast?_append]
  cases hlast : before.getLast? with
  | none => simpa using hfirst
  | some c => simpa [hlast] using hbefore

theorem of_not_mem {text : List Char} (h : '\\' ∉ text) : HasQuotedSpelling text := by
  intro before n behind htext _ _
  cases n with
  | zero => exact Even.zero
  | succ n => exact absurd (by simp [htext]) h

theorem of_cons {c : Char} {rest : List Char} (h : HasQuotedSpelling (c :: rest)) (hc : c ≠ '\\') :
    HasQuotedSpelling rest :=
  @of_append [c] rest h (by simpa using hc)

theorem of_backslashes {rest : List Char} (h : HasQuotedSpelling ('\\' :: '\\' :: rest)) :
    HasQuotedSpelling rest := by
  intro before n behind hrest hbefore hbehind
  cases before with
  | nil =>
      have heven := h [] (n + 2) behind (by rw [hrest]; rfl) (by simp) hbehind
      exact (Nat.even_add.mp heven).mpr ⟨1, rfl⟩
  | cons c before =>
      refine h ('\\' :: '\\' :: c :: before) n behind (by rw [hrest]; rfl) ?_ hbehind
      simpa using hbefore

theorem cons {c : Char} {rest : List Char} (h : HasQuotedSpelling rest) (hc : c ≠ '\\') :
    HasQuotedSpelling (c :: rest) := by
  intro before n behind htext hbefore hbehind
  cases before with
  | nil =>
      cases n with
      | zero => exact Even.zero
      | succ n => exact absurd (List.cons.inj htext).1 hc
  | cons first before =>
      refine h before n behind (List.cons.inj htext).2 ?_ hbehind
      exact fun hlast => hbefore (by rw [List.getLast?_cons, hlast]; rfl)

theorem backslashes {rest : List Char} (h : HasQuotedSpelling rest) :
    HasQuotedSpelling ('\\' :: '\\' :: rest) := by
  intro before n behind htext hbefore hbehind
  match before, n with
  | [], 0 => exact Even.zero
  | [], 1 =>
      obtain rfl : '\\' :: rest = behind := (List.cons.inj htext).2
      exact absurd (hbehind '\\' rfl) (by decide)
  | [], n + 2 =>
      have heven := h [] n behind (List.cons.inj (List.cons.inj htext).2).2 (by simp) hbehind
      exact Nat.even_add.mpr ⟨fun _ => ⟨1, rfl⟩, fun _ => heven⟩
  | [c], n =>
      obtain rfl := (List.cons.inj htext).1
      exact absurd rfl hbefore
  | c :: next :: before, n =>
      obtain rfl := (List.cons.inj (List.cons.inj htext).2).1
      refine h before n behind (List.cons.inj (List.cons.inj htext).2).2 ?_ hbehind
      exact fun hlast => hbefore (by rw [List.getLast?_cons, List.getLast?_cons, hlast]; rfl)

/-- One backslash is kept before a character that it does not stand for. -/
theorem backslash {c : Char} {rest : List Char} (h : HasQuotedSpelling (c :: rest)) (hc : c ≠ '\\')
    (hescape : c ∉ quoteEscapes) : HasQuotedSpelling ('\\' :: c :: rest) := by
  intro before n behind htext hbefore hbehind
  match before, n with
  | [], 0 => exact Even.zero
  | [], 1 =>
      obtain rfl : c :: rest = behind := (List.cons.inj htext).2
      exact absurd (hbehind c rfl) hescape
  | [], n + 2 => exact absurd (List.cons.inj (List.cons.inj htext).2).1 hc
  | first :: before, n =>
      obtain ⟨rfl, hrest⟩ := List.cons.inj htext
      refine h before n behind hrest ?_ hbehind
      exact fun hlast => hbefore (by rw [List.getLast?_cons, hlast]; rfl)

theorem not_mem_quoteEscapes {c : Char} {rest : List Char} (h : HasQuotedSpelling ('\\' :: c :: rest)) :
    c ∉ quoteEscapes := by
  intro hc
  have heven := h [] 1 (c :: rest) rfl (by simp) (by simpa using hc)
  exact absurd heven (by decide)

theorem ne_backslash (h : HasQuotedSpelling ['\\']) : False :=
  absurd (h [] 1 [] rfl (by simp) (by simp)) (by decide)

end HasQuotedSpelling

section Readers

variable {quote c : Char}

theorem readString_plain (hbackslash : c ≠ '\\') (hquote : c ≠ quote) (text : List Char) :
    readString quote (c :: text) =
      (readString quote text).map fun (value, rest) => (c :: value, rest) := by
  rw [readString.eq_def]
  simp only [if_neg hbackslash, if_neg hquote]

theorem readString_backslash (c : Char) (text : List Char) :
    readString quote ('\\' :: c :: text) =
      (readString quote text).map fun (value, rest) => (unescape c ++ value, rest) := by
  rw [readString, if_pos rfl]

theorem readString_close (hbackslash : quote ≠ '\\') (text : List Char) :
    readString quote (quote :: text) = .ok ([], text) := by
  rw [readString.eq_def]
  simp only [if_neg hbackslash, if_true]

end Readers

/-- What stands between two quotes, and the value that is meant. The quote itself only stands behind a backslash,
which is left out of the value if it stands before a quote, a space or a tab. -/
inductive QuotedBody (quote : Char) : List Char → List Char → Prop where
  | nil : QuotedBody quote [] []
  | plain {c : Char} {body value : List Char} (hbackslash : c ≠ '\\') (hquote : c ≠ quote)
      (h : QuotedBody quote body value) : QuotedBody quote (c :: body) (c :: value)
  | dropped {c : Char} {body value : List Char} (hc : c = '"' ∨ c = '\'' ∨ c = ' ' ∨ c = '\t')
      (h : QuotedBody quote body value) : QuotedBody quote ('\\' :: c :: body) (c :: value)
  | kept {c : Char} {body value : List Char} (hc : ¬ (c = '"' ∨ c = '\'' ∨ c = ' ' ∨ c = '\t'))
      (h : QuotedBody quote body value) : QuotedBody quote ('\\' :: c :: body) ('\\' :: c :: value)

theorem QuotedBody.backslash {quote c : Char} {body value : List Char} (h : QuotedBody quote body value) :
    QuotedBody quote ('\\' :: c :: body) (unescape c ++ value) := by
  have hmem : quoteEscapes.contains c = true ↔ c = '"' ∨ c = '\'' ∨ c = ' ' ∨ c = '\t' := by
    simp [quoteEscapes]
  rw [unescape]
  split_ifs with hc
  · exact .dropped (hmem.mp hc) h
  · exact .kept (fun hescape => hc (hmem.mpr hescape)) h

theorem exists_body_of_readString {quote : Char} {text value rest : List Char}
    (h : readString quote text = .ok (value, rest)) :
    ∃ body, QuotedBody quote body value ∧ text = body ++ quote :: rest := by
  fun_induction readString quote text generalizing value with
  | case1 => cases h
  | case2 => cases h
  | case3 escaped text ih =>
      obtain ⟨⟨inner, _⟩, hinner, heq⟩ := Except.map_eq_ok_iff.mp h
      cases heq
      obtain ⟨body, hbody, rfl⟩ := ih hinner
      exact ⟨'\\' :: escaped :: body, hbody.backslash, rfl⟩
  | case4 text _ =>
      cases h
      exact ⟨[], .nil, rfl⟩
  | case5 c text hbackslash hquote ih =>
      obtain ⟨⟨inner, _⟩, hinner, heq⟩ := Except.map_eq_ok_iff.mp h
      cases heq
      obtain ⟨body, hbody, rfl⟩ := ih hinner
      exact ⟨c :: body, .plain hbackslash hquote hbody, rfl⟩

theorem readString_of_body {quote : Char} (hquote : quote = '"' ∨ quote = '\'') {body value : List Char}
    (h : QuotedBody quote body value) (rest : List Char) :
    readString quote (body ++ quote :: rest) = .ok (value, rest) := by
  have hne : quote ≠ '\\' := by rcases hquote with rfl | rfl <;> decide
  induction h with
  | nil => exact readString_close hne rest
  | plain hbackslash hquote _ ih =>
      rw [List.cons_append, readString_plain hbackslash hquote, ih]
      rfl
  | dropped hc _ ih =>
      rw [List.cons_append, List.cons_append, readString_backslash, ih]
      rcases hc with rfl | rfl | rfl | rfl <;> rfl
  | @kept c _ _ hc _ ih =>
      rw [List.cons_append, List.cons_append, readString_backslash, ih, unescape,
        if_neg (by simpa [quoteEscapes] using hc)]
      rfl

theorem QuotedBody.hasQuotedSpelling {quote : Char} {body value : List Char} (h : QuotedBody quote body value) :
    HasQuotedSpelling value := by
  induction h with
  | nil => exact .of_not_mem (by simp)
  | plain hbackslash _ _ ih => exact ih.cons hbackslash
  | @dropped c _ _ hc _ ih =>
      refine ih.cons ?_
      rcases hc with rfl | rfl | rfl | rfl <;> decide
  | @kept c _ _ hc _ ih =>
      -- A backslash that is kept stands before a character of its own or before another backslash.
      by_cases hbackslash : c = '\\'
      · rw [hbackslash]
        exact ih.backslashes
      · exact (ih.cons hbackslash).backslash hbackslash (by simpa [quoteEscapes] using hc)

theorem HasQuotedSpelling.quotedBody {value : List Char} (h : HasQuotedSpelling value) :
    QuotedBody '"' (escaped value) value := by
  obtain ⟨n, hn⟩ : ∃ n, value.length = n := ⟨_, rfl⟩
  induction n using Nat.strongRecOn generalizing value with
  | _ n ih =>
      cases value with
      | nil => exact .nil
      | cons c value =>
          by_cases hbackslash : c = '\\'
          · subst hbackslash
            -- A backslash is read together with the character behind it.
            cases value with
            | nil => exact h.ne_backslash.elim
            | cons c value =>
                have hrest : HasQuotedSpelling value := by
                  by_cases hc : c = '\\'
                  · subst hc
                    exact h.of_backslashes
                  · exact @HasQuotedSpelling.of_append ['\\', c] value h (by simpa using hc)
                have hescape := h.not_mem_quoteEscapes
                have hquote : c ≠ '"' := by
                  rintro rfl
                  exact hescape (by decide)
                rw [escaped_cons, escaped_cons, if_neg (by decide), if_neg hquote]
                exact .kept (by simpa [quoteEscapes] using hescape)
                  (ih value.length (by simp at hn; omega) hrest rfl)
          · have hbody := ih value.length (by simp at hn; omega) (h.of_cons hbackslash) rfl
            rw [escaped_cons]
            split
            · rename_i hquote
              rw [hquote]
              exact .dropped (.inl rfl) hbody
            · rename_i hquote
              exact .plain hbackslash hquote hbody

theorem readString_escaped {value : List Char} (h : HasQuotedSpelling value) (rest : List Char) :
    readString '"' (escaped value ++ '"' :: rest) = .ok (value, rest) :=
  readString_of_body (.inl rfl) h.quotedBody rest

end MediaCatalog.Query
