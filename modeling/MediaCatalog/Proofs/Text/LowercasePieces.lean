import MediaCatalog.Text.Lowercase
import Mathlib.Data.List.Basic

/-!
Pieces of texts in lowercase. What a piece becomes depends on the text around it only through its capital sigmas, and
only through those next to its ends: a text in lowercase contains the lowercase of every piece that has no open sigma,
and for every piece that has one there is a text that contains the piece and does not contain it in lowercase.
-/

namespace MediaCatalog.Text

/-- Whether a capital sigma between two texts, the first of which is read backwards, is at the end of a word. -/
def closesWord (before after : List Char) : Bool :=
  meetsCased before && !meetsCased after

theorem lowerBetween_sigma (before after : List Char) :
    lowerBetween before 'Σ' after = [if closesWord before after then 'ς' else 'σ'] :=
  rfl

theorem lowerBetween_of_ne {c : Char} (hc : c ≠ 'Σ') (before after : List Char) :
    lowerBetween before c after = lowerChar c :=
  if_neg hc

/-- What a piece becomes in a text that is brought to lowercase; the text before the piece is read backwards. -/
def lowerWithin (before after : List Char) : List Char → List Char
  | [] => []
  | c :: rest => lowerBetween before c (rest ++ after) ++ lowerWithin (c :: before) after rest

theorem lowerFrom_eq_lowerWithin (before text : List Char) : lowerFrom before text = lowerWithin before [] text := by
  induction text generalizing before with
  | nil => rfl
  | cons c rest ih => rw [lowerFrom, lowerWithin, List.append_nil, ih]

theorem lowerWithin_append (before after first second : List Char) :
    lowerWithin before after (first ++ second) =
      lowerWithin before (second ++ after) first ++ lowerWithin (first.reverse ++ before) after second := by
  induction first generalizing before with
  | nil => rfl
  | cons c first ih =>
      rw [List.cons_append, lowerWithin, lowerWithin, ih, List.reverse_cons, List.append_assoc, List.append_assoc,
        List.append_assoc]
      rfl

theorem lowerWithin_infix_lowerChars (before piece after : List Char) :
    lowerWithin before.reverse after piece <:+: lowerChars (before ++ piece ++ after) := by
  rw [lowerChars, lowerFrom_eq_lowerWithin, lowerWithin_append, lowerWithin_append, List.append_nil, List.append_nil]
  exact ⟨_, _, rfl⟩

theorem meetsCased_of_ignorable {text : List Char} (h : ∀ c ∈ text, isCaseIgnorable c) : meetsCased text = false := by
  induction text with
  | nil => rfl
  | cons c rest ih =>
      rw [meetsCased, if_pos (h c List.mem_cons_self)]
      exact ih fun c hc => h c (List.mem_cons_of_mem _ hc)

theorem meetsCased_append_of_ignorable {text : List Char} (h : ∀ c ∈ text, isCaseIgnorable c) (more : List Char) :
    meetsCased (text ++ more) = meetsCased more := by
  induction text with
  | nil => rfl
  | cons c rest ih =>
      rw [List.cons_append, meetsCased, if_pos (h c List.mem_cons_self)]
      exact ih fun c hc => h c (List.mem_cons_of_mem _ hc)

theorem meetsCased_append_of_not_ignorable {text : List Char} (h : ¬ ∀ c ∈ text, isCaseIgnorable c) (more : List Char) :
    meetsCased (text ++ more) = meetsCased text := by
  induction text with
  | nil => exact absurd (fun c hc => absurd hc List.not_mem_nil) h
  | cons c rest ih =>
      rw [List.cons_append, meetsCased, meetsCased]
      by_cases hc : isCaseIgnorable c
      · rw [if_pos hc, if_pos hc]
        refine ih fun hrest => h fun d hd => ?_
        rcases List.mem_cons.mp hd with rfl | hd
        · exact hc
        · exact hrest d hd
      · rw [if_neg hc, if_neg hc]

theorem meetsCased_append_of_meetsCased {text : List Char} (h : meetsCased text) (more : List Char) :
    meetsCased (text ++ more) := by
  rwa [meetsCased_append_of_not_ignorable]
  intro hignorable
  rw [meetsCased_of_ignorable hignorable] at h
  exact Bool.false_ne_true h

/-- Whether the capital sigmas of a piece have the same shape in a text around it as in the piece alone. -/
def KeepsSigmas (before after piece : List Char) : Prop :=
  ∀ front back, piece = front ++ 'Σ' :: back →
    closesWord (front.reverse ++ before) (back ++ after) = closesWord front.reverse back

theorem lowerWithin_eq_of_closes {piece : List Char} {before after before' after' : List Char}
    (h : ∀ front back, piece = front ++ 'Σ' :: back →
      closesWord (front.reverse ++ before) (back ++ after) = closesWord (front.reverse ++ before') (back ++ after')) :
    lowerWithin before after piece = lowerWithin before' after' piece := by
  induction piece generalizing before before' with
  | nil => rfl
  | cons c rest ih =>
      have hrest : lowerWithin (c :: before) after rest = lowerWithin (c :: before') after' rest := by
        refine ih fun front back hsplit => ?_
        have hclose := h (c :: front) back (by rw [hsplit, List.cons_append])
        rwa [List.reverse_cons, List.append_assoc, List.append_assoc] at hclose
      rw [lowerWithin, lowerWithin, hrest]
      by_cases hc : c = 'Σ'
      · subst hc
        have hclose : closesWord before (rest ++ after) = closesWord before' (rest ++ after') := h [] rest rfl
        rw [lowerBetween_sigma, lowerBetween_sigma, hclose]
      · rw [lowerBetween_of_ne hc, lowerBetween_of_ne hc]

theorem KeepsSigmas.lowerWithin_eq {before after piece : List Char} (h : KeepsSigmas before after piece) :
    lowerWithin before after piece = lowerChars piece := by
  rw [lowerChars, lowerFrom_eq_lowerWithin]
  refine lowerWithin_eq_of_closes fun front back hsplit => ?_
  rw [List.append_nil, List.append_nil]
  exact h front back hsplit

/-- Whether the first character of a text that is not case-ignorable is a capital sigma that no cased letter follows: a
letter before the text would make it the end of a word. -/
def beginsOpen (text : List Char) : Bool :=
  match text.dropWhile isCaseIgnorable with
  | 'Σ' :: back => !meetsCased back
  | _ => false

/-- Whether the last character of a text that is not case-ignorable is a capital sigma at the end of a word: a letter
behind the text would make the word go on. -/
def endsOpen (text : List Char) : Bool :=
  match text.reverse.dropWhile isCaseIgnorable with
  | 'Σ' :: front => meetsCased front
  | _ => false

def hasOpenSigma (text : List Char) : Bool :=
  beginsOpen text || endsOpen text

theorem isCaseIgnorable_sigma : isCaseIgnorable 'Σ' = false := by
  decide +kernel

theorem dropWhile_eq_sigma_iff {text back : List Char} : text.dropWhile isCaseIgnorable = 'Σ' :: back ↔
    ∃ front, text = front ++ 'Σ' :: back ∧ ∀ c ∈ front, isCaseIgnorable c := by
  constructor
  · intro h
    refine ⟨text.takeWhile isCaseIgnorable, ?_, fun c hc => List.all_eq_true.mp List.all_takeWhile c hc⟩
    rw [← h, List.takeWhile_append_dropWhile]
  · rintro ⟨front, rfl, hfront⟩
    rw [List.dropWhile_append_of_pos hfront, List.dropWhile_cons_of_neg (by rw [isCaseIgnorable_sigma]; decide)]

theorem beginsOpen_iff {text : List Char} : beginsOpen text ↔
    ∃ front back, text = front ++ 'Σ' :: back ∧ (∀ c ∈ front, isCaseIgnorable c) ∧ ¬ meetsCased back := by
  rw [beginsOpen]
  constructor
  · intro h
    split at h
    · rename_i back hdrop
      obtain ⟨front, htext, hfront⟩ := dropWhile_eq_sigma_iff.mp hdrop
      exact ⟨front, back, htext, hfront, by simpa using h⟩
    · exact absurd h Bool.false_ne_true
  · rintro ⟨front, back, htext, hfront, hback⟩
    rw [dropWhile_eq_sigma_iff.mpr ⟨front, htext, hfront⟩]
    simpa using hback

theorem endsOpen_iff {text : List Char} : endsOpen text ↔
    ∃ front back, text = front ++ 'Σ' :: back ∧ (∀ c ∈ back, isCaseIgnorable c) ∧ meetsCased front.reverse := by
  rw [endsOpen]
  constructor
  · intro h
    split at h
    · rename_i front hdrop
      obtain ⟨back, htext, hback⟩ := dropWhile_eq_sigma_iff.mp hdrop
      refine ⟨front.reverse, back.reverse, ?_, fun c hc => hback c (List.mem_reverse.mp hc), ?_⟩
      · rw [← List.reverse_reverse text, htext]
        simp
      · rwa [List.reverse_reverse]
    · exact absurd h Bool.false_ne_true
  · rintro ⟨front, back, rfl, hback, hfront⟩
    have hdrop : (front ++ 'Σ' :: back).reverse.dropWhile isCaseIgnorable = 'Σ' :: front.reverse :=
      dropWhile_eq_sigma_iff.mpr ⟨back.reverse, by simp, fun c hc => hback c (List.mem_reverse.mp hc)⟩
    rw [hdrop]
    exact hfront

theorem keepsSigmas_of_not_hasOpenSigma {piece : List Char} (h : ¬ hasOpenSigma piece) (before after : List Char) :
    KeepsSigmas before after piece := by
  rw [hasOpenSigma, Bool.or_eq_true, not_or] at h
  rintro front back rfl
  by_cases hfront : ∀ c ∈ front, isCaseIgnorable c
  · -- No letter comes before the sigma in the piece, so one must follow.
    have hback : meetsCased back := by
      by_contra hback
      exact h.1 (beginsOpen_iff.mpr ⟨front, back, rfl, hfront, hback⟩)
    rw [closesWord, closesWord, hback, meetsCased_append_of_meetsCased hback, Bool.not_true, Bool.and_false,
      Bool.and_false]
  · have hreverse : ¬ ∀ c ∈ front.reverse, isCaseIgnorable c :=
      fun hall => hfront fun c hc => hall c (List.mem_reverse.mpr hc)
    rw [closesWord, closesWord, meetsCased_append_of_not_ignorable hreverse]
    by_cases hback : ∀ c ∈ back, isCaseIgnorable c
    · have hbefore : meetsCased front.reverse = false := by
        by_contra hmeets
        exact h.2 (endsOpen_iff.mpr ⟨front, back, rfl, hback, by simpa using hmeets⟩)
      rw [hbefore, Bool.false_and, Bool.false_and]
    · rw [meetsCased_append_of_not_ignorable hback]

/-- The more sigmas are at the end of a word, the more of them are final and the fewer are not. -/
theorem count_lowerWithin_le (piece before after before' after' : List Char)
    (h : ∀ front back, piece = front ++ 'Σ' :: back →
      closesWord (front.reverse ++ before) (back ++ after) → closesWord (front.reverse ++ before') (back ++ after')) :
    (lowerWithin before after piece).count 'ς' ≤ (lowerWithin before' after' piece).count 'ς' ∧
      (lowerWithin before' after' piece).count 'σ' ≤ (lowerWithin before after piece).count 'σ' := by
  induction piece generalizing before before' with
  | nil => exact ⟨Nat.le_refl _, Nat.le_refl _⟩
  | cons c rest ih =>
      have hrest := ih (c :: before) (c :: before') fun front back hsplit hclose => by
        have himp := h (c :: front) back (by rw [hsplit, List.cons_append])
        rw [List.reverse_cons, List.append_assoc, List.append_assoc] at himp
        exact himp hclose
      rw [lowerWithin, lowerWithin, List.count_append, List.count_append, List.count_append, List.count_append]
      have hfirst : (lowerBetween before c (rest ++ after)).count 'ς' ≤
          (lowerBetween before' c (rest ++ after')).count 'ς' ∧
          (lowerBetween before' c (rest ++ after')).count 'σ' ≤
          (lowerBetween before c (rest ++ after)).count 'σ' := by
        by_cases hc : c = 'Σ'
        · subst hc
          have hclose : closesWord before (rest ++ after) → closesWord before' (rest ++ after') := h [] rest rfl
          rw [lowerBetween_sigma, lowerBetween_sigma]
          cases hwords : closesWord before (rest ++ after)
          · cases closesWord before' (rest ++ after') <;> decide
          · rw [hclose hwords]
            exact ⟨Nat.le_refl _, Nat.le_refl _⟩
        · rw [lowerBetween_of_ne hc, lowerBetween_of_ne hc]
          exact ⟨Nat.le_refl _, Nat.le_refl _⟩
      exact ⟨Nat.add_le_add hfirst.1 hrest.1, Nat.add_le_add hfirst.2 hrest.2⟩

theorem count_lowerWithin_lt {front back before after before' after' : List Char}
    (h : ∀ first second, front ++ 'Σ' :: back = first ++ 'Σ' :: second →
      closesWord (first.reverse ++ before) (second ++ after) →
      closesWord (first.reverse ++ before') (second ++ after'))
    (hopen : ¬ closesWord (front.reverse ++ before) (back ++ after))
    (hclosed : closesWord (front.reverse ++ before') (back ++ after')) :
    (lowerWithin before after (front ++ 'Σ' :: back)).count 'ς' <
        (lowerWithin before' after' (front ++ 'Σ' :: back)).count 'ς' ∧
      (lowerWithin before' after' (front ++ 'Σ' :: back)).count 'σ' <
        (lowerWithin before after (front ++ 'Σ' :: back)).count 'σ' := by
  have hfront := count_lowerWithin_le front before ('Σ' :: back ++ after) before' ('Σ' :: back ++ after')
    fun first second hsplit hclose => by
      have himp := h first (second ++ 'Σ' :: back) (by rw [hsplit, List.append_assoc, List.cons_append])
      rw [List.append_assoc, List.append_assoc] at himp
      exact himp hclose
  have hback := count_lowerWithin_le back ('Σ' :: (front.reverse ++ before)) after
    ('Σ' :: (front.reverse ++ before')) after' fun first second hsplit hclose => by
      have himp := h (front ++ 'Σ' :: first) second (by rw [hsplit, List.append_assoc, List.cons_append])
      rw [List.reverse_append, List.reverse_cons, List.append_assoc, List.append_assoc, List.append_assoc,
        List.append_assoc] at himp
      exact himp hclose
  rw [lowerWithin_append, lowerWithin_append, lowerWithin, lowerWithin, lowerBetween_sigma, lowerBetween_sigma,
    if_neg hopen, if_pos hclosed]
  simp only [List.count_append]
  have hshapes : ['σ'].count 'ς' = 0 ∧ ['ς'].count 'ς' = 1 ∧ ['σ'].count 'σ' = 1 ∧ ['ς'].count 'σ' = 0 := by decide
  omega

theorem lowerBetween_letter (before after : List Char) : lowerBetween before 'a' after = ['a'] := by
  rw [lowerBetween_of_ne (by decide)]
  decide

/-- Behind a letter an open sigma at the beginning becomes final. -/
theorem not_infix_behind_letter {piece : List Char} (h : beginsOpen piece) :
    ¬ lowerChars piece <:+: lowerChars ('a' :: piece) := by
  obtain ⟨front, back, rfl, hfront, hback⟩ := beginsOpen_iff.mp h
  have hreverse : ∀ c ∈ front.reverse, isCaseIgnorable c := fun c hc => hfront c (List.mem_reverse.mp hc)
  have hmore : ∀ first second : List Char, closesWord (first.reverse ++ []) (second ++ []) →
      closesWord (first.reverse ++ ['a']) (second ++ []) := by
    intro first second hclose
    rw [List.append_nil, closesWord, Bool.and_eq_true] at hclose
    rw [closesWord, Bool.and_eq_true]
    exact ⟨meetsCased_append_of_meetsCased hclose.1 _, hclose.2⟩
  have hopen : ¬ closesWord (front.reverse ++ []) (back ++ []) := by
    rw [List.append_nil, closesWord, meetsCased_of_ignorable hreverse]
    exact Bool.false_ne_true
  have hclosed : closesWord (front.reverse ++ ['a']) (back ++ []) := by
    rw [closesWord, meetsCased_append_of_ignorable hreverse, List.append_nil, Bool.and_eq_true]
    exact ⟨by decide, by simpa using hback⟩
  have hcount := (count_lowerWithin_lt (fun first second _ => hmore first second) hopen hclosed).2
  intro hinfix
  have hle := hinfix.sublist.count_le 'σ'
  rw [lowerChars, lowerChars, lowerFrom, lowerFrom_eq_lowerWithin, lowerFrom_eq_lowerWithin, lowerBetween_letter,
    List.singleton_append, List.count_cons_of_ne (by decide)] at hle
  omega

theorem not_infix_before_letter {piece : List Char} (h : endsOpen piece) :
    ¬ lowerChars piece <:+: lowerChars (piece ++ ['a']) := by
  obtain ⟨front, back, rfl, hback, hfront⟩ := endsOpen_iff.mp h
  have hless : ∀ first second : List Char, closesWord (first.reverse ++ []) (second ++ ['a']) →
      closesWord (first.reverse ++ []) (second ++ []) := by
    intro first second hclose
    rw [closesWord, Bool.and_eq_true, Bool.not_eq_true'] at hclose
    rw [closesWord, Bool.and_eq_true, Bool.not_eq_true', List.append_nil second]
    refine ⟨hclose.1, Bool.eq_false_iff.mpr fun hmeets => ?_⟩
    exact Bool.eq_false_iff.mp hclose.2 (meetsCased_append_of_meetsCased hmeets _)
  have hopen : ¬ closesWord (front.reverse ++ []) (back ++ ['a']) := by
    rw [closesWord, meetsCased_append_of_ignorable hback, Bool.and_eq_true]
    exact fun h => absurd h.2 (by decide)
  have hclosed : closesWord (front.reverse ++ []) (back ++ []) := by
    rw [closesWord, List.append_nil, List.append_nil, meetsCased_of_ignorable hback, hfront]
    rfl
  have hcount := (count_lowerWithin_lt (fun first second _ => hless first second) hopen hclosed).1
  intro hinfix
  have hle := hinfix.sublist.count_le 'ς'
  have hend : lowerWithin (front ++ 'Σ' :: back).reverse [] ['a'] = ['a'] := by
    rw [lowerWithin, lowerBetween_letter]
    rfl
  have hletter : ['a'].count 'ς' = 0 := by decide
  rw [lowerChars, lowerChars, lowerFrom_eq_lowerWithin, lowerFrom_eq_lowerWithin,
    lowerWithin_append [] [] (front ++ 'Σ' :: back) ['a'], List.append_nil, List.append_nil, hend, List.count_append,
    hletter] at hle
  omega

theorem exists_not_infix_lowerChars {piece : List Char} (h : hasOpenSigma piece) :
    ∃ text, piece <:+: text ∧ ¬ lowerChars piece <:+: lowerChars text := by
  rw [hasOpenSigma, Bool.or_eq_true] at h
  rcases h with h | h
  · exact ⟨'a' :: piece, (List.suffix_cons 'a' piece).isInfix, not_infix_behind_letter h⟩
  · exact ⟨piece ++ ['a'], (List.prefix_append piece ['a']).isInfix, not_infix_before_letter h⟩

end MediaCatalog.Text
