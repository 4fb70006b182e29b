import MediaCatalog.Proofs.Calendar.StampGrammar
import MediaCatalog.Proofs.Calendar.WrittenRead

/-!
The stamps of cameras are read by their grammar: a text is read exactly if it spells a stamp whose numbers are those of a
date and a time of day. No text has two readings. In particular every date and time of day in whole seconds is read back
from its stamp.
-/

namespace MediaCatalog.Calendar.CameraStamp

open MediaCatalog.Text

def DigitsOnly (p : Char → Bool) : Prop :=
  ∀ c, p c → isDecimalDigit c

theorem digitsOnly_isDecimalDigit : DigitsOnly isDecimalDigit :=
  fun _ => id

theorem digitsOnly_digitBetween {low high : Char} (hlow : '0' ≤ low) (hhigh : high ≤ '9') :
    DigitsOnly (digitBetween low high) := by
  intro c h
  rw [digitBetween, Bool.and_eq_true, decide_eq_true_eq, decide_eq_true_eq] at h
  rw [isDecimalDigit, digitValue_eq_some ⟨Char.le_trans hlow h.1, Char.le_trans h.2 hhigh⟩]
  rfl

theorem digits_of_forall₂ {form : Form} {word : List Char} (hform : ∀ p ∈ form, DigitsOnly p)
    (h : List.Forall₂ (fun p c => p c) form word) : ∀ c ∈ word, isDecimalDigit c := by
  induction h with
  | nil => simp
  | cons hc _ ih =>
      rw [List.forall_mem_cons] at hform ⊢
      exact ⟨hform.1 _ hc, ih hform.2⟩

theorem digits_of_fits {forms : List Form} {word : List Char} (hforms : ∀ form ∈ forms, ∀ p ∈ form, DigitsOnly p)
    (h : Fits forms word) : ∀ c ∈ word, isDecimalDigit c := by
  obtain ⟨form, hform, h⟩ := h
  exact digits_of_forall₂ (hforms form hform) h

theorem digitsOnly_forms : ∀ forms ∈ [yearForms, monthForms, hourForms, minuteForms],
    ∀ form ∈ forms, ∀ p ∈ form, DigitsOnly p := by
  simp (disch := decide) only [yearForms, monthForms, hourForms, minuteForms, List.forall_mem_cons, List.not_mem_nil,
    false_implies, implies_true, and_true, digitsOnly_isDecimalDigit, digitsOnly_digitBetween]

theorem exists_cons_of_fits_day {word : List Char} (h : Fits dayForms word) :
    ∃ c digits, word = c :: digits ∧ ∀ d ∈ digits, isDecimalDigit d := by
  have htail : ∀ form ∈ dayForms, ∃ p tail, form = p :: tail ∧ ∀ q ∈ tail, DigitsOnly q := by
    simp (disch := decide) [dayForms, digitsOnly_isDecimalDigit, digitsOnly_digitBetween]
  obtain ⟨form, hform, h⟩ := h
  obtain ⟨p, tail, rfl, hdigits⟩ := htail form hform
  cases h with
  | cons _ h => exact ⟨_, _, rfl, digits_of_forall₂ hdigits h⟩

theorem digitValue_of_isBlank {c : Char} (h : isBlank c) : digitValue? c = none := by
  rw [isBlank] at h
  rw [digitValue?]
  generalize c.toNat = n at h
  simp only [Bool.or_eq_true, Bool.and_eq_true, decide_eq_true_eq, beq_iff_eq] at h
  have hcases : 0x9 ≤ n ∧ n ≤ 0xD ∨ 0x1C ≤ n ∧ n ≤ 0x20 ∨ 0x2000 ≤ n ∧ n ≤ 0x200A ∨
      n ∈ [0x85, 0xA0, 0x1680, 0x2028, 0x2029, 0x202F, 0x205F, 0x3000] := by
    simp only [List.mem_cons, List.not_mem_nil, or_false]
    omega
  rcases hcases with ⟨hlow, hhigh⟩ | ⟨hlow, hhigh⟩ | ⟨hlow, hhigh⟩ | hmem
  · interval_cases n <;> rfl
  · interval_cases n <;> rfl
  · interval_cases n <;> rfl
  · clear h
    revert n
    decide

theorem isBlank_of_isDecimalDigit {c : Char} (h : isDecimalDigit c) : isBlank c = false := by
  by_contra hblank
  rw [isDecimalDigit, digitValue_of_isBlank (Bool.not_eq_false _ ▸ hblank)] at h
  cases h

theorem isDecimalDigit_of_isBlank {c : Char} (h : isBlank c) : isDecimalDigit c = false := by
  rw [isDecimalDigit, digitValue_of_isBlank h]
  rfl

/-- Where a text has two beginnings of one kind of characters, and neither can be longer, they are the same. -/
theorem cut_eq {p : Char → Bool} {first second tail tail' : List Char} (hfirst : ∀ c ∈ first, p c)
    (hsecond : ∀ c ∈ second, p c) (htail : tail.takeWhile p = []) (htail' : tail'.takeWhile p = [])
    (h : first ++ tail = second ++ tail') : first = second ∧ tail = tail' := by
  have hword := congrArg (List.takeWhile p) h
  rw [List.takeWhile_append_of_pos hfirst, htail, List.takeWhile_append_of_pos hsecond, htail', List.append_nil,
    List.append_nil] at hword
  subst hword
  exact ⟨rfl, List.append_cancel_left h⟩

theorem takeWhile_append_eq_nil {p : Char → Bool} {word tail : List Char} (hne : word ≠ [])
    (h : ∀ c ∈ word, p c = false) : (word ++ tail).takeWhile p = [] := by
  obtain ⟨c, word, rfl⟩ := List.exists_cons_of_ne_nil hne
  rw [List.cons_append, List.takeWhile_cons_of_neg (by simp [h c List.mem_cons_self])]

theorem digits_of_fits_forms {forms : List Form} {word : List Char}
    (hforms : forms ∈ [yearForms, monthForms, hourForms, minuteForms]) (h : Fits forms word) :
    ∀ c ∈ word, isDecimalDigit c :=
  digits_of_fits (digitsOnly_forms forms hforms) h

theorem ne_nil_of_fits_hour {word : List Char} (h : Fits hourForms word) : word ≠ [] := by
  have hne : ∀ form ∈ hourForms, form ≠ [] := by simp [hourForms]
  rintro rfl
  obtain ⟨form, hform, h⟩ := h
  exact hne form hform (List.forall₂_nil_right_iff.mp h)

namespace Spelling

variable {s s' : Spelling}

theorem ProperFront.takeWhile_gap (h : s.ProperFront) (tail : List Char) :
    (s.gap ++ tail).takeWhile isDecimalDigit = [] :=
  takeWhile_append_eq_nil h.gap_ne_nil fun c hc => isDecimalDigit_of_isBlank (h.gap c hc)

theorem ProperFront.takeWhile_hour (h : s.ProperFront) (tail : List Char) :
    (s.hour ++ tail).takeWhile isBlank = [] :=
  takeWhile_append_eq_nil (ne_nil_of_fits_hour h.hour) fun c hc =>
    isBlank_of_isDecimalDigit (digits_of_fits_forms (by simp) h.hour c hc)

theorem ProperFront.dropWhile_hour (h : s.ProperFront) (tail : List Char) :
    (s.hour ++ tail).dropWhile isBlank = s.hour ++ tail := by
  have heq := List.takeWhile_append_dropWhile (p := isBlank) (l := s.hour ++ tail)
  rwa [h.takeWhile_hour, List.nil_append] at heq

theorem ProperFront.unique (h : s.ProperFront) (h' : s'.ProperFront) {rest rest' : List Char}
    (heq : s.front ++ rest = s'.front ++ rest') : s.frontNumbers = s'.frontNumbers ∧ rest = rest' := by
  obtain ⟨c, days, hday, hdays⟩ := exists_cons_of_fits_day h.day
  obtain ⟨c', days', hday', hdays'⟩ := exists_cons_of_fits_day h'.day
  simp only [front, List.append_assoc, List.cons_append, List.nil_append, hday, hday'] at heq
  obtain ⟨hyear, htail⟩ := cut_eq (digits_of_fits_forms (by simp) h.year) (digits_of_fits_forms (by simp) h'.year)
    rfl rfl heq
  obtain ⟨hmonth, htail⟩ := cut_eq (digits_of_fits_forms (by simp) h.month)
    (digits_of_fits_forms (by simp) h'.month) rfl rfl (List.cons.inj htail).2
  obtain ⟨hc, htail⟩ := List.cons.inj (List.cons.inj htail).2
  obtain ⟨hrest, htail⟩ := cut_eq hdays hdays' (h.takeWhile_gap _) (h'.takeWhile_gap _) htail
  obtain ⟨-, htail⟩ := cut_eq h.gap h'.gap (h.takeWhile_hour _) (h'.takeWhile_hour _) htail
  obtain ⟨hhour, htail⟩ := cut_eq (digits_of_fits_forms (by simp) h.hour) (digits_of_fits_forms (by simp) h'.hour)
    rfl rfl htail
  obtain ⟨hminute, htail⟩ := cut_eq (digits_of_fits_forms (by simp) h.minute)
    (digits_of_fits_forms (by simp) h'.minute) rfl rfl (List.cons.inj htail).2
  refine ⟨?_, (List.cons.inj htail).2⟩
  rw [frontNumbers, frontNumbers, hyear, hmonth, hday, hday', hc, hrest, hhour, hminute]

end Spelling

theorem mem_frontReader {text rest : List Char} {values : List Nat} : (values, rest) ∈ frontReader text ↔
    ∃ s : Spelling, s.ProperFront ∧ text = s.front ++ rest ∧ values = s.frontNumbers := by
  simp only [frontReader, sequence, List.foldr_cons, List.foldr_nil, mem_number_followedBy readsNumber_year,
    mem_number_followedBy readsNumber_month, mem_number_followedBy readsNumber_day,
    mem_number_followedBy readsNumber_hour, mem_number_followedBy readsNumber_minute, mem_mark_followedBy,
    mem_gap_followedBy, List.mem_singleton, Prod.mk.injEq]
  constructor
  · rintro ⟨year, _, _, rfl, hyear, ⟨_, rfl, month, _, _, rfl, hmonth, ⟨_, rfl, day, _, _, rfl, hday,
      ⟨gap, _, hne, hgap, _, rfl, hour, _, _, rfl, hhour, ⟨_, rfl, minute, _, _, rfl, hminute,
      ⟨_, rfl, rfl, rfl⟩, rfl⟩, rfl⟩, rfl⟩, rfl⟩, rfl⟩
    refine ⟨⟨year, month, day, gap, hour, minute, []⟩, ⟨hyear, hmonth, hday, hne, hgap, hhour, hminute⟩, ?_, rfl⟩
    simp [Spelling.front]
  · rintro ⟨s, h, rfl, rfl⟩
    refine ⟨s.year, _, _, ?_, h.year, ⟨_, rfl, s.month, _, _, rfl, h.month, ⟨_, rfl, s.day, _, _, rfl, h.day,
      ⟨s.gap, _, h.gap_ne_nil, h.gap, ?_, rfl, s.hour, _, _, rfl, h.hour, ⟨_, rfl, s.minute, _, _, rfl, h.minute,
      ⟨_, rfl, rfl, rfl⟩, rfl⟩, rfl⟩, rfl⟩, rfl⟩, rfl⟩
    · simp [Spelling.front]
    · exact h.dropWhile_hour _

/-- Of the ways to read seconds from a word that spells them, the one that takes all of it is preferred. -/
theorem second_eq_cons {word : List Char} (h : Fits secondForms word) :
    ∃ more, second word = ([numberOf word], []) :: more := by
  have hall : ∃ values more, second word = (values, []) :: more := by
    simp only [Fits, secondForms, List.mem_cons, List.not_mem_nil, or_false, exists_eq_or_imp, exists_eq_left,
      List.forall₂_cons_left_iff, List.forall₂_nil_left_iff, digitBetween, Bool.and_eq_true, decide_eq_true_eq,
      isDecimalDigit, Option.isSome_iff_exists] at h
    obtain ⟨c, _, hc, ⟨c', _, hc', rfl, rfl⟩, rfl⟩ | ⟨c, _, hc, ⟨c', _, ⟨value, hc'⟩, rfl, rfl⟩, rfl⟩ |
      ⟨c, _, ⟨value, hc⟩, rfl, rfl⟩ := h
    · simp [second, number, oneOf, followedBy, digitIn, hc, hc']
    · have hnot : ¬ '6' ≤ c := fun hle => absurd (Char.le_trans hle hc.2) (by decide)
      simp [second, number, oneOf, followedBy, digitIn, anyDigit, hc, hc', hnot]
    · have hpair : ∀ {low high : Char} {reader : Reader}, reader [] = [] →
          followedBy (digitIn low high) reader [c] = [] := by
        intro low high reader hnil
        rw [followedBy, digitIn]
        split_ifs <;> simp [hnil]
      rw [second, number, oneOf, List.flatMap_cons, List.flatMap_cons, hpair rfl, hpair rfl]
      simp [anyDigit, hc]
  obtain ⟨values, more, hword⟩ := hall
  obtain ⟨word', heq, -, rfl⟩ := (readsNumber_second _ _ _).mp (hword ▸ List.mem_cons_self)
  exact ⟨more, by rw [hword, heq, List.append_nil]⟩

theorem frontReader_eq_replicate {s : Spelling} (h : s.ProperFront) (rest : List Char) :
    ∃ n, frontReader (s.front ++ rest) = List.replicate (n + 1) (s.frontNumbers, rest) := by
  have hmem : (s.frontNumbers, rest) ∈ frontReader (s.front ++ rest) := mem_frontReader.mpr ⟨s, h, rfl, rfl⟩
  have hall : ∀ found ∈ frontReader (s.front ++ rest), found = (s.frontNumbers, rest) := by
    rintro ⟨values, rest'⟩ hfound
    obtain ⟨s', h', heq, rfl⟩ := mem_frontReader.mp hfound
    obtain ⟨hnumbers, hrest⟩ := h.unique h' heq
    rw [hnumbers, hrest]
  have hreplicate := List.eq_replicate_of_mem hall
  have hpos := List.length_pos_of_mem hmem
  exact ⟨_, by rw [Nat.sub_add_cancel hpos]; exact hreplicate⟩

/-- A text is read as the numbers of the stamp that it spells, whatever other ways to read a part of it there are. -/
theorem numbers_eq_cons_iff {text : List Char} {values : List Nat} :
    (∃ more, numbers text = (values, []) :: more) ↔
      ∃ s : Spelling, s.Proper ∧ s.text = text ∧ values = s.frontNumbers ++ [numberOf s.second] := by
  rw [numbers_eq_followedBy]
  constructor
  · rintro ⟨more, heq⟩
    have hmem : (values, []) ∈ followedBy frontReader second text := heq ▸ List.mem_cons_self
    simp only [followedBy, List.mem_flatMap, List.mem_map, Prod.exists, Prod.mk.injEq] at hmem
    obtain ⟨_, rest, hfront, _, _, hsecond, rfl, rfl⟩ := hmem
    obtain ⟨s, h, rfl, rfl⟩ := mem_frontReader.mp hfront
    obtain ⟨word, rfl, hword, rfl⟩ := (readsNumber_second _ _ _).mp hsecond
    refine ⟨{ s with second := word }, ⟨⟨h.year, h.month, h.day, h.gap_ne_nil, h.gap, h.hour, h.minute⟩, hword⟩, ?_, rfl⟩
    rw [Spelling.text_eq_front_append, List.append_nil]
    rfl
  · rintro ⟨s, h, rfl, rfl⟩
    obtain ⟨n, hfront⟩ := frontReader_eq_replicate h.toProperFront s.second
    obtain ⟨more, hsecond⟩ := second_eq_cons h.second
    rw [s.text_eq_front_append, followedBy, hfront, List.replicate_succ, List.flatMap_cons]
    dsimp only
    rw [hsecond]
    exact ⟨_, rfl⟩

theorem hyphenate_eq_mapIdx (n : Nat) (text : List Char) :
    hyphenate n text = text.mapIdx fun i c => if c = ':' ∧ (text.take i).count ':' < n then '-' else c := by
  induction text generalizing n with
  | nil => cases n <;> rfl
  | cons c text ih =>
      rw [List.mapIdx_cons]
      cases n with
      | zero => simp [hyphenate, List.mapIdx_eq_zipIdx_map]
      | succ n =>
          by_cases hc : c = ':'
          · subst hc
            simp [hyphenate, ih]
          · simp [hyphenate, hc, ih]

/-- Whether a text, its first two colons turned into hyphens, spells a stamp with the numbers of a date-time. -/
def IsStampOf (text : String) (date : DateTime) : Prop :=
  ∃ s : Spelling, s.Proper ∧ s.Denotes date ∧
    s.text = text.toList.mapIdx fun i c => if c = ':' ∧ (text.toList.take i).count ':' < 2 then '-' else c

/-- The texts that are read are the stamps, each as the date-time whose numbers it spells. -/
theorem read_eq_some_iff {text : String} {date : DateTime} : read text = some date ↔ IsStampOf text date := by
  rw [IsStampOf, ← hyphenate_eq_mapIdx]
  constructor
  · intro h
    rw [read] at h
    split at h
    · rename_i year month day hour minute second more heq
      obtain ⟨s, hproper, htext, hnumbers⟩ := numbers_eq_cons_iff.mp ⟨more, heq⟩
      obtain ⟨date, hdate, h⟩ := Option.bind_eq_some_iff.mp h
      obtain ⟨time, htime, h⟩ := Option.bind_eq_some_iff.mp h
      cases h
      cases hnumbers
      obtain ⟨hyear, hmonth, hday⟩ := Date.of_eq_some_iff.mp hdate
      obtain ⟨hhour, hminute, hsecond, hmicrosecond⟩ := TimeOfDay.of_eq_some_iff.mp htime
      exact ⟨s, hproper, ⟨hyear, hmonth, hday, hhour, hminute, hsecond, hmicrosecond, rfl⟩, htext⟩
    · cases h
  · rintro ⟨s, hproper, h, htext⟩
    obtain ⟨more, heq⟩ := numbers_eq_cons_iff.mpr ⟨s, hproper, htext, rfl⟩
    have hdate := Date.of_eq_some_iff.mpr ⟨h.year, h.month, h.day⟩
    have htime := TimeOfDay.of_eq_some_iff.mpr ⟨h.hour, h.minute, h.second, h.microsecond⟩
    rw [read, heq]
    simp only [Spelling.frontNumbers, List.cons_append, List.nil_append, hdate, htime, Option.bind_eq_bind,
      Option.bind_some, ← h.offset]
    rfl

/-- A date and a time of day in whole seconds as cameras write them, `YYYY:MM:DD HH:MM:SS`. -/
def written (date : Date) (time : TimeOfDay) : String :=
  String.ofList (paddedDigits 10 4 date.year ++ ':' :: paddedDigits 10 2 date.month ++ ':' ::
    paddedDigits 10 2 date.day ++ ' ' :: paddedDigits 10 2 time.hour ++ ':' :: paddedDigits 10 2 time.minute ++ ':' ::
    paddedDigits 10 2 time.second)

theorem digitValue_digitChar {digit : Nat} (h : digit < 10) : digitValue? (Nat.digitChar digit) = some digit := by
  interval_cases digit <;> rfl

theorem numberOf_decimal {width n : Nat} (h : n < 10 ^ width) : numberOf (decimal width n) = n := by
  induction width generalizing n with
  | zero => exact (Nat.lt_one_iff.mp h).symm
  | succ width ih =>
      have hquotient : n / 10 < 10 ^ width := by
        rw [Nat.pow_succ] at h
        omega
      have hconcat : ∀ {word : List Char} {digit : Nat}, digit < 10 →
          numberOf (word ++ [Nat.digitChar digit]) = 10 * numberOf word + digit := by
        intro word digit hdigit
        simp [numberOf, List.filterMap_append, digitValue_digitChar hdigit]
      rw [decimal, fixedNumeral, hconcat (Nat.mod_lt n (by decide)), ih hquotient, Nat.div_add_mod]

theorem isDecimalDigit_of_mem_decimal {width n : Nat} : ∀ c ∈ decimal width n, isDecimalDigit c := by
  intro c hc
  obtain ⟨digit, hdigit, rfl⟩ := exists_digit_of_mem_fixedNumeral (by decide) hc
  rw [isDecimalDigit, digitValue_digitChar hdigit]
  rfl

theorem fits_year_decimal (n : Nat) : Fits yearForms (decimal 4 n) := by
  have hdigits : ∀ c ∈ decimal 4 n, isDecimalDigit c := isDecimalDigit_of_mem_decimal
  refine ⟨_, List.mem_singleton_self _, ?_⟩
  simpa [fixedNumeral] using hdigits

theorem fits_decimal : (∀ n < 13, 1 ≤ n → Fits monthForms (decimal 2 n)) ∧
    (∀ n < 32, 1 ≤ n → Fits dayForms (decimal 2 n)) ∧ (∀ n < 24, Fits hourForms (decimal 2 n)) ∧
    (∀ n < 60, Fits minuteForms (decimal 2 n)) ∧ (∀ n < 60, Fits secondForms (decimal 2 n)) := by
  decide +kernel

theorem hyphenate_append {word : List Char} (h : ':' ∉ word) (n : Nat) (rest : List Char) :
    hyphenate n (word ++ rest) = word ++ hyphenate n rest := by
  induction word with
  | nil => rfl
  | cons c word ih =>
      rw [List.mem_cons, not_or] at h
      cases n with
      | zero => simp [hyphenate]
      | succ n => rw [List.cons_append, hyphenate, if_neg (Ne.symm h.1), ih h.2, List.cons_append]

theorem hyphenate_decimal_append (width value n : Nat) (rest : List Char) :
    hyphenate n (decimal width value ++ rest) = decimal width value ++ hyphenate n rest :=
  hyphenate_append (fun hmem => absurd (isDecimalDigit_of_mem_decimal _ hmem) (by decide)) n rest

/-- The parts of what a camera writes. -/
def spellingOf (date : Date) (time : TimeOfDay) : Spelling :=
  ⟨decimal 4 date.year, decimal 2 date.month, decimal 2 date.day, [' '], decimal 2 time.hour, decimal 2 time.minute,
    decimal 2 time.second⟩

theorem proper_spellingOf (date : Date) (time : TimeOfDay) : (spellingOf date time).Proper where
  year := fits_year_decimal date.year
  month := fits_decimal.1 _ (Nat.lt_succ_of_le date.month_le) date.one_le_month
  day := fits_decimal.2.1 _ (Nat.lt_succ_of_le (date.day_le.trans (daysInMonth_le _ _))) date.one_le_day
  gap_ne_nil := List.cons_ne_nil _ _
  gap := List.forall_mem_singleton.mpr (by decide)
  hour := fits_decimal.2.2.1 _ time.hour_lt
  minute := fits_decimal.2.2.2.1 _ time.minute_lt
  second := fits_decimal.2.2.2.2 _ time.second_lt

theorem denotes_spellingOf (date : Date) {time : TimeOfDay} (h : time.microsecond = 0) :
    (spellingOf date time).Denotes ⟨date, time, some Offset.utc⟩ where
  year := (numberOf_decimal (Nat.lt_succ_of_le date.year_le)).symm
  month := (numberOf_decimal (Nat.lt_of_le_of_lt date.month_le (by decide))).symm
  day := (numberOf_decimal date.day_lt).symm
  hour := (numberOf_decimal (time.hour_lt.trans (by decide))).symm
  minute := (numberOf_decimal (time.minute_lt.trans (by decide))).symm
  second := (numberOf_decimal (time.second_lt.trans (by decide))).symm
  microsecond := h
  offset := rfl

theorem text_spellingOf (date : Date) (time : TimeOfDay) :
    (spellingOf date time).text = hyphenate 2 (written date time).toList := by
  have hyear : decimal 4 date.year = paddedDigits 10 4 date.year :=
    fixedNumeral_eq_paddedDigits (by decide) (by decide) (Nat.lt_succ_of_le date.year_le)
  have htwo : ∀ n < 100, decimal 2 n = paddedDigits 10 2 n := fun n hn =>
    fixedNumeral_eq_paddedDigits (by decide) (by decide) hn
  have hmonth := htwo date.month (Nat.lt_of_le_of_lt date.month_le (by decide))
  have hday := htwo date.day date.day_lt
  have hhour := htwo time.hour (time.hour_lt.trans (by decide))
  have hminute := htwo time.minute (time.minute_lt.trans (by decide))
  have hsecond := htwo time.second (time.second_lt.trans (by decide))
  rw [written, ← hyear, ← hmonth, ← hday, ← hhour, ← hminute, ← hsecond, String.toList_ofList]
  simp only [List.append_assoc, List.cons_append, hyphenate_decimal_append, hyphenate, if_true]
  simp [spellingOf, Spelling.text]

theorem isStampOf_written (date : Date) {time : TimeOfDay} (h : time.microsecond = 0) :
    IsStampOf (written date time) ⟨date, time, some Offset.utc⟩ :=
  ⟨_, proper_spellingOf date time, denotes_spellingOf date h, (text_spellingOf date time).trans (hyphenate_eq_mapIdx _ _)⟩

end MediaCatalog.Calendar.CameraStamp
