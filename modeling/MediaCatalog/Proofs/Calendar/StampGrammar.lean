import MediaCatalog.Calendar.CameraStamp
import Mathlib.Data.List.DropRight
import Mathlib.Data.List.Forall2

/-!
The stamps of cameras as a grammar of texts: the forms that each word of a stamp can have, and the numbers that its words
make. Each reader finds the words of its forms at the front of a text and nothing else.
-/

namespace MediaCatalog.Calendar.CameraStamp

open MediaCatalog.Text

def digitBetween (low high : Char) (c : Char) : Bool :=
  low ≤ c && c ≤ high

/-- A form tells what each character of a word can be. -/
abbrev Form := List (Char → Bool)

def Fits (forms : List Form) (word : List Char) : Prop :=
  ∃ form ∈ forms, List.Forall₂ (fun p c => p c) form word

instance (forms : List Form) (word : List Char) : Decidable (Fits forms word) :=
  inferInstanceAs (Decidable (∃ form ∈ forms, _))

def yearForms : List Form :=
  [[isDecimalDigit, isDecimalDigit, isDecimalDigit, isDecimalDigit]]

def monthForms : List Form :=
  [[digitBetween '1' '1', digitBetween '0' '2'], [digitBetween '0' '0', digitBetween '1' '9'], [digitBetween '1' '9']]

/-- A space may stand for the first digit of a day. -/
def dayForms : List Form :=
  [[digitBetween '3' '3', digitBetween '0' '1'], [digitBetween '1' '2', isDecimalDigit],
    [digitBetween '0' '0', digitBetween '1' '9'], [digitBetween '1' '9'], [(· = ' '), digitBetween '1' '9']]

def hourForms : List Form :=
  [[digitBetween '2' '2', digitBetween '0' '3'], [digitBetween '0' '1', isDecimalDigit], [isDecimalDigit]]

def minuteForms : List Form :=
  [[digitBetween '0' '5', isDecimalDigit], [isDecimalDigit]]

def secondForms : List Form :=
  [[digitBetween '6' '6', digitBetween '0' '1'], [digitBetween '0' '5', isDecimalDigit], [isDecimalDigit]]

/-- The number that the digits of a word make; other characters do not count. -/
def numberOf (word : List Char) : Nat :=
  (word.filterMap digitValue?).foldl (fun n d => 10 * n + d) 0

/-- The parts of a stamp whose date is written with hyphens. -/
structure Spelling where
  year : List Char
  month : List Char
  day : List Char
  gap : List Char
  hour : List Char
  minute : List Char
  second : List Char

namespace Spelling

def text (s : Spelling) : List Char :=
  s.year ++ '-' :: s.month ++ '-' :: s.day ++ s.gap ++ s.hour ++ ':' :: s.minute ++ ':' :: s.second

structure ProperFront (s : Spelling) : Prop where
  year : Fits yearForms s.year
  month : Fits monthForms s.month
  day : Fits dayForms s.day
  gap_ne_nil : s.gap ≠ []
  gap : ∀ c ∈ s.gap, isBlank c
  hour : Fits hourForms s.hour
  minute : Fits minuteForms s.minute

structure Proper (s : Spelling) : Prop extends s.ProperFront where
  second : Fits secondForms s.second

/-- Whether the numbers of a stamp are those of a date-time of universal time. -/
structure Denotes (s : Spelling) (date : DateTime) : Prop where
  year : date.date.year = numberOf s.year
  month : date.date.month = numberOf s.month
  day : date.date.day = numberOf s.day
  hour : date.time.hour = numberOf s.hour
  minute : date.time.minute = numberOf s.minute
  second : date.time.second = numberOf s.second
  microsecond : date.time.microsecond = 0
  offset : date.offset = some Offset.utc

end Spelling

/-- Whether a reader finds the words of a form at the front of a text, and the values of their digits. -/
def ReadsForm (reader : Reader) (form : Form) : Prop :=
  ∀ text values rest, (values, rest) ∈ reader text ↔
    ∃ word, text = word ++ rest ∧ List.Forall₂ (fun p c => p c) form word ∧ values = word.filterMap digitValue?

theorem readsForm_of_cons {reader : Reader} {p : Char → Bool} (hnil : reader [] = [])
    (hcons : ∀ c rest, reader (c :: rest) = if p c then [((digitValue? c).toList, rest)] else []) :
    ReadsForm reader [p] := by
  intro text values rest
  cases text with
  | nil => simp [hnil]
  | cons c text =>
      rw [hcons]
      constructor
      · intro hmem
        split_ifs at hmem with hc
        · cases List.mem_singleton.mp hmem
          refine ⟨[c], rfl, .cons hc .nil, ?_⟩
          cases hdigit : digitValue? c <;> simp [hdigit]
        · cases hmem
      · rintro ⟨word, htext, hword, rfl⟩
        cases hword with
        | cons hc hnil =>
            cases hnil
            cases htext
            rw [if_pos hc, List.mem_singleton]
            cases hdigit : digitValue? c <;> simp [hdigit]

theorem readsForm_anyDigit : ReadsForm anyDigit [isDecimalDigit] := by
  refine readsForm_of_cons rfl fun c rest => ?_
  rw [anyDigit, isDecimalDigit]
  cases digitValue? c <;> rfl

theorem digitValue_eq_some {c : Char} (h : '0' ≤ c ∧ c ≤ '9') : digitValue? c = some (c.toNat - '0'.toNat) := by
  have hlow : 48 ≤ c.toNat := UInt32.le_iff_toNat_le.mp h.1
  have hhigh : c.toNat ≤ 57 := UInt32.le_iff_toNat_le.mp h.2
  rw [digitValue?, digitValueFrom, if_neg (by omega), if_pos (by omega)]
  rfl

theorem readsForm_digitIn {low high : Char} (hlow : '0' ≤ low) (hhigh : high ≤ '9') :
    ReadsForm (digitIn low high) [digitBetween low high] := by
  refine readsForm_of_cons rfl fun c rest => ?_
  rw [digitIn, digitBetween]
  by_cases hc : low ≤ c ∧ c ≤ high
  · have hdigit := digitValue_eq_some ⟨Char.le_trans hlow hc.1, Char.le_trans hc.2 hhigh⟩
    simp [hc.1, hc.2, hdigit]
  · rw [if_neg hc, if_neg (by simpa using hc)]

theorem readsForm_mark {m : Char} (h : digitValue? m = none) : ReadsForm (mark m) [(· = m)] := by
  refine readsForm_of_cons rfl fun c rest => ?_
  rw [mark]
  by_cases hc : c = m
  · subst hc
    simp [h]
  · simp [hc]

theorem ReadsForm.followedBy {first second : Reader} {form form' : Form} (h : ReadsForm first form)
    (h' : ReadsForm second form') : ReadsForm (CameraStamp.followedBy first second) (form ++ form') := by
  intro text values rest
  simp only [CameraStamp.followedBy, List.mem_flatMap, List.mem_map]
  constructor
  · rintro ⟨⟨values, mid⟩, hfirst, ⟨more, rest⟩, hsecond, heq⟩
    cases heq
    obtain ⟨word, rfl, hword, rfl⟩ := (h _ _ _).mp hfirst
    obtain ⟨word', rfl, hword', rfl⟩ := (h' _ _ _).mp hsecond
    exact ⟨word ++ word', (List.append_assoc _ _ _).symm, List.rel_append hword hword', List.filterMap_append.symm⟩
  · rintro ⟨both, rfl, hboth, rfl⟩
    have hword := List.forall₂_take form.length hboth
    have hword' := List.forall₂_drop form.length hboth
    rw [List.take_left] at hword
    rw [List.drop_left] at hword'
    refine ⟨(_, both.drop form.length ++ rest), (h _ _ _).mpr ⟨both.take form.length, ?_, hword, rfl⟩, (_, rest),
      (h' _ _ _).mpr ⟨both.drop form.length, rfl, hword', rfl⟩, ?_⟩
    · rw [← List.append_assoc, List.take_append_drop]
    · rw [← List.filterMap_append, List.take_append_drop]

theorem readsForm_sequence {readers : List Reader} {classes : Form}
    (h : List.Forall₂ (fun reader p => ReadsForm reader [p]) readers classes) : ReadsForm (sequence readers) classes := by
  induction h with
  | nil =>
      intro text values rest
      simp only [sequence, List.foldr_nil, List.mem_singleton, Prod.mk.injEq]
      constructor
      · rintro ⟨rfl, rfl⟩
        exact ⟨[], rfl, .nil, rfl⟩
      · rintro ⟨word, rfl, hnil, rfl⟩
        cases hnil
        exact ⟨rfl, rfl⟩
  | cons h _ ih => exact h.followedBy ih

/-- Whether a reader finds the words of some forms at the front of a text, and the numbers that they make. -/
def ReadsNumber (reader : Reader) (forms : List Form) : Prop :=
  ∀ text values rest, (values, rest) ∈ reader text ↔
    ∃ word, text = word ++ rest ∧ Fits forms word ∧ values = [numberOf word]

theorem fits_cons_iff {form : Form} {forms : List Form} {word : List Char} :
    Fits (form :: forms) word ↔ List.Forall₂ (fun p c => p c) form word ∨ Fits forms word :=
  List.exists_mem_cons_iff _ _ _

theorem mem_oneOf {readers : List Reader} {forms : List Form} (h : List.Forall₂ ReadsForm readers forms)
    {text rest : List Char} {values : List Nat} : (values, rest) ∈ oneOf readers text ↔
      ∃ word, text = word ++ rest ∧ Fits forms word ∧ values = word.filterMap digitValue? := by
  induction h with
  | nil => simp [oneOf, Fits]
  | @cons reader form readers forms h _ ih =>
      have hcons : oneOf (reader :: readers) text = reader text ++ oneOf readers text := List.flatMap_cons
      simp only [hcons, List.mem_append, h _ _ _, ih, fits_cons_iff, or_and_right, and_or_left, exists_or]

theorem readsNumber_oneOf {readers : List Reader} {forms : List Form} (h : List.Forall₂ ReadsForm readers forms) :
    ReadsNumber (number (oneOf readers)) forms := by
  intro text values rest
  simp only [number, List.mem_map, Prod.exists, Prod.mk.injEq, mem_oneOf h]
  constructor
  · rintro ⟨_, _, ⟨word, rfl, hword, rfl⟩, rfl, rfl⟩
    exact ⟨word, rfl, hword, rfl⟩
  · rintro ⟨word, rfl, hword, rfl⟩
    exact ⟨_, _, ⟨word, rfl, hword, rfl⟩, rfl, rfl⟩

theorem readsNumber_of_readsForm {reader : Reader} {form : Form} (h : ReadsForm reader form) :
    ReadsNumber (number reader) [form] := by
  have hone : oneOf [reader] = reader := funext fun text => List.flatMap_singleton reader text
  exact hone ▸ readsNumber_oneOf (.cons h .nil)

theorem readsNumber_year : ReadsNumber year yearForms :=
  readsNumber_of_readsForm (readsForm_sequence
    (.cons readsForm_anyDigit (.cons readsForm_anyDigit (.cons readsForm_anyDigit (.cons readsForm_anyDigit .nil)))))

theorem readsForm_digits {low high low' high' : Char} (h : '0' ≤ low ∧ high ≤ '9') (h' : '0' ≤ low' ∧ high' ≤ '9') :
    ReadsForm (followedBy (digitIn low high) (digitIn low' high')) [digitBetween low high, digitBetween low' high'] :=
  (readsForm_digitIn h.1 h.2).followedBy (readsForm_digitIn h'.1 h'.2)

theorem readsForm_digit_any {low high : Char} (h : '0' ≤ low ∧ high ≤ '9') :
    ReadsForm (followedBy (digitIn low high) anyDigit) [digitBetween low high, isDecimalDigit] :=
  (readsForm_digitIn h.1 h.2).followedBy readsForm_anyDigit

theorem readsNumber_month : ReadsNumber month monthForms :=
  readsNumber_oneOf (.cons (readsForm_digits (by decide) (by decide)) (.cons (readsForm_digits (by decide) (by decide))
    (.cons (readsForm_digitIn (by decide) (by decide)) .nil)))

theorem readsNumber_day : ReadsNumber day dayForms :=
  readsNumber_oneOf (.cons (readsForm_digits (by decide) (by decide)) (.cons (readsForm_digit_any (by decide))
    (.cons (readsForm_digits (by decide) (by decide)) (.cons (readsForm_digitIn (by decide) (by decide))
      (.cons ((readsForm_mark (by decide)).followedBy (readsForm_digitIn (by decide) (by decide))) .nil)))))

theorem readsNumber_hour : ReadsNumber hour hourForms :=
  readsNumber_oneOf (.cons (readsForm_digits (by decide) (by decide)) (.cons (readsForm_digit_any (by decide))
    (.cons readsForm_anyDigit .nil)))

theorem readsNumber_minute : ReadsNumber minute minuteForms :=
  readsNumber_oneOf (.cons (readsForm_digit_any (by decide)) (.cons readsForm_anyDigit .nil))

theorem readsNumber_second : ReadsNumber second secondForms :=
  readsNumber_oneOf (.cons (readsForm_digits (by decide) (by decide)) (.cons (readsForm_digit_any (by decide))
    (.cons readsForm_anyDigit .nil)))

/-- The text of a stamp up to its seconds. -/
def Spelling.front (s : Spelling) : List Char :=
  s.year ++ '-' :: (s.month ++ '-' :: (s.day ++ (s.gap ++ (s.hour ++ ':' :: (s.minute ++ [':'])))))

def Spelling.frontNumbers (s : Spelling) : List Nat :=
  [numberOf s.year, numberOf s.month, numberOf s.day, numberOf s.hour, numberOf s.minute]

theorem Spelling.text_eq_front_append (s : Spelling) : s.text = s.front ++ s.second := by
  simp [text, front]

/-- The reader of all numbers but the seconds. -/
def frontReader : Reader :=
  sequence [year, mark '-', month, mark '-', day, gap, hour, mark ':', minute, mark ':']

theorem followedBy_assoc (first second third : Reader) :
    followedBy (followedBy first second) third = followedBy first (followedBy second third) := by
  funext text
  simp only [followedBy, List.flatMap_assoc, List.flatMap_map, List.map_flatMap, List.map_map, Function.comp_def,
    List.append_assoc]

theorem sequence_concat (readers : List Reader) (last : Reader) :
    sequence (readers ++ [last]) = followedBy (sequence readers) last := by
  induction readers with
  | nil =>
      funext text
      simp [sequence, followedBy]
  | cons reader readers ih =>
      have hcons : ∀ readers, sequence (reader :: readers) = followedBy reader (sequence readers) := fun _ => rfl
      rw [List.cons_append, hcons, hcons, ih, followedBy_assoc]

theorem numbers_eq_followedBy : numbers = followedBy frontReader second :=
  sequence_concat [year, mark '-', month, mark '-', day, gap, hour, mark ':', minute, mark ':'] second

theorem mem_number_followedBy {reader second : Reader} {forms : List Form} (h : ReadsNumber reader forms)
    {text rest : List Char} {values : List Nat} : (values, rest) ∈ followedBy reader second text ↔
      ∃ word mid more, text = word ++ mid ∧ Fits forms word ∧ (more, rest) ∈ second mid ∧
        values = numberOf word :: more := by
  simp only [followedBy, List.mem_flatMap, List.mem_map, Prod.exists, Prod.mk.injEq, h _ _ _]
  constructor
  · rintro ⟨_, mid, ⟨word, rfl, hword, rfl⟩, more, _, hmore, rfl, rfl⟩
    exact ⟨word, mid, more, rfl, hword, hmore, rfl⟩
  · rintro ⟨word, mid, more, rfl, hword, hmore, rfl⟩
    exact ⟨_, mid, ⟨word, rfl, hword, rfl⟩, more, rest, hmore, rfl, rfl⟩

theorem mem_mark_followedBy {m : Char} {second : Reader} {text rest : List Char} {values : List Nat} :
    (values, rest) ∈ followedBy (mark m) second text ↔ ∃ mid, text = m :: mid ∧ (values, rest) ∈ second mid := by
  cases text with
  | nil => simp [followedBy, mark]
  | cons c text =>
      rw [followedBy, mark]
      split_ifs with hc
      · simp [hc]
      · simp [hc]

/-- All blanks there are belong to the gap. -/
theorem mem_gap_followedBy {second : Reader} {text rest : List Char} {values : List Nat} :
    (values, rest) ∈ followedBy gap second text ↔ ∃ blank mid, blank ≠ [] ∧ (∀ c ∈ blank, isBlank c) ∧
      mid.dropWhile isBlank = mid ∧ text = blank ++ mid ∧ (values, rest) ∈ second mid := by
  constructor
  · intro h
    cases text with
    | nil => simp [followedBy, gap] at h
    | cons c text =>
        rw [followedBy, gap] at h
        split_ifs at h with hc
        · refine ⟨c :: text.takeWhile isBlank, text.dropWhile isBlank, List.cons_ne_nil _ _, ?_, ?_, ?_, ?_⟩
          · exact List.forall_mem_cons.mpr ⟨hc, fun c hc => List.mem_takeWhile_imp hc⟩
          · exact List.dropWhile_idempotent isBlank text
          · rw [List.cons_append, List.takeWhile_append_dropWhile]
          · simpa using h
        · cases h
  · rintro ⟨blank, mid, hne, hblank, hmid, rfl, h⟩
    obtain ⟨c, blank, rfl⟩ := List.exists_cons_of_ne_nil hne
    rw [List.forall_mem_cons] at hblank
    rw [followedBy, List.cons_append, gap, if_pos hblank.1, List.dropWhile_append_of_pos hblank.2, hmid]
    simpa using h

end MediaCatalog.Calendar.CameraStamp
