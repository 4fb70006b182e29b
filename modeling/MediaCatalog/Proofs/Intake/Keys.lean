import MediaCatalog.Intake.AssetKey
import MediaCatalog.Proofs.Calendar.WrittenRead
import MediaCatalog.Proofs.Text.Base64
import MediaCatalog.Proofs.Text.Lowercase
import Mathlib.Order.Bounds.Defs

/-!
The keys of new assets. A key is decoded to the path that it was made from, in lowercase. Whatever the extension at the end
of the path is, the quarter of an hour and the unique number stand at fixed places before it, so that keys that differ in
one of these are different.
-/

namespace MediaCatalog.Intake

open Calendar Media Text

/-- The part of a key's path before the extension. -/
def keyStem (date : DateTime) (unique : Nat) : List Char :=
  keyDirectory date ++ '/' :: fixedNumeral 16 32 unique

theorem length_keyDirectory (date : DateTime) : (keyDirectory date).length = 15 := by
  simp [keyDirectory]

theorem length_keyStem (date : DateTime) (unique : Nat) : (keyStem date unique).length = 48 := by
  simp [keyStem, length_keyDirectory]

theorem digit_in_lowercase :
    ∀ digit < 16, (Nat.digitChar digit).toNat < 0x80 ∧ (Nat.digitChar digit).toLower = Nat.digitChar digit := by
  decide

theorem numeral_in_lowercase {base width n : Nat} (hpositive : 0 < base) (hbase : base ≤ 16) :
    ∀ c ∈ fixedNumeral base width n, c.toNat < 0x80 ∧ c.toLower = c := by
  intro c hc
  obtain ⟨digit, hdigit, rfl⟩ := exists_digit_of_mem_fixedNumeral hpositive hc
  exact digit_in_lowercase digit (hdigit.trans_le hbase)

theorem keyStem_in_lowercase (date : DateTime) (unique : Nat) :
    ∀ c ∈ keyStem date unique, c.toNat < 0x80 ∧ c.toLower = c := by
  have hdecimal : ∀ {width n : Nat}, ∀ c ∈ decimal width n, c.toNat < 0x80 ∧ c.toLower = c :=
    numeral_in_lowercase (by decide) (by decide)
  have hslash : '/'.toNat < 0x80 ∧ '/'.toLower = '/' := by decide
  simp only [keyStem, keyDirectory, List.forall_mem_append, List.forall_mem_cons]
  exact ⟨⟨⟨⟨⟨hdecimal, hslash, hdecimal⟩, hslash, hdecimal⟩, hslash, hdecimal⟩, hdecimal⟩, hslash,
    numeral_in_lowercase (by decide) (by decide)⟩

theorem toList_keyPath (date : DateTime) (mediaType extension : String) (unique : Nat) :
    ∃ ext, (keyPath date mediaType extension unique).toList = keyStem date unique ++ ext := by
  rw [keyPath, lower, String.toList_ofList, String.toList_ofList, lowerChars]
  exact ⟨_, lowerFrom_append (keyStem_in_lowercase date unique) [] _⟩

theorem keyStem_eq_of_newAssetKey_eq {date date' : DateTime} {mediaType mediaType' extension extension' : String}
    {unique unique' : Nat}
    (h : newAssetKey date mediaType extension unique = newAssetKey date' mediaType' extension' unique') :
    keyStem date unique = keyStem date' unique' := by
  obtain ⟨ext, hpath⟩ := toList_keyPath date mediaType extension unique
  obtain ⟨ext', hpath'⟩ := toList_keyPath date' mediaType' extension' unique'
  rw [Base64.encodeText_injective h, hpath'] at hpath
  exact (List.append_inj hpath (by rw [length_keyStem, length_keyStem])).1.symm

theorem unique_of_newAssetKey_eq {date date' : DateTime} {mediaType mediaType' extension extension' : String}
    {unique unique' : Nat} (hunique : unique < 2 ^ 128) (hunique' : unique' < 2 ^ 128)
    (h : newAssetKey date mediaType extension unique = newAssetKey date' mediaType' extension' unique') :
    unique = unique' := by
  have hstem := keyStem_eq_of_newAssetKey_eq h
  have hnumeral := (List.append_inj hstem (by rw [length_keyDirectory, length_keyDirectory])).2
  have hwidth : 2 ^ 128 = 16 ^ 32 := by decide
  rw [hwidth] at hunique hunique'
  exact fixedNumeral_injective (by decide) hunique hunique' (List.cons.inj hnumeral).2

/-- The quarter of an hour in which a date-time falls by its calendar and its clock: the day, the hour and the number of
the quarter. -/
def quarterHour (date : DateTime) : Date × Nat × Nat :=
  (date.date, date.time.hour, date.time.minute / 15)

theorem isGreatest_keyMinutes (minute : Nat) :
    IsGreatest {m | keyMinutes ∣ m ∧ m ≤ minute} (minute - minute % keyMinutes) := by
  refine ⟨⟨Nat.dvd_sub_mod minute, Nat.sub_le _ _⟩, ?_⟩
  rintro m ⟨⟨k, rfl⟩, hle⟩
  rw [keyMinutes] at hle ⊢
  omega

theorem keyMinute_lt (time : TimeOfDay) : time.minute - time.minute % keyMinutes < 10 ^ 2 :=
  (Nat.sub_le _ _).trans_lt (time.minute_lt.trans (by decide))

theorem date_eq_of_written {date date' : Date} (hyear : decimal 4 date.year = decimal 4 date'.year)
    (hmonth : decimal 2 date.month = decimal 2 date'.month) (hday : decimal 2 date.day = decimal 2 date'.day) :
    date = date' := by
  have hyear := fixedNumeral_injective (by decide) (Nat.lt_succ_of_le date.year_le) (Nat.lt_succ_of_le date'.year_le) hyear
  have hmonth := fixedNumeral_injective (by decide) (date.month_le.trans_lt (by decide))
    (date'.month_le.trans_lt (by decide)) hmonth
  have hday := fixedNumeral_injective (by decide) date.day_lt date'.day_lt hday
  cases date
  cases date'
  cases hyear
  cases hmonth
  cases hday
  rfl

theorem quarterHour_of_keyDirectory_eq {date date' : DateTime} (h : keyDirectory date = keyDirectory date') :
    quarterHour date = quarterHour date' := by
  have hlength : ∀ width n n', (decimal width n).length = (decimal width n').length := by simp
  simp only [keyDirectory, List.append_assoc, List.cons_append] at h
  obtain ⟨hyear, h⟩ := List.append_inj h (hlength _ _ _)
  obtain ⟨hmonth, h⟩ := List.append_inj (List.cons.inj h).2 (hlength _ _ _)
  obtain ⟨hday, h⟩ := List.append_inj (List.cons.inj h).2 (hlength _ _ _)
  obtain ⟨hhour, hminute⟩ := List.append_inj (List.cons.inj h).2 (hlength _ _ _)
  have hhour := fixedNumeral_injective (by decide) (date.time.hour_lt.trans (by decide))
    (date'.time.hour_lt.trans (by decide)) hhour
  have hminute := fixedNumeral_injective (by decide) (keyMinute_lt date.time) (keyMinute_lt date'.time) hminute
  rw [quarterHour, quarterHour, date_eq_of_written hyear hmonth hday, hhour]
  rw [keyMinutes] at hminute
  congr 2
  omega

theorem keyDirectory_eq_paddedDigits (date : DateTime) : keyDirectory date =
    paddedDigits 10 4 date.date.year ++ '/' :: paddedDigits 10 2 date.date.month ++
      '/' :: paddedDigits 10 2 date.date.day ++ '/' :: paddedDigits 10 2 date.time.hour ++
      paddedDigits 10 2 (date.time.minute - date.time.minute % keyMinutes) := by
  have hpadded : ∀ {width n : Nat}, 0 < width → n < 10 ^ width → decimal width n = paddedDigits 10 width n :=
    fixedNumeral_eq_paddedDigits (by decide)
  rw [keyDirectory, hpadded (by decide) (Nat.lt_succ_of_le date.date.year_le),
    hpadded (by decide) (date.date.month_le.trans_lt (by decide)), hpadded (by decide) date.date.day_lt,
    hpadded (by decide) (date.time.hour_lt.trans (by decide)), hpadded (by decide) (keyMinute_lt date.time)]

/-- A key is the path of a new asset in base 64, in lowercase and with the minutes rounded down to a quarter of an hour;
keys with different numbers, or of different quarters of an hour, are different. -/
theorem newAssetKey_decodes (date date' : DateTime) (mediaType mediaType' extension extension' : String)
    (unique unique' : BitVec 128) :
    (∃ minute, IsGreatest {m | 15 ∣ m ∧ m ≤ date.time.minute} minute ∧
      Base64.decode (newAssetKey date mediaType extension unique.toNat).toList =
        some (lower (String.ofList (paddedDigits 10 4 date.date.year ++ '/' :: paddedDigits 10 2 date.date.month ++
          '/' :: paddedDigits 10 2 date.date.day ++ '/' :: paddedDigits 10 2 date.time.hour ++
          paddedDigits 10 2 minute ++ '/' :: paddedDigits 16 32 unique.toNat ++
          ((guessExtension mediaType).getD extension).toList))).toUTF8.toList) ∧
    (unique ≠ unique' ∨ quarterHour date ≠ quarterHour date' →
      newAssetKey date mediaType extension unique.toNat ≠ newAssetKey date' mediaType' extension' unique'.toNat) := by
  refine ⟨⟨_, isGreatest_keyMinutes date.time.minute, ?_⟩, fun hdiffer heq => ?_⟩
  · have hunique : fixedNumeral 16 32 unique.toNat = paddedDigits 16 32 unique.toNat :=
      fixedNumeral_eq_paddedDigits (by decide) (by decide) unique.isLt
    rw [newAssetKey, Base64.decode_encodeText, keyPath, keyDirectory_eq_paddedDigits, hunique]
  · obtain ⟨hdirectory, -⟩ := List.append_inj (keyStem_eq_of_newAssetKey_eq heq)
      (by rw [length_keyDirectory, length_keyDirectory])
    rcases hdiffer with hunique | hquarter
    · exact hunique (BitVec.eq_of_toNat_eq (unique_of_newAssetKey_eq unique.isLt unique'.isLt heq))
    · exact hquarter (quarterHour_of_keyDirectory_eq hdirectory)

end MediaCatalog.Intake
