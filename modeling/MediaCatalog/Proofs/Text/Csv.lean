import MediaCatalog.Report
import MediaCatalog.Text.Csv.Reader
import Mathlib.Tactic.SplitIfs

/-!
Comma separated values as a grammar of texts. The reader reads every text of the grammar as the records that it spells, so
that no text spells two lists of records; and what is written spells what it was written for. A report is read back from
what is written of it.
-/

namespace MediaCatalog.Text.Csv

/-- Whether a character can stand in a field that is not between quotes. -/
def IsPlain (c : Char) : Prop :=
  c ≠ ',' ∧ c ≠ '"' ∧ c ≠ '\r' ∧ c ≠ '\n'

/-- Whether a text between quotes stands for a field: every quote of the field is there twice. -/
inductive QuotedText : List Char → List Char → Prop
  | nil : QuotedText [] []
  | quote {text field : List Char} (h : QuotedText text field) : QuotedText ('"' :: '"' :: text) ('"' :: field)
  | other {text field : List Char} {c : Char} (hc : c ≠ '"') (h : QuotedText text field) :
      QuotedText (c :: text) (c :: field)

inductive FieldText : List Char → List Char → Prop
  | bare {field : List Char} (h : ∀ c ∈ field, IsPlain c) : FieldText field field
  | quoted {text field : List Char} (h : QuotedText text field) : FieldText ('"' :: text ++ ['"']) field

/-- Whether a text is that of a record, without the end of the line: fields with commas between them. -/
inductive RecordText : List Char → List (List Char) → Prop
  | last {text field : List Char} (h : FieldText text field) : RecordText text [field]
  | cons {text field rest : List Char} {fields : List (List Char)} (h : FieldText text field)
      (hrest : RecordText rest fields) : RecordText (text ++ ',' :: rest) (field :: fields)

/-- Whether a text is that of some records. The last one may lack the end of its line, but nothing at all is no record. -/
inductive FileText : List Char → Records → Prop
  | nil : FileText [] []
  | unended {text : List Char} {fields : List (List Char)} (h : RecordText text fields) (hne : text ≠ []) :
      FileText text [fields]
  | ended {text rest : List Char} {fields : List (List Char)} {records : Records} (h : RecordText text fields)
      (hrest : FileText rest records) : FileText (text ++ '\r' :: '\n' :: rest) (fields :: records)

/-- Whether a text spells some rows. -/
def Spells (text : String) (rows : List (List String)) : Prop :=
  FileText text.toList (rows.map fun row => row.map String.toList)

/-- Whether a field can end in front of a text. -/
inductive EndsField : List Char → Prop
  | file : EndsField []
  | comma (rest : List Char) : EndsField (',' :: rest)
  | line (rest : List Char) : EndsField ('\r' :: '\n' :: rest)

/-- Puts characters at the front of the first field. -/
def consChars (field : List Char) (records : Records) : Records :=
  field.foldr consChar records

theorem consChars_cons (c : Char) (field : List Char) (records : Records) :
    consChars (c :: field) records = consChar c (consChars field records) :=
  rfl

theorem consChars_first (field first : List Char) (fields : List (List Char)) (later : Records) :
    consChars field ((first :: fields) :: later) = ((field ++ first) :: fields) :: later := by
  induction field with
  | nil => rfl
  | cons c field ih => rw [consChars_cons, ih, consChar, List.cons_append]

theorem readFrom_plain {c : Char} (hc : IsPlain c) {place : Place} (hplace : place.beginsField ∨ place = .bare)
    (rest : List Char) : readFrom place (c :: rest) = (readFrom .bare rest).map (consChar c) := by
  obtain ⟨hcomma, hquote, hreturn, hfeed⟩ := hc
  cases place <;> simp_all [readFrom, Place.beginsField]

/-- All places in which a field can end are alike there, but for the end of the text in front of a record. -/
theorem readFrom_endsField {place : Place} (hplace : place.endsField) {rest : List Char} (hrest : EndsField rest)
    (hne : place = .recordStart → rest ≠ []) : readFrom place rest = readFrom .bare rest := by
  cases hrest with
  | file => cases place <;> simp_all [readFrom, Place.endsField]
  | comma rest => cases place <;> simp_all [readFrom, Place.endsField]
  | line rest => cases place <;> simp_all [readFrom, Place.endsField]

theorem readFrom_bare {field : List Char} (h : ∀ c ∈ field, IsPlain c) (rest : List Char) :
    readFrom .bare (field ++ rest) = (readFrom .bare rest).map (consChars field) := by
  induction field with
  | nil => exact Option.map_id'.symm
  | cons c field ih =>
      rw [List.forall_mem_cons] at h
      rw [List.cons_append, readFrom_plain h.1 (.inr rfl), ih h.2, Option.map_map]
      rfl

theorem readFrom_quoted {text field : List Char} (h : QuotedText text field) (rest : List Char) :
    readFrom .quoted (text ++ '"' :: rest) = (readFrom .quoteSeen rest).map (consChars field) := by
  induction h with
  | nil =>
      rw [List.nil_append, readFrom]
      exact Option.map_id'.symm
  | quote _ ih =>
      rw [List.cons_append, List.cons_append, readFrom, readFrom, ih, Option.map_map]
      rfl
  | other hc _ ih =>
      rw [List.cons_append, readFrom, ih, Option.map_map]
      · rfl
      · exact hc

theorem endsField_of_beginsField {place : Place} (h : place.beginsField) : place.endsField := by
  cases place <;> simp_all [Place.beginsField, Place.endsField]

theorem readFrom_field {text field : List Char} (h : FieldText text field) {place : Place} (hplace : place.beginsField)
    {rest : List Char} (hrest : EndsField rest) (hne : place = .recordStart → text ++ rest ≠ []) :
    readFrom place (text ++ rest) = (readFrom .bare rest).map (consChars field) := by
  cases h with
  | @quoted text _ h =>
      have hopen : readFrom place ('"' :: (text ++ '"' :: rest)) = readFrom .quoted (text ++ '"' :: rest) := by
        cases place <;> simp_all [readFrom, Place.beginsField]
      have hseen : readFrom .quoteSeen rest = readFrom .bare rest := readFrom_endsField rfl hrest nofun
      rw [List.cons_append, List.cons_append, List.append_assoc, List.singleton_append, hopen, readFrom_quoted h, hseen]
  | bare h =>
      cases text with
      | nil =>
          exact (readFrom_endsField (endsField_of_beginsField hplace) hrest hne).trans Option.map_id'.symm
      | cons c text =>
          rw [List.forall_mem_cons] at h
          rw [List.cons_append, readFrom_plain h.1 (.inl hplace), readFrom_bare h.2, Option.map_map]
          rfl

theorem readFrom_record {text : List Char} {fields : List (List Char)} (h : RecordText text fields) {place : Place}
    (hplace : place.beginsField) (rest : List Char) :
    readFrom place (text ++ '\r' :: '\n' :: rest) = (readFrom .recordStart rest).map (fields :: ·) ∧
      ((place = .recordStart → text ≠ []) → readFrom place text = some [fields]) := by
  induction h generalizing place with
  | last h =>
      refine ⟨?_, fun hne => ?_⟩
      · rw [readFrom_field h hplace (.line rest) (by simp), readFrom, Option.map_map]
        · refine Option.map_congr fun records _ => ?_
          rw [Function.comp_apply, consChars_first, List.append_nil]
        · exact Place.noConfusion
      · have hread := readFrom_field h hplace .file (by simpa using hne)
        rw [List.append_nil] at hread
        rw [hread, readFrom]
        · simp [consChars_first, Place.endsField]
        · exact Place.noConfusion
  | @cons text field record fields h _ ih =>
      have hcomma : ∀ rest, readFrom place (text ++ ',' :: rest) =
          ((readFrom .fieldStart rest).map consField).map (consChars field) := by
        intro rest
        rw [readFrom_field h hplace (.comma rest) (by simp), readFrom]
        exact Place.noConfusion
      have hstart : Place.fieldStart.beginsField := rfl
      obtain ⟨hline, hend⟩ := ih hstart
      refine ⟨?_, fun _ => ?_⟩
      · rw [List.append_assoc, List.cons_append, hcomma, hline, Option.map_map, Option.map_map]
        refine Option.map_congr fun records _ => ?_
        rw [Function.comp_apply, Function.comp_apply, consField, consChars_first, List.append_nil]
      · rw [hcomma, hend nofun, Option.map_some, Option.map_some, consField, consChars_first, List.append_nil]

theorem readFrom_file {text : List Char} {records : Records} (h : FileText text records) :
    readFrom .recordStart text = some records := by
  induction h with
  | nil => rfl
  | unended h hne => exact (readFrom_record h rfl []).2 fun _ => hne
  | ended h _ ih => rw [(readFrom_record h rfl _).1, ih, Option.map_some]

theorem read_of_spells {text : String} {rows : List (List String)} (h : Spells text rows) : read? text = some rows := by
  rw [read?, readFrom_file h, Option.map_some, List.map_map]
  simp only [Function.comp_def, List.map_map, String.ofList_toList, List.map_id']

theorem quotedText_doubleQuotes (field : List Char) : QuotedText (doubleQuotes field) field := by
  induction field with
  | nil => exact .nil
  | cons c field ih =>
      rw [doubleQuotes]
      split_ifs with hc
      · exact hc ▸ .quote ih
      · exact .other hc ih

theorem fieldText_field (text : List Char) : FieldText (field text) text := by
  rw [field]
  split_ifs with h
  · exact .quoted (quotedText_doubleQuotes text)
  · refine .bare fun c hc => ?_
    have hplain := List.any_eq_false.mp (Bool.eq_false_iff.mpr h) c hc
    simpa [IsPlain, not_or, and_assoc] using hplain

theorem exists_recordText_record {fields : List (List Char)} (h : fields ≠ []) :
    ∃ text, RecordText text fields ∧ record fields = text ++ ['\r', '\n'] := by
  refine ⟨[','].intercalate (fields.map field), ?_, rfl⟩
  induction fields with
  | nil => exact absurd rfl h
  | cons first rest ih =>
      cases rest with
      | nil => simpa [List.intercalate] using RecordText.last (fieldText_field first)
      | cons second rest =>
          have hrest := ih (List.cons_ne_nil _ _)
          have := RecordText.cons (fieldText_field first) hrest
          simpa [List.intercalate, List.intersperse] using this

theorem spells_records {rows : List (List String)} (h : ∀ row ∈ rows, row ≠ []) : Spells (records rows) rows := by
  rw [Spells, records, String.toList_ofList]
  induction rows with
  | nil => exact .nil
  | cons row rows ih =>
      rw [List.forall_mem_cons] at h
      obtain ⟨text, htext, hrecord⟩ := exists_recordText_record (mt List.map_eq_nil_iff.mp h.1)
      rw [List.flatMap_cons, List.map_cons, hrecord, List.append_assoc]
      exact .ended htext (ih h.2)

/-- What is written spells the rows that it was written for, and no others. -/
theorem spells_records_iff {rows rows' : List (List String)} (h : ∀ row ∈ rows, row ≠ []) :
    Spells (records rows) rows' ↔ rows' = rows := by
  constructor
  · intro hspells
    have hread := (read_of_spells hspells).symm.trans (read_of_spells (spells_records h))
    exact Option.some.inj hread
  · rintro rfl
    exact spells_records h

end MediaCatalog.Text.Csv

namespace MediaCatalog.Report

open Text

/-- The report of some results spells the headings and then a row of five fields for each of them, and nothing else; and
that is what it is read as. -/
theorem csv_read_back (results : List SearchResult) :
    let rows := ["Asset ID", "Filename", "Media Type", "Date", "Location"] ::
      results.map fun result => [result.assetId, result.filename, result.mediaType, result.date.written,
        (result.location.map Location.written).getD ""]
    (∀ rows', Csv.Spells (csv results) rows' ↔ rows' = rows) ∧ Csv.read? (csv results) = some rows := by
  intro rows
  have hrows : ∀ row ∈ rows, row ≠ [] := by
    rw [List.forall_mem_cons, List.forall_mem_map]
    exact ⟨List.cons_ne_nil _ _, fun _ _ => List.cons_ne_nil _ _⟩
  have hcsv : csv results = Csv.records rows := rfl
  rw [hcsv]
  exact ⟨fun rows' => Csv.spells_records_iff hrows, Csv.read_of_spells (Csv.spells_records hrows)⟩

end MediaCatalog.Report
