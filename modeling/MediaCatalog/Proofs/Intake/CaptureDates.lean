import MediaCatalog.Intake.CaptureDate
import MediaCatalog.Proofs.Calendar.CameraStamps

/-!
The capture date of an image is the one that the first of its date tags tells. A tag tells a date if its text is a stamp;
a tag that is missing, or whose text is none, is passed over.
-/

namespace MediaCatalog.Intake

open Calendar

def Tells (tags : List (String × String)) (tag : String) (date : DateTime) : Prop :=
  ∃ text, tags.lookup tag = some text ∧ CameraStamp.IsStampOf text date

section

variable {tags : List (String × String)} {tag : String} {date : DateTime}

theorem tells_iff : Tells tags tag date ↔ (tags.lookup tag).bind CameraStamp.read = some date := by
  simp only [Tells, Option.bind_eq_some_iff, CameraStamp.read_eq_some_iff]

theorem forall_not_tells_iff :
    (∀ date, ¬ Tells tags tag date) ↔ (tags.lookup tag).bind CameraStamp.read = none := by
  simp only [tells_iff, Option.eq_none_iff_forall_ne_some, ne_eq]

theorem captureDate_eq_some_iff : captureDate tags = some date ↔ ∃ before tag after, dateTags = before ++ tag :: after ∧
    (∀ earlier ∈ before, ∀ date, ¬ Tells tags earlier date) ∧ Tells tags tag date := by
  simp only [forall_not_tells_iff, captureDate, List.findSome?_eq_some_iff]
  simp only [tells_iff, and_comm]

theorem captureDate_eq_none_iff : captureDate tags = none ↔ ∀ tag ∈ dateTags, ∀ date, ¬ Tells tags tag date := by
  simp only [forall_not_tells_iff, captureDate, List.findSome?_eq_none_iff]

end

/-- The first date tag whose text is a stamp tells the capture date, and without such a tag there is none. Where a camera
wrote a time in whole seconds, that very time is read, as universal time. -/
theorem captureDate_reads (tags : List (String × String)) :
    (∀ date, captureDate tags = some date ↔ ∃ before tag after, dateTags = before ++ tag :: after ∧
      (∀ earlier ∈ before, ∀ date, ¬ Tells tags earlier date) ∧ Tells tags tag date) ∧
    (captureDate tags = none ↔ ∀ tag ∈ dateTags, ∀ date, ¬ Tells tags tag date) ∧
    ∀ before tag after (date : Date) (time : TimeOfDay), dateTags = before ++ tag :: after →
      (∀ earlier ∈ before, ∀ date, ¬ Tells tags earlier date) → time.microsecond = 0 →
        tags.lookup tag = some (CameraStamp.written date time) →
          captureDate tags = some ⟨date, time, some Offset.utc⟩ := by
  refine ⟨fun date => captureDate_eq_some_iff, captureDate_eq_none_iff, ?_⟩
  intro before tag after date time htags hbefore htime htext
  have htells : Tells tags tag ⟨date, time, some Offset.utc⟩ :=
    ⟨_, htext, CameraStamp.isStampOf_written date htime⟩
  exact captureDate_eq_some_iff.mpr ⟨before, tag, after, htags, hbefore, htells⟩

end MediaCatalog.Intake
