import MediaCatalog.Calendar.DateTime
import MediaCatalog.Media.MediaType
import MediaCatalog.Text.Base64
import MediaCatalog.Text.Numeral

/-!
Keys of new assets. A key is a relative path in base 64: directories for the time of the import, rounded down
to a quarter of an hour, and a file name that is used once only.
-/

namespace MediaCatalog.Intake

open Calendar Media Text

/-- The minutes to which import times are rounded down. -/
def keyMinutes : Nat :=
  15

/-- `YYYY/MM/DD/HHMM` for the quarter of an hour of a date-time. -/
def keyDirectory (date : DateTime) : List Char :=
  let minute := date.time.minute - date.time.minute % keyMinutes
  decimal 4 date.date.year ++ '/' :: decimal 2 date.date.month ++ '/' :: decimal 2 date.date.day ++
    '/' :: decimal 2 date.time.hour ++ decimal 2 minute

/-- The path in a key: the number `unique` in hexadecimal digits, with the extension of the media type, or
`extension` if the type has none. -/
def keyPath (importDate : DateTime) (mediaType extension : String) (unique : Nat) : String :=
  let ext := (guessExtension mediaType).getD extension
  lower (String.ofList (keyDirectory importDate ++ '/' :: fixedNumeral 16 32 unique ++ ext.toList))

def newAssetKey (importDate : DateTime) (mediaType extension : String) (unique : Nat) : String :=
  Base64.encodeText (keyPath importDate mediaType extension unique)

end MediaCatalog.Intake
