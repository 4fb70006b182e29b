import MediaCatalog.Calendar.CameraStamp
import MediaCatalog.Files.Tree

/-!
The date at which an image was captured, as the file itself tells it.
-/

namespace MediaCatalog.Intake

open Calendar Files

/-- The tags that tell the date, the preferred one first. -/
def dateTags : List String :=
  ["EXIF DateTimeOriginal", "EXIF DateTimeDigitized", "Image DateTime"]

/-- The first date that some tag tells; tags with other texts are passed over. -/
def captureDate (tags : List (String × String)) : Option DateTime :=
  dateTags.findSome? fun tag => (tags.lookup tag).bind CameraStamp.read

def isImage (mediaType : String) : Bool :=
  "image/".toList.isPrefixOf mediaType.toList

/-- The date that a file tells, or why its tags cannot be read. Only images are asked. -/
def fileCaptureDate (mediaType : String) (content : FileContent) : Except String (Option DateTime) :=
  if isImage mediaType then content.embedded.map captureDate else .ok none

end MediaCatalog.Intake
