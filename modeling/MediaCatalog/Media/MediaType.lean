import MediaCatalog.Files.Path
import MediaCatalog.Media.Table

/-!
The media type of a file by its name, and the extension of a file by its media type.
-/

namespace MediaCatalog.Media

open Files Text

def unknownType : String :=
  "application/octet-stream"

/-- A name split before its last dot, unless there are only dots before it. -/
def splitExtension (name : List Char) : List Char × List Char :=
  match splitLastDot name with
  | some (stem, ext) => if stem.all (· = '.') then (name, []) else (stem, ext)
  | none => (name, [])

/-- A combined extension written out as the two that it stands for. -/
def expandExtension (name : List Char) : List Char :=
  let (stem, ext) := splitExtension name
  match combinedExtensions.lookup (lower (String.ofList ext)) with
  | some both => stem ++ both.toList
  | none => name

def dropCompression (name : List Char) : List Char :=
  let (stem, ext) := splitExtension name
  if compressionExtensions.contains (String.ofList ext) then stem else name

def typeOfName (name : List Char) : Option String :=
  let (_, ext) := splitExtension (dropCompression (expandExtension name))
  let key := lower (String.ofList ext)
  registeredTypes.lookup key <|> unregisteredTypes.lookup key

/-- The media type of a name in which a scheme may stand before a colon. The scheme `data` means plain text
that stands in the name after a comma. -/
def guessType (name : String) : Option String :=
  let chars := name.toList
  let scheme := before ':' chars
  match after? ':' chars with
  | none => typeOfName chars
  | some rest =>
    if scheme = [] then typeOfName chars
    else if lowerChars scheme = ['d', 'a', 't', 'a'] then
      if rest.contains ',' then some "text/plain" else none
    else typeOfName rest

def inferMediaType (path : FilePath) : String :=
  match cameraTypes.lookup (lower (extension path.name)) with
  | some type => type
  | none => (guessType path.name).getD unknownType

def firstExtension (table : ExtensionTable) (type : String) : Option String :=
  (table.find? fun entry => entry.2 = type).map Prod.fst

def guessExtension (type : String) : Option String :=
  let key := lower type
  firstExtension registeredTypes key <|> firstExtension unregisteredTypes key

end MediaCatalog.Media
