/-!
Records as comma separated values: a field that holds a comma, a quote or a line end stands between quotes,
a quote inside it is written twice, and every record ends with a carriage return and a line feed.
-/

namespace MediaCatalog.Text.Csv

def needsQuotes (field : List Char) : Bool :=
  field.any fun c => c = ',' || c = '"' || c = '\r' || c = '\n'

/-- A field with every quote written twice. -/
def doubleQuotes : List Char → List Char
  | [] => []
  | c :: rest => if c = '"' then '"' :: '"' :: doubleQuotes rest else c :: doubleQuotes rest

def field (text : List Char) : List Char :=
  if needsQuotes text then '"' :: doubleQuotes text ++ ['"'] else text

def record (fields : List (List Char)) : List Char :=
  [','].intercalate (fields.map field) ++ ['\r', '\n']

def records (rows : List (List String)) : String :=
  String.ofList (rows.flatMap fun row => record (row.map String.toList))

end MediaCatalog.Text.Csv
