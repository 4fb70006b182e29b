import MediaCatalog.Text.Numeral
import MediaCatalog.Text.Printable

/-!
A text shown between quotes, on one line and with nothing invisible in it, as messages name values.
-/

namespace MediaCatalog.Text

/-- Double quotes are for a text that holds a single quote and no double one. -/
def quoteFor (text : List Char) : Char :=
  if text.contains '\'' && !text.contains '"' then '"' else '\''

/-- A character between the given quotes; one that is not printable appears by its code point. -/
def quotedChar (quote c : Char) : List Char :=
  if c = quote || c = '\\' then ['\\', c]
  else if c = '\n' then ['\\', 'n']
  else if c = '\r' then ['\\', 'r']
  else if c = '\t' then ['\\', 't']
  else if isPrintable c then [c]
  else
    let n := c.toNat
    if n ≤ 0xFF then '\\' :: 'x' :: fixedNumeral 16 2 n
    else if n ≤ 0xFFFF then '\\' :: 'u' :: fixedNumeral 16 4 n
    else '\\' :: 'U' :: fixedNumeral 16 8 n

def quoted (text : String) : String :=
  let chars := text.toList
  let quote := quoteFor chars
  String.ofList (quote :: chars.flatMap (quotedChar quote) ++ [quote])

end MediaCatalog.Text
