import MediaCatalog.Text.Lowercase.Table

/-!
Lowercasing by the full Unicode mapping. One character can become two, and a capital sigma at the end of
a word becomes a final sigma, so the lowercase of a text is more than that of its characters.
-/

namespace MediaCatalog.Text

/-- The lowercase of the letter with code point `n` by the first run that has it. -/
def lowerByRuns (n : Nat) : List CapitalRun → Nat
  | [] => n
  | run :: runs =>
    if n < run.first then n
    else if n ≤ run.last then
      if (n - run.first) % run.step = 0 then run.image + (n - run.first) else n
    else lowerByRuns n runs

def lowerChar (c : Char) : List Char :=
  if c.toNat < 0x80 then [c.toLower]
  else if c = 'İ' then ['i', '\u0307']
  else [Char.ofNat (lowerByRuns c.toNat capitalRuns)]

def isCased (c : Char) : Bool :=
  if c.toNat < 0x80 then c.isAlpha else memRanges c.toNat casedRanges

/-- A character that does not end a word for the sake of a sigma, such as an apostrophe or an accent. -/
def isCaseIgnorable (c : Char) : Bool :=
  if c.toNat < 0x80 then c = '\'' || c = '.' || c = ':' || c = '^' || c = '`'
  else memRanges c.toNat caseIgnorableRanges

/-- Whether a cased letter comes next, case-ignorable characters left out of account. -/
def meetsCased : List Char → Bool
  | [] => false
  | c :: rest => if isCaseIgnorable c then meetsCased rest else isCased c

/-- The lowercase of `c` between the characters before it, nearest first, and those after it. -/
def lowerBetween (before : List Char) (c : Char) (after : List Char) : List Char :=
  if c = 'Σ' then
    [if meetsCased before && !meetsCased after then 'ς' else 'σ']
  else lowerChar c

/-- The lowercase of a text whose earlier characters are `before`, nearest first. -/
def lowerFrom (before : List Char) : List Char → List Char
  | [] => []
  | c :: rest => lowerBetween before c rest ++ lowerFrom (c :: before) rest

def lowerChars (text : List Char) : List Char :=
  lowerFrom [] text

def lower (text : String) : String :=
  String.ofList (lowerChars text.toList)

/-- The text with the letters `A` to `Z` in lowercase and all else as it is. -/
def asciiLower (text : String) : String :=
  String.ofList (text.toList.map Char.toLower)

end MediaCatalog.Text
