import MediaCatalog.Query.Token

/-!
A cursor moves over the text of a query and cuts tokens out of it. The text is in three parts: what belongs
to earlier tokens or was passed over, what is held for the next token, and what is still ahead. The lemmas
`input_…` say that no operation changes the text that these parts make up.
-/

namespace MediaCatalog.Query

/-- A place in a text. `passed` and `held` have the nearest character first. -/
structure Cursor where
  passed : List Char
  held : List Char
  ahead : List Char
  queue : List Token

namespace Cursor

def ofChars (text : List Char) : Cursor :=
  ⟨[], [], text, []⟩

def input (c : Cursor) : List Char :=
  c.passed.reverse ++ (c.held.reverse ++ c.ahead)

def start (c : Cursor) : Nat :=
  c.passed.length

def pos (c : Cursor) : Nat :=
  c.passed.length + c.held.length

def ignore (c : Cursor) : Cursor :=
  { c with passed := c.held ++ c.passed, held := [] }

/-- Goes back to the first character that is held. -/
def rewind (c : Cursor) : Cursor :=
  { c with held := [], ahead := c.held.reverse ++ c.ahead }

/-- Queues a token with a text of its own in place of what is held. -/
def emitValue (kind : TokenKind) (value : String) (c : Cursor) : Cursor :=
  { c.ignore with queue := c.queue ++ [⟨kind, value⟩] }

def emit (kind : TokenKind) (c : Cursor) : Cursor :=
  c.emitValue kind (String.ofList c.held.reverse)

def takeQueue (c : Cursor) : List Token × Cursor :=
  (c.queue, { c with queue := [] })

def peek (c : Cursor) : Option Char :=
  c.ahead.head?

def atEnd (c : Cursor) : Bool :=
  c.ahead.isEmpty

def isAt (valid : List Char) (c : Cursor) : Bool :=
  c.peek.any valid.contains

def hold (n : Nat) (c : Cursor) : Cursor :=
  { c with held := (c.ahead.take n).reverse ++ c.held, ahead := c.ahead.drop n }

def next (c : Cursor) : Option Char × Cursor :=
  (c.peek, c.hold 1)

/-- Holds the characters ahead that satisfy `p`, and tells whether there were any. -/
def acceptWhile (p : Char → Bool) (c : Cursor) : Bool × Cursor :=
  let n := (c.ahead.takeWhile p).length
  (n != 0, c.hold n)

def acceptRun (valid : List Char) (c : Cursor) : Bool × Cursor :=
  c.acceptWhile valid.contains

/-- Holds the expected text, or gives back all that is held if something else is ahead. -/
def acceptText : List Char → Cursor → Bool × Cursor
  | [], c => (true, c)
  | e :: expected, c =>
    if c.peek = some e then acceptText expected (c.hold 1) else (false, c.rewind)

@[simp] theorem input_ofChars (text : List Char) : (ofChars text).input = text := by
  simp [ofChars, input]

@[simp] theorem input_ignore (c : Cursor) : c.ignore.input = c.input := by
  simp [ignore, input]

@[simp] theorem input_rewind (c : Cursor) : c.rewind.input = c.input := by
  simp [rewind, input]

@[simp] theorem input_emitValue (kind : TokenKind) (value : String) (c : Cursor) :
    (c.emitValue kind value).input = c.input :=
  input_ignore c

@[simp] theorem input_emit (kind : TokenKind) (c : Cursor) : (c.emit kind).input = c.input :=
  input_ignore c

@[simp] theorem input_takeQueue (c : Cursor) : c.takeQueue.2.input = c.input := rfl

@[simp] theorem input_hold (n : Nat) (c : Cursor) : (c.hold n).input = c.input := by
  simp only [hold, input, List.reverse_append, List.reverse_reverse, List.append_assoc,
    List.take_append_drop]

@[simp] theorem input_acceptWhile (p : Char → Bool) (c : Cursor) :
    (c.acceptWhile p).2.input = c.input :=
  input_hold _ c

/-- What neither holding a character nor going back changes is not changed by the search for a text. -/
theorem acceptText_keeps {α : Type} {f : Cursor → α} (hhold : ∀ c, f (c.hold 1) = f c)
    (hrewind : ∀ c, f c.rewind = f c) (expected : List Char) (c : Cursor) :
    f (c.acceptText expected).2 = f c := by
  induction expected generalizing c with
  | nil => rfl
  | cons e expected ih =>
      rw [acceptText]
      split
      · exact (ih (c.hold 1)).trans (hhold c)
      · exact hrewind c

@[simp] theorem input_acceptText (expected : List Char) (c : Cursor) :
    (c.acceptText expected).2.input = c.input :=
  acceptText_keeps (input_hold 1) input_rewind expected c

theorem start_le_pos (c : Cursor) : c.start ≤ c.pos := by
  unfold start pos
  omega

theorem pos_le_length_input (c : Cursor) : c.pos ≤ c.input.length := by
  simp only [pos, input, List.length_append, List.length_reverse]
  omega

end Cursor

end MediaCatalog.Query
