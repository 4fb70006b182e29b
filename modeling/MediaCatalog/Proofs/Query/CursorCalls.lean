import MediaCatalog.Query.Cursor

/-!
Any calls of a cursor, in any order. Each call cuts at most the text between the start and the position off what is
ahead of the start, so the text before the start is made up of what was cut off, call by call; and the tokens that
are queued come out of the queue once, in their order.
-/

namespace MediaCatalog.Query

/-- What a call of a cursor answers. -/
inductive CursorAnswer where
  | nothing
  | flag (b : Bool)
  | char (ch : Option Char)
  | taken (tokens : List Token)

/-- The tokens that an answer hands over. -/
def CursorAnswer.handed : CursorAnswer → List Token
  | .taken tokens => tokens
  | _ => []

inductive CursorCall where
  | next
  | peek
  | ignore
  | rewind
  | atEnd
  | isAt (valid : List Char)
  | acceptText (expected : List Char)
  | acceptRun (valid : List Char)
  | acceptWhile (p : Char → Bool)
  | emit (kind : TokenKind)
  | emitValue (kind : TokenKind) (value : String)
  | takeQueue

namespace Cursor

/-- The text from the start of a cursor to its position. -/
def span (c : Cursor) : List Char :=
  c.input.extract c.start c.pos

theorem take_start (c : Cursor) : c.input.take c.start = c.passed.reverse := by
  rw [input, start, ← List.length_reverse, List.take_left]

theorem span_eq (c : Cursor) : c.span = c.held.reverse := by
  have hlength : c.pos - c.start = c.held.reverse.length := by
    simp [pos, start]
  rw [span, List.extract_eq_take_drop, input, List.drop_left' (by simp [start]), List.take_left' hlength.symm]

theorem peek_eq (c : Cursor) : c.peek = c.input[c.pos]? := by
  have hpos : c.pos = (c.passed.reverse ++ c.held.reverse).length := by
    simp [pos]
  rw [peek, input, ← List.append_assoc, hpos, List.getElem?_append_right (Nat.le_refl _), Nat.sub_self,
    List.head?_eq_getElem?]

theorem passed_acceptText (expected : List Char) (c : Cursor) : (c.acceptText expected).2.passed = c.passed :=
  acceptText_keeps (fun _ => rfl) (fun _ => rfl) expected c

theorem queue_acceptText (expected : List Char) (c : Cursor) : (c.acceptText expected).2.queue = c.queue :=
  acceptText_keeps (fun _ => rfl) (fun _ => rfl) expected c

/-- Where the expected text is not found, all that was held is given back. -/
theorem held_acceptText {expected : List Char} {c : Cursor} (h : (c.acceptText expected).1 = false) :
    (c.acceptText expected).2.held = [] := by
  induction expected generalizing c with
  | nil => cases h
  | cons e expected ih =>
      rw [acceptText] at h ⊢
      split at h
      · rename_i hpeek
        rw [if_pos hpeek]
        exact ih h
      · rename_i hpeek
        rw [if_neg hpeek]
        rfl

end Cursor

namespace CursorCall

/-- The answer to a call, and the cursor behind it. -/
def perform : CursorCall → Cursor → CursorAnswer × Cursor
  | .next, c => (.char c.next.1, c.next.2)
  | .peek, c => (.char c.peek, c)
  | .ignore, c => (.nothing, c.ignore)
  | .rewind, c => (.nothing, c.rewind)
  | .atEnd, c => (.flag c.atEnd, c)
  | .isAt valid, c => (.flag (c.isAt valid), c)
  | .acceptText expected, c => (.flag (c.acceptText expected).1, (c.acceptText expected).2)
  | .acceptRun valid, c => (.flag (c.acceptRun valid).1, (c.acceptRun valid).2)
  | .acceptWhile p, c => (.flag (c.acceptWhile p).1, (c.acceptWhile p).2)
  | .emit kind, c => (.nothing, c.emit kind)
  | .emitValue kind value, c => (.nothing, c.emitValue kind value)
  | .takeQueue, c => (.taken c.takeQueue.1, c.takeQueue.2)

/-- The tokens that a call puts into the queue. -/
def queued : CursorCall → Cursor → List Token
  | .emit kind, c => [⟨kind, String.ofList c.span⟩]
  | .emitValue kind value, _ => [⟨kind, value⟩]
  | _, _ => []

/-- The tokens that a call hands over. -/
def handed (call : CursorCall) (c : Cursor) : List Token :=
  (call.perform c).1.handed

/-- What a call cuts off the text: the value of the token that it queues for it, or what it passes over. -/
def cut : CursorCall → Cursor → List Char
  | .emit kind, c => (queued (.emit kind) c).flatMap fun token => token.value.toList
  | .ignore, c | .emitValue _ _, c => c.span
  | _, _ => []

/-- What `f` tells of each of some calls, in their order. -/
def gather {α : Type} (f : CursorCall → Cursor → List α) : List CursorCall → Cursor → List α
  | [], _ => []
  | call :: calls, c => f call c ++ gather f calls (call.perform c).2

end CursorCall

namespace Cursor

/-- The cursor after some calls. -/
def performAll (c : Cursor) (calls : List CursorCall) : Cursor :=
  calls.foldl (fun c call => (call.perform c).2) c

end Cursor

namespace CursorCall

theorem input_perform (call : CursorCall) (c : Cursor) : (call.perform c).2.input = c.input := by
  cases call with
  | next => exact Cursor.input_hold 1 c
  | ignore => exact Cursor.input_ignore c
  | rewind => exact Cursor.input_rewind c
  | acceptText expected => exact Cursor.input_acceptText expected c
  | acceptRun valid => exact Cursor.input_acceptWhile _ c
  | acceptWhile p => exact Cursor.input_acceptWhile p c
  | emit kind => exact Cursor.input_emit kind c
  | emitValue kind value => exact Cursor.input_emitValue kind value c
  | takeQueue => exact Cursor.input_takeQueue c
  | peek | atEnd | isAt => rfl

/-- The start moves over what a call cuts off, and over nothing else. -/
theorem passed_perform (call : CursorCall) (c : Cursor) :
    (call.perform c).2.passed.reverse = c.passed.reverse ++ call.cut c := by
  have hignore : c.ignore.passed.reverse = c.passed.reverse ++ c.span := by
    rw [Cursor.span_eq]
    exact List.reverse_append
  cases call with
  | ignore => exact hignore
  | emitValue kind value => exact hignore
  | emit kind =>
      have hvalue : (emit kind).cut c = c.span := by
        simp [cut, queued]
      rw [hvalue]
      exact hignore
  | acceptText expected =>
      rw [perform, Cursor.passed_acceptText]
      exact (List.append_nil _).symm
  | next | peek | rewind | atEnd | isAt | acceptRun | acceptWhile | takeQueue =>
      exact (List.append_nil _).symm

theorem handed_append_queue (call : CursorCall) (c : Cursor) :
    call.handed c ++ (call.perform c).2.queue = c.queue ++ call.queued c := by
  cases call with
  | emit kind =>
      rw [queued, Cursor.span_eq]
      rfl
  | emitValue kind value => rfl
  | takeQueue => rfl
  | acceptText expected =>
      rw [perform, Cursor.queue_acceptText]
      exact (List.append_nil _).symm
  | next | peek | ignore | rewind | atEnd | isAt | acceptRun | acceptWhile =>
      exact (List.append_nil _).symm

end CursorCall

namespace Cursor

open CursorCall

variable (c : Cursor) (calls : List CursorCall)

theorem input_performAll : (c.performAll calls).input = c.input := by
  induction calls generalizing c with
  | nil => rfl
  | cons call calls ih => exact (ih (call.perform c).2).trans (call.input_perform c)

theorem passed_performAll :
    (c.performAll calls).passed.reverse = c.passed.reverse ++ gather cut calls c := by
  induction calls generalizing c with
  | nil => exact (List.append_nil _).symm
  | cons call calls ih =>
      have hrest := ih (call.perform c).2
      rw [call.passed_perform, List.append_assoc] at hrest
      exact hrest

theorem start_performAll : (c.performAll calls).start = c.start + (gather cut calls c).length := by
  have hlength := congrArg List.length (c.passed_performAll calls)
  rwa [List.length_reverse, List.length_append, List.length_reverse] at hlength

theorem gather_append {α : Type} (f : CursorCall → Cursor → List α) (more : List CursorCall) :
    gather f (calls ++ more) c = gather f calls c ++ gather f more (c.performAll calls) := by
  induction calls generalizing c with
  | nil => rfl
  | cons call calls ih =>
      rw [List.cons_append, gather, ih, ← List.append_assoc]
      rfl

theorem gather_handed_append_queue :
    gather handed calls c ++ (c.performAll calls).queue = c.queue ++ gather queued calls c := by
  induction calls generalizing c with
  | nil => exact (List.append_nil _).symm
  | cons call calls ih =>
      have hrest := ih (call.perform c).2
      calc
        gather handed (call :: calls) c ++ (c.performAll (call :: calls)).queue
          = call.handed c ++ (gather handed calls (call.perform c).2 ++
              ((call.perform c).2.performAll calls).queue) := List.append_assoc _ _ _
        _ = (call.handed c ++ (call.perform c).2.queue) ++ gather queued calls (call.perform c).2 := by
          rw [hrest, List.append_assoc]
        _ = c.queue ++ gather queued (call :: calls) c := by
          rw [call.handed_append_queue, List.append_assoc, gather]

/-- How a cursor has got over a text by some calls. -/
structure Traverses (text : List Char) (calls : List CursorCall) (c : Cursor) : Prop where
  input : c.input = text
  start_le_pos : c.start ≤ c.pos
  pos_le_length : c.pos ≤ text.length
  /-- The position is that of the character ahead. -/
  peek : c.peek = text[c.pos]?
  /-- The start never goes back. -/
  start_le_start : ∀ more, c.start ≤ (c.performAll more).start
  /-- The text before the start is what was cut off it, in order. -/
  take_start : text.take c.start = gather cut calls (ofChars text)
  /-- What was queued was handed over or is still in the queue. -/
  queue : gather handed calls (ofChars text) ++ c.queue = gather queued calls (ofChars text)
  /-- Once the queue is taken, all that was queued has been handed over. -/
  takeQueue : gather handed (calls ++ [.takeQueue]) (ofChars text) = gather queued calls (ofChars text)
  acceptText : ∀ expected, (c.acceptText expected).1 = false →
    (c.acceptText expected).2.start = c.start ∧ (c.acceptText expected).2.pos = c.start ∧
      (c.acceptText expected).2.queue = c.queue

theorem traverses_performAll (text : List Char) (calls : List CursorCall) :
    Traverses text calls ((ofChars text).performAll calls) := by
  have hinput : ((ofChars text).performAll calls).input = text := by
    rw [input_performAll, input_ofChars]
  have hqueue : gather handed calls (ofChars text) ++ ((ofChars text).performAll calls).queue =
      gather queued calls (ofChars text) := gather_handed_append_queue _ calls
  generalize hc : (ofChars text).performAll calls = c at hinput hqueue
  constructor
  · exact hinput
  · exact c.start_le_pos
  · exact hinput ▸ c.pos_le_length_input
  · exact hinput ▸ c.peek_eq
  · intro more
    rw [c.start_performAll]
    exact Nat.le_add_right _ _
  · rw [← hinput, c.take_start, hinput, ← hc, passed_performAll]
    rfl
  · exact hqueue
  · rw [gather_append, hc, ← hqueue]
    exact congrArg _ (List.append_nil _)
  · intro expected hfails
    have hstart : (c.acceptText expected).2.start = c.start := congrArg List.length (c.passed_acceptText expected)
    refine ⟨hstart, ?_, c.queue_acceptText expected⟩
    rw [← hstart, pos, held_acceptText hfails]
    rfl

/-- A text that is not found gives back what was accepted before it, too. -/
example : ((ofChars ['o', 'r', 'd', ':']).performAll [.acceptText ['o', 'r'], .acceptText [':']]).pos = 0 := by
  decide

end Cursor

end MediaCatalog.Query
