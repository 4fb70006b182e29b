import MediaCatalog.Query.Token

/-!
A stream of tokens with room for one that was looked at and not taken. A stream that has come to its end
goes on with tokens for the end of the query.
-/

namespace MediaCatalog.Query

/-- The token that was looked at, if any, and those behind it. -/
structure TokenStream where
  peeked : Option Token
  upcoming : List Token
deriving DecidableEq

namespace TokenStream

def ofTokens (tokens : List Token) : TokenStream :=
  ⟨none, tokens⟩

def head (s : TokenStream) : Token :=
  s.peeked.getD (s.upcoming.head?.getD Token.endOfQuery)

def looked (s : TokenStream) : TokenStream :=
  match s.peeked with
  | some _ => s
  | none => ⟨some s.head, s.upcoming.tail⟩

def tail (s : TokenStream) : TokenStream :=
  match s.peeked with
  | some _ => ⟨none, s.upcoming⟩
  | none => ⟨none, s.upcoming.tail⟩

def next (s : TokenStream) : Token × TokenStream :=
  (s.head, s.tail)

def peek (s : TokenStream) : Token × TokenStream :=
  (s.head, s.looked)

/-- The stream after it was closed: nothing more comes from behind it. -/
def close (s : TokenStream) : TokenStream :=
  { s with upcoming := [] }

/-- The tokens from the next one on, without the endless ends of the query. -/
def tokens (s : TokenStream) : List Token :=
  s.peeked.toList ++ s.upcoming

/-- The number of tokens to come that do not stand for the end of the query. -/
def size (s : TokenStream) : Nat :=
  s.tokens.countP fun token => token.kind ≠ .eof

@[simp] theorem head_looked (s : TokenStream) : s.looked.head = s.head := by
  rcases s with ⟨_ | _, _⟩ <;> rfl

@[simp] theorem tail_looked (s : TokenStream) : s.looked.tail = s.tail := by
  rcases s with ⟨_ | _, _⟩ <;> rfl

@[simp] theorem size_looked (s : TokenStream) : s.looked.size = s.size := by
  rcases s with ⟨_ | token, _ | ⟨first, rest⟩⟩ <;> simp [looked, size, tokens, head, Token.endOfQuery]

theorem size_tail_le (s : TokenStream) : s.tail.size ≤ s.size := by
  rcases s with ⟨_ | token, _ | ⟨first, rest⟩⟩ <;>
    simp [tail, size, tokens, List.countP_cons]

theorem size_tail_lt {s : TokenStream} (h : s.head.kind ≠ .eof) : s.tail.size < s.size := by
  rcases s with ⟨_ | token, _ | ⟨first, rest⟩⟩ <;>
    simp_all [tail, size, tokens, head, Token.endOfQuery, List.countP_cons]

/-- Takes everything up to the end of the query or an error, and closes the stream. -/
def drain (s : TokenStream) : List Token × TokenStream :=
  if s.head.kind = .eof ∨ s.head.kind = .error then ([s.head], s.tail.close)
  else
    let (taken, rest) := drain s.tail
    (s.head :: taken, rest)
termination_by s.size
decreasing_by
  rename_i h
  exact size_tail_lt fun heof => h (Or.inl heof)

end TokenStream

end MediaCatalog.Query
