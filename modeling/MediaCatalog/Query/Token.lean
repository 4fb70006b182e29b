import MediaCatalog.Text.Choice

/-!
Tokens of the query language.
-/

namespace MediaCatalog.Query

open Text

inductive TokenKind where
  | andOp
  | arg
  | closeParen
  | colon
  | eof
  | error
  | notOp
  | openParen
  | orOp
  | predicate
deriving DecidableEq

namespace TokenKind

def name : TokenKind → String
  | andOp => "and"
  | arg => "arg"
  | closeParen => "close"
  | colon => "colon"
  | eof => "eof"
  | error => "error"
  | notOp => "not"
  | openParen => "open"
  | orOp => "or"
  | predicate => "predicate"

def all : List TokenKind :=
  [andOp, arg, closeParen, colon, eof, error, notOp, openParen, orOp, predicate]

def ofName (name : String) : Except UnknownChoice TokenKind :=
  choose "TokenType" name (all.map fun kind => (kind.name, kind))

end TokenKind

/-- A token: its kind and its text, or, of an error, the message. -/
structure Token where
  kind : TokenKind
  value : String
deriving DecidableEq

namespace Token

/-- What there is when no tokens are left. -/
def endOfQuery : Token :=
  ⟨.eof, ""⟩

def written (token : Token) : String :=
  if token.kind = .eof then "end of query"
  else token.kind.name ++ " " ++ quoted token.value

end Token

end MediaCatalog.Query
