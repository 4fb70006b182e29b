import MediaCatalog.Query.Predicate

/-!
The grammar of queries. An expression is a chain of conjunctions with `or` between them, a conjunction a chain
of operands with or without `and` between them, and an operand a predicate or an expression in parentheses
behind any number of negations:

    expression  := conjunction (OR conjunction)*
    conjunction := operand (AND? operand)*
    operand     := NOT* (atom | OPEN expression CLOSE)
    atom        := PREDICATE COLON (ARG COLON)* ARG?

Both kinds of chains associate to the left. A phrase of the grammar has the tokens that it is written with and
the constraint that it stands for.
-/

namespace MediaCatalog.Query

/-- A predicate: its keyword, the arguments that a colon follows, and the last one unless a colon ends it. -/
structure Atom where
  keyword : String
  inits : List String
  last : Option String

mutual

/-- A predicate or a group behind some negations. -/
inductive Operand where
  | atom (negations : Nat) (atom : Atom)
  | group (negations : Nat) (inner : Expression)

inductive Conjunction where
  | single (operand : Operand)
  | and (first : Conjunction) (spelled : Bool) (next : Operand)

inductive Expression where
  | single (conjunction : Conjunction)
  | or (first : Expression) (next : Conjunction)

end

def andToken : Token :=
  ⟨.andOp, "and"⟩

def orToken : Token :=
  ⟨.orOp, "or"⟩

def notToken : Token :=
  ⟨.notOp, "-"⟩

def openToken : Token :=
  ⟨.openParen, "("⟩

def closeToken : Token :=
  ⟨.closeParen, ")"⟩

def colonToken : Token :=
  ⟨.colon, ":"⟩

def argToken (value : String) : Token :=
  ⟨.arg, value⟩

/-- The tokens between two operands of a conjunction. -/
def junction (spelled : Bool) : List Token :=
  if spelled then [andToken] else []

/-- A constraint behind `n` negations, of which pairs cancel. -/
def negated (n : Nat) (c : Constraint) : Constraint :=
  if n % 2 = 1 then .not c else c

namespace Atom

/-- The tokens behind the first colon. -/
def argTokens (inits : List String) (last : Option String) : List Token :=
  (inits.flatMap fun value => [argToken value, colonToken]) ++ last.toList.map argToken

def tokens (a : Atom) : List Token :=
  ⟨.predicate, a.keyword⟩ :: colonToken :: argTokens a.inits a.last

/-- The arguments; a colon with nothing behind it stands before an empty one. -/
def args (a : Atom) : List String :=
  a.inits ++ [a.last.getD ""]

/-- The demand of the predicate. -/
def build (a : Atom) : Except QueryError Constraint :=
  buildPredicate a.keyword a.args

end Atom

mutual

def Operand.tokens : Operand → List Token
  | .atom n a => List.replicate n notToken ++ a.tokens
  | .group n e => List.replicate n notToken ++ openToken :: (e.tokens ++ [closeToken])

def Conjunction.tokens : Conjunction → List Token
  | .single o => o.tokens
  | .and k spelled o => k.tokens ++ (junction spelled ++ o.tokens)

def Expression.tokens : Expression → List Token
  | .single k => k.tokens
  | .or e k => e.tokens ++ orToken :: k.tokens

end

mutual

/-- The constraint that an operand stands for, or the error of the first predicate that makes no demand. -/
def Operand.tree : Operand → Except QueryError Constraint
  | .atom n a => a.build.map (negated n)
  | .group n e => e.tree.map (negated n)

def Conjunction.tree : Conjunction → Except QueryError Constraint
  | .single o => o.tree
  | .and k _ o => k.tree.bind fun lhs => o.tree.map (.and lhs)

def Expression.tree : Expression → Except QueryError Constraint
  | .single k => k.tree
  | .or e k => e.tree.bind fun lhs => k.tree.map (.or lhs)

end

mutual

/-- The predicates in their order. -/
def Operand.atoms : Operand → List Atom
  | .atom _ a => [a]
  | .group _ e => e.atoms

def Conjunction.atoms : Conjunction → List Atom
  | .single o => o.atoms
  | .and k _ o => k.atoms ++ o.atoms

def Expression.atoms : Expression → List Atom
  | .single k => k.atoms
  | .or e k => e.atoms ++ k.atoms

end

end MediaCatalog.Query
