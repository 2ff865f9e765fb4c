import Asm88000.Fault
import Asm88000.Token

namespace Asm88000

-- `past` holds the consumed tokens, the last one first, and `ahead` those to come. Behind `ahead`
-- the statement ends at `stop`.
structure Cursor where
  past  : List Token
  ahead : List Token
  stop  : Loc
  deriving DecidableEq, Repr

namespace Cursor

-- A cursor at the first of some tokens. If the last one is no end of statement, the statement ends
-- where that token stands.
def ofTokens (ts : List Token) : Cursor :=
  match ts.getLast? with
  | none      => ⟨[], [], ⟨0, 1⟩⟩
  | some last => ⟨[], if last.lexeme = .endOfStatement then ts.dropLast else ts, last.loc⟩

def endToken (c : Cursor) : Token :=
  ⟨.endOfStatement, c.stop⟩

def tokens (c : Cursor) : List Token :=
  c.past.reverse ++ c.ahead ++ [c.endToken]

def position (c : Cursor) : Nat :=
  c.past.length

def peek (c : Cursor) (n : Nat) : Token :=
  c.ahead.getD n c.endToken

-- The token `n` places from the current one, in either direction. Past the end there is only the
-- end, and places before the first token count from the end.
def look? (c : Cursor) (n : Int) : Option Token :=
  let ts := c.tokens
  let i := min (c.position + n) (ts.length - 1)
  let i := if i < 0 then i + ts.length else i
  if i < 0 then none else ts[i.toNat]?

def current (c : Cursor) : Token :=
  c.ahead.headD c.endToken

def loc (c : Cursor) : Loc :=
  c.current.loc

def lastLoc (c : Cursor) : Loc :=
  match c.past with
  | t :: _ => t.loc
  | []     => c.loc

def atEnd (c : Cursor) : Bool :=
  c.current.lexeme = .endOfStatement

def sees (c : Cursor) (p : Punct) : Bool :=
  c.current.lexeme = .punct p

def advance (c : Cursor) : Cursor :=
  match c.ahead with
  | []      => c
  | t :: ts => if t.lexeme = .endOfStatement then c else ⟨t :: c.past, ts, c.stop⟩

-- Takes a token back: steps back over it if it was consumed last, else puts it before the current
-- one.
def pushBack (c : Cursor) (t : Token) : Cursor :=
  match c.past with
  | p :: ps => if p = t then ⟨ps, t :: c.ahead, c.stop⟩ else ⟨c.past, t :: c.ahead, c.stop⟩
  | []      => ⟨[], t :: c.ahead, c.stop⟩

def seek (c : Cursor) (position : Nat) : Cursor :=
  let ts := c.past.reverse ++ c.ahead
  ⟨(ts.take position).reverse, ts.drop position, c.stop⟩

def skipStatement (c : Cursor) : Cursor :=
  let skipped := c.ahead.takeWhile (fun t => t.lexeme ≠ .endOfStatement)
  ⟨skipped.reverse ++ c.past, c.ahead.drop skipped.length, c.stop⟩

end Cursor

abbrev TokenM := EStateM Error Cursor

namespace TokenM

def skip : TokenM Unit := fun c =>
  .ok () c.advance

def failHere {α : Type} (f : Fault) : TokenM α := fun c =>
  .error (f.place c.loc) c

end TokenM
end Asm88000
