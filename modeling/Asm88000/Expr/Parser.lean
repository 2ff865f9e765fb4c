import Asm88000.Expr
import Asm88000.Token.Cursor

namespace Asm88000.Expr

def isHalfSelector (name : String) : Bool :=
  name = "hi16" || name = "lo16"

-- The bound on the recursion is at least the number of tokens ahead, so at zero the statement ends.
mutual

def parseTerm : Nat → TokenM Expr
  | 0 => TokenM.failHere .unknownToken
  | n + 1 => do
    let tok := (← get).current
    match tok.lexeme with
    | .integer _ v =>
      TokenM.skip
      return .const v
    | .punct .plus =>
      TokenM.skip
      parseTerm n
    | .punct .minus =>
      TokenM.skip
      match ← parseTerm n with
      | .const v => return .const (-v)
      | _        => throw (Fault.negatedSymbol.place tok.loc)
    | .punct .lparen =>
      TokenM.skip
      if (← get).current.lexeme.startsExpr then
        let e ← parseSum n (← parseTerm n)
        if (← get).sees .rparen then
          TokenM.skip
          return e
        else TokenM.failHere .unclosedParen
      else TokenM.failHere .unknownToken
    | .identifier name =>
      TokenM.skip
      if isHalfSelector name && (← get).sees .lparen then
        TokenM.skip
        if (← get).current.lexeme.startsExpr then
          let e ← parseSum n (← parseTerm n)
          if (← get).sees .rparen then
            TokenM.skip
            return .half name e
          else TokenM.failHere (.halfArgument name)
        else TokenM.failHere (.halfArgument name)
      else return .symbol name
    | _ => TokenM.failHere .unknownToken

def parseSum : Nat → Expr → TokenM Expr
  | 0, e => return e
  | n + 1, e => do
    let op := (← get).current
    match op.lexeme with
    | .punct .plus =>
      TokenM.skip
      parseSum n (e.add (← parseTerm n))
    | .punct .minus =>
      TokenM.skip
      match ← parseTerm n with
      | .const v => parseSum n (e.add (.const (-v)))
      | _        => throw (Fault.symbolDifference.place op.loc)
    | _ => return e

end

def parse : TokenM (Option Expr) := do
  let c ← get
  if c.current.lexeme.startsExpr then
    let t ← parseTerm c.ahead.length
    return some (← parseSum c.ahead.length t)
  else return none

end Asm88000.Expr
