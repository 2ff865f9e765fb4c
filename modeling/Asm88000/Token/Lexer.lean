import Asm88000.Fault
import Asm88000.Token

namespace Asm88000.Lexer

def isSpace (c : Char) : Bool :=
  c = ' ' || c = '\t' || c = '\r' || c = '\n'

def startsComment (c : Char) : Bool :=
  c = ';' || c = '|'

def startsIdentifier (c : Char) : Bool :=
  c.isAlpha || c = '_' || c = '.' || c = '$'

def isIdentifierChar (c : Char) : Bool :=
  c.isAlphanum || c = '_' || c = '.' || c = '$'

inductive Radix
  | hex
  | bin
  | oct
  | dec
  deriving DecidableEq, Repr

namespace Radix

def base : Radix → Nat
  | hex => 16
  | bin => 2
  | oct => 8
  | dec => 10

def mark? : Char → Option Radix
  | 'x' | 'X' => some hex
  | 'b' | 'B' => some bin
  | 'o' | 'O' => some oct
  | _         => none

end Radix

def digitValue (c : Char) : Nat :=
  if c.isDigit then c.toNat - 48
  else if 'a' ≤ c && c ≤ 'f' then c.toNat - 87
  else if 'A' ≤ c && c ≤ 'F' then c.toNat - 55
  else 16

def isDigitOf (r : Radix) (c : Char) : Bool :=
  digitValue c < r.base

def digitsValue (r : Radix) (ds : List Char) : Nat :=
  ds.foldl (fun n d => n * r.base + digitValue d) 0

structure Literal where
  spelling : List Char
  value    : Nat
  rest     : List Char

def decimalLiteral (cs : List Char) : Literal where
  spelling := cs.takeWhile (isDigitOf .dec)
  value    := digitsValue .dec (cs.takeWhile (isDigitOf .dec))
  rest     := cs.dropWhile (isDigitOf .dec)

-- A zero and a radix letter are part of the literal only if a digit of that radix follows;
-- otherwise the zero begins a decimal literal.
def literal : List Char → Literal
  | '0' :: m :: cs =>
    match Radix.mark? m with
    | some r =>
      let ds := cs.takeWhile (isDigitOf r)
      if ds.isEmpty then decimalLiteral ('0' :: m :: cs)
      else { spelling := '0' :: m :: ds, value := digitsValue r ds, rest := cs.drop ds.length }
    | none => decimalLiteral ('0' :: m :: cs)
  | cs => decimalLiteral cs

-- Tokens of the characters `cs`, the first of which stands at column `col`. The bound `n` is at
-- least the number of characters; `stop` is where the statement ends.
def scan (line : Int) (stop : Loc) : (n col : Nat) → (cs : List Char) → Except Error (List Token)
  | 0, _, _ => .ok [⟨.endOfStatement, stop⟩]
  | _, _, [] => .ok [⟨.endOfStatement, stop⟩]
  | n + 1, col, c :: cs =>
    let loc : Loc := ⟨line, col⟩
    if isSpace c then scan line stop n (col + 1) cs
    else if startsComment c then .ok [⟨.endOfStatement, stop⟩]
    else if c.isDigit then
      let lit := literal (c :: cs)
      match lit.rest with
      | next :: _ =>
        if isIdentifierChar next then
          .error (Fault.place (.invalidInteger (String.ofList lit.spelling) next) loc)
        else do
          let ts ← scan line stop n (col + lit.spelling.length) lit.rest
          return ⟨.integer (String.ofList lit.spelling) lit.value, loc⟩ :: ts
      | [] => .ok [⟨.integer (String.ofList lit.spelling) lit.value, loc⟩, ⟨.endOfStatement, stop⟩]
    else if startsIdentifier c then do
      let name := c :: cs.takeWhile isIdentifierChar
      let ts ← scan line stop n (col + name.length) (cs.dropWhile isIdentifierChar)
      return ⟨.identifier (String.ofList name), loc⟩ :: ts
    else match Punct.ofChar? c with
      | some p => do
        let ts ← scan line stop n (col + 1) cs
        return ⟨.punct p, loc⟩ :: ts
      | none => .error (Fault.place (.invalidCharacter c) loc)

end Asm88000.Lexer

namespace Asm88000

def tokenize (line : Int) (text : String) : Except Error (List Token) :=
  let cs := text.toList
  Lexer.scan line ⟨line, cs.length + 1⟩ cs.length 1 cs

end Asm88000
