import Asm88000.Loc

namespace Asm88000

inductive Punct
  | percent | comma | less | greater | lbrack | rbrack | lparen | rparen | plus | minus | colon
  deriving DecidableEq, Repr

namespace Punct

def all : List Punct :=
  [percent, comma, less, greater, lbrack, rbrack, lparen, rparen, plus, minus, colon]

def toChar : Punct → Char
  | percent => '%'
  | comma   => ','
  | less    => '<'
  | greater => '>'
  | lbrack  => '['
  | rbrack  => ']'
  | lparen  => '('
  | rparen  => ')'
  | plus    => '+'
  | minus   => '-'
  | colon   => ':'

def ofChar? (c : Char) : Option Punct :=
  all.find? (fun p => p.toChar == c)

end Punct

-- An integer keeps its spelling, since `0x10` and `16` have the same value.
inductive Lexeme
  | identifier (name : String)
  | integer (spelling : String) (value : Nat)
  | punct (p : Punct)
  | endOfStatement
  deriving DecidableEq, Repr

namespace Lexeme

def text : Lexeme → String
  | identifier name    => name
  | integer spelling _ => spelling
  | punct p            => String.singleton p.toChar
  | endOfStatement     => ""

def value? : Lexeme → Option Nat
  | integer _ v => some v
  | _           => none

def kindName : Lexeme → String
  | identifier _   => "identifier"
  | integer _ _    => "integer"
  | punct p        => String.singleton p.toChar
  | endOfStatement => "end of statement"

def startsExpr : Lexeme → Bool
  | identifier _ | integer _ _ => true
  | punct p                    => p = .minus || p = .plus || p = .lparen
  | endOfStatement             => false

end Lexeme

structure Token where
  lexeme : Lexeme
  loc    : Loc
  deriving DecidableEq, Repr

end Asm88000
