import Asm88000.Atom

namespace Asm88000

-- A sum is printed with its `sign` between the two sides. Whatever the sign, it adds; the parser
-- and the lowering build sums with `+` only. `nameless` refers to a symbol whose name is no text;
-- it comes from operands handed over from outside, never from source.
inductive Expr
  | const  (value : Int)
  | symbol (name : String)
  | nameless (label : Atom)
  | sum    (sign : String) (lhs rhs : Expr)
  | half   (selector : String) (sub : Expr)
  deriving DecidableEq, Repr

namespace Expr

def ofName : Atom → Expr
  | .text name => symbol name
  | label      => nameless label

def isNamed : Expr → Bool
  | const _    => true
  | symbol _   => true
  | nameless _ => false
  | sum _ l r  => l.isNamed && r.isNamed
  | half _ sub => sub.isNamed

def add : Expr → Expr → Expr
  | const a, const b => const (a + b)
  | lhs, rhs         => sum "+" lhs rhs

def constant? : Expr → Option Int
  | const v => some v
  | _       => none

-- Bits 31..16 of the value for `hi16`, bits 15..0 for any other selector.
def selectHalf (selector : String) (v : Int) : Int :=
  if selector = "hi16" then v / 0x10000 % 0x10000 else v % 0x10000

def value? : Expr → Option Int
  | const v      => some v
  | symbol _     => none
  | nameless _   => none
  | sum _ l r    => do return (← l.value?) + (← r.value?)
  | half sel sub => sub.value?.map (selectHalf sel)

-- A negative constant on the right prints as a difference: `sym + -4` is `sym-4`.
def toText : Expr → String
  | const v               => decimal v
  | symbol name           => name
  | nameless label        => label.toText
  | sum sign l (.const v) =>
    if v < 0 then l.toText ++ "-" ++ decimal (-v) else l.toText ++ sign ++ decimal v
  | sum sign l r          => l.toText ++ sign ++ r.toText
  | half sel sub          => sel ++ "(" ++ sub.toText ++ ")"

def describe : Expr → String
  | const v      => "ConstantExpr(" ++ decimal v ++ ")"
  | symbol name  => "SymbolRefExpr(" ++ Text.quoted name ++ ")"
  | nameless l   => "SymbolRefExpr(" ++ l.quoted ++ ")"
  | sum sign l r =>
    "BinaryExpr(" ++ Text.quoted sign ++ ", " ++ l.describe ++ ", " ++ r.describe ++ ")"
  | half sel sub => "TargetExpr(" ++ Text.quoted sel ++ ", " ++ sub.describe ++ ")"

def kindName : Expr → String
  | const _    => "constant"
  | symbol _   => "symbol_ref"
  | nameless _ => "symbol_ref"
  | sum _ _ _  => "binary"
  | half _ _   => "target"

end Expr
end Asm88000
