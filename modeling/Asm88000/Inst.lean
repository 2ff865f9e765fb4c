import Asm88000.Expr
import Asm88000.Loc

namespace Asm88000

-- An argument of an instruction: a register number, an immediate, or an expression. An immediate
-- handed over from outside may be no integer.
inductive Arg
  | reg  (id : Int)
  | imm  (value : Int)
  | nonInteger (value : Atom)
  | expr (e : Expr)
  deriving DecidableEq, Repr

namespace Arg

def valueText : Arg → String
  | reg id           => decimal id
  | imm value        => decimal value
  | nonInteger value => value.toText
  | expr e           => e.toText

def describe : Arg → String
  | reg id           => "MCOperand(reg, " ++ decimal id ++ ")"
  | imm value        => "MCOperand(imm, " ++ decimal value ++ ")"
  | nonInteger value => "MCOperand(imm, " ++ value.quoted ++ ")"
  | expr e           => "MCOperand(expr, " ++ e.describe ++ ")"

def ofImmediate : Atom → Arg
  | .int v => imm v
  | value  => nonInteger value

def isNamed : Arg → Bool
  | expr e => e.isNamed
  | _      => true

end Arg

structure Inst where
  opcode : Option String
  args   : List Arg
  loc    : Option Loc
  deriving DecidableEq, Repr

namespace Inst

def same (a b : Inst) : Bool :=
  a.opcode = b.opcode && a.args = b.args

def describeArgs (args : List Arg) : String :=
  "[" ++ String.intercalate ", " (args.map Arg.describe) ++ "]"

def describe (inst : Inst) : String :=
  let opcode := match inst.opcode with
    | some name => Text.quoted name
    | none      => "None"
  "MCInst(" ++ opcode ++ ", " ++ describeArgs inst.args ++ ")"

end Inst

-- `other` has the name of a kind that no field of an instruction asks for.
inductive FixupKind
  | pc16
  | pc26
  | abs16
  | hi16
  | lo16
  | abs32
  | other (name : String)
  deriving DecidableEq, Repr

namespace FixupKind

def all : List FixupKind :=
  [pc16, pc26, abs16, hi16, lo16, abs32]

def name : FixupKind → String
  | pc16       => "FIXUP_M88K_PC16"
  | pc26       => "FIXUP_M88K_PC26"
  | abs16      => "FIXUP_M88K_16"
  | hi16       => "FIXUP_M88K_HI16"
  | lo16       => "FIXUP_M88K_LO16"
  | abs32      => "FIXUP_M88K_32"
  | other name => name

def ofName (s : String) : FixupKind :=
  (all.find? (fun k => k.name == s)).getD (other s)

end FixupKind

structure Fixup where
  kind   : FixupKind
  expr   : Expr
  offset : Int
  deriving DecidableEq, Repr

namespace Fixup

def toText (f : Fixup) : String :=
  f.kind.name ++ "(" ++ f.expr.toText ++ ")"

def describe (f : Fixup) : String :=
  "Fixup(" ++ f.kind.name ++ ", " ++ f.expr.describe ++ ", offset=" ++ decimal f.offset ++ ")"

end Fixup
end Asm88000
