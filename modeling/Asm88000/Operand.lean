import Asm88000.Breach

namespace Asm88000

inductive OperandValue
  | token (text : String)
  | register (id : Int)
  | immediate (e : Expr)
  deriving DecidableEq, Repr

structure Operand where
  value : OperandValue
  first : Option Loc
  last  : Option Loc
  deriving DecidableEq, Repr

namespace Operand

def token (text : String) (loc : Loc) : Operand :=
  ⟨.token text, some loc, some loc⟩

def register (r : Register) (first last : Loc) : Operand :=
  ⟨.register r.id, some first, some last⟩

def immediate (e : Expr) (first last : Loc) : Operand :=
  ⟨.immediate e, some first, some last⟩

def same (a b : Operand) : Bool :=
  a.value = b.value

def getToken (op : Operand) : Except Breach String :=
  match op.value with
  | .token text => .ok text
  | _           => .error .notToken

def getRegister (op : Operand) : Except Breach Int :=
  match op.value with
  | .register id => .ok id
  | _            => .error .wrongAccess

def getImmediate (op : Operand) : Except Breach Expr :=
  match op.value with
  | .immediate e => .ok e
  | _            => .error .wrongAccess

def inRange (lo hi : Int) (op : Operand) : Bool :=
  match op.value with
  | .immediate (.const v) => lo ≤ v && v ≤ hi
  | _                     => false

def toArg? (op : Operand) : Option Arg :=
  match op.value with
  | .token _              => none
  | .register id          => some (.reg id)
  | .immediate (.const v) => some (.imm v)
  | .immediate e          => some (.expr e)

def describe (op : Operand) : Except Breach String :=
  match op.value with
  | .token text  => return "Token: " ++ text
  | .register id => return "Reg: " ++ (← Register.get id).name
  | .immediate e => return "Imm: " ++ e.toText

end Operand
end Asm88000
