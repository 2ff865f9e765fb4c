import Asm88000.Lowering.SymbolName

namespace Asm88000

-- What a symbolic operand refers to. `machineSymbol` has no lowering, and `absent` stands for a
-- value that refers to nothing.
inductive Referent
  | block (function number : Atom)
  | global (name : Atom)
  | external (name : Atom)
  | machineSymbol
  | jumpTable (index : Atom)
  | constantPool (index : Atom)
  | blockAddress (key : BlockKey)
  | absent
  deriving DecidableEq, Repr

inductive MachineOperand
  | register (reg : Atom) (sub : Int) (implicit : Bool)
  | immediate (value : Atom)
  | symbol (ref : Referent) (offset : Int) (flags : Atom)
  | registerMask
  | other (kind : Atom)
  deriving DecidableEq, Repr

namespace MachineOperand

def isDropped : MachineOperand → Bool
  | register _ _ implicit => implicit
  | registerMask          => true
  | _                     => false

end MachineOperand

structure MachineInstr where
  opcode   : Option String
  operands : List MachineOperand
  deriving DecidableEq, Repr

end Asm88000
