import Asm88000.Lowering.MachineOperand
import Asm88000.Session

namespace Asm88000

namespace Lowering

-- Naming symbols on the way. Names given out before a breach stay given out.
abbrev NamingM := EStateM Breach SymbolNamer

def selector (flags : Atom) : Except Breach (Option String) :=
  if flags = .int 0 then return none
  else if flags = .int 1 then return some "hi16"
  else if flags = .int 2 then return some "lo16"
  else throw (.targetFlag flags)

def symbolName (ref : Referent) : NamingM Atom := fun n =>
  match ref with
  | .block function number => .ok (.text (n.block function number)) n
  | .global name           => .ok name n
  | .external name         => .ok name n
  | .machineSymbol         => .error (.unknownSymbolKind "mc_symbol") n
  | .jumpTable index       => .ok (.text (n.jumpTable index)) n
  | .constantPool index    => .ok (.text (n.constantPool index)) n
  | .blockAddress key      => .ok (.text (n.blockAddress key).1) (n.blockAddress key).2
  | .absent                => .error .missingValue n

def takesOffset : Referent → Bool
  | .block _ _   => false
  | .jumpTable _ => false
  | _            => true

def symbolExpr (ref : Referent) (offset : Int) (name : Atom) : Expr :=
  if takesOffset ref && offset ≠ 0 then (Expr.ofName name).add (.const offset) else .ofName name

def selectHalf : Option String → Expr → Expr
  | some sel, e => .half sel e
  | none, e     => e

def lowerSymbol (ref : Referent) (offset : Int) (flags : Atom) : NamingM Arg := do
  match selector flags with
  | .error b => throw b
  | .ok sel  => return .expr (selectHalf sel (symbolExpr ref offset (← symbolName ref)))

def lowerRegister (reg : Atom) (sub : Int) : Except Breach Arg :=
  match Register.ofAtom? reg with
  | none   => throw (.virtualRegister reg)
  | some r =>
    if sub ≠ 0 then throw .subRegister
    else return .reg (r.high?.getD r).id

def lowerOperand : MachineOperand → NamingM Arg
  | .register reg sub _       => fun n =>
    match lowerRegister reg sub with
    | .ok a    => .ok a n
    | .error b => .error b n
  | .immediate v              => return .ofImmediate v
  | .symbol ref offset flags  => lowerSymbol ref offset flags
  | .registerMask             => throw (.unexpectedKind (.text "register_mask"))
  | .other kind               => throw (.unexpectedKind kind)

def lowerInstr (mi : MachineInstr) : NamingM Inst := do
  let args ← (mi.operands.filter (fun op => !op.isDropped)).mapM lowerOperand
  return ⟨mi.opcode, args, none⟩

def valueText (a : Arg) : Except Breach String :=
  if a.isNamed then return a.valueText else throw .wrongType

structure State where
  namer   : SymbolNamer
  session : Session
  deriving DecidableEq, Repr

abbrev LowerM := EStateM Failure State

def naming {α : Type} (p : NamingM α) : LowerM α := fun st =>
  match p st.namer with
  | .ok a n    => .ok a { st with namer := n }
  | .error b n => .error (.breach b) { st with namer := n }

def lower (mi : MachineInstr) : LowerM Inst := do
  let inst ← naming (lowerInstr mi)
  let shown := "lowered " ++ mi.opcode.getD "None" ++ ": " ++ Inst.describeArgs inst.args
  modify fun st => { st with session := st.session.note .debug shown }
  return inst

-- Emits an instruction. The record of a fixup without a text stays, although it is a breach.
def emit (inst : Inst) : LowerM Unit := fun st =>
  match st.session.object.instructionRecord inst with
  | .error e => .error e st
  | .ok r    =>
    let st := { st with session := st.session.append r }
    if r.isNamed then .ok () st else .error (.breach .wrongType) st

def lowerAll : List MachineInstr → LowerM (List Inst)
  | []        => return []
  | mi :: mis => do
    let inst ← lower mi
    emit inst
    return inst :: (← lowerAll mis)

end Lowering
end Asm88000
