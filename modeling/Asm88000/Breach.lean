import Asm88000.Cpu
import Asm88000.Fault
import Asm88000.Inst
import Asm88000.Register

namespace Asm88000

inductive Breach
  -- registers
  | notPhysical (reg : Atom)
  | noSubRegister (reg : Register) (index : Atom)
  -- encoding
  | unknownOpcode (name : Option String)
  | expectedRegister (arg : Arg)
  | expectedImmediate (arg : Arg)
  | cannotEmit (inst : Inst)
  -- matching
  | notToken
  | wrongAccess
  | noMissingFeatures
  | unknownCpu (name : String)
  -- lowering
  | virtualRegister (reg : Atom)
  | subRegister
  | targetFlag (flags : Atom)
  | unknownSymbolKind (kind : String)
  | unexpectedKind (kind : Atom)
  -- something is asked for that is not there
  | missingElement
  | missingKey
  | missingValue
  -- a value is of the wrong kind, or too large
  | wrongType
  | outOfRange
  | outOfMemory
  deriving DecidableEq, Repr

def Breach.message : Breach → String
  | notPhysical reg        => "not a physical register: " ++ reg.quoted
  | noSubRegister reg i    => "register " ++ reg.name ++ " has no sub-register " ++ i.toText
  | unknownOpcode name     => "unknown opcode '" ++ name.getD "None" ++ "'"
  | expectedRegister arg   => "expected register operand, got " ++ arg.describe
  | expectedImmediate arg  => "expected immediate operand, got " ++ arg.describe
  | cannotEmit inst        => "cannot emit " ++ inst.describe
  | notToken               => "not a token"
  | wrongAccess            => "invalid type access"
  | noMissingFeatures      => "unknown missing features"
  | unknownCpu name        =>
    "unknown CPU variant '" ++ name ++ "' (known: "
      ++ String.intercalate ", " (Cpu.all.map Cpu.name) ++ ")"
  | virtualRegister reg    => "register operand is not physical: " ++ reg.quoted
  | subRegister            => "subregs should be eliminated"
  | targetFlag flags       => "invalid target flag " ++ flags.quoted
  | unknownSymbolKind kind => "unknown operand type " ++ Text.quoted kind
  | unexpectedKind kind    => "unexpected MachineOperand type " ++ kind.quoted
  | missingElement         => "no such element"
  | missingKey             => "no such key"
  | missingValue           => "no such value"
  | wrongType              => "a value of the wrong kind"
  | outOfRange             => "a number out of range"
  | outOfMemory            => "not enough memory"

inductive Failure
  | error (e : Error)
  | breach (b : Breach)
  deriving DecidableEq, Repr

namespace Register

def get (id : Int) : Except Breach Register :=
  match ofId? id with
  | some r => .ok r
  | none   => .error (.notPhysical (.int id))

def getAtom (a : Atom) : Except Breach Register :=
  match ofAtom? a with
  | some r => .ok r
  | none   => .error (.notPhysical a)

def getSub (reg index : Atom) : Except Breach Register := do
  let r ← getAtom reg
  match r.sub? index with
  | some s => return s
  | none   => throw (.noSubRegister r index)

def general (number : Atom) : Except Breach Register :=
  match all.find? (fun r => r.regClass = .gpr && r.name == "r" ++ number.toText) with
  | some r => .ok r
  | none   => .error .missingKey

-- The register at the place of the pair that holds a general register, counted in the list of all
-- registers. A negative place counts from the end of the list, which begins with an empty place.
def pairOf : Atom → Except Breach Register
  | .int number =>
    let place := 33 + number / 2
    let place := if place < 0 then place + count else place
    match ofId? place with
    | some r => .ok r
    | none   => .error (if place = 0 then .missingValue else .missingElement)
  | _ => .error .wrongType

end Register

def Cpu.byName (s : String) : Except Breach Cpu :=
  match Cpu.ofName? s with
  | some c => .ok c
  | none   => .error (.unknownCpu s)

end Asm88000
