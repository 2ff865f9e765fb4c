import Asm88000.Log
import Asm88000.Object
import Asm88000.Verdict

namespace Asm88000

-- `available` has the features that the forms of an instruction may need. `sources` has the text of
-- each line under its number, the latest first.
structure Session where
  cpu         : Cpu
  available   : List Feature
  object      : Object
  diagnostics : List Diagnostic
  log         : List LogEntry
  sources     : List (Int × String)
  deriving DecidableEq, Repr

namespace Session

def new (cpu : Cpu) (codeStart dataStart : Int) : Session where
  cpu         := cpu
  available   := cpu.features
  object      := Object.new codeStart dataStart
  diagnostics := []
  log         := []
  sources     := []

def note (s : Session) (level : Level) (message : String) : Session :=
  { s with log := s.log ++ [⟨level, message⟩] }

def setObject (s : Session) (o : Object) : Session :=
  { s with object := o }

def report (s : Session) (d : Diagnostic) : Session :=
  { s with diagnostics := s.diagnostics ++ [d], log := s.log ++ [.ofDiagnostic d] }

def reportAll (s : Session) (ds : List Diagnostic) : Session :=
  ds.foldl report s

def errors (s : Session) : List Diagnostic :=
  s.diagnostics.filter Diagnostic.isError

def warnings (s : Session) : List Diagnostic :=
  s.diagnostics.filter Diagnostic.isWarning

def hasErrors (s : Session) : Bool :=
  s.diagnostics.any Diagnostic.isError

def addSource (s : Session) (line : Int) (text : String) : Session :=
  { s with sources := (line, text) :: s.sources }

def source (s : Session) (line : Int) : String :=
  (s.sources.lookup line).getD ""

def setCpu (s : Session) (cpu : Cpu) : Session :=
  { s with available := cpu.features, cpu := cpu }.note .info ("CPU variant set to " ++ cpu.name)

def require88110 (s : Session) : Session :=
  ((s.setCpu .mc88110).setObject s.object.require88110).note .info "object requires mc88110"

def switch (s : Session) (sect : SectionName) : Session :=
  let o := s.object.switch sect
  (s.setObject o).note .debug ("switched to section " ++ sect.name ++ " at " ++ hexText o.address)

def global (s : Session) (name : String) : Session :=
  s.setObject (s.object.global name)

def label (s : Session) (name : String) (loc : Loc) : Except Error Session := do
  let o ← s.object.label name (some loc)
  return (s.setObject o).note .debug
    ("label '" ++ name ++ "' = " ++ hexText o.address ++ " (" ++ o.current.name ++ ")")

def align (s : Session) (alignment : Int) (loc : Loc) : Except Error Session := do
  return s.setObject (← s.object.align alignment (some loc))

def append (s : Session) (r : Record) : Session :=
  let t := s.setObject (s.object.append r)
  if r.isNamed then t.note .debug r.summary else t

def emitWord (s : Session) (e : Expr) (loc : Loc) : Except Error Session := do
  return s.append (← s.object.wordRecord e (some loc))

def emitInstruction (s : Session) (inst : Inst) : Except Failure Session := do
  return s.append (← s.object.instructionRecord inst)

def settle (s : Session) (ops : List Operand) (loc : Loc) (v : Verdict) :
    Except Failure (Inst × Session) := do
  let inst ← v.resolve s.available ops loc
  return (inst, ← s.emitInstruction inst)

def emitOperands (s : Session) (ops : List Operand) (loc : Loc) :
    Except Failure (Inst × Session) :=
  match Verdict.ofOperands s.available ops with
  | .ok v    => s.settle ops loc v
  | .error b => throw (.breach b)

end Session
end Asm88000
