import Asm88000.Fault

namespace Asm88000

inductive Severity
  | warning
  | error
  deriving DecidableEq, Repr

def Severity.name : Severity → String
  | warning => "warning"
  | error   => "error"

structure Diagnostic where
  severity : Severity
  message  : String
  loc      : Option Loc
  deriving DecidableEq, Repr

namespace Diagnostic

def ofError (e : Error) : Diagnostic where
  severity := .error
  message  := e.message
  loc      := e.loc

def isError (d : Diagnostic) : Bool :=
  d.severity = .error

def isWarning (d : Diagnostic) : Bool :=
  d.severity = .warning

def toText (d : Diagnostic) : String :=
  Loc.heading d.loc ++ d.severity.name ++ ": " ++ d.message

end Diagnostic

def Diagnostic.droppedBits (loc : Loc) : Diagnostic where
  severity := .warning
  message  := "removed lower 2 bits of expression"
  loc      := some loc

end Asm88000
