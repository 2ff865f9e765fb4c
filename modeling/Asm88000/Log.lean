import Asm88000.Diagnostic

namespace Asm88000

inductive Level
  | debug
  | info
  | warning
  | error
  | critical
  deriving DecidableEq, Repr

namespace Level

def rank : Level → Nat
  | debug    => 0
  | info     => 1
  | warning  => 2
  | error    => 3
  | critical => 4

def name : Level → String
  | debug    => "DEBUG"
  | info     => "INFO"
  | warning  => "WARNING"
  | error    => "ERROR"
  | critical => "CRITICAL"

end Level

structure LogEntry where
  level   : Level
  message : String
  deriving DecidableEq, Repr

namespace LogEntry

def ofDiagnostic (d : Diagnostic) : LogEntry where
  level   := match d.severity with
    | .warning => .warning
    | .error   => .error
  message := d.toText

end LogEntry

def LogEntry.atLeast (level : Level) (log : List LogEntry) : List LogEntry :=
  log.filter (fun entry => level.rank ≤ entry.level.rank)

end Asm88000
