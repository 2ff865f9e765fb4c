import Asm88000.Command.Display
import Asm88000.Command.Offsets
import Asm88000.Layout
import Asm88000.Statement

namespace Asm88000

structure Outcome where
  status : Nat
  usage  : Bool
  log    : List LogEntry
  files  : List OutputFile

namespace Command

inductive Stop
  | fault (e : Error)
  | failure

structure Progress where
  log   : List LogEntry
  files : List OutputFile

abbrev CommandM := EStateM Stop Progress

def note (level : Level) (message : String) : CommandM Unit :=
  modify fun p => { p with log := p.log ++ [⟨level, message⟩] }

def stopOn {α : Type} : Except Error α → CommandM α
  | .ok a    => return a
  | .error e => throw (.fault e)

def failOn {α : Type} : Except Breach α → CommandM α
  | .ok a    => return a
  | .error _ => throw .failure

def write (host : Host) (path : String) (text : Option String) : CommandM Unit := do
  if host.canWrite path then modify fun p => { p with files := p.files ++ [⟨path, text⟩] }
  else throw .failure

def readLines (host : Host) (path : String) : CommandM (List String) := do
  match host.readAfter (← get).files path with
  | .missing       => throw (.fault (Fault.missingInput path).unplaced)
  | .unreadable    => throw .failure
  | .bytes content =>
    match String.fromUTF8? content with
    | some text => return Text.lines text
    | none      => throw .failure

def writeListing (host : Host) (o : Options) (s : Session) : CommandM Unit := do
  write host o.listingPath (some (Listing.render o.listingFormat s))
  if !Listing.isComplete s then throw .failure
  if o.verbose then note .info ("Wrote readable text file => " ++ o.listingPath)

def writeFiles (host : Host) (o : Options) (s : Session) : CommandM Unit := do
  let words ← failOn (Image.build host.allocate s.object.records)
  write host o.output (some (Image.render o.wordFormat words))
  if o.verbose then
    note .info ("Wrote word file => " ++ o.output ++ ", "
      ++ decimal (Image.size s.object.records) ++ " words")
  if o.readable then writeListing host o s

def display (host : Host) (texts : List String) : CommandM Unit :=
  if host.shows texts then return else throw .failure

def check (o : Options) (s : Session) : Except Error Unit := do
  Layout.checkOverlap s.object.text.start s.object.text.size s.object.data.start s.object.data.size
  if s.hasErrors then
    throw (Fault.failedStatements s.errors.length s.warnings.length o.input).unplaced

def deliver (host : Host) (o : Options) (s : Session) : CommandM Unit := do
  stopOn (check o s)
  note .info "Assembly complete."
  note .info "Emitting output files..."
  writeFiles host o s
  display host (Display.summary o s)

def process (host : Host) (o : Options) (lines : List String) : CommandM Unit := do
  let starts ← stopOn (SectionStarts.parse o.offsets)
  let s ← failOn ((Session.new o.cpu starts.code starts.data).assemble lines)
  modify fun p => { p with log := p.log ++ s.log }
  if o.debug then display host (Display.table s).flatten
  deliver host o s

def execute (host : Host) (o : Options) : CommandM Unit := do
  if o.logFile then write host o.logPath none
  let lines ← readLines host o.input
  note .info ("Parsing input => " ++ o.input)
  process host o lines

def level (o : Options) : Level :=
  if o.debug then .debug else if o.verbose then .info else .warning

def conclude : EStateM.Result Stop Progress Unit → Nat × Progress
  | .ok _ p             => (0, p)
  | .error (.fault e) p => (1, ⟨p.log ++ [⟨.error, e.toText⟩], p.files⟩)
  | .error .failure p   => (2, ⟨p.log ++ [⟨.critical, "assembly failed"⟩], p.files⟩)

def runOptions (host : Host) (o : Options) : Outcome :=
  let (status, p) := conclude (execute host o ⟨[], []⟩)
  ⟨status, false, LogEntry.atLeast (level o) p.log, p.files⟩

def run (host : Host) (args : List String) : Outcome :=
  match Options.parse args with
  | .ok o        => runOptions host o
  | .error .help => ⟨0, true, [], []⟩
  | .error .bad  => ⟨2, true, [], []⟩

end Command
end Asm88000
