import Asm88000.Command.Host
import Asm88000.Cpu
import Asm88000.Image
import Asm88000.Listing
import Asm88000.Text.Digit
import Asm88000.Text.Split

namespace Asm88000

inductive OptionName
  | help
  | input
  | output
  | cpu
  | offsets
  | wordFormat
  | readable
  | verbose
  | log
  | debug
  | listingFormat
  deriving DecidableEq, Repr

namespace OptionName

def all : List OptionName :=
  [help, input, output, cpu, offsets, wordFormat, readable, verbose, log, debug, listingFormat]

def letter : OptionName → Char
  | help          => 'h'
  | input         => 'i'
  | output        => 'o'
  | cpu           => 'c'
  | offsets       => 'm'
  | wordFormat    => 'w'
  | readable      => 'r'
  | verbose       => 'v'
  | log           => 'l'
  | debug         => 'd'
  | listingFormat => 'f'

def long : OptionName → String
  | help          => "help"
  | input         => "input"
  | output        => "output"
  | cpu           => "cpu"
  | offsets       => "memory_offset"
  | wordFormat    => "word_format"
  | readable      => "readable"
  | verbose       => "verbose"
  | log           => "log"
  | debug         => "debug"
  | listingFormat => "param_format"

def takesValue : OptionName → Bool
  | input | output | cpu | offsets | wordFormat | listingFormat => true
  | help | readable | verbose | log | debug                     => false

def ofLetter? (c : Char) : Option OptionName :=
  all.find? (fun o => o.letter = c)

def ofLong (cs : List Char) : List OptionName :=
  match all.filter (fun o => o.long.toList = cs) with
  | [] => all.filter (fun o => cs.isPrefixOf o.long.toList)
  | os => os

end OptionName

structure Options where
  input         : String
  output        : String
  cpu           : Cpu
  offsets       : String
  wordFormat    : WordFormat
  listingFormat : ListingFormat
  readable      : Bool
  verbose       : Bool
  logFile       : Bool
  debug         : Bool
  deriving DecidableEq, Repr

namespace Options

def listingPath (o : Options) : String :=
  o.output ++ "_readable.txt"

def logPath (o : Options) : String :=
  Path.reduce (o.output ++ ".log")

end Options

inductive Usage
  | help
  | bad
  deriving DecidableEq, Repr

namespace Options

-- How an argument reads by itself. An attached value comes with whether an equals sign joins it.
inductive Shape
  | plain
  | separator
  | unknown
  | ambiguous
  | short (o : OptionName) (attached : Option (Bool × List Char))
  | long (o : OptionName) (attached : Option (List Char))
  deriving DecidableEq, Repr

def isDigit (c : Char) : Bool :=
  (Text.digitValue? c).isSome

def dropLineEnd (cs : List Char) : List Char :=
  if cs.getLast? = some '\n' then cs.dropLast else cs

def isNegativeNumber (cs : List Char) : Bool :=
  match dropLineEnd cs with
  | '-' :: cs =>
    match Text.cutAt? '.' cs with
    | some (whole, places) => whole.all isDigit && !places.isEmpty && places.all isDigit
    | none                 => !cs.isEmpty && cs.all isDigit
  | _ => false

def stray (cs : List Char) : Shape :=
  if isNegativeNumber cs || cs.contains ' ' then .plain else .unknown

def longShape (cs : List Char) : Shape :=
  let (name, value) := match Text.cutAt? '=' cs with
    | some (name, value) => (name, some value)
    | none               => (cs, none)
  match OptionName.ofLong name with
  | []  => stray ('-' :: '-' :: cs)
  | [o] => .long o value
  | _   => .ambiguous

def shortShape (c : Char) (cs : List Char) : Shape :=
  match OptionName.ofLetter? c with
  | none   => stray ('-' :: c :: cs)
  | some o =>
    match cs with
    | []         => .short o none
    | '=' :: val => .short o (some (true, val))
    | val        => .short o (some (false, val))

def shape (arg : List Char) : Shape :=
  match arg with
  | ['-', '-']      => .separator
  | '-' :: '-' :: cs => longShape cs
  | '-' :: c :: cs   => shortShape c cs
  | _                => .plain

def shapes : List String → List (String × Shape)
  | [] => []
  | arg :: args =>
    match shape arg.toList with
    | .separator => (arg, .separator) :: args.map (·, .plain)
    | s          => (arg, s) :: shapes args

-- Options seen so far. `stray` tells whether there was an argument that is no option.
structure Draft where
  input         : Option String
  output        : Option String
  cpu           : Cpu
  offsets       : String
  wordFormat    : WordFormat
  listingFormat : ListingFormat
  readable      : Bool
  verbose       : Bool
  logFile       : Bool
  debug         : Bool
  stray         : Bool

def Draft.empty : Draft where
  input         := none
  output        := none
  cpu           := Cpu.default
  offsets       := "code=0x0,data=0x1000"
  wordFormat    := .hex
  listingFormat := .hex
  readable      := false
  verbose       := false
  logFile       := false
  debug         := false
  stray         := false

def setFlag (d : Draft) : OptionName → Except Usage Draft
  | .help     => throw .help
  | .readable => return { d with readable := true }
  | .verbose  => return { d with verbose := true }
  | .log      => return { d with logFile := true }
  | .debug    => return { d with debug := true }
  | _         => throw .bad

def setValue (d : Draft) (o : OptionName) (v : String) : Except Usage Draft :=
  match o with
  | .input   => return { d with input := some v }
  | .output  => return { d with output := some v }
  | .offsets => return { d with offsets := v }
  | .cpu =>
    match Cpu.ofName? v with
    | some c => return { d with cpu := c }
    | none   => throw .bad
  | .wordFormat =>
    if v = "hex" || v = "bin" then return { d with wordFormat := .ofName v } else throw .bad
  | .listingFormat =>
    if v = "hex" || v = "dec" then return { d with listingFormat := .ofName v } else throw .bad
  | _ => throw .bad

inductive Tail
  | valued (o : OptionName) (v : List Char)
  | open_ (o : OptionName)
  | stray

structure Cluster where
  flags : List OptionName
  tail  : Tail

def cluster (o : OptionName) (joined : Bool) : List Char → Except Usage Cluster
  | [] => if o.takesValue then return ⟨[], .valued o []⟩ else throw .bad
  | c :: cs =>
    if o.takesValue then return ⟨[], .valued o (c :: cs)⟩
    else if joined || c = '-' then throw .bad
    else match OptionName.ofLetter? c with
      | none   => return ⟨[o], .stray⟩
      | some p =>
        match cs with
        | []         => return ⟨[o], .open_ p⟩
        | '=' :: val => do
          let k ← cluster p true val
          return { k with flags := o :: k.flags }
        | c :: val => do
          let k ← cluster p false (c :: val)
          return { k with flags := o :: k.flags }

def setOpen (d : Draft) (o : OptionName) (rest : List (String × Shape)) (flags : List OptionName) :
    Except Usage (Draft × Bool) :=
  if o.takesValue then
    match rest with
    | (v, .plain) :: _ => do
      let d ← flags.foldlM setFlag d
      return (← setValue d o v, true)
    | _ => throw .bad
  else do
    let d ← flags.foldlM setFlag d
    return (← setFlag d o, false)

def collect : Nat → Draft → List (String × Shape) → Except Usage Draft
  | 0, d, _ => return d
  | _, d, [] => return d
  | n + 1, d, (_, s) :: rest =>
    match s with
    | .plain | .separator | .unknown => collect n { d with stray := true } rest
    | .ambiguous => throw .bad
    | .long o (some v) => do
      if o.takesValue then collect n (← setValue d o (String.ofList v)) rest
      else throw .bad
    | .long o none | .short o none => do
      let (d, used) ← setOpen d o rest []
      collect n d (if used then rest.drop 1 else rest)
    | .short o (some (joined, v)) => do
      let k ← cluster o joined v
      match k.tail with
      | .valued p v =>
        let d ← k.flags.foldlM setFlag d
        collect n (← setValue d p (String.ofList v)) rest
      | .open_ p =>
        let (d, used) ← setOpen d p rest k.flags
        collect n d (if used then rest.drop 1 else rest)
      | .stray =>
        let d ← k.flags.foldlM setFlag d
        collect n { d with stray := true } rest

def ofDraft (d : Draft) : Except Usage Options :=
  match d.input, d.output, d.stray with
  | some input, some output, false =>
    return {
      input, output
      cpu           := d.cpu
      offsets       := d.offsets
      wordFormat    := d.wordFormat
      listingFormat := d.listingFormat
      readable      := d.readable
      verbose       := d.verbose
      logFile       := d.logFile
      debug         := d.debug }
  | _, _, _ => throw .bad

-- The options that arguments give. The input and the output have to be named; an option given twice
-- takes its last value.
def parse (args : List String) : Except Usage Options := do
  ofDraft (← collect args.length .empty (shapes args))

end Options
end Asm88000
