import Asm88000.InstructionSet

namespace Asm88000

inductive SectionName
  | text
  | data
  deriving DecidableEq, Repr

namespace SectionName

def name : SectionName → String
  | text => ".text"
  | data => ".data"

def ofName? (s : String) : Option SectionName :=
  [text, data].find? (fun n => n.name == s)

end SectionName

structure Section where
  start   : Int
  address : Int
  deriving DecidableEq, Repr

def Section.size (s : Section) : Int :=
  s.address - s.start

def wordSize : Int := 4

inductive RecordType
  | instruction
  | data
  deriving DecidableEq, Repr

def RecordType.name : RecordType → String
  | instruction => "instruction"
  | data        => "data"

structure Record where
  type    : RecordType
  sect    : SectionName
  address : Int
  word    : Nat
  fixups  : List Fixup
  loc     : Option Loc
  inst    : Option Inst
  deriving DecidableEq, Repr

namespace Record

def describe (r : Record) : String :=
  "Record(" ++ r.type.name ++ ", " ++ r.sect.name ++ ", " ++ hexText r.address ++ ", 0x"
    ++ Numeral.hexWord.render r.word ++ ")"

def isNamed (r : Record) : Bool :=
  r.fixups.all (fun f => f.expr.isNamed)

def summary (r : Record) : String :=
  "0x" ++ Numeral.hexWord.render r.address ++ ": " ++ Numeral.hexWord.render r.word ++ " "
    ++ String.intercalate " " (r.fixups.map Fixup.toText)

end Record

structure Symbol where
  name    : String
  sect    : SectionName
  address : Int
  deriving DecidableEq, Repr

structure Object where
  text          : Section
  data          : Section
  current       : SectionName
  records       : List Record
  symbols       : List Symbol
  globals       : List String
  requires88110 : Bool
  deriving DecidableEq, Repr

namespace Object

def new (codeStart dataStart : Int) : Object where
  text          := ⟨codeStart, codeStart⟩
  data          := ⟨dataStart, dataStart⟩
  current       := .text
  records       := []
  symbols       := []
  globals       := []
  requires88110 := false

def defaultCodeStart : Int := 0
def defaultDataStart : Int := 0x1000

def getSection (o : Object) : SectionName → Section
  | .text => o.text
  | .data => o.data

def address (o : Object) : Int :=
  (o.getSection o.current).address

def setAddress (o : Object) (a : Int) : Object :=
  match o.current with
  | .text => { o with text := { o.text with address := a } }
  | .data => { o with data := { o.data with address := a } }

def switch (o : Object) (s : SectionName) : Object :=
  { o with current := s }

def switchTo (o : Object) (name : String) : Except Error Object :=
  match SectionName.ofName? name with
  | some s => return o.switch s
  | none   => throw (Fault.unknownSection name).unplaced

def label (o : Object) (name : String) (loc : Option Loc) : Except Error Object :=
  if o.symbols.any (fun s => s.name = name) then throw ⟨.duplicateSymbol name, loc⟩
  else return { o with symbols := o.symbols ++ [⟨name, o.current, o.address⟩] }

def global (o : Object) (name : String) : Object :=
  if o.globals.contains name then o else { o with globals := o.globals ++ [name] }

def sortedGlobals (o : Object) : List String :=
  o.globals.mergeSort (fun a b => a ≤ b)

def require88110 (o : Object) : Object :=
  { o with requires88110 := true }

def append (o : Object) (r : Record) : Object :=
  { o with records := o.records ++ [r] }.setAddress (o.address + wordSize)

def instructionRecord (o : Object) (inst : Inst) : Except Failure Record :=
  if inst.opcode = none then throw (.breach (.cannotEmit inst))
  else if o.address % wordSize ≠ 0 then
    throw (.error ⟨.unalignedInstruction o.address, inst.loc⟩)
  else match inst.encode with
    | .ok (word, fixups) =>
      return ⟨.instruction, o.current, o.address, word, fixups, inst.loc, some inst⟩
    | .error b => throw (.breach b)

-- The record of a data word at the current address. A value with a sign or without fits.
def wordRecord (o : Object) (e : Expr) (loc : Option Loc) : Except Error Record :=
  match e.value? with
  | none   => return ⟨.data, o.current, o.address, 0, [⟨.abs32, e, 0⟩], loc, none⟩
  | some v =>
    if -0x80000000 ≤ v ∧ v ≤ 0xFFFFFFFF then
      return ⟨.data, o.current, o.address, (v % 0x100000000).toNat, [], loc, none⟩
    else throw ⟨.wordOutOfRange, loc⟩

def emitInstruction (o : Object) (inst : Inst) : Except Failure Object := do
  return o.append (← o.instructionRecord inst)

def emitWord (o : Object) (e : Expr) (loc : Option Loc) : Except Error Object := do
  return o.append (← o.wordRecord e loc)

def isPowerOfTwo (n : Int) : Bool :=
  0 < n && n.toNat &&& (n.toNat - 1) = 0

def align (o : Object) (alignment : Int) (loc : Option Loc) : Except Error Object :=
  if isPowerOfTwo alignment then return o.setAddress (o.address + (-o.address) % alignment)
  else throw ⟨.badAlignment alignment, loc⟩

end Object
end Asm88000
