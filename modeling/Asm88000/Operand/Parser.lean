import Asm88000.Diagnostic
import Asm88000.Expr.Parser
import Asm88000.InstructionSet

namespace Asm88000

structure Scan where
  cursor   : Cursor
  operands : List Operand
  warnings : List Diagnostic
  deriving DecidableEq, Repr

abbrev OperandM := EStateM Failure Scan

namespace OperandM

def ofTokens {α : Type} (p : TokenM α) : OperandM α := fun s =>
  match p s.cursor with
  | .ok a c    => .ok a { s with cursor := c }
  | .error e c => .error (.error e) { s with cursor := c }

def cursor : OperandM Cursor :=
  return (← get).cursor

def skip : OperandM Unit :=
  modify fun s => { s with cursor := s.cursor.advance }

def push (op : Operand) : OperandM Unit :=
  modify fun s => { s with operands := s.operands ++ [op] }

def warn (d : Diagnostic) : OperandM Unit :=
  modify fun s => { s with warnings := s.warnings ++ [d] }

def fail {α : Type} (f : Fault) (loc : Loc) : OperandM α :=
  throw (.error (f.place loc))

def failHere {α : Type} (f : Fault) : OperandM α := do
  fail f (← cursor).loc

end OperandM

def conditionCodes : List (String × Nat) :=
  [("eq0", 0x2), ("ne0", 0xD), ("gt0", 0x1), ("lt0", 0xC), ("ge0", 0x3), ("le0", 0xE)]

namespace SlotReader

open OperandM

-- The width in front of an offset `<O>`. An empty width is 0. An integer without an offset behind
-- it is itself the offset, and the width is 0.
def readBitfieldWidth : OperandM Bool := do
  let c ← cursor
  let start := c.loc
  match c.current.lexeme with
  | .integer _ v =>
    skip
    let c ← cursor
    if c.sees .less then
      push (.immediate (.const v) start start)
    else
      push (.immediate (.const 0) start start)
      push (.token "<" c.loc)
      push (.immediate (.const v) start start)
      push (.token ">" c.loc)
    return true
  | .punct .less =>
    push (.immediate (.const 0) start start)
    return true
  | _ => return false

def readBracketed (missing unclosed : Fault) : OperandM (Nat × Loc) := do
  skip
  match (← cursor).current.lexeme with
  | .integer _ v =>
    skip
    let c ← cursor
    if c.sees .greater then
      skip
      return (v, c.loc)
    else failHere unclosed
  | _ => failHere missing

def readBitfieldOffset : OperandM Bool := do
  let c ← cursor
  if c.sees .less then
    let (v, close) ← readBracketed .expectedBitfieldOffset .unclosedBitfieldOffset
    push (.immediate (.const v) c.loc close)
    push (.token ">" close)
    return true
  else return false

-- Rotations are multiples of four; anything else is rounded down, with a warning.
def readPixelRotation : OperandM Bool := do
  let c ← cursor
  if c.sees .less then
    let (v, close) ← readBracketed .expectedRotation .unclosedRotation
    if v % 4 ≠ 0 then warn (.droppedBits c.loc)
    push (.immediate (.const (v - v % 4 : Nat)) c.loc close)
    return true
  else return false

-- A small integer is left to the general notation.
def conditionCode? : Lexeme → Option Nat
  | .integer _ v     => if v ≤ 31 then none else some (v % 0x100000000)
  | .identifier name => conditionCodes.lookup name
  | _                => none

def readConditionCode : OperandM Bool := do
  let tok := (← cursor).current
  match conditionCode? tok.lexeme with
  | some code =>
    skip
    push (.immediate (.const code) tok.loc tok.loc)
    return true
  | none => return false

def outOfRange (bits : Nat) : Expr → Bool
  | .const v =>
    let span : Nat := 1 <<< bits
    v % 2 ≠ 0 || v < -span || v > span - 1
  | _        => false

-- A symbol is left to the linker, but a constant next to it has to be in range by itself.
def badDisplacement (bits : Nat) : Expr → Bool
  | .sum _ l r => outOfRange bits l || outOfRange bits r
  | e          => outOfRange bits e

def readDisplacement (bits : Nat) : OperandM Bool := do
  let start := (← cursor).loc
  match ← ofTokens Expr.parse with
  | some e =>
    if badDisplacement bits e then fail .offsetOutOfRange start
    push (.immediate e start (← cursor).lastLoc)
    return true
  | none => return false

def read : SlotReader → OperandM Bool
  | bitfieldWidth  => readBitfieldWidth
  | bitfieldOffset => readBitfieldOffset
  | pixelRotation  => readPixelRotation
  | conditionCode  => readConditionCode
  | displacement16 => readDisplacement 18
  | displacement26 => readDisplacement 28

def readAny : List SlotReader → OperandM Bool
  | []      => return false
  | r :: rs => do
    if ← r.read then return true
    else readAny rs

end SlotReader

structure RegisterRef where
  register : Register
  first    : Loc
  last     : Loc
  deriving DecidableEq, Repr

namespace RegisterRef

def operand (r : RegisterRef) : Operand :=
  .register r.register r.first r.last

def at? (c : Cursor) : Option RegisterRef :=
  if c.sees .percent then
    match (c.peek 1).lexeme with
    | .identifier name => (Register.named? name).map (⟨·, c.loc, (c.peek 1).loc⟩)
    | _                => none
  else none

-- Reads a register, or nothing if there is none. A percent sign without a register's name behind it
-- is taken back.
def parse? : TokenM (Option RegisterRef) := fun c =>
  match at? c with
  | some r => .ok (some r) c.advance.advance
  | none   => .ok none (if c.sees .percent then c.advance.pushBack c.current else c)

def parse : TokenM RegisterRef := fun c =>
  match at? c with
  | some r => .ok r c.advance.advance
  | none =>
    if c.sees .percent then .error (Fault.invalidRegister.place c.loc) c.advance
    else .error (Fault.expectedRegister.place c.loc) c

end RegisterRef

-- The class at a slot. Slots count from zero; the slot before the first is the last one.
def Entry.classAt (e : Entry) (slot : Int) : Except Breach (Option OperandClass) :=
  if e.classes.length ≤ slot then return none
  else if 0 ≤ slot then return e.classes[slot.toNat]?
  else match e.classes.getLast? with
    | some cls => return some cls
    | none     => throw .missingElement

def InstructionSet.readersAt (mnemonic : String) (slot : Int) :
    Except Breach (List SlotReader) := do
  let classes ← (candidates mnemonic).mapM (Entry.classAt · slot)
  return (classes.filterMap (·.bind OperandClass.reader?)).eraseDups

namespace Operand

open OperandM

def parse (mnemonic : String) : OperandM Bool := do
  match InstructionSet.readersAt mnemonic ((← get).operands.length - 1) with
  | .error b => throw (.breach b)
  | .ok readers =>
    if ← SlotReader.readAny readers then return true
    let c ← cursor
    if c.sees .percent then
      match ← ofTokens RegisterRef.parse? with
      | some r =>
        push r.operand
        return true
      | none => failHere .invalidRegister
    else if c.current.lexeme.startsExpr then
      match ← ofTokens Expr.parse with
      | some e =>
        push (.immediate e c.loc (← cursor).lastLoc)
        return true
      | none => return false
    else return false

def expect (mnemonic : String) (f : Fault) : OperandM Unit := do
  if !(← parse mnemonic) then failHere f

def parseScaled : OperandM Bool := do
  let c ← cursor
  if c.sees .lbrack then
    skip
    let r ← ofTokens RegisterRef.parse
    let close ← cursor
    if close.sees .rbrack then
      skip
      push (.token "[" c.loc)
      push r.operand
      push (.token "]" close.loc)
      return true
    else return false
  else return false

def parseThird (mnemonic : String) : OperandM Unit := do
  let c ← cursor
  if c.sees .less && mnemonic = "rot" then push (.token "<" c.loc)
  expect mnemonic .expectedRegisterOrImmediate
  let c ← cursor
  if c.sees .less then
    push (.token "<" c.loc)
    expect mnemonic .expectedBitfieldOffset

def parseAll (mnemonic : String) : OperandM Unit := do
  if !(← cursor).atEnd then
    expect mnemonic .expectedOperand
    if (← cursor).sees .comma then
      skip
      expect mnemonic .expectedOperand
      let c ← cursor
      if c.sees .comma then
        skip
        parseThird mnemonic
      else if c.sees .lbrack then
        if !(← parseScaled) then failHere .expectedScaledRegister
    if !(← cursor).atEnd then failHere .trailingOperand

end Operand

def Scan.start (mnemonic : String) (loc : Loc) (c : Cursor) : Scan where
  cursor   := c
  operands := [.token mnemonic loc]
  warnings := []

end Asm88000
