import Asm88000.Operand.Parser
import Asm88000.Session
import Asm88000.Text.Blank
import Asm88000.Token.Lexer

namespace Asm88000

structure Run where
  session : Session
  cursor  : Cursor
  deriving DecidableEq, Repr

abbrev StatementM := EStateM Failure Run

namespace StatementM

def cursor : StatementM Cursor :=
  return (← get).cursor

def skip : StatementM Unit :=
  modify fun r => { r with cursor := r.cursor.advance }

def fail {α : Type} (f : Fault) (loc : Loc) : StatementM α :=
  throw (.error (f.place loc))

def failHere {α : Type} (f : Fault) : StatementM α := do
  fail f (← cursor).loc

def ofTokens {α : Type} (p : TokenM α) : StatementM α := fun r =>
  match p r.cursor with
  | .ok a c    => .ok a { r with cursor := c }
  | .error e c => .error (.error e) { r with cursor := c }

def change (f : Session → Session) : StatementM Unit :=
  modify fun r => { r with session := f r.session }

def tryChange (f : Session → Except Error Session) : StatementM Unit := fun r =>
  match f r.session with
  | .ok s    => .ok () { r with session := s }
  | .error e => .error (.error e) r

end StatementM

inductive Directive
  | switch (sect : SectionName)
  | global
  | align
  | word
  deriving DecidableEq, Repr

namespace Directive

def ofName? (name : String) : Option Directive :=
  match Text.lowerAscii name with
  | ".text"   => some (switch .text)
  | ".data"   => some (switch .data)
  | ".globl"  => some global
  | ".global" => some global
  | ".align"  => some align
  | ".word"   => some word
  | _         => none

end Directive

namespace Statement

open StatementM

-- The bounds on the recursions are at least the number of tokens ahead.

def labels : Nat → StatementM Unit
  | 0 => return
  | n + 1 => do
    let c ← cursor
    match c.current.lexeme, (c.peek 1).lexeme with
    | .identifier name, .punct .colon =>
      skip
      skip
      tryChange (Session.label · name c.loc)
      labels n
    | _, _ => return

def words : Nat → StatementM Unit
  | 0 => failHere .expectedExpression
  | n + 1 => do
    let loc := (← cursor).loc
    match ← ofTokens Expr.parse with
    | none   => fail .expectedExpression loc
    | some e =>
      tryChange (Session.emitWord · e loc)
      if (← cursor).sees .comma then
        skip
        words n

def directiveBody (d : Directive) (name : String) (loc : Loc) : StatementM Unit := do
  let c ← cursor
  match d with
  | .switch sect => change (Session.switch · sect)
  | .global =>
    match c.current.lexeme with
    | .identifier symbol =>
      skip
      change (Session.global · symbol)
    | _ => failHere (.expectedSymbolName name)
  | .align =>
    match c.current.lexeme with
    | .integer _ v =>
      skip
      tryChange (Session.align · v loc)
    | _ => failHere .expectedAlignment
  | .word => words c.ahead.length

def targetDirective (name : String) : StatementM Bool := do
  if name = ".requires_88110" then
    if !(← cursor).atEnd then failHere (.trailingToken name)
    change Session.require88110
    return true
  else return false

-- Carries out the directive with a name that stands at `loc`. All but `.requires_88110` take effect
-- before the end of the statement is checked.
def directive (name : String) (loc : Loc) : StatementM Unit := do
  if !(← targetDirective name) then
    match Directive.ofName? name with
    | none   => fail (.unknownDirective name) loc
    | some d =>
      directiveBody d (Text.lowerAscii name) loc
      if !(← cursor).atEnd then failHere (.trailingToken (Text.lowerAscii name))

-- Reads the operands of an instruction. Warnings are reported even if this fails.
def operands (mnemonic : String) (loc : Loc) : StatementM (List Operand) := fun r =>
  match Operand.parseAll mnemonic (Scan.start mnemonic loc r.cursor) with
  | .error f scan => .error f ⟨r.session.reportAll scan.warnings, scan.cursor⟩
  | .ok _ scan =>
    let s := r.session.reportAll scan.warnings
    match (scan.operands.drop 1).mapM Operand.describe with
    | .error b  => .error (.breach b) ⟨s, scan.cursor⟩
    | .ok texts =>
      let shown := "parsed " ++ mnemonic ++ ": [" ++ String.intercalate ", " texts ++ "]"
      .ok scan.operands ⟨s.note .debug shown, scan.cursor⟩

def emit (ops : List Operand) (loc : Loc) : StatementM Inst := fun r =>
  match r.session.emitOperands ops loc with
  | .ok (inst, s) => .ok inst { r with session := s }
  | .error f      => .error f r

def isDirectiveName (name : String) : Bool :=
  name.toList.head? = some '.'

def run : StatementM Unit := do
  labels (← cursor).ahead.length
  let c ← cursor
  match c.current.lexeme with
  | .endOfStatement => return
  | .identifier name =>
    skip
    if isDirectiveName name then directive name c.loc
    else
      let ops ← operands (Text.lowerAscii name) c.loc
      let _ ← emit ops c.loc
  | _ => failHere .statementStart

end Statement

namespace Session

def assembleLine (s : Session) (line : Int) (text : String) : Except Breach Session :=
  let s := s.addSource line (Text.trim text)
  match tokenize line text with
  | .error e => return s.report (.ofError e)
  | .ok ts   =>
    match Statement.run ⟨s, Cursor.ofTokens ts⟩ with
    | .ok _ r              => return r.session
    | .error (.error e) r  => return r.session.report (.ofError e)
    | .error (.breach b) _ => throw b

def dropLineEnds (line : String) : String :=
  String.ofList (line.toList.reverse.dropWhile (· = '\n')).reverse

def assembleFrom (line : Nat) (s : Session) : List String → Except Breach Session
  | []      => return s
  | l :: ls => do assembleFrom (line + 1) (← s.assembleLine line (dropLineEnds l)) ls

def assemble (s : Session) (lines : List String) : Except Breach Session :=
  s.assembleFrom 1 lines

end Session
end Asm88000
