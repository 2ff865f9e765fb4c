import Asm88000.Breach

namespace Asm88000

-- What a field holds: a register's number, or `bits` bits of an immediate from bit `low` up.
inductive Content
  | register
  | immediate (low bits : Nat) (fixup : FixupKind)
  deriving DecidableEq, Repr

-- The argument at index `arg`, shifted to each of the bit positions `places`.
structure Field where
  arg     : Nat
  content : Content
  places  : List Nat
  deriving DecidableEq, Repr

namespace Field

def reg (arg place : Nat) : Field :=
  ⟨arg, .register, [place]⟩

def imm (arg low bits place : Nat) (fixup : FixupKind) : Field :=
  ⟨arg, .immediate low bits fixup, [place]⟩

def cut (low bits : Nat) (v : Int) : Nat :=
  (v >>> low % (1 <<< bits : Nat)).toNat

def fixupFor (kind : FixupKind) : Expr → Fixup
  | .half sel sub => ⟨if sel = "hi16" then .hi16 else .lo16, .half sel sub, 0⟩
  | e             => ⟨kind, e, 0⟩

def readArg (content : Content) (arg : Arg) : Except Breach (Nat × Option Fixup) :=
  match content, arg with
  | .register, .reg id => do return ((← Register.get id).number, none)
  | .register, a => throw (.expectedRegister a)
  | .immediate low bits _, .imm v => return (cut low bits v, none)
  | .immediate _ _ _, .nonInteger _ => throw .wrongType
  | .immediate low bits kind, .expr e =>
    match e.value? with
    | some v => return (cut low bits v, none)
    | none   => return (0, some (fixupFor kind e))
  | .immediate _ _ _, a => throw (.expectedImmediate a)

def read (args : List Arg) (f : Field) : Except Breach (Nat × Option Fixup) :=
  match args[f.arg]? with
  | some a => readArg f.content a
  | none   => throw .missingElement

def lay (f : Field) (word n : Nat) : Nat :=
  f.places.foldl (fun w p => w ||| n <<< p) word

end Field

abbrev Format := List Field

namespace Format

def bare : Format := []

def rrr : Format :=
  [.reg 0 21, .reg 1 16, .reg 2 0]

def rri16 : Format :=
  [.reg 0 21, .reg 1 16, .imm 2 0 16 0 .abs16]

def rr2 : Format :=
  [.reg 0 21, .reg 1 0]

def r2 : Format :=
  [.reg 0 0]

def r1r2 : Format :=
  [.reg 0 16, .reg 1 0]

def bitfield : Format :=
  [.imm 2 0 5 5 .abs16, .imm 3 0 5 0 .abs16, .reg 0 21, .reg 1 16]

def rotate : Format :=
  [.reg 0 21, .reg 1 16, .imm 2 0 5 0 .abs16]

-- A rotation counts in steps of four.
def pixelRotate : Format :=
  [.imm 2 2 4 7 .abs16, .reg 0 21, .reg 1 16]

def branch26 : Format :=
  [.imm 0 2 26 0 .pc26]

def branch16 : Format :=
  [.imm 0 0 5 21 .abs16, .reg 1 16, .imm 2 2 16 0 .pc16]

def trap : Format :=
  [.imm 0 0 5 21 .abs16, .reg 1 16, .imm 2 0 9 0 .abs16]

def loadControl : Format :=
  [.reg 0 21, .reg 1 5]

-- The source register of a control register store stands in both source fields.
def storeControl : Format :=
  [⟨0, .register, [16, 0]⟩, .reg 1 5]

def exchangeControl : Format :=
  [⟨1, .register, [16, 0]⟩, .reg 0 21, .reg 2 5]

end Format

structure Opcode where
  name   : String
  base   : Nat
  format : Format
  deriving DecidableEq, Repr

namespace Opcode

def describe (op : Opcode) : String :=
  "Opcode(" ++ op.name ++ ", 0x" ++ Numeral.hexWord.render op.base ++ ")"

def layAll (word : Nat) (fields : List (Field × Nat)) : Nat :=
  fields.foldl (fun w f => f.1.lay w f.2) word

def encode (op : Opcode) (args : List Arg) : Except Breach (Nat × List Fixup) := do
  let parts ← op.format.mapM (Field.read args)
  let word := layAll op.base (op.format.zip (parts.map Prod.fst))
  return (word % 0x100000000, parts.filterMap Prod.snd)

end Opcode
end Asm88000
