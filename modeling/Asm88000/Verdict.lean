import Asm88000.Spelling

namespace Asm88000

-- `rejected` has the index of the offending operand in the list, the mnemonic counted.
inductive Verdict
  | success (entry : Entry) (inst : Inst)
  | missingFeature (missing : List Feature)
  | unknownMnemonic
  | rejected (reason : OperandFault) (index : Option Int)
  deriving DecidableEq, Repr

namespace Verdict

def name : Verdict → String
  | success _ _       => "success"
  | missingFeature _  => "missing_feature"
  | unknownMnemonic   => "mnemonic_fail"
  | rejected reason _ => reason.name

structure Misfit where
  index  : Nat
  reason : OperandFault
  deriving DecidableEq, Repr

def misfit (i : Nat) : List OperandClass → List Operand → Except Breach (Option Misfit)
  | [], []               => return none
  | [], _ :: _           => return some ⟨i, .operand⟩
  | _ :: _, []           => return some ⟨i, .operand⟩
  | cls :: classes, op :: ops => do
    if ← cls.fits op then misfit (i + 1) classes ops
    else return some ⟨i, cls.fault⟩

-- Of two misfits the later one counts; at the same operand the first specific reason does.
def Misfit.worse (best : Option Misfit) (m : Misfit) : Misfit :=
  match best with
  | none   => m
  | some b =>
    if b.index < m.index then m
    else if m.index = b.index && m.reason ≠ .operand && b.reason = .operand then m
    else b

-- Tries forms in order. `missing` and `best` tell how the forms before them failed.
def select (available : List Feature) (ops : List Operand) (missing : Option (List Feature))
    (best : Option Misfit) : List Entry → Except Breach Verdict
  | [] =>
    match missing with
    | some fs => return missingFeature fs
    | none    =>
      match best with
      | some m => return rejected m.reason (some m.index)
      | none   => return rejected .operand none
  | e :: es => do
    match ← misfit 1 e.classes ops with
    | some m => select available ops missing (some (Misfit.worse best m)) es
    | none   =>
      if Feature.covers available e.features then
        return success e ⟨some e.opcode.name, ops.filterMap Operand.toArg?, none⟩
      else select available ops (missing <|> some (Feature.lacking available e.features)) best es

def byForms (forms : List Entry) (available : List Feature) : List Operand → Except Breach Verdict
  | []       => throw .missingElement
  | op :: ops => do
    match InstructionSet.formsOf (← op.getToken) forms with
    | [] => return unknownMnemonic
    | es => select available ops none none es

def ofOperands (available : List Feature) (ops : List Operand) : Except Breach Verdict :=
  byForms InstructionSet.table available ops

-- The operand at an index; negative indices count from the end.
def operandAt (ops : List Operand) (i : Int) : Except Failure Operand :=
  let j := if i < 0 then i + ops.length else i
  match if j < 0 then none else ops[j.toNat]? with
  | some op => return op
  | none    => throw (.breach .missingElement)

def resolve (available : List Feature) (ops : List Operand) (loc : Loc) :
    Verdict → Except Failure Inst
  | success _ inst => return { inst with loc := some loc }
  | missingFeature missing =>
    if missing.isEmpty then throw (.breach .noMissingFeatures)
    else
      let names := (Feature.known.filter missing.contains).map Feature.name
      throw (.error (Fault.place (.missingFeature names) loc))
  | unknownMnemonic => do
    let op ← operandAt ops 0
    match op.getToken with
    | .ok word =>
      let words := Spelling.suggestions available word
      throw (.error (Fault.place (.unknownMnemonic words) loc))
    | .error b => throw (.breach b)
  | rejected reason none =>
    if reason = .operand then throw (.error (Fault.place (.unfitOperand none reason) loc))
    else throw (.error (Fault.place (.tooFewOperands none reason) loc))
  | rejected reason (some i) => do
    if ops.length ≤ i then throw (.error (Fault.place (.tooFewOperands (some i) reason) loc))
    let op ← operandAt ops i
    throw (.error ⟨.unfitOperand (some i) reason, op.first⟩)

end Verdict
end Asm88000
