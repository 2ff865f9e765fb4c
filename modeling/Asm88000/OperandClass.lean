import Asm88000.Operand

namespace Asm88000

inductive SlotReader
  | bitfieldWidth
  | bitfieldOffset
  | pixelRotation
  | conditionCode
  | displacement16
  | displacement26
  deriving DecidableEq, Repr

namespace SlotReader

def name : SlotReader → String
  | bitfieldWidth  => "bf_width"
  | bitfieldOffset => "bf_offset"
  | pixelRotation  => "pixel_rot"
  | conditionCode  => "condition_code"
  | displacement16 => "pcrel16"
  | displacement26 => "pcrel26"

end SlotReader

inductive OperandClass
  | gpr
  | gpr64
  | xr
  | cr
  | fcr
  | u5
  | u16
  | vec9
  | bitfieldWidth
  | bitfieldOffset
  | pixelRotation
  | conditionCode
  | displacement16
  | displacement26
  | less
  | greater
  | lbrack
  | rbrack
  deriving DecidableEq, Repr

namespace OperandClass

def name : OperandClass → String
  | gpr            => "GPR"
  | gpr64          => "GPR64"
  | xr             => "XR"
  | cr             => "CR"
  | fcr            => "FCR"
  | u5             => "U5Imm"
  | u16            => "U16Imm"
  | vec9           => "Vec9"
  | bitfieldWidth  => "BFWidth"
  | bitfieldOffset => "BFOffset"
  | pixelRotation  => "PixelRot"
  | conditionCode  => "CCode"
  | displacement16 => "PCRel16"
  | displacement26 => "PCRel26"
  | less           => "'<'"
  | greater        => "'>'"
  | lbrack         => "'['"
  | rbrack         => "']'"

def reader? : OperandClass → Option SlotReader
  | bitfieldWidth  => some .bitfieldWidth
  | bitfieldOffset => some .bitfieldOffset
  | pixelRotation  => some .pixelRotation
  | conditionCode  => some .conditionCode
  | displacement16 => some .displacement16
  | displacement26 => some .displacement26
  | _              => none

def fault : OperandClass → OperandFault
  | bitfieldWidth  => .bitfieldWidth
  | bitfieldOffset => .bitfieldOffset
  | pixelRotation  => .pixelRotation
  | _              => .operand

def hasTargetCheck : OperandClass → Bool
  | gpr64 => true
  | _     => false

def isOfClass (cls : RegClass) (op : Operand) : Except Breach Bool :=
  match op.value with
  | .register id => return (← Register.get id).regClass = cls
  | _            => return false

def isToken (text : String) (op : Operand) : Bool :=
  op.value = .token text

def isUnsigned16 (op : Operand) : Bool :=
  op.inRange 0 0xFFFF || match op.value with
    | .immediate (.half _ _) => true
    | _                      => false

def isImmediate (op : Operand) : Bool :=
  match op.value with
  | .immediate _ => true
  | _            => false

def accepts (cls : OperandClass) (op : Operand) : Except Breach Bool :=
  match cls with
  | gpr            => isOfClass .gpr op
  | gpr64          => isOfClass .gpr64 op
  | xr             => isOfClass .xr op
  | cr             => isOfClass .cr op
  | fcr            => isOfClass .fcr op
  | u5             => return op.inRange 0 31
  | u16            => return isUnsigned16 op
  | vec9           => return op.inRange 0 511
  | bitfieldWidth  => return op.inRange 0 31
  | bitfieldOffset => return op.inRange 0 31
  | pixelRotation  => return op.inRange 0 60
  | conditionCode  => return op.inRange 0 31
  | displacement16 => return isImmediate op
  | displacement26 => return isImmediate op
  | less           => return isToken "<" op
  | greater        => return isToken ">" op
  | lbrack         => return isToken "[" op
  | rbrack         => return isToken "]" op

-- Any general register names a pair by its high half.
def targetAdmits (cls : OperandClass) (op : Operand) : Except Breach Bool :=
  if cls = gpr64 then isOfClass .gpr op else return false

def fits (cls : OperandClass) (op : Operand) : Except Breach Bool := do
  if ← cls.accepts op then return true
  else if cls.hasTargetCheck then cls.targetAdmits op
  else return false

end OperandClass
end Asm88000
