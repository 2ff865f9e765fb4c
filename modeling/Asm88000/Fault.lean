import Asm88000.Loc

namespace Asm88000

inductive OperandFault
  | operand
  | bitfieldWidth
  | bitfieldOffset
  | pixelRotation
  deriving DecidableEq, Repr

namespace OperandFault

def name : OperandFault → String
  | operand        => "invalid_operand"
  | bitfieldWidth  => "invalid_bitfield_width"
  | bitfieldOffset => "invalid_bitfield_offset"
  | pixelRotation  => "invalid_pixel_rotation_size"

def message : OperandFault → String
  | operand        => "invalid operand for instruction"
  | bitfieldWidth  => "bitfield width must be an immediate in the range [0, 31]"
  | bitfieldOffset => "bitfield offset must be an immediate in the range [0, 31]"
  | pixelRotation  => "pixel rotation size must be an immediate in the range [0, 60]"

end OperandFault

inductive Fault
  -- characters
  | invalidCharacter (c : Char)
  | invalidInteger (spelling : String) (next : Char)
  -- expressions
  | unknownToken
  | unclosedParen
  | negatedSymbol
  | symbolDifference
  | halfArgument (selector : String)
  -- operands
  | expectedOperand
  | expectedRegisterOrImmediate
  | expectedBitfieldOffset
  | unclosedBitfieldOffset
  | expectedRotation
  | unclosedRotation
  | expectedScaledRegister
  | expectedRegister
  | invalidRegister
  | trailingOperand
  | offsetOutOfRange
  -- instructions
  | unknownMnemonic (suggestions : List String)
  | missingFeature (features : List String)
  | tooFewOperands (index : Option Int) (reason : OperandFault)
  | unfitOperand (index : Option Int) (reason : OperandFault)
  -- statements and directives
  | statementStart
  | unknownDirective (name : String)
  | trailingToken (directive : String)
  | expectedSymbolName (directive : String)
  | expectedAlignment
  | expectedExpression
  -- the object under construction
  | unknownSection (name : String)
  | duplicateSymbol (name : String)
  | unalignedInstruction (address : Int)
  | badAlignment (alignment : Int)
  | wordOutOfRange
  -- the program as a whole
  | sectionOverlap (codeMin codeMax dataMin dataMax : Int)
  | offsetFormat (item : String)
  | offsetValue (key value : String)
  | offsetAlignment (key : String) (value : Int)
  | unknownSectionKey (key : String)
  | missingInput (path : String)
  | failedStatements (errors warnings : Nat) (path : String)
  deriving DecidableEq, Repr

namespace Fault

def suggestionText : List String → String
  | []  => ""
  | [s] => ", did you mean: " ++ s ++ "?"
  | ss  => ", did you mean one of: " ++ String.intercalate ", " ss ++ "?"

def message : Fault → String
  | invalidCharacter c          => "invalid character '" ++ String.singleton c ++ "'"
  | invalidInteger s c          => "invalid integer literal '" ++ s ++ String.singleton c ++ "'"
  | unknownToken                => "unknown token in expression"
  | unclosedParen               => "expected ')' in parentheses expression"
  | negatedSymbol               => "cannot negate a symbolic expression"
  | symbolDifference            => "symbol difference is not supported in expressions"
  | halfArgument sel            => "expected expression in " ++ sel ++ "()"
  | expectedOperand             => "expected operand"
  | expectedRegisterOrImmediate => "expected register or immediate"
  | expectedBitfieldOffset      => "expected bitfield offset"
  | unclosedBitfieldOffset      => "expected '>' after bitfield offset"
  | expectedRotation            => "expected pixel rotation size"
  | unclosedRotation            => "expected '>' after pixel rotation size"
  | expectedScaledRegister      => "expected scaled register operand"
  | expectedRegister            => "expected register"
  | invalidRegister             => "invalid register"
  | trailingOperand             => "unexpected token in argument list"
  | offsetOutOfRange            => "offset out of range"
  | unknownMnemonic ss          => "invalid instruction" ++ suggestionText ss
  | missingFeature fs           =>
    "instruction requires the following: " ++ String.intercalate ", " fs
  | tooFewOperands _ _          => "too few operands for instruction"
  | unfitOperand _ reason       => reason.message
  | statementStart              => "unexpected token at start of statement"
  | unknownDirective name       => "unknown directive '" ++ name ++ "'"
  | trailingToken name          => "unexpected token in '" ++ name ++ "' directive"
  | expectedSymbolName name     => "expected symbol name after '" ++ name ++ "'"
  | expectedAlignment           => "expected alignment value"
  | expectedExpression          => "expected expression"
  | unknownSection name         => "unknown section '" ++ name ++ "'"
  | duplicateSymbol name        => "symbol '" ++ name ++ "' is already defined"
  | unalignedInstruction a      => "instruction at unaligned address " ++ hexText a
  | badAlignment n              => "alignment must be a power of two, got " ++ decimal n
  | wordOutOfRange              => "value out of range for .word"
  | sectionOverlap a b c d      =>
    "Code section (" ++ hexText a ++ "-" ++ hexText b ++ ") overlaps with Data section ("
      ++ hexText c ++ "-" ++ hexText d ++ ")"
  | offsetFormat item           =>
    "Invalid memory_offset format: '" ++ item ++ "'. Expected format: key=value."
  | offsetValue key value       => "Invalid offset value for '" ++ key ++ "': '" ++ value ++ "'"
  | offsetAlignment key v       => "Offset for '" ++ key ++ "' must be word aligned: " ++ hexText v
  | unknownSectionKey key       =>
    "Unknown section key '" ++ key ++ "'. Supported keys: code, data."
  | missingInput path           => "Input file '" ++ path ++ "' not found."
  | failedStatements e w path   =>
    decimal e ++ " error(s), " ++ decimal w ++ " warning(s) in " ++ path

end Fault

inductive FaultFamily
  | general
  | lexical
  | grammar
  | range
  | register
  | mnemonic
  | feature
  | operandClass
  deriving DecidableEq, Repr

def Fault.family : Fault → FaultFamily
  | invalidCharacter _ | invalidInteger _ _ => .lexical
  | unknownToken | unclosedParen | negatedSymbol | symbolDifference | halfArgument _
  | expectedOperand | expectedRegisterOrImmediate | expectedBitfieldOffset
  | unclosedBitfieldOffset | expectedRotation | unclosedRotation | expectedScaledRegister
  | expectedRegister | trailingOperand | statementStart | unknownDirective _ | trailingToken _
  | expectedSymbolName _ | expectedAlignment | expectedExpression => .grammar
  | offsetOutOfRange | wordOutOfRange => .range
  | invalidRegister => .register
  | unknownMnemonic _ => .mnemonic
  | missingFeature _ => .feature
  | tooFewOperands _ _ | unfitOperand _ _ => .operandClass
  | _ => .general

structure Error where
  fault : Fault
  loc   : Option Loc
  deriving DecidableEq, Repr

namespace Error

def message (e : Error) : String :=
  e.fault.message

def toText (e : Error) : String :=
  Loc.heading e.loc ++ e.message

end Error

namespace Fault

def place (f : Fault) (loc : Loc) : Error where
  fault := f
  loc   := some loc

def unplaced (f : Fault) : Error where
  fault := f
  loc   := none

end Fault
end Asm88000
