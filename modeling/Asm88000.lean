import Asm88000.Atom
import Asm88000.Breach
import Asm88000.Command
import Asm88000.Command.Display
import Asm88000.Command.Host
import Asm88000.Command.Offsets
import Asm88000.Command.Options
import Asm88000.Cpu
import Asm88000.Diagnostic
import Asm88000.Encoding
import Asm88000.Expr
import Asm88000.Expr.Parser
import Asm88000.Fault
import Asm88000.Image
import Asm88000.Inst
import Asm88000.InstructionSet
import Asm88000.Layout
import Asm88000.Listing
import Asm88000.Loc
import Asm88000.Log
import Asm88000.Lowering
import Asm88000.Lowering.MachineOperand
import Asm88000.Lowering.SymbolName
import Asm88000.Main
import Asm88000.Object
import Asm88000.Operand
import Asm88000.Operand.Parser
import Asm88000.OperandClass
import Asm88000.Proofs.CanonicalLine
import Asm88000.Proofs.Cursor
import Asm88000.Proofs.Decoding
import Asm88000.Proofs.Encoding
import Asm88000.Proofs.Ensures
import Asm88000.Proofs.Execution
import Asm88000.Proofs.ExprParser
import Asm88000.Proofs.Image
import Asm88000.Proofs.Layout
import Asm88000.Proofs.Lexer
import Asm88000.Proofs.Matching
import Asm88000.Proofs.Numeral
import Asm88000.Proofs.Object
import Asm88000.Proofs.OperandLayout
import Asm88000.Proofs.OperandParser
import Asm88000.Proofs.OperandReading
import Asm88000.Proofs.Register
import Asm88000.Proofs.Session
import Asm88000.Proofs.Statement
import Asm88000.Proofs.Writing
import Asm88000.Register
import Asm88000.Session
import Asm88000.Spelling
import Asm88000.Statement
import Asm88000.Text.Blank
import Asm88000.Text.Digit
import Asm88000.Text.LetterCase
import Asm88000.Text.Numeral
import Asm88000.Text.Printable
import Asm88000.Text.Quoted
import Asm88000.Text.Split
import Asm88000.Token
import Asm88000.Token.Cursor
import Asm88000.Token.Lexer
import Asm88000.Verdict
import Asm88000.Proofs.SectionStarts
import Asm88000.Proofs.Branch
import Asm88000.Proofs.Displacement
import Asm88000.Proofs.ExprGrammar
import Asm88000.Proofs.LoweredText
import Asm88000.Proofs.Agreement
import Asm88000.Proofs.OperandAgreement
import Asm88000.Proofs.StatementAgreement
import Asm88000.Proofs.SessionAgreement
import Asm88000.Proofs.SpellingIndependence
import Asm88000.Proofs.Recovery
import Asm88000.Proofs.Tokenization
import Asm88000.Proofs.ExprPrinting
import Asm88000.Proofs.Fixups
import Asm88000.Proofs.PositionIndependence
import Asm88000.Proofs.SectionIndependence
import Asm88000.Proofs.CpuUpgrade
import Asm88000.Proofs.FeatureGating
import Asm88000.Proofs.Locations
import Asm88000.Proofs.Selection
import Asm88000.Proofs.LocalNames
import Asm88000.Proofs.CommandOutcome
import Asm88000.Proofs.EditDistance
import Asm88000.Proofs.DirectiveFailure
import Asm88000.Proofs.OperandText
import Asm88000.Proofs.InstructionLine
import Asm88000.Proofs.PixelRotation
import Asm88000.Proofs.ConditionCode
import Asm88000.Proofs.WordDirective
import Asm88000.Proofs.Bitfield
import Asm88000.Proofs.AddressHalves
import Asm88000.Proofs.LoweringRun
import Asm88000.Proofs.Suggestions
import Asm88000.Proofs.TentativeReading
import Asm88000.Proofs.TokenTape
import Asm88000.Proofs.Provenance
import Asm88000.Proofs.SourceListing
import Asm88000.Proofs.Alignment
import Asm88000.Proofs.FileOutput
