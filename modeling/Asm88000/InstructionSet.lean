import Asm88000.Cpu
import Asm88000.Encoding
import Asm88000.OperandClass

namespace Asm88000

structure Entry where
  mnemonic : String
  classes  : List OperandClass
  opcode   : Opcode
  features : List Feature
  deriving DecidableEq, Repr

def Entry.describe (e : Entry) : String :=
  "InstrEntry(" ++ e.mnemonic ++ " " ++ String.intercalate ", " (e.classes.map OperandClass.name)
    ++ " -> " ++ e.opcode.name ++ ")"

namespace InstructionSet

-- Of several forms that fit, the first one is taken.
def table : List Entry := [
  -- integer arithmetic and logic
    ⟨"add", [.gpr, .gpr, .gpr], ⟨"ADDrr", 0xF4007000, Format.rrr⟩, []⟩,
    ⟨"add", [.gpr, .gpr, .u16], ⟨"ADDri", 0x70000000, Format.rri16⟩, []⟩,
    ⟨"addu", [.gpr, .gpr, .gpr], ⟨"ADDUrr", 0xF4006000, Format.rrr⟩, []⟩,
    ⟨"addu", [.gpr, .gpr, .u16], ⟨"ADDUri", 0x60000000, Format.rri16⟩, []⟩,
    ⟨"sub", [.gpr, .gpr, .gpr], ⟨"SUBrr", 0xF4007400, Format.rrr⟩, []⟩,
    ⟨"sub", [.gpr, .gpr, .u16], ⟨"SUBri", 0x74000000, Format.rri16⟩, []⟩,
    ⟨"subu", [.gpr, .gpr, .gpr], ⟨"SUBUrr", 0xF4006400, Format.rrr⟩, []⟩,
    ⟨"subu", [.gpr, .gpr, .u16], ⟨"SUBUri", 0x64000000, Format.rri16⟩, []⟩,
    ⟨"and", [.gpr, .gpr, .gpr], ⟨"ANDrr", 0xF4004000, Format.rrr⟩, []⟩,
    ⟨"and", [.gpr, .gpr, .u16], ⟨"ANDri", 0x40000000, Format.rri16⟩, []⟩,
    ⟨"or", [.gpr, .gpr, .gpr], ⟨"ORrr", 0xF4005800, Format.rrr⟩, []⟩,
    ⟨"or", [.gpr, .gpr, .u16], ⟨"ORri", 0x58000000, Format.rri16⟩, []⟩,
    ⟨"xor", [.gpr, .gpr, .gpr], ⟨"XORrr", 0xF4005000, Format.rrr⟩, []⟩,
    ⟨"xor", [.gpr, .gpr, .u16], ⟨"XORri", 0x50000000, Format.rri16⟩, []⟩,
    ⟨"cmp", [.gpr, .gpr, .gpr], ⟨"CMPrr", 0xF4007C00, Format.rrr⟩, []⟩,
    ⟨"cmp", [.gpr, .gpr, .u16], ⟨"CMPri", 0x7C000000, Format.rri16⟩, []⟩,
    ⟨"mul", [.gpr, .gpr, .gpr], ⟨"MULrr", 0xF4006C00, Format.rrr⟩, []⟩,
    ⟨"mul", [.gpr, .gpr, .u16], ⟨"MULri", 0x6C000000, Format.rri16⟩, []⟩,
    ⟨"div", [.gpr, .gpr, .gpr], ⟨"DIVrr", 0xF4007800, Format.rrr⟩, []⟩,
    ⟨"div", [.gpr, .gpr, .u16], ⟨"DIVri", 0x78000000, Format.rri16⟩, []⟩,
    ⟨"divu", [.gpr, .gpr, .gpr], ⟨"DIVUrr", 0xF4006800, Format.rrr⟩, []⟩,
    ⟨"divu", [.gpr, .gpr, .u16], ⟨"DIVUri", 0x68000000, Format.rri16⟩, []⟩,
  -- addition and subtraction with carry in, carry out, or both
    ⟨"add.ci", [.gpr, .gpr, .gpr], ⟨"ADDrr_CI", 0xF4007200, Format.rrr⟩, []⟩,
    ⟨"add.co", [.gpr, .gpr, .gpr], ⟨"ADDrr_CO", 0xF4007100, Format.rrr⟩, []⟩,
    ⟨"add.cio", [.gpr, .gpr, .gpr], ⟨"ADDrr_CIO", 0xF4007300, Format.rrr⟩, []⟩,
    ⟨"addu.ci", [.gpr, .gpr, .gpr], ⟨"ADDUrr_CI", 0xF4006200, Format.rrr⟩, []⟩,
    ⟨"addu.co", [.gpr, .gpr, .gpr], ⟨"ADDUrr_CO", 0xF4006100, Format.rrr⟩, []⟩,
    ⟨"addu.cio", [.gpr, .gpr, .gpr], ⟨"ADDUrr_CIO", 0xF4006300, Format.rrr⟩, []⟩,
    ⟨"sub.ci", [.gpr, .gpr, .gpr], ⟨"SUBrr_CI", 0xF4007600, Format.rrr⟩, []⟩,
    ⟨"sub.co", [.gpr, .gpr, .gpr], ⟨"SUBrr_CO", 0xF4007500, Format.rrr⟩, []⟩,
    ⟨"sub.cio", [.gpr, .gpr, .gpr], ⟨"SUBrr_CIO", 0xF4007700, Format.rrr⟩, []⟩,
    ⟨"subu.ci", [.gpr, .gpr, .gpr], ⟨"SUBUrr_CI", 0xF4006600, Format.rrr⟩, []⟩,
    ⟨"subu.co", [.gpr, .gpr, .gpr], ⟨"SUBUrr_CO", 0xF4006500, Format.rrr⟩, []⟩,
    ⟨"subu.cio", [.gpr, .gpr, .gpr], ⟨"SUBUrr_CIO", 0xF4006700, Format.rrr⟩, []⟩,
  -- immediates for the upper half, and masks
    ⟨"and.u", [.gpr, .gpr, .u16], ⟨"ANDUri", 0x44000000, Format.rri16⟩, []⟩,
    ⟨"or.u", [.gpr, .gpr, .u16], ⟨"ORUri", 0x5C000000, Format.rri16⟩, []⟩,
    ⟨"xor.u", [.gpr, .gpr, .u16], ⟨"XORUri", 0x54000000, Format.rri16⟩, []⟩,
    ⟨"mask", [.gpr, .gpr, .u16], ⟨"MASKri", 0x48000000, Format.rri16⟩, []⟩,
    ⟨"mask.u", [.gpr, .gpr, .u16], ⟨"MASKUri", 0x4C000000, Format.rri16⟩, []⟩,
  -- loads and stores
    ⟨"ld", [.gpr, .gpr, .u16], ⟨"LDri", 0x14000000, Format.rri16⟩, []⟩,
    ⟨"ld", [.gpr, .gpr, .gpr], ⟨"LDrr", 0xF4001400, Format.rrr⟩, []⟩,
    ⟨"ld", [.gpr, .gpr, .lbrack, .gpr, .rbrack], ⟨"LDrrsc", 0xF4001600, Format.rrr⟩, []⟩,
    ⟨"ld.b", [.gpr, .gpr, .u16], ⟨"LDBri", 0x1C000000, Format.rri16⟩, []⟩,
    ⟨"ld.b", [.gpr, .gpr, .gpr], ⟨"LDBrr", 0xF4001C00, Format.rrr⟩, []⟩,
    ⟨"ld.b", [.gpr, .gpr, .lbrack, .gpr, .rbrack], ⟨"LDBrrsc", 0xF4001E00, Format.rrr⟩, []⟩,
    ⟨"ld.bu", [.gpr, .gpr, .u16], ⟨"LDBUri", 0x0C000000, Format.rri16⟩, []⟩,
    ⟨"ld.bu", [.gpr, .gpr, .gpr], ⟨"LDBUrr", 0xF4000C00, Format.rrr⟩, []⟩,
    ⟨"ld.bu", [.gpr, .gpr, .lbrack, .gpr, .rbrack], ⟨"LDBUrrsc", 0xF4000E00, Format.rrr⟩, []⟩,
    ⟨"ld.h", [.gpr, .gpr, .u16], ⟨"LDHri", 0x18000000, Format.rri16⟩, []⟩,
    ⟨"ld.h", [.gpr, .gpr, .gpr], ⟨"LDHrr", 0xF4001800, Format.rrr⟩, []⟩,
    ⟨"ld.h", [.gpr, .gpr, .lbrack, .gpr, .rbrack], ⟨"LDHrrsc", 0xF4001A00, Format.rrr⟩, []⟩,
    ⟨"ld.hu", [.gpr, .gpr, .u16], ⟨"LDHUri", 0x08000000, Format.rri16⟩, []⟩,
    ⟨"ld.hu", [.gpr, .gpr, .gpr], ⟨"LDHUrr", 0xF4000800, Format.rrr⟩, []⟩,
    ⟨"ld.hu", [.gpr, .gpr, .lbrack, .gpr, .rbrack], ⟨"LDHUrrsc", 0xF4000A00, Format.rrr⟩, []⟩,
    ⟨"ld.d", [.gpr64, .gpr, .u16], ⟨"LDDri", 0x10000000, Format.rri16⟩, []⟩,
    ⟨"ld.d", [.gpr64, .gpr, .gpr], ⟨"LDDrr", 0xF4001000, Format.rrr⟩, []⟩,
    ⟨"ld.d", [.gpr64, .gpr, .lbrack, .gpr, .rbrack], ⟨"LDDrrsc", 0xF4001200, Format.rrr⟩, []⟩,
    ⟨"st", [.gpr, .gpr, .u16], ⟨"STri", 0x24000000, Format.rri16⟩, []⟩,
    ⟨"st", [.gpr, .gpr, .gpr], ⟨"STrr", 0xF4002400, Format.rrr⟩, []⟩,
    ⟨"st", [.gpr, .gpr, .lbrack, .gpr, .rbrack], ⟨"STrrsc", 0xF4002600, Format.rrr⟩, []⟩,
    ⟨"st.b", [.gpr, .gpr, .u16], ⟨"STBri", 0x2C000000, Format.rri16⟩, []⟩,
    ⟨"st.b", [.gpr, .gpr, .gpr], ⟨"STBrr", 0xF4002C00, Format.rrr⟩, []⟩,
    ⟨"st.b", [.gpr, .gpr, .lbrack, .gpr, .rbrack], ⟨"STBrrsc", 0xF4002E00, Format.rrr⟩, []⟩,
    ⟨"st.h", [.gpr, .gpr, .u16], ⟨"STHri", 0x28000000, Format.rri16⟩, []⟩,
    ⟨"st.h", [.gpr, .gpr, .gpr], ⟨"STHrr", 0xF4002800, Format.rrr⟩, []⟩,
    ⟨"st.h", [.gpr, .gpr, .lbrack, .gpr, .rbrack], ⟨"STHrrsc", 0xF4002A00, Format.rrr⟩, []⟩,
    ⟨"st.d", [.gpr64, .gpr, .u16], ⟨"STDri", 0x20000000, Format.rri16⟩, []⟩,
    ⟨"st.d", [.gpr64, .gpr, .gpr], ⟨"STDrr", 0xF4002000, Format.rrr⟩, []⟩,
    ⟨"st.d", [.gpr64, .gpr, .lbrack, .gpr, .rbrack], ⟨"STDrrsc", 0xF4002200, Format.rrr⟩, []⟩,
  -- bitfields
    ⟨"clr", [.gpr, .gpr, .bitfieldWidth, .less, .bitfieldOffset, .greater],
      ⟨"CLRrwo", 0xF0008000, Format.bitfield⟩, []⟩,
    ⟨"clr", [.gpr, .gpr, .gpr], ⟨"CLRrr", 0xF4008000, Format.rrr⟩, []⟩,
    ⟨"set", [.gpr, .gpr, .bitfieldWidth, .less, .bitfieldOffset, .greater],
      ⟨"SETrwo", 0xF0008800, Format.bitfield⟩, []⟩,
    ⟨"set", [.gpr, .gpr, .gpr], ⟨"SETrr", 0xF4008800, Format.rrr⟩, []⟩,
    ⟨"ext", [.gpr, .gpr, .bitfieldWidth, .less, .bitfieldOffset, .greater],
      ⟨"EXTrwo", 0xF0009000, Format.bitfield⟩, []⟩,
    ⟨"ext", [.gpr, .gpr, .gpr], ⟨"EXTrr", 0xF4009000, Format.rrr⟩, []⟩,
    ⟨"extu", [.gpr, .gpr, .bitfieldWidth, .less, .bitfieldOffset, .greater],
      ⟨"EXTUrwo", 0xF0009800, Format.bitfield⟩, []⟩,
    ⟨"extu", [.gpr, .gpr, .gpr], ⟨"EXTUrr", 0xF4009800, Format.rrr⟩, []⟩,
    ⟨"mak", [.gpr, .gpr, .bitfieldWidth, .less, .bitfieldOffset, .greater],
      ⟨"MAKrwo", 0xF000A000, Format.bitfield⟩, []⟩,
    ⟨"mak", [.gpr, .gpr, .gpr], ⟨"MAKrr", 0xF400A000, Format.rrr⟩, []⟩,
    ⟨"rot", [.gpr, .gpr, .less, .bitfieldOffset, .greater],
      ⟨"ROTrwo", 0xF000A800, Format.rotate⟩, []⟩,
    ⟨"rot", [.gpr, .gpr, .gpr], ⟨"ROTrr", 0xF400A800, Format.rrr⟩, []⟩,
    ⟨"ff0", [.gpr, .gpr], ⟨"FF0rr", 0xF400EC00, Format.rr2⟩, []⟩,
    ⟨"ff1", [.gpr, .gpr], ⟨"FF1rr", 0xF400E800, Format.rr2⟩, []⟩,
  -- flow control
    ⟨"br", [.displacement26], ⟨"BR", 0xC0000000, Format.branch26⟩, []⟩,
    ⟨"br.n", [.displacement26], ⟨"BRN", 0xC4000000, Format.branch26⟩, []⟩,
    ⟨"bsr", [.displacement26], ⟨"BSR", 0xC8000000, Format.branch26⟩, []⟩,
    ⟨"bsr.n", [.displacement26], ⟨"BSRN", 0xCC000000, Format.branch26⟩, []⟩,
    ⟨"bb0", [.u5, .gpr, .displacement16], ⟨"BB0", 0xD0000000, Format.branch16⟩, []⟩,
    ⟨"bb0.n", [.u5, .gpr, .displacement16], ⟨"BB0N", 0xD4000000, Format.branch16⟩, []⟩,
    ⟨"bb1", [.u5, .gpr, .displacement16], ⟨"BB1", 0xD8000000, Format.branch16⟩, []⟩,
    ⟨"bb1.n", [.u5, .gpr, .displacement16], ⟨"BB1N", 0xDC000000, Format.branch16⟩, []⟩,
    ⟨"bcnd", [.conditionCode, .gpr, .displacement16], ⟨"BCND", 0xE8000000, Format.branch16⟩, []⟩,
    ⟨"bcnd.n", [.conditionCode, .gpr, .displacement16], ⟨"BCNDn", 0xEC000000, Format.branch16⟩, []⟩,
    ⟨"jmp", [.gpr], ⟨"JMP", 0xF400C000, Format.r2⟩, []⟩,
    ⟨"jmp.n", [.gpr], ⟨"JMPN", 0xF400C400, Format.r2⟩, []⟩,
    ⟨"jsr", [.gpr], ⟨"JSR", 0xF400C800, Format.r2⟩, []⟩,
    ⟨"jsr.n", [.gpr], ⟨"JSRN", 0xF400CC00, Format.r2⟩, []⟩,
  -- traps
    ⟨"tb0", [.u5, .gpr, .vec9], ⟨"TB0", 0xF000D000, Format.trap⟩, []⟩,
    ⟨"tb1", [.u5, .gpr, .vec9], ⟨"TB1", 0xF000D800, Format.trap⟩, []⟩,
    ⟨"tcnd", [.conditionCode, .gpr, .vec9], ⟨"TCND", 0xF000E800, Format.trap⟩, []⟩,
    ⟨"tbnd", [.gpr, .gpr], ⟨"TBNDrr", 0xF400F800, Format.r1r2⟩, []⟩,
    ⟨"rte", [], ⟨"RTE", 0xF400FC00, Format.bare⟩, []⟩,
  -- control registers
    ⟨"ldcr", [.gpr, .cr], ⟨"LDCR", 0x80004000, Format.loadControl⟩, []⟩,
    ⟨"stcr", [.gpr, .cr], ⟨"STCR", 0x80008000, Format.storeControl⟩, []⟩,
    ⟨"xcr", [.gpr, .gpr, .cr], ⟨"XCR", 0x8000C000, Format.exchangeControl⟩, []⟩,
    ⟨"fldcr", [.gpr, .fcr], ⟨"FLDCR", 0x80004800, Format.loadControl⟩, []⟩,
    ⟨"fstcr", [.gpr, .fcr], ⟨"FSTCR", 0x80008800, Format.storeControl⟩, []⟩,
    ⟨"fxcr", [.gpr, .gpr, .fcr], ⟨"FXCR", 0x8000C800, Format.exchangeControl⟩, []⟩,
  -- floating point, single and double precision
    ⟨"fadd.sss", [.gpr, .gpr, .gpr], ⟨"FADDsss", 0x84002800, Format.rrr⟩, []⟩,
    ⟨"fadd.ddd", [.gpr64, .gpr64, .gpr64], ⟨"FADDddd", 0x840028A0, Format.rrr⟩, []⟩,
    ⟨"fsub.sss", [.gpr, .gpr, .gpr], ⟨"FSUBsss", 0x84003000, Format.rrr⟩, []⟩,
    ⟨"fsub.ddd", [.gpr64, .gpr64, .gpr64], ⟨"FSUBddd", 0x840030A0, Format.rrr⟩, []⟩,
    ⟨"fmul.sss", [.gpr, .gpr, .gpr], ⟨"FMULsss", 0x84000000, Format.rrr⟩, []⟩,
    ⟨"fmul.ddd", [.gpr64, .gpr64, .gpr64], ⟨"FMULddd", 0x840000A0, Format.rrr⟩, []⟩,
    ⟨"fdiv.sss", [.gpr, .gpr, .gpr], ⟨"FDIVsss", 0x84007000, Format.rrr⟩, []⟩,
    ⟨"fdiv.ddd", [.gpr64, .gpr64, .gpr64], ⟨"FDIVddd", 0x840070A0, Format.rrr⟩, []⟩,
  -- graphics and traps of the mc88110
    ⟨"padd", [.gpr64, .gpr64, .gpr64], ⟨"PADD", 0x88002000, Format.rrr⟩, [.mc88110]⟩,
    ⟨"psub", [.gpr64, .gpr64, .gpr64], ⟨"PSUB", 0x88003000, Format.rrr⟩, [.mc88110]⟩,
    ⟨"pmul", [.gpr64, .gpr, .gpr], ⟨"PMUL", 0x88000000, Format.rrr⟩, [.mc88110]⟩,
    ⟨"prot", [.gpr64, .gpr64, .pixelRotation],
      ⟨"PROTri", 0x88007800, Format.pixelRotate⟩, [.mc88110]⟩,
    ⟨"prot", [.gpr64, .gpr64, .gpr], ⟨"PROTrr", 0x88007000, Format.rrr⟩, [.mc88110]⟩,
    ⟨"illop1", [], ⟨"ILLOP1", 0xF400FC01, Format.bare⟩, [.mc88110]⟩,
    ⟨"illop2", [], ⟨"ILLOP2", 0xF400FC02, Format.bare⟩, [.mc88110]⟩,
    ⟨"illop3", [], ⟨"ILLOP3", 0xF400FC03, Format.bare⟩, [.mc88110]⟩]

def formsOf (mnemonic : String) (forms : List Entry) : List Entry :=
  forms.filter (fun e => e.mnemonic == mnemonic)

def candidates (mnemonic : String) : List Entry :=
  formsOf mnemonic table

def mnemonics : List String :=
  (table.map Entry.mnemonic).eraseDups

def opcode? (name : String) : Option Opcode :=
  (table.find? (fun e => e.opcode.name == name)).map Entry.opcode

def opcode (name : Option String) : Except Breach Opcode :=
  match name.bind opcode? with
  | some op => .ok op
  | none    => .error (.unknownOpcode name)

end InstructionSet

def Inst.encode (inst : Inst) : Except Breach (Nat × List Fixup) := do
  (← InstructionSet.opcode inst.opcode).encode inst.args

end Asm88000
