import Asm88000.Command.Options

namespace Asm88000.Display

def opcodeCell (r : Record) : String :=
  match r.inst with
  | some inst => inst.opcode.getD "None"
  | none      => ".word"

def sourceCell (s : Session) (r : Record) : String :=
  if r.loc.isSome then Listing.sourceOf s r else "-"

def fixupCell (r : Record) : String :=
  if r.fixups.isEmpty then "-" else String.intercalate ", " (r.fixups.map Fixup.toText)

def row (s : Session) (r : Record) : List String :=
  ["0x" ++ Numeral.hexWord.render r.address, Numeral.hexWord.render r.word, r.sect.name,
    opcodeCell r, sourceCell s r, fixupCell r]

def table (s : Session) : List (List String) :=
  s.object.records.map (row s)

def sectionLine (name : String) (s : Section) : String :=
  "[bold white]" ++ name ++ " section:[/bold white] [bold blue]" ++ hexText s.start ++ "\t- "
    ++ hexText s.address ++ "[/bold blue] (" ++ decimal s.size ++ " bytes)\n"

def countLine (name : String) (n : Nat) : String :=
  "[bold white]" ++ name ++ ":[/bold white] [bold green]" ++ decimal n ++ "[/bold green]\n"

-- The time that was taken is left out.
def totals (s : Session) : String :=
  countLine "Total Symbols" s.object.symbols.length
    ++ countLine "Total Records" s.object.records.length ++ "\n"

def overview (o : Options) (s : Session) : String :=
  "[bold white]CPU:[/bold white] [bold green]" ++ s.cpu.name ++ "[/bold green]\n\n"
    ++ sectionLine "Code" s.object.text ++ sectionLine "Data" s.object.data
    ++ "[bold white]Warnings:[/bold white] [bold yellow]" ++ decimal s.warnings.length
    ++ "[/bold yellow]\n\n[bold white]Input File:[/bold white]\t[bold magenta]" ++ o.input
    ++ "[/bold magenta]"

def summary (o : Options) (s : Session) : List String :=
  let head := if o.verbose || o.debug then totals s ++ overview o s else overview o s
  let listing := if o.readable then ["Readable File(Text)", o.listingPath] else []
  head :: "Word File" :: o.output :: listing

end Asm88000.Display
