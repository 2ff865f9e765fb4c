import Asm88000.Session

namespace Asm88000

inductive ListingFormat
  | hex
  | dec
  deriving DecidableEq, Repr

namespace ListingFormat

def ofName (s : String) : ListingFormat :=
  if s = "dec" then dec else hex

def render (f : ListingFormat) (word : Nat) : String :=
  match f with
  | hex => "0x" ++ Numeral.hexWord.render word
  | dec => decimal word

end ListingFormat

namespace Listing

def labelsAt (o : Object) (r : Record) : List String :=
  (o.symbols.filter (fun s => s.sect = r.sect && s.address = r.address)).map Symbol.name

def sourceOf (s : Session) (r : Record) : String :=
  match r.loc with
  | some loc => s.source loc.line
  | none     => ""

def fixupText (fixups : List Fixup) : String :=
  if fixups.isEmpty then ""
  else " <- fixup: " ++ String.intercalate ", " (fixups.map Fixup.toText)

def recordLine (f : ListingFormat) (s : Session) (r : Record) : String :=
  Numeral.lowerHexWord.render r.address ++ " | " ++ f.render r.word ++ " | " ++ r.sect.name ++ " | "
    ++ sourceOf s r ++ fixupText r.fixups

def block (f : ListingFormat) (s : Session) (r : Record) : List String :=
  (labelsAt s.object r).map (· ++ ":") ++ [recordLine f s r]

-- The listing breaks off behind the labels of a record that has no line.
def linesOf (f : ListingFormat) (s : Session) : List Record → List String
  | []      => []
  | r :: rs =>
    if r.isNamed then block f s r ++ linesOf f s rs else (labelsAt s.object r).map (· ++ ":")

def lines (f : ListingFormat) (s : Session) : List String :=
  linesOf f s s.object.records

def render (f : ListingFormat) (s : Session) : String :=
  String.join ((lines f s).map (· ++ "\n"))

def isComplete (s : Session) : Bool :=
  s.object.records.all Record.isNamed

end Listing
end Asm88000
