import Asm88000.Text.Numeral

namespace Asm88000

structure Loc where
  line   : Int
  column : Int
  deriving DecidableEq, Repr

namespace Loc

def toText (loc : Loc) : String :=
  decimal loc.line ++ ":" ++ decimal loc.column

def heading : Option Loc → String
  | some loc => "line " ++ loc.toText ++ ": "
  | none     => ""

end Loc
end Asm88000
