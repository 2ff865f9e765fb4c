import Asm88000.Text.Quoted

namespace Asm88000

inductive Atom
  | none
  | int  (v : Int)
  | text (s : String)
  deriving DecidableEq, Repr

namespace Atom

def toText : Atom → String
  | none   => "None"
  | int v  => decimal v
  | text s => s

def quoted : Atom → String
  | text s => Text.quoted s
  | a      => a.toText

end Atom
end Asm88000
