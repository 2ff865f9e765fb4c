import Asm88000.Breach
import Asm88000.Text.Split

namespace Asm88000

inductive Input
  | missing
  | unreadable
  | bytes (content : ByteArray)

-- What the command finds around it. `same` tells which paths lead to one file, `allocate` what
-- comes of asking for a list of so many words, and `shows` whether some texts can be put on the
-- console.
structure Host where
  read     : String → Input
  canWrite : String → Bool
  same     : String → String → Bool
  allocate : Int → Except Breach Unit
  shows    : List String → Bool

-- A file without text is the file of the log.
structure OutputFile where
  path : String
  text : Option String
  deriving DecidableEq, Repr

namespace OutputFile

def content (f : OutputFile) : ByteArray :=
  (f.text.getD "").toUTF8

end OutputFile

def Host.readAfter (host : Host) (written : List OutputFile) (path : String) : Input :=
  match written.reverse.find? (fun f => host.same f.path path) with
  | some f => .bytes f.content
  | none   => host.read path

namespace Path

def parts (path : String) : List String :=
  (Text.splitOn '/' path.toList).map String.ofList

def isAbsolute (path : String) : Bool :=
  path.toList.head? = some '/'

-- The parts so far stand with the last first. A step up cancels the part before it; at the root
-- there is nowhere up.
def reduceStep (absolute : Bool) (done : List String) (part : String) : List String :=
  if part = "" || part = "." then done
  else if part = ".." then
    match done with
    | []            => if absolute then [] else [".."]
    | last :: above => if last = ".." then ".." :: done else above
  else part :: done

def reduce (path : String) : String :=
  let absolute := isAbsolute path
  let kept := ((parts path).foldl (reduceStep absolute) []).reverse
  let text := String.intercalate "/" kept
  if absolute then "/" ++ text else if kept.isEmpty then "." else text

end Path
end Asm88000
