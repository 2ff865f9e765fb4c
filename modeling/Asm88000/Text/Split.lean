
namespace Asm88000.Text

def splitOn (sep : Char) : List Char → List (List Char)
  | [] => [[]]
  | c :: cs =>
    if c = sep then [] :: splitOn sep cs
    else match splitOn sep cs with
      | piece :: pieces => (c :: piece) :: pieces
      | []              => [[c]]

def cutAt? (sep : Char) (cs : List Char) : Option (List Char × List Char) :=
  match cs.dropWhile (· ≠ sep) with
  | _ :: after => some (cs.takeWhile (· ≠ sep), after)
  | []         => none

-- A carriage return ends a line like a line feed, and both together do so once.
def unifyLineEnds : List Char → List Char
  | '\r' :: '\n' :: cs => '\n' :: unifyLineEnds cs
  | '\r' :: cs         => '\n' :: unifyLineEnds cs
  | c :: cs            => c :: unifyLineEnds cs
  | []                 => []

def lines (s : String) : List String :=
  let pieces := splitOn '\n' (unifyLineEnds s.toList)
  let pieces := if pieces.getLast? = some [] then pieces.dropLast else pieces
  pieces.map String.ofList

end Asm88000.Text
