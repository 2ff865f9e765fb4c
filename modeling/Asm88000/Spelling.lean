import Asm88000.InstructionSet

namespace Asm88000.Spelling

-- One row of the distance table, for the character `a` and the characters `bs` of the other word.
-- `above` is the previous row from the column before the first of `bs`, and `left` the entry there.
def row (a : Char) : (bs : List Char) → (above : List Nat) → (left : Nat) → List Nat
  | b :: bs, corner :: up :: above, left =>
    let d := min (min (up + 1) (left + 1)) (corner + if a = b then 0 else 1)
    d :: row a bs (up :: above) d
  | _, _, _ => []

def nextRow (bs : List Char) (above : List Nat) (a : Char) : List Nat :=
  let first := above.headD 0 + 1
  first :: row a bs above first

def distance (a b : String) : Nat :=
  (a.toList.foldl (nextRow b.toList) (List.range (b.toList.length + 1))).getLastD 0

def maxDistance : Nat := 2

def usable (available : List Feature) : List String :=
  InstructionSet.mnemonics.filter fun m =>
    (InstructionSet.candidates m).any (fun e => Feature.covers available e.features)

structure Nearest where
  best  : Option Nat
  words : List String
  deriving DecidableEq, Repr

def Nearest.offer (word : String) (n : Nearest) (m : String) : Nearest :=
  let d := distance word m
  if maxDistance < d then n
  else match n.best with
    | none   => ⟨some d, [m]⟩
    | some b =>
      if d < b then ⟨some d, [m]⟩
      else if d = b then { n with words := n.words ++ [m] }
      else n

def suggestions (available : List Feature) (word : String) : List String :=
  let n := (usable available).foldl (Nearest.offer word) ⟨none, []⟩
  n.words.mergeSort (fun a b => a ≤ b)

end Asm88000.Spelling
