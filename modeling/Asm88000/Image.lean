import Asm88000.Object

namespace Asm88000

inductive WordFormat
  | hex
  | bin
  deriving DecidableEq, Repr

namespace WordFormat

def ofName (s : String) : WordFormat :=
  if s = "bin" then bin else hex

def numeral : WordFormat → Numeral
  | hex => Numeral.hexWord
  | bin => Numeral.binaryWord

def render (f : WordFormat) (word : Int) : String :=
  f.numeral.render word

end WordFormat

namespace Image

def wordIndex (address : Int) : Int :=
  address / wordSize

-- The number of words up to the last one. It is not positive if all addresses are negative.
def size (records : List Record) : Int :=
  match (records.map Record.address).max? with
  | some a => wordIndex a + 1
  | none   => 0

-- Stores a word in a memory of `size` words. A negative index counts from the end.
def store (size : Int) (memory : List Nat) (r : Record) : Except Breach (List Nat) :=
  let i := wordIndex r.address
  let j := if i < 0 then i + size else i
  if 0 ≤ j ∧ j < memory.length then return memory.set j.toNat r.word
  else throw .missingElement

def words (records : List Record) : Except Breach (List Nat) :=
  records.foldlM (store (size records)) (List.replicate (size records).toNat 0)

def build (allocate : Int → Except Breach Unit) (records : List Record) :
    Except Breach (List Nat) := do
  allocate (size records)
  words records

def render (f : WordFormat) (words : List Nat) : String :=
  String.join (words.map (fun w : Nat => f.render w ++ "\n"))

end Image
end Asm88000
