import Asm88000.Atom

namespace Asm88000

structure BlockKey where
  function : Atom
  block    : Atom
  deriving DecidableEq, Repr

-- Every local name begins with `mark`. `blocks` has the keys in the order of their first request.
structure SymbolNamer where
  function : Atom
  mark     : String
  blocks   : List BlockKey
  deriving DecidableEq, Repr

namespace SymbolNamer

def new (function : Atom) (mark : String) : SymbolNamer where
  function := function
  mark     := mark
  blocks   := []

def defaultMark : String := ".L"

def block (n : SymbolNamer) (function number : Atom) : String :=
  n.mark ++ "BB" ++ function.toText ++ "_" ++ number.toText

def jumpTable (n : SymbolNamer) (index : Atom) : String :=
  n.mark ++ "JTI" ++ n.function.toText ++ "_" ++ index.toText

def constantPool (n : SymbolNamer) (index : Atom) : String :=
  n.mark ++ "CPI" ++ n.function.toText ++ "_" ++ index.toText

def temporary (n : SymbolNamer) (i : Nat) : String :=
  n.mark ++ "tmp" ++ decimal i

def blockAddress (n : SymbolNamer) (key : BlockKey) : String × SymbolNamer :=
  if key ∈ n.blocks then (n.temporary (n.blocks.idxOf key), n)
  else (n.temporary n.blocks.length, { n with blocks := n.blocks ++ [key] })

end SymbolNamer
end Asm88000
