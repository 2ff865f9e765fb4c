import Asm88000.Atom
import Asm88000.Text.LetterCase

namespace Asm88000

inductive RegClass
  | gpr
  | gpr64
  | xr
  | cr
  | fcr
  deriving DecidableEq, Repr

def RegClass.name : RegClass → String
  | gpr   => "GPR"
  | gpr64 => "GPR64"
  | xr    => "XR"
  | cr    => "CR"
  | fcr   => "FCR"

-- `pair n` is made of the general registers `2 * n` and `2 * n + 1`.
inductive Register
  | gpr  (n : Fin 32)
  | pair (n : Fin 16)
  | xr   (n : Fin 32)
  | cr   (n : Fin 64)
  | fcr  (n : Fin 64)
  deriving DecidableEq, Repr

namespace Register

def id : Register → Nat
  | gpr n  => 1 + n
  | pair n => 33 + n
  | xr n   => 49 + n
  | cr n   => 81 + n
  | fcr n  => 145 + n

def count : Nat := 209

def ofId? (i : Int) : Option Register :=
  if h : 1 ≤ i ∧ i < 33 then some (gpr ⟨(i - 1).toNat, by omega⟩)
  else if h : 33 ≤ i ∧ i < 49 then some (pair ⟨(i - 33).toNat, by omega⟩)
  else if h : 49 ≤ i ∧ i < 81 then some (xr ⟨(i - 49).toNat, by omega⟩)
  else if h : 81 ≤ i ∧ i < 145 then some (cr ⟨(i - 81).toNat, by omega⟩)
  else if h : 145 ≤ i ∧ i < 209 then some (fcr ⟨(i - 145).toNat, by omega⟩)
  else none

theorem ofId?_id (r : Register) : ofId? r.id = some r := by
  cases r with
  | gpr n | pair n | xr n | cr n | fcr n => revert n; decide

def all : List Register :=
  (List.range (count - 1)).filterMap (fun i : Nat => ofId? (i + 1))

def regClass : Register → RegClass
  | gpr _  => .gpr
  | pair _ => .gpr64
  | xr _   => .xr
  | cr _   => .cr
  | fcr _  => .fcr

-- What stands in the register field of an instruction. A pair is named by its even register.
def number : Register → Nat
  | gpr n  => n
  | pair n => 2 * n
  | xr n   => n
  | cr n   => n
  | fcr n  => n

def name : Register → String
  | gpr n  => "r" ++ decimal n
  | pair n => "r" ++ decimal (2 * n) ++ "_r" ++ decimal (2 * n + 1)
  | xr n   => "x" ++ decimal n
  | cr n   => "cr" ++ decimal n
  | fcr n  => "fcr" ++ decimal n

def altName? : Register → Option String
  | gpr 0  => some "zero"
  | gpr 1  => some "rp"
  | gpr 30 => some "fp"
  | gpr 31 => some "sp"
  | cr 0   => some "pid"
  | cr 1   => some "psr"
  | cr 2   => some "epsr"
  | cr 3   => some "ssbr"
  | cr 4   => some "sxip"
  | cr 5   => some "snip"
  | cr 6   => some "sfip"
  | cr 7   => some "vbr"
  | fcr 0  => some "fpecr"
  | fcr 62 => some "fpsr"
  | fcr 63 => some "fpcr"
  | _      => none

-- The even register of a pair holds the high word.
def high? : Register → Option Register
  | pair n => some (gpr ⟨2 * n, by omega⟩)
  | _      => none

def low? : Register → Option Register
  | pair n => some (gpr ⟨2 * n + 1, by omega⟩)
  | _      => none

def sub? (r : Register) (index : Atom) : Option Register :=
  match index with
  | .int 1 => r.high?
  | .int 2 => r.low?
  | _      => none

def hasSpelling : Register → Bool
  | pair _ => false
  | _      => true

-- No register's name has a letter that a letter outside ASCII lowers to, so that lowering the ASCII
-- letters is enough.
def byName? (s : String) : Option Register :=
  all.find? (fun r => r.hasSpelling && r.name == Text.lowerAscii s)

def byAltName? (s : String) : Option Register :=
  all.find? (fun r => r.altName? == some (Text.lowerAscii s))

def named? (s : String) : Option Register :=
  byName? s <|> byAltName? s

def ofAtom? : Atom → Option Register
  | .int i => ofId? i
  | _      => none

end Register
end Asm88000
