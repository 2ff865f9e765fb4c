
namespace Asm88000

-- How an integer is written: the base, the case of the digits above nine, and the least number of
-- characters, a minus sign counted.
structure Numeral where
  base  : Nat
  upper : Bool
  width : Nat

namespace Numeral

def digits (f : Numeral) (n : Nat) : List Char :=
  if f.upper then (Nat.toDigits f.base n).map Char.toUpper else Nat.toDigits f.base n

def sign (v : Int) : List Char :=
  if v < 0 then ['-'] else []

def chars (f : Numeral) (v : Int) : List Char :=
  let ds := f.digits v.natAbs
  sign v ++ List.replicate (f.width - (sign v).length - ds.length) '0' ++ ds

def render (f : Numeral) (v : Int) : String :=
  String.ofList (f.chars v)

def decimal : Numeral where
  base  := 10
  upper := false
  width := 0

def hex : Numeral where
  base  := 16
  upper := true
  width := 0

def hexWord : Numeral where
  base  := 16
  upper := true
  width := 8

def binaryWord : Numeral where
  base  := 2
  upper := false
  width := 32

def lowerHexWord : Numeral where
  base  := 16
  upper := false
  width := 8

def lowerHex (width : Nat) : Numeral where
  base  := 16
  upper := false
  width := width

end Numeral

def decimal (v : Int) : String :=
  Numeral.decimal.render v

def hexText (v : Int) : String :=
  "0x" ++ Numeral.hex.render v

end Asm88000
