import Asm88000.Text.Numeral
import Asm88000.Text.Printable

namespace Asm88000.Text

def singleQuote : Char := Char.ofNat 0x27
def doubleQuote : Char := Char.ofNat 0x22

def quoteFor (cs : List Char) : Char :=
  if cs.contains singleQuote && !cs.contains doubleQuote then doubleQuote else singleQuote

def escaped (quote c : Char) : List Char :=
  if c == quote || c == '\\' then ['\\', c]
  else if c == '\n' then ['\\', 'n']
  else if c == '\r' then ['\\', 'r']
  else if c == '\t' then ['\\', 't']
  else if isPrintable c then [c]
  else if c.toNat < 0x100 then '\\' :: 'x' :: (Numeral.lowerHex 2).chars c.toNat
  else if c.toNat < 0x10000 then '\\' :: 'u' :: (Numeral.lowerHex 4).chars c.toNat
  else '\\' :: 'U' :: (Numeral.lowerHex 8).chars c.toNat

def quoted (s : String) : String :=
  let q := quoteFor s.toList
  String.ofList (q :: s.toList.flatMap (escaped q) ++ [q])

end Asm88000.Text
