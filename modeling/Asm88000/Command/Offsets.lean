import Asm88000.Object
import Asm88000.Text.Blank
import Asm88000.Text.Digit
import Asm88000.Text.LetterCase
import Asm88000.Text.Split
import Asm88000.Token.Lexer

namespace Asm88000

structure SectionStarts where
  code : Int
  data : Int
  deriving DecidableEq, Repr

namespace SectionStarts

open Lexer (Radix isDigitOf digitsValue)

def default : SectionStarts where
  code := Object.defaultCodeStart
  data := Object.defaultDataStart

def plainChar (c : Char) : Char :=
  if c.toNat < 0x7F then c
  else if Text.isBlank c then ' '
  else match Text.digitValue? c with
    | some d => Char.ofNat (0x30 + d)
    | none   => c

def isPlainBlank (c : Char) : Bool :=
  (0x09 ≤ c.toNat && c.toNat ≤ 0x0D) || c = ' '

def trimBlanks (cs : List Char) : List Char :=
  ((cs.dropWhile isPlainBlank).reverse.dropWhile isPlainBlank).reverse

def digitRun (r : Radix) : List Char → Option (List Char)
  | []             => none
  | [c]            => if isDigitOf r c then some [c] else none
  | c :: '_' :: cs => if isDigitOf r c then (digitRun r cs).map (c :: ·) else none
  | c :: cs        => if isDigitOf r c then (digitRun r cs).map (c :: ·) else none

def dropUnderscore : List Char → List Char
  | '_' :: cs => cs
  | cs        => cs

def magnitude? (cs : List Char) : Option Nat :=
  match cs with
  | '0' :: m :: rest =>
    match Radix.mark? m with
    | some r => (digitRun r (dropUnderscore rest)).map (digitsValue r)
    | none   => do
      let v := digitsValue .dec (← digitRun .dec cs)
      if v = 0 then some 0 else none
  | _ => (digitRun .dec cs).map (digitsValue .dec)

def integer? (text : List Char) : Option Int :=
  match trimBlanks (text.map plainChar) with
  | '-' :: cs => (magnitude? cs).map (fun n => -(n : Int))
  | '+' :: cs => (magnitude? cs).map Int.ofNat
  | cs        => (magnitude? cs).map Int.ofNat

def setItem (starts : SectionStarts) (item : List Char) : Except Error SectionStarts :=
  match Text.cutAt? '=' item with
  | none => throw (Fault.offsetFormat (String.ofList item)).unplaced
  | some (key, value) =>
    let key := Text.lower (Text.trim (String.ofList key))
    match integer? value with
    | none   => throw (Fault.offsetValue key (String.ofList value)).unplaced
    | some v =>
      if v % wordSize ≠ 0 then throw (Fault.offsetAlignment key v).unplaced
      else if key = "code" then return { starts with code := v }
      else if key = "data" then return { starts with data := v }
      else throw (Fault.unknownSectionKey key).unplaced

def parse (text : String) : Except Error SectionStarts :=
  (Text.splitOn ',' text.toList).foldlM setItem default

end SectionStarts
end Asm88000
