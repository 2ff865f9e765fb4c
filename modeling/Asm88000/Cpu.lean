
namespace Asm88000

structure Feature where
  name : String
  deriving DecidableEq, Repr

namespace Feature

def mc88100 : Feature := ⟨"mc88100"⟩
def mc88110 : Feature := ⟨"mc88110"⟩

def known : List Feature :=
  [mc88100, mc88110]

def covers (available needed : List Feature) : Bool :=
  needed.all (fun f => available.contains f)

def lacking (available needed : List Feature) : List Feature :=
  needed.filter (fun f => !available.contains f)

end Feature

inductive Cpu
  | mc88000
  | mc88100
  | mc88110
  deriving DecidableEq, Repr

namespace Cpu

def all : List Cpu :=
  [mc88000, mc88100, mc88110]

def default : Cpu := mc88100

def name : Cpu → String
  | mc88000 => "mc88000"
  | mc88100 => "mc88100"
  | mc88110 => "mc88110"

def ofName? (s : String) : Option Cpu :=
  all.find? (fun c => c.name == s)

def features : Cpu → List Feature
  | mc88000 => []
  | mc88100 => [.mc88100]
  | mc88110 => [.mc88110]

end Cpu
end Asm88000
