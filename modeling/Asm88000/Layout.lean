import Asm88000.Fault

namespace Asm88000.Layout

def checkOverlap (codeStart codeSize dataStart dataSize : Int) : Except Error Unit :=
  let codeMax := codeStart + codeSize - 1
  let dataMax := dataStart + dataSize - 1
  if codeSize = 0 ∨ dataSize = 0 then return
  else if codeMax < dataStart ∨ dataMax < codeStart then return
  else throw (Fault.sectionOverlap codeStart codeMax dataStart dataMax).unplaced

end Asm88000.Layout
