import Asm88000.Command

namespace Asm88000.Main

open Command

def usageLines : List String := [
  "usage: asm88000 -i INPUT -o OUTPUT [options]",
  "",
  "  -h, --help                   show this text",
  "  -i, --input INPUT            assembly file to read",
  "  -o, --output OUTPUT          word file to write",
  "  -c, --cpu CPU                mc88000, mc88100 or mc88110 (default: mc88100)",
  "  -m, --memory_offset OFFSETS  section starts (default: code=0x0,data=0x1000)",
  "  -w, --word_format FORMAT     words of the word file: hex or bin (default: hex)",
  "  -r, --readable               also write a listing",
  "  -f, --param_format FORMAT    words of the listing: hex or dec (default: hex)",
  "  -v, --verbose                tell more",
  "  -d, --debug                  tell everything",
  "  -l, --log                    also write the log to a file"]

def readInput (path : String) : IO Input := do
  try
    return .bytes (← IO.FS.readBinFile path)
  catch
    | .noFileOrDirectory .. => return .missing
    | _                     => return .unreadable

def realPath (path : String) : IO String := do
  try
    return (← IO.FS.realPath path).toString
  catch _ => return Path.reduce path

def surroundings (options : Options) : IO Host := do
  let input ← readInput options.input
  let inputPath ← realPath options.input
  let logPath ← realPath options.logPath
  return {
    read     := fun _ => input
    canWrite := fun _ => true
    same     := fun written path =>
      written = options.logPath && path = options.input && logPath = inputPath
    allocate := fun n => if n < USize.size then .ok () else .error .outOfMemory
    shows    := fun _ => true }

def showLog (log : List LogEntry) : IO Unit :=
  log.forM fun entry => IO.println ("    " ++ entry.level.name ++ " " ++ entry.message)

def writeOutput (log : List LogEntry) (file : OutputFile) : IO Unit :=
  let logText := String.join (log.map (fun entry =>
    "[" ++ entry.level.name ++ "] " ++ entry.message ++ "\n"))
  IO.FS.writeFile file.path (file.text.getD logText)

end Asm88000.Main

open Asm88000 Asm88000.Main

def main (args : List String) : IO UInt32 := do
  match Options.parse args with
  | .error usage =>
    usageLines.forM IO.println
    return if usage = .help then 0 else 2
  | .ok options =>
    let outcome := Command.runOptions (← surroundings options) options
    showLog outcome.log
    try
      outcome.files.forM (writeOutput outcome.log)
      return outcome.status.toUInt32
    catch _ => return 2
