import FlowTiming.CommandLine.Run

/-!
The program: reads its arguments, its directives and the network file, and writes what a run
leaves.
-/

namespace FlowTiming.CommandLine

def readNetwork (path : String) : IO (Except ReadFault String) := do
  try
    let bytes ← IO.FS.readBinFile path
    return match String.fromUTF8? bytes with
      | some text => .ok text
      | none => .error .notText
  catch
    | .noFileOrDirectory .. => return .error .missing
    | .inappropriateType .. => return .error .isDirectory
    | e => return .error (.other (toString e))

def leave (exit : Exit) : IO UInt32 := do
  IO.print exit.output
  IO.eprint exit.errors
  return UInt32.ofNat exit.code

def runProgram (args : List String) : IO UInt32 := do
  match Options.ofArguments args with
  | .error r => leave (refuse r)
  | .ok o =>
    let directives ← IO.getEnv "DATAFLOW_DYNAMICS_LOG"
    leave (execute o directives (← readNetwork o.network))

end FlowTiming.CommandLine

def main (args : List String) : IO UInt32 := FlowTiming.CommandLine.runProgram args
