import WasmAssembly.Command.Report

/-!
# The command line

Reads the input file that the arguments name, runs the command on it and
prints what the run gives.
-/

set_option autoImplicit false

namespace WasmAssembly.Command

/-- The system's error number, which some calls report with its sign turned. -/
def errorNumber (code : UInt32) : Nat :=
  if code.toNat < 2147483648 then code.toNat else (-code).toNat

def ReadFault.ofError (error : IO.Error) : ReadFault :=
  match error with
  | .noFileOrDirectory .. => .notFound
  | .inappropriateType _ code _ => if errorNumber code = 21 then .isDirectory else .notDirectory
  | .invalidArgument _ code _ =>
    if errorNumber code = 36 then .nameTooLong else .failed error.toString
  | _ => .failed error.toString

def readFile (path : String) : IO (Except ReadFault ByteArray) := do
  try
    return .ok (← IO.FS.readBinFile path)
  catch error =>
    return .error (.ofError error)

def input? (args : List String) : Option String :=
  match parse args with
  | .ok o => some o.input
  | .error _ => none

end WasmAssembly.Command

open WasmAssembly.Command in
def main (args : List String) : IO UInt32 := do
  let file ←
    match input? args with
    | some path => readFile path
    | none => pure (.error .notFound)
  match run args fun _ => file with
  | .ok output =>
    (← IO.getStdout).putStr output.stdout
    (← IO.getStderr).putStr output.stderr
    return UInt32.ofNat output.exit
  | .error fault =>
    (← IO.getStderr).putStrLn fault.message
    return 1
