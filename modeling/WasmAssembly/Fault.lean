import WasmAssembly.Numeral

/-!
# Faults of a function body

What can be wrong with a body, said without the line it comes from, and the
diagnostic that adds the line.
-/

set_option autoImplicit false

namespace WasmAssembly

structure BuildFault where
  message : String
  deriving DecidableEq, Repr

inductive Fault where
  | unknownToken (token : String)
  | missingToken (after : String)
  | invalidInteger (token : String) (cause : NumeralFault)
  | build (cause : BuildFault)
  deriving DecidableEq, Repr

namespace Fault

def message : Fault → String
  | .unknownToken token => "unknown WASM token: " ++ token
  | .missingToken after => "missing token in wasm text format after token: " ++ after
  | .invalidInteger token cause =>
    "invalid integer operand `" ++ token ++ "`: " ++ cause.message
  | .build cause => cause.message

def cause? : Fault → Option NumeralFault
  | .invalidInteger _ cause => some cause
  | _ => none

end Fault

structure Diagnostic where
  line : Nat
  fault : Fault
  deriving DecidableEq, Repr

def Diagnostic.message (d : Diagnostic) : String :=
  "line " ++ d.line.repr ++ ": " ++ d.fault.message

end WasmAssembly
