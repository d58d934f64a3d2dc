/-!
# Log records

A record names the part of the program that speaks, how much it matters and
what it says. A threshold lets through the records that matter at least as
much as it does.
-/

set_option autoImplicit false

namespace WasmAssembly.Log

inductive Level where
  | error
  | warn
  | info
  | debug
  | trace
  deriving DecidableEq, Repr

namespace Level

def name : Level → String
  | .error => "ERROR"
  | .warn => "WARN"
  | .info => "INFO"
  | .debug => "DEBUG"
  | .trace => "TRACE"

def detail : Level → Nat
  | .error => 1
  | .warn => 2
  | .info => 3
  | .debug => 4
  | .trace => 5

end Level

inductive Origin where
  | command
  | assembler
  | typeTable
  deriving DecidableEq, Repr

def Origin.path : Origin → String
  | .command => "watasm"
  | .assembler => "watasm::assembler::parser"
  | .typeTable => "watasm::module::types"

structure Record where
  origin : Origin
  level : Level
  message : String
  deriving DecidableEq, Repr

namespace Record

def text (r : Record) : String :=
  "[" ++ r.origin.path ++ "][" ++ r.level.name ++ "] " ++ r.message

def within (threshold : Level) (r : Record) : Bool := r.level.detail ≤ threshold.detail

end Record

end WasmAssembly.Log
