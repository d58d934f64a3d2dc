import WasmAssembly.Builder.Basic

/-!
# A builder that refuses on demand

A probe records the calls it receives since its last reset. It refuses the
call with a chosen number, or every call of a chosen kind, after recording it.
-/

set_option autoImplicit false

namespace WasmAssembly

structure Probe where
  failAt : Option Nat
  failOn : Option Operation.Kind
  message : String
  seen : Nat := 0
  resets : Nat := 0
  calls : Array Instruction := #[]
  deriving DecidableEq, Repr

namespace Probe

def configure (p : Probe) (failAt : Option Nat) (failOn : Option Operation.Kind)
    (message : String) : Probe :=
  { p with failAt := failAt, failOn := failOn, message := message }

def reset (p : Probe) : Probe :=
  { p with seen := 0, resets := p.resets + 1, calls := #[] }

def record (i : Instruction) (p : Probe) : Probe :=
  { p with seen := p.seen + 1, calls := p.calls.push i }

def refuses (p : Probe) (i : Instruction) : Bool :=
  p.failAt == some p.seen || p.failOn == some i.op.kind

def add (i : Instruction) (p : Probe) : Except BuildFault Unit × Probe :=
  let p := p.record i
  (if p.refuses i then .error ⟨p.message⟩ else .ok (), p)

end Probe

def Builder.probe : Builder Probe := .ofAdd Probe.reset Probe.add

end WasmAssembly
