import WasmAssembly.TypeTable.Basic

/-!
# The type section

The types are emitted by ascending index. Every type has to be placed, and no
two at one index: the first type that was never placed, and then the lowest
index held twice, is reported instead.
-/

set_option autoImplicit false

namespace WasmAssembly

inductive OrderFault where
  | unassigned (name : String)
  | duplicateCode (code : UInt32) (first second : String)
  deriving DecidableEq, Repr

def OrderFault.message : OrderFault → String
  | .unassigned name => "type `" ++ name ++ "` was never placed in the type section"
  | .duplicateCode code first second =>
    "types `" ++ first ++ "` and `" ++ second ++ "` are both placed at index " ++ code.toNat.repr

namespace TypeTable

def precedes (s t : StructType) : Bool := s.index ≤ t.index

def clash? : List StructType → Option OrderFault
  | [] => none
  | [_] => none
  | s :: t :: rest =>
    if s.index = t.index then some (.duplicateCode s.index s.name t.name)
    else clash? (t :: rest)

/-- The types in the order of the type section. Types at one index keep the
order in which they were interned. -/
def emissionOrder (t : TypeTable) : Except OrderFault (List StructType) :=
  match t.types.find? fun s => s.code.isNone with
  | some s => .error (.unassigned s.name)
  | none =>
    let sorted := t.types.mergeSort precedes
    match clash? sorted with
    | some fault => .error fault
    | none => .ok sorted

end TypeTable

end WasmAssembly
