import WasmAssembly.TypeTable.Order

/-!
# Requests to a type table

What can be asked of a table, the reply to each request, and the event that
it gives rise to. A request about a position that the table does not have
changes nothing.
-/

set_option autoImplicit false

namespace WasmAssembly.TypeTable

inductive Request where
  | intern (name : String)
  | find (name : String)
  | place (ref : Nat) (code : UInt32)
  | codeOf (ref : Nat)
  | typeOf (ref : Nat)
  | refs
  | size
  | isEmpty
  | emissionOrder
  deriving DecidableEq, Repr

inductive Reply where
  | interned (ref : Nat)
  | found (ref : Option Nat)
  | placed
  | code (code : Option UInt32)
  | type (type : StructType)
  | refs (refs : List Nat)
  | size (count : Nat)
  | isEmpty (empty : Bool)
  | order (types : List StructType)
  | unordered (fault : OrderFault)
  | outOfRange (size ref : Nat)
  deriving DecidableEq, Repr

/-- The reply, the event that is logged and the table that is left. -/
def step (t : TypeTable) : Request → Reply × Option TypeEvent × TypeTable
  | .intern name => (t.intern name).map .interned id
  | .find name => (.found (t.find? name), none, t)
  | .place ref code =>
    match t.place ref code with
    | none => (.outOfRange t.size ref, none, t)
    | some (event, next) => (.placed, some event, next)
  | .codeOf ref =>
    match t.get? ref with
    | none => (.outOfRange t.size ref, none, t)
    | some s => (.code s.code, none, t)
  | .typeOf ref =>
    match t.get? ref with
    | none => (.outOfRange t.size ref, none, t)
    | some s => (.type s, none, t)
  | .refs => (.refs t.refs, none, t)
  | .size => (.size t.size, none, t)
  | .isEmpty => (.isEmpty t.isEmpty, none, t)
  | .emissionOrder =>
    match t.emissionOrder with
    | .error fault => (.unordered fault, none, t)
    | .ok types => (.order types, none, t)

def run : TypeTable → List Request → TypeTable
  | t, [] => t
  | t, request :: requests => (t.step request).2.2.run requests

def events : TypeTable → List Request → List TypeEvent
  | _, [] => []
  | t, request :: requests =>
    (t.step request).2.1.toList ++ (t.step request).2.2.events requests

theorem run_append (t : TypeTable) (requests rest : List Request) :
    t.run (requests ++ rest) = (t.run requests).run rest := by
  induction requests generalizing t with
  | nil => rfl
  | cons request requests ih => exact ih _

theorem events_append (t : TypeTable) (requests rest : List Request) :
    t.events (requests ++ rest) = t.events requests ++ (t.run requests).events rest := by
  induction requests generalizing t with
  | nil => rfl
  | cons request requests ih => simp [events, run, ih]

end WasmAssembly.TypeTable
