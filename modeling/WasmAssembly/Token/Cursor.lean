import WasmAssembly.Fault

/-!
# A cursor over tokens

A cursor stands before the tokens still to come. It knows how many tokens it
has passed and the last of them. Each way of reading returns the cursor that
it leaves.
-/

set_option autoImplicit false

namespace WasmAssembly

structure Cursor where
  position : Nat
  previous : String
  rest : List String
  deriving DecidableEq, Repr

namespace Cursor

def ofTokens (tokens : List String) : Cursor := ⟨0, "", tokens⟩

def length (c : Cursor) : Nat := c.position + c.rest.length

def isEmpty (c : Cursor) : Bool := c.position == 0 && c.rest.isEmpty

def peek (c : Cursor) : Option String := c.rest.head?

def next (c : Cursor) : Option (Nat × String) × Cursor :=
  match c.rest with
  | [] => (none, c)
  | token :: rest => (some (c.position, token), ⟨c.position + 1, token, rest⟩)

def operand (c : Cursor) : Except Fault String × Cursor :=
  match c.next with
  | (none, c) => (.error (.missingToken c.previous), c)
  | (some (_, token), c) => (.ok token, c)

/-- Takes an integer operand. A token that is no integer is consumed too. -/
def intOperand (c : Cursor) : Except Fault Int32 × Cursor :=
  match c.operand with
  | (.error fault, c) => (.error fault, c)
  | (.ok token, c) =>
    match Numeral.readInt32 token with
    | .error cause => (.error (.invalidInteger token cause), c)
    | .ok value => (.ok value, c)

inductive Request where
  | next
  | peek
  | operand
  | intOperand
  | length
  deriving DecidableEq, Repr

inductive Reply where
  | next (found : Option (Nat × String))
  | peek (found : Option String)
  | operand (token : String)
  | intOperand (value : Int32)
  | faulty (fault : Fault)
  | length (count : Nat) (empty : Bool)
  deriving DecidableEq, Repr

def step (c : Cursor) : Request → Reply × Cursor
  | .next => (.next c.next.1, c.next.2)
  | .peek => (.peek c.peek, c)
  | .operand =>
    match c.operand with
    | (.ok token, c) => (.operand token, c)
    | (.error fault, c) => (.faulty fault, c)
  | .intOperand =>
    match c.intOperand with
    | (.ok value, c) => (.intOperand value, c)
    | (.error fault, c) => (.faulty fault, c)
  | .length => (.length c.length c.isEmpty, c)

def run : Cursor → List Request → List (Reply × Nat)
  | _, [] => []
  | c, request :: requests =>
    let (reply, c) := c.step request
    (reply, c.position) :: run c requests

end Cursor

end WasmAssembly
