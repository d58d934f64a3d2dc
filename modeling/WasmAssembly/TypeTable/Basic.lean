import WasmAssembly.Log

/-!
# The table of struct types

A struct type is interned once under its name and known from then on by its
position in the table. The positions are found by name through an index that
is kept beside the types. Placing a type gives it an index in the type section;
a later placement replaces an earlier one.
-/

set_option autoImplicit false

namespace WasmAssembly

structure StructType where
  name : String
  code : Option UInt32
  deriving DecidableEq, Repr

namespace StructType

def text (s : StructType) : String := "$" ++ s.name

/-- The index in the type section, zero for a type that has none yet. -/
def index (s : StructType) : UInt32 := s.code.getD 0

end StructType

/-- The types in the order in which they were interned, and the position that
was given out for each name. -/
structure TypeTable where
  types : List StructType
  positions : List (String × Nat)
  deriving DecidableEq, Repr

inductive TypeEvent where
  | interned (name : String)
  | moved (name : String) (old new : UInt32)
  | placed (name : String) (code : UInt32)
  deriving DecidableEq, Repr

namespace TypeEvent

def level : TypeEvent → Log.Level
  | .moved .. => .warn
  | _ => .debug

def message : TypeEvent → String
  | .interned name => "interned struct type $" ++ name
  | .moved name old new =>
    "struct type $" ++ name ++ " moved from index " ++ old.toNat.repr ++ " to " ++ new.toNat.repr
  | .placed name code => "struct type $" ++ name ++ " placed at index " ++ code.toNat.repr

def record (e : TypeEvent) : Log.Record := ⟨.typeTable, e.level, e.message⟩

end TypeEvent

namespace TypeTable

def empty : TypeTable := ⟨[], []⟩

def size (t : TypeTable) : Nat := t.types.length

def isEmpty (t : TypeTable) : Bool := t.types.isEmpty

def refs (t : TypeTable) : List Nat := List.range t.size

def get? (t : TypeTable) (ref : Nat) : Option StructType := t.types[ref]?

def find? (t : TypeTable) (name : String) : Option Nat := t.positions.lookup name

def intern (t : TypeTable) (name : String) : Nat × Option TypeEvent × TypeTable :=
  match t.find? name with
  | some ref => (ref, none, t)
  | none =>
    (t.size, some (.interned name),
      ⟨t.types ++ [⟨name, none⟩], (name, t.size) :: t.positions⟩)

def placement (s : StructType) (code : UInt32) : TypeEvent :=
  match s.code with
  | none => .placed s.name code
  | some old => if old = code then .placed s.name code else .moved s.name old code

def place (t : TypeTable) (ref : Nat) (code : UInt32) : Option (TypeEvent × TypeTable) :=
  (t.get? ref).map fun s =>
    (placement s code, { t with types := t.types.set ref { s with code := some code } })

end TypeTable

end WasmAssembly
