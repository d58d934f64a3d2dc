import WasmAssembly.Instruction.Mnemonic
import WasmAssembly.Numeral

/-!
# Operations and instructions

An operation is what one instruction does; an instruction also records the
index of its first token in the body and the line that the body comes from.
Every operation has one text form.
-/

set_option autoImplicit false

namespace WasmAssembly

inductive ValueType where
  | i32
  | i64
  | f32
  | f64
  deriving DecidableEq, Repr

def ValueType.text : ValueType → String
  | .i32 => "i32"
  | .i64 => "i64"
  | .f32 => "f32"
  | .f64 => "f64"

inductive Arithmetic where
  | add
  | sub
  | mul
  | div
  | max
  deriving DecidableEq, Repr

def Arithmetic.text : Arithmetic → String
  | .add => "add"
  | .sub => "sub"
  | .mul => "mul"
  | .div => "div"
  | .max => "max"

inductive Access where
  | get
  | set
  deriving DecidableEq, Repr

def Access.text : Access → String
  | .get => "get"
  | .set => "set"

inductive Conversion where
  | f32ToI32
  | i32ToI64
  | f64ToI64
  | i32ToF32
  | i64ToF64
  deriving DecidableEq, Repr

namespace Conversion

def mnemonic : Conversion → Mnemonic
  | .f32ToI32 => .i32TruncSatF32S
  | .i32ToI64 => .i64ExtendI32S
  | .f64ToI64 => .i64TruncSatF64S
  | .i32ToF32 => .f32ConvertI32S
  | .i64ToF64 => .f64ConvertI64S

def source : Conversion → ValueType
  | .f32ToI32 => .f32
  | .i32ToI64 => .i32
  | .f64ToI64 => .f64
  | .i32ToF32 => .i32
  | .i64ToF64 => .i64

def target : Conversion → ValueType
  | .f32ToI32 => .i32
  | .i32ToI64 => .i64
  | .f64ToI64 => .i64
  | .i32ToF32 => .f32
  | .i64ToF64 => .f64

end Conversion

inductive Operation where
  | localVar (access : Access) (index : Int32)
  | const (value : Int32) (type : ValueType)
  | numeric (operator : Arithmetic) (type : ValueType)
  | convert (conversion : Conversion)
  | ret (label : Option String)
  deriving DecidableEq, Repr

namespace Operation

inductive Kind where
  | localVar
  | const
  | numeric
  | convert
  | ret
  deriving DecidableEq, Repr

def kind : Operation → Kind
  | .localVar _ _ => .localVar
  | .const _ _ => .const
  | .numeric _ _ => .numeric
  | .convert _ => .convert
  | .ret _ => .ret

def text : Operation → String
  | .localVar access index => "local." ++ access.text ++ " " ++ Numeral.write index.toInt
  | .const value type => type.text ++ ".const " ++ Numeral.write value.toInt
  | .numeric operator type => type.text ++ "." ++ operator.text
  | .convert conversion => conversion.mnemonic.text
  | .ret none => "return"
  | .ret (some label) => "return " ++ label

end Operation

structure Instruction where
  op : Operation
  codePos : Nat
  line : Nat
  deriving DecidableEq, Repr

def Instruction.text (i : Instruction) : String := i.op.text

end WasmAssembly
