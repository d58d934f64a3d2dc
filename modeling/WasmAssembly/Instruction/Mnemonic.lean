/-!
# Mnemonics

The instruction names of the text format, and which of them are followed by
an integer.
-/

set_option autoImplicit false

namespace WasmAssembly

inductive Mnemonic where
  | localGet
  | localSet
  | i32Const
  | i32Add
  | i32TruncSatF32S
  | i64ExtendI32S
  | i64TruncSatF64S
  | f32ConvertI32S
  | f64ConvertI64S
  | f32Div
  | f32Max
  | f32Mul
  | f32Sub
  | f64Div
  | f64Max
  | f64Mul
  | f64Sub
  | ret
  deriving DecidableEq, Repr

namespace Mnemonic

def all : List Mnemonic :=
  [.localGet, .localSet, .i32Const, .i32Add, .i32TruncSatF32S, .i64ExtendI32S,
    .i64TruncSatF64S, .f32ConvertI32S, .f64ConvertI64S, .f32Div, .f32Max, .f32Mul,
    .f32Sub, .f64Div, .f64Max, .f64Mul, .f64Sub, .ret]

def text : Mnemonic → String
  | .localGet => "local.get"
  | .localSet => "local.set"
  | .i32Const => "i32.const"
  | .i32Add => "i32.add"
  | .i32TruncSatF32S => "i32.trunc_sat_f32_s"
  | .i64ExtendI32S => "i64.extend_i32_s"
  | .i64TruncSatF64S => "i64.trunc_sat_f64_s"
  | .f32ConvertI32S => "f32.convert_i32_s"
  | .f64ConvertI64S => "f64.convert_i64_s"
  | .f32Div => "f32.div"
  | .f32Max => "f32.max"
  | .f32Mul => "f32.mul"
  | .f32Sub => "f32.sub"
  | .f64Div => "f64.div"
  | .f64Max => "f64.max"
  | .f64Mul => "f64.mul"
  | .f64Sub => "f64.sub"
  | .ret => "return"

def takesOperand : Mnemonic → Bool
  | .localGet | .localSet | .i32Const => true
  | _ => false

def ofToken? : String → Option Mnemonic
  | "local.get" => some .localGet
  | "local.set" => some .localSet
  | "i32.const" => some .i32Const
  | "i32.add" => some .i32Add
  | "i32.trunc_sat_f32_s" => some .i32TruncSatF32S
  | "i64.extend_i32_s" => some .i64ExtendI32S
  | "i64.trunc_sat_f64_s" => some .i64TruncSatF64S
  | "f32.convert_i32_s" => some .f32ConvertI32S
  | "f64.convert_i64_s" => some .f64ConvertI64S
  | "f32.div" => some .f32Div
  | "f32.max" => some .f32Max
  | "f32.mul" => some .f32Mul
  | "f32.sub" => some .f32Sub
  | "f64.div" => some .f64Div
  | "f64.max" => some .f64Max
  | "f64.mul" => some .f64Mul
  | "f64.sub" => some .f64Sub
  | "return" => some .ret
  | _ => none

theorem mem_all (m : Mnemonic) : m ∈ all := by
  cases m <;> decide

theorem ofToken?_text (m : Mnemonic) : ofToken? m.text = some m := by
  cases m <;> rfl

theorem text_injective {m n : Mnemonic} (h : m.text = n.text) : m = n := by
  have hm := m.ofToken?_text
  rw [h, n.ofToken?_text] at hm
  exact (Option.some.inj hm).symm

theorem ofToken?_eq_some_iff {token : String} {m : Mnemonic} :
    ofToken? token = some m ↔ m.text = token := by
  constructor
  · intro h
    unfold ofToken? at h
    split at h <;> cases h <;> rfl
  · rintro rfl
    exact m.ofToken?_text

end Mnemonic

end WasmAssembly
