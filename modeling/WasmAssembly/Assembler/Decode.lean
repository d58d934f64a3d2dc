import WasmAssembly.Instruction.Operation
import WasmAssembly.Token.Cursor

/-!
# Decoding one instruction

A mnemonic with the operand that follows it, where it takes one, gives an
operation. Decoding an instruction leaves fewer tokens than it found, so a
body is read to its end in finitely many steps.
-/

set_option autoImplicit false

namespace WasmAssembly

def Mnemonic.operation (m : Mnemonic) (c : Cursor) : Except Fault Operation × Cursor :=
  match m with
  | .localGet => c.intOperand.map (Except.map (.localVar .get)) id
  | .localSet => c.intOperand.map (Except.map (.localVar .set)) id
  | .i32Const => c.intOperand.map (Except.map (.const · .i32)) id
  | .i32Add => (.ok (.numeric .add .i32), c)
  | .i32TruncSatF32S => (.ok (.convert .f32ToI32), c)
  | .i64ExtendI32S => (.ok (.convert .i32ToI64), c)
  | .i64TruncSatF64S => (.ok (.convert .f64ToI64), c)
  | .f32ConvertI32S => (.ok (.convert .i32ToF32), c)
  | .f64ConvertI64S => (.ok (.convert .i64ToF64), c)
  | .f32Div => (.ok (.numeric .div .f32), c)
  | .f32Max => (.ok (.numeric .max .f32), c)
  | .f32Mul => (.ok (.numeric .mul .f32), c)
  | .f32Sub => (.ok (.numeric .sub .f32), c)
  | .f64Div => (.ok (.numeric .div .f64), c)
  | .f64Max => (.ok (.numeric .max .f64), c)
  | .f64Mul => (.ok (.numeric .mul .f64), c)
  | .f64Sub => (.ok (.numeric .sub .f64), c)
  | .ret => (.ok (.ret none), c)

def Cursor.instruction (c : Cursor) (line : Nat) : Option (Except Fault Instruction × Cursor) :=
  match c.next with
  | (none, _) => none
  | (some (codePos, token), c) =>
    match Mnemonic.ofToken? token with
    | none => some (.error (.unknownToken token), c)
    | some m => some ((m.operation c).map (Except.map (⟨·, codePos, line⟩)) id)

namespace Cursor

theorem next_rest_le (c : Cursor) : c.next.2.rest.length ≤ c.rest.length := by
  unfold next
  split <;> simp_all

theorem next_rest_lt {c c' : Cursor} {found : Nat × String} (h : c.next = (some found, c')) :
    c'.rest.length < c.rest.length := by
  unfold next at h
  split at h <;> simp_all
  simp [← h.2]

theorem operand_cursor (c : Cursor) : c.operand.2 = c.next.2 := by
  unfold operand
  split <;> simp_all

theorem intOperand_cursor (c : Cursor) : c.intOperand.2 = c.next.2 := by
  rw [← operand_cursor]
  unfold intOperand
  split
  · simp_all
  · split <;> simp_all

end Cursor

theorem Mnemonic.operation_rest_le (m : Mnemonic) (c : Cursor) :
    (m.operation c).2.rest.length ≤ c.rest.length := by
  have h := c.next_rest_le
  rw [← c.intOperand_cursor] at h
  cases m <;> first | exact h | exact Nat.le_refl _

theorem Cursor.instruction_rest_lt {c c' : Cursor} {line : Nat}
    {result : Except Fault Instruction} (h : c.instruction line = some (result, c')) :
    c'.rest.length < c.rest.length := by
  unfold instruction at h
  split at h
  · cases h
  · rename_i codePos token after hn
    have hlt := next_rest_lt hn
    split at h
    · cases h
      exact hlt
    · rename_i m _
      cases h
      exact Nat.lt_of_le_of_lt (m.operation_rest_le after) hlt

end WasmAssembly
