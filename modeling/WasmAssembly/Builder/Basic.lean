import WasmAssembly.Fault
import WasmAssembly.Instruction.Operation

/-!
# Builders

A builder receives the instructions of a body one after another. It has one
operation for each kind of instruction, works on a state of its own, and may
refuse; the state that a refusal leaves behind is kept.
-/

set_option autoImplicit false

namespace WasmAssembly

structure Builder (σ : Type) where
  reset : σ → σ
  addLocal : Access → Int32 → (codePos line : Nat) → σ → Except BuildFault Unit × σ
  addConst : Int32 → ValueType → (codePos line : Nat) → σ → Except BuildFault Unit × σ
  addNumeric : Arithmetic → ValueType → (codePos line : Nat) → σ → Except BuildFault Unit × σ
  addConvert : Conversion → (codePos line : Nat) → σ → Except BuildFault Unit × σ
  addReturn : Option String → (codePos line : Nat) → σ → Except BuildFault Unit × σ

namespace Builder

variable {σ : Type}

def add (b : Builder σ) (i : Instruction) : σ → Except BuildFault Unit × σ :=
  match i.op with
  | .localVar access index => b.addLocal access index i.codePos i.line
  | .const value type => b.addConst value type i.codePos i.line
  | .numeric operator type => b.addNumeric operator type i.codePos i.line
  | .convert conversion => b.addConvert conversion i.codePos i.line
  | .ret label => b.addReturn label i.codePos i.line

def ofAdd (reset : σ → σ) (add : Instruction → σ → Except BuildFault Unit × σ) : Builder σ where
  reset := reset
  addLocal access index codePos line := add ⟨.localVar access index, codePos, line⟩
  addConst value type codePos line := add ⟨.const value type, codePos, line⟩
  addNumeric operator type codePos line := add ⟨.numeric operator type, codePos, line⟩
  addConvert conversion codePos line := add ⟨.convert conversion, codePos, line⟩
  addReturn label codePos line := add ⟨.ret label, codePos, line⟩

@[simp] theorem add_ofAdd (reset : σ → σ) (f : Instruction → σ → Except BuildFault Unit × σ)
    (i : Instruction) : (ofAdd reset f).add i = f i := by
  obtain ⟨op, codePos, line⟩ := i
  cases op <;> rfl

end Builder

abbrev Listing := Array Instruction

def Builder.listing : Builder Listing :=
  .ofAdd (fun _ => #[]) fun i instructions => (.ok (), instructions.push i)

end WasmAssembly
