import WasmAssembly.Assembler.Basic

/-!
# Sessions

A session keeps one builder over many bodies. Between bodies the builder may
also be reset, or be given an instruction directly.
-/

set_option autoImplicit false

namespace WasmAssembly

inductive Action where
  | assemble (text : String) (line : Nat)
  | reset
  | add (i : Instruction)
  deriving DecidableEq, Repr

inductive Outcome where
  | done
  | faulty (diagnostic : Diagnostic)
  | refused (cause : BuildFault)
  deriving DecidableEq, Repr

def Outcome.ofResult {ε : Type} (failure : ε → Outcome) : Except ε Unit → Outcome
  | .ok _ => .done
  | .error e => failure e

namespace Builder

variable {σ : Type}

def act (b : Builder σ) (action : Action) : Assembly σ → Outcome × Assembly σ
  | ⟨state, trace⟩ =>
    match action with
    | .assemble text line =>
      let (result, a) := b.assemble text line state
      (.ofResult .faulty result, ⟨a.state, trace ++ a.trace⟩)
    | .reset => (.done, ⟨b.reset state, trace⟩)
    | .add i =>
      let (result, state) := b.add i state
      (.ofResult .refused result, ⟨state, trace⟩)

def session (b : Builder σ) : Assembly σ → List Action → List (Outcome × Assembly σ)
  | _, [] => []
  | a, action :: actions =>
    let (outcome, a) := b.act action a
    (outcome, a) :: b.session a actions

end Builder

end WasmAssembly
