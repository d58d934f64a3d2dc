import WasmAssembly.Assembler.Decode
import WasmAssembly.Builder.Basic
import WasmAssembly.Log
import WasmAssembly.Text.Basic
import WasmAssembly.Token.Lexeme

/-!
# Assembling a function body

The assembler reads a body from its first token to its last and hands each
instruction to a builder as soon as it is decoded. The first fault, whether
of the text or of the builder, ends the reading; what was built before it
stays built.
-/

set_option autoImplicit false

namespace WasmAssembly

inductive Trace where
  | start (tokens line : Nat)
  | decoded (codePos : Nat) (op : Operation)
  deriving DecidableEq, Repr

namespace Trace

def message : Trace → String
  | .start tokens line =>
    "parsing " ++ tokens.repr ++ " token(s) from line " ++ line.repr
  | .decoded codePos op => alignRight 4 codePos.repr ++ ": " ++ op.text

def record (t : Trace) : Log.Record := ⟨.assembler, .trace, t.message⟩

end Trace

structure Assembly (σ : Type) where
  state : σ
  trace : Array Trace
  deriving DecidableEq, Repr

namespace Builder

variable {σ : Type}

def emit (b : Builder σ) (i : Instruction) : Assembly σ → Except BuildFault Unit × Assembly σ
  | ⟨state, trace⟩ =>
    let (result, state) := b.add i state
    (result, ⟨state, trace.push (.decoded i.codePos i.op)⟩)

/-- Reads the instructions that remain and hands each of them over. -/
def read (b : Builder σ) (line : Nat) (c : Cursor) (a : Assembly σ) :
    Except Fault Unit × Assembly σ :=
  match _found : c.instruction line with
  | none => (.ok (), a)
  | some (.error fault, _) => (.error fault, a)
  | some (.ok i, c') =>
    match b.emit i a with
    | (.error cause, a) => (.error (.build cause), a)
    | (.ok _, a) => read b line c' a
termination_by c.rest.length
decreasing_by exact Cursor.instruction_rest_lt _found

def assemble (b : Builder σ) (text : String) (line : Nat) (state : σ) :
    Except Diagnostic Unit × Assembly σ :=
  let tokens := tokenize text
  (b.read line (.ofTokens tokens) ⟨b.reset state, #[.start tokens.length line]⟩).map
    (Except.mapError (⟨line, ·⟩)) id

end Builder

def assemble (text : String) (line : Nat) : Except Diagnostic Unit × Assembly Listing :=
  Builder.listing.assemble text line #[]

end WasmAssembly
