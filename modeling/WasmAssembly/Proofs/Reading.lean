import WasmAssembly.Assembler.Basic
import WasmAssembly.Proofs.Phrase

/-!
# Reading a body phrase by phrase

The assembler decodes and hands over one instruction at a time. Here this
interleaving is taken apart: assembling a body is the same as handing over the
instructions of its phrases, up to the first refusal, and then giving the
result that the rest of the tokens decides.
-/

set_option autoImplicit false

namespace WasmAssembly

theorem Mnemonic.operation_of_plain {m : Mnemonic} {op : Operation} (h : m.meaning = .plain op)
    (c : Cursor) : m.operation c = (.ok op, c) := by
  cases m <;> cases h <;> rfl

theorem Mnemonic.operation_of_applied {m : Mnemonic} {op : Int32 → Operation}
    (h : m.meaning = .applied op) (c : Cursor) :
    m.operation c = c.intOperand.map (Except.map op) id := by
  cases m <;> cases h <;> rfl

theorem Mnemonic.exists_applied {m : Mnemonic} (h : m.takesOperand = true) :
    ∃ op, m.meaning = .applied op := by
  cases hm : m.meaning with
  | plain op => simp [takesOperand_of_plain hm] at h
  | applied op => exact ⟨op, rfl⟩

namespace Cursor

variable (position line : Nat) (previous : String)

theorem intOperand_nil :
    (⟨position, previous, []⟩ : Cursor).intOperand =
      (.error (.missingToken previous), ⟨position, previous, []⟩) := rfl

theorem intOperand_ok {numeral : String} {value : Int32} (rest : List String)
    (h : Numeral.readInt32 numeral = .ok value) :
    (⟨position, previous, numeral :: rest⟩ : Cursor).intOperand =
      (.ok value, ⟨position + 1, numeral, rest⟩) := by
  simp [intOperand, operand, next, h]

theorem intOperand_error {token : String} {cause : NumeralFault} (rest : List String)
    (h : Numeral.readInt32 token = .error cause) :
    (⟨position, previous, token :: rest⟩ : Cursor).intOperand =
      (.error (.invalidInteger token cause), ⟨position + 1, token, rest⟩) := by
  simp [intOperand, operand, next, h]

theorem instruction_nil : (⟨position, previous, []⟩ : Cursor).instruction line = none := rfl

theorem instruction_unknown {token : String} (rest : List String)
    (h : ∀ m : Mnemonic, m.text ≠ token) :
    (⟨position, previous, token :: rest⟩ : Cursor).instruction line =
      some (.error (.unknownToken token), ⟨position + 1, token, rest⟩) := by
  simp [instruction, next, Mnemonic.ofToken?_eq_none_iff.mpr h]

theorem instruction_mnemonic (m : Mnemonic) (rest : List String) :
    (⟨position, previous, m.text :: rest⟩ : Cursor).instruction line =
      some ((m.operation ⟨position + 1, m.text, rest⟩).map
        (Except.map (⟨·, position, line⟩)) id) := by
  simp [instruction, next, Mnemonic.ofToken?_eq_some_iff.mpr rfl]

theorem instruction_phrase (p : Phrase) (rest : List String) :
    ∃ last, (⟨position, previous, p.tokens ++ rest⟩ : Cursor).instruction line =
      some (.ok ⟨p.op, position, line⟩, ⟨position + p.tokens.length, last, rest⟩) := by
  cases p with
  | plain m op hm =>
    refine ⟨m.text, ?_⟩
    simp only [Phrase.tokens, List.cons_append, List.nil_append]
    rw [instruction_mnemonic, Mnemonic.operation_of_plain hm]
    rfl
  | applied m op numeral value hm hr =>
    refine ⟨numeral, ?_⟩
    simp only [Phrase.tokens, List.cons_append, List.nil_append]
    rw [instruction_mnemonic, Mnemonic.operation_of_applied hm, intOperand_ok _ _ rest hr]
    rfl

/-- At an obstacle the cursor yields the obstacle's fault. A missing operand
is reported after the token just passed, which is the mnemonic. -/
theorem instruction_obstacle {rest : List String} {fault : Fault} (h : Obstacle rest fault) :
    ∃ after, (⟨position, previous, rest⟩ : Cursor).instruction line =
      some (.error fault, after) := by
  rcases h with ⟨token, after, rfl, hu, rfl⟩ | ⟨m, rfl, hm, rfl⟩ |
    ⟨m, token, after, cause, rfl, hm, hr, rfl⟩
  · exact ⟨_, instruction_unknown position line previous after hu⟩
  · obtain ⟨op, hop⟩ := m.exists_applied hm
    rw [instruction_mnemonic, Mnemonic.operation_of_applied hop, intOperand_nil]
    exact ⟨_, rfl⟩
  · obtain ⟨op, hop⟩ := m.exists_applied hm
    rw [instruction_mnemonic, Mnemonic.operation_of_applied hop, intOperand_error _ _ after hr]
    exact ⟨_, rfl⟩

end Cursor

namespace Builder

variable {σ : Type} (b : Builder σ) (line : Nat)

theorem read_of_none {c : Cursor} (h : c.instruction line = none) (a : Assembly σ) :
    b.read line c a = (.ok (), a) := by
  rw [read]
  split <;> simp_all

theorem read_of_error {c after : Cursor} {fault : Fault}
    (h : c.instruction line = some (.error fault, after)) (a : Assembly σ) :
    b.read line c a = (.error fault, a) := by
  rw [read]
  split <;> simp_all

theorem read_of_ok {c after : Cursor} {i : Instruction}
    (h : c.instruction line = some (.ok i, after)) (a : Assembly σ) :
    b.read line c a = match b.emit i a with
      | (.error cause, a) => (.error (.build cause), a)
      | (.ok _, a) => b.read line after a := by
  rw [read]
  split
  · simp_all
  · simp_all
  · rename_i j c' hj
    cases h.symm.trans hj
    rcases b.emit i a with ⟨_ | _, a'⟩ <;> rfl

def handOver : List Instruction → Assembly σ → Except BuildFault Unit × Assembly σ
  | [], a => (.ok (), a)
  | i :: is, a =>
    match b.emit i a with
    | (.error cause, a) => (.error cause, a)
    | (.ok _, a) => handOver is a

/-- A refusal comes before the end of the text and hides what is there. -/
def settle (ending : Except Fault Unit) : Except BuildFault Unit → Except Fault Unit
  | .error cause => .error (.build cause)
  | .ok _ => ending

theorem read_body (body : Body) {rest : List String} {ending : Except Fault Unit}
    (he : Ending rest ending) (position : Nat) (previous : String) (a : Assembly σ) :
    b.read line ⟨position, previous, body.tokens ++ rest⟩ a =
      (b.handOver (body.instructions line position) a).map (settle ending) id := by
  induction body generalizing position previous a with
  | nil =>
    cases he with
    | done => exact b.read_of_none line (Cursor.instruction_nil position line previous) a
    | stuck h =>
      obtain ⟨after, hi⟩ := Cursor.instruction_obstacle position line previous h
      exact b.read_of_error line hi a
  | cons p body ih =>
    obtain ⟨last, hi⟩ :=
      Cursor.instruction_phrase position line previous p (Body.tokens body ++ rest)
    rw [Body.tokens_cons, List.append_assoc, b.read_of_ok line hi, Body.instructions, handOver]
    rcases b.emit ⟨p.op, position, line⟩ a with ⟨_ | _, a'⟩
    · rfl
    · exact ih _ _ a'

/-- Assembling hands over the instructions of the phrases and nothing else. -/
theorem assemble_eq_handOver {text : String} {body : Body} {rest : List String}
    {ending : Except Fault Unit} (ht : body.tokens ++ rest = tokenize text)
    (he : Ending rest ending) (state : σ) :
    b.assemble text line state =
      (b.handOver (body.instructions line 0)
        ⟨b.reset state, #[.start (tokenize text).length line]⟩).map
          (fun result => (settle ending result).mapError (⟨line, ·⟩)) id := by
  have hr := b.read_body line body he 0 ""
    ⟨b.reset state, #[.start (tokenize text).length line]⟩
  rw [ht] at hr
  simp only [assemble, Cursor.ofTokens, hr]
  rfl

end Builder

end WasmAssembly
