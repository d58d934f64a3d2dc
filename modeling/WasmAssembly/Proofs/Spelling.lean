import Mathlib.Data.List.Nodup
import WasmAssembly.Proofs.Grammar
import WasmAssembly.Proofs.Lists
import WasmAssembly.Proofs.Numeral

/-!
# One text for each operation

The text of an operation is a word, and after a space perhaps an argument. The word
has no space in it, so the first space of the text ends it, whatever a label holds.
The words of all forms of operations are different, also where they are put together
from a type and a name; and an argument that follows a word is a number or a label by
that word alone. So no two operations have the same text, those included that no body
can hold.
-/

set_option autoImplicit false

namespace WasmAssembly.Operation

/-- An operation without the integer or the label that comes with it. -/
inductive Form where
  | localVar (access : Access)
  | const (type : ValueType)
  | numeric (operator : Arithmetic) (type : ValueType)
  | convert (conversion : Conversion)
  | ret
  deriving DecidableEq, Repr

def form : Operation → Form
  | .localVar access _ => .localVar access
  | .const _ type => .const type
  | .numeric operator type => .numeric operator type
  | .convert conversion => .convert conversion
  | .ret _ => .ret

def argument? : Operation → Option String
  | .localVar _ index => some (Numeral.write index.toInt)
  | .const value _ => some (Numeral.write value.toInt)
  | .numeric _ _ | .convert _ => none
  | .ret label => label

theorem eq_of_form_argument? {op op' : Operation} (hform : op.form = op'.form)
    (hargument : op.argument? = op'.argument?) : op = op' := by
  cases op with
  | localVar access index =>
    cases op' with
    | localVar access' index' =>
      cases hform
      rw [Numeral.write_toInt_injective (Option.some.inj hargument)]
    | _ => cases hform
  | const value type =>
    cases op' with
    | const value' type' =>
      cases hform
      rw [Numeral.write_toInt_injective (Option.some.inj hargument)]
    | _ => cases hform
  | numeric operator type =>
    cases op' with
    | numeric operator' type' =>
      cases hform
      rfl
    | _ => cases hform
  | convert conversion =>
    cases op' with
    | convert conversion' =>
      cases hform
      rfl
    | _ => cases hform
  | ret label =>
    cases op' with
    | ret label' => exact congrArg ret hargument
    | _ => cases hform

namespace Form

def word : Form → String
  | .localVar access => "local." ++ access.text
  | .const type => type.text ++ ".const"
  | .numeric operator type => type.text ++ "." ++ operator.text
  | .convert conversion => conversion.mnemonic.text
  | .ret => "return"

def all : List Form :=
  let types := [ValueType.i32, .i64, .f32, .f64]
  let operators := [Arithmetic.add, .sub, .mul, .div, .max]
  let conversions := [Conversion.f32ToI32, .i32ToI64, .f64ToI64, .i32ToF32, .i64ToF64]
  [Access.get, .set].map localVar ++ types.map const ++
    operators.flatMap (fun operator => types.map (numeric operator)) ++
    conversions.map convert ++ [ret]

theorem mem_all (f : Form) : f ∈ all := by
  cases f with
  | localVar access => cases access <;> decide
  | const type => cases type <;> decide
  | numeric operator type => cases operator <;> cases type <;> decide
  | convert conversion => cases conversion <;> decide
  | ret => decide

theorem word_injective {f g : Form} (h : f.word = g.word) : f = g := by
  have hwords : (all.map word).Nodup := by decide +kernel
  exact List.inj_on_of_nodup_map hwords (mem_all f) (mem_all g) h

theorem ne_space_of_mem_word (f : Form) : ∀ c ∈ f.word.toList, (c != ' ') = true := by
  have hwords : ∀ f ∈ all, f.word.toList.all (· != ' ') = true := by decide +kernel
  exact List.all_eq_true.mp (hwords f (mem_all f))

end Form

def behindWord : Option String → List Char
  | none => []
  | some argument => ' ' :: argument.toList

theorem head?_behindWord (argument : Option String) :
    ∀ c ∈ (behindWord argument).head?, (c != ' ') = false := by
  cases argument <;> simp [behindWord]

theorem behindWord_injective {a b : Option String} (h : behindWord a = behindWord b) : a = b := by
  cases a with
  | none =>
    cases b with
    | none => rfl
    | some b => cases h
  | some a =>
    cases b with
    | none => cases h
    | some b => rw [String.toList_inj.mp (List.cons.inj h).2]

theorem toList_text (op : Operation) :
    op.text.toList = op.form.word.toList ++ behindWord op.argument? := by
  cases op with
  | localVar access index => simp [text, form, Form.word, argument?, behindWord]
  | const value type => simp [text, form, Form.word, argument?, behindWord]
  | numeric operator type => simp [text, form, Form.word, argument?, behindWord]
  | convert conversion => simp [text, form, Form.word, argument?, behindWord]
  | ret label => cases label <;> simp [text, form, Form.word, argument?, behindWord]

theorem text_injective {op op' : Operation} (h : op.text = op'.text) : op = op' := by
  have hchars : op.form.word.toList ++ behindWord op.argument? =
      op'.form.word.toList ++ behindWord op'.argument? := by
    rw [← toList_text, ← toList_text, h]
  -- the first space, if there is one, ends the word on both sides
  obtain ⟨hword, hbehind⟩ := class_append_inj op.form.ne_space_of_mem_word
    op'.form.ne_space_of_mem_word (head?_behindWord _) (head?_behindWord _) hchars
  have hform : op.form = op'.form := Form.word_injective (String.toList_inj.mp hword)
  exact eq_of_form_argument? hform (behindWord_injective hbehind)

end WasmAssembly.Operation

namespace WasmAssembly

/-- Operations with the same text are the same, whatever their kind, integer, type or label. So
the text of an instruction tells its operation, and tells nothing else. -/
theorem text_identifies_operation (op op' : Operation) (i i' : Instruction) :
    (op.text = op'.text ↔ op = op') ∧ (i.text = i'.text ↔ i.op = i'.op) := by
  have hiff (a b : Operation) : a.text = b.text ↔ a = b :=
    ⟨Operation.text_injective, congrArg Operation.text⟩
  exact ⟨hiff op op', hiff i.op i'.op⟩

example : (Operation.ret none).text = "return" ∧ (Operation.ret (some "")).text = "return " := by
  decide

end WasmAssembly
