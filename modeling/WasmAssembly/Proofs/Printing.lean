import WasmAssembly.Proofs.Grammar
import WasmAssembly.Proofs.Lexeme
import WasmAssembly.Proofs.Numeral

/-!
# Reading back what is printed

Not every operation can be written in the text format. Those that can are read
back from their own text, one after another and whatever delimiters stand
between them, and no text makes the assembler list any other operation.
-/

set_option autoImplicit false

namespace WasmAssembly

namespace Operation

/-- The operations that some phrase stands for. -/
def Readable : Operation → Prop
  | .localVar _ _ => True
  | .const _ type => type = .i32
  | .numeric operator type =>
    (operator = .add ∧ type = .i32) ∨ (operator ≠ .add ∧ (type = .f32 ∨ type = .f64))
  | .convert _ => True
  | .ret label => label = none

def takesInteger : Operation → Bool
  | .localVar _ _ | .const _ _ => true
  | _ => false

end Operation

namespace Phrase

theorem op_readable (p : Phrase) : p.op.Readable := by
  cases p with
  | plain m op hm => cases m <;> cases hm <;> simp [Phrase.op, Operation.Readable]
  | applied m op numeral value hm hr =>
    cases m <;> cases hm <;> simp [Phrase.op, Operation.Readable]

theorem length_tokens (p : Phrase) :
    p.tokens.length = 1 + if p.op.takesInteger then 1 else 0 := by
  cases p with
  | plain m op hm => cases m <;> cases hm <;> rfl
  | applied m op numeral value hm hr => cases m <;> cases hm <;> rfl

end Phrase

theorem Body.length_tokens (body : Body) :
    body.tokens.length = body.length + (body.map Phrase.op).countP Operation.takesInteger := by
  induction body with
  | nil => rfl
  | cons p body ih =>
    simp only [tokens_cons, List.length_append, List.length_cons, List.map_cons, List.countP_cons,
      p.length_tokens, ih]
    omega

theorem Body.instructions_eq_mapIdx (line : Nat) (body : Body) :
    body.instructions line 0 = (body.map Phrase.op).mapIdx fun k op =>
      ⟨op, k + ((body.map Phrase.op).take k).countP Operation.takesInteger, line⟩ := by
  apply List.ext_getElem?
  intro k
  rw [instructions_getElem?, List.getElem?_mapIdx, List.getElem?_map]
  cases hk : body[k]? with
  | none => rfl
  | some p =>
    have hlt : k < body.length := (List.getElem?_eq_some_iff.mp hk).1
    have hlen := Body.length_tokens (body.take k)
    rw [List.length_take, Nat.min_eq_left (Nat.le_of_lt hlt), List.map_take] at hlen
    simp [hlen]

structure Gap where
  text : String
  nonempty : text ≠ ""
  blank : IsGap text

def written : List (Operation × Gap) → String
  | [] => ""
  | (op, gap) :: items => op.text ++ gap.text ++ written items

theorem tokenize_write (i : Int) : tokenize (Numeral.write i) = [Numeral.write i] := by
  refine tokenize_of_isWord ⟨Numeral.write_ne_empty i, fun c hc => ?_⟩
  rcases Numeral.mem_write hc with rfl | hd
  · decide
  · exact notMem_delimiters_of_isDigit hd

theorem tokenize_append_write (name : String) (i : Int) :
    tokenize (name ++ " " ++ Numeral.write i) = tokenize name ++ [Numeral.write i] := by
  rw [tokenize_append_gap (by decide) isGap_space, tokenize_write]

theorem Mnemonic.tokenize_text (m : Mnemonic) : tokenize m.text = [m.text] := by
  cases m <;> decide

theorem Mnemonic.text_of_plain {m : Mnemonic} {op : Operation} (h : m.meaning = .plain op) :
    op.text = m.text := by
  cases m <;> cases h <;> rfl

theorem Mnemonic.text_of_applied {m : Mnemonic} {op : Int32 → Operation}
    (h : m.meaning = .applied op) (value : Int32) :
    (op value).text = m.text ++ " " ++ Numeral.write value.toInt := by
  cases m <;> cases h <;> rfl

theorem Operation.Readable.exists_mnemonic {op : Operation} (h : op.Readable) :
    ∃ m : Mnemonic, m.meaning = .plain op ∨
      ∃ (f : Int32 → Operation) (value : Int32), m.meaning = .applied f ∧ f value = op := by
  cases op with
  | localVar access index =>
    cases access with
    | get => exact ⟨.localGet, .inr ⟨_, index, rfl, rfl⟩⟩
    | set => exact ⟨.localSet, .inr ⟨_, index, rfl, rfl⟩⟩
  | const value type =>
    obtain rfl := h
    exact ⟨.i32Const, .inr ⟨_, value, rfl, rfl⟩⟩
  | numeric operator type =>
    rcases h with ⟨rfl, rfl⟩ | ⟨ho, rfl | rfl⟩
    · exact ⟨.i32Add, .inl rfl⟩
    · cases operator with
      | add => exact absurd rfl ho
      | sub => exact ⟨.f32Sub, .inl rfl⟩
      | mul => exact ⟨.f32Mul, .inl rfl⟩
      | div => exact ⟨.f32Div, .inl rfl⟩
      | max => exact ⟨.f32Max, .inl rfl⟩
    · cases operator with
      | add => exact absurd rfl ho
      | sub => exact ⟨.f64Sub, .inl rfl⟩
      | mul => exact ⟨.f64Mul, .inl rfl⟩
      | div => exact ⟨.f64Div, .inl rfl⟩
      | max => exact ⟨.f64Max, .inl rfl⟩
  | convert conversion =>
    cases conversion with
    | f32ToI32 => exact ⟨.i32TruncSatF32S, .inl rfl⟩
    | i32ToI64 => exact ⟨.i64ExtendI32S, .inl rfl⟩
    | f64ToI64 => exact ⟨.i64TruncSatF64S, .inl rfl⟩
    | i32ToF32 => exact ⟨.f32ConvertI32S, .inl rfl⟩
    | i64ToF64 => exact ⟨.f64ConvertI64S, .inl rfl⟩
  | ret label =>
    obtain rfl := h
    exact ⟨.ret, .inl rfl⟩

theorem Operation.Readable.exists_phrase {op : Operation} (h : op.Readable) :
    ∃ p : Phrase, p.op = op ∧ p.tokens = tokenize op.text := by
  obtain ⟨m, hm | ⟨f, value, hm, hf⟩⟩ := h.exists_mnemonic
  · refine ⟨.plain m op hm, rfl, ?_⟩
    rw [m.text_of_plain hm, m.tokenize_text]
    rfl
  · refine ⟨.applied m f _ value hm (Numeral.readInt32_write value), hf, ?_⟩
    rw [← hf, m.text_of_applied hm, tokenize_append_write, m.tokenize_text]
    rfl

theorem exists_body_written {items : List (Operation × Gap)}
    (h : ∀ item ∈ items, item.1.Readable) :
    ∃ body : Body, body.map Phrase.op = items.map Prod.fst ∧
      body.tokens = tokenize (written items) := by
  induction items with
  | nil => exact ⟨[], rfl, rfl⟩
  | cons item items ih =>
    obtain ⟨op, gap⟩ := item
    obtain ⟨p, hp, ht⟩ := (h (op, gap) (by simp)).exists_phrase
    obtain ⟨body, hb, hts⟩ := ih fun item hi => h item (by simp [hi])
    refine ⟨p :: body, by simp [hp, hb], ?_⟩
    rw [written, tokenize_append_gap gap.nonempty gap.blank, Body.tokens_cons, ht, hts]

theorem readable_of_mem_listing {text : String} {line : Nat} {old : Listing} {i : Instruction}
    (hi : i ∈ (Builder.listing.assemble text line old).2.state) : i.op.Readable := by
  obtain ⟨body, rest, ending, ht, he⟩ := exists_reading (tokenize text)
  rw [(listing_assemble ht he line old).2, List.mem_toArray] at hi
  obtain ⟨k, hk⟩ := List.mem_iff_getElem?.mp hi
  rw [Body.instructions_getElem?] at hk
  obtain ⟨p, -, rfl⟩ := Option.map_eq_some_iff.mp hk
  exact p.op_readable

/-- Readable operations come back from their own text, in order and at the
right places, whatever delimiters are written after each of them. No other
operation is ever listed, whether the run succeeds or fails. -/
theorem listing_assemble_written :
    (∀ (items : List (Operation × Gap)) (line : Nat) (old : Listing),
      (∀ item ∈ items, item.1.Readable) →
        (Builder.listing.assemble (written items) line old).1 = .ok () ∧
        (Builder.listing.assemble (written items) line old).2.state.toList =
          (items.map Prod.fst).mapIdx fun k op =>
            ⟨op, k + ((items.map Prod.fst).take k).countP Operation.takesInteger, line⟩) ∧
      ∀ (text : String) (line : Nat) (old : Listing),
        ∀ i ∈ (Builder.listing.assemble text line old).2.state, i.op.Readable := by
  refine ⟨?_, fun text line old i hi => readable_of_mem_listing hi⟩
  intro items line old h
  obtain ⟨body, hops, ht⟩ := exists_body_written h
  obtain ⟨hok, hstate⟩ := listing_assemble_body ht line old
  refine ⟨hok, ?_⟩
  rw [hstate, ← hops]
  exact Body.instructions_eq_mapIdx line body

theorem listing_assemble_written_lowest_index :
    (Builder.listing.assemble "local.get -2147483648 \tf64.max\n" 7 #[]).2.state.toList =
      [⟨.localVar .get (-2147483648), 0, 7⟩, ⟨.numeric .max .f64, 2, 7⟩] := by
  have ht : "local.get -2147483648 \tf64.max\n" =
      written [(.localVar .get (-2147483648), ⟨" \t", by decide, by simp [IsGap, delimiters]⟩),
        (.numeric .max .f64, ⟨"\n", by decide, isGap_newline⟩)] := by decide +kernel
  rw [ht, (listing_assemble_written.1 _ 7 #[] (by simp [Operation.Readable])).2]
  rfl

end WasmAssembly
