import WasmAssembly.Assembler.Decode

/-!
# Phrases

A phrase is a mnemonic with the integer that follows it, where it takes one.
A body is a row of phrases. Where the tokens go on after the last phrase, they
meet an obstacle, and the obstacle is the fault. Every token list reads in one
way and no other as a body followed by nothing or by an obstacle.

Nothing here mentions cursors or builders: this is the text format itself.
-/

set_option autoImplicit false

namespace WasmAssembly

inductive Meaning where
  | plain (op : Operation)
  | applied (op : Int32 → Operation)

namespace Mnemonic

def meaning : Mnemonic → Meaning
  | .localGet => .applied (.localVar .get)
  | .localSet => .applied (.localVar .set)
  | .i32Const => .applied (.const · .i32)
  | .i32Add => .plain (.numeric .add .i32)
  | .i32TruncSatF32S => .plain (.convert .f32ToI32)
  | .i64ExtendI32S => .plain (.convert .i32ToI64)
  | .i64TruncSatF64S => .plain (.convert .f64ToI64)
  | .f32ConvertI32S => .plain (.convert .i32ToF32)
  | .f64ConvertI64S => .plain (.convert .i64ToF64)
  | .f32Div => .plain (.numeric .div .f32)
  | .f32Max => .plain (.numeric .max .f32)
  | .f32Mul => .plain (.numeric .mul .f32)
  | .f32Sub => .plain (.numeric .sub .f32)
  | .f64Div => .plain (.numeric .div .f64)
  | .f64Max => .plain (.numeric .max .f64)
  | .f64Mul => .plain (.numeric .mul .f64)
  | .f64Sub => .plain (.numeric .sub .f64)
  | .ret => .plain (.ret none)

theorem takesOperand_of_applied {m : Mnemonic} {op : Int32 → Operation}
    (h : m.meaning = .applied op) : m.takesOperand = true := by
  cases m <;> cases h <;> rfl

theorem takesOperand_of_plain {m : Mnemonic} {op : Operation}
    (h : m.meaning = .plain op) : m.takesOperand = false := by
  cases m <;> cases h <;> rfl

end Mnemonic

/-- One mnemonic alone, or one mnemonic and a numeral. -/
inductive Phrase where
  | plain (m : Mnemonic) (op : Operation) (means : m.meaning = .plain op)
  | applied (m : Mnemonic) (op : Int32 → Operation) (numeral : String) (value : Int32)
      (means : m.meaning = .applied op) (reads : Numeral.readInt32 numeral = .ok value)

namespace Phrase

def mnemonic : Phrase → Mnemonic
  | .plain m _ _ => m
  | .applied m _ _ _ _ _ => m

def tokens : Phrase → List String
  | .plain m _ _ => [m.text]
  | .applied m _ numeral _ _ _ => [m.text, numeral]

def op : Phrase → Operation
  | .plain _ op _ => op
  | .applied _ op _ value _ _ => op value

end Phrase

abbrev Body := List Phrase

namespace Body

def tokens (body : Body) : List String := body.flatMap Phrase.tokens

/-- The instructions of a body whose first token has the index `start`: one for
each phrase, at the index of the phrase's first token. -/
def instructions (line : Nat) : (start : Nat) → Body → List Instruction
  | _, [] => []
  | start, p :: body => ⟨p.op, start, line⟩ :: instructions line (start + p.tokens.length) body

end Body

def UnknownWord (rest : List String) (fault : Fault) : Prop :=
  ∃ (token : String) (after : List String), rest = token :: after ∧
    (∀ m : Mnemonic, m.text ≠ token) ∧ fault = .unknownToken token

def DanglingMnemonic (rest : List String) (fault : Fault) : Prop :=
  ∃ m : Mnemonic, rest = [m.text] ∧ m.takesOperand = true ∧ fault = .missingToken m.text

def BadOperand (rest : List String) (fault : Fault) : Prop :=
  ∃ (m : Mnemonic) (token : String) (after : List String) (cause : NumeralFault),
    rest = m.text :: token :: after ∧ m.takesOperand = true ∧
      Numeral.readInt32 token = .error cause ∧ fault = .invalidInteger token cause

/-- Why no phrase begins where these tokens begin. -/
def Obstacle (rest : List String) (fault : Fault) : Prop :=
  UnknownWord rest fault ∨ DanglingMnemonic rest fault ∨ BadOperand rest fault

inductive Ending : List String → Except Fault Unit → Prop where
  | done : Ending [] (.ok ())
  | stuck {rest : List String} {fault : Fault} (h : Obstacle rest fault) :
      Ending rest (.error fault)

theorem Mnemonic.ofToken?_eq_none_iff {token : String} :
    ofToken? token = none ↔ ∀ m : Mnemonic, m.text ≠ token := by
  rw [Option.eq_none_iff_forall_ne_some]
  exact forall_congr' fun m => not_congr ofToken?_eq_some_iff

theorem exists_phrase_or_obstacle (token : String) (after : List String) :
    (∃ (p : Phrase) (rest : List String), token :: after = p.tokens ++ rest) ∨
      ∃ fault, Obstacle (token :: after) fault := by
  cases hm : Mnemonic.ofToken? token with
  | none =>
    have hu := Mnemonic.ofToken?_eq_none_iff.mp hm
    exact .inr ⟨_, .inl ⟨token, after, rfl, hu, rfl⟩⟩
  | some m =>
    obtain rfl := Mnemonic.ofToken?_eq_some_iff.mp hm
    cases hp : m.meaning with
    | plain op => exact .inl ⟨.plain m op hp, after, rfl⟩
    | applied op =>
      have ht := Mnemonic.takesOperand_of_applied hp
      cases after with
      | nil => exact .inr ⟨_, .inr (.inl ⟨m, rfl, ht, rfl⟩)⟩
      | cons numeral rest =>
        cases hr : Numeral.readInt32 numeral with
        | error cause =>
          exact .inr ⟨_, .inr (.inr ⟨m, numeral, rest, cause, rfl, ht, hr, rfl⟩)⟩
        | ok value => exact .inl ⟨.applied m op numeral value hp hr, rest, rfl⟩

theorem Phrase.tokens_length_pos (p : Phrase) : 0 < p.tokens.length := by
  cases p <;> simp [tokens]

@[simp] theorem Body.tokens_nil : Body.tokens [] = [] := rfl

@[simp] theorem Body.tokens_cons (p : Phrase) (body : Body) :
    Body.tokens (p :: body) = p.tokens ++ Body.tokens body := rfl

/-- Reading never gets lost: phrases lead to the end or to an obstacle. -/
theorem exists_reading (tokens : List String) :
    ∃ (body : Body) (rest : List String) (result : Except Fault Unit),
      body.tokens ++ rest = tokens ∧ Ending rest result := by
  -- on the number of tokens, since a phrase may take one or two of them
  induction hn : tokens.length using Nat.strongRecOn generalizing tokens with
  | ind n ih =>
    cases tokens with
    | nil => exact ⟨[], [], .ok (), rfl, .done⟩
    | cons token after =>
      rcases exists_phrase_or_obstacle token after with ⟨p, rest, hp⟩ | ⟨fault, hf⟩
      · have hlt : rest.length < n := by
          have := p.tokens_length_pos
          rw [← hn, hp, List.length_append]
          omega
        obtain ⟨body, rest', result, hb, he⟩ := ih _ hlt rest rfl
        exact ⟨p :: body, rest', result, by simp [hp, ← hb], he⟩
      · exact ⟨[], token :: after, .error fault, rfl, .stuck hf⟩

theorem Phrase.head?_tokens_append (p : Phrase) (rest : List String) :
    (p.tokens ++ rest).head? = some p.mnemonic.text := by
  cases p <;> rfl

theorem Phrase.mnemonic_eq {p q : Phrase} {rest rest' : List String}
    (h : p.tokens ++ rest = q.tokens ++ rest') : p.mnemonic = q.mnemonic := by
  have hhead := congrArg List.head? h
  rw [head?_tokens_append, head?_tokens_append] at hhead
  exact Mnemonic.text_injective (Option.some.inj hhead)

theorem Phrase.tokens_append_inj {p q : Phrase} {rest rest' : List String}
    (h : p.tokens ++ rest = q.tokens ++ rest') : p = q ∧ rest = rest' := by
  have hmn := mnemonic_eq h
  cases p with
  | plain m op hm =>
    cases q with
    | plain n op' hn =>
      obtain rfl : m = n := hmn
      cases hm.symm.trans hn
      exact ⟨rfl, (List.cons.inj h).2⟩
    | applied n op' numeral' value' hn hr' =>
      obtain rfl : m = n := hmn
      cases hm.symm.trans hn
  | applied m op numeral value hm hr =>
    cases q with
    | plain n op' hn =>
      obtain rfl : m = n := hmn
      cases hm.symm.trans hn
    | applied n op' numeral' value' hn hr' =>
      obtain rfl : m = n := hmn
      cases hm.symm.trans hn
      obtain ⟨hnum, hrest⟩ := List.cons.inj (List.cons.inj h).2
      subst hnum
      cases hr.symm.trans hr'
      exact ⟨rfl, hrest⟩

theorem Phrase.not_obstacle {p : Phrase} {rest : List String} {fault : Fault} :
    ¬ Obstacle (p.tokens ++ rest) fault := by
  intro h
  cases p with
  | plain m op hm =>
    have hp := Mnemonic.takesOperand_of_plain hm
    rcases h with ⟨token, after, ht, hu, -⟩ | ⟨n, ht, hn, -⟩ |
      ⟨n, token, after, cause, ht, hn, -⟩
    · exact hu m (List.cons.inj ht).1
    · obtain rfl := Mnemonic.text_injective (List.cons.inj ht).1
      simp [hp] at hn
    · obtain rfl := Mnemonic.text_injective (List.cons.inj ht).1
      simp [hp] at hn
  | applied m op numeral value hm hr =>
    rcases h with ⟨token, after, ht, hu, -⟩ | ⟨n, ht, -⟩ |
      ⟨n, token, after, cause, ht, -, hr', -⟩
    · exact hu m (List.cons.inj ht).1
    · cases (List.cons.inj ht).2
    · obtain rfl := (List.cons.inj (List.cons.inj ht).2).1
      cases hr.symm.trans hr'

theorem Phrase.not_ending {p : Phrase} {rest : List String} {result : Except Fault Unit} :
    ¬ Ending (p.tokens ++ rest) result := by
  intro h
  generalize ht : p.tokens ++ rest = tokens at h
  cases h with
  | done =>
    have := p.tokens_length_pos
    simp [(List.append_eq_nil_iff.mp ht).1] at this
  | stuck hf => exact p.not_obstacle (ht ▸ hf)

theorem reading_unique {body body' : Body} {rest rest' : List String}
    {result result' : Except Fault Unit} (h : body.tokens ++ rest = body'.tokens ++ rest')
    (he : Ending rest result) (he' : Ending rest' result') : body = body' ∧ rest = rest' := by
  induction body generalizing body' with
  | nil =>
    cases body' with
    | nil => exact ⟨rfl, h⟩
    | cons q body' =>
      simp only [Body.tokens_nil, Body.tokens_cons, List.nil_append, List.append_assoc] at h
      exact absurd (h ▸ he) q.not_ending
  | cons p body ih =>
    cases body' with
    | nil =>
      simp only [Body.tokens_nil, Body.tokens_cons, List.nil_append, List.append_assoc] at h
      exact absurd (h ▸ he') p.not_ending
    | cons q body' =>
      simp only [Body.tokens_cons, List.append_assoc] at h
      obtain ⟨rfl, hrest⟩ := Phrase.tokens_append_inj h
      obtain ⟨rfl, hr⟩ := ih hrest
      exact ⟨rfl, hr⟩

end WasmAssembly
