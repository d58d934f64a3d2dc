import WasmAssembly.Proofs.Printing

/-!
# The tables of mnemonics

What is known about a mnemonic stands in several tables: how it is spelled, which
token spells it, whether it takes an operand, which operation it stands for, and how
that operation is printed. Decoding looks at only some of them. Here they are held
against each other at any cursor: a mnemonic moves the cursor past an operand exactly
where the table says that it takes one and a token is left, and the operation is
printed as the token, followed by the operand in its canonical form if there is one.
-/

set_option autoImplicit false

namespace WasmAssembly.Mnemonic

variable {m : Mnemonic} {c : Cursor} {token : String} {rest : List String}

theorem operation_without_operand (h : m.takesOperand = false) (c : Cursor) :
    ∃ op, m.operation c = (.ok op, c) ∧ op.text = m.text := by
  cases hm : m.meaning with
  | plain op => exact ⟨op, operation_of_plain hm c, text_of_plain hm⟩
  | applied op => simp [takesOperand_of_applied hm] at h

theorem operation_at_end (h : m.takesOperand = true) (hrest : c.rest = []) :
    m.operation c = (.error (.missingToken c.previous), c) := by
  obtain ⟨position, previous, rest⟩ := c
  obtain rfl : rest = [] := hrest
  obtain ⟨op, hm⟩ := exists_applied h
  rw [operation_of_applied hm, Cursor.intOperand_nil]
  rfl

theorem operation_at_word {cause : NumeralFault} (h : m.takesOperand = true)
    (hrest : c.rest = token :: rest) (hread : Numeral.readInt32 token = .error cause) :
    m.operation c =
      (.error (.invalidInteger token cause), ⟨c.position + 1, token, rest⟩) := by
  obtain ⟨position, previous, _⟩ := c
  obtain rfl := hrest
  obtain ⟨op, hm⟩ := exists_applied h
  rw [operation_of_applied hm, Cursor.intOperand_error _ _ rest hread]
  rfl

theorem operation_at_integer {value : Int32} (h : m.takesOperand = true)
    (hrest : c.rest = token :: rest) (hread : Numeral.readInt32 token = .ok value) :
    ∃ op, m.operation c = (.ok op, ⟨c.position + 1, token, rest⟩) ∧
      op.text = m.text ++ " " ++ Numeral.write value.toInt := by
  obtain ⟨position, previous, _⟩ := c
  obtain rfl := hrest
  obtain ⟨op, hm⟩ := exists_applied h
  refine ⟨op value, ?_, text_of_applied hm value⟩
  rw [operation_of_applied hm, Cursor.intOperand_ok _ _ rest hread]
  rfl

theorem operation_cursor (h : m.takesOperand = true) (hrest : c.rest = token :: rest) :
    (m.operation c).2 = ⟨c.position + 1, token, rest⟩ := by
  cases hread : Numeral.readInt32 token with
  | error cause => rw [operation_at_word h hrest hread]
  | ok value =>
    obtain ⟨op, hop, -⟩ := operation_at_integer h hrest hread
    rw [hop]

/-- At any token and any cursor, whatever its position and the tokens around it, the tables agree
with decoding. A token that is found is spelled as the mnemonic that is found. Without an operand,
decoding succeeds, leaves the cursor where it is and gives an operation that is printed as the
token. With an operand, decoding fails at the end of the tokens and leaves the cursor there too;
before the end it moves the cursor by one token, and succeeds just where that token is an integer,
with an operation that is printed as the token, one space and the integer in its canonical form. A
token that is not found is spelled as no mnemonic. -/
theorem tables_agree_with_decoding (token : String) (c : Cursor) :
    (∀ m : Mnemonic, ofToken? token = some m →
      m.text = token ∧
      (m.takesOperand = false → ∃ op, m.operation c = (.ok op, c) ∧ op.text = token) ∧
      (m.takesOperand = true → c.rest = [] →
        m.operation c = (.error (.missingToken c.previous), c)) ∧
      (m.takesOperand = true → ∀ (operand : String) (rest : List String),
        c.rest = operand :: rest →
          (m.operation c).2 = ⟨c.position + 1, operand, rest⟩ ∧
          (∀ cause, Numeral.readInt32 operand = .error cause →
            (m.operation c).1 = .error (.invalidInteger operand cause)) ∧
          ∀ value, Numeral.readInt32 operand = .ok value →
            ∃ op numeral, (m.operation c).1 = .ok op ∧ op.text = token ++ " " ++ numeral ∧
              numeral = Numeral.write value.toInt ∧ Numeral.Canonical numeral ∧
              Numeral.readInt32 numeral = .ok value)) ∧
      (ofToken? token = none ↔ ∀ m : Mnemonic, m.text ≠ token) := by
  refine ⟨?_, ofToken?_eq_none_iff⟩
  intro m hm
  obtain rfl := ofToken?_eq_some_iff.mp hm
  refine ⟨rfl, fun h => operation_without_operand h c, operation_at_end, ?_⟩
  intro h operand rest hrest
  refine ⟨operation_cursor h hrest, ?_, ?_⟩
  · intro cause hread
    rw [operation_at_word h hrest hread]
  · intro value hread
    obtain ⟨op, hop, htext⟩ := operation_at_integer h hrest hread
    exact ⟨op, _, by rw [hop], htext, rfl, Numeral.canonical_write value.toInt,
      Numeral.readInt32_write value⟩

/-- In the middle of a body: an integer with a sign that its canonical form does not have, then a
word that is no integer, then the end. -/
theorem tables_agree_with_decoding_signed_zero :
    let c : Cursor := ⟨4, "i32.const", ["-00", "x"]⟩
    let c' : Cursor := ⟨5, "-00", ["x"]⟩
    let c'' : Cursor := ⟨6, "x", []⟩
    ofToken? "i32.const" = some .i32Const ∧ i32Const.takesOperand = true ∧
      (i32Const.operation c).2 = c' ∧
      (∃ op, (i32Const.operation c).1 = .ok op ∧ op.text = "i32.const 0") ∧
      (i32Const.operation c').2 = c'' ∧
      (i32Const.operation c').1 = .error (.invalidInteger "x" .invalidDigit) ∧
      i32Const.operation c'' = (.error (.missingToken "x"), c'') ∧
      (∃ op, f64Max.operation c = (.ok op, c) ∧ op.text = "f64.max") ∧
      ∀ m : Mnemonic, m.text ≠ "I32.const" := by
  intro c c' c''
  have hfound : ofToken? "i32.const" = some i32Const := by decide
  have hzero : Numeral.readInt32 "-00" = .ok 0 := by decide +kernel
  have hword : Numeral.readInt32 "x" = .error .invalidDigit := by decide +kernel
  obtain ⟨-, -, -, hinteger⟩ := (tables_agree_with_decoding "i32.const" c).1 _ hfound
  obtain ⟨hmove, -, hok⟩ := hinteger rfl "-00" ["x"] rfl
  obtain ⟨op, _, hop, htext, rfl, -⟩ := hok 0 hzero
  obtain ⟨-, -, -, hnoInteger⟩ := (tables_agree_with_decoding "i32.const" c').1 _ hfound
  obtain ⟨hmove', herror, -⟩ := hnoInteger rfl "x" [] rfl
  obtain ⟨-, -, hend, -⟩ := (tables_agree_with_decoding "i32.const" c'').1 _ hfound
  obtain ⟨-, hplain, -⟩ := (tables_agree_with_decoding "f64.max" c).1 f64Max (by decide)
  exact ⟨hfound, rfl, hmove, ⟨op, hop, htext.trans (by decide +kernel)⟩, hmove',
    herror _ hword, hend rfl rfl, hplain rfl,
    (tables_agree_with_decoding "I32.const" c).2.mp (by decide)⟩

end WasmAssembly.Mnemonic
