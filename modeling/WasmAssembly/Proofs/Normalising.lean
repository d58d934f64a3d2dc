import WasmAssembly.Command.Report
import WasmAssembly.Proofs.Printing

/-!
# Printing as normalising

The listing of a body, printed line by line, is the body again: the same
mnemonics at the same places, with every numeral in its canonical form. So a
printed listing is assembled to the listing it was printed from, and printing
it a second time changes nothing.
-/

set_option autoImplicit false

namespace WasmAssembly

namespace Phrase

def normal : Phrase → Phrase
  | .plain m op means => .plain m op means
  | .applied m op _ value means _ =>
    .applied m op (Numeral.write value.toInt) value means (Numeral.readInt32_write value)

theorem op_normal (p : Phrase) : p.normal.op = p.op := by cases p <;> rfl

theorem length_tokens_normal (p : Phrase) : p.normal.tokens.length = p.tokens.length := by
  cases p <;> rfl

theorem tokenize_op_text (p : Phrase) : tokenize p.op.text = p.normal.tokens := by
  cases p with
  | plain m op hm =>
    rw [Phrase.op, m.text_of_plain hm, m.tokenize_text]
    rfl
  | applied m op numeral value hm hr =>
    rw [Phrase.op, m.text_of_applied hm, tokenize_append_write, m.tokenize_text]
    rfl

theorem tokens_normal_getElem? (p : Phrase) {k : Nat} {token : String}
    (h : p.tokens[k]? = some token) :
    (k = 0 ∧ (∃ m : Mnemonic, m.text = token) ∧ p.normal.tokens[k]? = some token) ∨
      (k = 1 ∧ ∃ value, Numeral.readInt32 token = .ok value ∧
        p.normal.tokens[k]? = some (Numeral.write value.toInt)) := by
  cases p with
  | plain m op hm =>
    match k, h with
    | 0, h => exact .inl ⟨rfl, ⟨m, Option.some.inj h⟩, h⟩
  | applied m op numeral value hm hr =>
    match k, h with
    | 0, h => exact .inl ⟨rfl, ⟨m, Option.some.inj h⟩, h⟩
    | 1, h =>
      obtain rfl : numeral = token := Option.some.inj h
      exact .inr ⟨rfl, value, hr, rfl⟩

end Phrase

namespace Body

def normal (body : Body) : Body := body.map Phrase.normal

theorem tokens_normal_cons (p : Phrase) (body : Body) :
    tokens (normal (p :: body)) = p.normal.tokens ++ tokens (normal body) := rfl

theorem length_tokens_normal (body : Body) :
    (tokens (normal body)).length = (tokens body).length := by
  induction body with
  | nil => rfl
  | cons p body ih =>
    rw [tokens_normal_cons, tokens_cons, List.length_append, List.length_append,
      p.length_tokens_normal, ih]

theorem instructions_normal (line start : Nat) (body : Body) :
    instructions line start (normal body) = instructions line start body := by
  induction body generalizing start with
  | nil => rfl
  | cons p body ih =>
    have hcons : normal (p :: body) = p.normal :: normal body := rfl
    rw [hcons, instructions, instructions, p.op_normal, p.length_tokens_normal, ih]

theorem start_le_codePos {line start : Nat} {body : Body} {i : Instruction}
    (hi : i ∈ instructions line start body) : start ≤ i.codePos := by
  induction body generalizing start with
  | nil => cases hi
  | cons p body ih =>
    rcases List.mem_cons.mp hi with rfl | hi
    · exact Nat.le_refl _
    · exact Nat.le_trans (Nat.le_add_right _ _) (ih hi)

theorem tokens_normal_getElem? (line start : Nat) {body : Body} {k : Nat} {token : String}
    (h : (tokens body)[k]? = some token) :
    ((∃ i ∈ instructions line start body, i.codePos = start + k) →
        (∃ m : Mnemonic, m.text = token) ∧ (tokens (normal body))[k]? = some token) ∧
      ((∀ i ∈ instructions line start body, i.codePos ≠ start + k) →
        ∃ value, Numeral.readInt32 token = .ok value ∧
          (tokens (normal body))[k]? = some (Numeral.write value.toInt)) := by
  induction body generalizing start k with
  | nil => simp at h
  | cons p body ih =>
    have hpos := p.tokens_length_pos
    have hlen := p.length_tokens_normal
    rw [tokens_cons] at h
    rw [tokens_normal_cons, instructions]
    by_cases hk : k < p.tokens.length
    · -- within the first phrase
      rw [List.getElem?_append_left hk] at h
      rw [List.getElem?_append_left (by omega)]
      rcases p.tokens_normal_getElem? h with ⟨rfl, hm, hn⟩ | ⟨rfl, value, hr, hn⟩
      · refine ⟨fun _ => ⟨hm, hn⟩, fun hnone => ?_⟩
        exact absurd rfl (hnone ⟨p.op, start, line⟩ (by simp))
      · refine ⟨?_, fun _ => ⟨value, hr, hn⟩⟩
        rintro ⟨i, hi, hat⟩
        rcases List.mem_cons.mp hi with rfl | hi
        · simp at hat
        · have := start_le_codePos hi
          omega
    · -- behind it, where the indices count from the next phrase
      rw [List.getElem?_append_right (by omega)] at h
      rw [List.getElem?_append_right (by omega), hlen]
      obtain ⟨hkept, hnew⟩ := ih (start + p.tokens.length) h
      have hindex : start + p.tokens.length + (k - p.tokens.length) = start + k := by omega
      rw [hindex] at hkept hnew
      refine ⟨?_, fun hnone => hnew fun i hi => hnone i (List.mem_cons_of_mem _ hi)⟩
      rintro ⟨i, hi, hat⟩
      rcases List.mem_cons.mp hi with rfl | hi
      · simp only at hat
        omega
      · exact hkept ⟨i, hi, hat⟩

end Body

theorem Command.listing_cons (i : Instruction) (is : List Instruction) :
    listing (i :: is) = i.text ++ "\n" ++ listing is := by
  simp [listing, lines, String.join_cons]

theorem tokenize_listing (line start : Nat) (body : Body) :
    tokenize (Command.listing (body.instructions line start)) = body.normal.tokens := by
  induction body generalizing start with
  | nil => rfl
  | cons p body ih =>
    rw [Body.instructions, Command.listing_cons,
      tokenize_append_gap (by decide) isGap_newline, ih, Body.tokens_normal_cons,
      ← p.tokenize_op_text]
    rfl

/-- Printing what was assembled from a text only normalises the text. The tokens
are as many as before. Those where an instruction begins are mnemonics and stay;
every other one denotes an integer and becomes its canonical form. Hence the printed
listing is assembled to the same instructions at the same places, and is printed
as before. -/
theorem printed_listing_normalises (text : String) (line : Nat) (old : Listing)
    (h : (Builder.listing.assemble text line old).1 = .ok ()) :
    let listed := (Builder.listing.assemble text line old).2.state
    let printed := Command.listing listed.toList
    (tokenize printed).length = (tokenize text).length ∧
      (∀ (k : Nat) (token : String), (tokenize text)[k]? = some token →
        ((∃ i ∈ listed, i.codePos = k) →
          (∃ m : Mnemonic, m.text = token) ∧ (tokenize printed)[k]? = some token) ∧
        ((∀ i ∈ listed, i.codePos ≠ k) → ∃ value, Numeral.readInt32 token = .ok value ∧
          (tokenize printed)[k]? = some (Numeral.write value.toInt) ∧
          Numeral.Canonical (Numeral.write value.toInt))) ∧
      ∀ old' : Listing,
        (Builder.listing.assemble printed line old').1 = .ok () ∧
        (Builder.listing.assemble printed line old').2.state = listed ∧
        Command.listing (Builder.listing.assemble printed line old').2.state.toList = printed := by
  intro listed printed
  obtain ⟨body, hbody⟩ := exists_body_of_ok h
  have hlisted : listed = (body.instructions line 0).toArray :=
    (listing_assemble_body hbody line old).2
  have hprinted : tokenize printed = body.normal.tokens := by
    simp only [printed, hlisted]
    exact tokenize_listing line 0 body
  refine ⟨?_, ?_, ?_⟩
  · rw [hprinted, Body.length_tokens_normal, hbody]
  · intro k token hk
    rw [← hbody] at hk
    obtain ⟨hkept, hnew⟩ := Body.tokens_normal_getElem? line 0 hk
    simp only [hprinted, hlisted, List.mem_toArray]
    rw [Nat.zero_add] at hkept hnew
    refine ⟨hkept, fun hnone => ?_⟩
    obtain ⟨value, hr, hn⟩ := hnew hnone
    exact ⟨value, hr, hn, Numeral.canonical_write _⟩
  · intro old'
    obtain ⟨hok, hstate⟩ := listing_assemble_body hprinted.symm line old'
    have hsame : (Builder.listing.assemble printed line old').2.state = listed := by
      rw [hstate, hlisted, Body.instructions_normal]
    exact ⟨hok, hsame, by rw [hsame]⟩

theorem printed_listing_normalises_signs :
    let text := "i32.const +007\tlocal.set -0 return"
    let listed := (Builder.listing.assemble text 3 #[]).2.state
    (Builder.listing.assemble text 3 #[]).1 = .ok () ∧
      Command.listing listed.toList = "i32.const 7\nlocal.set 0\nreturn\n" ∧
      (∃ value, Numeral.readInt32 "-0" = .ok value ∧
        (tokenize (Command.listing listed.toList))[3]? = some (Numeral.write value.toInt) ∧
        Numeral.Canonical (Numeral.write value.toInt)) ∧
      (Builder.listing.assemble (Command.listing listed.toList) 3 #[]).2.state = listed := by
  intro text listed
  have h : (Builder.listing.assemble text 3 #[]).1 = .ok () := by decide +kernel
  have hplaces : ∀ i ∈ listed, i.codePos ≠ 3 := by decide +kernel
  obtain ⟨-, htokens, hagain⟩ := printed_listing_normalises text 3 #[] h
  exact ⟨h, by decide +kernel, (htokens 3 "-0" (by decide +kernel)).2 hplaces, (hagain #[]).2.1⟩

end WasmAssembly
