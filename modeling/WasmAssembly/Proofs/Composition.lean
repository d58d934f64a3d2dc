import WasmAssembly.Proofs.Grammar
import WasmAssembly.Proofs.Lexeme

/-!
# Bodies in two parts

A delimiter cuts a text in two, and what the parts give on their own decides
what the whole gives. After a body the second part is read as if it stood
alone, only further on. After an obstacle it is not read at all, except where
the first part ends in a mnemonic that waits for its operand: then the operand
is the first token of the second part, and reading goes on behind it.
-/

set_option autoImplicit false

namespace WasmAssembly

def Instruction.shift (n : Nat) (i : Instruction) : Instruction :=
  { i with codePos := i.codePos + n }

def Listing.shift (n : Nat) (listing : Listing) : Listing := listing.map (Instruction.shift n)

namespace Body

theorem tokens_append (x y : Body) : tokens (x ++ y) = x.tokens ++ y.tokens :=
  List.flatMap_append

theorem instructions_append (line start : Nat) (x y : Body) :
    instructions line start (x ++ y) =
      instructions line start x ++ instructions line (start + x.tokens.length) y := by
  induction x generalizing start with
  | nil => rfl
  | cons p x ih => simp [instructions, ih, Nat.add_assoc]

theorem instructions_shift (line start n : Nat) (body : Body) :
    instructions line (start + n) body =
      (instructions line start body).map (Instruction.shift n) := by
  induction body generalizing start with
  | nil => rfl
  | cons p body ih =>
    rw [instructions, instructions, List.map_cons, ← ih, Nat.add_right_comm]
    rfl

end Body

theorem Obstacle.append {rest : List String} {fault : Fault} (h : Obstacle rest fault)
    (hm : ∀ after, fault ≠ .missingToken after) (more : List String) :
    Obstacle (rest ++ more) fault := by
  apply h.of_take_eq
  apply List.take_append_of_le_length
  rcases h with ⟨token, after, rfl, -, rfl⟩ | ⟨m, -, -, rfl⟩ |
    ⟨m, token, after, cause, rfl, -, -, rfl⟩
  · simp [Fault.reach]
  · exact absurd rfl (hm m.text)
  · simp [Fault.reach]

theorem Obstacle.dangling {rest : List String} {after : String}
    (h : Obstacle rest (.missingToken after)) :
    ∃ (m : Mnemonic) (op : Int32 → Operation),
      rest = [m.text] ∧ m.text = after ∧ m.meaning = .applied op := by
  rcases h with ⟨_, _, _, _, hf⟩ | ⟨m, hrest, hm, hf⟩ | ⟨_, _, _, _, _, _, _, hf⟩
  · cases hf
  · cases hf
    obtain ⟨op, hop⟩ := m.exists_applied hm
    exact ⟨m, op, hrest, rfl, hop⟩
  · cases hf

theorem Builder.listing_read (line : Nat) (body : Body) {rest : List String}
    {ending : Except Fault Unit} (he : Ending rest ending) (position : Nat) (previous : String)
    (a : Assembly Listing) :
    (listing.read line ⟨position, previous, body.tokens ++ rest⟩ a).1 = ending ∧
      (listing.read line ⟨position, previous, body.tokens ++ rest⟩ a).2.state =
        a.state ++ body.instructions line position := by
  obtain ⟨hok, hstate⟩ := handOver_listing (body.instructions line position) a
  rw [listing.read_body line body he position previous a]
  constructor
  · simp only [Prod.map_fst, hok, settle]
  · exact hstate

theorem Builder.assemble_of_tokens_eq {σ : Type} (b : Builder σ) {text other : String}
    (h : tokenize text = tokenize other) (line : Nat) (state : σ) :
    b.assemble text line state = b.assemble other line state := by
  simp only [assemble, h]

section

variable {a b text : String} {body : Body} (htext : tokenize text = tokenize a ++ tokenize b)
  (line : Nat) (old oldLeft oldRight : Listing)

include htext

theorem listing_assemble_after_body (ha : body.tokens = tokenize a) :
    (Builder.listing.assemble text line old).1 =
        (Builder.listing.assemble b line oldRight).1 ∧
      (Builder.listing.assemble text line old).2.state =
        (Builder.listing.assemble a line oldLeft).2.state ++
          Listing.shift (tokenize a).length (Builder.listing.assemble b line oldRight).2.state := by
  obtain ⟨other, rest, ending, hb, he⟩ := exists_reading (tokenize b)
  have hwhole : Body.tokens (body ++ other) ++ rest = tokenize text := by
    rw [Body.tokens_append, List.append_assoc, hb, ha, htext]
  obtain ⟨hr, hs⟩ := listing_assemble hwhole he line old
  obtain ⟨hrb, hsb⟩ := listing_assemble hb he line oldRight
  rw [hr, hs, hrb, hsb, (listing_assemble_body ha line oldLeft).2]
  refine ⟨rfl, ?_⟩
  rw [Body.instructions_append, Body.instructions_shift, ha, Listing.shift]
  simp

theorem listing_assemble_after_obstacle {rest : List String} {fault : Fault}
    (ha : body.tokens ++ rest = tokenize a) (ho : Obstacle rest fault)
    (hm : ∀ after, fault ≠ .missingToken after) :
    (Builder.listing.assemble text line old).1 =
        (Builder.listing.assemble a line oldLeft).1 ∧
      (Builder.listing.assemble text line old).2.state =
        (Builder.listing.assemble a line oldLeft).2.state := by
  have hwhole : body.tokens ++ (rest ++ tokenize b) = tokenize text := by
    rw [← List.append_assoc, ha, htext]
  obtain ⟨hr, hs⟩ := listing_assemble hwhole (.stuck (ho.append hm _)) line old
  obtain ⟨hra, hsa⟩ := listing_assemble ha (.stuck ho) line oldLeft
  rw [hr, hs, hra, hsa]
  exact ⟨rfl, rfl⟩

variable {m : Mnemonic} {op : Int32 → Operation} (hop : m.meaning = .applied op)
  (ha : body.tokens ++ [m.text] = tokenize a) {token : String} {rest : List String}
  (hb : tokenize b = token :: rest)

include hop ha hb

theorem listing_assemble_bad_operand {cause : NumeralFault}
    (hr : Numeral.readInt32 token = .error cause) :
    (Builder.listing.assemble text line old).1 =
        .error ⟨line, .invalidInteger token cause⟩ ∧
      (Builder.listing.assemble text line old).2.state = (body.instructions line 0).toArray := by
  have hwhole : body.tokens ++ m.text :: token :: rest = tokenize text := by
    rw [htext, ← ha, hb]
    simp
  have ho : Obstacle (m.text :: token :: rest) (.invalidInteger token cause) :=
    .inr (.inr ⟨m, token, rest, cause, rfl, Mnemonic.takesOperand_of_applied hop, hr, rfl⟩)
  exact listing_assemble hwhole (.stuck ho) line old

theorem listing_assemble_operand {value : Int32} (hr : Numeral.readInt32 token = .ok value)
    (other : Assembly Listing) (hother : other.state = #[]) :
    (Builder.listing.assemble text line old).1 =
        (Builder.listing.read line ⟨1, token, rest⟩ other).1.mapError (⟨line, ·⟩) ∧
      (Builder.listing.assemble text line old).2.state =
        (body.instructions line 0).toArray.push ⟨op value, (tokenize a).length - 1, line⟩ ++
          Listing.shift (tokenize a).length
            (Builder.listing.read line ⟨1, token, rest⟩ other).2.state := by
  obtain ⟨tail, rest', ending, hrest, he⟩ := exists_reading rest
  have hwhole : Body.tokens (body ++ .applied m op token value hop hr :: tail) ++ rest' =
      tokenize text := by
    rw [htext, ← ha, hb, ← hrest]
    simp [Body.tokens_append, Phrase.tokens]
  have hlength : (tokenize a).length = body.tokens.length + 1 := by simp [← ha]
  obtain ⟨hres, hs⟩ := listing_assemble hwhole he line old
  obtain ⟨hres', hs'⟩ := Builder.listing_read line tail he 1 token other
  rw [hrest] at hres' hs'
  rw [hres, hs, hres', hs', hother, hlength, Body.instructions_append, Body.instructions]
  refine ⟨rfl, ?_⟩
  have hstart : 0 + body.tokens.length + (Phrase.applied m op token value hop hr).tokens.length =
      1 + (body.tokens.length + 1) := by
    simp only [Phrase.tokens, List.length_cons, List.length_nil]
    omega
  rw [hstart, Body.instructions_shift, Listing.shift]
  simp [Phrase.op]

end

/-- Two texts with a delimiter between them. If the first is a body, the second
adds what it gives on its own, shifted by the tokens of the first. A wrong word
or operand in the first ends the whole as it ends the first. If the first ends in
a mnemonic without its operand, then the second begins with the operand, good or
bad, and is read on from its second token; if it has no token at all, it changes
nothing. -/
theorem listing_assemble_joined (a b : String) (d : Char) (hd : d ∈ delimiters) (line : Nat)
    (old oldLeft oldRight : Listing) :
    let n := (tokenize a).length
    let left := Builder.listing.assemble a line oldLeft
    let right := Builder.listing.assemble b line oldRight
    let whole := Builder.listing.assemble (a ++ String.singleton d ++ b) line old
    (left.1 = .ok () →
        whole.1 = right.1 ∧ whole.2.state = left.2.state ++ Listing.shift n right.2.state) ∧
      (∀ diagnostic : Diagnostic, left.1 = .error diagnostic →
        ((∃ token, diagnostic.fault = .unknownToken token) ∨
          ∃ token cause, diagnostic.fault = .invalidInteger token cause) →
        whole.1 = left.1 ∧ whole.2.state = left.2.state) ∧
      ∀ (diagnostic : Diagnostic) (after : String), left.1 = .error diagnostic →
        diagnostic.fault = .missingToken after →
        ∃ (m : Mnemonic) (op : Int32 → Operation), m.text = after ∧ m.meaning = .applied op ∧
          (tokenize b = [] → whole = left) ∧
          (∀ (token : String) (rest : List String) (cause : NumeralFault),
            tokenize b = token :: rest → Numeral.readInt32 token = .error cause →
            whole.1 = .error ⟨line, .invalidInteger token cause⟩ ∧
              whole.2.state = left.2.state) ∧
          ∀ (token : String) (rest : List String) (value : Int32),
            tokenize b = token :: rest → Numeral.readInt32 token = .ok value →
            let remainder := Builder.listing.read line (Cursor.ofTokens (tokenize b)).next.2
              ⟨#[], #[]⟩
            whole.1 = remainder.1.mapError (⟨line, ·⟩) ∧
              whole.2.state = left.2.state.push ⟨op value, n - 1, line⟩ ++
                Listing.shift n remainder.2.state := by
  intro n left right whole
  have htext : tokenize (a ++ String.singleton d ++ b) = tokenize a ++ tokenize b := by
    rw [String.append_assoc, tokenize_append_delimiter hd]
  refine ⟨?_, ?_, ?_⟩
  · intro hok
    obtain ⟨body, hbody⟩ := exists_body_of_ok hok
    exact listing_assemble_after_body htext line old oldLeft oldRight hbody
  · intro diagnostic herror hkind
    obtain ⟨-, body, rest, hrest, ho⟩ := exists_obstacle_of_error herror
    apply listing_assemble_after_obstacle htext line old oldLeft hrest ho
    rintro after hf
    rcases hkind with ⟨token, ht⟩ | ⟨token, cause, ht⟩
    · cases hf.symm.trans ht
    · cases hf.symm.trans ht
  · intro diagnostic after herror hfault
    obtain ⟨-, body, rest, hrest, ho⟩ := exists_obstacle_of_error herror
    have hstate : left.2.state = (body.instructions line 0).toArray :=
      (listing_assemble hrest (.stuck ho) line oldLeft).2
    rw [hfault] at ho
    obtain ⟨m, op, rfl, hm, hop⟩ := ho.dangling
    refine ⟨m, op, hm, hop, ?_, ?_, ?_⟩
    · intro hb
      have hsame : tokenize (a ++ String.singleton d ++ b) = tokenize a := by
        rw [htext, hb, List.append_nil]
      exact Builder.listing.assemble_of_tokens_eq hsame line old
    · intro token rest cause hb hr
      rw [hstate]
      exact listing_assemble_bad_operand htext line old hop hrest hb hr
    · intro token rest value hb hr
      rw [hstate, hb]
      exact listing_assemble_operand htext line old hop hrest hb hr ⟨#[], #[]⟩ rfl

theorem listing_assemble_joined_inside_phrase :
    let left := Builder.listing.assemble "f32.sub local.get" 5 #[]
    let whole := Builder.listing.assemble
      ("f32.sub local.get" ++ String.singleton '\n' ++ "+7 return x") 5 #[]
    left.1 = .error ⟨5, .missingToken "local.get"⟩ ∧
      tokenize "+7 return x" = ["+7", "return", "x"] ∧
      whole.1 = .error ⟨5, .unknownToken "x"⟩ ∧
      whole.2.state =
        #[⟨.numeric .sub .f32, 0, 5⟩, ⟨.localVar .get 7, 1, 5⟩, ⟨.ret none, 3, 5⟩] := by
  intro left whole
  have hleft : left.1 = .error ⟨5, .missingToken "local.get"⟩ := by decide +kernel
  have htokens : tokenize "+7 return x" = ["+7", "return", "x"] := by decide +kernel
  obtain ⟨m, op, hm, hop, -, -, hgood⟩ := (listing_assemble_joined "f32.sub local.get"
    "+7 return x" '\n' (by decide) 5 #[] #[] #[]).2.2 _ "local.get" hleft rfl
  obtain rfl : m = .localGet := Mnemonic.text_injective hm
  cases hop
  obtain ⟨hr, hs⟩ := hgood "+7" ["return", "x"] 7 htokens (by decide +kernel)
  refine ⟨hleft, htokens, hr.trans ?_, hs.trans ?_⟩
  · decide +kernel
  · decide +kernel

end WasmAssembly
