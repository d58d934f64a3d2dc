import Mathlib.Tactic.Common
import WasmAssembly.Proofs.Reading

/-!
# The assembler against the text format

On the listing builder nothing is ever refused, so what it holds in the end and
how the run ends are decided by the tokens alone. The assembler accepts exactly
the bodies and lists their instructions; where it fails, it reports the first
obstacle and keeps the instructions of the body before it.
-/

set_option autoImplicit false

namespace WasmAssembly

namespace Body

theorem length_instructions (line start : Nat) (body : Body) :
    (body.instructions line start).length = body.length := by
  induction body generalizing start with
  | nil => rfl
  | cons p body ih => simp [instructions, ih]

theorem instructions_getElem? (line start : Nat) (body : Body) (k : Nat) :
    (body.instructions line start)[k]? =
      body[k]?.map fun p => ⟨p.op, start + (tokens (body.take k)).length, line⟩ := by
  induction body generalizing start k with
  | nil => rfl
  | cons p body ih =>
    cases k with
    | zero => rfl
    | succ k => simp [instructions, ih, Nat.add_assoc]

theorem line_of_mem_instructions {line start : Nat} {body : Body} {i : Instruction}
    (hi : i ∈ body.instructions line start) : i.line = line := by
  obtain ⟨k, hk⟩ := List.mem_iff_getElem?.mp hi
  rw [instructions_getElem?] at hk
  obtain ⟨p, -, rfl⟩ := Option.map_eq_some_iff.mp hk
  rfl

end Body

theorem Builder.reset_listing (old : Listing) : listing.reset old = #[] := rfl

theorem Builder.handOver_listing (is : List Instruction) (a : Assembly Listing) :
    (listing.handOver is a).1 = .ok () ∧ (listing.handOver is a).2.state = a.state ++ is := by
  induction is generalizing a with
  | nil => simp [handOver]
  | cons i is ih =>
    have he : listing.emit i a =
        (.ok (), ⟨a.state.push i, a.trace.push (.decoded i.codePos i.op)⟩) := by
      simp [emit, listing]
    simp [handOver, he, ih]

theorem listing_assemble {text : String} {body : Body} {rest : List String}
    {ending : Except Fault Unit} (ht : body.tokens ++ rest = tokenize text)
    (he : Ending rest ending) (line : Nat) (old : Listing) :
    (Builder.listing.assemble text line old).1 = ending.mapError (⟨line, ·⟩) ∧
      (Builder.listing.assemble text line old).2.state =
        (body.instructions line 0).toArray := by
  obtain ⟨hok, hstate⟩ := Builder.handOver_listing (body.instructions line 0)
    ⟨#[], #[.start (tokenize text).length line]⟩
  rw [Builder.listing.assemble_eq_handOver line ht he, Builder.reset_listing]
  constructor
  · simp only [Prod.map_fst, hok, Builder.settle]
  · simp [hstate]

theorem listing_assemble_body {text : String} {body : Body} (h : body.tokens = tokenize text)
    (line : Nat) (old : Listing) :
    (Builder.listing.assemble text line old).1 = .ok () ∧
      (Builder.listing.assemble text line old).2.state =
        (body.instructions line 0).toArray :=
  listing_assemble (by rw [List.append_nil, h]) .done line old

theorem exists_body_of_ok {text : String} {line : Nat} {old : Listing}
    (h : (Builder.listing.assemble text line old).1 = .ok ()) :
    ∃ body : Body, body.tokens = tokenize text := by
  obtain ⟨body, rest, ending, ht, he⟩ := exists_reading (tokenize text)
  have hr := (listing_assemble ht he line old).1
  cases he with
  | done => exact ⟨body, by rw [← ht, List.append_nil]⟩
  | stuck hf =>
    rw [h] at hr
    cases hr

theorem body_unique {body other : Body} (h : other.tokens = body.tokens) : other = body :=
  (reading_unique (congrArg (· ++ []) h) .done .done).1

/-- The assembler accepts the bodies and nothing else. A body is accepted in
one way, and its listing has one instruction for each phrase, with the meaning
of the phrase, the index of its first token and the line of the body. -/
theorem listing_assemble_ok_iff (text : String) (line : Nat) (old : Listing) :
    ((Builder.listing.assemble text line old).1 = .ok () ↔
        ∃ body : Body, body.tokens = tokenize text) ∧
      ∀ body : Body, body.tokens = tokenize text →
        (∀ other : Body, other.tokens = tokenize text → other = body) ∧
        (Builder.listing.assemble text line old).2.state.size = body.length ∧
        ∀ (k : Nat) (p : Phrase), body[k]? = some p →
          (Builder.listing.assemble text line old).2.state[k]? =
            some ⟨p.op, (Body.tokens (body.take k)).length, line⟩ := by
  refine ⟨⟨exists_body_of_ok, fun ⟨body, h⟩ => (listing_assemble_body h line old).1⟩, ?_⟩
  intro body h
  rw [(listing_assemble_body h line old).2]
  refine ⟨fun other ho => body_unique (ho.trans h.symm), ?_, ?_⟩
  · simp [Body.length_instructions]
  · intro k p hk
    simp [Body.instructions_getElem?, hk]

theorem listing_assemble_ok_signed_operand :
    (Builder.listing.assemble "i32.const +007\ti32.add" 9 #[]).2.state[1]? =
      some ⟨.numeric .add .i32, 2, 9⟩ :=
  ((listing_assemble_ok_iff "i32.const +007\ti32.add" 9 #[]).2
    [.applied .i32Const (.const · .i32) "+007" 7 rfl rfl,
      .plain .i32Add (.numeric .add .i32) rfl] (by decide)).2.2 1 _ rfl

/-- How many tokens of an obstacle its fault depends on, the faulty one being
the last of them; an operand is missed at the second place. -/
def Fault.reach : Fault → Nat
  | .unknownToken _ => 1
  | .missingToken _ => 2
  | .invalidInteger _ _ => 2
  | .build _ => 0

theorem Obstacle.of_take_eq {rest rest' : List String} {fault : Fault}
    (h : Obstacle rest fault) (ht : rest'.take fault.reach = rest.take fault.reach) :
    Obstacle rest' fault := by
  have hsplit : rest' = rest.take fault.reach ++ rest'.drop fault.reach := by
    rw [← ht, List.take_append_drop]
  rcases h with ⟨token, after, rfl, hu, rfl⟩ | ⟨m, rfl, hm, rfl⟩ |
    ⟨m, token, after, cause, rfl, hm, hr, rfl⟩
  · exact .inl ⟨token, _, hsplit, hu, rfl⟩
  · have hlen : min 2 rest'.length = 1 := by simpa [Fault.reach] using congrArg List.length ht
    have hdrop : rest'.drop 2 = [] := List.drop_eq_nil_of_le (by omega)
    exact .inr (.inl ⟨m, by simpa [Fault.reach, hdrop] using hsplit, hm, rfl⟩)
  · exact .inr (.inr ⟨m, token, _, cause, hsplit, hm, hr, rfl⟩)

def ExactlyOne (p q r : Prop) : Prop :=
  (p ∧ ¬ q ∧ ¬ r) ∨ (¬ p ∧ q ∧ ¬ r) ∨ (¬ p ∧ ¬ q ∧ r)

theorem Obstacle.exactlyOne {rest : List String} {fault : Fault} (h : Obstacle rest fault) :
    ExactlyOne (UnknownWord rest fault) (DanglingMnemonic rest fault)
      (BadOperand rest fault) := by
  rcases h with h | h | h
  · obtain ⟨_, _, -, -, rfl⟩ := id h
    refine .inl ⟨h, ?_, ?_⟩
    · rintro ⟨_, -, -, hf⟩
      cases hf
    · rintro ⟨_, _, _, _, -, -, -, hf⟩
      cases hf
  · obtain ⟨_, -, -, rfl⟩ := id h
    refine .inr (.inl ⟨?_, h, ?_⟩)
    · rintro ⟨_, _, -, -, hf⟩
      cases hf
    · rintro ⟨_, _, _, _, -, -, -, hf⟩
      cases hf
  · obtain ⟨_, _, _, _, -, -, -, rfl⟩ := id h
    refine .inr (.inr ⟨?_, ?_, h⟩)
    · rintro ⟨_, _, -, -, hf⟩
      cases hf
    · rintro ⟨_, -, -, hf⟩
      cases hf

theorem Obstacle.ne_build {rest : List String} {fault : Fault} (h : Obstacle rest fault)
    (cause : BuildFault) : fault ≠ .build cause := by
  rintro rfl
  rcases h with ⟨_, _, _, _, hf⟩ | ⟨_, _, _, hf⟩ | ⟨_, _, _, _, _, _, _, hf⟩ <;> cases hf

theorem exists_obstacle_of_error {text : String} {line : Nat} {old : Listing} {d : Diagnostic}
    (h : (Builder.listing.assemble text line old).1 = .error d) :
    d.line = line ∧ ∃ (body : Body) (rest : List String),
      body.tokens ++ rest = tokenize text ∧ Obstacle rest d.fault := by
  obtain ⟨body, rest, ending, ht, he⟩ := exists_reading (tokenize text)
  have hr := (listing_assemble ht he line old).1
  rw [h] at hr
  cases he with
  | done => cases hr
  | stuck hf =>
    cases hr
    exact ⟨rfl, body, rest, ht, hf⟩

/-- A failed run reports the first obstacle. What stands before it is a body,
which would be accepted on its own, and the listing holds the instructions of
that body and no others. Body and obstacle are determined by the tokens, and
the tokens after the faulty one do not count. -/
theorem listing_assemble_fault (text : String) (line : Nat) (old : Listing) (d : Diagnostic)
    (h : (Builder.listing.assemble text line old).1 = .error d) :
    d.line = line ∧ (∀ cause, d.fault ≠ .build cause) ∧
      ∃ (body : Body) (rest : List String),
        tokenize text = body.tokens ++ rest ∧
        (Builder.listing.assemble text line old).2.state =
          (body.instructions line 0).toArray ∧
        (∀ (before : String) (old' : Listing), tokenize before = body.tokens →
          (Builder.listing.assemble before line old').1 = .ok () ∧
          (Builder.listing.assemble before line old').2.state =
            (Builder.listing.assemble text line old).2.state) ∧
        ExactlyOne (UnknownWord rest d.fault) (DanglingMnemonic rest d.fault)
          (BadOperand rest d.fault) ∧
        (∀ (body' : Body) (rest' : List String) (fault' : Fault),
          tokenize text = body'.tokens ++ rest' → Obstacle rest' fault' →
            body' = body ∧ rest' = rest) ∧
        ∀ (other : String) (rest' : List String) (old' : Listing),
          tokenize other = body.tokens ++ rest' →
          rest'.take d.fault.reach = rest.take d.fault.reach →
            (Builder.listing.assemble other line old').1 = .error d ∧
            (Builder.listing.assemble other line old').2.state =
              (Builder.listing.assemble text line old).2.state := by
  obtain ⟨hline, body, rest, ht, ho⟩ := exists_obstacle_of_error h
  have hstate := (listing_assemble ht (.stuck ho) line old).2
  refine ⟨hline, ho.ne_build, body, rest, ht.symm, hstate, ?_, ho.exactlyOne, ?_, ?_⟩
  · intro before old' hb
    rw [hstate]
    exact listing_assemble_body hb.symm line old'
  · intro body' rest' fault' ht' ho'
    exact reading_unique (ht'.symm.trans ht.symm) (.stuck ho') (.stuck ho)
  · intro other rest' old' ht' htake
    obtain ⟨hr, hs⟩ :=
      listing_assemble ht'.symm (.stuck (ho.of_take_eq htake)) line old'
    rw [hr, hs, hstate, ← hline]
    exact ⟨rfl, rfl⟩

theorem listing_assemble_fault_bad_operand :
    (Builder.listing.assemble "f32.sub local.get x return" 3 #[]).1 =
        .error ⟨3, .invalidInteger "x" .invalidDigit⟩ ∧
      ∃ (body : Body) (rest : List String),
        tokenize "f32.sub local.get x return" = body.tokens ++ rest ∧
        (Builder.listing.assemble "f32.sub local.get x return" 3 #[]).2.state =
          (body.instructions 3 0).toArray := by
  have h : (Builder.listing.assemble "f32.sub local.get x return" 3 #[]).1 =
      .error ⟨3, .invalidInteger "x" .invalidDigit⟩ := by decide +kernel
  obtain ⟨-, -, body, rest, ht, hs, -⟩ := listing_assemble_fault _ _ _ _ h
  exact ⟨h, body, rest, ht, hs⟩

end WasmAssembly
