import WasmAssembly.Proofs.Handover

/-!
# The same body on another line

The line of a body goes into its instructions and its diagnostics and decides
nothing. Two runs on one text, at two lines, are followed side by side: as long as
the builder itself does not look at the line, it is called for the same things,
stays in the same state and refuses at the same place.
-/

set_option autoImplicit false

namespace WasmAssembly

def Call.atLine (line : Nat) : Call → Call
  | .reset => .reset
  | .addLocal access index codePos _ => .addLocal access index codePos line
  | .addConst value type codePos _ => .addConst value type codePos line
  | .addNumeric operator type codePos _ => .addNumeric operator type codePos line
  | .addConvert conversion codePos _ => .addConvert conversion codePos line
  | .addReturn label codePos _ => .addReturn label codePos line

theorem Instruction.atLine_call (op : Operation) (codePos line line' : Nat) :
    (Instruction.call ⟨op, codePos, line⟩).atLine line' =
      Instruction.call ⟨op, codePos, line'⟩ := by
  cases op <;> rfl

theorem Body.ops_instructions (line line' start : Nat) (body : Body) :
    (body.instructions line start).map (fun i => (i.op, i.codePos)) =
      (body.instructions line' start).map (fun i => (i.op, i.codePos)) := by
  induction body generalizing start with
  | nil => rfl
  | cons p body ih =>
    rw [instructions, instructions, List.map_cons, List.map_cons, ih]

namespace Builder

variable {σ : Type} {b : Builder σ}

/-- No operation of the builder lets the line decide about its answer or its state. -/
structure IgnoresLine (b : Builder σ) : Prop where
  addLocal : ∀ (access : Access) (index : Int32) (codePos line line' : Nat) (s : σ),
    b.addLocal access index codePos line s = b.addLocal access index codePos line' s
  addConst : ∀ (value : Int32) (type : ValueType) (codePos line line' : Nat) (s : σ),
    b.addConst value type codePos line s = b.addConst value type codePos line' s
  addNumeric : ∀ (operator : Arithmetic) (type : ValueType) (codePos line line' : Nat) (s : σ),
    b.addNumeric operator type codePos line s = b.addNumeric operator type codePos line' s
  addConvert : ∀ (conversion : Conversion) (codePos line line' : Nat) (s : σ),
    b.addConvert conversion codePos line s = b.addConvert conversion codePos line' s
  addReturn : ∀ (label : Option String) (codePos line line' : Nat) (s : σ),
    b.addReturn label codePos line s = b.addReturn label codePos line' s

theorem IgnoresLine.perform_atLine (h : b.IgnoresLine) (call : Call) (line : Nat) (s : σ) :
    b.perform (call.atLine line) s = b.perform call s := by
  cases call with
  | reset => rfl
  | addLocal access index codePos _ => apply h.addLocal
  | addConst value type codePos _ => apply h.addConst
  | addNumeric operator type codePos _ => apply h.addNumeric
  | addConvert conversion codePos _ => apply h.addConvert
  | addReturn label codePos _ => apply h.addReturn

/-- Two builders that write down their calls are in one state, and since `seen` they were
called for the same things, each for its own line. -/
def Alongside (seen : List Call) (line line' : Nat) (a a' : Assembly (σ × List Call)) : Prop :=
  a'.state.1 = a.state.1 ∧
    ∃ adds : List Call, a.state.2 = seen ++ adds.map (Call.atLine line) ∧
      a'.state.2 = seen ++ adds.map (Call.atLine line')

variable {seen : List Call} {line line' : Nat} {a a' : Assembly (σ × List Call)}

theorem Alongside.emit (hb : b.IgnoresLine) (h : Alongside seen line line' a a') (op : Operation)
    (codePos : Nat) :
    (b.recording.emit ⟨op, codePos, line'⟩ a').1 = (b.recording.emit ⟨op, codePos, line⟩ a).1 ∧
      Alongside seen line line' (b.recording.emit ⟨op, codePos, line⟩ a).2
        (b.recording.emit ⟨op, codePos, line'⟩ a').2 := by
  obtain ⟨hstate, adds, hcalls, hcalls'⟩ := h
  have hperform : b.perform (Instruction.call ⟨op, codePos, line'⟩) a'.state.1 =
      b.perform (Instruction.call ⟨op, codePos, line⟩) a.state.1 := by
    rw [hstate, ← Instruction.atLine_call op codePos line line', hb.perform_atLine]
  simp only [emit_eq_perform, recording_perform, note, hperform]
  refine ⟨trivial, rfl, adds ++ [Instruction.call ⟨op, codePos, line⟩], ?_, ?_⟩
  · rw [hcalls, List.map_append, List.append_assoc, List.map_singleton, Instruction.atLine_call]
  · rw [hcalls', List.map_append, List.append_assoc, List.map_singleton, Instruction.atLine_call]

theorem Alongside.handOver (hb : b.IgnoresLine) (h : Alongside seen line line' a a') (body : Body)
    (start : Nat) :
    (b.recording.handOver (body.instructions line' start) a').1 =
        (b.recording.handOver (body.instructions line start) a).1 ∧
      Alongside seen line line' (b.recording.handOver (body.instructions line start) a).2
        (b.recording.handOver (body.instructions line' start) a').2 := by
  induction body generalizing start a a' with
  | nil => exact ⟨rfl, h⟩
  | cons p body ih =>
    obtain ⟨hanswer, hnext⟩ := h.emit hb p.op start
    rw [Body.instructions, Body.instructions, Builder.handOver, Builder.handOver]
    rcases hemit : b.recording.emit ⟨p.op, start, line⟩ a with ⟨answer, next⟩
    rcases hemit' : b.recording.emit ⟨p.op, start, line'⟩ a' with ⟨answer', next'⟩
    rw [hemit, hemit'] at hanswer hnext
    obtain rfl : answer' = answer := hanswer
    cases answer' with
    | error cause => exact ⟨rfl, hnext⟩
    | ok _ => exact ih hnext _

theorem assemble_alongside (hb : b.IgnoresLine) (text : String) (line line' : Nat) (state : σ)
    (seen : List Call) :
    let run := b.recording.assemble text line (state, seen)
    let run' := b.recording.assemble text line' (state, seen)
    Alongside (seen ++ [.reset]) line line' run.2 run'.2 ∧
      ∃ ending : Except Fault Unit, run.1 = ending.mapError (⟨line, ·⟩) ∧
        run'.1 = ending.mapError (⟨line', ·⟩) := by
  intro run run'
  obtain ⟨body, rest, ending, ht, he⟩ := exists_reading (tokenize text)
  have hstart : Alongside (seen ++ [.reset]) line line'
      ⟨b.recording.reset (state, seen), #[.start (tokenize text).length line]⟩
      ⟨b.recording.reset (state, seen), #[.start (tokenize text).length line']⟩ :=
    ⟨rfl, [], (List.append_nil _).symm, (List.append_nil _).symm⟩
  obtain ⟨hanswer, hend⟩ := hstart.handOver hb body 0
  have hrun : run = _ := b.recording.assemble_eq_handOver line ht he (state, seen)
  have hrun' : run' = _ := b.recording.assemble_eq_handOver line' ht he (state, seen)
  rw [hrun, hrun']
  refine ⟨hend, _, rfl, ?_⟩
  rw [Prod.map_fst, hanswer]

end Builder

/-- The line of a body is for diagnostics only. On a builder that does not look at the line, two
runs on one text make the same calls, each with its own line, leave the same state, and end
alike: both succeed, or both fail with the same fault, each on its own line. The two listings of
the text have the same operations at the same places, and every instruction and every
diagnostic has the line of its own run. -/
theorem assemble_ignores_line {σ : Type} (b : Builder σ) (hb : b.IgnoresLine) (text : String)
    (line line' : Nat) (state : σ) (seen : List Call) (old old' : Listing) :
    let run := b.recording.assemble text line (state, seen)
    let run' := b.recording.assemble text line' (state, seen)
    let listed := Builder.listing.assemble text line old
    let listed' := Builder.listing.assemble text line' old'
    (run.1 = (b.assemble text line state).1 ∧
        run.2.state.1 = (b.assemble text line state).2.state) ∧
      (run'.1 = (b.assemble text line' state).1 ∧
        run'.2.state.1 = (b.assemble text line' state).2.state) ∧
      (∃ adds : List Call, run.2.state.2 = seen ++ .reset :: adds.map (Call.atLine line) ∧
        run'.2.state.2 = seen ++ .reset :: adds.map (Call.atLine line')) ∧
      (b.assemble text line' state).2.state = (b.assemble text line state).2.state ∧
      (∃ ending : Except Fault Unit,
        (b.assemble text line state).1 = ending.mapError (⟨line, ·⟩) ∧
        (b.assemble text line' state).1 = ending.mapError (⟨line', ·⟩)) ∧
      listed'.2.state.toList.map (fun i => (i.op, i.codePos)) =
        listed.2.state.toList.map (fun i => (i.op, i.codePos)) ∧
      (∀ i ∈ listed.2.state.toList, i.line = line) ∧
      (∀ i ∈ listed'.2.state.toList, i.line = line') ∧
      ∃ ending : Except Fault Unit, listed.1 = ending.mapError (⟨line, ·⟩) ∧
        listed'.1 = ending.mapError (⟨line', ·⟩) := by
  intro run run' listed listed'
  have hrun := b.recording_assemble text line state seen
  have hrun' := b.recording_assemble text line' state seen
  obtain ⟨⟨hstate, adds, hcalls, hcalls'⟩, ending, hending, hending'⟩ :=
    Builder.assemble_alongside hb text line line' state seen
  obtain ⟨body, rest, result, ht, he⟩ := exists_reading (tokenize text)
  obtain ⟨hresult, hlisting⟩ := listing_assemble ht he line old
  obtain ⟨hresult', hlisting'⟩ := listing_assemble ht he line' old'
  refine ⟨hrun, hrun', ⟨adds, ?_, ?_⟩, ?_, ⟨ending, ?_, ?_⟩, ?_, ?_, ?_, result, hresult, hresult'⟩
  · rw [hcalls, List.append_assoc]
    rfl
  · rw [hcalls', List.append_assoc]
    rfl
  · rw [← hrun.2, ← hrun'.2, hstate]
  · rw [← hrun.1, hending]
  · rw [← hrun'.1, hending']
  · simp only [listed, listed', hlisting, hlisting']
    exact Body.ops_instructions line' line 0 body
  · intro i hi
    rw [hlisting] at hi
    exact Body.line_of_mem_instructions hi
  · intro i hi
    rw [hlisting'] at hi
    exact Body.line_of_mem_instructions hi

def Builder.counting (refused : Nat) : Builder Nat :=
  .ofAdd (fun _ => 0) fun _ seen =>
    (if seen + 1 = refused then .error ⟨"stack underflow"⟩ else .ok (), seen + 1)

theorem Builder.counting_ignoresLine (refused : Nat) : (counting refused).IgnoresLine :=
  ⟨fun _ _ _ _ _ _ => rfl, fun _ _ _ _ _ _ => rfl, fun _ _ _ _ _ _ => rfl,
    fun _ _ _ _ _ => rfl, fun _ _ _ _ _ => rfl⟩

theorem assemble_ignores_line_refused :
    let b := Builder.counting 2
    let text := "i32.const 1 i32.add return bogus"
    b.IgnoresLine ∧
      (b.assemble text 12 7).1 = .error ⟨12, .build ⟨"stack underflow"⟩⟩ ∧
      (b.assemble text 18446744073709551615 7).1 =
        .error ⟨18446744073709551615, .build ⟨"stack underflow"⟩⟩ ∧
      (b.assemble text 18446744073709551615 7).2.state = (b.assemble text 12 7).2.state ∧
      ∃ adds : List Call,
        (b.recording.assemble text 12 (7, [])).2.state.2 =
          .reset :: adds.map (Call.atLine 12) ∧
        (b.recording.assemble text 18446744073709551615 (7, [])).2.state.2 =
          .reset :: adds.map (Call.atLine 18446744073709551615) := by
  intro b text
  have hb : b.IgnoresLine := Builder.counting_ignoresLine 2
  have hlow : (b.assemble text 12 7).1 = .error ⟨12, .build ⟨"stack underflow"⟩⟩ := by
    decide +kernel
  obtain ⟨-, -, hcalls, hstate, ⟨ending, hending, hending'⟩, -⟩ :=
    assemble_ignores_line b hb text 12 18446744073709551615 7 [] #[] #[]
  refine ⟨hb, hlow, ?_, hstate, hcalls⟩
  rw [hlow] at hending
  cases ending with
  | ok _ => cases hending
  | error fault =>
    cases hending
    exact hending'

end WasmAssembly
