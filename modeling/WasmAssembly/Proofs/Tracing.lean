import Mathlib.Data.List.Forall2
import WasmAssembly.Proofs.Handover

/-!
# The trace of a body

An instruction is announced before it is handed over, and from its operation,
while the builder is called with the operation taken apart. The announcements and
the calls still tell the same: after the announcement of the body there is one
record for each call, in order. A refused call has its record, and a phrase that
cannot be decoded has none.
-/

set_option autoImplicit false

namespace WasmAssembly

def Call.instruction? : Call → Option Instruction
  | .reset => none
  | .addLocal access index codePos line => some ⟨.localVar access index, codePos, line⟩
  | .addConst value type codePos line => some ⟨.const value type, codePos, line⟩
  | .addNumeric operator type codePos line => some ⟨.numeric operator type, codePos, line⟩
  | .addConvert conversion codePos line => some ⟨.convert conversion, codePos, line⟩
  | .addReturn label codePos line => some ⟨.ret label, codePos, line⟩

theorem Instruction.instruction?_call (i : Instruction) : i.call.instruction? = some i := by
  obtain ⟨op, codePos, line⟩ := i
  cases op <;> rfl

/-- The record shows where the instruction of the call stands, with blanks before it up to a
width of four, and the text of its operation. No record tells of a reset. -/
def Tells (call : Call) (record : Log.Record) : Prop :=
  ∃ i : Instruction, call.instruction? = some i ∧
    record = ⟨.assembler, .trace,
      String.ofList (List.replicate (4 - i.codePos.repr.length) ' ') ++ i.codePos.repr ++ ": " ++
        i.op.text⟩

theorem tells_decoded (i : Instruction) :
    Tells i.call (Trace.decoded i.codePos i.op).record :=
  ⟨i, i.instruction?_call, rfl⟩

namespace Builder

variable {σ : Type} (b : Builder σ)

theorem recording_emit (i : Instruction) (state : σ) (seen : List Call) (trace : Array Trace) :
    b.recording.emit i ⟨(state, seen), trace⟩ =
      ((b.emit i ⟨state, trace⟩).1,
        ⟨((b.emit i ⟨state, trace⟩).2.state, seen ++ [i.call]),
          trace.push (.decoded i.codePos i.op)⟩) := by
  simp [emit_eq_perform, recording_perform, note]

theorem trace_recording_handOver (is : List Instruction) (state : σ) (seen : List Call)
    (trace : Array Trace) :
    (b.recording.handOver is ⟨(state, seen), trace⟩).2.trace =
      (b.handOver is ⟨state, trace⟩).2.trace := by
  induction is generalizing state seen trace with
  | nil => rfl
  | cons i is ih =>
    have hemit : b.emit i ⟨state, trace⟩ = ((b.emit i ⟨state, trace⟩).1,
        ⟨(b.emit i ⟨state, trace⟩).2.state, trace.push (.decoded i.codePos i.op)⟩) := rfl
    rw [handOver, handOver, recording_emit, hemit]
    cases (b.emit i ⟨state, trace⟩).1 with
    | error cause => rfl
    | ok _ => exact ih _ _ _

theorem trace_recording_assemble (text : String) (line : Nat) (state : σ) (seen : List Call) :
    (b.recording.assemble text line (state, seen)).2.trace =
      (b.assemble text line state).2.trace := by
  rw [b.recording.assemble_eq_handOver_listing text line _ #[],
    b.assemble_eq_handOver_listing text line _ #[]]
  exact b.trace_recording_handOver _ _ _ _

/-- Since the announcement of the body, the calls that were written down and the records of
the trace match one to one. -/
def Matched (start : Trace) (seen : List Call) (a : Assembly (σ × List Call)) : Prop :=
  ∃ (adds : List Call) (told : List Trace), a.state.2 = seen ++ adds ∧
    a.trace.toList = start :: told ∧ List.Forall₂ Tells adds (told.map Trace.record)

theorem matched_emit {start : Trace} {seen : List Call} {a : Assembly (σ × List Call)}
    (h : Matched start seen a) (i : Instruction) :
    Matched start seen (b.recording.emit i a).2 := by
  obtain ⟨⟨state, calls⟩, trace⟩ := a
  obtain ⟨adds, told, rfl, htrace, htells⟩ := h
  rw [recording_emit]
  refine ⟨adds ++ [i.call], told ++ [.decoded i.codePos i.op], ?_, ?_, ?_⟩
  · exact List.append_assoc _ _ _
  · rw [Array.toList_push, htrace, List.cons_append]
  · rw [List.map_append]
    exact List.rel_append htells (.cons (tells_decoded i) .nil)

theorem matched_handOver {start : Trace} {seen : List Call} (is : List Instruction)
    {a : Assembly (σ × List Call)} (h : Matched start seen a) :
    Matched start seen (b.recording.handOver is a).2 := by
  induction is generalizing a with
  | nil => exact h
  | cons i is ih =>
    have hstep := b.matched_emit h i
    rw [handOver]
    split
    · rename_i heq
      rwa [heq] at hstep
    · rename_i heq
      rw [heq] at hstep
      exact ih hstep

theorem matched_assemble (text : String) (line : Nat) (state : σ) (seen : List Call) :
    Matched (.start (tokenize text).length line) (seen ++ [.reset])
      (b.recording.assemble text line (state, seen)).2 := by
  rw [b.recording.assemble_eq_handOver_listing text line _ #[]]
  exact b.matched_handOver _ ⟨[], [], (List.append_nil _).symm, rfl, .nil⟩

theorem RefusesAt.exists_take {b : Builder σ} {calls : List Call} {k : Nat} {cause : BuildFault}
    {s : σ} (h : b.RefusesAt calls k cause s) :
    ∃ refused, calls.take (k + 1) = calls.take k ++ [refused] ∧ b.Accepts (calls.take k) s ∧
      (b.perform refused (b.after (calls.take k) s)).1 = .error cause := by
  obtain ⟨hbefore, hat⟩ := h
  obtain ⟨refused, hget, hfails⟩ := Option.map_eq_some_iff.mp hat
  refine ⟨refused, ?_, hbefore, hfails⟩
  rw [List.take_add_one, hget]
  rfl

end Builder

/-- The trace of a body is a record of the calls. It begins with the number of tokens and the
line, and goes on with one record for each call that hands over an instruction, in the order
of the calls. Either the calls are those for all phrases up to the end or to the first
obstacle, none is refused, and the obstacle leaves no record; or they end with the first call
that is refused, which has its record like the others. -/
theorem assemble_traces_calls {σ : Type} (b : Builder σ) (text : String) (line : Nat)
    (state : σ) (seen : List Call) :
    let result := (b.assemble text line state).1
    let log := (b.assemble text line state).2.trace.toList.map Trace.record
    let run := b.recording.assemble text line (state, seen)
    (run.1 = result ∧ run.2.state.1 = (b.assemble text line state).2.state) ∧
      ∃ (body : Body) (rest : List String) (ending : Except Fault Unit) (adds : List Call)
        (records : List Log.Record),
        tokenize text = body.tokens ++ rest ∧ Ending rest ending ∧
        run.2.state.2 = seen ++ .reset :: adds ∧
        log = ⟨.assembler, .trace, "parsing " ++ (tokenize text).length.repr ++
          " token(s) from line " ++ line.repr⟩ :: records ∧
        List.Forall₂ Tells adds records ∧
        adds <+: (body.instructions line 0).map Instruction.call ∧
        ((adds = (body.instructions line 0).map Instruction.call ∧
            b.Accepts adds (b.reset state) ∧ result = ending.mapError (⟨line, ·⟩)) ∨
          ∃ (before : List Call) (refused : Call) (cause : BuildFault),
            adds = before ++ [refused] ∧ b.Accepts before (b.reset state) ∧
            (b.perform refused (b.after before (b.reset state))).1 = .error cause ∧
            result = .error ⟨line, .build cause⟩) := by
  intro result log run
  obtain ⟨body, rest, ending, ht, he⟩ := exists_reading (tokenize text)
  obtain ⟨hending, hlisting⟩ := listing_assemble ht he line #[]
  obtain ⟨adds, told, hseen, htrace, htells⟩ := b.matched_assemble text line state seen
  rw [List.append_assoc] at hseen
  rw [b.trace_recording_assemble text line state seen] at htrace
  refine ⟨b.recording_assemble text line state seen, body, rest, ending, adds,
    told.map Trace.record, ht.symm, he, hseen, ?_, htells, ?_⟩
  · show (b.assemble text line state).2.trace.toList.map Trace.record = _
    rw [htrace]
    rfl
  have hcalls : Listing.calls (Builder.listing.assemble text line #[]).2.state =
      (body.instructions line 0).map Instruction.call := by
    rw [hlisting]
    rfl
  have hadds : ∀ calls, run.2.state.2 = seen ++ [.reset] ++ calls → adds = calls := by
    intro calls h
    rw [hseen, List.append_assoc] at h
    exact List.append_cancel_left (List.append_cancel_left h)
  rcases b.accepts_or_refuses ((body.instructions line 0).map Instruction.call)
    (b.reset state) with haccepts | ⟨k, cause, hrefuses⟩
  · rw [← hcalls] at haccepts
    have hresult := (b.assemble_of_accepts text line state #[] haccepts).1
    have hstate := (b.recording.assemble_of_accepts text line (state, seen) #[]
      ((b.recording_accepts _ _).mpr haccepts)).2
    rw [hcalls, Builder.recording_after] at hstate
    obtain rfl := hadds _ (congrArg Prod.snd hstate)
    rw [hcalls] at haccepts
    exact ⟨List.prefix_refl _, .inl ⟨rfl, haccepts, hresult.trans hending⟩⟩
  · rw [← hcalls] at hrefuses
    have hresult := (b.assemble_of_refuses text line state #[] hrefuses).1
    have hstate := (b.recording.assemble_of_refuses text line (state, seen) #[]
      ((b.recording_refusesAt _ _ _ _).mpr hrefuses)).2
    rw [hcalls, Builder.recording_after] at hstate
    obtain rfl := hadds _ (congrArg Prod.snd hstate)
    rw [hcalls] at hrefuses
    obtain ⟨refused, htake, hbefore, hfails⟩ := hrefuses.exists_take
    exact ⟨List.take_prefix _ _, .inr ⟨_, refused, cause, htake, hbefore, hfails, hresult⟩⟩

example :
    let probe : Probe := ⟨some 2, none, "stack underflow", 0, 0, #[]⟩
    (Builder.probe.assemble "i32.const 1 i32.add return bogus" 12 probe).2.trace.toList.map
        Trace.message =
      ["parsing 5 token(s) from line 12", "   0: i32.const 1", "   2: i32.add"] := by
  decide +kernel

end WasmAssembly
