import WasmAssembly.Builder.Probe
import WasmAssembly.Proofs.Grammar

/-!
# What a builder is called for

Any builder receives the calls that the listing of the same body stands for: a
reset, then one call for each instruction, in order and up to the first
refusal. A builder that writes down its calls makes them visible, and a
refusal wins over every fault of the text that comes after it.
-/

set_option autoImplicit false

namespace WasmAssembly

inductive Call where
  | reset
  | addLocal (access : Access) (index : Int32) (codePos line : Nat)
  | addConst (value : Int32) (type : ValueType) (codePos line : Nat)
  | addNumeric (operator : Arithmetic) (type : ValueType) (codePos line : Nat)
  | addConvert (conversion : Conversion) (codePos line : Nat)
  | addReturn (label : Option String) (codePos line : Nat)
  deriving DecidableEq, Repr

def Instruction.call : Instruction → Call
  | ⟨.localVar access index, codePos, line⟩ => .addLocal access index codePos line
  | ⟨.const value type, codePos, line⟩ => .addConst value type codePos line
  | ⟨.numeric operator type, codePos, line⟩ => .addNumeric operator type codePos line
  | ⟨.convert conversion, codePos, line⟩ => .addConvert conversion codePos line
  | ⟨.ret label, codePos, line⟩ => .addReturn label codePos line

def Listing.calls (listing : Listing) : List Call := listing.toList.map Instruction.call

theorem Instruction.call_ne_reset (i : Instruction) : i.call ≠ .reset := by
  obtain ⟨op, codePos, line⟩ := i
  cases op <;> simp [call]

namespace Builder

variable {σ : Type} (b : Builder σ)

def perform : Call → σ → Except BuildFault Unit × σ
  | .reset, s => (.ok (), b.reset s)
  | .addLocal access index codePos line, s => b.addLocal access index codePos line s
  | .addConst value type codePos line, s => b.addConst value type codePos line s
  | .addNumeric operator type codePos line, s => b.addNumeric operator type codePos line s
  | .addConvert conversion codePos line, s => b.addConvert conversion codePos line s
  | .addReturn label codePos line, s => b.addReturn label codePos line s

def after : List Call → σ → σ
  | [], s => s
  | call :: calls, s => after calls (b.perform call s).2

def Accepts : List Call → σ → Prop
  | [], _ => True
  | call :: calls, s => (b.perform call s).1 = .ok () ∧ Accepts calls (b.perform call s).2

/-- The call with index `k` fails, and it is the first that does. -/
def RefusesAt (calls : List Call) (k : Nat) (cause : BuildFault) (s : σ) : Prop :=
  b.Accepts (calls.take k) s ∧
    (calls[k]?.map fun call => (b.perform call (b.after (calls.take k) s)).1) =
      some (.error cause)

instance decidableAccepts : (calls : List Call) → (s : σ) → Decidable (b.Accepts calls s)
  | [], _ => .isTrue trivial
  | call :: calls, s =>
    have := decidableAccepts calls (b.perform call s).2
    inferInstanceAs (Decidable ((b.perform call s).1 = .ok () ∧ _))

instance (calls : List Call) (k : Nat) (cause : BuildFault) (s : σ) :
    Decidable (b.RefusesAt calls k cause s) :=
  inferInstanceAs (Decidable (_ ∧ _))

def note (call : Call) (s : σ × List Call) : Except BuildFault Unit × σ × List Call :=
  ((b.perform call s.1).1, (b.perform call s.1).2, s.2 ++ [call])

/-- The same builder, with a list of the calls it has received. -/
def recording : Builder (σ × List Call) where
  reset s := (b.note .reset s).2
  addLocal access index codePos line := b.note (.addLocal access index codePos line)
  addConst value type codePos line := b.note (.addConst value type codePos line)
  addNumeric operator type codePos line := b.note (.addNumeric operator type codePos line)
  addConvert conversion codePos line := b.note (.addConvert conversion codePos line)
  addReturn label codePos line := b.note (.addReturn label codePos line)

theorem add_eq_perform (i : Instruction) (s : σ) : b.add i s = b.perform i.call s := by
  obtain ⟨op, codePos, line⟩ := i
  cases op <;> rfl

theorem emit_eq_perform (i : Instruction) (a : Assembly σ) :
    b.emit i a = ((b.perform i.call a.state).1,
      ⟨(b.perform i.call a.state).2, a.trace.push (.decoded i.codePos i.op)⟩) := by
  rw [← add_eq_perform]
  rfl

theorem handOver_of_accepts {is : List Instruction} {a : Assembly σ}
    (h : b.Accepts (is.map Instruction.call) a.state) :
    (b.handOver is a).1 = .ok () ∧
      (b.handOver is a).2.state = b.after (is.map Instruction.call) a.state := by
  induction is generalizing a with
  | nil => exact ⟨rfl, rfl⟩
  | cons i is ih =>
    obtain ⟨hok, hrest⟩ := h
    simp only [handOver, emit_eq_perform, hok]
    exact ih hrest

theorem handOver_of_refuses {is : List Instruction} {k : Nat} {cause : BuildFault}
    {a : Assembly σ} (h : b.RefusesAt (is.map Instruction.call) k cause a.state) :
    (b.handOver is a).1 = .error cause ∧
      (b.handOver is a).2.state = b.after ((is.map Instruction.call).take (k + 1)) a.state := by
  induction is generalizing k a with
  | nil => simp [RefusesAt] at h
  | cons i is ih =>
    obtain ⟨hbefore, hat⟩ := h
    cases k with
    | zero =>
      have herr : (b.perform i.call a.state).1 = .error cause := by
        simpa [after] using hat
      simp [handOver, emit_eq_perform, herr, after]
    | succ k =>
      obtain ⟨hok, hrest⟩ := hbefore
      simp only [handOver, emit_eq_perform, hok]
      exact ih ⟨hrest, hat⟩

theorem accepts_or_refuses (calls : List Call) (s : σ) :
    b.Accepts calls s ∨ ∃ k cause, b.RefusesAt calls k cause s := by
  induction calls generalizing s with
  | nil => exact .inl trivial
  | cons call calls ih =>
    cases hc : (b.perform call s).1 with
    | error cause => exact .inr ⟨0, cause, trivial, by simp [after, hc]⟩
    | ok _ =>
      rcases ih (b.perform call s).2 with h | ⟨k, cause, hbefore, hat⟩
      · exact .inl ⟨hc, h⟩
      · exact .inr ⟨k + 1, cause, ⟨hc, hbefore⟩, hat⟩

theorem recording_perform (call : Call) (s : σ × List Call) :
    b.recording.perform call s = b.note call s := by
  cases call <;> rfl

theorem recording_after (calls : List Call) (s : σ × List Call) :
    b.recording.after calls s = (b.after calls s.1, s.2 ++ calls) := by
  induction calls generalizing s with
  | nil => simp [after]
  | cons call calls ih => simp [after, ih, recording_perform, note]

theorem recording_accepts (calls : List Call) (s : σ × List Call) :
    b.recording.Accepts calls s ↔ b.Accepts calls s.1 := by
  induction calls generalizing s with
  | nil => exact Iff.rfl
  | cons call calls ih => simp [Accepts, ih, recording_perform, note]

theorem recording_refusesAt (calls : List Call) (k : Nat) (cause : BuildFault)
    (s : σ × List Call) :
    b.recording.RefusesAt calls k cause s ↔ b.RefusesAt calls k cause s.1 := by
  simp [RefusesAt, recording_accepts, recording_perform, recording_after, note]

variable (text : String) (line : Nat) (state : σ) (old : Listing)

theorem assemble_eq_handOver_listing :
    b.assemble text line state =
      (b.handOver (listing.assemble text line old).2.state.toList
        ⟨b.reset state, #[.start (tokenize text).length line]⟩).map
          (fun
            | .error cause => .error ⟨line, .build cause⟩
            | .ok _ => (listing.assemble text line old).1) id := by
  obtain ⟨body, rest, ending, ht, he⟩ := exists_reading (tokenize text)
  obtain ⟨hr, hs⟩ := listing_assemble ht he line old
  rw [b.assemble_eq_handOver line ht he, hr, hs]
  rcases b.handOver (body.instructions line 0) _ with ⟨_ | _, a⟩ <;> rfl

theorem assemble_of_accepts
    (h : b.Accepts (Listing.calls (listing.assemble text line old).2.state) (b.reset state)) :
    (b.assemble text line state).1 = (listing.assemble text line old).1 ∧
      (b.assemble text line state).2.state =
        b.after (Listing.calls (listing.assemble text line old).2.state) (b.reset state) := by
  obtain ⟨hok, hstate⟩ := b.handOver_of_accepts
    (a := ⟨b.reset state, #[.start (tokenize text).length line]⟩) h
  rw [b.assemble_eq_handOver_listing text line state old]
  constructor
  · simp only [Prod.map_fst, hok]
  · exact hstate

theorem assemble_of_refuses {k : Nat} {cause : BuildFault}
    (h : b.RefusesAt (Listing.calls (listing.assemble text line old).2.state) k cause
      (b.reset state)) :
    (b.assemble text line state).1 = .error ⟨line, .build cause⟩ ∧
      (b.assemble text line state).2.state =
        b.after ((Listing.calls (listing.assemble text line old).2.state).take (k + 1))
          (b.reset state) := by
  obtain ⟨herr, hstate⟩ := b.handOver_of_refuses
    (a := ⟨b.reset state, #[.start (tokenize text).length line]⟩) h
  rw [b.assemble_eq_handOver_listing text line state old]
  constructor
  · simp only [Prod.map_fst, herr]
  · exact hstate

theorem recording_assemble (seen : List Call) :
    (b.recording.assemble text line (state, seen)).1 = (b.assemble text line state).1 ∧
      (b.recording.assemble text line (state, seen)).2.state.1 =
        (b.assemble text line state).2.state := by
  let calls := Listing.calls (listing.assemble text line #[]).2.state
  rcases b.accepts_or_refuses calls (b.reset state) with h | ⟨k, cause, h⟩
  · obtain ⟨hr, hs⟩ := b.assemble_of_accepts text line state #[] h
    obtain ⟨hr', hs'⟩ := b.recording.assemble_of_accepts text line (state, seen) #[]
      ((b.recording_accepts _ _).mpr h)
    rw [hr, hs, hr', hs', recording_after]
    exact ⟨rfl, rfl⟩
  · obtain ⟨hr, hs⟩ := b.assemble_of_refuses text line state #[] h
    obtain ⟨hr', hs'⟩ := b.recording.assemble_of_refuses text line (state, seen) #[]
      ((b.recording_refusesAt _ _ _ _).mpr h)
    rw [hr, hs, hr', hs', recording_after]
    exact ⟨rfl, rfl⟩

end Builder

/-- Assembling into any builder follows the listing of the same body. The
builder is reset once and first; then it is called for the listed instructions
in order. The first refusal ends the run, whatever the text holds after it;
without one the run ends as the listing does. -/
theorem assemble_follows_listing {σ : Type} (b : Builder σ) (text : String) (line : Nat)
    (state : σ) (seen : List Call) (old : Listing) :
    let listed := Builder.listing.assemble text line old
    let calls := Listing.calls listed.2.state
    let run := b.recording.assemble text line (state, seen)
    (run.1 = (b.assemble text line state).1 ∧
        run.2.state.1 = (b.assemble text line state).2.state) ∧
      Call.reset ∉ calls ∧
      (∀ (k : Nat) (cause : BuildFault), b.RefusesAt calls k cause (b.reset state) →
        run.1 = .error ⟨line, .build cause⟩ ∧
        run.2.state = (b.after (calls.take (k + 1)) (b.reset state),
          seen ++ .reset :: calls.take (k + 1))) ∧
      (b.Accepts calls (b.reset state) →
        run.1 = listed.1 ∧
        run.2.state = (b.after calls (b.reset state), seen ++ .reset :: calls)) := by
  intro listed calls run
  have hreset : b.recording.reset (state, seen) = (b.reset state, seen ++ [.reset]) := rfl
  refine ⟨b.recording_assemble text line state seen, ?_, ?_, ?_⟩
  · intro hmem
    obtain ⟨i, -, hi⟩ := List.mem_map.mp hmem
    exact i.call_ne_reset hi
  · intro k cause h
    obtain ⟨hr, hs⟩ := b.recording.assemble_of_refuses text line (state, seen) old
      ((b.recording_refusesAt _ _ _ _).mpr h)
    rw [Builder.recording_after, hreset, List.append_assoc] at hs
    exact ⟨hr, hs⟩
  · intro h
    obtain ⟨hr, hs⟩ := b.recording.assemble_of_accepts text line (state, seen) old
      ((b.recording_accepts _ _).mpr h)
    rw [Builder.recording_after, hreset, List.append_assoc] at hs
    exact ⟨hr, hs⟩

/-- A refusal of the second instruction hides the unknown word after the third,
and the third is never handed over. -/
theorem assemble_follows_listing_refused :
    let probe : Probe := ⟨some 2, none, "stack underflow", 0, 0, #[]⟩
    let run := Builder.probe.recording.assemble "i32.const 1 i32.add return bogus" 12 (probe, [])
    run.1 = .error ⟨12, .build ⟨"stack underflow"⟩⟩ ∧
      run.2.state.2 = [.reset, .addConst 1 .i32 0 12, .addNumeric .add .i32 2 12] := by
  intro probe run
  let calls := Listing.calls
    (Builder.listing.assemble "i32.const 1 i32.add return bogus" 12 #[]).2.state
  have hcalls : calls.take 2 = [.addConst 1 .i32 0 12, .addNumeric .add .i32 2 12] := by
    decide +kernel
  have h : Builder.probe.RefusesAt calls 1 ⟨"stack underflow"⟩ (Builder.probe.reset probe) := by
    decide +kernel
  obtain ⟨hr, hs⟩ := (assemble_follows_listing Builder.probe
    "i32.const 1 i32.add return bogus" 12 probe [] #[]).2.2.1 1 _ h
  exact ⟨hr, (congrArg Prod.snd hs).trans (congrArg (Call.reset :: ·) hcalls)⟩

end WasmAssembly
