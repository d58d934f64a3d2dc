import Mathlib.Data.List.Induction
import WasmAssembly.Assembler.Session

/-!
# Sessions without memory

A session uses one listing for many bodies. Between them the listing may be
reset or be given instructions directly, and a body may fail halfway. None of
this reaches past the next body or reset: the listing holds what the last of
them alone would leave in a new listing, followed by what was added since.
-/

set_option autoImplicit false

namespace WasmAssembly

namespace Action

def added? : Action → Option Instruction
  | .add i => some i
  | _ => none

def lastStart? (actions : List Action) : Option Action :=
  actions.reverse.find? fun action => action.added?.isNone

def addedSince (actions : List Action) : List Instruction :=
  ((actions.reverse.takeWhile fun action => action.added?.isSome).filterMap added?).reverse

def listedAlone : Option Action → Listing
  | some (.assemble text line) => (Builder.listing.assemble text line #[]).2.state
  | _ => #[]

def outcomeAlone : Action → Outcome
  | .assemble text line => .ofResult .faulty (Builder.listing.assemble text line #[]).1
  | _ => .done

end Action

namespace Builder

variable {σ : Type} (b : Builder σ)

def finish (a : Assembly σ) (actions : List Action) : Assembly σ :=
  ((b.session a actions).getLast?.map Prod.snd).getD a

theorem finish_cons (a : Assembly σ) (action : Action) (actions : List Action) :
    b.finish a (action :: actions) = b.finish (b.act action a).2 actions := by
  simp [finish, session, List.getLast?_cons]

theorem finish_concat (a : Assembly σ) (actions : List Action) (action : Action) :
    b.finish a (actions ++ [action]) = (b.act action (b.finish a actions)).2 := by
  induction actions generalizing a with
  | nil => rfl
  | cons first actions ih => rw [List.cons_append, finish_cons, finish_cons, ih]

theorem session_getElem? (a : Assembly σ) (actions : List Action) (k : Nat) :
    (b.session a actions)[k]? =
      actions[k]?.map fun action => b.act action (b.finish a (actions.take k)) := by
  induction actions generalizing a k with
  | nil => rfl
  | cons first actions ih =>
    cases k with
    | zero => rfl
    | succ k => simp only [session, List.getElem?_cons_succ, List.take_succ_cons, finish_cons, ih]

theorem listing_assemble_forgets (text : String) (line : Nat) (old : Listing) :
    listing.assemble text line old = listing.assemble text line #[] := rfl

theorem listing_act_outcome (action : Action) (a : Assembly Listing) :
    (listing.act action a).1 = action.outcomeAlone := by
  cases action with
  | assemble text line =>
    simp only [act, listing_assemble_forgets text line a.state, Action.outcomeAlone]
  | reset => rfl
  | add i => simp [act, listing, Outcome.ofResult, Action.outcomeAlone]

theorem listing_act_state (action : Action) (a : Assembly Listing) :
    (listing.act action a).2.state = match action.added? with
      | some i => a.state.push i
      | none => Action.listedAlone (some action) := by
  cases action with
  | assemble text line =>
    simp only [act, listing_assemble_forgets text line a.state, Action.added?,
      Action.listedAlone]
  | reset => rfl
  | add i => simp [act, listing, Action.added?]

theorem listing_finish_state (actions : List Action) :
    (listing.finish ⟨#[], #[]⟩ actions).state =
      Action.listedAlone (Action.lastStart? actions) ++ (Action.addedSince actions).toArray := by
  induction actions using List.reverseRecOn with
  | nil => rfl
  | append_singleton actions action ih =>
    rw [finish_concat, listing_act_state]
    cases hadded : action.added? with
    | some i => simp [ih, Action.lastStart?, Action.addedSince, hadded]
    | none => simp [Action.lastStart?, Action.addedSince, hadded]

end Builder

/-- A session leaves what the last body or reset alone leaves in a new listing,
followed by the instructions that were added since, whatever came before. Each
action ends as it would on a new listing, and what it leaves is what the session
up to it leaves. -/
theorem session_keeps_no_history (actions : List Action) :
    (Builder.listing.finish ⟨#[], #[]⟩ actions).state =
        Action.listedAlone (Action.lastStart? actions) ++ (Action.addedSince actions).toArray ∧
      Builder.listing.session ⟨#[], #[]⟩ actions = actions.mapIdx fun k action =>
        (action.outcomeAlone, Builder.listing.finish ⟨#[], #[]⟩ (actions.take (k + 1))) := by
  refine ⟨Builder.listing_finish_state actions, ?_⟩
  apply List.ext_getElem?
  intro k
  rw [Builder.session_getElem?, List.getElem?_mapIdx]
  cases hk : actions[k]? with
  | none => rfl
  | some action =>
    have htake : actions.take (k + 1) = actions.take k ++ [action] := by
      rw [List.take_add_one, hk]
      rfl
    rw [htake, Builder.finish_concat, Option.map_some, Option.map_some,
      ← Builder.listing_act_outcome action (Builder.listing.finish ⟨#[], #[]⟩ (actions.take k))]

end WasmAssembly
