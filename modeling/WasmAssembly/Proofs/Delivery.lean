import Mathlib.Data.List.Forall2
import Mathlib.Data.List.Induction
import Mathlib.Tactic.Common
import WasmAssembly.Token.Cursor

/-!
# What a cursor hands out

However a cursor is asked, it hands out its tokens in their order and each of
them once, and its position is the number of tokens handed out. A token that is
no integer is handed out as well where an integer was asked for. At the end
nothing moves the cursor any more, and the token that it then names is the last
of the list.
-/

set_option autoImplicit false

namespace WasmAssembly.Cursor

def Request.takes : Request → Bool
  | .next | .operand | .intOperand => true
  | .peek | .length => false

def Reply.delivers : Reply → Bool
  | .next found => found.isSome
  | .operand _ | .intOperand _ | .faulty (.invalidInteger ..) => true
  | .peek _ | .length .. | .faulty _ => false

/-- The reply to the request hands out this token, which has this index. -/
inductive HandsOut : Request × Reply → String × Nat → Prop where
  | next (token : String) (index : Nat) :
      HandsOut (.next, .next (some (index, token))) (token, index)
  | operand (token : String) (index : Nat) : HandsOut (.operand, .operand token) (token, index)
  | integer {token : String} {value : Int32} (reads : Numeral.readInt32 token = .ok value)
      (index : Nat) : HandsOut (.intOperand, .intOperand value) (token, index)
  | noInteger {token : String} {cause : NumeralFault}
      (fails : Numeral.readInt32 token = .error cause) (index : Nat) :
      HandsOut (.intOperand, .faulty (.invalidInteger token cause)) (token, index)

def after : Cursor → List Request → Cursor
  | c, [] => c
  | c, request :: requests => (c.step request).2.after requests

def deliveries (c : Cursor) (requests : List Request) : List (Request × Reply) :=
  (requests.zip ((c.run requests).map Prod.fst)).filter fun exchange => exchange.2.delivers

theorem after_append (c : Cursor) (requests rest : List Request) :
    c.after (requests ++ rest) = (c.after requests).after rest := by
  induction requests generalizing c with
  | nil => rfl
  | cons request requests ih => exact ih _

theorem run_append (c : Cursor) (requests rest : List Request) :
    c.run (requests ++ rest) = c.run requests ++ (c.after requests).run rest := by
  induction requests generalizing c with
  | nil => rfl
  | cons request requests ih => exact congrArg (_ :: ·) (ih _)

theorem length_run (c : Cursor) (requests : List Request) :
    (c.run requests).length = requests.length := by
  induction requests generalizing c with
  | nil => rfl
  | cons request requests ih => exact congrArg (· + 1) (ih _)

theorem deliveries_concat (c : Cursor) (requests : List Request) (request : Request) :
    c.deliveries (requests ++ [request]) =
      c.deliveries requests ++
        if ((c.after requests).step request).1.delivers then
          [(request, ((c.after requests).step request).1)]
        else [] := by
  have hlen : requests.length = ((c.run requests).map Prod.fst).length := by
    rw [List.length_map, length_run]
  rw [deliveries, run_append, List.map_append, List.zip_append hlen, List.filter_append]
  congr 1
  exact List.filter_cons

/-- The cursor over `tokens` that has passed the first `position` of them. The token
just before it is looked up, and is empty where there is none. -/
def standing (tokens : List String) (position : Nat) : Cursor :=
  ⟨position, (if position = 0 then none else tokens[position - 1]?).getD "",
    tokens.drop position⟩

variable {tokens : List String} {position : Nat} {request : Request}

theorem length_standing (h : position ≤ tokens.length) :
    (standing tokens position).length = tokens.length := by
  simp only [standing, length, List.length_drop]
  omega

theorem isEmpty_standing (h : position ≤ tokens.length) :
    (standing tokens position).isEmpty = tokens.isEmpty := by
  cases tokens with
  | nil => simpa [standing, isEmpty] using h
  | cons token tokens => cases position <;> simp [standing, isEmpty]

theorem peek_standing (tokens : List String) (position : Nat) :
    (standing tokens position).peek = tokens[position]? := by
  rw [peek, standing, List.head?_drop]

theorem next_standing (h : position < tokens.length) :
    (standing tokens position).next =
      (some (position, tokens[position]), standing tokens (position + 1)) := by
  rw [standing, next, List.drop_eq_getElem_cons h]
  simp [standing, h]

theorem next_standing_end (tokens : List String) :
    (standing tokens tokens.length).next = (none, standing tokens tokens.length) := by
  simp [standing, next]

theorem previous_standing_end (tokens : List String) :
    (standing tokens tokens.length).previous = tokens.getLast?.getD "" := by
  rw [standing, List.getLast?_eq_getElem?]
  by_cases h : tokens.length = 0
  · simp [List.length_eq_zero_iff.mp h]
  · rw [if_neg h]

theorem step_of_not_takes (c : Cursor) (h : request.takes = false) :
    (c.step request).2 = c ∧ (c.step request).1.delivers = false := by
  cases request <;> first | exact ⟨rfl, rfl⟩ | cases h

theorem step_standing (h : position < tokens.length) (ht : request.takes = true) :
    ((standing tokens position).step request).2 = standing tokens (position + 1) ∧
      ((standing tokens position).step request).1.delivers = true ∧
      HandsOut (request, ((standing tokens position).step request).1)
        (tokens[position], position) := by
  have hn := next_standing h
  cases request with
  | next =>
    rw [step, hn]
    exact ⟨rfl, rfl, .next _ _⟩
  | operand =>
    simp only [step, operand, hn]
    exact ⟨trivial, rfl, .operand _ _⟩
  | intOperand =>
    cases hr : Numeral.readInt32 tokens[position] with
    | ok value =>
      simp only [step, intOperand, operand, hn, hr]
      exact ⟨trivial, rfl, .integer hr _⟩
    | error cause =>
      simp only [step, intOperand, operand, hn, hr]
      exact ⟨trivial, rfl, .noInteger hr _⟩
  | peek => cases ht
  | length => cases ht

theorem step_standing_end (ht : request.takes = true) :
    (standing tokens tokens.length).step request =
      (if request = .next then .next none
        else .faulty (.missingToken (tokens.getLast?.getD "")), standing tokens tokens.length) := by
  have hn := next_standing_end tokens
  have hp := previous_standing_end tokens
  cases request with
  | next =>
    rw [step, hn]
    rfl
  | operand => simp [step, operand, hn, hp]
  | intOperand => simp [step, intOperand, operand, hn, hp]
  | peek => cases ht
  | length => cases ht

theorem step_standing_stays (tokens : List String) (ht : request.takes = true) :
    ((standing tokens tokens.length).step request).2 = standing tokens tokens.length ∧
      ((standing tokens tokens.length).step request).1.delivers = false := by
  rw [step_standing_end ht]
  refine ⟨rfl, ?_⟩
  by_cases hn : request = .next
  · rw [if_pos hn]
    rfl
  · rw [if_neg hn]
    rfl

theorem next_none_iff (h : position ≤ tokens.length) :
    ((standing tokens position).step .next).1 = .next none ↔ position = tokens.length := by
  constructor
  · intro hnone
    by_contra hne
    have hlt : position < tokens.length := by omega
    obtain ⟨-, hsome, -⟩ := step_standing hlt (rfl : Request.takes .next = true)
    simp [hnone, Reply.delivers] at hsome
  · rintro rfl
    rw [step_standing_end rfl, if_pos rfl]

theorem missing_iff (h : position ≤ tokens.length) (ht : request.takes = true)
    (hn : request ≠ .next) (previous : String) :
    ((standing tokens position).step request).1 = .faulty (.missingToken previous) ↔
      position = tokens.length ∧ previous = tokens.getLast?.getD "" := by
  rcases Nat.lt_or_eq_of_le h with hlt | rfl
  · obtain ⟨-, hsome, -⟩ := step_standing hlt ht
    constructor
    · intro hmissing
      simp [hmissing, Reply.delivers] at hsome
    · rintro ⟨rfl, -⟩
      exact absurd hlt (Nat.lt_irrefl _)
  · rw [step_standing_end ht, if_neg hn]
    simp [eq_comm]

theorem exists_standing (tokens : List String) (requests : List Request) :
    ∃ position, position ≤ tokens.length ∧
      (ofTokens tokens).after requests = standing tokens position ∧
      List.Forall₂ HandsOut ((ofTokens tokens).deliveries requests)
        (tokens.take position).zipIdx := by
  induction requests using List.reverseRecOn with
  | nil => exact ⟨0, Nat.zero_le _, rfl, .nil⟩
  | append_singleton requests request ih =>
    obtain ⟨position, hle, hafter, hgiven⟩ := ih
    have hlast : (ofTokens tokens).after (requests ++ [request]) =
        ((standing tokens position).step request).2 := by
      rw [after_append, hafter]
      rfl
    rw [hlast, deliveries_concat, hafter]
    cases ht : request.takes with
    | false =>
      obtain ⟨hstay, hnone⟩ := step_of_not_takes (standing tokens position) ht
      rw [hstay, if_neg (by simp [hnone]), List.append_nil]
      exact ⟨position, hle, rfl, hgiven⟩
    | true =>
      rcases Nat.lt_or_eq_of_le hle with hlt | rfl
      · -- one token more, at the index that is reached
        obtain ⟨hmove, hsome, hout⟩ := step_standing hlt ht
        rw [hmove, if_pos hsome]
        refine ⟨position + 1, hlt, rfl, ?_⟩
        rw [List.take_succ_eq_append_getElem hlt, List.zipIdx_append, List.length_take,
          Nat.min_eq_left hle, Nat.zero_add]
        exact List.rel_append hgiven (.cons hout .nil)
      · obtain ⟨hstay, hnone⟩ := step_standing_stays tokens ht
        rw [hstay, if_neg (by simp [hnone]), List.append_nil]
        exact ⟨tokens.length, hle, rfl, hgiven⟩

/-- Whatever was asked of a cursor before, it stands at a place of its token list. The
replies that came with a token hand out the tokens before that place, in order and each
at its index, and the position is their number. To look ahead shows the token that the
next request for one hands out, and moves nothing. Such a request finds no token exactly
at the end; there it leaves the cursor as it is and names the last token of the list. -/
theorem run_hands_out_in_order (tokens : List String) (requests : List Request) :
    let start := ofTokens tokens
    let c := start.after requests
    (∀ (request : Request) (later : List Request),
        start.run (requests ++ request :: later) =
          start.run requests ++
            ((c.step request).1, (c.step request).2.position) :: (c.step request).2.run later) ∧
      (c.step .length).1 = .length tokens.length tokens.isEmpty ∧
      c.position ≤ tokens.length ∧
      c.position = (start.deliveries requests).length ∧
      List.Forall₂ HandsOut (start.deliveries requests) (tokens.take c.position).zipIdx ∧
      (c.step .peek).1 = .peek tokens[c.position]? ∧
      (∀ request : Request, request.takes = false → (c.step request).2 = c) ∧
      (∀ request : Request, request.takes = true →
        (∀ token, tokens[c.position]? = some token →
          HandsOut (request, (c.step request).1) (token, c.position) ∧
          (c.step request).2.position = c.position + 1) ∧
        (c.position = tokens.length → (c.step request).2 = c)) ∧
      ((c.step .next).1 = .next none ↔ c.position = tokens.length) ∧
      ∀ (request : Request) (previous : String), request = .operand ∨ request = .intOperand →
        ((c.step request).1 = .faulty (.missingToken previous) ↔
          c.position = tokens.length ∧ previous = tokens.getLast?.getD "") := by
  intro start c
  obtain ⟨position, hle, hafter, hgiven⟩ := exists_standing tokens requests
  have hrun := fun request later => run_append start requests (request :: later)
  have hcount : position = (start.deliveries requests).length := by
    rw [hgiven.length_eq, List.length_zipIdx, List.length_take, Nat.min_eq_left hle]
  have hc : c = standing tokens position := hafter
  clear_value c
  subst hc
  refine ⟨?_, ?_, hle, hcount, hgiven, ?_, ?_, ?_, next_none_iff hle, ?_⟩
  · intro request later
    rw [hrun, hafter]
    rfl
  · rw [step, length_standing hle, isEmpty_standing hle]
  · rw [step, peek_standing]
    rfl
  · exact fun request ht => (step_of_not_takes _ ht).1
  · intro request ht
    refine ⟨?_, ?_⟩
    · intro token htoken
      obtain ⟨hlt, rfl⟩ : ∃ h : position < tokens.length, tokens[position] = token :=
        List.getElem?_eq_some_iff.mp htoken
      obtain ⟨hmove, -, hout⟩ := step_standing hlt ht
      exact ⟨hout, by rw [hmove]; rfl⟩
    · intro hend
      obtain rfl : position = tokens.length := hend
      exact (step_standing_stays tokens ht).1
  · rintro request previous (rfl | rfl)
    · exact missing_iff hle rfl (by decide) previous
    · exact missing_iff hle rfl (by decide) previous

/-- A token that is no integer is passed all the same. Then the list is at its end, and
asking again and again names its last token, which is empty. -/
theorem run_hands_out_in_order_past_end :
    let c := (ofTokens ["local.get", "x", ""]).after
      [.next, .peek, .intOperand, .intOperand, .next, .operand]
    c.position = 3 ∧
      ((ofTokens ["local.get", "x", ""]).deliveries
        [.next, .peek, .intOperand, .intOperand, .next, .operand]).length = 3 ∧
      (c.step .intOperand).1 = .faulty (.missingToken "") ∧ (c.step .intOperand).2 = c := by
  intro c
  obtain ⟨-, -, -, hcount, -, -, -, htaking, -, hmissing⟩ :=
    run_hands_out_in_order ["local.get", "x", ""]
      [.next, .peek, .intOperand, .intOperand, .next, .operand]
  have hend : c.position = 3 := by decide +kernel
  exact ⟨hend, hcount.symm.trans hend, (hmissing .intOperand "" (.inr rfl)).mpr ⟨hend, rfl⟩,
    (htaking .intOperand rfl).2 hend⟩

end WasmAssembly.Cursor
