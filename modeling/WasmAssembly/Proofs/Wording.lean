import Mathlib
import WasmAssembly.Proofs.Grammar
import WasmAssembly.Proofs.Lists
import WasmAssembly.Proofs.Numeral

/-!
# What a message tells

The message of a diagnostic is put together from a number, fixed phrases and a
token that may hold anything, quotes and colons included. Still nothing is lost:
the line ends at the first character that is no digit, the first letter after it
tells the kind of the fault, and the reason why a token is no integer is told by
the last letters, whatever stands before them.
-/

set_option autoImplicit false

namespace WasmAssembly

theorem digits_append_inj {xs ys rest rest' : List Char} (hx : ∀ c ∈ xs, c.isDigit = true)
    (hy : ∀ c ∈ ys, c.isDigit = true) (h : xs ++ ':' :: rest = ys ++ ':' :: rest') :
    xs = ys ∧ rest = rest' := by
  have hcolon : Char.isDigit ':' = false := by decide
  obtain ⟨hdigits, hcons⟩ := class_append_inj hx hy (by simp [hcolon]) (by simp [hcolon]) h
  exact ⟨hdigits, (List.cons.inj hcons).2⟩

theorem Diagnostic.line_fault_of_message {d d' : Diagnostic} (h : d.message = d'.message) :
    d.line = d'.line ∧ d.fault.message = d'.fault.message := by
  have hchars : d.line.repr.toList ++ ':' :: ' ' :: d.fault.message.toList =
      d'.line.repr.toList ++ ':' :: ' ' :: d'.fault.message.toList := by
    simpa [message] using congrArg String.toList h
  obtain ⟨hline, hrest⟩ := digits_append_inj (fun _ => Numeral.isDigit_of_mem_repr)
    (fun _ => Numeral.isDigit_of_mem_repr) hchars
  exact ⟨Nat.repr_inj.mp (String.toList_inj.mp hline),
    String.toList_inj.mp (List.cons.inj hrest).2⟩

namespace NumeralFault

/-- The last letters of a message, from its end. So many are enough to tell the four reasons
apart: the two about an empty and a bad string share seven of them, the two about the range
twenty-two. -/
def ending (message : List Char) : List Char := message.reverse.take 23

theorem eq_of_ending {cause cause' : NumeralFault}
    (h : ending cause.message.toList = ending cause'.message.toList) : cause = cause' := by
  let all := [empty, invalidDigit, tooLarge, tooSmall]
  have hall : ∀ cause, cause ∈ all := by
    intro cause
    cases cause <;> decide
  have key : ∀ c ∈ all, ∀ c' ∈ all,
      ending c.message.toList = ending c'.message.toList → c = c' := by
    decide +kernel
  exact key cause (hall cause) cause' (hall cause') h

theorem ending_append (before : List Char) (cause : NumeralFault) :
    ending (before ++ cause.message.toList) = ending cause.message.toList := by
  have hlong : 23 ≤ cause.message.toList.reverse.length := by
    cases cause <;> decide +kernel
  rw [ending, List.reverse_append, List.take_append_of_le_length hlong, ending]

theorem append_message_inj {before before' : List Char} {cause cause' : NumeralFault}
    (h : before ++ cause.message.toList = before' ++ cause'.message.toList) :
    before = before' ∧ cause = cause' := by
  have hending := congrArg ending h
  rw [ending_append, ending_append] at hending
  obtain rfl := eq_of_ending hending
  exact ⟨List.append_cancel_right h, rfl⟩

end NumeralFault

namespace Fault

theorem message_unknownToken (token : String) :
    (unknownToken token).message = "unknown WASM token: " ++ token := rfl

theorem message_missingToken (after : String) :
    (missingToken after).message = "missing token in wasm text format after token: " ++ after := rfl

theorem message_invalidInteger (token : String) (cause : NumeralFault) :
    (invalidInteger token cause).message =
      "invalid integer operand `" ++ token ++ "`: " ++ cause.message := rfl

def initial? : Fault → Option Char
  | .unknownToken _ => some 'u'
  | .missingToken _ => some 'm'
  | .invalidInteger _ _ => some 'i'
  | .build _ => none

theorem head?_message {f : Fault} (hf : ∀ cause, f ≠ .build cause) :
    f.message.toList.head? = f.initial? := by
  cases f with
  | unknownToken token =>
    rw [message_unknownToken, String.toList_append, List.head?_append]
    rfl
  | missingToken after =>
    rw [message_missingToken, String.toList_append, List.head?_append]
    rfl
  | invalidInteger token cause =>
    rw [message_invalidInteger, String.append_assoc, String.append_assoc, String.toList_append,
      List.head?_append]
    rfl
  | build cause => exact absurd rfl (hf cause)

theorem invalidInteger_of_message {token token' : String} {cause cause' : NumeralFault}
    (h : (invalidInteger token cause).message = (invalidInteger token' cause').message) :
    token = token' ∧ cause = cause' := by
  have hchars := congrArg String.toList h
  simp only [message_invalidInteger, String.toList_append] at hchars
  obtain ⟨hbefore, rfl⟩ := NumeralFault.append_message_inj hchars
  have hquoted := List.append_cancel_right hbefore
  exact ⟨String.toList_inj.mp (List.append_cancel_left hquoted), rfl⟩

theorem message_injective {f g : Fault} (hf : ∀ cause, f ≠ .build cause)
    (hg : ∀ cause, g ≠ .build cause) (h : f.message = g.message) : f = g := by
  -- faults of different kinds differ in the first letter
  have hinitial : f.initial? = g.initial? := by
    rw [← head?_message hf, ← head?_message hg, h]
  cases f with
  | build cause => exact absurd rfl (hf cause)
  | unknownToken token =>
    cases g with
    | unknownToken token' => rw [(String.append_right_inj _).mp h]
    | _ => simp [initial?] at hinitial
  | missingToken after =>
    cases g with
    | missingToken after' => rw [(String.append_right_inj _).mp h]
    | _ => simp [initial?] at hinitial
  | invalidInteger token cause =>
    cases g with
    | invalidInteger token' cause' =>
      obtain ⟨rfl, rfl⟩ := invalidInteger_of_message h
      rfl
    | _ => simp [initial?] at hinitial

end Fault

theorem Diagnostic.message_injective {d d' : Diagnostic} (hd : ∀ cause, d.fault ≠ .build cause)
    (hd' : ∀ cause, d'.fault ≠ .build cause) (h : d.message = d'.message) : d = d' := by
  obtain ⟨hline, hmessage⟩ := line_fault_of_message h
  have hfault := Fault.message_injective hd hd' hmessage
  obtain ⟨line, fault⟩ := d
  obtain rfl : line = d'.line := hline
  obtain rfl : fault = d'.fault := hfault
  rfl

/-- Two bodies that fail with one message have one and the same diagnostic: the same line, the
same kind of fault, the same token and the same reason why it is no integer. -/
theorem listing_assemble_message_identifies (text text' : String) (line line' : Nat)
    (old old' : Listing) (d d' : Diagnostic)
    (h : (Builder.listing.assemble text line old).1 = .error d)
    (h' : (Builder.listing.assemble text' line' old').1 = .error d')
    (hmessage : d.message = d'.message) : d = d' ∧ line = line' := by
  obtain ⟨hline, _, _, -, hobstacle⟩ := exists_obstacle_of_error h
  obtain ⟨hline', _, _, -, hobstacle'⟩ := exists_obstacle_of_error h'
  have heq : d = d' := Diagnostic.message_injective hobstacle.ne_build hobstacle'.ne_build hmessage
  exact ⟨heq, by rw [← hline, ← hline', heq]⟩

theorem listing_assemble_message_identifies_quoted :
    ∃ d d' : Diagnostic,
      (Builder.listing.assemble "local.get 9`:number" 7 #[]).1 = .error d ∧
      (Builder.listing.assemble "return\ti32.const 9`:number return" 7 #[]).1 = .error d' ∧
      d.message =
        "line 7: invalid integer operand `9`:number`: invalid digit found in string" ∧
      d.message = d'.message ∧ d = d' := by
  let d : Diagnostic := ⟨7, .invalidInteger "9`:number" .invalidDigit⟩
  have h : (Builder.listing.assemble "local.get 9`:number" 7 #[]).1 = .error d := by
    decide +kernel
  have h' : (Builder.listing.assemble "return\ti32.const 9`:number return" 7 #[]).1 =
      .error d := by
    decide +kernel
  exact ⟨d, d, h, h', by decide +kernel, rfl,
    (listing_assemble_message_identifies _ _ 7 7 _ _ d d h h' rfl).1⟩

end WasmAssembly
