import Mathlib.Tactic.Common
import WasmAssembly.Command.Arguments

/-!
# What one argument does

There are three kinds of arguments: the double dash that ends the options, options,
and plain arguments. An option adds to what was read so far, and what it adds does
not depend on it. A plain argument goes to the option that waits for a value, or is
the input. After the double dash every argument is the input.
-/

set_option autoImplicit false

namespace WasmAssembly.Command

namespace Arguments

def Uses.plus (u more : Uses) : Uses := ⟨u.named + more.named, u.values ++ more.values⟩

theorem Uses.plus_none (u : Uses) : u.plus ⟨0, []⟩ = u := by
  simp [plus]

theorem Uses.plus_assoc (u more further : Uses) :
    (u.plus more).plus further = u.plus (more.plus further) := by
  simp [plus, Nat.add_assoc]

namespace Tally

def plus (t d : Tally) : Tally :=
  { t with
    line := t.line.plus d.line
    type := t.type.plus d.type
    verbosity := t.verbosity + d.verbosity
    grids := t.grids + d.grids
    awaiting := d.awaiting }

theorem plus_assoc (t d e : Tally) : (t.plus d).plus e = t.plus (d.plus e) := by
  simp [plus, Uses.plus_assoc, Nat.add_assoc]

theorem plus_start (t : Tally) : t.plus start = { t with awaiting := none } := by
  simp [plus, start, Uses.plus_none]

theorem exists_of_map_plus {t u : Tally} {r : Except Halt Tally} (h : r.map t.plus = .ok u) :
    ∃ d, r = .ok d ∧ u = t.plus d := by
  cases r with
  | error halt => cases h
  | ok d =>
    cases h
    exact ⟨d, rfl, rfl⟩

theorem raise_eq (t : Tally) (flag : Flag) : t.raise flag = (start.raise flag).map t.plus := by
  cases flag <;> simp [raise, Except.map, plus, start, Uses.plus_none]

theorem use_eq (t : Tally) (s : Setting) (attached : Option (List Char)) :
    t.use s attached = t.plus (start.use s attached) := by
  cases s <;> cases attached <;> simp [use, name, give, mapUses, plus, start, Uses.plus]

theorem letters_eq (t : Tally) {cs : List Char} (hne : cs ≠ []) :
    t.letters cs = (start.letters cs).map t.plus := by
  induction cs generalizing t with
  | nil => exact absurd rfl hne
  | cons c cs ih =>
    rw [letters, letters]
    cases ofLetter? c with
    | none => rfl
    | some name =>
      cases name with
      | setting s => exact congrArg Except.ok (t.use_eq s _)
      | flag flag =>
        simp only [raise_eq t flag]
        cases hd : start.raise flag with
        | error halt => rfl
        | ok d =>
          show (t.plus d).letters cs = (d.letters cs).map t.plus
          by_cases hnil : cs = []
          · subst hnil
            rfl
          · -- what the letters add to `d` they add to `d` within the whole
            rw [ih (t.plus d) hnil, ih d hnil]
            cases start.letters cs with
            | error halt => rfl
            | ok e => exact congrArg Except.ok (plus_assoc t d e)

theorem word_eq (t : Tally) (cs : List Char) : t.word cs = (start.word cs).map t.plus := by
  simp only [word]
  cases ofWord? (String.ofList (cs.takeWhile (· != '='))) with
  | none => rfl
  | some name =>
    cases name with
    | setting s => exact congrArg Except.ok (t.use_eq s _)
    | flag flag => exact t.raise_eq flag

theorem argument_literal {t : Tally} (h : t.literal = true) (arg : String) :
    t.argument arg = t.positional arg := by
  simp [argument, h]

theorem argument_dashes {t : Tally} (h : t.literal = false) :
    t.argument "--" = .ok { t with literal := true } := by
  simp [argument, h]

theorem argument_word {t : Tally} (h : t.literal = false) {arg : String} {c : Char}
    {cs : List Char} (harg : arg.toList = '-' :: '-' :: c :: cs) :
    t.argument arg = t.word ((c :: cs).dropWhile (· == '-')) := by
  simp [argument, h, harg]

theorem argument_letters {t : Tally} (h : t.literal = false) {arg : String} {c : Char}
    {cs : List Char} (harg : arg.toList = '-' :: c :: cs) (hc : c ≠ '-') :
    t.argument arg = t.letters (c :: cs) := by
  simp only [argument, h, harg, Bool.false_eq_true, if_false]
  split <;> simp_all

theorem argument_plain {t : Tally} (h : t.literal = false) {arg : String}
    (harg : ∀ c cs, arg.toList ≠ '-' :: c :: cs) : t.argument arg = t.plain arg := by
  simp only [argument, h, Bool.false_eq_true, if_false]
  split <;> simp_all

theorem positional_ok {t u : Tally} {arg : String} (h : t.positional arg = .ok u) :
    t.input = none ∧ u = { t with input := some arg } := by
  obtain ⟨input, line, type, verbosity, grids, awaiting, literal⟩ := t
  cases input with
  | none =>
    cases h
    exact ⟨rfl, rfl⟩
  | some input => cases h

theorem plain_of_none {t : Tally} (h : t.awaiting = none) (arg : String) :
    t.plain arg = t.positional arg := by
  rw [plain, h]

theorem plain_of_some {t : Tally} {s : Setting} (h : t.awaiting = some s) (arg : String) :
    t.plain arg = .ok (t.give s arg) := by
  rw [plain, h]

theorem give_eq (t : Tally) (s : Setting) (arg : String) :
    (t.give s arg).input = t.input ∧ (t.give s arg).literal = t.literal ∧
      (t.give s arg).awaiting = none := by
  cases s <;> exact ⟨rfl, rfl, rfl⟩

/-- What an argument does where options are read: it ends the options, adds to the tally, or is
plain. Which of the three, and what it adds, is a matter of the argument alone. -/
theorem argument_cases (arg : String) :
    arg = "--" ∨
      (∀ t : Tally, t.literal = false → t.argument arg = (start.argument arg).map t.plus) ∨
      ∀ t : Tally, t.literal = false → t.argument arg = t.plain arg := by
  by_cases hdash : ∃ c cs, arg.toList = '-' :: c :: cs
  · obtain ⟨c, cs, harg⟩ := hdash
    by_cases hc : c = '-'
    · subst hc
      cases cs with
      | nil => exact .inl (String.toList_inj.mp harg)
      | cons c cs =>
        refine .inr (.inl fun t ht => ?_)
        rw [argument_word ht harg, argument_word rfl harg]
        exact t.word_eq _
    · refine .inr (.inl fun t ht => ?_)
      rw [argument_letters ht harg hc, argument_letters rfl harg hc]
      exact t.letters_eq (List.cons_ne_nil c cs)
  · refine .inr (.inr fun t ht => argument_plain ht ?_)
    intro c cs harg
    exact hdash ⟨c, cs, harg⟩

theorem arguments_cons_ok {t u : Tally} {arg : String} {args : List String}
    (h : t.arguments (arg :: args) = .ok u) :
    ∃ v, t.argument arg = .ok v ∧ v.arguments args = .ok u := by
  rw [arguments] at h
  cases hv : t.argument arg with
  | error halt =>
    rw [hv] at h
    cases h
  | ok v =>
    rw [hv] at h
    exact ⟨v, rfl, h⟩

theorem arguments_append {t u : Tally} {before : List String} (h : t.arguments before = .ok u)
    (after : List String) : t.arguments (before ++ after) = u.arguments after := by
  induction before generalizing t with
  | nil =>
    cases h
    rfl
  | cons arg before ih =>
    obtain ⟨v, hv, hrest⟩ := arguments_cons_ok h
    rw [List.cons_append, arguments, hv]
    exact ih hrest

end Tally

end Arguments

theorem parse_eq_ok {args : List String} {o : Options} (h : parse args = .ok o) :
    ∃ t, Arguments.Tally.start.arguments args = .ok t ∧ t.options = .ok o := by
  rw [parse] at h
  cases ht : Arguments.Tally.start.arguments args with
  | error halt =>
    rw [ht] at h
    cases h
  | ok t =>
    rw [ht] at h
    cases ho : t.options with
    | error fault =>
      simp only [ho] at h
      cases h
    | ok o' =>
      simp only [ho] at h
      cases h
      exact ⟨t, rfl, ho⟩

end WasmAssembly.Command
