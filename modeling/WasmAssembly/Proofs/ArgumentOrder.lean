import Mathlib.Data.List.Induction
import WasmAssembly.Proofs.Verbosity

/-!
# The order of arguments

A command line is put together from items: flags, settings with their values, and
the input. Each item is read as what it is, whatever stands before it: once a setting
has its value it waits no longer, so an input right after a type is not taken for
another type. What was read in the end are the values of each setting in their order,
the number of each flag and the input, and where the items stood has no part in it.
-/

set_option autoImplicit false

namespace WasmAssembly.Command

structure Plain where
  text : String
  no_dash : text.toList.head? ≠ some '-'
  deriving DecidableEq

def Setting.option : Setting → String
  | .line => "-l"
  | .type => "-t"

/-- One piece of a command line. A setting and its value are not torn apart. -/
inductive Item where
  | verbose
  | grid
  | setting (s : Setting) (value : Plain)
  | input (path : Plain)
  deriving DecidableEq

namespace Item

def arguments : Item → List String
  | .verbose => ["-v"]
  | .grid => ["-d"]
  | .setting s value => [s.option, value.text]
  | .input path => [path.text]

def value? (s : Setting) : Item → Option Plain
  | .setting s' value => if s' = s then some value else none
  | _ => none

def input? : Item → Option Plain
  | .input path => some path
  | _ => none

end Item

/-- Items in a row: one input, at most one line, at most one grid, and any number of types and
of verbose flags. -/
structure CommandLine where
  items : List Item
  input : Plain
  line : Option Plain
  one_input : items.filterMap Item.input? = [input]
  line_once : items.filterMap (Item.value? .line) = line.toList
  grid_once : items.count .grid ≤ 1

namespace CommandLine

def arguments (l : CommandLine) : List String := l.items.flatMap Item.arguments

def types (l : CommandLine) : List Plain := l.items.filterMap (Item.value? .type)

def options (l : CommandLine) : Options :=
  ⟨l.input.text, l.line.map Plain.text, l.types.map Plain.text, l.items.count .verbose,
    decide (.grid ∈ l.items)⟩

end CommandLine

namespace Arguments.Tally

variable {t : Tally}

theorem arguments_singleton (t : Tally) (arg : String) : t.arguments [arg] = t.argument arg := by
  rw [arguments]
  cases t.argument arg <;> rfl

theorem argument_plainText (ht : t.literal = false) (p : Plain) :
    t.argument p.text = t.plain p.text := by
  apply argument_plain ht
  intro c cs hdash
  exact p.no_dash (by rw [hdash, List.head?_cons])

theorem argument_option (ht : t.literal = false) (s : Setting) :
    t.argument s.option = .ok { t.name s with awaiting := some s } := by
  cases s with
  | line =>
    have hletters : Setting.line.option.toList = ['-', 'l'] := by decide
    rw [argument_letters ht hletters (by decide)]
    rfl
  | type =>
    have hletters : Setting.type.option.toList = ['-', 't'] := by decide
    rw [argument_letters ht hletters (by decide)]
    rfl

theorem argument_grid (ht : t.literal = false) :
    t.argument "-d" = .ok { t with grids := t.grids + 1, awaiting := none } := by
  have hletters : "-d".toList = ['-', 'd'] := by decide
  rw [argument_letters ht hletters (by decide)]
  rfl

theorem arguments_setting (ht : t.literal = false) (s : Setting) (value : Plain) :
    t.arguments [s.option, value.text] = .ok ((t.name s).give s value.text) := by
  have hliteral : ({ t.name s with awaiting := some s } : Tally).literal = false := by
    cases s <;> exact ht
  simp only [arguments, argument_option ht, argument_plainText hliteral]
  cases s <;> rfl

theorem argument_input (ht : t.literal = false) (hawaiting : t.awaiting = none)
    (hinput : t.input = none) (path : Plain) :
    t.argument path.text = .ok { t with input := some path.text } := by
  rw [argument_plainText ht, plain_of_none hawaiting, positional, hinput]

def usesIn (s : Setting) (items : List Item) : Uses :=
  let values := (items.filterMap (Item.value? s)).map Plain.text
  ⟨values.length, values⟩

theorem usesIn_has_values {s : Setting} {items : List Item} :
    ¬ (0 < (usesIn s items).named ∧ (usesIn s items).values = []) := by
  rintro ⟨hnamed, hvalues⟩
  have hlength : (usesIn s items).named = (usesIn s items).values.length := rfl
  rw [hlength, hvalues] at hnamed
  exact absurd hnamed (Nat.lt_irrefl 0)

def ofItems (items : List Item) : Tally :=
  ⟨(items.filterMap Item.input?).head?.map Plain.text, usesIn .line items, usesIn .type items,
    items.count .verbose, items.count .grid, none, false⟩

theorem arguments_item (before : List Item) (item : Item)
    (h : ((before ++ [item]).filterMap Item.input?).length ≤ 1) :
    (ofItems before).arguments item.arguments = .ok (ofItems (before ++ [item])) := by
  cases item with
  | verbose =>
    have hflag : (ofItems before).argument "-v" = _ := argument_verboseFlags rfl 0
    rw [Item.arguments, arguments_singleton, hflag]
    simp [ofItems, louder, usesIn, Item.input?, Item.value?]
  | grid =>
    rw [Item.arguments, arguments_singleton, argument_grid rfl]
    simp [ofItems, usesIn, Item.input?, Item.value?]
  | setting s value =>
    rw [Item.arguments, arguments_setting rfl]
    cases s <;> simp [ofItems, usesIn, name, give, mapUses, Item.input?, Item.value?]
  | input path =>
    -- this is the one input that there may be, so none stands before it
    have hfree : before.filterMap Item.input? = [] := by
      simpa [Item.input?] using h
    rw [Item.arguments, arguments_singleton, argument_input rfl rfl (by simp [ofItems, hfree])]
    simp [ofItems, usesIn, hfree, Item.input?, Item.value?]

theorem arguments_items (items : List Item) (h : (items.filterMap Item.input?).length ≤ 1) :
    start.arguments (items.flatMap Item.arguments) = .ok (ofItems items) := by
  induction items using List.reverseRecOn with
  | nil => rfl
  | append_singleton items item ih =>
    have hbefore : (items.filterMap Item.input?).length ≤ 1 := by
      rw [List.filterMap_append, List.length_append] at h
      omega
    rw [List.flatMap_append, List.flatMap_singleton, arguments_append (ih hbefore),
      arguments_item items item h]

end Arguments.Tally

open Arguments.Tally

namespace CommandLine

theorem usesIn_line (l : CommandLine) :
    usesIn .line l.items = ⟨l.line.toList.length, l.line.toList.map Plain.text⟩ := by
  simp [usesIn, l.line_once]

theorem count_grid (l : CommandLine) :
    (l.items.count .grid == 1) = decide (Item.grid ∈ l.items) := by
  have hpos : 0 < l.items.count .grid ↔ Item.grid ∈ l.items := List.count_pos_iff
  have honce := l.grid_once
  rw [Bool.eq_iff_iff, beq_iff_eq, decide_eq_true_iff, ← hpos]
  omega

theorem options_ofItems (l : CommandLine) : (ofItems l.items).options = .ok l.options := by
  have hline : ¬ 1 < (usesIn .line l.items).named := by
    rw [usesIn_line]
    cases l.line <;> simp
  have hvalue : (usesIn .line l.items).values.head? = l.line.map Plain.text := by
    rw [usesIn_line]
    cases l.line <;> rfl
  have hgrid : ¬ 1 < l.items.count .grid := Nat.not_lt.mpr l.grid_once
  simp only [Arguments.Tally.options, ofItems, l.one_input, List.head?_cons, Option.map_some,
    if_neg usesIn_has_values, if_neg hline, if_neg hgrid, hvalue, l.count_grid]
  rfl

theorem parse_arguments (l : CommandLine) : parse l.arguments = .ok l.options := by
  have hread : Arguments.Tally.start.arguments l.arguments = .ok (ofItems l.items) :=
    arguments_items l.items (by simp [l.one_input])
  rw [parse, hread]
  simp only [options_ofItems]
  rfl

theorem options_eq_of_perm {l l' : CommandLine} (hperm : l.items.Perm l'.items)
    (htypes : l.types = l'.types) : l.options = l'.options := by
  have hinput : l.input = l'.input := by
    have hinputs := hperm.filterMap Item.input?
    rw [l.one_input, l'.one_input] at hinputs
    exact List.singleton_perm_singleton.mp hinputs
  have hline : l.line = l'.line := by
    have hlines := hperm.filterMap (Item.value? .line)
    rw [l.line_once, l'.line_once] at hlines
    refine Option.ext fun value => ?_
    simpa using hlines.mem_iff (a := value)
  have hgrid : decide (Item.grid ∈ l.items) = decide (Item.grid ∈ l'.items) :=
    decide_eq_decide.mpr hperm.mem_iff
  rw [options, options, hinput, hline, htypes, hperm.count_eq, hgrid]

end CommandLine

/-- Two command lines with the same items, and with the types in the same order, are both accepted.
They ask for the same: the one input, the line if there is one, all the types in their order
and nothing else among them, the verbosity and the grid. So both runs end with the same exit
status and output and show the same records of the log. -/
theorem run_ignores_argument_order (l l' : CommandLine)
    (files : String → Except ReadFault ByteArray) (hperm : l.items.Perm l'.items)
    (htypes : l.types = l'.types) :
    let o : Options := ⟨l.input.text, l.line.map Plain.text, l.types.map Plain.text,
      l.items.count .verbose, decide (.grid ∈ l.items)⟩
    let levels : List Log.Level := [.error, .warn, .info, .debug]
    let r := report o (files l.input.text)
    let records := r.log.filter fun record => record.level ∈ levels.take (o.verbosity + 1)
    parse l.arguments = .ok o ∧ parse l'.arguments = .ok o ∧
      run l.arguments files = .ok ⟨r.exit, r.stdout, lines (records.map Log.Record.text)⟩ ∧
      run l'.arguments files = .ok ⟨r.exit, r.stdout, lines (records.map Log.Record.text)⟩ := by
  intro o levels r records
  have h : parse l.arguments = .ok o := l.parse_arguments
  have h' : parse l'.arguments = .ok o := by
    rw [l'.parse_arguments, ← CommandLine.options_eq_of_perm hperm htypes]
    rfl
  exact ⟨h, h', run_eq_of_parse h files, run_eq_of_parse h' files⟩

/-- The input stands after a type in both, once with further items behind it. One type has an
empty name. -/
theorem run_ignores_argument_order_input_after_type :
    let files : String → Except ReadFault ByteArray := fun _ => .ok "return".toUTF8
    let f : Plain := ⟨"f", by decide⟩
    let seven : Plain := ⟨"7", by decide⟩
    let unnamed : Plain := ⟨"", by decide⟩
    let a : Plain := ⟨"A", by decide⟩
    let l : CommandLine :=
      ⟨[.verbose, .setting .type unnamed, .input f, .setting .line seven, .grid, .setting .type a,
        .verbose], f, some seven, rfl, rfl, by decide⟩
    let l' : CommandLine :=
      ⟨[.grid, .setting .line seven, .setting .type unnamed, .verbose, .verbose, .setting .type a,
        .input f], f, some seven, rfl, rfl, by decide⟩
    let o : Options := ⟨"f", some "7", ["", "A"], 2, true⟩
    l.items.Perm l'.items ∧ l.types = l'.types ∧
      parse ["-v", "-t", "", "f", "-l", "7", "-d", "-t", "A", "-v"] = .ok o ∧
      parse ["-d", "-l", "7", "-t", "", "-v", "-v", "-t", "A", "f"] = .ok o ∧
      run l.arguments files = run l'.arguments files := by
  intro files f seven unnamed a l l' o
  have hperm : l.items.Perm l'.items := by decide
  obtain ⟨h, h', hrun, hrun'⟩ := run_ignores_argument_order l l' files hperm rfl
  exact ⟨hperm, rfl, h, h', hrun.trans hrun'.symm⟩

end WasmAssembly.Command
