import Mathlib
import WasmAssembly.Proofs.Diagnosis
import WasmAssembly.Proofs.Layout
import WasmAssembly.Proofs.Printing
import WasmAssembly.Proofs.Spacing

/-!
# The instruction grid

The grid of a run shows what its plain listing shows, and for each instruction
also its number and where it comes from. The columns are filled up with blanks
that no cell ends in, so a row can be taken apart again, and the whole body can be
read off the grid.
-/

set_option autoImplicit false

namespace WasmAssembly.Command

def hexDigits : List Char :=
  ['0', '1', '2', '3', '4', '5', '6', '7', '8', '9', 'A', 'B', 'C', 'D', 'E', 'F']

def hexValue (digits : List Char) : Nat :=
  digits.foldl (fun value c => 16 * value + hexDigits.idxOf c) 0

/-- Hexadecimal digits of a number in capitals: four, or more if it needs more. -/
structure IsHex (n : Nat) (digits : List Char) : Prop where
  mem : ∀ c ∈ digits, c ∈ hexDigits
  value : hexValue digits = n
  long : 4 ≤ digits.length
  needed : 4 < digits.length → digits.head? ≠ some '0'

def upperDigits (n : Nat) : List Char := (Nat.toDigits 16 n).map Char.toUpper

theorem toUpper_digitChar :
    ∀ d < 16, d.digitChar.toUpper ∈ hexDigits ∧ hexDigits.idxOf d.digitChar.toUpper = d ∧
      (0 < d → d.digitChar.toUpper ≠ '0') := by
  decide

theorem hexValue_concat (digits : List Char) (c : Char) :
    hexValue (digits ++ [c]) = 16 * hexValue digits + hexDigits.idxOf c := by
  simp [hexValue]

theorem upperDigits_of_lt {n : Nat} (h : n < 16) : upperDigits n = [n.digitChar.toUpper] := by
  rw [upperDigits, Nat.toDigits_of_lt_base h]
  rfl

theorem upperDigits_of_le {n : Nat} (h : 16 ≤ n) :
    upperDigits n = upperDigits (n / 16) ++ [(n % 16).digitChar.toUpper] := by
  rw [upperDigits, Nat.toDigits_of_base_le (by decide) h, List.map_append]
  rfl

theorem upperDigits_spec (n : Nat) :
    (∀ c ∈ upperDigits n, c ∈ hexDigits) ∧ hexValue (upperDigits n) = n ∧
      (0 < n → (upperDigits n).head? ≠ some '0') := by
  induction n using Nat.strongRecOn with
  | ind n ih =>
    by_cases hlt : n < 16
    · obtain ⟨hmem, hvalue, hne⟩ := toUpper_digitChar n hlt
      rw [upperDigits_of_lt hlt]
      refine ⟨by simpa using hmem, ?_, fun hpos => by simpa using hne hpos⟩
      simp [hexValue, hvalue]
    · obtain ⟨hmem, hvalue, hhead⟩ := ih (n / 16) (by omega)
      obtain ⟨hlast, hdigit, -⟩ := toUpper_digitChar (n % 16) (by omega)
      rw [upperDigits_of_le (by omega)]
      refine ⟨?_, ?_, ?_⟩
      · intro c hc
        rcases List.mem_append.mp hc with hc | hc
        · exact hmem c hc
        · rw [List.mem_singleton.mp hc]
          exact hlast
      · rw [hexValue_concat, hvalue, hdigit]
        omega
      · intro _
        have hsome : upperDigits (n / 16) ≠ [] := by simp [upperDigits]
        rw [List.head?_append_of_ne_nil _ hsome]
        exact hhead (by omega)

theorem hexValue_zeros (k : Nat) (digits : List Char) :
    hexValue (List.replicate k '0' ++ digits) = hexValue digits := by
  induction k with
  | zero => rfl
  | succ k ih => exact ih

theorem exists_isHex_address (n : Nat) :
    ∃ digits, IsHex n digits ∧ address n = "0x" ++ String.ofList digits := by
  obtain ⟨hmem, hvalue, hhead⟩ := upperDigits_spec n
  refine ⟨List.replicate (4 - (upperDigits n).length) '0' ++ upperDigits n, ⟨?_, ?_, ?_, ?_⟩, rfl⟩
  · intro c hc
    rcases List.mem_append.mp hc with hc | hc
    · rw [List.eq_of_mem_replicate hc]
      decide
    · exact hmem c hc
  · rw [hexValue_zeros, hvalue]
  · rw [List.length_append, List.length_replicate]
    omega
  · intro hlong
    rw [List.length_append, List.length_replicate] at hlong
    have hfour : 4 - (upperDigits n).length = 0 := by omega
    have hpos : 0 < n := by
      by_contra hzero
      obtain rfl : n = 0 := by omega
      rw [upperDigits_of_lt (by decide), List.length_singleton] at hlong
      omega
    rw [hfour]
    exact hhead hpos

def origin (i : Instruction) : String := i.line.repr ++ ":" ++ i.codePos.repr

theorem undivided_repr (n : Nat) : Undivided n.repr :=
  fun _ hc => notMem_delimiters_of_isDigit (Numeral.isDigit_of_mem_repr hc)

theorem isWord_origin (i : Instruction) : IsWord (origin i) :=
  IsWord.around (c := ':') (by decide) (undivided_repr i.line) (undivided_repr i.codePos)

theorem isWord_address (n : Nat) : IsWord (address n ++ ":") := by
  obtain ⟨digits, hhex, haddress⟩ := exists_isHex_address n
  have hdigits : Undivided (address n) := by
    intro c hc
    rw [haddress, String.toList_append, List.mem_append] at hc
    rcases hc with hc | hc
    · have hprefix : ∀ c ∈ ['0', 'x'], c ∉ delimiters := by simp [delimiters]
      exact hprefix c hc
    · have hall : ∀ c ∈ hexDigits, c ∉ delimiters := by simp [hexDigits, delimiters]
      rw [String.toList_ofList] at hc
      exact hall c (hhex.mem c hc)
  have hword := IsWord.around (c := ':') (by decide) hdigits undivided_empty
  rwa [String.append_empty] at hword

theorem newline_notMem_of_undivided {s : String} (h : Undivided s) : '\n' ∉ s.toList :=
  fun hc => h '\n' hc (by decide)

theorem newline_notMem_text {op : Operation} (h : op.Readable) : '\n' ∉ op.text.toList := by
  have hmnemonic : ∀ m : Mnemonic, '\n' ∉ m.text.toList := by
    intro m
    cases m <;> decide
  obtain ⟨m, hm | ⟨f, value, hm, rfl⟩⟩ := h.exists_mnemonic
  · rw [m.text_of_plain hm]
    exact hmnemonic m
  · rw [m.text_of_applied hm]
    intro hc
    simp only [String.toList_append, List.mem_append] at hc
    rcases hc with (hc | hc) | hc
    · exact hmnemonic m hc
    · exact absurd hc (by decide)
    · rcases Numeral.mem_write hc with hc | hc <;> exact absurd hc (by decide)

theorem origin_inj {i j : Instruction} (h : origin i = origin j) :
    i.line = j.line ∧ i.codePos = j.codePos := by
  have hcolon : ∀ n : Nat, ':' ∉ n.repr.toList :=
    fun n hc => absurd (Numeral.isDigit_of_mem_repr hc) (by decide)
  have hchars : i.line.repr.toList ++ ':' :: i.codePos.repr.toList =
      j.line.repr.toList ++ ':' :: j.codePos.repr.toList := by
    simpa [origin] using congrArg String.toList h
  obtain ⟨hline, -, hpos⟩ :=
    (List.append_cons_inj_of_notMem (hcolon i.line) (hcolon i.codePos)).mp hchars
  exact ⟨Nat.repr_inj.mp (String.toList_inj.mp hline),
    Nat.repr_inj.mp (String.toList_inj.mp hpos)⟩

theorem instruction_eq {i j : Instruction} (hi : i.op.Readable) (hj : j.op.Readable)
    (htext : tokenize i.text = tokenize j.text) (horigin : origin i = origin j) : i = j := by
  obtain ⟨hline, hpos⟩ := origin_inj horigin
  obtain ⟨p, hp, hptokens⟩ := hi.exists_phrase
  obtain ⟨q, hq, hqtokens⟩ := hj.exists_phrase
  have hpq : p.tokens ++ [] = q.tokens ++ [] := by
    rw [hptokens, hqtokens]
    exact congrArg (· ++ []) htext
  have hop : i.op = j.op := by
    rw [← hp, ← hq, (Phrase.tokens_append_inj hpq).1]
  obtain ⟨op, codePos, line⟩ := i
  obtain rfl : op = j.op := hop
  obtain rfl : codePos = j.codePos := hpos
  obtain rfl : line = j.line := hline
  rfl

def rowStart (numbers texts index : Nat) (i : Instruction) : String :=
  alignLeft numbers (address index ++ ":") ++ " " ++ (alignLeft texts i.text ++ " ")

def gridRow (numbers texts index : Nat) (i : Instruction) : String :=
  rowStart numbers texts index i ++ ("@" ++ " " ++ origin i)

variable {is : List Instruction}

theorem gridRow_eq (numbers texts index : Nat) (i : Instruction) :
    gridRow numbers texts index i =
      alignLeft numbers (address index ++ ":") ++ " " ++
        (alignLeft texts i.text ++ " " ++ ("@" ++ " " ++ origin i)) := by
  rw [gridRow, rowStart, String.append_assoc]

theorem length_rowStart {numbers texts index : Nat} {i : Instruction}
    (hn : (address index ++ ":").length ≤ numbers) (ht : i.text.length ≤ texts) :
    (rowStart numbers texts index i).length = numbers + texts + 2 := by
  rw [rowStart, String.length_append, String.length_append, String.length_append,
    length_alignLeft hn, length_alignLeft ht]
  have hblank : " ".length = 1 := rfl
  omega

theorem tokenize_alignLeft (width : Nat) (cell rest : String) :
    tokenize (alignLeft width cell ++ " " ++ rest) = tokenize cell ++ tokenize rest := by
  have hgap : IsGap (spaces (width - cell.length) ++ " ") := by
    intro c hc
    rw [String.toList_append, List.mem_append, spaces, String.toList_ofList] at hc
    rcases hc with hc | hc
    · rw [List.eq_of_mem_replicate hc]
      decide
    · exact isGap_space c hc
  have hcut := tokenize_append_gap (by simp) hgap cell rest
  rwa [← String.append_assoc] at hcut

theorem tokenize_gridRow (numbers texts index : Nat) (i : Instruction) :
    tokenize (gridRow numbers texts index i) =
      (address index ++ ":") :: (tokenize i.text ++ ["@", origin i]) := by
  rw [gridRow_eq, tokenize_alignLeft, tokenize_alignLeft,
    tokenize_append_gap (by decide) isGap_space,
    tokenize_of_isWord (isWord_address index), tokenize_of_isWord (isWord_origin i)]
  rfl

theorem newline_notMem_gridRow {i : Instruction} (h : i.op.Readable) (numbers texts index : Nat) :
    '\n' ∉ (gridRow numbers texts index i).toList := by
  have hcell : ∀ (width : Nat) (cell : String), '\n' ∉ cell.toList →
      '\n' ∉ (alignLeft width cell).toList := by
    intro width cell hcell hc
    rw [alignLeft, String.toList_append, List.mem_append, spaces, String.toList_ofList] at hc
    rcases hc with hc | hc
    · exact hcell hc
    · exact absurd (List.eq_of_mem_replicate hc) (by decide)
  have hnumber := hcell numbers _ (newline_notMem_of_undivided (isWord_address index).undivided)
  have htext := hcell texts i.text (newline_notMem_text h)
  have horigin := newline_notMem_of_undivided (isWord_origin i).undivided
  simp [gridRow, rowStart, hnumber, htext, horigin]

theorem gridRow_ne_empty (numbers texts index : Nat) (i : Instruction) :
    gridRow numbers texts index i ≠ "" := by
  simp [gridRow]

def numberWidth (is : List Instruction) : Nat := Grid.columnWidth (is.mapIdx instructionRow) 0

def textWidth (is : List Instruction) : Nat := Grid.columnWidth (is.mapIdx instructionRow) 1

def gridRows (is : List Instruction) : List String :=
  is.mapIdx (gridRow (numberWidth is) (textWidth is))

theorem address_le_numberWidth {k : Nat} (h : k < is.length) :
    (address k ++ ":").length ≤ numberWidth is := by
  have hcolumn : Grid.column (is.mapIdx instructionRow) 0 = is.mapIdx fun k _ => address k ++ ":" :=
    Grid.column_mapIdx is fun _ _ => rfl
  apply Grid.length_le_columnWidth
  rw [hcolumn]
  exact List.mem_mapIdx.mpr ⟨k, h, rfl⟩

theorem text_le_textWidth {k : Nat} {i : Instruction} (h : is[k]? = some i) :
    i.text.length ≤ textWidth is := by
  have hcolumn : Grid.column (is.mapIdx instructionRow) 1 = is.mapIdx fun _ i => i.text :=
    Grid.column_mapIdx is fun _ _ => rfl
  obtain ⟨hlt, hi⟩ := List.getElem?_eq_some_iff.mp h
  apply Grid.length_le_columnWidth
  rw [hcolumn]
  exact List.mem_mapIdx.mpr ⟨k, hlt, by rw [hi]⟩

theorem columnWidth_signs (h : is ≠ []) :
    Grid.columnWidth (is.mapIdx instructionRow) 2 = 1 := by
  have hcolumn : Grid.column (is.mapIdx instructionRow) 2 = is.mapIdx fun _ _ => "@" :=
    Grid.column_mapIdx is fun _ _ => rfl
  have hwidest := Grid.isWidest_column (is.mapIdx instructionRow) 2
    (by rw [hcolumn]; exact List.mapIdx_ne_nil_iff.mpr h)
  obtain ⟨cell, hcell, hwidth⟩ := hwidest.attained
  rw [hcolumn] at hcell
  obtain ⟨k, -, rfl⟩ := List.mem_mapIdx.mp hcell
  exact hwidth.symm

theorem row_instructionRow (h : is ≠ []) (k : Nat) (i : Instruction) :
    Grid.row (Grid.widths (is.mapIdx instructionRow)) (instructionRow k i) =
      gridRow (numberWidth is) (textWidth is) k i := by
  have hsign := columnWidth_signs h
  rw [Grid.columnWidth] at hsign
  have hone : alignLeft 1 "@" = "@" := rfl
  rw [instructionRow, Grid.row_cons_cons, Grid.row_cons_cons, Grid.row_cons_cons,
    List.getElem?_tail, List.getElem?_tail, List.getElem?_tail, hsign, hone, gridRow_eq]
  rfl

theorem render_instructions (is : List Instruction) :
    Grid.render (is.mapIdx instructionRow) = lines (gridRows is) := by
  by_cases h : is = []
  · rw [h]
    rfl
  · rw [Grid.render_eq_lines]
    congr 1
    apply map_mapIdx_eq
    intro k _
    exact row_instructionRow h k _

theorem firstLines_grid (h : ∀ i ∈ is, i.op.Readable) (rest : String) :
    firstLines (Grid.render (is.mapIdx instructionRow) ++ "\n" ++ rest) = gridRows is := by
  rw [render_instructions]
  apply firstLines_lines
  · intro row hrow
    obtain ⟨k, hk, rfl⟩ := List.mem_mapIdx.mp hrow
    exact newline_notMem_gridRow (h _ (List.getElem_mem hk)) _ _ _
  · intro row hrow
    obtain ⟨k, hk, rfl⟩ := List.mem_mapIdx.mp hrow
    exact gridRow_ne_empty _ _ _ _

/-- A row says all about its instruction, so the grid says all about the body. -/
theorem gridRows_injective {is is' : List Instruction} (h : ∀ i ∈ is, i.op.Readable)
    (h' : ∀ i ∈ is', i.op.Readable) (hrows : gridRows is = gridRows is') : is = is' := by
  have hlen : is.length = is'.length := by
    simpa [gridRows] using congrArg List.length hrows
  apply List.ext_getElem hlen
  intro k hk hk'
  have hrow : gridRow (numberWidth is) (textWidth is) k is[k] =
      gridRow (numberWidth is') (textWidth is') k is'[k] := by
    have hget := congrArg (·[k]?) hrows
    simpa [gridRows, hk, hk'] using hget
  have htokens := congrArg tokenize hrow
  rw [tokenize_gridRow, tokenize_gridRow] at htokens
  obtain ⟨htext, hlast⟩ := List.append_inj' (List.cons.inj htokens).2 rfl
  have horigin : origin is[k] = origin is'[k] := by simpa using hlast
  exact instruction_eq (h _ (List.getElem_mem hk)) (h' _ (List.getElem_mem hk')) htext horigin

theorem exists_passes_of_run {args : List String} {files : String → Except ReadFault ByteArray}
    {o : Options} {out : Output} (hargs : parse args = .ok o) (hout : run args files = .ok out)
    (hexit : out.exit = 0) :
    ∃ line text types, Passes o (files o.input) line text ∧
      (typeTable o.types).emissionOrder = .ok types ∧
      out.stdout = (report o (files o.input)).stdout := by
  rw [run_of_parse hargs] at hout
  obtain rfl := Except.ok.inj hout
  obtain ⟨line, text, types, hpass, horder⟩ := passes_of_exit_zero hexit
  exact ⟨line, text, types, hpass, horder, rfl⟩

/-- A run that succeeds and prints a grid, with the line number of its body and the
instructions that the body holds. -/
structure GridRun (args : List String) (files : String → Except ReadFault ByteArray)
    (o : Options) (line : Nat) (is : List Instruction) (out : Output) : Prop where
  parsed : parse args = .ok o
  grid : o.grid = true
  ran : run args files = .ok out
  exit : out.exit = 0
  body : ∃ text, Passes o (files o.input) line text ∧ is = (assemble text line).2.state.toList

namespace GridRun

variable {args : List String} {files : String → Except ReadFault ByteArray} {o : Options}
  {line : Nat} {out : Output}

theorem readable (h : GridRun args files o line is out) : ∀ i ∈ is, i.op.Readable := by
  obtain ⟨text, -, rfl⟩ := h.body
  intro i hi
  exact readable_of_mem_listing (Array.mem_toList_iff.mp hi)

theorem line_eq (h : GridRun args files o line is out) : ∀ i ∈ is, i.line = line := by
  obtain ⟨text, hpass, rfl⟩ := h.body
  obtain ⟨body, hbody⟩ := exists_body_of_ok hpass.assembled
  intro i hi
  rw [show (assemble text line).2.state = _ from (listing_assemble_body hbody line #[]).2] at hi
  exact Body.line_of_mem_instructions hi

theorem firstLines_stdout (h : GridRun args files o line is out) :
    firstLines out.stdout = gridRows is := by
  obtain ⟨-, -, types, -, horder, hstdout⟩ := exists_passes_of_run h.parsed h.ran h.exit
  obtain ⟨text, hpass, his⟩ := h.body
  rw [hstdout, report_of_passes hpass horder, if_pos h.grid, ← his]
  exact firstLines_grid h.readable _

end GridRun

theorem exists_gridRun {args : List String} {files : String → Except ReadFault ByteArray}
    {o : Options} {out : Output} (hargs : parse args = .ok o) (hgrid : o.grid = true)
    (hout : run args files = .ok out) (hexit : out.exit = 0) :
    ∃ line is, GridRun args files o line is out := by
  obtain ⟨line, text, types, hpass, -⟩ := exists_passes_of_run hargs hout hexit
  exact ⟨line, _, hargs, hgrid, hout, hexit, text, hpass, rfl⟩

theorem linesOf_listing (h : ∀ i ∈ is, i.op.Readable) :
    linesOf (listing is) = is.map Instruction.text ++ [""] := by
  apply linesOf_lines
  intro text htext
  obtain ⟨i, hi, rfl⟩ := List.mem_map.mp htext
  exact newline_notMem_text (h i hi)

theorem GridRun.plain {args plain : List String} {files : String → Except ReadFault ByteArray}
    {o p : Options} {line : Nat} {out : Output} (h : GridRun args files o line is out)
    (hplain : parse plain = .ok p) (hgrid : p.grid = false) (hinput : p.input = o.input)
    (hline : p.line = o.line) (htypes : p.types = o.types) :
    ∃ listed, run plain files = .ok listed ∧ listed.exit = 0 ∧
      linesOf listed.stdout = is.map Instruction.text ++ [""] := by
  obtain ⟨-, -, types, -, horder, -⟩ := exists_passes_of_run h.parsed h.ran h.exit
  obtain ⟨text, hpass, his⟩ := h.body
  have hpassed : Passes p (files p.input) line text := by
    rw [hinput]
    exact hpass.of_line_eq hline
  have hreport := report_of_passes hpassed (by rw [htypes]; exact horder)
  rw [hgrid, ← his] at hreport
  refine ⟨_, run_of_parse hplain files, by rw [hreport], ?_⟩
  rw [hreport]
  exact linesOf_listing h.readable

/-- A run with a grid and the plain run for the same file, line and types show the same
body. The grid has one row for each instruction, in order. The tokens of a row are the
number of the instruction in hexadecimal, the tokens of the line that the plain run prints
for it, a sign and where it comes from; the sign stands at one column in all rows. Nothing is
lost: from equal grids come equal bodies, with their places and, unless there is no
instruction, their line. -/
theorem run_grid_shows_listing (args plain : List String) (o p : Options)
    (files : String → Except ReadFault ByteArray) (out : Output)
    (hargs : parse args = .ok o) (hgrid : o.grid = true) (hout : run args files = .ok out)
    (hexit : out.exit = 0) (hplain : parse plain = .ok p) (hpgrid : p.grid = false)
    (hinput : p.input = o.input) (hline : p.line = o.line) (htypes : p.types = o.types) :
    ∃ (line : Nat) (is : List Instruction) (listed : Output),
      GridRun args files o line is out ∧ run plain files = .ok listed ∧ listed.exit = 0 ∧
      (firstLines out.stdout).length = is.length ∧
      (linesOf listed.stdout).length = is.length + 1 ∧
      (∃ column : Nat, ∀ (k : Nat) (i : Instruction), is[k]? = some i →
        ∃ (row before shown : String) (digits : List Char),
          (firstLines out.stdout)[k]? = some row ∧ (linesOf listed.stdout)[k]? = some shown ∧
          IsHex k digits ∧
          tokenize row = ("0x" ++ String.ofList digits ++ ":") ::
            (tokenize shown ++ ["@", i.line.repr ++ ":" ++ i.codePos.repr]) ∧
          row = before ++ ("@" ++ " " ++ (i.line.repr ++ ":" ++ i.codePos.repr)) ∧
          before.length = column) ∧
      ∀ (args' : List String) (files' : String → Except ReadFault ByteArray) (o' : Options)
        (line' : Nat) (is' : List Instruction) (out' : Output),
        GridRun args' files' o' line' is' out' →
        firstLines out'.stdout = firstLines out.stdout →
          is' = is ∧ (is ≠ [] → line' = line) := by
  obtain ⟨line, is, hrun⟩ := exists_gridRun hargs hgrid hout hexit
  obtain ⟨listed, hlisted, hzero, hlines⟩ := hrun.plain hplain hpgrid hinput hline htypes
  refine ⟨line, is, listed, hrun, hlisted, hzero, ?_, ?_, ?_, ?_⟩
  · rw [hrun.firstLines_stdout, gridRows, List.length_mapIdx]
  · rw [hlines, List.length_append, List.length_map, List.length_singleton]
  · refine ⟨numberWidth is + textWidth is + 2, fun k i hi => ?_⟩
    obtain ⟨hlt, -⟩ := List.getElem?_eq_some_iff.mp hi
    obtain ⟨digits, hhex, haddress⟩ := exists_isHex_address k
    refine ⟨_, rowStart (numberWidth is) (textWidth is) k i, i.text, digits, ?_, ?_, hhex, ?_, rfl,
      length_rowStart (address_le_numberWidth hlt) (text_le_textWidth hi)⟩
    · rw [hrun.firstLines_stdout, gridRows, List.getElem?_mapIdx, hi]
      rfl
    · rw [hlines, List.getElem?_append_left (by rwa [List.length_map]), List.getElem?_map, hi]
      rfl
    · rw [← haddress]
      exact tokenize_gridRow _ _ k i
  · intro args' files' o' line' is' out' hrun' hsame
    rw [hrun.firstLines_stdout, hrun'.firstLines_stdout] at hsame
    obtain rfl := gridRows_injective hrun'.readable hrun.readable hsame
    refine ⟨rfl, fun hne => ?_⟩
    obtain ⟨i, hi⟩ := List.exists_mem_of_ne_nil _ hne
    rw [← hrun'.line_eq i hi, ← hrun.line_eq i hi]

theorem run_grid_shows_listing_wide_operand :
    let o : Options := ⟨"f", some "3", [], 0, true⟩
    let p : Options := ⟨"f", some "3", [], 0, false⟩
    let args := ["-d", "-l", "3", "f"]
    let plain := ["f", "--line=3"]
    let text := "local.get +7 i32.const -2147483648"
    let files : String → Except ReadFault ByteArray := fun _ => .ok text.toUTF8
    parse args = .ok o ∧ parse plain = .ok p ∧
      ∃ out, run args files = .ok out ∧ out.exit = 0 ∧ (firstLines out.stdout).length = 2 ∧
        ∃ first second before below digits,
          (firstLines out.stdout)[0]? = some first ∧ (firstLines out.stdout)[1]? = some second ∧
          IsHex 1 digits ∧
          tokenize second = ("0x" ++ String.ofList digits ++ ":") ::
            ["i32.const", "-2147483648", "@", "3:2"] ∧
          first = before ++ "@ 3:0" ∧ second = below ++ "@ 3:2" ∧
          before.length = below.length := by
  intro o p args plain text files
  have hargs : parse args = .ok o := by decide +kernel
  have hplain : parse plain = .ok p := by decide +kernel
  have hpass : Passes o (files o.input) 3 text :=
    ⟨by decide +kernel, rfl, by decide +kernel⟩
  have hexit : (report o (files o.input)).exit = 0 := by
    rw [report_of_passes hpass (emissionOrder_typeTable (by decide +kernel))]
  obtain ⟨line, is, listed, hrun, hlisted, -, hrows, -, ⟨column, hshown⟩, -⟩ :=
    run_grid_shows_listing args plain o p files _ hargs rfl (run_of_parse hargs files) hexit
      hplain rfl rfl rfl rfl
  obtain ⟨text', hpass', his⟩ := hrun.body
  obtain rfl : 3 = line := Except.ok.inj (hpass.numbered.symm.trans hpass'.numbered)
  obtain rfl : text = text' :=
    String.toByteArray_inj.mp (Except.ok.inj (hpass.readable.symm.trans hpass'.readable))
  have hlines : linesOf listed.stdout = ["local.get 7", "i32.const -2147483648", ""] := by
    have hplainPass : Passes p (files p.input) 3 text := hpass.of_line_eq rfl
    have hreport := report_of_passes hplainPass (emissionOrder_typeTable (by decide +kernel))
    rw [run_of_parse hplain, hreport] at hlisted
    cases hlisted
    decide +kernel
  have hlength : is.length = 2 := by
    rw [his]
    decide +kernel
  obtain ⟨first, before, -, -, hfirst, -, -, -, hbefore, hcolumn⟩ :=
    hshown 0 ⟨.localVar .get 7, 0, 3⟩ (by rw [his]; decide +kernel)
  obtain ⟨second, below, shown, digits, hsecond, hline, hhex, htokens, hbelow, hcolumn'⟩ :=
    hshown 1 ⟨.const (-2147483648) .i32, 2, 3⟩ (by rw [his]; decide +kernel)
  rw [hlines] at hline
  obtain rfl : "i32.const -2147483648" = shown := Option.some.inj hline
  refine ⟨hargs, hplain, _, run_of_parse hargs files, hexit, hrows.trans hlength, first, second,
    before, below, digits, hfirst, hsecond, hhex, ?_, ?_, ?_, hcolumn.trans hcolumn'.symm⟩
  · exact htokens.trans (congrArg (_ :: ·) (by decide +kernel))
  · exact hbefore.trans (congrArg (before ++ ·) (by decide +kernel))
  · exact hbelow.trans (congrArg (below ++ ·) (by decide +kernel))

end WasmAssembly.Command
