import WasmAssembly.Proofs.Diagnosis
import WasmAssembly.Proofs.LastPlacement
import WasmAssembly.Proofs.Layout

/-!
# The type table of a run

The types of a run are the names that its arguments give, each once and in the
order in which they are first given. Their indices count from zero, the log tells
first of the names and then of the indices, and the type grid has a row for each
of them.
-/

set_option autoImplicit false

namespace WasmAssembly.Command

open TypeTable

/-- The names that occur in a list, by their first occurrence. A name cannot come before
itself, so none is repeated. -/
structure FirstNamed (names distinct : List String) : Prop where
  mem_iff : ∀ name, name ∈ distinct ↔ name ∈ names
  ordered : distinct.Pairwise fun a b => names.idxOf a < names.idxOf b

theorem firstNamed_eraseDups (names : List String) : FirstNamed names names.eraseDups := by
  refine ⟨fun name => List.mem_eraseDups, ?_⟩
  induction names using List.reverseRecOn with
  | nil => exact .nil
  | append_singleton names name ih =>
    -- a name that is added at the end leaves the first occurrences of the others in place
    have hkept : names.eraseDups.Pairwise fun a b =>
        (names ++ [name]).idxOf a < (names ++ [name]).idxOf b := by
      refine ih.imp_of_mem ?_
      intro a b ha hb hab
      rwa [List.idxOf_append_of_mem (List.mem_eraseDups.mp ha),
        List.idxOf_append_of_mem (List.mem_eraseDups.mp hb)]
    rw [eraseDups_concat]
    by_cases hold : name ∈ names.eraseDups
    · rwa [if_pos hold]
    · rw [if_neg hold, List.pairwise_append]
      refine ⟨hkept, List.pairwise_singleton _ _, ?_⟩
      intro a ha b hb
      have hnew : name ∉ names := fun h => hold (List.mem_eraseDups.mpr h)
      obtain rfl := List.mem_singleton.mp hb
      rw [List.idxOf_append_of_mem (List.mem_eraseDups.mp ha), List.idxOf_append_of_notMem hnew,
        List.idxOf_cons_self]
      exact List.idxOf_lt_length_of_mem (List.mem_eraseDups.mp ha)

theorem codeAt?_typeTable {names : List String} {index : Nat}
    (h : index < names.eraseDups.length) :
    (typeTable names).codeAt? index = some (UInt32.ofNat index) := by
  rw [← size_internedTable] at h
  obtain ⟨s, hs⟩ := (exists_get?_iff _ _).mpr h
  have hnodup : ((numbering (internedTable names)).map Prod.fst).Nodup := by
    rw [map_fst_numbering]
    exact List.nodup_range
  have hmem : (index, UInt32.ofNat index) ∈ numbering (internedTable names) :=
    List.mem_map_of_mem (List.mem_range.mpr h)
  rw [typeTable_eq_run, codeAt?, TypeTable.get?_run hs, lastCode?_placements hnodup hmem]
  rfl

theorem types_typeTable (names : List String) :
    (typeTable names).types =
      names.eraseDups.mapIdx fun index name => ⟨name, some (UInt32.ofNat index)⟩ := by
  have hnames : (typeTable names).names = names.eraseDups := by
    rw [typeTable_eq_run, names_run_placements, names_internedTable]
  rw [types_eq_mapIdx, hnames]
  apply List.ext_getElem
  · simp
  · intro index hlt hlt'
    rw [List.length_mapIdx] at hlt
    simp [codeAt?_typeTable hlt]

theorem toNat_index {names : List String} (h : names.eraseDups.length < 4294967296) {index : Nat}
    (hlt : index < names.eraseDups.length) : (UInt32.ofNat index).toNat = index :=
  UInt32.toNat_ofNat_of_lt' (Nat.lt_trans hlt h)

theorem filter_origin_passedLog (o : Options) (line : Nat) (a : Assembly Listing) :
    ((passedLog o line a).filter fun record => record.origin = .typeTable) =
      (typeEvents o.types).map TypeEvent.record := by
  have htrace : ((a.trace.toList.map Trace.record).filter fun record =>
      record.origin = .typeTable) = [] := by
    rw [List.filter_eq_nil_iff]
    intro record hrecord
    obtain ⟨trace, -, rfl⟩ := List.mem_map.mp hrecord
    simp [Trace.record]
  have hevents : (((typeEvents o.types).map TypeEvent.record).filter fun record =>
      record.origin = .typeTable) = (typeEvents o.types).map TypeEvent.record := by
    rw [List.filter_eq_self]
    intro record hrecord
    obtain ⟨event, -, rfl⟩ := List.mem_map.mp hrecord
    simp [TypeEvent.record]
  rw [passedLog, bodyLog, List.filter_append, List.filter_append, List.filter_append, htrace,
    hevents]
  simp [Notice.record]

theorem record_placed {code : UInt32} {index : Nat} (h : code.toNat = index) (name : String) :
    (TypeEvent.placed name code).record =
      ⟨.typeTable, .debug, "struct type $" ++ name ++ " placed at index " ++ index.repr⟩ := by
  rw [← h]
  rfl

theorem records_typeEvents {names : List String} (h : names.eraseDups.length < 4294967296) :
    (typeEvents names).map TypeEvent.record =
      names.eraseDups.map (fun name => ⟨.typeTable, .debug, "interned struct type $" ++ name⟩) ++
        names.eraseDups.mapIdx fun index name =>
          ⟨.typeTable, .debug, "struct type $" ++ name ++ " placed at index " ++ index.repr⟩ := by
  have hplaced : (names.eraseDups.mapIdx fun index name =>
        (TypeEvent.placed name (UInt32.ofNat index))).map TypeEvent.record =
      names.eraseDups.mapIdx fun index name =>
        ⟨.typeTable, .debug, "struct type $" ++ name ++ " placed at index " ++ index.repr⟩ := by
    apply map_mapIdx_eq
    intro index hlt
    exact record_placed (toNat_index h hlt) _
  rw [typeEvents_eq, List.map_append, hplaced, List.map_map]
  rfl

def typeLabel (index : Nat) : String := "type[" ++ index.repr ++ "]"

theorem map_typeRow {names : List String} (h : names.eraseDups.length < 4294967296) :
    (typeTable names).types.map typeRow =
      names.eraseDups.mapIdx fun index name => [typeLabel index, "$" ++ name] := by
  rw [types_typeTable]
  apply map_mapIdx_eq
  intro index hlt
  simp [typeRow, typeLabel, StructType.text, StructType.index, toNat_index h hlt]

theorem render_typeRows {names : List String} (hne : names ≠ []) :
    ∃ width, IsWidest (names.mapIdx fun index _ => typeLabel index) width ∧
      Grid.render (names.mapIdx fun index name => [typeLabel index, "$" ++ name]) =
        lines (names.mapIdx fun index name =>
          alignLeft width (typeLabel index) ++ " $" ++ name) := by
  let rows := names.mapIdx fun index name => [typeLabel index, "$" ++ name]
  have hlabels : Grid.column rows 0 = names.mapIdx fun index _ => typeLabel index :=
    Grid.column_mapIdx names fun _ _ => rfl
  have hwidest := Grid.isWidest_column rows 0 (by rw [hlabels]; simpa using hne)
  rw [hlabels] at hwidest
  refine ⟨_, hwidest, ?_⟩
  have hrow : ∀ a b : String,
      Grid.row (Grid.widths rows) [a, b] = alignLeft (Grid.columnWidth rows 0) a ++ " " ++ b :=
    fun a b => Grid.row_cons_cons _ a b []
  rw [Grid.render_eq_lines]
  congr 1
  apply map_mapIdx_eq
  intro index _
  rw [hrow, String.append_assoc, String.append_assoc]
  rfl

theorem grids_typeTable {names : List String} (h : names.eraseDups.length < 4294967296)
    (instructions : List Instruction) :
    ∃ typeGrid, grids instructions (typeTable names).types =
        Grid.render (instructions.mapIdx instructionRow) ++ "\n" ++ typeGrid ∧
      (typeGrid = "" ↔ names = []) ∧
      (names ≠ [] → ∃ width,
        IsWidest (names.eraseDups.mapIdx fun index _ => typeLabel index) width ∧
        typeGrid = lines (names.eraseDups.mapIdx fun index name =>
          alignLeft width (typeLabel index) ++ " $" ++ name) ++ "\n") := by
  refine ⟨_, rfl, ?_⟩
  by_cases hnil : names = []
  · subst hnil
    exact ⟨⟨fun _ => rfl, fun _ => rfl⟩, fun hne => absurd rfl hne⟩
  · have hdistinct : names.eraseDups ≠ [] := by
      obtain ⟨name, hname⟩ := List.exists_mem_of_ne_nil names hnil
      exact List.ne_nil_of_mem (List.mem_eraseDups.mpr hname)
    have hsome : (typeTable names).types.isEmpty = false := by
      rw [types_typeTable, List.isEmpty_eq_false_iff]
      exact List.mapIdx_ne_nil_iff.mpr hdistinct
    obtain ⟨width, hwidest, hrender⟩ := render_typeRows hdistinct
    rw [hsome, map_typeRow h, hrender]
    refine ⟨⟨?_, fun hn => absurd hn hnil⟩, fun _ => ⟨width, hwidest, rfl⟩⟩
    intro hempty
    simp at hempty

/-- The types of a run whose body is in order. They are the names that the arguments give,
each once, by its first occurrence; the type section holds them in that order, the first
at index zero and each next one higher. The log tells of each name as it comes in, then of
each index, and never of a type that moves. With a grid, there is one row for each type
below the instructions, and nothing if no type is named. -/
theorem run_lists_types (args : List String) (o : Options)
    (files : String → Except ReadFault ByteArray) (line : Nat) (text : String)
    (hargs : parse args = .ok o) (hpass : Passes o (files o.input) line text)
    (hnames : o.types.eraseDups.length < 4294967296) :
    let r := report o (files o.input)
    let distinct := o.types.eraseDups
    run args files = .ok ⟨0, r.stdout, lines ((shown o.verbosity r.log).map Log.Record.text)⟩ ∧
      FirstNamed o.types distinct ∧
      (∃ table, (typeTable o.types).emissionOrder = .ok table ∧
        table.map StructType.name = distinct ∧
        ∀ (index : Nat) (s : StructType), table[index]? = some s →
          s.code.map UInt32.toNat = some index) ∧
      (r.log.filter fun record => record.origin = .typeTable) =
        distinct.map (fun name => ⟨.typeTable, .debug, "interned struct type $" ++ name⟩) ++
          distinct.mapIdx (fun index name =>
            ⟨.typeTable, .debug, "struct type $" ++ name ++ " placed at index " ++ index.repr⟩) ∧
      (∀ (name : String) (old new : UInt32), (TypeEvent.moved name old new).record ∉ r.log) ∧
      (o.grid = true → ∃ typeGrid,
        r.stdout = Grid.render ((assemble text line).2.state.toList.mapIdx instructionRow) ++
          "\n" ++ typeGrid ∧
        (typeGrid = "" ↔ o.types = []) ∧
        (o.types ≠ [] → ∃ width,
          IsWidest (distinct.mapIdx fun index _ => "type[" ++ index.repr ++ "]") width ∧
          typeGrid = lines (distinct.mapIdx fun index name =>
            alignLeft width ("type[" ++ index.repr ++ "]") ++ " $" ++ name) ++ "\n")) := by
  intro r distinct
  have hr : r = _ := report_of_passes hpass (emissionOrder_typeTable hnames)
  refine ⟨?_, firstNamed_eraseDups _, ⟨_, emissionOrder_typeTable hnames, ?_, ?_⟩, ?_, ?_, ?_⟩
  · have hexit : r.exit = 0 := by rw [hr]
    rw [← hexit]
    exact run_of_parse hargs files
  · rw [types_typeTable]
    apply List.ext_getElem
    · rw [List.length_map, List.length_mapIdx]
    · intro index hlt hlt'
      rw [List.getElem_map, List.getElem_mapIdx]
  · intro index s hs
    rw [types_typeTable, List.getElem?_mapIdx] at hs
    obtain ⟨name, hname, rfl⟩ := Option.map_eq_some_iff.mp hs
    obtain ⟨hlt, -⟩ := List.getElem?_eq_some_iff.mp hname
    exact congrArg some (toNat_index hnames hlt)
  · rw [hr, filter_origin_passedLog, records_typeEvents hnames]
  · intro name old new hmoved
    rw [hr] at hmoved
    exact (level_passedLog hmoved).2 rfl
  · intro hgrid
    rw [hr, if_pos hgrid]
    exact grids_typeTable hnames _

theorem run_lists_types_repeated :
    let o : Options := ⟨"f", none, ["B", "A", "B", "C"], 3, true⟩
    let args := ["-d", "-t", "B", "-tA", "f", "--type=B", "-vvvt", "C"]
    let files : String → Except ReadFault ByteArray := fun _ => .ok "return".toUTF8
    parse args = .ok o ∧ Passes o (files o.input) 1 "return" ∧
      (∃ table, (typeTable o.types).emissionOrder = .ok table ∧
        table.map StructType.name = ["B", "A", "C"]) ∧
      ((report o (files o.input)).log.filter fun record => record.origin = .typeTable) =
        [⟨.typeTable, .debug, "interned struct type $B"⟩,
          ⟨.typeTable, .debug, "interned struct type $A"⟩,
          ⟨.typeTable, .debug, "interned struct type $C"⟩,
          ⟨.typeTable, .debug, "struct type $B placed at index 0"⟩,
          ⟨.typeTable, .debug, "struct type $A placed at index 1"⟩,
          ⟨.typeTable, .debug, "struct type $C placed at index 2"⟩] := by
  intro o args files
  have hargs : parse args = .ok o := by decide +kernel
  have hpass : Passes o (files o.input) 1 "return" :=
    ⟨by decide +kernel, rfl, by decide +kernel⟩
  have hdistinct : o.types.eraseDups = ["B", "A", "C"] := by decide +kernel
  obtain ⟨-, -, ⟨table, horder, htable, -⟩, hlog, -⟩ :=
    run_lists_types args o files 1 "return" hargs hpass (by decide +kernel)
  rw [hdistinct] at htable hlog
  exact ⟨hargs, hpass, ⟨table, horder, htable⟩, hlog.trans (by decide +kernel)⟩

end WasmAssembly.Command
