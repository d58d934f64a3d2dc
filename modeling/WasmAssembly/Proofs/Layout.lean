import WasmAssembly.Command.Report
import WasmAssembly.Proofs.Lists

/-!
# Aligned columns

A column of a grid is as wide as its widest cell. Every cell but the last of a row
is filled up to the width of its column, so in all rows of a grid the cells of one
column begin at the same place.
-/

set_option autoImplicit false

namespace WasmAssembly

theorem length_spaces (n : Nat) : (spaces n).length = n := by
  rw [spaces, String.length_ofList, List.length_replicate]

theorem alignLeft_zero (text : String) : alignLeft 0 text = text := by
  rw [alignLeft, Nat.zero_sub]
  exact String.append_empty

theorem length_alignLeft {width : Nat} {text : String} (h : text.length ≤ width) :
    (alignLeft width text).length = width := by
  rw [alignLeft, String.length_append, length_spaces]
  omega

structure IsWidest (cells : List String) (width : Nat) : Prop where
  covers : ∀ cell ∈ cells, cell.length ≤ width
  attained : ∃ cell ∈ cells, cell.length = width

theorem isWidest_of_max? {cells : List String} {width : Nat}
    (h : (cells.map String.length).max? = some width) : IsWidest cells width := by
  obtain ⟨hmem, hle⟩ := List.max?_eq_some_iff.mp h
  constructor
  · intro cell hcell
    exact hle _ (List.mem_map_of_mem hcell)
  · exact List.mem_map.mp hmem

namespace Grid

def column (rows : List (List String)) (k : Nat) : List String := rows.filterMap (·[k]?)

def columnWidth (rows : List (List String)) (k : Nat) : Nat := (widths rows)[k]?.getD 0

theorem column_cons_none {cells : List String} {k : Nat} (h : cells[k]? = none)
    (rows : List (List String)) : column (cells :: rows) k = column rows k :=
  List.filterMap_cons_none h

theorem column_cons_some {cells : List String} {k : Nat} {cell : String}
    (h : cells[k]? = some cell) (rows : List (List String)) :
    column (cells :: rows) k = cell :: column rows k :=
  List.filterMap_cons_some h

theorem widen_getElem? (ms ns : List Nat) (k : Nat) :
    (widen ms ns)[k]? = Option.merge max ms[k]? ns[k]? := by
  induction ms generalizing ns k with
  | nil => simp [widen]
  | cons m ms ih =>
    cases ns with
    | nil => simp [widen]
    | cons n ns =>
      cases k with
      | zero => rfl
      | succ k => exact ih ns k

theorem widths_getElem? (rows : List (List String)) (k : Nat) :
    (widths rows)[k]? = ((column rows k).map String.length).max? := by
  induction rows with
  | nil => rfl
  | cons row rows ih =>
    rw [widths, widen_getElem?, ih, List.getElem?_map]
    cases hrow : row[k]? with
    | none =>
      rw [column_cons_none hrow]
      exact Option.merge_none_left
    | some cell =>
      rw [column_cons_some hrow, List.map_cons, List.max?_cons]
      cases ((column rows k).map String.length).max? <;> rfl

theorem column_mapIdx {α : Type} (xs : List α) {cells : Nat → α → List String}
    {cell : Nat → α → String} {k : Nat} (h : ∀ i x, (cells i x)[k]? = some (cell i x)) :
    column (xs.mapIdx cells) k = xs.mapIdx cell := by
  induction xs generalizing cells cell with
  | nil => rfl
  | cons x xs ih =>
    rw [List.mapIdx_cons, List.mapIdx_cons, column_cons_some (h 0 x)]
    exact congrArg (_ :: ·) (ih fun i y => h (i + 1) y)

theorem isWidest_column (rows : List (List String)) (k : Nat) (h : column rows k ≠ []) :
    IsWidest (column rows k) (columnWidth rows k) := by
  rw [columnWidth, widths_getElem?]
  cases hmax : ((column rows k).map String.length).max? with
  | none => exact absurd (List.map_eq_nil_iff.mp (List.max?_eq_none_iff.mp hmax)) h
  | some width => exact isWidest_of_max? hmax

theorem length_le_columnWidth {rows : List (List String)} {k : Nat} {cell : String}
    (h : cell ∈ column rows k) : cell.length ≤ columnWidth rows k :=
  (isWidest_column rows k (List.ne_nil_of_mem h)).covers cell h

theorem row_cons_cons (widths : List Nat) (cell next : String) (cells : List String) :
    row widths (cell :: next :: cells) =
      alignLeft (widths[0]?.getD 0) cell ++ " " ++ row widths.tail (next :: cells) := by
  cases widths with
  | nil =>
    rw [row, List.getElem?_nil, Option.getD_none, alignLeft_zero]
    · rfl
    · intro h
      cases h
  | cons width widths => rfl

theorem render_eq_lines (rows : List (List String)) :
    render rows = Command.lines (rows.map (row (widths rows))) := by
  rw [Command.lines, List.map_map]
  rfl

end Grid

namespace Command

def linesOf (out : String) : List String := (out.toList.splitOn '\n').map String.ofList

def firstLines (out : String) : List String := (linesOf out).takeWhile (· ≠ "")

theorem linesOf_cons (line rest : String) (h : '\n' ∉ line.toList) :
    linesOf (line ++ "\n" ++ rest) = line :: linesOf rest := by
  have hchars : (line ++ "\n" ++ rest).toList = line.toList ++ '\n' :: rest.toList := by simp
  rw [linesOf, hchars, List.splitOn_append_cons_self_of_not_mem h, List.map_cons,
    String.ofList_toList]
  rfl

theorem linesOf_append {texts : List String} (h : ∀ text ∈ texts, '\n' ∉ text.toList)
    (rest : String) : linesOf (lines texts ++ rest) = texts ++ linesOf rest := by
  induction texts with
  | nil => exact congrArg linesOf String.empty_append
  | cons text texts ih =>
    have hcons : lines (text :: texts) ++ rest = text ++ "\n" ++ (lines texts ++ rest) := by
      simp [lines, String.join_cons, String.append_assoc]
    rw [hcons, linesOf_cons _ _ (h text (by simp)), ih fun other ho => h other (by simp [ho]),
      List.cons_append]

theorem linesOf_lines {texts : List String} (h : ∀ text ∈ texts, '\n' ∉ text.toList) :
    linesOf (lines texts) = texts ++ [""] := by
  have happend := linesOf_append h ""
  rwa [String.append_empty] at happend

theorem firstLines_lines {texts : List String} (h : ∀ text ∈ texts, '\n' ∉ text.toList)
    (hne : ∀ text ∈ texts, text ≠ "") (rest : String) :
    firstLines (lines texts ++ "\n" ++ rest) = texts := by
  have hblank : linesOf ("\n" ++ rest) = "" :: linesOf rest := by
    have hcons := linesOf_cons "" rest (by simp)
    rwa [String.empty_append] at hcons
  rw [firstLines, String.append_assoc, linesOf_append h, hblank,
    List.takeWhile_append_of_pos (by simpa using hne)]
  simp

end Command

end WasmAssembly
