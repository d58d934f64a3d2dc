import Mathlib.Data.List.Basic
import Mathlib.Data.List.Induction
import Mathlib.Data.List.TakeWhile
import Mathlib.Tactic.Common

/-!
# Lists

Facts about lists that mention no definition of the assembler: what an element
added at the end changes, lists mapped along their positions, and where two lists
that are put together can be divided again.
-/

set_option autoImplicit false

namespace WasmAssembly

variable {α β γ : Type}

theorem getElem?_concat_eq_some_iff {xs : List α} {x y : α} {i : Nat} :
    (xs ++ [x])[i]? = some y ↔ xs[i]? = some y ∨ (i = xs.length ∧ x = y) := by
  rcases Nat.lt_trichotomy i xs.length with hlt | rfl | hgt
  · simp [List.getElem?_append_left hlt, Nat.ne_of_lt hlt]
  · simp
  · have hlen : (xs ++ [x]).length ≤ i := by rw [List.length_append]; exact hgt
    simp [List.getElem?_eq_none hlen, List.getElem?_eq_none (Nat.le_of_lt hgt), Nat.ne_of_gt hgt]

theorem eraseDups_concat [DecidableEq α] (xs : List α) (x : α) :
    (xs ++ [x]).eraseDups =
      if x ∈ xs.eraseDups then xs.eraseDups else xs.eraseDups ++ [x] := by
  rw [List.eraseDups_append]
  by_cases hx : x ∈ xs <;> simp [List.removeAll, hx, List.eraseDups_cons]

theorem filterMap_range_getElem? (xs : List α) (f : Nat → α → β) :
    (List.range xs.length).filterMap (fun k => xs[k]?.map (f k)) = xs.mapIdx f := by
  induction xs using List.reverseRecOn with
  | nil => rfl
  | append_singleton xs x ih =>
    have hbefore : (List.range xs.length).filterMap (fun k => (xs ++ [x])[k]?.map (f k)) =
        (List.range xs.length).filterMap (fun k => xs[k]?.map (f k)) := by
      apply List.filterMap_congr
      intro k hk
      rw [List.getElem?_append_left (List.mem_range.mp hk)]
    rw [List.length_append, List.length_singleton, List.range_succ, List.filterMap_append, hbefore,
      ih, List.mapIdx_concat]
    simp

theorem map_mapIdx_eq {xs : List α} {f : Nat → α → β} {g : β → γ} {h : Nat → α → γ}
    (heq : ∀ (k : Nat) (hlt : k < xs.length), g (f k xs[k]) = h k xs[k]) :
    (xs.mapIdx f).map g = xs.mapIdx h := by
  apply List.ext_getElem
  · rw [List.length_map, List.length_mapIdx, List.length_mapIdx]
  · intro k hlt hlt'
    rw [List.length_mapIdx] at hlt'
    rw [List.getElem_map, List.getElem_mapIdx, List.getElem_mapIdx]
    exact heq k hlt'

theorem class_append_inj {p : α → Bool} {xs ys rest rest' : List α}
    (hx : ∀ x ∈ xs, p x = true) (hy : ∀ y ∈ ys, p y = true)
    (hrest : ∀ x ∈ rest.head?, p x = false) (hrest' : ∀ x ∈ rest'.head?, p x = false)
    (h : xs ++ rest = ys ++ rest') : xs = ys ∧ rest = rest' := by
  have hstop {zs : List α} (hzs : ∀ z ∈ zs.head?, p z = false) : zs.takeWhile p = [] := by
    cases zs with
    | nil => rfl
    | cons z zs => exact List.takeWhile_cons_of_neg (by simp [hzs z rfl])
  have hclass := congrArg (List.takeWhile p) h
  rw [List.takeWhile_append_of_pos hx, List.takeWhile_append_of_pos hy, hstop hrest, hstop hrest',
    List.append_nil, List.append_nil] at hclass
  subst hclass
  exact ⟨rfl, List.append_cancel_left h⟩

theorem eq_or_swap_of_perm {a b c d : α} (h : [a, b].Perm [c, d]) :
    (c = a ∧ d = b) ∨ (c = b ∧ d = a) := by
  have hc : c ∈ [a, b] := h.mem_iff.mpr (by simp)
  rw [List.mem_cons, List.mem_singleton] at hc
  rcases hc with rfl | rfl
  · exact .inl ⟨rfl, (List.singleton_perm_singleton.mp (List.perm_cons _ |>.mp h)).symm⟩
  · have hswap := (List.Perm.swap a c []).trans h
    exact .inr ⟨rfl, (List.singleton_perm_singleton.mp (List.perm_cons _ |>.mp hswap)).symm⟩

end WasmAssembly
