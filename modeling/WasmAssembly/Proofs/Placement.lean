import WasmAssembly.Proofs.EmissionOrder

/-!
# Placements

The index of a type is the one it was last placed at, and nothing but a placement
of that very type changes it. So placements of different types commute, what the
types held before does not matter, and whoever places every type once decides the
order of the type section by the indices alone.
-/

set_option autoImplicit false

namespace WasmAssembly.TypeTable

def Request.codeFor? (ref : Nat) : Request → Option UInt32
  | .place placed code => if placed = ref then some code else none
  | _ => none

def lastCode? (ref : Nat) (requests : List Request) : Option UInt32 :=
  (requests.filterMap (Request.codeFor? ref)).getLast?

def placements (calls : List (Nat × UInt32)) : List Request :=
  calls.map fun call => .place call.1 call.2

variable {t : TypeTable} {ref : Nat} {s : StructType}

theorem step_of_read {request : Request} (hi : request.interned? = none)
    (hp : ∀ ref code, request ≠ .place ref code) : (t.step request).2 = (none, t) := by
  rcases t.step_cases request with ⟨name, rfl⟩ | ⟨ref, code, event, next, rfl, -⟩ | ⟨-, hs⟩
  · cases hi
  · exact absurd rfl (hp ref code)
  · exact hs

theorem get?_intern (h : t.get? ref = some s) (name : String) :
    (t.intern name).2.2.get? ref = some s := by
  cases hf : t.find? name with
  | some found => rwa [intern_of_some hf]
  | none =>
    obtain ⟨hlt, -⟩ := List.getElem?_eq_some_iff.mp h
    rw [intern_of_none hf, get?, List.getElem?_append_left hlt]
    exact h

theorem step_place_of_none {code : UInt32} (h : t.get? ref = none) :
    (t.step (.place ref code)).2 = (none, t) := by
  simp [step, place, h]

theorem step_place_of_some {code : UInt32} (h : t.get? ref = some s) :
    (t.step (.place ref code)).2 = (some (placement s code),
      { t with types := t.types.set ref { s with code := some code } }) := by
  simp [step, place, h]

theorem get?_step_place_self (h : t.get? ref = some s) (code : UInt32) :
    (t.step (.place ref code)).2.2.get? ref = some { s with code := some code } := by
  obtain ⟨hlt, -⟩ := List.getElem?_eq_some_iff.mp h
  rw [step_place_of_some h, get?, List.getElem?_set_self hlt]

theorem get?_step_place_ne (t : TypeTable) {placed : Nat} (h : placed ≠ ref) (code : UInt32) :
    (t.step (.place placed code)).2.2.get? ref = t.get? ref := by
  cases hu : t.get? placed with
  | none => rw [step_place_of_none hu]
  | some u =>
    rw [step_place_of_some hu, get?, List.getElem?_set_ne h]
    rfl

theorem get?_step (h : t.get? ref = some s) (request : Request) :
    (t.step request).2.2.get? ref =
      some { s with code := (request.codeFor? ref).or s.code } := by
  cases request with
  | intern name => exact get?_intern h name
  | place placed code =>
    by_cases hp : placed = ref
    · subst hp
      simp [get?_step_place_self h, Request.codeFor?]
    · simp [get?_step_place_ne t hp, h, Request.codeFor?, hp]
  | find name => exact h
  | refs => exact h
  | size => exact h
  | isEmpty => exact h
  | codeOf ref => rw [step_of_read rfl (by simp)]; exact h
  | typeOf ref => rw [step_of_read rfl (by simp)]; exact h
  | emissionOrder => rw [step_of_read rfl (by simp)]; exact h

theorem lastCode?_cons (ref : Nat) (request : Request) (requests : List Request) :
    lastCode? ref (request :: requests) = (lastCode? ref requests).or (request.codeFor? ref) := by
  cases hc : request.codeFor? ref with
  | none => simp [lastCode?, hc]
  | some code =>
    rw [lastCode?, List.filterMap_cons_some hc, List.getLast?_cons]
    simp [lastCode?, Option.or_some]

theorem get?_run (h : t.get? ref = some s) (requests : List Request) :
    (t.run requests).get? ref = some { s with code := (lastCode? ref requests).or s.code } := by
  induction requests generalizing t s with
  | nil => exact h
  | cons request requests ih =>
    rw [run, ih (get?_step h request), lastCode?_cons, Option.or_assoc]

theorem placements_cons (call : Nat × UInt32) (calls : List (Nat × UInt32)) :
    placements (call :: calls) = .place call.1 call.2 :: placements calls := rfl

theorem lastCode?_placements_of_not_mem {calls : List (Nat × UInt32)}
    (h : ref ∉ calls.map Prod.fst) : lastCode? ref (placements calls) = none := by
  induction calls with
  | nil => rfl
  | cons call calls ih =>
    rw [List.map_cons, List.mem_cons, not_or] at h
    rw [placements_cons, lastCode?_cons, ih h.2, Request.codeFor?, if_neg (Ne.symm h.1)]
    rfl

theorem lastCode?_placements {calls : List (Nat × UInt32)} (hn : (calls.map Prod.fst).Nodup)
    {code : UInt32} (h : (ref, code) ∈ calls) :
    lastCode? ref (placements calls) = some code := by
  induction calls with
  | nil => cases h
  | cons call calls ih =>
    obtain ⟨hnew, hrest⟩ := List.nodup_cons.mp hn
    rw [placements_cons, lastCode?_cons, Request.codeFor?]
    rcases List.mem_cons.mp h with rfl | h
    · simp [lastCode?_placements_of_not_mem hnew]
    · simp [ih hrest h]

theorem names_run_placements (t : TypeTable) (calls : List (Nat × UInt32)) :
    (t.run (placements calls)).names = t.names := by
  induction calls generalizing t with
  | nil => rfl
  | cons call calls ih => exact (ih _).trans (step_keeps_names rfl).1

theorem size_run_placements (t : TypeTable) (calls : List (Nat × UInt32)) :
    (t.run (placements calls)).size = t.size := by
  rw [← length_names, names_run_placements, length_names]

theorem refs_run_placements (t : TypeTable) (calls : List (Nat × UInt32)) :
    (t.run (placements calls)).refs = t.refs := by
  rw [refs, size_run_placements, refs]

theorem mem_refs : ref ∈ t.refs ↔ ∃ s, t.get? ref = some s := by
  rw [refs, List.mem_range, exists_get?_iff]

theorem refs_filterMap_get? (t : TypeTable) : t.refs.filterMap t.get? = t.types := by
  have hself : t.types.mapIdx (fun _ s => s) = t.types := List.ext_getElem (by simp) (by simp)
  have hrange := filterMap_range_getElem? t.types fun _ s => s
  simp only [Option.map_id_fun', id_eq, hself] at hrange
  exact hrange

/-- A plan names every type of the table once, with indices that ascend. -/
structure IsPlan (t : TypeTable) (plan : List (Nat × UInt32)) : Prop where
  refs : (plan.map Prod.fst).Perm t.refs
  codes : (plan.map Prod.snd).Pairwise (· < ·)

namespace IsPlan

variable {plan calls : List (Nat × UInt32)}

theorem get?_run (h : t.IsPlan plan) (hcalls : calls.Perm plan) {p : Nat × UInt32}
    (hp : p ∈ plan) : ∃ s, t.get? p.1 = some s ∧
      (t.run (placements calls)).get? p.1 = some { s with code := some p.2 } := by
  obtain ⟨s, hs⟩ := mem_refs.mp (h.refs.mem_iff.mp (List.mem_map_of_mem hp))
  have hnodup : (calls.map Prod.fst).Nodup :=
    ((hcalls.map Prod.fst).trans h.refs).nodup_iff.mpr List.nodup_range
  have hlast : lastCode? p.1 (placements calls) = some p.2 :=
    lastCode?_placements hnodup (hcalls.mem_iff.mpr hp)
  refine ⟨s, hs, ?_⟩
  rw [TypeTable.get?_run hs, hlast]
  rfl

theorem emissionOrder (h : t.IsPlan plan) (hcalls : calls.Perm plan) :
    (t.run (placements calls)).emissionOrder =
      .ok (plan.filterMap fun p => (t.run (placements calls)).get? p.1) := by
  have hplaced := fun p (hp : p ∈ plan) => h.get?_run hcalls hp
  have hrefs : (plan.map Prod.fst).Perm (t.run (placements calls)).refs := by
    rw [refs_run_placements]
    exact h.refs
  generalize t.run (placements calls) = placed at hplaced hrefs
  have hperm := hrefs.filterMap placed.get?
  rw [refs_filterMap_get?, List.filterMap_map] at hperm
  refine emissionOrder_eq_ok_iff.mpr ⟨?_, hperm, ?_⟩
  · rw [unplaced_eq_nil_iff]
    intro u hu hnone
    obtain ⟨p, hp, hget⟩ := List.mem_filterMap.mp (hperm.mem_iff.mpr hu)
    obtain ⟨s, -, hs⟩ := hplaced p hp
    obtain rfl := Option.some.inj (hs.symm.trans hget)
    cases hnone
  · rw [Ascending, List.pairwise_filterMap]
    refine (List.pairwise_map.mp h.codes).imp_of_mem ?_
    intro p q hp hq hlt u hu v hv
    obtain ⟨s, -, hs⟩ := hplaced p hp
    obtain ⟨s', -, hs'⟩ := hplaced q hq
    obtain rfl := Option.some.inj (hs.symm.trans hu)
    obtain rfl := Option.some.inj (hs'.symm.trans hv)
    exact hlt

theorem map_some_filterMap_get? (h : t.IsPlan plan) (hcalls : calls.Perm plan) :
    (plan.filterMap fun p => (t.run (placements calls)).get? p.1).map some =
      plan.map fun p => (t.get? p.1).map fun s => { s with code := some p.2 } := by
  rw [List.map_filterMap, ← List.filterMap_eq_map]
  apply List.filterMap_congr
  intro p hp
  obtain ⟨s, hs, hplaced⟩ := h.get?_run hcalls hp
  rw [Function.comp_apply, hs, hplaced]
  rfl

end IsPlan

theorem unplaced_run_placements (h : t.get? ref = some s) (hcode : s.code = none)
    {calls : List (Nat × UInt32)} (hout : ref ∉ calls.map Prod.fst) :
    ∃ u more, (t.run (placements calls)).unplaced = u :: more := by
  have hkept := get?_run h (placements calls)
  rw [lastCode?_placements_of_not_mem hout, hcode] at hkept
  cases hu : (t.run (placements calls)).unplaced with
  | nil => exact absurd rfl (unplaced_eq_nil_iff.mp hu _ (List.mem_of_getElem? hkept))
  | cons u more => exact ⟨u, more, rfl⟩

/-- Whoever places every type once, at ascending indices, gets the types out in that
order. It does not matter in which order the placements are made, nor which indices
the types had before, and the table itself keeps its order. If a type that has no index is
left out, there is no order. -/
theorem plan_decides_emissionOrder (t : TypeTable) :
    (∀ plan calls : List (Nat × UInt32), t.IsPlan plan → calls.Perm plan →
        let placed := t.run (placements calls)
        (∃ order : List StructType, placed.emissionOrder = .ok order ∧
          order.map some =
            plan.map fun p => (t.get? p.1).map fun s => { s with code := some p.2 }) ∧
        (∀ p ∈ plan, (placed.step (.codeOf p.1)).1 = .code (some p.2)) ∧
        placed.refs = t.refs ∧ placed.names = t.names) ∧
      ∀ (calls : List (Nat × UInt32)) (ref : Nat) (s : StructType),
        t.get? ref = some s → s.code = none → ref ∉ calls.map Prod.fst →
        ∃ name, (t.run (placements calls)).emissionOrder = .error (.unassigned name) := by
  constructor
  · intro plan calls hplan hcalls placed
    refine ⟨⟨_, hplan.emissionOrder hcalls, hplan.map_some_filterMap_get? hcalls⟩, ?_,
      t.refs_run_placements calls, t.names_run_placements calls⟩
    intro p hp
    obtain ⟨s, -, hs⟩ := hplan.get?_run hcalls hp
    simp only [placed, step, hs]
  · intro calls ref s hs hcode hout
    obtain ⟨u, more, hu⟩ := unplaced_run_placements hs hcode hout
    exact ⟨u.name, emissionOrder_of_unplaced hu⟩

/-- Three types, two of them placed where others will go. On the way there are
two clashes. Without the call for the third type there is no order. -/
theorem plan_decides_emissionOrder_stale_codes :
    let t := empty.run [.intern "C", .intern "A", .intern "B", .place 0 5, .place 1 7]
    let plan : List (Nat × UInt32) := [(1, 2), (2, 5), (0, 7)]
    let calls : List (Nat × UInt32) := [(2, 5), (0, 7), (1, 2)]
    t.IsPlan plan ∧ calls.Perm plan ∧
      (t.run (placements calls)).emissionOrder =
        .ok [⟨"A", some 2⟩, ⟨"B", some 5⟩, ⟨"C", some 7⟩] ∧
      ∃ name, (t.run (placements [(0, 7), (1, 2)])).emissionOrder =
        .error (.unassigned name) := by
  intro t plan calls
  have hplan : t.IsPlan plan := ⟨by decide +kernel, by decide +kernel⟩
  have hcalls : calls.Perm plan := by decide +kernel
  obtain ⟨hhonoured, hleftOut⟩ := plan_decides_emissionOrder t
  obtain ⟨⟨order, hok, horder⟩, -⟩ := hhonoured plan calls hplan hcalls
  refine ⟨hplan, hcalls, ?_, hleftOut _ 2 ⟨"B", none⟩ (by decide +kernel) rfl (by decide)⟩
  have htypes : order.map some =
      [⟨"A", some 2⟩, ⟨"B", some 5⟩, ⟨"C", some 7⟩].map some := horder.trans (by decide +kernel)
  rw [hok, List.map_injective_iff.mpr (Option.some_injective _) htypes]

end WasmAssembly.TypeTable
