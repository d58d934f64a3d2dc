import WasmAssembly.Command.Report
import WasmAssembly.Proofs.Placement

/-!
# The types of a run

A run interns the names that it is given and then places every type at its own
position. The positions are a plan for the table, so the types always come out in
an order, and no type is ever moved.
-/

set_option autoImplicit false

namespace WasmAssembly

namespace TypeTable

variable {t : TypeTable}

theorem event_place (t : TypeTable) (ref : Nat) (code : UInt32) :
    (t.step (.place ref code)).2.1 = (t.get? ref).map (placement · code) := by
  cases h : t.get? ref with
  | none => rw [step_place_of_none h]; rfl
  | some s => rw [step_place_of_some h]; rfl

theorem events_placements {calls : List (Nat × UInt32)} (h : (calls.map Prod.fst).Nodup) :
    t.events (placements calls) =
      calls.filterMap fun call => (t.get? call.1).map (placement · call.2) := by
  induction calls generalizing t with
  | nil => rfl
  | cons call calls ih =>
    obtain ⟨hnew, hrest⟩ := List.nodup_cons.mp h
    have hothers : calls.filterMap (fun other =>
          ((t.step (.place call.1 call.2)).2.2.get? other.1).map (placement · other.2)) =
        calls.filterMap fun other => (t.get? other.1).map (placement · other.2) := by
      apply List.filterMap_congr
      intro other hother
      have hne : call.1 ≠ other.1 := fun heq => hnew (heq ▸ List.mem_map_of_mem hother)
      rw [get?_step_place_ne t hne]
    rw [placements_cons, events, ih hrest, hothers, event_place, List.filterMap_cons]
    cases t.get? call.1 <;> rfl

theorem code_intern (h : ∀ s ∈ t.types, s.code = none) (name : String) :
    ∀ s ∈ (t.intern name).2.2.types, s.code = none := by
  cases hf : t.find? name with
  | some ref => rwa [intern_of_some hf]
  | none =>
    rw [intern_of_none hf]
    intro s hs
    rcases List.mem_append.mp hs with hs | hs
    · exact h s hs
    · rw [List.mem_singleton.mp hs]

end TypeTable

namespace Command

open TypeTable

def internedTable (names : List String) : TypeTable := TypeTable.empty.run (interning names)

def numbering (t : TypeTable) : List (Nat × UInt32) :=
  t.refs.map fun ref => (ref, UInt32.ofNat ref)

theorem map_fst_numbering (t : TypeTable) : (numbering t).map Prod.fst = t.refs := by
  simp [numbering, Function.comp_def]

theorem placing_eq_placements (t : TypeTable) : placing t = placements (numbering t) := by
  simp [placing, placements, numbering]

theorem typeTable_eq_run (names : List String) :
    typeTable names = (internedTable names).run (placements (numbering (internedTable names))) := by
  rw [← placing_eq_placements]
  rfl

theorem lookedUp_interning (names : List String) : lookedUp (interning names) = names := by
  simp [lookedUp, interning, List.filterMap_map, Function.comp_def, Request.interned?]

theorem names_internedTable (names : List String) :
    (internedTable names).names = names.eraseDups := by
  rw [internedTable, names_run_empty, lookedUp_interning]

theorem code_run_interning {t : TypeTable} (h : ∀ s ∈ t.types, s.code = none)
    (names : List String) : ∀ s ∈ (t.run (interning names)).types, s.code = none := by
  induction names generalizing t with
  | nil => exact h
  | cons name names ih => exact ih (code_intern h name)

theorem types_internedTable (names : List String) :
    (internedTable names).types = names.eraseDups.map fun name => ⟨name, none⟩ := by
  have hnone : ∀ s ∈ (internedTable names).types, s.code = none :=
    code_run_interning (fun s hs => by cases hs) names
  calc (internedTable names).types
      = (internedTable names).types.map id := (List.map_id _).symm
    _ = (internedTable names).types.map fun s => ⟨s.name, none⟩ :=
        List.map_congr_left fun s hs => by rw [← hnone s hs, id_eq]
    _ = names.eraseDups.map fun name => ⟨name, none⟩ := by
        rw [← names_internedTable, TypeTable.names, List.map_map]
        rfl

theorem size_internedTable (names : List String) :
    (internedTable names).size = names.eraseDups.length := by
  rw [← length_names, names_internedTable]

theorem isPlan_numbering {t : TypeTable} (h : t.size < 4294967296) : t.IsPlan (numbering t) := by
  constructor
  · rw [map_fst_numbering]
  · rw [numbering, List.map_map, List.pairwise_map, refs]
    refine List.pairwise_lt_range.imp_of_mem ?_
    intro i j _ hj hij
    have hj' : j < UInt32.size := Nat.lt_trans (List.mem_range.mp hj) h
    exact (UInt32.ofNat_lt_iff_lt (Nat.lt_trans hij hj') hj').mpr hij

theorem emissionOrder_typeTable {names : List String}
    (h : names.eraseDups.length < 4294967296) :
    (typeTable names).emissionOrder = .ok (typeTable names).types := by
  rw [← size_internedTable] at h
  have horder := (isPlan_numbering h).emissionOrder (List.Perm.refl _)
  have hrefs : (typeTable names).refs = (internedTable names).refs := by
    rw [typeTable_eq_run, refs_run_placements]
  rw [← typeTable_eq_run, numbering, List.filterMap_map, ← hrefs] at horder
  rw [horder]
  exact congrArg Except.ok (typeTable names).refs_filterMap_get?

theorem events_interning (names : List String) :
    TypeTable.empty.events (interning names) = names.eraseDups.map .interned := by
  induction names using List.reverseRecOn with
  | nil => rfl
  | append_singleton names name ih =>
    have hcoherent : (internedTable names).Coherent := Coherent.empty.run (interning names)
    have hsplit : interning (names ++ [name]) = interning names ++ [.intern name] := by
      simp [interning]
    have hlast : (TypeTable.empty.run (interning names)).events [.intern name] =
        ((internedTable names).intern name).2.1.toList := List.append_nil _
    rw [hsplit, events_append, ih, hlast, eraseDups_concat]
    cases hf : (internedTable names).find? name with
    | some ref =>
      have hmem : name ∈ names.eraseDups := by
        rw [← names_internedTable]
        exact List.mem_of_getElem? ((hcoherent name ref).mp hf)
      rw [intern_of_some hf, if_pos hmem]
      simp
    | none =>
      have hnew : name ∉ names.eraseDups := by
        rw [← names_internedTable]
        exact hcoherent.find?_eq_none_iff.mp hf
      rw [intern_of_none hf, if_neg hnew]
      simp

theorem events_placing (names : List String) :
    (internedTable names).events (placing (internedTable names)) =
      names.eraseDups.mapIdx fun index name => .placed name (UInt32.ofNat index) := by
  have hnodup : ((numbering (internedTable names)).map Prod.fst).Nodup := by
    rw [map_fst_numbering]
    exact List.nodup_range
  rw [placing_eq_placements, events_placements hnodup, numbering, List.filterMap_map, refs, size]
  refine (filterMap_range_getElem? (internedTable names).types
    fun ref s => placement s (UInt32.ofNat ref)).trans ?_
  rw [types_internedTable]
  apply List.ext_getElem
  · simp
  · intro k hk hk'
    simp [placement]

theorem typeEvents_eq (names : List String) :
    typeEvents names = names.eraseDups.map .interned ++
      names.eraseDups.mapIdx fun index name => .placed name (UInt32.ofNat index) := by
  rw [← events_interning, ← events_placing]
  rfl

theorem level_typeEvents {names : List String} {event : TypeEvent} (h : event ∈ typeEvents names) :
    event.level = .debug := by
  rw [typeEvents_eq] at h
  rcases List.mem_append.mp h with h | h
  · obtain ⟨name, -, rfl⟩ := List.mem_map.mp h
    rfl
  · obtain ⟨index, hlt, rfl⟩ := List.mem_mapIdx.mp h
    rfl

end Command

end WasmAssembly
