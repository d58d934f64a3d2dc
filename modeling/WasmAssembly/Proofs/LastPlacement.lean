import WasmAssembly.Proofs.Placement

/-!
# The last placement counts

What a table holds after a run can be read off the requests: the names that were
interned, in order, and for each position the index of the last placement that was
served there. How the placements came between the other requests, and how
often they were repeated, leaves no trace.
-/

set_option autoImplicit false

namespace WasmAssembly.TypeTable

def Request.withinReach (t : TypeTable) : Request → Bool
  | .place ref _ => ref < t.size
  | _ => true

/-- The requests of a run, less the placements that came when the table did not have
their position. -/
def served : TypeTable → List Request → List Request
  | _, [] => []
  | t, request :: requests =>
    if request.withinReach t then request :: served (t.step request).2.2 requests
    else served (t.step request).2.2 requests

def codeAt? (t : TypeTable) (ref : Nat) : Option UInt32 := (t.get? ref).bind StructType.code

variable {t : TypeTable} {ref : Nat} {s : StructType}

theorem get?_eq_none_iff : t.get? ref = none ↔ t.size ≤ ref := List.getElem?_eq_none_iff

theorem step_place_of_size_le (h : t.size ≤ ref) (code : UInt32) :
    t.step (.place ref code) = (.outOfRange t.size ref, none, t) := by
  simp [step, place, get?_eq_none_iff.mpr h]

theorem codeAt?_intern (t : TypeTable) (name : String) (ref : Nat) :
    (t.intern name).2.2.codeAt? ref = t.codeAt? ref := by
  cases hf : t.find? name with
  | some found => rw [intern_of_some hf]
  | none =>
    rw [intern_of_none hf, codeAt?, codeAt?, get?, get?]
    rcases Nat.lt_trichotomy ref t.types.length with hlt | rfl | hgt
    · rw [List.getElem?_append_left hlt]
    · simp
    · have hlen : (t.types ++ [StructType.mk name none]).length ≤ ref := by
        rw [List.length_append]
        exact hgt
      rw [List.getElem?_eq_none hlen, List.getElem?_eq_none (Nat.le_of_lt hgt)]

theorem codeAt?_step_place (t : TypeTable) (placed : Nat) (code : UInt32) (ref : Nat) :
    (t.step (.place placed code)).2.2.codeAt? ref =
      if placed = ref ∧ placed < t.size then some code else t.codeAt? ref := by
  by_cases hlt : placed < t.size
  · obtain ⟨s, hs⟩ := (exists_get?_iff t placed).mpr hlt
    by_cases hp : placed = ref
    · subst hp
      simp [codeAt?, get?_step_place_self hs, hlt]
    · simp [codeAt?, get?_step_place_ne t hp, hp]
  · rw [step_place_of_size_le (Nat.le_of_not_lt hlt), if_neg fun h => hlt h.2]

theorem codeAt?_step (t : TypeTable) (request : Request) (ref : Nat) :
    (t.step request).2.2.codeAt? ref =
      if request.withinReach t then (request.codeFor? ref).or (t.codeAt? ref)
      else t.codeAt? ref := by
  cases request with
  | intern name => exact codeAt?_intern t name ref
  | place placed code =>
    rw [codeAt?_step_place]
    by_cases hp : placed = ref <;> by_cases hlt : placed < t.size <;>
      simp [Request.withinReach, Request.codeFor?, hp, hlt]
  | find name => rfl
  | refs => rfl
  | size => rfl
  | isEmpty => rfl
  | codeOf ref => rw [step_of_read rfl (by simp)]; rfl
  | typeOf ref => rw [step_of_read rfl (by simp)]; rfl
  | emissionOrder => rw [step_of_read rfl (by simp)]; rfl

theorem codeAt?_run (t : TypeTable) (requests : List Request) (ref : Nat) :
    (t.run requests).codeAt? ref =
      (lastCode? ref (served t requests)).or (t.codeAt? ref) := by
  induction requests generalizing t with
  | nil => rfl
  | cons request requests ih =>
    rw [run, ih, codeAt?_step, served]
    cases request.withinReach t with
    | true => simp [lastCode?_cons, Option.or_assoc]
    | false => rfl

theorem codeAt?_run_empty (requests : List Request) (ref : Nat) :
    (empty.run requests).codeAt? ref = lastCode? ref (served empty requests) := by
  rw [codeAt?_run]
  exact Option.or_none

theorem types_eq_mapIdx (t : TypeTable) :
    t.types = t.names.mapIdx fun ref name => ⟨name, t.codeAt? ref⟩ := by
  apply List.ext_getElem
  · simp [names]
  · intro ref hlt hlt'
    simp [names, codeAt?, get?, hlt]

def Listed (t : TypeTable) : Prop :=
  t.positions = (t.names.mapIdx fun ref name => (name, ref)).reverse

namespace Listed

theorem empty : TypeTable.empty.Listed := rfl

theorem intern (h : t.Listed) (name : String) : (t.intern name).2.2.Listed := by
  cases hf : t.find? name with
  | some ref => rwa [intern_of_some hf]
  | none =>
    have hrow : TypeTable.names ⟨t.types ++ [⟨name, none⟩], (name, t.size) :: t.positions⟩ =
        t.names ++ [name] := by simp [names]
    rw [intern_of_none hf, Listed, hrow, List.mapIdx_concat, List.reverse_append, length_names,
      ← h]
    rfl

theorem step (h : t.Listed) (request : Request) : (t.step request).2.2.Listed := by
  cases hr : request.interned? with
  | none =>
    obtain ⟨hn, hp⟩ := step_keeps_names (t := t) hr
    rw [Listed, hn, hp]
    exact h
  | some name =>
    cases request <;> cases hr
    exact h.intern name

theorem run (h : t.Listed) (requests : List Request) : (t.run requests).Listed := by
  induction requests generalizing t with
  | nil => exact h
  | cons request requests ih => exact ih (h.step request)

end Listed

theorem run_empty_eq (requests : List Request) :
    empty.run requests =
      ⟨(lookedUp requests).eraseDups.mapIdx fun ref name =>
          ⟨name, lastCode? ref (served empty requests)⟩,
        ((lookedUp requests).eraseDups.mapIdx fun ref name => (name, ref)).reverse⟩ := by
  have hlisted : (empty.run requests).Listed := Listed.empty.run requests
  have htypes := types_eq_mapIdx (empty.run requests)
  simp only [codeAt?_run_empty, names_run_empty] at htypes
  rw [Listed, names_run_empty] at hlisted
  rw [← htypes, ← hlisted]

theorem size_run_empty (requests : List Request) :
    (empty.run requests).size = (lookedUp requests).eraseDups.length := by
  rw [← length_names, names_run_empty]

theorem get?_run_empty {requests : List Request} (h : ref ∈ (empty.run requests).refs) :
    ∃ name, (lookedUp requests).eraseDups[ref]? = some name ∧
      (empty.run requests).get? ref = some ⟨name, lastCode? ref (served empty requests)⟩ := by
  obtain ⟨s, hs⟩ := mem_refs.mp h
  have hcode := codeAt?_run_empty requests ref
  have hname := names_getElem? (empty.run requests) ref
  rw [codeAt?, hs] at hcode
  rw [names_run_empty, hs] at hname
  exact ⟨s.name, hname, hs.trans (congrArg some (congrArg (StructType.mk s.name) hcode))⟩

theorem get?_step_of_codeFor? (h : t.get? ref = some s) {request : Request}
    (hr : request.codeFor? ref = none) : (t.step request).2.2.get? ref = some s := by
  rw [get?_step h, hr]
  rfl

/-- The index of a type is that of the last placement at its position, or none if there was
no placement. Nothing else changes it, and a placement changes nothing else. A
placement at a position that the table does not have is refused: it does not count, and
the table stays as it is. So two runs that intern the same names in the same order and end
every position with the same placement leave one and the same table. -/
theorem codes_follow_last_placement (requests : List Request) :
    let t := empty.run requests
    t.refs = List.range (lookedUp requests).eraseDups.length ∧
    (∀ ref ∈ t.refs, ∃ name, (lookedUp requests).eraseDups[ref]? = some name ∧
      (t.step (.codeOf ref)).1 = .code (lastCode? ref (served empty requests)) ∧
      (t.step (.typeOf ref)).1 = .type ⟨name, lastCode? ref (served empty requests)⟩) ∧
    (∀ ref ∈ t.refs, ∀ request : Request, request.codeFor? ref = none →
      (t.step request).2.2.get? ref = t.get? ref) ∧
    (∀ (ref : Nat) (code : UInt32), let placed := (t.step (.place ref code)).2.2
      placed.names = t.names ∧ (∀ name : String, placed.find? name = t.find? name) ∧
      placed.refs = t.refs ∧ ∀ other : Nat, ref ≠ other → placed.get? other = t.get? other) ∧
    (∀ (ref : Nat) (code : UInt32), ref ∉ t.refs →
      t.step (.place ref code) = (.outOfRange t.size ref, none, t)) ∧
    ∀ requests' : List Request, lookedUp requests' = lookedUp requests →
      (∀ ref : Nat, lastCode? ref (served empty requests') =
        lastCode? ref (served empty requests)) →
      empty.run requests' = t ∧
        ∀ request : Request, ((empty.run requests').step request).1 = (t.step request).1 := by
  intro t
  refine ⟨congrArg List.range (size_run_empty requests), ?_, ?_, ?_, ?_, ?_⟩
  · intro ref href
    obtain ⟨name, hname, hs⟩ := get?_run_empty href
    exact ⟨name, hname, by simp only [t, step, hs], by simp only [t, step, hs]⟩
  · intro ref href request hr
    obtain ⟨s, hs⟩ := mem_refs.mp href
    rw [hs, get?_step_of_codeFor? hs hr]
  · intro ref code placed
    obtain ⟨hnames, hpositions⟩ : placed.names = t.names ∧ placed.positions = t.positions :=
      step_keeps_names rfl
    refine ⟨hnames, fun name => ?_, ?_, fun other hne => get?_step_place_ne t hne code⟩
    · rw [find?, hpositions, find?]
    · rw [refs, refs, ← length_names, ← length_names, hnames]
  · intro ref code href
    rw [refs, List.mem_range, Nat.not_lt] at href
    exact step_place_of_size_le href code
  · intro requests' hnames hcodes
    have hsame : empty.run requests' = t := by
      simp only [t, run_empty_eq, hnames, hcodes]
    exact ⟨hsame, fun request => by rw [hsame]⟩

/-- The second run makes fewer placements and in another order. In the first, two are refused:
one before there is a type at its position, the other beyond the table. -/
theorem codes_follow_last_placement_interleaved :
    let requests : List Request := [.place 0 9, .intern "A", .place 0 7, .intern "B", .place 1 5,
      .place 0 2, .intern "A", .place 7 1]
    let requests' : List Request := [.intern "A", .place 0 2, .find "B", .intern "B", .place 1 4,
      .place 1 5, .intern "A"]
    let t := empty.run requests
    (0 ∈ t.refs ∧ (t.step (.codeOf 0)).1 = .code (some 2)) ∧
      (t.step (.find "A")).2.2.get? 0 = t.get? 0 ∧
      (7 ∉ t.refs ∧ t.step (.place 7 1) = (.outOfRange 2 7, none, t)) ∧
      (lookedUp requests' = lookedUp requests ∧
        ∀ ref : Nat, lastCode? ref (served empty requests') =
          lastCode? ref (served empty requests)) ∧
      empty.run requests' = t := by
  intro requests requests' t
  have hserved : served empty requests = [.intern "A", .place 0 7, .intern "B", .place 1 5,
      .place 0 2, .intern "A"] := by decide +kernel
  have hserved' : served empty requests' = requests' := by decide +kernel
  have hcodes : ∀ ref : Nat, lastCode? ref (served empty requests') =
      lastCode? ref (served empty requests) := by
    intro ref
    rw [hserved, hserved']
    rcases ref with _ | _ | ref <;> rfl
  have hrefs : t.refs = [0, 1] := by decide +kernel
  obtain ⟨-, hcode, hkept, -, hrefused, hruns⟩ := codes_follow_last_placement requests
  have hzero : 0 ∈ t.refs := by simp [hrefs]
  have hseven : 7 ∉ t.refs := by simp [hrefs]
  refine ⟨⟨hzero, ?_⟩, hkept 0 hzero _ rfl, ⟨hseven, hrefused 7 1 hseven⟩, ⟨rfl, hcodes⟩,
    (hruns requests' rfl hcodes).1⟩
  obtain ⟨-, -, hlast, -⟩ := hcode 0 hzero
  rw [hlast, hserved]
  rfl

end WasmAssembly.TypeTable
