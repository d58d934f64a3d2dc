import WasmAssembly.Proofs.EmissionOrder

/-!
# Tables with the same types

The order of the type section is a matter of names and indices. Two tables that hold the
same types, in whatever order they came in, agree on whether there is an order, on
the order itself, and on what is wrong if there is none. Only which of several types is
named in a report depends on the order in which they were interned.
-/

set_option autoImplicit false

namespace WasmAssembly.TypeTable

variable {t u : TypeTable}

theorem emissionOrder_cases (t : TypeTable) :
    (∃ s more, t.unplaced = s :: more ∧ t.emissionOrder = .error (.unassigned s.name)) ∨
      (t.unplaced = [] ∧ ∃ (code : UInt32) (first second : StructType) (more : List StructType),
        t.placedAt code = first :: second :: more ∧
        (∀ lower < code, (t.placedAt lower).length ≤ 1) ∧
        t.emissionOrder = .error (.duplicateCode code first.name second.name)) ∨
      ∃ order, t.emissionOrder = .ok order := by
  cases hu : t.unplaced with
  | cons s more => exact .inl ⟨s, more, rfl, emissionOrder_of_unplaced hu⟩
  | nil =>
    by_cases hshared : ∃ code, 2 ≤ (t.placedAt code).length
    · exact .inr (.inl ⟨rfl, emissionOrder_of_shared hu hshared⟩)
    · refine .inr (.inr (emissionOrder_of_distinct hu fun code => ?_))
      have hone := not_exists.mp hshared code
      omega

theorem exists_unassigned_iff :
    (∃ name, t.emissionOrder = .error (.unassigned name)) ↔ t.unplaced ≠ [] := by
  constructor
  · rintro ⟨name, h⟩
    rcases t.emissionOrder_cases with
      ⟨s, more, hu, -⟩ | ⟨-, code, first, second, more, -, -, hd⟩ | ⟨order, hok⟩
    · simp [hu]
    · cases hd.symm.trans h
    · cases hok.symm.trans h
  · intro h
    obtain ⟨s, more, hu⟩ := List.exists_cons_of_ne_nil h
    exact ⟨s.name, emissionOrder_of_unplaced hu⟩

theorem duplicateCode_iff {code : UInt32} {first second : String} :
    t.emissionOrder = .error (.duplicateCode code first second) ↔
      t.unplaced = [] ∧ (∀ lower < code, (t.placedAt lower).length ≤ 1) ∧
        ∃ more, (t.placedAt code).map StructType.name = first :: second :: more := by
  constructor
  · intro h
    rcases t.emissionOrder_cases with
      ⟨s, more, -, hs⟩ | ⟨hu, code', s, s', more, hholders, hlower, hd⟩ | ⟨order, hok⟩
    · cases hs.symm.trans h
    · cases hd.symm.trans h
      exact ⟨hu, hlower, more.map StructType.name, by rw [hholders]; rfl⟩
    · cases hok.symm.trans h
  · rintro ⟨hu, hlower, more, hnames⟩
    have htwo : 2 ≤ (t.placedAt code).length := by
      rw [← List.length_map StructType.name, hnames]
      simp
    obtain ⟨code', s, s', more', hholders, hlower', hd⟩ := emissionOrder_of_shared hu ⟨code, htwo⟩
    have hle : code' ≤ code := by
      refine UInt32.not_lt.mp fun hlt => ?_
      have hone := hlower' code hlt
      omega
    have hge : code ≤ code' := by
      refine UInt32.not_lt.mp fun hlt => ?_
      have hone := hlower code' hlt
      simp [hholders] at hone
    obtain rfl := UInt32.le_antisymm hle hge
    rw [hholders] at hnames
    cases hnames
    exact hd

theorem exists_duplicateCode_iff {code : UInt32} :
    (∃ first second, t.emissionOrder = .error (.duplicateCode code first second)) ↔
      t.unplaced = [] ∧ (∀ lower < code, (t.placedAt lower).length ≤ 1) ∧
        2 ≤ (t.placedAt code).length := by
  constructor
  · rintro ⟨first, second, h⟩
    obtain ⟨hu, hlower, more, hnames⟩ := duplicateCode_iff.mp h
    refine ⟨hu, hlower, ?_⟩
    rw [← List.length_map StructType.name, hnames]
    simp
  · rintro ⟨hu, hlower, htwo⟩
    obtain ⟨s, rest, hs⟩ := List.exists_cons_of_length_pos (Nat.lt_of_lt_of_le Nat.zero_lt_two htwo)
    rw [hs, List.length_cons] at htwo
    obtain ⟨s', more, rfl⟩ := List.exists_cons_of_length_pos (Nat.le_of_succ_le_succ htwo)
    exact ⟨s.name, s'.name, duplicateCode_iff.mpr ⟨hu, hlower, _, congrArg _ hs⟩⟩

theorem unplaced_perm (h : t.types.Perm u.types) : t.unplaced.Perm u.unplaced := h.filter _

theorem placedAt_perm (h : t.types.Perm u.types) (code : UInt32) :
    (t.placedAt code).Perm (u.placedAt code) := h.filter _

theorem unplaced_eq_nil_of_perm (h : t.types.Perm u.types) : t.unplaced = [] ↔ u.unplaced = [] := by
  constructor
  · intro hu
    exact ((hu ▸ unplaced_perm h).nil_eq).symm
  · intro hu
    exact (hu ▸ unplaced_perm h).eq_nil

theorem emissionOrder_ok_of_perm (h : t.types.Perm u.types) (order : List StructType) :
    t.emissionOrder = .ok order ↔ u.emissionOrder = .ok order := by
  rw [emissionOrder_eq_ok_iff, emissionOrder_eq_ok_iff, unplaced_eq_nil_of_perm h]
  have horder : order.Perm t.types ↔ order.Perm u.types :=
    ⟨fun hp => hp.trans h, fun hp => hp.trans h.symm⟩
  rw [horder]

theorem exists_duplicateCode_of_perm (h : t.types.Perm u.types) (code : UInt32) :
    (∃ first second, t.emissionOrder = .error (.duplicateCode code first second)) ↔
      ∃ first second, u.emissionOrder = .error (.duplicateCode code first second) := by
  have hlen := fun code => (placedAt_perm h code).length_eq
  simp only [exists_duplicateCode_iff, unplaced_eq_nil_of_perm h, hlen]

theorem duplicateCode_pair_of_perm (h : t.types.Perm u.types) {code : UInt32}
    {first second first' second' : String}
    (ht : t.emissionOrder = .error (.duplicateCode code first second))
    (hu : u.emissionOrder = .error (.duplicateCode code first' second'))
    (htwo : (t.placedAt code).length = 2) :
    (first' = first ∧ second' = second) ∨ (first' = second ∧ second' = first) := by
  obtain ⟨-, -, more, hnames⟩ := duplicateCode_iff.mp ht
  obtain ⟨-, -, more', hnames'⟩ := duplicateCode_iff.mp hu
  have hperm := (placedAt_perm h code).map StructType.name
  have hlen := hperm.length_eq
  rw [hnames, hnames'] at hperm
  rw [List.length_map, htwo, hnames'] at hlen
  have hlen' := congrArg List.length hnames
  rw [List.length_map, htwo] at hlen'
  obtain rfl : more = [] := List.length_eq_zero_iff.mp (by simpa using hlen'.symm)
  obtain rfl : more' = [] := List.length_eq_zero_iff.mp (by simpa using hlen.symm)
  exact eq_or_swap_of_perm hperm

theorem types_perm_of_same {requests requests' : List Request}
    (h : ∀ s, s ∈ (empty.run requests).types ↔ s ∈ (empty.run requests').types) :
    (empty.run requests).types.Perm (empty.run requests').types := by
  have hnodup := fun requests => (Coherent.empty.run requests).names_nodup.of_map
  exact (List.perm_ext_iff_of_nodup (hnodup requests) (hnodup requests')).mpr h

/-- The type section does not depend on the order of interning. Two tables that hold the
same names with the same indices, however they came to hold them, both have an order or
neither has. The order is the same, names and indices alike. If there is none, both report a
type that was never placed, or both report the same index as held twice, and then
the same two types if no third one holds it, though perhaps the other way round. -/
theorem emissionOrder_ignores_interning_order (requests requests' : List Request)
    (h : ∀ s, s ∈ (empty.run requests).types ↔ s ∈ (empty.run requests').types) :
    let t := empty.run requests
    let u := empty.run requests'
    (∀ order : List StructType, t.emissionOrder = .ok order ↔ u.emissionOrder = .ok order) ∧
      ((∃ name, t.emissionOrder = .error (.unassigned name)) ↔
        ∃ name, u.emissionOrder = .error (.unassigned name)) ∧
      (∀ code : UInt32,
        (∃ first second, t.emissionOrder = .error (.duplicateCode code first second)) ↔
          ∃ first second, u.emissionOrder = .error (.duplicateCode code first second)) ∧
      ∀ (code : UInt32) (first second first' second' : String),
        t.emissionOrder = .error (.duplicateCode code first second) →
        u.emissionOrder = .error (.duplicateCode code first' second') →
        (t.placedAt code).length = 2 →
        (first' = first ∧ second' = second) ∨ (first' = second ∧ second' = first) := by
  intro t u
  have hperm : t.types.Perm u.types := types_perm_of_same h
  refine ⟨emissionOrder_ok_of_perm hperm, ?_, exists_duplicateCode_of_perm hperm, ?_⟩
  · rw [exists_unassigned_iff, exists_unassigned_iff]
    exact not_congr (unplaced_eq_nil_of_perm hperm)
  · intro code first second first' second'
    exact duplicateCode_pair_of_perm hperm

/-- Types interned in opposite orders and placed by different runs. Two tables have the
same order. Two others have two types at index zero, and name them in opposite orders. -/
theorem emissionOrder_ignores_interning_order_opposite :
    let ordered := empty.run [.intern "A", .intern "B", .place 1 1, .place 0 4]
    let ordered' := empty.run [.intern "B", .place 0 7, .intern "A", .place 1 4, .place 0 1]
    let clashing := empty.run [.intern "A", .intern "B", .intern "C", .place 0 0, .place 1 0,
      .place 2 1]
    let clashing' := empty.run [.intern "C", .place 0 5, .intern "B", .intern "A", .place 2 0,
      .place 1 0, .place 0 1]
    ((∀ s, s ∈ ordered.types ↔ s ∈ ordered'.types) ∧
      ordered.emissionOrder = .ok [⟨"B", some 1⟩, ⟨"A", some 4⟩] ∧
      ordered'.emissionOrder = .ok [⟨"B", some 1⟩, ⟨"A", some 4⟩]) ∧
      (∀ s, s ∈ clashing.types ↔ s ∈ clashing'.types) ∧ (clashing.placedAt 0).length = 2 ∧
      clashing.emissionOrder = .error (.duplicateCode 0 "A" "B") ∧
      clashing'.emissionOrder = .error (.duplicateCode 0 "B" "A") := by
  intro ordered ordered' clashing clashing'
  have hordered : ∀ s, s ∈ ordered.types ↔ s ∈ ordered'.types := by
    have htypes : ordered.types = [⟨"A", some 4⟩, ⟨"B", some 1⟩] := by decide +kernel
    have htypes' : ordered'.types = [⟨"B", some 1⟩, ⟨"A", some 4⟩] := by decide +kernel
    rw [htypes, htypes']
    exact fun s => (List.Perm.swap _ _ []).mem_iff
  have hclashing : ∀ s, s ∈ clashing.types ↔ s ∈ clashing'.types := by
    have htypes : clashing.types = [⟨"A", some 0⟩, ⟨"B", some 0⟩, ⟨"C", some 1⟩] := by
      decide +kernel
    have htypes' : clashing'.types = clashing.types.reverse := by decide +kernel
    rw [htypes']
    exact fun s => List.mem_reverse.symm
  have hok : ordered.emissionOrder = .ok [⟨"B", some 1⟩, ⟨"A", some 4⟩] :=
    emissionOrder_eq_ok_iff.mpr
      ⟨by decide +kernel, by decide +kernel, by simp [Ascending, StructType.index]⟩
  have hclash : clashing.emissionOrder = .error (.duplicateCode 0 "A" "B") :=
    duplicateCode_iff.mpr
      ⟨by decide +kernel, fun lower hlt => absurd hlt UInt32.not_lt_zero, [], by decide +kernel⟩
  have htwo : (clashing.placedAt 0).length = 2 := by decide +kernel
  obtain ⟨hsame, -⟩ := emissionOrder_ignores_interning_order _ _ hordered
  obtain ⟨-, -, hcode, hpair⟩ := emissionOrder_ignores_interning_order _ _ hclashing
  refine ⟨⟨hordered, hok, (hsame _).mp hok⟩, hclashing, htwo, hclash, ?_⟩
  obtain ⟨first, second, hclash'⟩ := (hcode 0).mp ⟨_, _, hclash⟩
  rcases hpair 0 _ _ _ _ hclash hclash' htwo with ⟨rfl, rfl⟩ | ⟨rfl, rfl⟩
  · obtain ⟨-, -, more, hnames⟩ := duplicateCode_iff.mp hclash'
    have hholders : (clashing'.placedAt 0).map StructType.name = ["B", "A"] := by decide +kernel
    have hswapped := hholders.symm.trans hnames
    simp at hswapped
  · exact hclash'

end WasmAssembly.TypeTable
