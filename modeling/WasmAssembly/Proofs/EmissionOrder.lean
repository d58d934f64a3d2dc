import Mathlib.Tactic.Common
import WasmAssembly.Proofs.Interning

/-!
# The order of the type section

The order is found by a stable sort and a look at neighbours. What comes out can
be said without either: the first type that was never placed is reported; else the
lowest index that is held twice, with the first two types that hold it; else the
types stand by ascending index, and no other order does.
-/

set_option autoImplicit false

namespace WasmAssembly.TypeTable

def unplaced (t : TypeTable) : List StructType := t.types.filter fun s => s.code.isNone

def placedAt (t : TypeTable) (code : UInt32) : List StructType :=
  t.types.filter fun s => s.code = some code

def Ascending (types : List StructType) : Prop := types.Pairwise fun s u => s.index < u.index

variable {t : TypeTable} {types : List StructType}

theorem code_eq_index {s : StructType} (h : s.code ≠ none) : s.code = some s.index := by
  obtain ⟨code, hcode⟩ := Option.ne_none_iff_exists'.mp h
  rw [StructType.index, hcode]
  rfl

theorem precedes_iff {s u : StructType} : precedes s u = true ↔ s.index ≤ u.index := by
  simp [precedes]

theorem precedes_trans (s u v : StructType) (hsu : precedes s u = true)
    (huv : precedes u v = true) : precedes s v = true := by
  rw [precedes_iff] at *
  exact UInt32.le_trans hsu huv

theorem precedes_total (s u : StructType) : (precedes s u || precedes u s) = true := by
  rw [Bool.or_eq_true, precedes_iff, precedes_iff]
  exact UInt32.le_total _ _

theorem pairwise_sorted (types : List StructType) :
    (types.mergeSort precedes).Pairwise fun s u => s.index ≤ u.index :=
  (List.pairwise_mergeSort precedes_trans precedes_total types).imp precedes_iff.mp

theorem filter_sorted (types : List StructType) (code : UInt32) :
    (types.mergeSort precedes).filter (fun s => s.index = code) =
      types.filter (fun s => s.index = code) := by
  have htied : (types.filter fun s => s.index = code).Pairwise fun s u => precedes s u = true := by
    apply List.pairwise_filter.mpr
    apply List.pairwise_of_forall
    intro s u hs hu
    rw [precedes_iff, of_decide_eq_true hs, of_decide_eq_true hu]
    exact UInt32.le_refl code
  -- being in order already, they are a part of the sorted row, and there are no others in it
  have hsub := List.sublist_mergeSort precedes_trans precedes_total htied List.filter_sublist
  have hlen := ((types.mergeSort_perm precedes).filter fun s => decide (s.index = code)).length_eq
  have hkept := hsub.filter fun s => decide (s.index = code)
  rw [List.filter_filter] at hkept
  simp only [Bool.and_self] at hkept
  exact (hkept.eq_of_length hlen.symm).symm

theorem Ascending.length_filter_le (h : Ascending types) (code : UInt32) :
    (types.filter fun s => s.index = code).length ≤ 1 := by
  induction types with
  | nil => simp
  | cons s types ih =>
    obtain ⟨hs, hrest⟩ := List.pairwise_cons.mp h
    by_cases hc : s.index = code
    · have hnone : types.filter (fun u => u.index = code) = [] := by
        rw [List.filter_eq_nil_iff]
        intro u hu he
        have hlt := hs u hu
        rw [hc, of_decide_eq_true he] at hlt
        exact UInt32.lt_irrefl code hlt
      simp [hc, hnone]
    · simpa [hc] using ih hrest

/-- In a row that never descends, the first neighbours that share an index come
after an ascending part, and without such neighbours the whole row ascends. -/
theorem clash?_sorted (h : types.Pairwise fun s u => s.index ≤ u.index) :
    (clash? types = none ∧ Ascending types) ∨
      ∃ (before after : List StructType) (first second : StructType),
        types = before ++ first :: second :: after ∧ Ascending (before ++ [first]) ∧
        first.index = second.index ∧
        clash? types = some (.duplicateCode first.index first.name second.name) := by
  fun_induction clash? types with
  | case1 => exact .inl ⟨rfl, List.Pairwise.nil⟩
  | case2 s => exact .inl ⟨rfl, List.pairwise_singleton _ _⟩
  | case3 s u rest heq => exact .inr ⟨[], rest, s, u, rfl, List.pairwise_singleton _ _, heq, rfl⟩
  | case4 s u rest hne ih =>
    obtain ⟨hs, hrest⟩ := List.pairwise_cons.mp h
    have hsu : s.index < u.index := UInt32.lt_of_le_of_ne (hs u (by simp)) hne
    have hlt : ∀ v ∈ u :: rest, s.index < v.index := by
      intro v hv
      rcases List.mem_cons.mp hv with rfl | hv
      · exact hsu
      · exact UInt32.lt_of_lt_of_le hsu ((List.pairwise_cons.mp hrest).1 v hv)
    rcases ih hrest with ⟨hnone, hasc⟩ | ⟨before, after, first, second, hsplit, hasc, heq, hsome⟩
    · exact .inl ⟨hnone, List.pairwise_cons.mpr ⟨hlt, hasc⟩⟩
    · refine .inr ⟨s :: before, after, first, second, by rw [hsplit]; rfl, ?_, heq, hsome⟩
      show Ascending (s :: (before ++ [first]))
      refine List.pairwise_cons.mpr ⟨fun v hv => hlt v ?_, hasc⟩
      rw [hsplit]
      rcases List.mem_append.mp hv with hv | hv
      · exact List.mem_append_left _ hv
      · simp [List.mem_singleton.mp hv]

theorem filter_index_of_clash {before after : List StructType} {first second : StructType}
    (h : (before ++ first :: second :: after).Pairwise fun s u => s.index ≤ u.index)
    (hasc : Ascending (before ++ [first])) (heq : first.index = second.index) :
    (before ++ first :: second :: after).filter (fun s => s.index = first.index) =
        first :: second :: after.filter (fun s => s.index = first.index) ∧
      ∀ lower < first.index,
        ((before ++ first :: second :: after).filter fun s => s.index = lower).length ≤ 1 := by
  obtain ⟨hbefore, -, hlt⟩ := List.pairwise_append.mp hasc
  have hrest := (List.pairwise_append.mp h).2.1
  constructor
  · have hnone : before.filter (fun s => s.index = first.index) = [] := by
      rw [List.filter_eq_nil_iff]
      intro s hs he
      exact UInt32.ne_of_lt (hlt s hs first (by simp)) (of_decide_eq_true he)
    rw [List.filter_append, hnone, List.nil_append, List.filter_cons_of_pos (by simp),
      List.filter_cons_of_pos (by simp [heq])]
  · intro lower hlower
    have hnone : (first :: second :: after).filter (fun s => s.index = lower) = [] := by
      rw [List.filter_eq_nil_iff]
      intro s hs he
      have hle : first.index ≤ s.index := by
        rcases List.mem_cons.mp hs with rfl | hs
        · exact UInt32.le_refl _
        · exact (List.pairwise_cons.mp hrest).1 s hs
      rw [of_decide_eq_true he] at hle
      exact UInt32.not_le.mpr hlower hle
    rw [List.filter_append, hnone, List.append_nil]
    exact Ascending.length_filter_le hbefore lower

theorem clash?_mergeSort (types : List StructType) :
    (clash? (types.mergeSort precedes) = none ∧ Ascending (types.mergeSort precedes)) ∨
      ∃ (code : UInt32) (first second : StructType) (more : List StructType),
        types.filter (fun s => s.index = code) = first :: second :: more ∧
        (∀ lower < code, (types.filter fun s => s.index = lower).length ≤ 1) ∧
        clash? (types.mergeSort precedes) =
          some (.duplicateCode code first.name second.name) := by
  have hsorted := pairwise_sorted types
  rcases clash?_sorted hsorted with
    hasc | ⟨before, after, first, second, hsplit, hasc, heq, hsome⟩
  · exact .inl hasc
  · have hstable := filter_sorted types
    rw [hsplit] at hsorted hstable
    obtain ⟨hfirst, hlower⟩ := filter_index_of_clash hsorted hasc heq
    refine .inr ⟨first.index, first, second, _, (hstable _).symm.trans hfirst, ?_, hsome⟩
    intro lower hlt
    rw [← hstable]
    exact hlower lower hlt

theorem unplaced_eq_nil_iff : t.unplaced = [] ↔ ∀ s ∈ t.types, s.code ≠ none := by
  simp [unplaced, List.filter_eq_nil_iff]

theorem filter_index_eq_placedAt (h : t.unplaced = []) (code : UInt32) :
    t.types.filter (fun s => s.index = code) = t.placedAt code := by
  apply List.filter_congr
  intro s hs
  rw [code_eq_index (unplaced_eq_nil_iff.mp h s hs)]
  simp

theorem emissionOrder_of_unplaced {s : StructType} {more : List StructType}
    (h : t.unplaced = s :: more) : t.emissionOrder = .error (.unassigned s.name) := by
  have hfind : t.types.find? (fun s => s.code.isNone) = some s := by
    rw [← List.head?_filter]
    exact congrArg List.head? h
  rw [emissionOrder, hfind]

theorem find?_of_placed (h : t.unplaced = []) :
    t.types.find? (fun s => s.code.isNone) = none := by
  rw [List.find?_eq_none]
  intro s hs
  simpa using unplaced_eq_nil_iff.mp h s hs

theorem emissionOrder_of_clash (h : t.unplaced = []) {fault : OrderFault}
    (hc : clash? (t.types.mergeSort precedes) = some fault) : t.emissionOrder = .error fault := by
  simp [emissionOrder, find?_of_placed h, hc]

theorem emissionOrder_of_no_clash (h : t.unplaced = [])
    (hc : clash? (t.types.mergeSort precedes) = none) :
    t.emissionOrder = .ok (t.types.mergeSort precedes) := by
  simp [emissionOrder, find?_of_placed h, hc]

theorem unplaced_of_emissionOrder_ok {order : List StructType} (h : t.emissionOrder = .ok order) :
    t.unplaced = [] := by
  cases hu : t.unplaced with
  | nil => rfl
  | cons s more =>
    rw [emissionOrder_of_unplaced hu] at h
    cases h

/-- The types are emitted in an order if and only if it is the ascending one. -/
theorem emissionOrder_eq_ok_iff {order : List StructType} :
    t.emissionOrder = .ok order ↔ t.unplaced = [] ∧ order.Perm t.types ∧ Ascending order := by
  have hsorted := t.types.mergeSort_perm precedes
  rcases clash?_mergeSort t.types with
    ⟨hnone, hasc⟩ | ⟨code, first, second, more, hholders, -, hsome⟩
  · constructor
    · intro hok
      have h := unplaced_of_emissionOrder_ok hok
      rw [emissionOrder_of_no_clash h hnone] at hok
      cases hok
      exact ⟨h, hsorted, hasc⟩
    · rintro ⟨h, hperm, horder⟩
      have hsame := (hsorted.trans hperm.symm).eq_of_pairwise
        (fun s u _ _ hsu hus => absurd hus (UInt32.lt_asymm hsu)) hasc horder
      rw [emissionOrder_of_no_clash h hnone, hsame]
  · constructor
    · intro hok
      rw [emissionOrder_of_clash (unplaced_of_emissionOrder_ok hok) hsome] at hok
      cases hok
    · rintro ⟨-, hperm, horder⟩
      have hone := horder.length_filter_le code
      rw [(hperm.filter _).length_eq, hholders] at hone
      simp at hone

theorem emissionOrder_of_shared (h : t.unplaced = [])
    (hshared : ∃ code, 2 ≤ (t.placedAt code).length) :
    ∃ (code : UInt32) (first second : StructType) (more : List StructType),
      t.placedAt code = first :: second :: more ∧
      (∀ lower < code, (t.placedAt lower).length ≤ 1) ∧
      t.emissionOrder = .error (.duplicateCode code first.name second.name) := by
  have hplaced := filter_index_eq_placedAt h
  rcases clash?_mergeSort t.types with
    ⟨-, hasc⟩ | ⟨code, first, second, more, hholders, hlower, hsome⟩
  · obtain ⟨code, htwo⟩ := hshared
    have hone := hasc.length_filter_le code
    rw [filter_sorted, hplaced] at hone
    omega
  · simp only [hplaced] at hholders hlower
    exact ⟨code, first, second, more, hholders, hlower, emissionOrder_of_clash h hsome⟩

theorem emissionOrder_of_distinct (h : t.unplaced = [])
    (hone : ∀ code, (t.placedAt code).length ≤ 1) : ∃ order, t.emissionOrder = .ok order := by
  rcases clash?_mergeSort t.types with
    ⟨hnone, -⟩ | ⟨code, first, second, more, hholders, -⟩
  · exact ⟨_, emissionOrder_of_no_clash h hnone⟩
  · have htwo := hone code
    rw [← filter_index_eq_placedAt h, hholders] at htwo
    simp at htwo

theorem codes_of_ascending {order : List StructType} (hall : ∀ s ∈ order, s.code ≠ none)
    (hasc : Ascending order) :
    ∃ codes : List UInt32, order.map StructType.code = codes.map some ∧
      codes.Pairwise (· < ·) := by
  refine ⟨order.map StructType.index, ?_, List.pairwise_map.mpr hasc⟩
  rw [List.map_map]
  exact List.map_congr_left fun s hs => code_eq_index (hall s hs)

/-- Three things can come of asking for the order, and the table decides which. A
type that was never placed is reported first, and of several the one interned
first, whatever else is wrong. If all are placed, the lowest index that is held by more
than one type is reported with the first two of its holders. Otherwise all types come
out, each once, by ascending index. -/
theorem emissionOrder_determined (requests : List Request) :
    let t := empty.run requests
    (∀ (s : StructType) (more : List StructType), t.unplaced = s :: more →
        t.emissionOrder = .error (.unassigned s.name)) ∧
      (t.unplaced = [] → (∃ code, 2 ≤ (t.placedAt code).length) →
        ∃ (code : UInt32) (first second : StructType) (more : List StructType),
          t.placedAt code = first :: second :: more ∧
          (∀ lower < code, (t.placedAt lower).length ≤ 1) ∧
          t.emissionOrder = .error (.duplicateCode code first.name second.name)) ∧
      (t.unplaced = [] → (∀ code, (t.placedAt code).length ≤ 1) →
        ∃ order : List StructType, t.emissionOrder = .ok order ∧
          order.Perm t.types ∧ order.Nodup ∧
          ∃ codes : List UInt32, order.map StructType.code = codes.map some ∧
            codes.Pairwise (· < ·)) := by
  intro t
  refine ⟨fun s more h => emissionOrder_of_unplaced h, emissionOrder_of_shared, ?_⟩
  intro h hone
  obtain ⟨order, hok⟩ := emissionOrder_of_distinct h hone
  obtain ⟨-, hperm, hasc⟩ := emissionOrder_eq_ok_iff.mp hok
  have hnodup : t.types.Nodup := (Coherent.empty.run requests).names_nodup.of_map
  refine ⟨order, hok, hperm, hperm.nodup_iff.mpr hnodup, codes_of_ascending ?_ hasc⟩
  intro s hs
  exact unplaced_eq_nil_iff.mp h s (hperm.mem_iff.mp hs)

/-- Two indices are held more than once, and a type that was never placed hides both.
Once it is placed, the lower index is reported, with the first two that hold it. -/
theorem emissionOrder_determined_several_clashes :
    let requests : List Request :=
      [.intern "A", .intern "B", .intern "C", .intern "D", .intern "E", .intern "F",
        .place 4 3, .place 3 3, .place 0 9, .place 1 3, .place 2 9]
    let t := empty.run requests
    let u := empty.run (requests ++ [.place 5 7])
    (t.unplaced = [⟨"F", none⟩] ∧ t.emissionOrder = .error (.unassigned "F")) ∧
      (u.unplaced = [] ∧ u.placedAt 3 = [⟨"B", some 3⟩, ⟨"D", some 3⟩, ⟨"E", some 3⟩] ∧
        (u.placedAt 9).length = 2) ∧
      u.emissionOrder = .error (.duplicateCode 3 "B" "D") := by
  intro requests t u
  have ht : t.unplaced = [⟨"F", none⟩] := by decide +kernel
  have hu : u.unplaced = [] := by decide +kernel
  have hthree : u.placedAt 3 = [⟨"B", some 3⟩, ⟨"D", some 3⟩, ⟨"E", some 3⟩] := by decide +kernel
  have hleast : ∀ s ∈ u.types, 3 ≤ s.index := by decide +kernel
  refine ⟨⟨ht, (emissionOrder_determined requests).1 _ _ ht⟩,
    ⟨hu, hthree, by decide +kernel⟩, ?_⟩
  obtain ⟨code, first, second, more, hholders, hlower, herror⟩ :=
    (emissionOrder_determined (requests ++ [.place 5 7])).2.1 hu ⟨3, by rw [hthree]; decide⟩
  have hfirst : first ∈ u.placedAt code := List.mem_of_mem_head? (congrArg List.head? hholders)
  obtain ⟨hmem, hcode⟩ : first ∈ u.types ∧ first.code = some code := by
    simpa [placedAt] using hfirst
  have hge : 3 ≤ code := by simpa [StructType.index, hcode] using hleast first hmem
  have hle : code ≤ 3 := by
    refine UInt32.not_lt.mp fun hlt => ?_
    have hone : (u.placedAt 3).length ≤ 1 := hlower 3 hlt
    simp [hthree] at hone
  obtain rfl := UInt32.le_antisymm hle hge
  cases hthree.symm.trans hholders
  exact herror

end WasmAssembly.TypeTable
