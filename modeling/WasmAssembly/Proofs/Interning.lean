import Mathlib.Data.Finset.Card
import WasmAssembly.Proofs.Lists
import WasmAssembly.TypeTable.Request

/-!
# Names and positions

A type table holds its types in a row and, beside the row, an index from names
to positions. Interning writes to both and placing to the row alone. In every
table that requests lead to, the index is the inverse of the row: so each name
has one position, the names stand in the order in which they were first
interned, and a position once given out keeps its name.
-/

set_option autoImplicit false

namespace WasmAssembly.TypeTable

def names (t : TypeTable) : List String := t.types.map StructType.name

/-- The index finds a name where the row holds it, and nowhere else. -/
def Coherent (t : TypeTable) : Prop :=
  ∀ (name : String) (ref : Nat), t.find? name = some ref ↔ t.names[ref]? = some name

def Request.interned? : Request → Option String
  | .intern name => some name
  | _ => none

def lookedUp (requests : List Request) : List String := requests.filterMap Request.interned?

def Reply.Gives (ref : Nat) : Reply → Prop
  | .interned given => given = ref
  | .found answer => answer = some ref
  | .refs given => ref ∈ given
  | _ => False

instance (ref : Nat) : (reply : Reply) → Decidable (reply.Gives ref)
  | .interned given => inferInstanceAs (Decidable (given = ref))
  | .found answer => inferInstanceAs (Decidable (answer = some ref))
  | .refs given => inferInstanceAs (Decidable (ref ∈ given))
  | .placed | .code _ | .type _ | .size _ | .isEmpty _ | .order _ | .unordered _
  | .outOfRange .. => .isFalse id

variable {t : TypeTable} {name : String} {ref : Nat}

theorem length_names (t : TypeTable) : t.names.length = t.size := by simp [names, size]

theorem names_getElem? (t : TypeTable) (ref : Nat) :
    t.names[ref]? = (t.get? ref).map StructType.name := by simp [names, get?]

theorem names_getElem?_eq_some_iff :
    t.names[ref]? = some name ↔ ∃ s, t.get? ref = some s ∧ s.name = name := by
  rw [names_getElem?, Option.map_eq_some_iff]

theorem refs_map_name (t : TypeTable) :
    t.refs.map (fun ref => (t.get? ref).map StructType.name) = t.names.map some := by
  apply List.ext_getElem
  · simp [refs, length_names]
  · intro k hk hk'
    have hlt : k < t.types.length := by simpa [names] using hk'
    simp [refs, get?, names, hlt]

theorem exists_get?_iff (t : TypeTable) (ref : Nat) :
    (∃ s, t.get? ref = some s) ↔ ref < t.size := by
  rw [← Option.isSome_iff_exists, get?, size]
  simp

theorem intern_of_some (h : t.find? name = some ref) : t.intern name = (ref, none, t) := by
  simp [intern, h]

theorem intern_of_none (h : t.find? name = none) :
    t.intern name = (t.size, some (.interned name),
      ⟨t.types ++ [⟨name, none⟩], (name, t.size) :: t.positions⟩) := by
  simp [intern, h]

theorem place_keeps_names {code : UInt32} {event : TypeEvent} {next : TypeTable}
    (h : t.place ref code = some (event, next)) :
    next.names = t.names ∧ next.positions = t.positions := by
  obtain ⟨s, hs, hnext⟩ := Option.map_eq_some_iff.mp h
  cases hnext
  refine ⟨?_, rfl⟩
  have hname : t.names[ref]? = some s.name := by rw [names_getElem?, hs]; rfl
  obtain ⟨hlt, hget⟩ := List.getElem?_eq_some_iff.mp hname
  rw [names, List.map_set]
  change t.names.set ref s.name = t.names
  rw [← hget, List.set_getElem_self]

theorem step_cases (t : TypeTable) (request : Request) :
    (∃ name, request = .intern name) ∨
      (∃ ref code event next, request = .place ref code ∧
        t.place ref code = some (event, next) ∧ (t.step request).2 = (some event, next)) ∨
      (request.interned? = none ∧ (t.step request).2 = (none, t)) := by
  cases request with
  | intern name => exact .inl ⟨name, rfl⟩
  | place ref code =>
    cases hp : t.place ref code with
    | none => exact .inr (.inr ⟨rfl, by simp [step, hp]⟩)
    | some placed =>
      obtain ⟨event, next⟩ := placed
      exact .inr (.inl ⟨ref, code, event, next, rfl, hp, by simp [step, hp]⟩)
  | codeOf ref => exact .inr (.inr ⟨rfl, by simp only [step]; split <;> rfl⟩)
  | typeOf ref => exact .inr (.inr ⟨rfl, by simp only [step]; split <;> rfl⟩)
  | emissionOrder => exact .inr (.inr ⟨rfl, by simp only [step]; split <;> rfl⟩)
  | find name => exact .inr (.inr ⟨rfl, rfl⟩)
  | refs => exact .inr (.inr ⟨rfl, rfl⟩)
  | size => exact .inr (.inr ⟨rfl, rfl⟩)
  | isEmpty => exact .inr (.inr ⟨rfl, rfl⟩)

theorem step_keeps_names {request : Request} (h : request.interned? = none) :
    (t.step request).2.2.names = t.names ∧ (t.step request).2.2.positions = t.positions := by
  rcases t.step_cases request with ⟨name, rfl⟩ | ⟨ref, code, event, next, -, hp, hs⟩ | ⟨-, hs⟩
  · cases h
  · rw [hs]
    exact place_keeps_names hp
  · rw [hs]
    exact ⟨rfl, rfl⟩

theorem names_prefix_step (t : TypeTable) (request : Request) :
    t.names <+: (t.step request).2.2.names := by
  cases hr : request.interned? with
  | none => rw [(step_keeps_names hr).1]
  | some name =>
    cases request <;> cases hr
    cases hf : t.find? name with
    | some ref => simp [step, intern_of_some hf]
    | none => simp [step, intern_of_none hf, names]

namespace Coherent

theorem empty : TypeTable.empty.Coherent := by
  intro name ref
  simp [TypeTable.empty, find?, names]

theorem find?_eq_none_iff (h : t.Coherent) : t.find? name = none ↔ name ∉ t.names := by
  rw [Option.eq_none_iff_forall_ne_some, List.mem_iff_getElem?, not_exists]
  exact forall_congr' fun ref => not_congr (h name ref)

theorem lt_size (h : t.Coherent) (hf : t.find? name = some ref) : ref < t.size := by
  obtain ⟨hlt, -⟩ := List.getElem?_eq_some_iff.mp ((h name ref).mp hf)
  rwa [length_names] at hlt

theorem names_nodup (h : t.Coherent) : t.names.Nodup := by
  rw [List.nodup_iff_getElem?_ne_getElem?]
  intro i j hij hj heq
  have hname := List.getElem?_eq_getElem hj
  have hi := (h _ i).mpr (heq.trans hname)
  have hj' := (h _ j).mpr hname
  rw [hi] at hj'
  exact absurd (Option.some.inj hj') (Nat.ne_of_lt hij)

theorem names_intern (h : t.Coherent) (name : String) :
    (t.intern name).2.2.names = if name ∈ t.names then t.names else t.names ++ [name] := by
  cases hf : t.find? name with
  | some ref =>
    have hmem : name ∈ t.names := List.mem_of_getElem? ((h name ref).mp hf)
    rw [intern_of_some hf, if_pos hmem]
  | none =>
    rw [intern_of_none hf, if_neg (h.find?_eq_none_iff.mp hf)]
    simp [names]

theorem intern (h : t.Coherent) (name : String) : (t.intern name).2.2.Coherent := by
  cases hf : t.find? name with
  | some ref => rwa [intern_of_some hf]
  | none =>
    rw [intern_of_none hf]
    intro other ref
    have hrow : TypeTable.names ⟨t.types ++ [⟨name, none⟩], (name, t.size) :: t.positions⟩ =
        t.names ++ [name] := by simp [names]
    rw [hrow, getElem?_concat_eq_some_iff, ← h other ref, find?, List.lookup_cons]
    by_cases ho : other = name
    · -- the new name had no place before
      subst ho
      simp [hf, length_names, eq_comm]
    · have hb : (other == name) = false := by simpa using ho
      simp [hb, Ne.symm ho, find?]

theorem step (h : t.Coherent) (request : Request) : (t.step request).2.2.Coherent := by
  cases hr : request.interned? with
  | none =>
    obtain ⟨hn, hp⟩ := step_keeps_names (t := t) hr
    intro name ref
    rw [hn, find?, hp]
    exact h name ref
  | some name =>
    cases request <;> cases hr
    exact h.intern name

theorem run (h : t.Coherent) (requests : List Request) : (t.run requests).Coherent := by
  induction requests generalizing t with
  | nil => exact h
  | cons request requests ih => exact ih (h.step request)

end Coherent

theorem names_prefix_run (t : TypeTable) (requests : List Request) :
    t.names <+: (t.run requests).names := by
  induction requests generalizing t with
  | nil => exact List.prefix_rfl
  | cons request requests ih => exact (t.names_prefix_step request).trans (ih _)

theorem names_run_getElem? (requests : List Request) (h : t.names[ref]? = some name) :
    (t.run requests).names[ref]? = some name := by
  obtain ⟨more, hmore⟩ := t.names_prefix_run requests
  obtain ⟨hlt, -⟩ := List.getElem?_eq_some_iff.mp h
  rw [← hmore, List.getElem?_append_left hlt, h]

theorem names_run_empty (requests : List Request) :
    (empty.run requests).names = (lookedUp requests).eraseDups := by
  induction requests using List.reverseRecOn with
  | nil => rfl
  | append_singleton requests request ih =>
    have hlast : empty.run (requests ++ [request]) = ((empty.run requests).step request).2.2 :=
      run_append empty requests [request]
    rw [hlast, lookedUp, List.filterMap_append]
    cases hr : request.interned? with
    | none =>
      rw [(step_keeps_names hr).1, ih]
      simp [hr, lookedUp]
    | some name =>
      cases request <;> cases hr
      have hnames := (Coherent.empty.run requests).names_intern name
      rw [ih] at hnames
      exact hnames.trans (eraseDups_concat _ _).symm

theorem find?_intern (t : TypeTable) (name : String) :
    (t.intern name).2.2.find? name = some (t.intern name).1 := by
  cases hf : t.find? name with
  | some ref => rw [intern_of_some hf]; exact hf
  | none => rw [intern_of_none hf, find?, List.lookup_cons_self]

theorem Coherent.find?_run (h : t.Coherent) (hf : t.find? name = some ref)
    (requests : List Request) : (t.run requests).find? name = some ref :=
  (h.run requests name ref).mpr (names_run_getElem? requests ((h name ref).mp hf))

theorem Coherent.lt_size_of_gives (h : t.Coherent) {request : Request}
    (hg : (t.step request).1.Gives ref) : ref < (t.step request).2.2.size := by
  cases request with
  | intern name =>
    obtain rfl : (t.intern name).1 = ref := hg
    exact (h.intern name).lt_size (t.find?_intern name)
  | find name => exact h.lt_size hg
  | refs => exact List.mem_range.mp hg
  | place ref code => simp only [TypeTable.step] at hg; split at hg <;> exact hg.elim
  | codeOf ref => simp only [TypeTable.step] at hg; split at hg <;> exact hg.elim
  | typeOf ref => simp only [TypeTable.step] at hg; split at hg <;> exact hg.elim
  | emissionOrder => simp only [TypeTable.step] at hg; split at hg <;> exact hg.elim
  | size => exact hg.elim
  | isEmpty => exact hg.elim

/-- Whatever is asked of a table, and in whatever order, names and positions
stay inverse to each other. There are as many positions, counted from zero, as
different names were interned, and they hold the names in the order in which
each was interned first. A position that was given out keeps its name through all
later requests, and interning the name again gives the same position. -/
theorem run_interns_names_once (requests : List Request) :
    let t := empty.run requests
    (∀ (name : String) (ref : Nat),
        t.find? name = some ref ↔ ∃ s, t.get? ref = some s ∧ s.name = name) ∧
      (∀ ref : Nat, (∃ s, t.get? ref = some s) ↔ ref < t.size) ∧
      (∀ (ref ref' : Nat) (s s' : StructType), t.get? ref = some s → t.get? ref' = some s' →
        s.name = s'.name → ref = ref') ∧
      t.size = (lookedUp requests).toFinset.card ∧
      t.refs = List.range t.size ∧
      t.refs.map (fun ref => (t.get? ref).map StructType.name) =
        (lookedUp requests).eraseDups.map some ∧
      (∀ (request : Request) (ref : Nat), (t.step request).1.Gives ref →
        ∃ name, ∀ later : List Request,
          ∃ s, ((t.step request).2.2.run later).get? ref = some s ∧ s.name = name) ∧
      ∀ name : String, ∃ ref, (t.step (.intern name)).1 = .interned ref ∧
        ∀ later : List Request,
          (((t.step (.intern name)).2.2.run later).step (.intern name)).1 = .interned ref ∧
          ∃ s, ((t.step (.intern name)).2.2.run later).get? ref = some s ∧ s.name = name := by
  intro t
  have hc : t.Coherent := Coherent.empty.run requests
  have hnames : t.names = (lookedUp requests).eraseDups := names_run_empty requests
  refine ⟨?_, t.exists_get?_iff, ?_, ?_, rfl, ?_, ?_, ?_⟩
  · intro name ref
    rw [hc name ref, names_getElem?_eq_some_iff]
  · intro ref ref' s s' hs hs' heq
    have h := (hc s.name ref).mpr (names_getElem?_eq_some_iff.mpr ⟨s, hs, rfl⟩)
    have h' := (hc s.name ref').mpr (names_getElem?_eq_some_iff.mpr ⟨s', hs', heq.symm⟩)
    exact Option.some.inj (h.symm.trans h')
  · have hset : (lookedUp requests).toFinset = t.names.toFinset := by
      ext name
      rw [hnames]
      simp
    rw [hset, List.toFinset_card_of_nodup hc.names_nodup, length_names]
  · rw [← hnames, refs_map_name]
  · intro request ref hg
    have hlt := hc.lt_size_of_gives hg
    rw [← length_names] at hlt
    exact ⟨_, fun later => names_getElem?_eq_some_iff.mp
      (names_run_getElem? later (List.getElem?_eq_getElem hlt))⟩
  · intro name
    have hf := t.find?_intern name
    refine ⟨(t.intern name).1, rfl, fun later => ?_⟩
    have hlater := (hc.intern name).find?_run hf later
    constructor
    · exact congrArg (fun reply => Reply.interned reply.1) (intern_of_some hlater)
    · exact names_getElem?_eq_some_iff.mp (((hc.intern name).run later name _).mp hlater)

theorem run_interns_names_once_moved :
    let t := empty.run [.intern "A", .place 0 7, .intern "B", .place 0 2, .intern "A"]
    (t.step (.find "B")).1.Gives 1 ∧ t.size = 2 ∧
      (∃ name, ∀ later : List Request, ∃ s,
        ((t.step (.find "B")).2.2.run later).get? 1 = some s ∧ s.name = name) ∧
      ((t.step (.find "B")).2.2.run [.place 1 9, .intern "C"]).get? 1 = some ⟨"B", some 9⟩ := by
  intro t
  have hgives : (t.step (.find "B")).1.Gives 1 := by decide +kernel
  obtain ⟨-, -, -, hsize, -, -, hkept, -⟩ := run_interns_names_once
    [.intern "A", .place 0 7, .intern "B", .place 0 2, .intern "A"]
  exact ⟨hgives, hsize.trans (by decide +kernel), hkept _ 1 hgives, by decide +kernel⟩

end WasmAssembly.TypeTable
