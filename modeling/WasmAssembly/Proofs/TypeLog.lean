import WasmAssembly.Proofs.LastPlacement

/-!
# What the log of a type table tells

A table decides what to log from what it holds. The same records follow from the
requests alone: what came before a request settles whether its name is new, which
type a position stands for, and where that type was placed last. So the log is a
history of the table, with one record for each new name and one for each placement
that was served.
-/

set_option autoImplicit false

namespace WasmAssembly.TypeTable

/-- The last placement at `ref` that found a type there was at `code`. -/
def LastPlaced (history : List Request) (ref : Nat) (code : UInt32) : Prop :=
  ∃ earlier between : List Request, history = earlier ++ .place ref code :: between ∧
    ref < (lookedUp earlier).eraseDups.length ∧ ∀ other, Request.place ref other ∉ between

/-- What is logged for a request, given all requests before it. -/
inductive Entry (history : List Request) : Request → List Log.Record → Prop where
  | interned {name : String} (new : name ∉ lookedUp history) :
      Entry history (.intern name) [⟨.typeTable, .debug, "interned struct type $" ++ name⟩]
  | known {name : String} (old : name ∈ lookedUp history) : Entry history (.intern name) []
  | moved {ref : Nat} {name : String} {old new : UInt32}
      (named : (lookedUp history).eraseDups[ref]? = some name)
      (last : LastPlaced history ref old) (differs : old ≠ new) :
      Entry history (.place ref new) [⟨.typeTable, .warn,
        "struct type $" ++ name ++ " moved from index " ++ old.toNat.repr ++ " to " ++
          new.toNat.repr⟩]
  | placed {ref : Nat} {name : String} {new : UInt32}
      (named : (lookedUp history).eraseDups[ref]? = some name)
      (stays : ∀ old, LastPlaced history ref old → old = new) :
      Entry history (.place ref new) [⟨.typeTable, .debug,
        "struct type $" ++ name ++ " placed at index " ++ new.toNat.repr⟩]
  | missing {ref : Nat} {code : UInt32} (beyond : (lookedUp history).eraseDups.length ≤ ref) :
      Entry history (.place ref code) []
  | silent {request : Request} (noIntern : ∀ name, request ≠ .intern name)
      (noPlace : ∀ ref code, request ≠ .place ref code) : Entry history request []

variable {history : List Request} {ref : Nat}

theorem length_eraseDups_lookedUp_le (history later : List Request) :
    (lookedUp history).eraseDups.length ≤ (lookedUp (history ++ later)).eraseDups.length := by
  rw [← names_run_empty, ← names_run_empty, run_append]
  exact (names_prefix_run _ later).length_le

theorem LastPlaced.lt_length {code : UInt32} (h : LastPlaced history ref code) :
    ref < (lookedUp history).eraseDups.length := by
  obtain ⟨earlier, between, rfl, hlt, -⟩ := h
  exact Nat.lt_of_lt_of_le hlt (length_eraseDups_lookedUp_le _ _)

theorem LastPlaced.concat {code : UInt32} (h : LastPlaced history ref code) {request : Request}
    (hr : ∀ other, request ≠ .place ref other) : LastPlaced (history ++ [request]) ref code := by
  obtain ⟨earlier, between, rfl, hlt, hlast⟩ := h
  refine ⟨earlier, between ++ [request], by simp, hlt, ?_⟩
  intro other hmem
  rcases List.mem_append.mp hmem with hmem | hmem
  · exact hlast other hmem
  · exact hr other (List.mem_singleton.mp hmem).symm

theorem LastPlaced.of_concat {code : UInt32} {request : Request}
    (h : LastPlaced (history ++ [request]) ref code) :
    (request = .place ref code ∧ ref < (lookedUp history).eraseDups.length) ∨
      ((∀ other, request ≠ .place ref other) ∧ LastPlaced history ref code) := by
  obtain ⟨earlier, between, hsplit, hlt, hlast⟩ := h
  rcases List.eq_nil_or_concat between with rfl | ⟨between, last, rfl⟩
  · obtain ⟨rfl, hrequest⟩ := List.append_inj' hsplit rfl
    exact .inl ⟨List.singleton_inj.mp hrequest, hlt⟩
  · rw [List.concat_eq_append, ← List.cons_append, ← List.append_assoc] at hsplit
    obtain ⟨hhistory, hrequest⟩ := List.append_inj' hsplit rfl
    obtain rfl := List.singleton_inj.mp hrequest
    refine .inr ⟨?_, earlier, between, hhistory, hlt, ?_⟩
    · rintro other rfl
      exact hlast other (by simp)
    · intro other hmem
      exact hlast other (by simp [hmem])

theorem codeAt?_run_empty_eq_some_iff (history : List Request) (ref : Nat) (code : UInt32) :
    (empty.run history).codeAt? ref = some code ↔ LastPlaced history ref code := by
  induction history using List.reverseRecOn with
  | nil =>
    constructor
    · intro h
      cases h
    · rintro ⟨earlier, between, hsplit, -⟩
      simp at hsplit
  | append_singleton history request ih =>
    have hlast : (empty.run (history ++ [request])).codeAt? ref =
        ((empty.run history).step request).2.2.codeAt? ref := by
      rw [run_append]
      rfl
    rw [hlast]
    by_cases hplace : ∃ other, request = .place ref other
    · -- the placement counts if the position was there
      obtain ⟨other, rfl⟩ := hplace
      rw [codeAt?_step_place, size_run_empty]
      by_cases hlt : ref < (lookedUp history).eraseDups.length
      · rw [if_pos ⟨rfl, hlt⟩, Option.some_inj]
        constructor
        · rintro rfl
          exact ⟨history, [], rfl, hlt, by simp⟩
        · intro h
          rcases h.of_concat with ⟨heq, -⟩ | ⟨hne, -⟩
          · cases heq
            rfl
          · exact absurd rfl (hne other)
      · rw [if_neg fun h => hlt h.2, ih]
        constructor
        · intro h
          exact absurd h.lt_length hlt
        · intro h
          rcases h.of_concat with ⟨-, hlt'⟩ | ⟨hne, -⟩
          · exact absurd hlt' hlt
          · exact absurd rfl (hne other)
    · have hne : ∀ other, request ≠ .place ref other := fun other h => hplace ⟨other, h⟩
      have hcode : request.codeFor? ref = none := by
        cases request with
        | place placed code =>
          have hp : placed ≠ ref := by
            rintro rfl
            exact hne code rfl
          simp [Request.codeFor?, hp]
        | _ => rfl
      rw [codeAt?_step, hcode, Option.none_or, ite_self, ih]
      constructor
      · intro h
        exact h.concat hne
      · intro h
        rcases h.of_concat with ⟨heq, -⟩ | ⟨-, hkept⟩
        · exact absurd heq (hne code)
        · exact hkept

theorem LastPlaced.unique {code code' : UInt32} (h : LastPlaced history ref code)
    (h' : LastPlaced history ref code') : code = code' := by
  rw [← codeAt?_run_empty_eq_some_iff] at h h'
  exact Option.some.inj (h.symm.trans h')

def records (t : TypeTable) (request : Request) : List Log.Record :=
  (t.step request).2.1.toList.map TypeEvent.record

theorem mem_lookedUp_iff (history : List Request) (name : String) :
    name ∈ lookedUp history ↔ (empty.run history).find? name ≠ none := by
  rw [ne_eq, (Coherent.empty.run history).find?_eq_none_iff, names_run_empty, List.mem_eraseDups,
    not_not]

theorem entry_intern (history : List Request) (name : String) :
    Entry history (.intern name) (records (empty.run history) (.intern name)) := by
  cases hf : (empty.run history).find? name with
  | none =>
    have hnew : name ∉ lookedUp history := fun h => (mem_lookedUp_iff history name).mp h hf
    have hrecords : records (empty.run history) (.intern name) =
        [⟨.typeTable, .debug, "interned struct type $" ++ name⟩] := by
      simp only [records, step, intern_of_none hf]
      rfl
    rw [hrecords]
    exact .interned hnew
  | some found =>
    have hold : name ∈ lookedUp history := by
      rw [mem_lookedUp_iff, hf]
      simp
    have hrecords : records (empty.run history) (.intern name) = [] := by
      simp only [records, step, intern_of_some hf]
      rfl
    rw [hrecords]
    exact .known hold

theorem entry_place (history : List Request) (ref : Nat) (code : UInt32) :
    Entry history (.place ref code) (records (empty.run history) (.place ref code)) := by
  cases hs : (empty.run history).get? ref with
  | none =>
    rw [records, step_place_of_none hs]
    refine .missing ?_
    rw [← size_run_empty]
    exact get?_eq_none_iff.mp hs
  | some s =>
    have hnamed : (lookedUp history).eraseDups[ref]? = some s.name := by
      rw [← names_run_empty, names_getElem?, hs]
      rfl
    have hcode : (empty.run history).codeAt? ref = s.code := by
      rw [codeAt?, hs]
      rfl
    rw [records, step_place_of_some hs]
    cases hold : s.code with
    | none =>
      have hevent : placement s code = .placed s.name code := by
        rw [placement, hold]
      rw [hevent]
      refine .placed hnamed fun old hlast => ?_
      rw [← codeAt?_run_empty_eq_some_iff, hcode, hold] at hlast
      cases hlast
    | some old =>
      have hlast : LastPlaced history ref old := by
        rw [← codeAt?_run_empty_eq_some_iff, hcode, hold]
      by_cases heq : old = code
      · have hevent : placement s code = .placed s.name code := by
          simp only [placement, hold, if_pos heq]
        rw [hevent]
        exact .placed hnamed fun old' hlast' => (hlast'.unique hlast).trans heq
      · have hevent : placement s code = .moved s.name old code := by
          simp only [placement, hold, if_neg heq]
        rw [hevent]
        exact .moved hnamed hlast heq

theorem entry_records (history : List Request) (request : Request) :
    Entry history request (records (empty.run history) request) := by
  rcases (empty.run history).step_cases request with
    ⟨name, rfl⟩ | ⟨ref, code, -, -, rfl, -⟩ | ⟨hnone, hstep⟩
  · exact entry_intern history name
  · exact entry_place history ref code
  · by_cases hplace : ∃ ref code, request = .place ref code
    · obtain ⟨ref, code, rfl⟩ := hplace
      exact entry_place history ref code
    · rw [records, hstep]
      refine .silent ?_ fun ref code h => hplace ⟨ref, code, h⟩
      rintro name rfl
      cases hnone

theorem Entry.unique {request : Request} {log log' : List Log.Record}
    (h : Entry history request log) (h' : Entry history request log') : log = log' := by
  cases h with
  | interned new =>
    cases h' with
    | interned => rfl
    | known old => exact absurd old new
    | silent noIntern => exact absurd rfl (noIntern _)
  | known old =>
    cases h' with
    | interned new => exact absurd old new
    | known => rfl
    | silent => rfl
  | moved named last differs =>
    cases h' with
    | moved named' last' =>
      cases named.symm.trans named'
      cases last.unique last'
      rfl
    | placed _ stays => exact absurd (stays _ last) differs
    | missing beyond => exact absurd last.lt_length (Nat.not_lt.mpr beyond)
    | silent _ noPlace => exact absurd rfl (noPlace _ _)
  | placed named stays =>
    cases h' with
    | moved _ last differs => exact absurd (stays _ last) differs
    | placed named' =>
      cases named.symm.trans named'
      rfl
    | missing beyond =>
      rw [List.getElem?_eq_none beyond] at named
      cases named
    | silent _ noPlace => exact absurd rfl (noPlace _ _)
  | missing beyond =>
    cases h' with
    | moved _ last => exact absurd last.lt_length (Nat.not_lt.mpr beyond)
    | placed named =>
      rw [List.getElem?_eq_none beyond] at named
      cases named
    | missing => rfl
    | silent => rfl
  | silent noIntern noPlace =>
    cases h' with
    | interned => exact absurd rfl (noIntern _)
    | known => rfl
    | moved => exact absurd rfl (noPlace _ _)
    | placed => exact absurd rfl (noPlace _ _)
    | missing => rfl
    | silent => rfl

def entries : TypeTable → List Request → List (List Log.Record)
  | _, [] => []
  | t, request :: requests => t.records request :: entries (t.step request).2.2 requests

theorem flatten_entries (t : TypeTable) (requests : List Request) :
    (entries t requests).flatten = (t.events requests).map TypeEvent.record := by
  induction requests generalizing t with
  | nil => rfl
  | cons request requests ih =>
    rw [entries, List.flatten_cons, ih, events, List.map_append]
    rfl

theorem entries_getElem? (t : TypeTable) (requests : List Request) (k : Nat) :
    (entries t requests)[k]? = requests[k]?.map (t.run (requests.take k)).records := by
  induction requests generalizing t k with
  | nil => rfl
  | cons request requests ih =>
    cases k with
    | zero => rfl
    | succ k => exact ih _ k

def newName? : TypeEvent → Option String
  | .interned name => some name
  | _ => none

theorem newName?_placement (s : StructType) (code : UInt32) :
    newName? (placement s code) = none := by
  rw [placement]
  split
  · rfl
  · split <;> rfl

theorem names_step (t : TypeTable) (request : Request) :
    (t.step request).2.2.names = t.names ++ (t.step request).2.1.toList.filterMap newName? := by
  rcases t.step_cases request with ⟨name, rfl⟩ | ⟨ref, code, event, next, -, hp, hs⟩ | ⟨-, hs⟩
  · cases hf : t.find? name with
    | none => simp [step, intern_of_none hf, names, newName?]
    | some found => simp [step, intern_of_some hf]
  · obtain ⟨s, -, hplaced⟩ := Option.map_eq_some_iff.mp hp
    have hevent : newName? event = none := by
      rw [← (Prod.mk.inj hplaced).1]
      exact newName?_placement s code
    rw [hs]
    simp [hevent, (place_keeps_names hp).1]
  · rw [hs]
    simp

theorem names_run (t : TypeTable) (requests : List Request) :
    (t.run requests).names = t.names ++ (t.events requests).filterMap newName? := by
  induction requests generalizing t with
  | nil => exact (List.append_nil _).symm
  | cons request requests ih =>
    rw [run, ih, names_step, events, List.filterMap_append, List.append_assoc]

/-- The record tells of a new name: no other begins like this. -/
def tellsNewName (record : Log.Record) : Bool :=
  "interned struct type $".toList.isPrefixOf record.message.toList

theorem exists_message_of_not_new {event : TypeEvent} (h : newName? event = none) :
    ∃ rest, event.message = "struct type $" ++ rest := by
  cases event with
  | interned name => cases h
  | moved name old new =>
    refine ⟨name ++ (" moved from index " ++ (old.toNat.repr ++ (" to " ++ new.toNat.repr))), ?_⟩
    simp only [← String.append_assoc]
    rfl
  | placed name code =>
    refine ⟨name ++ (" placed at index " ++ code.toNat.repr), ?_⟩
    simp only [← String.append_assoc]
    rfl

theorem tellsNewName_of_not_new {event : TypeEvent} (h : newName? event = none) :
    tellsNewName event.record = false := by
  obtain ⟨rest, hrest⟩ := exists_message_of_not_new h
  rw [Bool.eq_false_iff]
  intro hprefix
  obtain ⟨more, hmore⟩ := List.isPrefixOf_iff_prefix.mp hprefix
  have hchars : "interned struct type $".toList ++ more =
      "struct type $".toList ++ rest.toList := by
    rw [hmore, ← String.toList_append, ← hrest]
    rfl
  have hfirst := congrArg List.head? hchars
  rw [List.head?_append, List.head?_append] at hfirst
  exact absurd (show some 'i' = some 's' from hfirst) (by decide)

theorem filter_tellsNewName (events : List TypeEvent) :
    (events.map TypeEvent.record).filter tellsNewName =
      (events.filterMap newName?).map fun name =>
        ⟨.typeTable, .debug, "interned struct type $" ++ name⟩ := by
  induction events with
  | nil => rfl
  | cons event events ih =>
    cases hnew : newName? event with
    | none =>
      rw [List.map_cons, List.filter_cons_of_neg (by simp [tellsNewName_of_not_new hnew]), ih,
        List.filterMap_cons_none hnew]
    | some name =>
      obtain rfl : event = .interned name := by
        cases event <;> cases hnew
        rfl
      have htells : tellsNewName (TypeEvent.interned name).record = true :=
        List.isPrefixOf_iff_prefix.mpr ⟨name.toList, (String.toList_append).symm⟩
      rw [List.map_cons, List.filter_cons_of_pos htells, ih]
      rfl

/-- The log of a run tells its history and nothing else. It is made up of what was logged for
each request, and this follows from the requests before it: one record for a name that is new,
one for a placement that found a type, which is a warning if the last placement of that type
was at another index, and none for anything else. So the names that the log tells of are those
of the table, in its order. -/
theorem log_tells_history (requests : List Request) :
    let t := empty.run requests
    let log := (empty.events requests).map TypeEvent.record
    (∃ entries : List (List Log.Record), log = entries.flatten ∧
      ∀ (k : Nat) (records : List Log.Record), entries[k]? = some records ↔
        ∃ request, requests[k]? = some request ∧ Entry (requests.take k) request records) ∧
      (log.filter fun record => "interned struct type $".toList.isPrefixOf record.message.toList) =
        (lookedUp requests).eraseDups.map
          (fun name => ⟨.typeTable, .debug, "interned struct type $" ++ name⟩) ∧
      (t.refs.filterMap t.get?).map StructType.name = (lookedUp requests).eraseDups := by
  intro t log
  refine ⟨⟨entries empty requests, (flatten_entries empty requests).symm, ?_⟩, ?_, ?_⟩
  · intro k records
    rw [entries_getElem?, Option.map_eq_some_iff]
    refine exists_congr fun request => and_congr_right fun _ => ?_
    have hentry := entry_records (requests.take k) request
    constructor
    · rintro rfl
      exact hentry
    · exact hentry.unique
  · have hnames := names_run empty requests
    rw [names_run_empty] at hnames
    rw [hnames]
    exact filter_tellsNewName _
  · rw [refs_filterMap_get?]
    exact names_run_empty requests

example :
    (empty.events [.place 0 9, .intern "A", .place 0 3, .intern "B", .place 0 3, .place 1 3,
      .place 0 5, .intern "A", .place 0 3, .codeOf 0]).map TypeEvent.message =
    ["interned struct type $A", "struct type $A placed at index 3", "interned struct type $B",
      "struct type $A placed at index 3", "struct type $B placed at index 3",
      "struct type $A moved from index 3 to 5", "struct type $A moved from index 5 to 3"] := by
  decide +kernel

end WasmAssembly.TypeTable
