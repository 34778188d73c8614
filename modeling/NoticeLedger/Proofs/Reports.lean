import NoticeLedger.Proofs.Json.Documents
import NoticeLedger.Report.Reading

/-!
# Reports read through text

Nothing that is read off a document depends on the order of members, so a document and its sorted
form describe the same report up to the order of members inside contexts
(`Report.ofValue_sorted`). The canonical text of a document is therefore read as the report that
the document itself describes (`Report.ofText_write_sorted`).
-/

namespace NoticeLedger

open Json

/-! ### Sorted values -/

namespace Value

theorem sorted_ofJson (j : Json) : (ofJson j).sorted = ofJson j.sorted := by
  induction j using Json.induction_on with
  | step j ih =>
    cases j with
    | null => rfl
    | bool b => rfl
    | int n => rfl
    | float x => rfl
    | str t => rfl
    | arr items =>
      rw [ofJson, ofJsons_eq_map, sorted, sortedItems_eq_map, sorted_arr, ofJson, ofJsons_eq_map,
        List.map_map, List.map_map]
      exact congrArg list (List.map_congr_left ih)
    | obj ms =>
      have hmap : (ofMembers ms).map (fun e => (e.1, e.2.sorted))
          = (ms.map fun m => (m.1, m.2.sorted)).map fun m => (text m.1, ofJson m.2) := by
        rw [ofMembers_eq_map, List.map_map, List.map_map]
        apply List.map_congr_left
        intro m hm
        exact Prod.ext rfl (ih m.2 (mem_children_obj hm))
      have hall : ∀ ns : List (Text × Json),
          (ns.map fun m => (text m.1, ofJson m.2)).all (fun e => e.1.text?.isSome) = true := by
        intro ns
        rw [List.all_map, List.all_eq_true]
        exact fun _ _ => rfl
      have hsort : ∀ ns : List (Text × Json),
          (ns.map fun m => (text m.1, ofJson m.2)).mergeSort entryLe
            = (ns.mergeSort memberLe).map fun m => (text m.1, ofJson m.2) :=
        fun ns => (List.map_mergeSort (r := memberLe) (s := entryLe)
          (f := fun m => (text m.1, ofJson m.2)) fun _ _ _ _ => rfl).symm
      rw [ofJson, sorted, sortedEntries_eq_map, hmap, orderEntries?, if_pos (hall _), hsort,
        Option.getD_some, sorted_obj, ofJson, ofMembers_eq_map]

theorem lookup?_ofMembers (name : Text) (ms : List (Text × Json)) :
    lookup? name (ofMembers ms) = (ms.find? fun m => m.1 = name).map fun m => ofJson m.2 := by
  induction ms with
  | nil => rfl
  | cons m ms ih =>
    rw [ofMembers_eq_map, List.map_cons, lookup?, ← ofMembers_eq_map, ih, List.find?_cons]
    by_cases h : m.1 = name <;> simp [text?, h]

end Value

namespace Json

theorem find?_eq_some_iff {ms : List (Text × Json)} (h : (names ms).Nodup) {name : Text}
    {m : Text × Json} : (ms.find? fun m => m.1 = name) = some m ↔ m ∈ ms ∧ m.1 = name := by
  constructor
  · intro hfind
    exact ⟨List.mem_of_find?_eq_some hfind, by simpa using List.find?_some hfind⟩
  · rintro ⟨hm, rfl⟩
    cases hfind : ms.find? fun i => i.1 = m.1 with
    | none =>
      have hne := List.find?_eq_none.mp hfind m hm
      simp at hne
    | some i =>
      have hi : i ∈ ms := List.mem_of_find?_eq_some hfind
      have hname : i.1 = m.1 := by simpa using List.find?_some hfind
      rw [List.inj_on_of_nodup_map h hi hm hname]

/-- A member is found under its name wherever it stands. -/
theorem find?_eq_of_perm {ms ns : List (Text × Json)} (hperm : ms.Perm ns)
    (h : (names ms).Nodup) (name : Text) :
    (ms.find? fun m => m.1 = name) = ns.find? fun m => m.1 = name := by
  have hns : (names ns).Nodup := (hperm.map _).nodup_iff.mp h
  apply Option.ext
  intro m
  rw [find?_eq_some_iff h, find?_eq_some_iff hns, hperm.mem_iff]

end Json

/-! ### Members -/

/-- The same members with sorted values, wherever they stand. -/
def SameFields (fields fields' : List (Value × Value)) : Prop :=
  ∀ name, Fields.value? name fields' = (Fields.value? name fields).map Value.sorted

theorem sameFields_sorted {ms : List (Text × Json)} (h : (names ms).Nodup) :
    SameFields (Value.ofMembers ms)
      (Value.ofMembers ((ms.map fun m => (m.1, m.2.sorted)).mergeSort memberLe)) := by
  intro name
  have hperm := List.mergeSort_perm (ms.map fun m => (m.1, m.2.sorted)) memberLe
  have hnodup : (names (ms.map fun m => (m.1, m.2.sorted))).Nodup := by
    rw [names_map_sorted]
    exact h
  rw [Fields.value?, Fields.value?, Value.lookup?_ofMembers, Value.lookup?_ofMembers,
    ← find?_eq_of_perm hperm.symm hnodup, List.find?_map, Option.map_map, Option.map_map]
  refine congrArg (fun f => Option.map f _) (funext fun m => ?_)
  exact (Value.sorted_ofJson m.2).symm

namespace Summary

variable {fields fields' : List (Value × Value)} (h : SameFields fields fields')

include h

theorem spelled?_eq (spellings : List String) :
    spelled? spellings fields' = (spelled? spellings fields).map fun p => (p.1, p.2.sorted) := by
  unfold spelled?
  induction spellings with
  | nil => rfl
  | cons s spellings ih =>
    rw [List.findSome?_cons, List.findSome?_cons, h s, ih]
    cases Fields.value? s fields with
    | none => rfl
    | some v => rfl

theorem readCode_eq : readCode fields' = readCode fields := by
  have hvalue : ∀ v : Value, Code.ofTextValue v.sorted = Code.ofTextValue v := by
    intro v
    cases v <;> rfl
  unfold readCode
  rw [h "code"]
  cases Fields.value? "code" fields with
  | none => rfl
  | some v => simp only [Option.map_some, hvalue]

theorem readSeverity_eq : readSeverity fields' = readSeverity fields := by
  have hvalue : ∀ v : Value, Severity.ofValue v.sorted = Severity.ofValue v := by
    intro v
    cases v <;> rfl
  unfold readSeverity
  rw [h "severity"]
  cases Fields.value? "severity" fields with
  | none => rfl
  | some v => simp only [Option.map_some, hvalue]

theorem readTotal_eq : readTotal fields' = readTotal fields := by
  unfold readTotal
  rw [spelled?_eq h]
  cases spelled? ["totalNotices", "total_notices"] fields with
  | none => rfl
  | some p =>
    obtain ⟨s, v⟩ := p
    cases v <;> rfl

theorem readContexts_eq :
    readContexts fields' = (readContexts fields).map (List.map Value.sorted) := by
  unfold readContexts
  rw [spelled?_eq h]
  cases spelled? ["notices", "contexts"] fields with
  | none => rfl
  | some p =>
    obtain ⟨s, v⟩ := p
    cases v with
    | list items =>
      rw [Option.map_some, Value.sorted, Value.sortedItems_eq_map]
      rfl
    | tuple items =>
      rw [Option.map_some, Value.sorted, Value.sortedItems_eq_map]
      rfl
    | set items =>
      rw [Option.map_some, Value.sorted, Value.sortedItems_eq_map]
      rfl
    | _ => rfl

end Summary

/-! ### Summaries and reports -/

/-- The summary with its contexts sorted. -/
def Summary.sorted (s : Summary) : Summary :=
  { s with contexts := s.contexts.map Value.sorted }

/-- The report with the contexts of its summaries sorted. -/
def Report.sorted (r : Report) : Report :=
  ⟨r.summaries.map Summary.sorted⟩

theorem Summary.ofValue_eq {fields fields' : List (Value × Value)}
    (h : SameFields fields fields') :
    Summary.ofValue (.map fields') = (Summary.ofValue (.map fields)).map Summary.sorted := by
  simp only [Summary.ofValue, readCode_eq h, readSeverity_eq h, readTotal_eq h, readContexts_eq h]
  cases readCode fields <;> cases readSeverity fields <;> cases readTotal fields <;>
    cases readContexts fields <;> rfl

theorem Summary.ofValue_sorted {j : Json} (h : ProperHere j) :
    Summary.ofValue (Value.ofJson j.sorted)
      = (Summary.ofValue (Value.ofJson j)).map Summary.sorted := by
  cases j with
  | obj ms =>
    rw [sorted_obj, Value.ofJson, Value.ofJson]
    exact Summary.ofValue_eq (sameFields_sorted h)
  | arr items =>
    rw [sorted_arr]
    rfl
  | _ => rfl

theorem Report.readSummaries_sorted (index : Nat) {js : List Json} (h : ∀ j ∈ js, ProperHere j) :
    readSummaries index ((js.map Json.sorted).map Value.ofJson)
      = (readSummaries index (js.map Value.ofJson)).map (List.map Summary.sorted) := by
  induction js generalizing index with
  | nil => rfl
  | cons j js ih =>
    rw [List.map_cons, List.map_cons, List.map_cons, readSummaries, readSummaries,
      Summary.ofValue_sorted (h j (List.mem_cons_self ..)),
      ih (index + 1) fun i hi => h i (List.mem_cons_of_mem _ hi)]
    cases Summary.ofValue (Value.ofJson j) with
    | error errors => rfl
    | ok s =>
      cases readSummaries (index + 1) (js.map Value.ofJson) with
      | error fault => rfl
      | ok summaries => rfl

/-- A document and its sorted form describe the same report, contexts sorted. -/
theorem Report.ofValue_sorted {j : Json} (h : j.IsProper) :
    Report.ofValue (Value.ofJson j.sorted)
      = (Report.ofValue (Value.ofJson j)).map Report.sorted := by
  cases j with
  | obj ms =>
    have hfields := sameFields_sorted h.here "notices"
    have hinside : ∀ v, Fields.value? "notices" (Value.ofMembers ms) = some v →
        ∃ k, v = Value.ofJson k ∧ k.IsProper := by
      intro v hv
      rw [Fields.value?, Value.lookup?_ofMembers] at hv
      obtain ⟨m, hm, rfl⟩ := Option.map_eq_some_iff.mp hv
      exact ⟨m.2, rfl, h.member (List.mem_of_find?_eq_some hm)⟩
    rw [sorted_obj, Value.ofJson, Value.ofJson, Report.ofValue, Report.ofValue, hfields]
    cases hv : Fields.value? "notices" (Value.ofMembers ms) with
    | none => rfl
    | some v =>
      obtain ⟨k, rfl, hk⟩ := hinside v hv
      cases k with
      | arr items =>
        have hitems := readSummaries_sorted 0 fun i hi => (hk.inside i hi).here
        rw [Option.map_some, Value.sorted_ofJson, sorted_arr]
        simp only [Value.ofJson, Value.ofJsons_eq_map]
        rw [children_arr] at hitems
        rw [hitems]
        cases readSummaries 0 (items.map Value.ofJson) with
        | error fault => rfl
        | ok summaries => rfl
      | obj ns =>
        rw [Option.map_some, Value.sorted_ofJson, sorted_obj]
        rfl
      | _ => rfl
  | arr items =>
    rw [sorted_arr]
    rfl
  | _ => rfl

/-- The canonical text of a document is read as the report that the document describes. -/
theorem Report.ofText_write_sorted {j : Json} (hproper : j.IsProper) (hlegible : j.IsLegible) :
    Report.ofText (Json.write .unicode j.sorted)
      = ((Report.ofValue (Value.ofJson j)).map Report.sorted).mapError .malformed := by
  rw [Report.ofText, Value.read_canonicalText hproper hlegible]
  simp only [Report.ofValue_sorted hproper]

end NoticeLedger
