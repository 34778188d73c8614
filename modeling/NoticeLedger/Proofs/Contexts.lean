import NoticeLedger.Notice.Fields
import NoticeLedger.Proofs.Json.Nesting
import NoticeLedger.Proofs.Outcomes

/-!
# Contexts in normal form

Whatever a notice is built from, its context is in normal form (`Notice.IsBuilt.isNormal`): the
members of every object are sorted, and their names are distinct because no map has two entries
under one key.
-/

namespace NoticeLedger

/-! ### Values that a program can hold -/

namespace Value

/-- The values directly inside a value, keys left out. -/
def parts : Value → List Value
  | list items  => items
  | tuple items => items
  | set items   => items
  | map es      => es.map (·.2)
  | _           => []

/-- No map in the value has two entries under the same key. -/
inductive IsWellFormed : Value → Prop where
  | intro {v : Value}
      (keys : ∀ es, v = map es → es.Pairwise fun a b => sameKey a.1 b.1 = false)
      (inside : ∀ w ∈ v.parts, IsWellFormed w) : IsWellFormed v

theorem text?_eq_some {v : Value} {t : Text} (h : v.text? = some t) : v = text t := by
  cases v with
  | text s =>
    obtain rfl := Option.some.inj h
    rfl
  | _ => cases h

theorem mem_of_lookup? {name : Text} {es : List (Value × Value)} {v : Value}
    (h : lookup? name es = some v) : ∃ e ∈ es, e.2 = v := by
  induction es with
  | nil => cases h
  | cons e es ih =>
    rw [lookup?] at h
    split at h
    · exact ⟨e, List.mem_cons_self .., Option.some.inj h⟩
    · obtain ⟨e', he', hv⟩ := ih h
      exact ⟨e', List.mem_cons_of_mem _ he', hv⟩

end Value

/-- No two entries of a proper JSON value have the same key. -/
theorem Value.isWellFormed_ofJson {j : Json} (h : j.IsProper) : (Value.ofJson j).IsWellFormed := by
  induction h with
  | @intro j hj _ ih =>
    cases j with
    | arr items =>
      rw [Value.ofJson, Value.ofJsons_eq_map]
      constructor
      · nofun
      · intro w hw
        obtain ⟨k, hk, rfl⟩ := List.mem_map.mp hw
        exact ih k hk
    | obj ms =>
      rw [Value.ofJson, Value.ofMembers_eq_map]
      constructor
      · rintro _ ⟨rfl⟩
        apply List.pairwise_map.mpr
        refine (List.pairwise_map.mp hj).imp fun {a b} hne => ?_
        rw [Value.sameKey]
        exact beq_false_of_ne hne
      · intro w hw
        obtain ⟨e, he, rfl⟩ := List.mem_map.mp hw
        obtain ⟨m, hm, rfl⟩ := List.mem_map.mp he
        exact ih m.2 (Json.mem_children_obj hm)
    | null => exact .intro nofun nofun
    | bool b => exact .intro nofun nofun
    | int n => exact .intro nofun nofun
    | float x => exact .intro nofun nofun
    | str t => exact .intro nofun nofun

/-! ### Normal forms -/

namespace Context

open Json

theorem eq_map_of_namedMembers {es : List (Value × Except ContextFault Json)}
    {ms : List (Text × Except ContextFault Json)} (h : namedMembers es = .ok ms) :
    es = ms.map fun m => (.text m.1, m.2) := by
  induction es generalizing ms with
  | nil =>
    obtain rfl := Except.ok.inj h
    rfl
  | cons e es ih =>
    obtain ⟨k, r⟩ := e
    rw [namedMembers] at h
    split at h
    · cases h
    · rename_i name hname
      obtain ⟨rest, hrest, rfl⟩ := exists_of_map_ok h
      rw [List.map_cons, ← ih hrest, Value.text?_eq_some hname]

theorem namedMembers_map (ms : List (Text × Except ContextFault Json)) :
    namedMembers (ms.map fun m => (.text m.1, m.2)) = .ok ms := by
  induction ms with
  | nil => rfl
  | cons m ms ih =>
    rw [List.map_cons, namedMembers, Value.text?, ih]
    rfl

theorem objectOf_map_ok (ms : List (Text × Json)) :
    objectOf (ms.map fun m => (.text m.1, .ok m.2)) = .ok (.obj (ms.mergeSort Json.memberLe)) := by
  have hnamed : namedMembers (ms.map fun m => (.text m.1, .ok m.2))
      = .ok (ms.map fun m => (m.1, .ok m.2)) := by
    rw [← namedMembers_map, List.map_map]
    rfl
  have hsort := List.map_mergeSort (r := Json.memberLe) (s := memberLe) (l := ms)
    (f := fun m => (m.1, (.ok m.2 : Except ContextFault Json))) fun _ _ _ _ => rfl
  have hmember : (ms.mergeSort Json.memberLe).map
      (fun m => (.ok m.2 : Except ContextFault Json).map fun j => (m.1, j))
        = (ms.mergeSort Json.memberLe).map .ok := rfl
  rw [objectOf, hnamed]
  simp only [← hsort, List.map_map, Function.comp_def, hmember, collect_map_ok]
  rfl

/-- A map whose values have normal forms becomes an object exactly if all of its keys are texts and
no value is refused. -/
theorem objectOf_eq_ok_iff {es : List (Value × Except ContextFault Json)} {j : Json} :
    objectOf es = .ok j ↔ ∃ ms : List (Text × Json),
      es = ms.map (fun m => (.text m.1, .ok m.2)) ∧ j = .obj (ms.mergeSort Json.memberLe) := by
  constructor
  · intro h
    obtain ⟨ms, hms⟩ : ∃ ms : List (Text × Json),
        es.map id = ms.map fun m => (.text m.1, .ok m.2) := by
      refine exists_map_eq_map_iff.mpr fun e he => ?_
      have hobject := h
      rw [objectOf] at hobject
      split at hobject
      · cases hobject
      · rename_i ms hms
        obtain rfl := eq_map_of_namedMembers hms
        obtain ⟨ns, hns, _⟩ := exists_of_map_ok hobject
        obtain ⟨m, hm, rfl⟩ := List.mem_map.mp he
        obtain ⟨n, hn⟩ := exists_collect_map_ok_iff.mp ⟨ns, hns⟩ m
          ((List.mergeSort_perm ms memberLe).mem_iff.mpr hm)
        obtain ⟨k, hk, _⟩ := exists_of_map_ok hn
        exact ⟨(m.1, k), by rw [hk, id]⟩
    obtain rfl := (List.map_id es).symm.trans hms
    rw [objectOf_map_ok] at h
    exact ⟨ms, rfl, (Except.ok.inj h).symm⟩
  · rintro ⟨ms, rfl, rfl⟩
    exact objectOf_map_ok ms

/-- The members of an object in normal form are the entries of the map, in the order of their
names. -/
theorem objectOf_ok {es : List (Value × Except ContextFault Json)} {j : Json}
    (h : objectOf es = .ok j) (hkeys : es.Pairwise fun a b => Value.sameKey a.1 b.1 = false) :
    ∃ ns, j = .obj ns ∧ Ascending ns ∧ ∀ n ∈ ns, (.text n.1, .ok n.2) ∈ es := by
  obtain ⟨ms, rfl, rfl⟩ := objectOf_eq_ok_iff.mp h
  have hnodup : (names ms).Nodup := by
    apply List.pairwise_map.mpr
    refine (List.pairwise_map.mp hkeys).imp fun {a b} hab heq => ?_
    rw [Value.sameKey, heq, beq_self_eq_true] at hab
    cases hab
  refine ⟨_, rfl, ascending_mergeSort hnodup, fun n hn => ?_⟩
  exact List.mem_map.mpr ⟨n, List.mem_mergeSort.mp hn, rfl⟩

/-- What a value is brought into is in normal form. -/
theorem isNormal_of_normalize {v : Value} (hv : v.IsWellFormed) {j : Json}
    (h : normalize v = .ok j) : j.IsNormal := by
  induction hv generalizing j with
  | @intro v keys _ ih =>
    have hitems : ∀ items : List Value, (∀ w ∈ items, w ∈ v.parts) →
        (collect (normalizeItems items)).map Json.arr = .ok j → j.IsNormal := by
      intro items hparts hcollect
      obtain ⟨js, hjs, rfl⟩ := exists_of_map_ok hcollect
      rw [normalizeItems_eq_map] at hjs
      apply Json.Everywhere.intro trivial
      intro k hk
      have hmem : Except.ok k ∈ items.map normalize := by
        rw [collect_eq_ok_iff.mp hjs]
        exact List.mem_map_of_mem hk
      obtain ⟨w, hw, hnormal⟩ := List.mem_map.mp hmem
      exact ih w (hparts w hw) hnormal
    cases v with
    | null => obtain rfl := Except.ok.inj h; exact .intro trivial nofun
    | bool b => obtain rfl := Except.ok.inj h; exact .intro trivial nofun
    | int n => obtain rfl := Except.ok.inj h; exact .intro trivial nofun
    | float x =>
      rw [normalize] at h
      split at h
      · rename_i hfinite
        obtain rfl := Except.ok.inj h
        exact .intro hfinite nofun
      · cases h
    | text t => obtain rfl := Except.ok.inj h; exact .intro trivial nofun
    | list items => exact hitems items (fun _ hw => hw) h
    | tuple items => exact hitems items (fun _ hw => hw) h
    | map es =>
      rw [normalize, normalizeEntries_eq_map] at h
      obtain ⟨ns, rfl, hascending, hns⟩ := objectOf_ok h (List.pairwise_map.mpr (keys es rfl))
      apply Json.Everywhere.intro hascending
      intro k hk
      obtain ⟨n, hn, rfl⟩ := List.mem_map.mp hk
      obtain ⟨e, he, heq⟩ := List.mem_map.mp (hns n hn)
      exact ih e.2 (List.mem_map_of_mem he) (Prod.mk.inj heq).2
    | bytes bs => cases h
    | set items => cases h
    | foreign shown => cases h

/-- A value in normal form is its own normal form. -/
theorem normalize_ofJson {j : Json} (h : j.IsNormal) : normalize (Value.ofJson j) = .ok j := by
  induction h with
  | @intro j hj _ ih =>
    cases j with
    | null => rfl
    | bool b => rfl
    | int n => rfl
    | float x =>
      rw [Value.ofJson, normalize]
      exact if_pos hj
    | str t => rfl
    | arr items =>
      have hitems : (items.map Value.ofJson).map normalize = items.map .ok := by
        rw [List.map_map]
        exact List.map_congr_left ih
      rw [Value.ofJson, Value.ofJsons_eq_map, normalize, normalizeItems_eq_map, hitems,
        collect_map_ok]
      rfl
    | obj ms =>
      have hentries : (Value.ofMembers ms).map (fun e => (e.1, normalize e.2))
          = ms.map fun m => (.text m.1, .ok m.2) := by
        rw [Value.ofMembers_eq_map, List.map_map]
        apply List.map_congr_left
        intro m hm
        exact Prod.ext rfl (ih m.2 (mem_children_obj hm))
      rw [Value.ofJson, normalize, normalizeEntries_eq_map, hentries, objectOf_map_ok,
        mergeSort_eq_of_ascending (List.Perm.refl ms) hj]

theorem isNormal_of_context {fields : List (Value × Value)}
    (hfields : (Value.map fields).IsWellFormed) {j : Json} (h : Fields.context fields = .ok j) :
    j.IsNormal := by
  rw [Fields.context] at h
  split at h
  · obtain rfl := Except.ok.inj h
    exact .intro List.Pairwise.nil nofun
  · rename_i v hv
    obtain ⟨e, he, rfl⟩ := Value.mem_of_lookup? hv
    cases hfields with
    | intro _ inside =>
      have hwell := inside e.2 (List.mem_map_of_mem he)
      cases hnormal : normalize e.2 with
      | error fault =>
        rw [hnormal] at h
        cases h
      | ok k =>
        rw [hnormal] at h
        obtain rfl := Except.ok.inj h
        exact isNormal_of_normalize hwell hnormal

end Context

/-! ### Notices -/

theorem ValidationNotice.context_of_ofFields {fields : List (Value × Value)} {n : ValidationNotice}
    (h : ValidationNotice.ofFields fields = .ok n) : Fields.context fields = .ok n.context := by
  rw [ValidationNotice.ofFields] at h
  split at h
  · rename_i hcontext _ _ _
    obtain rfl := Except.ok.inj h
    exact hcontext
  · cases h

theorem SystemError.context_of_ofFields {fields : List (Value × Value)} {e : SystemError}
    (h : SystemError.ofFields fields = .ok e) : Fields.context fields = .ok e.context := by
  rw [SystemError.ofFields] at h
  split at h
  · rename_i hcontext _ _ _
    obtain rfl := Except.ok.inj h
    exact hcontext
  · cases h

/-- The notice has been built from named values. -/
def Notice.IsBuilt (n : Notice) : Prop :=
  ∃ kind fields, (Value.map fields).IsWellFormed ∧ Notice.ofFields kind fields = .ok n

/-- The context of a notice that has been built is in normal form. -/
theorem Notice.IsBuilt.isNormal {n : Notice} (h : n.IsBuilt) : n.context.IsNormal := by
  obtain ⟨kind, fields, hfields, hn⟩ := h
  apply Context.isNormal_of_context hfields
  cases kind with
  | validation =>
    obtain ⟨m, hm, rfl⟩ := exists_of_map_ok (e := ValidationNotice.ofFields fields) hn
    exact ValidationNotice.context_of_ofFields hm
  | systemError =>
    obtain ⟨m, hm, rfl⟩ := exists_of_map_ok (e := SystemError.ofFields fields) hn
    exact SystemError.context_of_ofFields hm

end NoticeLedger
