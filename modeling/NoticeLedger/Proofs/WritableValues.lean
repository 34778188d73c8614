import NoticeLedger.Proofs.Normalization
import NoticeLedger.Value.Document

/-!
# What a document may hold

A value is written as a document exactly if everything nested in it can be
(`Value.exists_toJson?_iff`): there is no number that is not finite, no integer that is too long,
nothing that JSON does not have, and no map whose keys cannot be ordered or named. The order in
which the entries of a map are visited is that of their keys, whatever the values are
(`Value.orderEntries?_map`).
-/

namespace NoticeLedger

/-! ### Sorting by images -/

section Insertion

variable {α β : Type} (lt? : β → β → Option Bool) (f : α → β)

theorem insertionPlace?_map (a : α) (xs : List α) (low high : ℕ) :
    insertionPlace? lt? (f a) (xs.map f) low high
      = insertionPlace? (fun x y => lt? (f x) (f y)) a xs low high := by
  fun_induction insertionPlace? (fun x y => lt? (f x) (f y)) a xs low high with
  | case1 low high hlt middle hmiddle =>
    rw [insertionPlace?, if_pos hlt]
    dsimp only
    rw [List.getElem?_map, hmiddle]
    rfl
  | case2 low high hlt middle x hmiddle hnone =>
    rw [insertionPlace?, if_pos hlt]
    dsimp only
    rw [List.getElem?_map, hmiddle]
    simp only [Option.map_some, hnone]
  | case3 low high hlt middle x hmiddle htrue ih =>
    rw [insertionPlace?, if_pos hlt]
    dsimp only
    rw [List.getElem?_map, hmiddle]
    simp only [Option.map_some, htrue]
    exact ih
  | case4 low high hlt middle x hmiddle hfalse ih =>
    rw [insertionPlace?, if_pos hlt]
    dsimp only
    rw [List.getElem?_map, hmiddle]
    simp only [Option.map_some, hfalse]
    exact ih
  | case5 low high hlt => rw [insertionPlace?, if_neg hlt]

theorem insertByHalving?_map (xs : List α) (a : α) :
    insertByHalving? lt? (xs.map f) (f a)
      = (insertByHalving? (fun x y => lt? (f x) (f y)) xs a).map (List.map f) := by
  rw [insertByHalving?, insertByHalving?, List.length_map, insertionPlace?_map, Option.map_map]
  simp only [Function.comp_def, List.map_append, List.map_cons, List.map_take, List.map_drop]

theorem foldlM_insertByHalving?_map (xs as : List α) :
    (as.map f).foldlM (insertByHalving? lt?) (xs.map f)
      = (as.foldlM (insertByHalving? fun x y => lt? (f x) (f y)) xs).map (List.map f) := by
  induction as generalizing xs with
  | nil => rfl
  | cons a as ih =>
    rw [List.map_cons, List.foldlM_cons, List.foldlM_cons, insertByHalving?_map]
    cases insertByHalving? (fun x y => lt? (f x) (f y)) xs a with
    | none => rfl
    | some ys => exact ih ys

theorem splitRun?_map (falling : Bool) (a : α) (as : List α) :
    splitRun? lt? falling (f a) (as.map f)
      = (splitRun? (fun x y => lt? (f x) (f y)) falling a as).map
          fun run => (run.1.map f, run.2.map f) := by
  induction as generalizing a with
  | nil => rfl
  | cons b as ih =>
    rw [List.map_cons, splitRun?, splitRun?, ih]
    cases lt? (f b) (f a) with
    | none => rfl
    | some falls =>
      dsimp only
      split
      · simp only [Option.map_map, Function.comp_def, List.map_cons]
      · rfl

/-- Items are sorted as what they are compared by. -/
theorem insertionSort?_map (as : List α) : insertionSort? lt? (as.map f)
    = (insertionSort? (fun x y => lt? (f x) (f y)) as).map (List.map f) := by
  match as with
  | [] => rfl
  | [a] => rfl
  | a :: b :: as =>
    rw [List.map_cons, List.map_cons, insertionSort?, insertionSort?]
    cases lt? (f b) (f a) with
    | none => rfl
    | some falling =>
      simp only [bind, Option.bind_some]
      rw [← List.map_cons, splitRun?_map]
      cases splitRun? (fun x y => lt? (f x) (f y)) falling a (b :: as) with
      | none => rfl
      | some run =>
        simp only [Option.map_some, Option.bind_some]
        rw [← foldlM_insertByHalving?_map]
        congr 1
        split <;> simp

end Insertion

namespace Value

theorem orderEntries?_map {α β : Type} (g : α → β) (es : List (Value × α)) :
    orderEntries? (es.map fun e => (e.1, g e.2))
      = (orderEntries? es).map (List.map fun e => (e.1, g e.2)) := by
  have hall : (es.map fun e => (e.1, g e.2)).all (·.1.text?.isSome)
      = es.all (·.1.text?.isSome) := by
    rw [List.all_map]
    rfl
  have hsort := List.map_mergeSort (r := entryLe) (s := entryLe) (l := es)
    (f := fun e => (e.1, g e.2)) fun _ _ _ _ => rfl
  rw [orderEntries?, orderEntries?, hall]
  split
  · rw [← hsort]
    rfl
  · exact insertionSort?_map _ _ es

theorem perm_of_orderEntries? {α : Type} {es es' : List (Value × α)}
    (h : orderEntries? es = some es') : es'.Perm es := by
  rw [orderEntries?] at h
  split at h
  · obtain rfl := Option.some.inj h
    exact List.mergeSort_perm es _
  · exact perm_of_insertionSort? _ h

/-! ### Documents -/

/-- The value can be the key of a member. -/
def NamesMember : Value → Prop
  | null    => True
  | bool _  => True
  | int n   => isConvertible n = true
  | float x => x.isFinite = true
  | text _  => True
  | _       => False

/-- A document can hold the value, whatever is inside. -/
def WritableHere : Value → Prop
  | null      => True
  | bool _    => True
  | int n     => isConvertible n = true
  | float x   => x.isFinite = true
  | text _    => True
  | list _    => True
  | tuple _   => True
  | map es    => (orderEntries? es).isSome = true ∧ ∀ e ∈ es, e.1.NamesMember
  | bytes _   => False
  | set _     => False
  | foreign _ => False

theorem exists_keyName?_iff {key : Value} :
    (∃ name, keyName? key = .ok name) ↔ key.NamesMember := by
  cases key with
  | int n => by_cases h : isConvertible n = true <;> simp [keyName?, NamesMember, h]
  | float x => by_cases h : x.isFinite = true <;> simp [keyName?, NamesMember, h]
  | _ => simp [keyName?, NamesMember]

theorem exists_member_iff {entry : Value × Except Unwritable Json} :
    (∃ m, member entry = .ok m) ↔ entry.1.NamesMember ∧ ∃ j, entry.2 = .ok j := by
  obtain ⟨key, outcome⟩ := entry
  rw [member, ← exists_keyName?_iff]
  cases keyName? key with
  | error fault => simp
  | ok name =>
    cases outcome with
    | error fault => simp [Except.map]
    | ok j => simp [Except.map]

theorem exists_objectOf_iff {entries : List (Value × Except Unwritable Json)} :
    (∃ j, objectOf entries = .ok j) ↔ (orderEntries? entries).isSome = true ∧
      ∀ e ∈ entries, e.1.NamesMember ∧ ∃ j, e.2 = .ok j := by
  rw [objectOf]
  cases horder : orderEntries? entries with
  | none => simp
  | some es =>
    have hperm := perm_of_orderEntries? horder
    simp only [exists_map_ok_iff, exists_collect_map_ok_iff, exists_member_iff, hperm.mem_iff,
      Option.isSome_some, true_and]

/-- A value can be written exactly if everything nested in it can. -/
theorem exists_toJson?_iff {v : Value} :
    (∃ j, v.toJson? = .ok j) ↔ v.Everywhere WritableHere := by
  induction v using Value.induction_on with
  | step v ih =>
    rw [everywhere_iff, ← forall₂_congr ih]
    have hitems : ∀ items : List Value,
        (∃ j, (collect (itemsToJson? items)).map Json.arr = .ok j) ↔
          ∀ w ∈ items, ∃ j, w.toJson? = .ok j := fun items => by
      rw [itemsToJson?_eq_map, exists_map_ok_iff, exists_collect_map_ok_iff]
    cases v with
    | null => simp [toJson?, WritableHere, parts]
    | bool b => simp [toJson?, WritableHere, parts]
    | text t => simp [toJson?, WritableHere, parts]
    | int n => by_cases h : isConvertible n = true <;> simp [toJson?, WritableHere, parts, h]
    | float x => by_cases h : x.isFinite = true <;> simp [toJson?, WritableHere, parts, h]
    | list items =>
      rw [toJson?, hitems]
      exact (iff_of_eq (true_and _)).symm
    | tuple items =>
      rw [toJson?, hitems]
      exact (iff_of_eq (true_and _)).symm
    | map es =>
      rw [toJson?, entriesToJson?_eq_map, exists_objectOf_iff, orderEntries?_map,
        Option.isSome_map, List.forall_mem_map, parts, List.forall_mem_map, WritableHere,
        and_assoc]
      simp only [← forall₂_and]
    | bytes bs => simp [toJson?, WritableHere]
    | set items => simp [toJson?, WritableHere]
    | foreign shown => simp [toJson?, WritableHere]

end Value

end NoticeLedger
