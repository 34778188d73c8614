import Mathlib.Data.List.Nodup
import NoticeLedger.Json
import NoticeLedger.Proofs.KeyOrder

/-!
# Nested JSON values

A property of values that is asked of a value and of everything nested in it
(`Json.Everywhere`), with the induction over nested values that goes with it. Sorting the members
changes nothing about a value whose members are in order everywhere (`Json.sorted_of_isNormal`).
-/

namespace NoticeLedger.Json

/-- The values directly inside a value. -/
def children : Json → List Json
  | arr items => items
  | obj ms    => ms.map (·.2)
  | _         => []

@[simp] theorem children_arr (items : List Json) : (arr items).children = items := rfl

@[simp] theorem children_obj (ms : List (Text × Json)) : (obj ms).children = ms.map (·.2) := rfl

theorem mem_children_obj {m : Text × Json} {ms : List (Text × Json)} (h : m ∈ ms) :
    m.2 ∈ (obj ms).children :=
  List.mem_map_of_mem h

theorem sizeOf_lt_of_mem_children {j k : Json} (h : k ∈ j.children) : sizeOf k < sizeOf j := by
  cases j with
  | arr items =>
    have hlt := List.sizeOf_lt_of_mem h
    simp only [children_arr, arr.sizeOf_spec] at hlt ⊢
    omega
  | obj ms =>
    obtain ⟨m, hm, rfl⟩ := List.mem_map.mp h
    have hlt := List.sizeOf_lt_of_mem hm
    obtain ⟨name, k⟩ := m
    simp only [obj.sizeOf_spec, Prod.mk.sizeOf_spec] at hlt ⊢
    omega
  | null => cases h
  | bool b => cases h
  | int n => cases h
  | float x => cases h
  | str t => cases h

/-- Induction over nested values. -/
theorem induction_on {motive : Json → Prop} (j : Json)
    (step : ∀ j, (∀ k ∈ j.children, motive k) → motive j) : motive j :=
  step j fun k _ => induction_on k step
termination_by sizeOf j
decreasing_by exact sizeOf_lt_of_mem_children ‹_›

/-! ### Properties everywhere -/

/-- A property of a value and of everything nested in it. -/
inductive Everywhere (p : Json → Prop) : Json → Prop where
  | intro {j : Json} (here : p j) (inside : ∀ k ∈ j.children, Everywhere p k) : Everywhere p j

namespace Everywhere

variable {p q : Json → Prop} {j : Json}

theorem here (h : Everywhere p j) : p j := by
  cases h with
  | intro hp _ => exact hp

theorem inside (h : Everywhere p j) : ∀ k ∈ j.children, Everywhere p k := by
  cases h with
  | intro _ hs => exact hs

theorem member {ms : List (Text × Json)} (h : Everywhere p (obj ms)) {m : Text × Json}
    (hm : m ∈ ms) : Everywhere p m.2 :=
  h.inside _ (mem_children_obj hm)

theorem mono (hpq : ∀ k, p k → q k) (h : Everywhere p j) : Everywhere q j := by
  induction h with
  | intro hp _ ih => exact .intro (hpq _ hp) ih

theorem and (hp : Everywhere p j) (hq : Everywhere q j) : Everywhere (fun k => p k ∧ q k) j := by
  induction hp with
  | intro hp _ ih => exact .intro ⟨hp, hq.here⟩ fun k hk => ih k hk (hq.inside k hk)

end Everywhere

/-! ### Members in order -/

/-- The names of members. -/
def names (ms : List (Text × Json)) : List Text :=
  ms.map (·.1)

/-- Strictly ascending names. -/
def Ascending (ms : List (Text × Json)) : Prop :=
  (names ms).Pairwise fun s t => Text.lt s t = true

instance (ms : List (Text × Json)) : Decidable (Ascending ms) :=
  inferInstanceAs (Decidable ((names ms).Pairwise fun s t => Text.lt s t = true))

theorem memberLe_trans (a b c : Text × Json) (hab : memberLe a b = true)
    (hbc : memberLe b c = true) : memberLe a c = true :=
  Text.le_trans hab hbc

theorem memberLe_total (a b : Text × Json) : (memberLe a b || memberLe b a) = true :=
  Text.le_total a.1 b.1

theorem Ascending.nodup {ms : List (Text × Json)} (h : Ascending ms) : (names ms).Nodup := by
  apply List.Pairwise.imp _ h
  rintro s _ hlt rfl
  rw [Text.lt_irrefl] at hlt
  cases hlt

/-- What has distinct names ascends once it is sorted by them. -/
theorem pairwise_lt_mergeSort {α : Type} {ms : List (Text × α)} (h : (ms.map (·.1)).Nodup) :
    ((ms.mergeSort fun a b => Text.le a.1 b.1).map (·.1)).Pairwise
      fun s t => Text.lt s t = true := by
  have hperm := List.mergeSort_perm ms fun a b => Text.le a.1 b.1
  have hsorted : (ms.mergeSort fun a b => Text.le a.1 b.1).Pairwise
      fun a b => Text.le a.1 b.1 = true := by
    apply List.pairwise_mergeSort
    · exact fun _ _ _ => Text.le_trans
    · exact fun a b => Text.le_total a.1 b.1
  have hnodup := List.pairwise_map.mp ((hperm.map (·.1)).nodup_iff.mpr h)
  apply List.pairwise_map.mpr
  refine (hnodup.and hsorted).imp fun {a b} hab => ?_
  exact Text.lt_of_le_of_ne hab.2 hab.1

/-- Members with distinct names have one order, whatever order they come in. -/
theorem mergeSort_eq_of_perm {α : Type} {ms ns : List (Text × α)} (hperm : ms.Perm ns)
    (h : (ms.map (·.1)).Nodup) :
    (ms.mergeSort fun a b => Text.le a.1 b.1) = ns.mergeSort fun a b => Text.le a.1 b.1 := by
  have hms := List.pairwise_map.mp (pairwise_lt_mergeSort h)
  have hns := List.pairwise_map.mp (pairwise_lt_mergeSort ((hperm.map (·.1)).nodup_iff.mp h))
  have hsorted := (List.mergeSort_perm ms fun a b => Text.le a.1 b.1).trans
    (hperm.trans (List.mergeSort_perm ns fun a b => Text.le a.1 b.1).symm)
  refine hsorted.eq_of_pairwise (fun a b _ _ hab hba => ?_) hms hns
  rw [Text.lt_asymm hab] at hba
  cases hba

theorem ascending_mergeSort {ms : List (Text × Json)} (h : (names ms).Nodup) :
    Ascending (ms.mergeSort memberLe) :=
  pairwise_lt_mergeSort h

/-- Sorting the members of an object leads to the only order in which their names ascend. -/
theorem mergeSort_eq_of_ascending {ms ns : List (Text × Json)} (hperm : ns.Perm ms)
    (h : Ascending ns) : ms.mergeSort memberLe = ns := by
  have hns : ns.Pairwise fun a b => memberLe a b = true := by
    refine (List.pairwise_map.mp h).imp fun {a b} hlt => ?_
    rw [memberLe, Text.le, Text.lt_asymm hlt]
    rfl
  exact (mergeSort_eq_of_perm hperm h.nodup).symm.trans (List.mergeSort_of_pairwise hns)

/-! ### Sorted values -/

theorem sorted_obj (ms : List (Text × Json)) :
    (obj ms).sorted = obj ((ms.map fun m => (m.1, m.2.sorted)).mergeSort memberLe) := by
  rw [sorted, sortedMembers_eq_map]

theorem sorted_arr (items : List Json) : (arr items).sorted = arr (items.map sorted) := by
  rw [sorted, sortedItems_eq_map]

/-! ### Normal values -/

/-- The names of an object ascend, and a double is finite. -/
def NormalHere : Json → Prop
  | obj ms  => Ascending ms
  | float x => x.isFinite = true
  | _       => True

/-- The normal form of a context. -/
abbrev IsNormal (j : Json) : Prop :=
  Everywhere NormalHere j

/-- The names of an object are distinct, and a double is finite. -/
def ProperHere : Json → Prop
  | obj ms  => (names ms).Nodup
  | float x => x.isFinite = true
  | _       => True

/-- A value that a program can hold and a document can tell. -/
abbrev IsProper (j : Json) : Prop :=
  Everywhere ProperHere j

theorem IsNormal.isProper {j : Json} (h : j.IsNormal) : j.IsProper := by
  refine Everywhere.mono (fun k hk => ?_) h
  cases k with
  | obj ms => exact Ascending.nodup hk
  | float x => exact hk
  | null => trivial
  | bool b => trivial
  | int n => trivial
  | str t => trivial
  | arr items => trivial

theorem names_map_sorted (ms : List (Text × Json)) :
    names (ms.map fun m => (m.1, m.2.sorted)) = names ms :=
  List.map_map

/-- There is nothing to sort in a value in normal form. -/
theorem sorted_of_isNormal {j : Json} (h : j.IsNormal) : j.sorted = j := by
  induction h with
  | @intro j hj _ ih =>
    cases j with
    | arr items =>
      have hmap : items.map Json.sorted = items :=
        (List.map_congr_left ih).trans (List.map_id' items)
      rw [sorted_arr, hmap]
    | obj ms =>
      have hmap : ms.map (fun m => (m.1, m.2.sorted)) = ms := by
        refine (List.map_congr_left fun m hm => ?_).trans (List.map_id' ms)
        exact Prod.ext rfl (ih m.2 (mem_children_obj hm))
      rw [sorted_obj, hmap, mergeSort_eq_of_ascending (List.Perm.refl ms) hj]
    | null => rfl
    | bool b => rfl
    | int n => rfl
    | float x => rfl
    | str t => rfl

/-! ### Members set one after another -/

theorem insertMember_of_notMem {name : Text} {value : Json} {ms : List (Text × Json)}
    (h : name ∉ names ms) : insertMember name value ms = ms ++ [(name, value)] := by
  induction ms with
  | nil => rfl
  | cons m ms ih =>
    have hne : m.1 ≠ name := fun heq => h (List.mem_cons.mpr (Or.inl heq.symm))
    have hrest : name ∉ names ms := fun hmem => h (List.mem_cons_of_mem _ hmem)
    rw [insertMember, if_neg hne, ih hrest]
    rfl

/-- Members with distinct names make up the object that holds them as they are. -/
theorem ofMembers_of_nodup {ms : List (Text × Json)} (h : (names ms).Nodup) :
    ofMembers ms = obj ms := by
  have hfold : ∀ before : List (Text × Json), (names (before ++ ms)).Nodup →
      ms.foldl (fun acc m => insertMember m.1 m.2 acc) before = before ++ ms := by
    clear h
    induction ms with
    | nil =>
      intro before _
      exact (List.append_nil before).symm
    | cons m ms ih =>
      intro before hnodup
      have hnotMem : m.1 ∉ names before := by
        intro hm
        rw [names, List.map_append] at hnodup
        exact (List.nodup_append.mp hnodup).2.2 _ hm _ (List.mem_cons_self ..) rfl
      have hassoc : before ++ m :: ms = before ++ [m] ++ ms := by simp
      rw [hassoc] at hnodup
      rw [List.foldl_cons, insertMember_of_notMem hnotMem, ih _ hnodup, hassoc]
  rw [ofMembers, hfold [] h]
  rfl

end NoticeLedger.Json
