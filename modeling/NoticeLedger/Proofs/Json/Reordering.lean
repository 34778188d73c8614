import NoticeLedger.Proofs.Json.Nesting

/-!
# The order of members

Values that differ only in the order of members (`Json.Reordered`). A value is a reordering of its
sorted form, and reorderings of a value whose names are distinct have the same sorted form, so
sorting decides which values are reorderings of each other (`Json.reordered_iff`). What a value has
everywhere, whatever the order of the names, its reorderings have as well
(`Json.Everywhere.of_reordered`), and so does its sorted form.
-/

namespace NoticeLedger.Json

/-- Values that differ only in the order of members, at any depth. -/
inductive Reordered : Json → Json → Prop where
  | refl (j : Json) : Reordered j j
  | trans {i j k : Json} (first : Reordered i j) (second : Reordered j k) : Reordered i k
  | members {ms ns : List (Text × Json)} (h : ms.Perm ns) : Reordered (obj ms) (obj ns)
  | item (before after : List Json) {j k : Json} (h : Reordered j k) :
      Reordered (arr (before ++ j :: after)) (arr (before ++ k :: after))
  | value (before after : List (Text × Json)) (name : Text) {j k : Json} (h : Reordered j k) :
      Reordered (obj (before ++ (name, j) :: after)) (obj (before ++ (name, k) :: after))

namespace Reordered

theorem symm {j k : Json} (h : Reordered j k) : Reordered k j := by
  induction h with
  | refl j => exact .refl j
  | trans _ _ ih ih' => exact .trans ih' ih
  | members h => exact .members h.symm
  | item before after _ ih => exact .item before after ih
  | value before after name _ ih => exact .value before after name ih

/-! ### Sorting -/

theorem map_items {f : Json → Json} {items : List Json} (h : ∀ j ∈ items, Reordered j (f j))
    (before : List Json) : Reordered (arr (before ++ items)) (arr (before ++ items.map f)) := by
  induction items generalizing before with
  | nil => exact .refl _
  | cons j items ih =>
    have hhead := item before items (h j (List.mem_cons_self ..))
    have htail := ih (fun k hk => h k (List.mem_cons_of_mem j hk)) (before ++ [f j])
    rw [List.append_assoc, List.append_assoc] at htail
    exact hhead.trans htail

theorem map_values {f : Json → Json} {ms : List (Text × Json)}
    (h : ∀ m ∈ ms, Reordered m.2 (f m.2)) (before : List (Text × Json)) :
    Reordered (obj (before ++ ms)) (obj (before ++ ms.map fun m => (m.1, f m.2))) := by
  induction ms generalizing before with
  | nil => exact .refl _
  | cons m ms ih =>
    have hhead := value before ms m.1 (h m (List.mem_cons_self ..))
    have htail := ih (fun k hk => h k (List.mem_cons_of_mem m hk)) (before ++ [(m.1, f m.2)])
    rw [List.append_assoc, List.append_assoc] at htail
    exact hhead.trans htail

theorem sorted (j : Json) : Reordered j j.sorted := by
  induction j using induction_on with
  | step j ih =>
    cases j with
    | arr items =>
      rw [sorted_arr]
      exact map_items ih []
    | obj ms =>
      rw [sorted_obj]
      have hvalues := map_values (fun m hm => ih m.2 (mem_children_obj hm)) []
      exact hvalues.trans (.members (List.mergeSort_perm _ _).symm)
    | null => exact .refl _
    | bool b => exact .refl _
    | int n => exact .refl _
    | float x => exact .refl _
    | str t => exact .refl _

theorem of_sorted_eq {j k : Json} (h : j.sorted = k.sorted) : Reordered j k := by
  have hk := (sorted k).symm
  rw [← h] at hk
  exact (sorted j).trans hk

/-- What has nothing inside it has no other order. -/
theorem eq_of_children_eq_nil {j k : Json} (h : Reordered j k) (hj : j.children = []) :
    j = k := by
  induction h with
  | refl j => rfl
  | trans _ _ ih ih' =>
    obtain rfl := ih hj
    exact ih' hj
  | @members ms ns hperm =>
    obtain rfl : ms = [] := List.map_eq_nil_iff.mp hj
    rw [hperm.nil_eq]
  | item before after => simp at hj
  | value before after name => simp at hj

end Reordered

/-! ### What reordering keeps -/

theorem Everywhere.replace {p : Json → Prop} {i i' j k : Json} {before after : List Json}
    (hi : i.children = before ++ j :: after) (hi' : i'.children = before ++ k :: after)
    (h : Everywhere p i) (hp : p i') (hk : Everywhere p j → Everywhere p k) :
    Everywhere p i' := by
  have hinside := h.inside
  rw [hi, List.forall_mem_append, List.forall_mem_cons] at hinside
  obtain ⟨hbefore, hj, hafter⟩ := hinside
  apply Everywhere.intro hp
  rw [hi', List.forall_mem_append, List.forall_mem_cons]
  exact ⟨hbefore, hk hj, hafter⟩

/-- Reordering keeps what an array has whatever its items are and an object by its names alone. -/
theorem Everywhere.of_reordered {p : Json → Prop}
    (harr : ∀ items items', p (arr items) → p (arr items'))
    (hobj : ∀ ms ns, (names ms).Perm (names ns) → p (obj ms) → p (obj ns)) {j k : Json}
    (h : Reordered j k) (hj : Everywhere p j) : Everywhere p k := by
  induction h with
  | refl j => exact hj
  | trans _ _ ih ih' => exact ih' (ih hj)
  | members hperm =>
    apply Everywhere.intro (hobj _ _ (hperm.map _) hj.here)
    intro i hi
    exact hj.inside i ((hperm.map _).mem_iff.mpr hi)
  | item before after _ ih => exact hj.replace rfl rfl (harr _ _ hj.here) ih
  | @value before after name j k _ ih =>
    have hchildren : ∀ i, (obj (before ++ (name, i) :: after)).children
        = before.map (·.2) ++ i :: after.map (·.2) := by
      simp
    exact hj.replace (hchildren j) (hchildren k) (hobj _ _ (by simp [names]) hj.here) ih

variable {j k : Json}

theorem IsProper.of_reordered (hj : j.IsProper) (h : Reordered j k) : k.IsProper :=
  Everywhere.of_reordered (fun _ _ _ => trivial) (fun _ _ hperm hnodup => hperm.nodup_iff.mp hnodup)
    h hj

theorem IsProper.sorted (hj : j.IsProper) : j.sorted.IsProper :=
  hj.of_reordered (.sorted j)

theorem Reordered.sorted_eq (h : Reordered j k) (hj : j.IsProper) : j.sorted = k.sorted := by
  induction h with
  | refl j => rfl
  | trans first _ ih ih' => rw [ih hj, ih' (hj.of_reordered first)]
  | @members ms ns hperm =>
    rw [sorted_obj, sorted_obj]
    apply congrArg obj
    apply mergeSort_eq_of_perm (hperm.map _)
    rw [← names, names_map_sorted]
    exact hj.here
  | item before after _ ih =>
    have hitem := ih (hj.inside _ (by simp))
    rw [sorted_arr, sorted_arr, List.map_append, List.map_append, List.map_cons, List.map_cons,
      hitem]
  | value before after name _ ih =>
    have hvalue := ih (hj.inside _ (by simp))
    rw [sorted_obj, sorted_obj, List.map_append, List.map_append, List.map_cons, List.map_cons,
      hvalue]

/-- Sorting decides which values are reorderings of each other. -/
theorem reordered_iff (hj : j.IsProper) : Reordered j k ↔ j.sorted = k.sorted :=
  ⟨fun h => h.sorted_eq hj, .of_sorted_eq⟩

end NoticeLedger.Json
