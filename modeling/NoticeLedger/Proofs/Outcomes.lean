import Mathlib.Data.List.Forall2
import Mathlib.Data.Set.List
import NoticeLedger.Outcome

/-!
# Outcomes of lists

A list that is mapped to the same as another one tells about the other one element by element
(`forall₂_of_map_eq`), so that a whole list succeeds if each of its elements does. If it does not,
the first element without a result decides (`collect_map_eq_error_iff`).
-/

namespace NoticeLedger

variable {α β γ δ : Type}

/-! ### Lists with the same images -/

section Images

variable {f : α → γ} {g : β → γ} {as : List α} {bs : List β}

/-- Elements of lists with the same images belong together. -/
theorem forall₂_of_map_eq {R : α → β → Prop} (h : as.map f = bs.map g)
    (hR : ∀ a ∈ as, ∀ b, f a = g b → R a b) : List.Forall₂ R as bs := by
  induction as generalizing bs with
  | nil =>
    obtain rfl := List.map_eq_nil_iff.mp h.symm
    exact .nil
  | cons a as ih =>
    obtain ⟨b, bs, rfl, hb, hbs⟩ := List.map_eq_cons_iff.mp h.symm
    exact .cons (hR a (List.mem_cons_self ..) b hb.symm)
      (ih hbs.symm fun c hc => hR c (List.mem_cons_of_mem a hc))

theorem map_eq_of_map_eq {f' : α → δ} {g' : β → δ} (h : as.map f = bs.map g)
    (hR : ∀ a ∈ as, ∀ b, f a = g b → f' a = g' b) : as.map f' = bs.map g' := by
  rw [← List.forall₂_eq_eq_eq, List.forall₂_map_left_iff, List.forall₂_map_right_iff]
  exact forall₂_of_map_eq h hR

theorem eq_of_map_eq_map {xs ys : List α} (hf : ∀ x ∈ xs, ∀ y, f x = f y → x = y)
    (h : xs.map f = ys.map f) : xs = ys := by
  rw [← List.forall₂_eq_eq_eq]
  exact forall₂_of_map_eq h hf

/-- A list maps to values of another function exactly if each of its elements does. -/
theorem exists_map_eq_map_iff :
    (∃ bs : List β, as.map f = bs.map g) ↔ ∀ a ∈ as, ∃ b, f a = g b := by
  constructor
  · rintro ⟨bs, hbs⟩ a ha
    have hmem : f a ∈ bs.map g := hbs ▸ List.mem_map_of_mem ha
    obtain ⟨b, _, hb⟩ := List.mem_map.mp hmem
    exact ⟨b, hb.symm⟩
  · intro h
    have hrange : as.map f ∈ Set.range (List.map g) := by
      rw [Set.range_list_map]
      intro c hc
      obtain ⟨a, ha, rfl⟩ := List.mem_map.mp hc
      obtain ⟨b, hb⟩ := h a ha
      exact ⟨b, hb.symm⟩
    obtain ⟨bs, hbs⟩ := hrange
    exact ⟨bs, hbs.symm⟩

end Images

/-! ### Success -/

theorem exists_map_ok_iff {ε : Type} {f : α → β} {e : Except ε α} :
    (∃ b, e.map f = .ok b) ↔ ∃ a, e = .ok a := by
  constructor
  · rintro ⟨b, hb⟩
    obtain ⟨a, ha, -⟩ := exists_of_map_ok hb
    exact ⟨a, ha⟩
  · rintro ⟨a, rfl⟩
    exact ⟨f a, rfl⟩

/-- All items together have a result exactly if each of them has one. -/
theorem exists_collect_map_ok_iff {ε : Type} {f : α → Except ε β} {as : List α} :
    (∃ bs, collect (as.map f) = .ok bs) ↔ ∀ a ∈ as, ∃ b, f a = .ok b := by
  simp only [collect_eq_ok_iff, exists_map_eq_map_iff]

/-! ### The first failure -/

/-- The first item for which there is no result decides the failure. -/
theorem collect_map_eq_error_iff {ε : Type} {f : α → Except ε β} {as : List α} {e : ε} :
    collect (as.map f) = .error e ↔ ∃ before a after, as = before ++ a :: after ∧
      (∀ b ∈ before, ∃ c, f b = .ok c) ∧ f a = .error e := by
  induction as with
  | nil => simp
  | cons a as ih =>
    rw [List.map_cons]
    cases ha : f a with
    | error x =>
      rw [collect]
      constructor
      · rintro ⟨rfl⟩
        exact ⟨[], a, as, rfl, List.forall_mem_nil _, ha⟩
      · rintro ⟨before, b, after, hlist, hbefore, hb⟩
        cases before with
        | nil =>
          obtain rfl := (List.cons.inj hlist).1
          exact congrArg Except.error (Except.error.inj (ha.symm.trans hb))
        | cons c before =>
          obtain rfl := (List.cons.inj hlist).1
          obtain ⟨c, hc⟩ := hbefore a (List.mem_cons_self ..)
          rw [ha] at hc
          cases hc
    | ok x =>
      rw [collect, map_eq_error_iff, ih]
      constructor
      · rintro ⟨before, b, after, rfl, hbefore, hb⟩
        exact ⟨a :: before, b, after, rfl, List.forall_mem_cons.mpr ⟨⟨x, ha⟩, hbefore⟩, hb⟩
      · rintro ⟨before, b, after, hlist, hbefore, hb⟩
        cases before with
        | nil =>
          obtain rfl := (List.cons.inj hlist).1
          rw [ha] at hb
          cases hb
        | cons c before =>
          exact ⟨before, b, after, (List.cons.inj hlist).2, (List.forall_mem_cons.mp hbefore).2, hb⟩

end NoticeLedger
