/-!
# Outcomes

An outcome is a result or the reason why there is none. Of several outcomes the first reason
decides (`collect`): all results are there exactly if every outcome has one.
-/

namespace NoticeLedger

variable {ε ε' α β : Type}

/-- A mapped outcome succeeds where the outcome did. -/
theorem exists_of_map_ok {f : α → β} {e : Except ε α} {b : β} (h : e.map f = .ok b) :
    ∃ a, e = .ok a ∧ f a = b := by
  cases e with
  | error => cases h
  | ok a  => exact ⟨a, rfl, Except.ok.inj h⟩

theorem map_eq_error_iff {f : α → β} {e : Except ε α} {x : ε} :
    e.map f = .error x ↔ e = .error x := by
  cases e with
  | error y =>
    constructor
    · intro h
      exact congrArg Except.error (Except.error.inj h)
    · intro h
      exact congrArg Except.error (Except.error.inj h)
  | ok a => exact ⟨nofun, nofun⟩

theorem mapError_eq_ok_iff {f : ε → ε'} {e : Except ε α} {a : α} :
    e.mapError f = .ok a ↔ e = .ok a := by
  cases e with
  | error => exact ⟨nofun, nofun⟩
  | ok b  =>
    constructor
    · intro h
      exact congrArg Except.ok (Except.ok.inj h)
    · intro h
      exact congrArg Except.ok (Except.ok.inj h)

/-- An outcome with a mapped reason fails where the outcome did. -/
theorem exists_of_mapError_error {f : ε → ε'} {e : Except ε α} {x : ε'}
    (h : e.mapError f = .error x) : ∃ y, e = .error y ∧ f y = x := by
  cases e with
  | error y => exact ⟨y, rfl, Except.error.inj h⟩
  | ok a    => cases h

theorem mapError_eq_error_iff {f : ε → ε'} {e : Except ε α} {x : ε'} :
    e.mapError f = .error x ↔ ∃ y, e = .error y ∧ f y = x := by
  refine ⟨exists_of_mapError_error, ?_⟩
  rintro ⟨y, rfl, rfl⟩
  rfl

/-- The first reason, or all the results. -/
def collect : List (Except ε α) → Except ε (List α)
  | []            => .ok []
  | .error e :: _ => .error e
  | .ok a :: rs   => (collect rs).map (a :: ·)

@[simp] theorem collect_nil : collect ([] : List (Except ε α)) = .ok [] := rfl

@[simp] theorem collect_map_ok (as : List α) :
    collect (as.map (Except.ok : α → Except ε α)) = .ok as := by
  induction as with
  | nil          => rfl
  | cons a as ih => simp [collect, ih, Except.map]

/-- All results are there exactly if every outcome has one. -/
theorem collect_eq_ok_iff {rs : List (Except ε α)} {as : List α} :
    collect rs = .ok as ↔ rs = as.map .ok := by
  refine ⟨fun h => ?_, fun h => h ▸ collect_map_ok as⟩
  induction rs generalizing as with
  | nil => cases h; rfl
  | cons r rs ih =>
    cases r with
    | error => cases h
    | ok a =>
      obtain ⟨as', has, rfl⟩ := exists_of_map_ok h
      simp [ih has]

end NoticeLedger
