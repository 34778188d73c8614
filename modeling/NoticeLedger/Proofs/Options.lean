import NoticeLedger.Limits

/-!
# Options

Options are set one after another, and the first one against which something stands decides a
failure: it is told by the limits that the options in front of it have set
(`Limits.setOptions_eq_error_iff`).
-/

namespace NoticeLedger.Limits

/-- What stands against an option once the limits in `seen` have been set, if anything does. -/
def optionFault? (seen : List LimitField) (option v : Value) : Option OptionFault :=
  match LimitField.ofOption? option with
  | none   => some (if option.isShowable then .unsupported option.shown else .unshowable)
  | some f =>
    if seen.contains f then some (.repeated f)
    else
      match limitOf v with
      | .error fault => some (.invalid option.shown fault)
      | .ok _        => none

/-- Options against which nothing stands set limits, one after another, in addition to those in
`seen`; those that have been set in the end are told, the last first. -/
inductive Sets : List (Value × Value) → (seen : List LimitField) → List LimitField → Prop where
  | nil (seen : List LimitField) : Sets [] seen seen
  | cons {option v : Value} {f : LimitField} {n : Nat} {rest : List (Value × Value)}
      {seen seen' : List LimitField} (hf : LimitField.ofOption? option = some f)
      (hnew : f ∉ seen) (hn : limitOf v = .ok n) (hrest : Sets rest (f :: seen) seen') :
      Sets ((option, v) :: rest) seen seen'

variable {options rest : List (Value × Value)} {seen : List LimitField} {l : Limits}
  {option v : Value} {fault : OptionFault}

theorem optionFault?_eq_none_iff :
    optionFault? seen option v = none ↔
      ∃ f n, LimitField.ofOption? option = some f ∧ f ∉ seen ∧ limitOf v = .ok n := by
  unfold optionFault?
  cases LimitField.ofOption? option with
  | none => simp
  | some f =>
    by_cases hseen : f ∈ seen
    · simp [hseen]
    · cases limitOf v with
      | error fault => simp [hseen]
      | ok n => simp [hseen]

theorem optionFault?_eq_unshowable_iff :
    optionFault? seen option v = some .unshowable ↔
      LimitField.ofOption? option = none ∧ option.isShowable = false := by
  unfold optionFault?
  cases LimitField.ofOption? option with
  | none => cases option.isShowable <;> simp
  | some f =>
    by_cases hseen : f ∈ seen
    · simp [hseen]
    · cases limitOf v with
      | error fault => simp [hseen]
      | ok n => simp [hseen]

/-- An option against which something stands ends the setting of options. -/
theorem setOptions_of_fault (h : optionFault? seen option v = some fault) :
    setOptions ((option, v) :: rest) seen l = .error fault := by
  unfold optionFault? at h
  rw [setOptions]
  cases hf : LimitField.ofOption? option with
  | none =>
    rw [hf] at h
    exact congrArg Except.error (Option.some.inj h)
  | some f =>
    simp only [hf] at h ⊢
    split at h
    · rename_i hseen
      rw [if_pos hseen, Option.some.inj h]
    · rename_i hseen
      rw [if_neg hseen]
      cases hn : limitOf v with
      | error fault =>
        rw [hn] at h
        exact congrArg Except.error (Option.some.inj h)
      | ok n =>
        rw [hn] at h
        cases h

theorem setOptions_of_fits {f : LimitField} {n : Nat} (hf : LimitField.ofOption? option = some f)
    (hnew : f ∉ seen) (hn : limitOf v = .ok n) :
    setOptions ((option, v) :: rest) seen l = setOptions rest (f :: seen) (l.set f n) := by
  simp [setOptions, hf, hnew, hn]

/-- The first option against which something stands decides a failure. -/
theorem setOptions_eq_error_iff :
    setOptions options seen l = .error fault ↔
      ∃ before option v after seen', options = before ++ (option, v) :: after ∧
        Sets before seen seen' ∧ optionFault? seen' option v = some fault := by
  constructor
  · intro h
    induction options generalizing seen l with
    | nil => cases h
    | cons entry rest ih =>
      obtain ⟨option, v⟩ := entry
      cases hfault : optionFault? seen option v with
      | some found =>
        rw [setOptions_of_fault hfault] at h
        obtain rfl := Except.error.inj h
        exact ⟨[], option, v, rest, seen, rfl, .nil seen, hfault⟩
      | none =>
        obtain ⟨f, n, hf, hnew, hn⟩ := optionFault?_eq_none_iff.1 hfault
        rw [setOptions_of_fits hf hnew hn] at h
        obtain ⟨before, option', v', after, seen', rfl, hsets, hlast⟩ := ih h
        exact ⟨(option, v) :: before, option', v', after, seen', rfl, .cons hf hnew hn hsets, hlast⟩
  · rintro ⟨before, option, v, after, seen', rfl, hsets, hfault⟩
    induction hsets generalizing l with
    | nil seen => exact setOptions_of_fault hfault
    | cons hf hnew hn _ ih =>
      rw [List.cons_append, setOptions_of_fits hf hnew hn]
      exact ih hfault

end NoticeLedger.Limits
