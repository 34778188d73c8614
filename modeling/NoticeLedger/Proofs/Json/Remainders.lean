import NoticeLedger.Json.Reader

/-!
# What the reader leaves

The reader goes through a document from front to back: what it has left is always an end of the
document (`Json.suffix_of_step`). So what it meets anywhere stands in the document as it is.
-/

namespace NoticeLedger.Json

theorem suffix_skipSpace (s : Text) : skipSpace s <:+ s :=
  List.dropWhile_suffix _

/-! ### Numbers and words -/

theorem suffix_spanDigits (s : Text) : (spanDigits s).2 <:+ s := by
  fun_induction spanDigits s with
  | case1 => exact List.suffix_rfl
  | case2 => exact List.suffix_rfl
  | case3 x s c hx hc ih => exact ih.trans (List.suffix_cons _ _)
  | case4 => exact List.suffix_rfl

theorem suffix_readWhole (s : Text) : (readWhole s).2 <:+ s := by
  unfold readWhole
  split
  · exact List.suffix_cons _ _
  · exact suffix_spanDigits s

theorem suffix_readFraction (s : Text) : (readFraction s).2 <:+ s := by
  fun_cases readFraction s with
  | case1 => exact List.suffix_rfl
  | case2 rest ds behind _ hspan =>
    have hbehind := suffix_spanDigits rest
    rw [hspan] at hbehind
    exact hbehind.trans (List.suffix_cons _ _)
  | case3 => exact List.suffix_rfl

theorem suffix_readSign (s : Text) : (readSign s).2 <:+ s := by
  unfold readSign
  split
  · exact List.suffix_cons _ _
  · exact List.suffix_cons _ _
  · exact List.suffix_rfl

theorem suffix_readPower (s : Text) : (readPower s).2 <:+ s := by
  fun_cases readPower s with
  | case1 | case3 | case4 => exact List.suffix_rfl
  | case2 c rest hc negative unsigned hsign ds behind hne hspan =>
    have hunsigned := suffix_readSign rest
    have hbehind := suffix_spanDigits unsigned
    rw [hsign] at hunsigned
    rw [hspan] at hbehind
    exact (hbehind.trans hunsigned).trans (List.suffix_cons _ _)

theorem suffix_of_readUnsigned {negative : Bool} {s : Text} {read : Except Stop Json × Text}
    (h : readUnsigned negative s = some read) : read.2 <:+ s := by
  unfold readUnsigned at h
  dsimp only at h
  split at h
  · cases h
  · obtain rfl := Option.some.inj h
    exact ((suffix_readPower _).trans (suffix_readFraction _)).trans (suffix_readWhole s)

theorem suffix_of_readNumber {s : Text} {read : Except Stop Json × Text}
    (h : readNumber s = some read) : read.2 <:+ s := by
  unfold readNumber at h
  split at h
  · exact (suffix_of_readUnsigned h).trans (List.suffix_cons _ _)
  · exact suffix_of_readUnsigned h

theorem suffix_of_readWord {s : Text} {read : Json × Text} (h : readWord s = some read) :
    read.2 <:+ s := by
  obtain ⟨w, -, h⟩ := List.exists_of_findSome?_eq_some h
  dsimp only at h
  split at h
  · obtain rfl := Option.some.inj h
    exact List.drop_suffix _ _
  · cases h

theorem suffix_of_readScalar {s : Text} {read : Json × Text} (h : readScalar s = .ok read) :
    read.2 <:+ s := by
  unfold readScalar at h
  split at h
  · rename_i hword
    obtain rfl := Except.ok.inj h
    exact suffix_of_readWord hword
  · split at h
    · rename_i hnumber
      obtain ⟨j, -, rfl⟩ := exists_of_map_ok h
      exact suffix_of_readNumber hnumber
    · cases h

/-! ### Strings -/

theorem suffix_of_readUnit? {s r : Text} {n : Nat} (h : readUnit? s = some (n, r)) : r <:+ s := by
  unfold readUnit? at h
  split at h
  · rename_i a b c d e rest
    obtain ⟨_, _, h⟩ := Option.map_eq_some_iff.1 h
    cases h
    exact ⟨[a, b, c, d], rfl⟩
  · cases h

theorem suffix_of_unicodeEscape? {s r : Text} (h : unicodeEscape? s = some r) : r <:+ s := by
  unfold unicodeEscape? at h
  split at h
  · split at h
    · cases h
    · cases h
      exact ⟨[_, _], rfl⟩
  · cases h

theorem suffix_of_readUnicodeEscape {s : Text} {read : Symbol × Text}
    (h : readUnicodeEscape s = .ok read) : read.2 <:+ s := by
  unfold readUnicodeEscape at h
  split at h
  · cases h
  · rename_i high rest hhigh
    have hrest := suffix_of_readUnit? hhigh
    split at h
    · split at h
      · obtain rfl := Except.ok.inj h
        exact hrest
      · rename_i behind hbehind
        split at h
        · cases h
        · rename_i low rest' hlow
          split at h
          · obtain rfl := Except.ok.inj h
            exact ((suffix_of_readUnit? hlow).trans (suffix_of_unicodeEscape? hbehind)).trans hrest
          · obtain rfl := Except.ok.inj h
            exact hrest
    · obtain rfl := Except.ok.inj h
      exact hrest

theorem suffix_of_readString {opening s : Text} {read : Text × Text}
    (h : readString opening s = .ok read) : read.2 <:+ s := by
  fun_induction readString opening s generalizing read with
  | case1 | case3 | case4 | case6 | case8 => cases h
  | case2 rest =>
    obtain rfl := Except.ok.inj h
    exact List.suffix_cons _ _
  | case5 behind escape hescape _ ih =>
    obtain ⟨read, hread, rfl⟩ := exists_of_map_ok h
    exact ((ih hread).trans (suffix_of_readUnicodeEscape hescape)).trans ⟨[_, _], rfl⟩
  | case7 e behind _ _ _ _ ih =>
    obtain ⟨read, hread, rfl⟩ := exists_of_map_ok h
    exact (ih hread).trans ⟨[_, _], rfl⟩
  | case9 x rest _ _ _ ih =>
    obtain ⟨read, hread, rfl⟩ := exists_of_map_ok h
    exact (ih hread).trans (List.suffix_cons _ _)

/-! ### Steps -/

/-- What is behind a symbol that follows blanks. -/
theorem suffix_of_skipSpace_eq {s r : Text} {x : Symbol} (h : skipSpace s = x :: r) : r <:+ s :=
  (h ▸ List.suffix_cons x r).trans (suffix_skipSpace s)

variable {frames fs : List Frame} {s r : Text} {next next' : Next}

theorem suffix_of_stepValue (h : stepValue frames s = .ok (.on next fs r)) : r <:+ s := by
  unfold stepValue at h
  split at h
  · obtain ⟨read, hread, hmove⟩ := exists_of_map_ok h
    cases hmove
    exact (suffix_of_readString hread).trans (List.suffix_cons _ _)
  · split at h
    · rename_i hskip
      cases h
      exact (suffix_of_skipSpace_eq hskip).trans (List.suffix_cons _ _)
    · cases h
      exact (suffix_skipSpace _).trans (List.suffix_cons _ _)
  · split at h
    · rename_i hskip
      cases h
      exact (suffix_of_skipSpace_eq hskip).trans (List.suffix_cons _ _)
    · cases h
      exact (suffix_skipSpace _).trans (List.suffix_cons _ _)
  · obtain ⟨read, hread, hmove⟩ := exists_of_map_ok h
    cases hmove
    exact suffix_of_readScalar hread

theorem suffix_of_stepName {before : List (Text × Json)}
    (h : stepName before frames s = .ok (.on next fs r)) : r <:+ s := by
  unfold stepName at h
  split at h
  · split at h
    · cases h
    · rename_i hread
      split at h
      · rename_i hskip
        cases h
        exact (((suffix_skipSpace _).trans (suffix_of_skipSpace_eq hskip)).trans
          (suffix_of_readString hread)).trans (List.suffix_cons _ _)
      · cases h
  · cases h

theorem suffix_of_stepAfter {j : Json} (h : stepAfter j frames s = .ok (.on next fs r)) :
    r <:+ s := by
  unfold stepAfter at h
  split at h
  · cases h
  all_goals
    split at h
    · rename_i hskip
      cases h
      exact (suffix_skipSpace _).trans (suffix_of_skipSpace_eq hskip)
    · rename_i hskip
      cases h
      exact suffix_of_skipSpace_eq hskip
    · cases h

/-- What a step leaves is an end of what was there. -/
theorem suffix_of_step (h : step next frames s = .ok (.on next' fs r)) : r <:+ s := by
  cases next with
  | value       => exact suffix_of_stepValue h
  | name before => exact suffix_of_stepName h
  | after j     => exact suffix_of_stepAfter h

end NoticeLedger.Json
