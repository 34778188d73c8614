import NoticeLedger.Command.Answer
import NoticeLedger.Proofs.Json.LongIntegers

/-!
# Reports that cannot be read

A text is a report or is found malformed, unless the reader meets an integer with too many digits
in it (`Report.ofText_cases_iff`). A command reads its reports one after another, and the first one
that cannot be read decides how it ends (`Command.answer_of_firstUnread`): with the exit code for
malformed reports if it is malformed, and with the exit code of new errors otherwise.
-/

namespace NoticeLedger

/-! ### Texts -/

namespace Report

theorem ofText_eq_integerTooLong_iff {t : Text} :
    ofText t = .error .integerTooLong ↔ Json.MeetsLongInteger t := by
  rw [← Json.read_eq_integerTooLong_iff]
  unfold ofText
  split
  · rename_i hread
    rw [hread]
    exact ⟨nofun, nofun⟩
  · rename_i hread
    exact iff_of_true rfl hread
  · rename_i j hread
    rw [hread]
    refine iff_of_false (fun h => ?_) nofun
    obtain ⟨fault, -, hfault⟩ := exists_of_mapError_error h
    cases hfault

theorem ofText_ne_unnameable (t : Text) : ofText t ≠ .error .unnameable := by
  unfold ofText
  split
  · nofun
  · nofun
  · intro h
    obtain ⟨fault, -, hfault⟩ := exists_of_mapError_error h
    cases hfault

/-- A text is a report or malformed exactly if the reader meets no long integer in it. -/
theorem ofText_cases_iff {t : Text} :
    ((∃ r, ofText t = .ok r) ∨ ∃ fault, ofText t = .error (.malformed fault)) ↔
      ¬Json.MeetsLongInteger t := by
  rw [← ofText_eq_integerTooLong_iff]
  constructor
  · rintro (⟨r, h⟩ | ⟨fault, h⟩) hlong
    · exact nomatch h.symm.trans hlong
    · exact nomatch h.symm.trans hlong
  · intro hlong
    cases h : ofText t with
    | ok r => exact .inl ⟨r, rfl⟩
    | error e =>
      cases e with
      | malformed fault => exact .inr ⟨fault, rfl⟩
      | integerTooLong  => exact absurd h hlong
      | unnameable      => exact absurd h (ofText_ne_unnameable t)

/-- The file holds a text in which the reader meets a long integer. -/
def FileMeetsLongInteger (files : FileTree) (p : Path) : Prop :=
  ∃ bs s, files.read p = .ok bs ∧ fileText? bs = some s ∧
    Json.MeetsLongInteger (Text.ofString s)

theorem load_eq_integerTooLong_iff {files : FileTree} {p : Path} :
    load files p = .error .integerTooLong ↔ FileMeetsLongInteger files p := by
  unfold load FileMeetsLongInteger
  cases hread : files.read p with
  | error fault =>
    refine iff_of_false ?_ nofun
    cases fault <;> nofun
  | ok bs =>
    cases htext : fileText? bs with
    | none =>
      refine iff_of_false ?_ ?_
      · simp only [htext]
        nofun
      · rintro ⟨bs', s, hbs, hs, -⟩
        cases hbs
        exact nomatch htext.symm.trans hs
    | some s =>
      simp only [htext]
      rw [ofText_eq_integerTooLong_iff]
      constructor
      · intro h
        exact ⟨bs, s, rfl, htext, h⟩
      · rintro ⟨bs', s', hbs, hs, h⟩
        cases hbs
        cases htext.symm.trans hs
        exact h

theorem load_eq_unnameable_iff {files : FileTree} {p : Path} :
    load files p = .error .unnameable ↔ files.read p = .error .unnameable := by
  unfold load
  cases files.read p with
  | error fault => cases fault <;> simp
  | ok bs =>
    refine iff_of_false ?_ nofun
    dsimp only
    split
    · nofun
    · exact ofText_ne_unnameable _

end Report

/-! ### Shared reports -/

namespace Answer

variable {files : FileTree} {baseline candidate p : Path} {name : String} {names : List String}

theorem compareShared_of_pathTooLong {fault : FileFault}
    (h : files.isFile (candidate.child name) = .error fault) :
    (compareShared files baseline candidate (name :: names)).2 = .error .pathTooLong := by
  rw [compareShared, h]

theorem compareShared_of_absent (h : files.isFile (candidate.child name) = .ok false) :
    (compareShared files baseline candidate (name :: names)).2 =
      (compareShared files baseline candidate names).2 := by
  rw [compareShared, h]

theorem compareShared_of_unread {e : ReportError}
    (h : files.isFile (candidate.child name) = .ok true)
    (hdiff : diffOf files (baseline.child name) (candidate.child name) = .error (p, e)) :
    (compareShared files baseline candidate (name :: names)).2 = .error (.unread p e) := by
  rw [compareShared, h]
  simp only [hdiff]

theorem compareShared_of_diffOf {d : Diff} (h : files.isFile (candidate.child name) = .ok true)
    (hdiff : diffOf files (baseline.child name) (candidate.child name) = .ok d) :
    (compareShared files baseline candidate (name :: names)).2 =
      (compareShared files baseline candidate names).2.map ((stemOf name, d) :: ·) := by
  rw [compareShared, h]
  simp only [hdiff]

/-- A name ends the comparison at a path that is too long or at a report that cannot be read, or it
is passed over, or it gives a difference. -/
theorem compareShared_cons_cases (files : FileTree) (baseline candidate : Path) (name : String)
    (names : List String) :
    (∃ fault, files.isFile (candidate.child name) = .error fault ∧
      (compareShared files baseline candidate (name :: names)).2 = .error .pathTooLong) ∨
    (files.isFile (candidate.child name) = .ok false ∧
      (compareShared files baseline candidate (name :: names)).2 =
        (compareShared files baseline candidate names).2) ∨
    (∃ p e, files.isFile (candidate.child name) = .ok true ∧
      diffOf files (baseline.child name) (candidate.child name) = .error (p, e) ∧
      (compareShared files baseline candidate (name :: names)).2 = .error (.unread p e)) ∨
    ∃ d, files.isFile (candidate.child name) = .ok true ∧
      diffOf files (baseline.child name) (candidate.child name) = .ok d ∧
      (compareShared files baseline candidate (name :: names)).2 =
        (compareShared files baseline candidate names).2.map ((stemOf name, d) :: ·) := by
  cases hfile : files.isFile (candidate.child name) with
  | error fault => exact .inl ⟨fault, rfl, compareShared_of_pathTooLong hfile⟩
  | ok present =>
    cases present with
    | false => exact .inr (.inl ⟨rfl, compareShared_of_absent hfile⟩)
    | true =>
      cases hdiff : diffOf files (baseline.child name) (candidate.child name) with
      | error unread =>
        obtain ⟨p, e⟩ := unread
        exact .inr (.inr (.inl ⟨p, e, rfl, rfl, compareShared_of_unread hfile hdiff⟩))
      | ok d => exact .inr (.inr (.inr ⟨d, rfl, rfl, compareShared_of_diffOf hfile hdiff⟩))

end Answer

/-! ### Commands -/

namespace Command

/-- The reports of the given names in two directories, the one of the baseline first, as far as
they are files in the second directory. There are no more of them behind a path that is too long. -/
def sharedReports (files : FileTree) (baseline candidate : Path) : List String → List Path
  | []            => []
  | name :: names =>
    match files.isFile (candidate.child name) with
    | .error _  => []
    | .ok false => sharedReports files baseline candidate names
    | .ok true  =>
      [baseline.child name, candidate.child name] ++ sharedReports files baseline candidate names

/-- The reports that a command reads one after another, as long as they can be read. -/
def reports (files : FileTree) : Command → List Path
  | compare baseline candidate _      => [baseline, candidate]
  | acceptance baseline candidate _ _ =>
    if files.isDirectory baseline && files.isDirectory candidate then
      sharedReports files baseline candidate (Answer.reportNames files baseline)
    else []
  | summary report                    => [report]

/-- The first of some reports that cannot be read, and why. -/
def firstUnread? (files : FileTree) : List Path → Option (Path × ReportError)
  | []      => none
  | p :: ps =>
    match Report.load files p with
    | .error e => some (p, e)
    | .ok _    => firstUnread? files ps

/-- The report that cannot be read and so has ended a comparison, if one has. -/
def unread? {α : Type} : Except Answer.Stop α → Option (Path × ReportError)
  | .error (.unread p e) => some (p, e)
  | _                    => none

variable {files : FileTree} {baseline candidate p : Path} {e : ReportError} {c : Command}

theorem unread?_map {α β : Type} (f : α → β) (e : Except Answer.Stop α) :
    unread? (e.map f) = unread? e := by
  cases e with
  | ok a       => rfl
  | error stop => cases stop <;> rfl

theorem firstUnread?_append (ps qs : List Path) :
    firstUnread? files (ps ++ qs) = (firstUnread? files ps).or (firstUnread? files qs) := by
  induction ps with
  | nil => rfl
  | cons p ps ih =>
    simp only [List.cons_append, firstUnread?]
    split
    · rfl
    · exact ih

theorem firstUnread?_pair :
    firstUnread? files [baseline, candidate] =
      match Answer.diffOf files baseline candidate with
      | .error unread => some unread
      | .ok _         => none := by
  simp only [firstUnread?, Answer.diffOf]
  cases Report.load files baseline with
  | error e => rfl
  | ok b =>
    cases Report.load files candidate with
    | error e => rfl
    | ok r    => rfl

theorem firstUnread?_sharedReports (names : List String) :
    firstUnread? files (sharedReports files baseline candidate names) =
      unread? (Answer.compareShared files baseline candidate names).2 := by
  induction names with
  | nil => rfl
  | cons name names ih =>
    rw [sharedReports]
    obtain ⟨fault, hfile, houtcome⟩ | ⟨hfile, houtcome⟩ | ⟨p, e, hfile, hdiff, houtcome⟩ |
      ⟨d, hfile, hdiff, houtcome⟩ :=
      Answer.compareShared_cons_cases files baseline candidate name names
    · rw [hfile, houtcome]
      rfl
    · rw [hfile, houtcome, ← ih]
    · simp only [hfile, houtcome, firstUnread?_append, firstUnread?_pair, hdiff]
      rfl
    · simp only [hfile, houtcome, firstUnread?_append, firstUnread?_pair, hdiff, unread?_map, ih]
      rfl

/-- The first report that cannot be read decides the answer to a command. -/
theorem answer_of_firstUnread (h : firstUnread? files (c.reports files) = some (p, e)) :
    ∃ messages, c.answer files = Answer.ofUnread messages p e := by
  cases c with
  | compare baseline candidate format =>
    rw [reports, firstUnread?_pair] at h
    rw [answer, Answer.compare]
    cases hdiff : Answer.diffOf files baseline candidate with
    | error unread =>
      rw [hdiff] at h
      obtain rfl := Option.some.inj h
      exact ⟨[], rfl⟩
    | ok d =>
      rw [hdiff] at h
      cases h
  | acceptance baseline candidate threshold format =>
    rw [reports] at h
    rw [answer, Answer.acceptance]
    split at h
    · rename_i hdirectories
      rw [if_pos hdirectories]
      rw [firstUnread?_sharedReports] at h
      cases hshared : Answer.compareShared files baseline candidate
        (Answer.reportNames files baseline) with
      | mk messages outcome =>
        rw [hshared] at h
        cases outcome with
        | ok diffs => cases h
        | error stop =>
          cases stop with
          | pathTooLong => cases h
          | unread p' e' =>
            cases h
            exact ⟨messages, rfl⟩
    · cases h
  | summary report =>
    rw [reports, firstUnread?] at h
    rw [answer, Answer.summary]
    cases hload : Report.load files report with
    | error e' =>
      rw [hload] at h
      cases h
      exact ⟨[], rfl⟩
    | ok r =>
      rw [hload] at h
      cases h

/-- Where every report can be read, a command ends by what the reports hold, or at a path that is
too long. -/
theorem ending_of_all_read (h : firstUnread? files (c.reports files) = none) :
    (c.answer files).ending ≠ .integerTooLong ∧ (c.answer files).ending ≠ .unnameable := by
  cases c with
  | compare baseline candidate format =>
    rw [reports, firstUnread?_pair] at h
    rw [answer, Answer.compare]
    cases hdiff : Answer.diffOf files baseline candidate with
    | error unread =>
      rw [hdiff] at h
      cases h
    | ok d =>
      dsimp only
      split <;> decide
  | acceptance baseline candidate threshold format =>
    rw [reports] at h
    rw [answer, Answer.acceptance]
    split at h
    · rename_i hdirectories
      rw [if_pos hdirectories]
      rw [firstUnread?_sharedReports] at h
      cases hshared : Answer.compareShared files baseline candidate
        (Answer.reportNames files baseline) with
      | mk messages outcome =>
        rw [hshared] at h
        cases outcome with
        | error stop =>
          cases stop with
          | unread p e => cases h
          | pathTooLong => simp [Answer.ofStop]
        | ok diffs =>
          cases diffs with
          | nil => simp
          | cons d diffs =>
            dsimp only
            rw [Answer.ofDatasets]
            split
            · simp [Answer.misuse]
            · dsimp only
              split <;> decide
    · rename_i hdirectories
      rw [if_neg hdirectories]
      decide
  | summary report =>
    rw [reports, firstUnread?] at h
    rw [answer, Answer.summary]
    cases hload : Report.load files report with
    | error e =>
      rw [hload] at h
      cases h
    | ok r => simp

theorem load_of_firstUnread {ps : List Path} (h : firstUnread? files ps = some (p, e)) :
    p ∈ ps ∧ Report.load files p = .error e := by
  induction ps with
  | nil => cases h
  | cons q ps ih =>
    rw [firstUnread?] at h
    split at h
    · rename_i e' hload
      cases h
      exact ⟨List.mem_cons_self .., hload⟩
    · obtain ⟨hmem, hload⟩ := ih h
      exact ⟨List.mem_cons_of_mem _ hmem, hload⟩

/-- A malformed report ends a command with the code of malformed reports, any other report that
cannot be read with the code of new errors. -/
theorem exitCode_of_firstUnread (h : firstUnread? files (c.reports files) = some (p, e)) :
    ((c.answer files).ending.exitCode = 2 ↔ ∃ fault, e = .malformed fault) ∧
      ((c.answer files).ending.exitCode = 1 ↔ ¬∃ fault, e = .malformed fault) := by
  obtain ⟨messages, hanswer⟩ := answer_of_firstUnread h
  rw [hanswer]
  cases e with
  | malformed fault => simp [Answer.ofUnread, Ending.exitCode]
  | integerTooLong  => simp [Answer.ofUnread, Ending.exitCode]
  | unnameable      => simp [Answer.ofUnread, Ending.exitCode]

/-- Where every report can be read, the code of new errors is given for these and for a path that is
too long. -/
theorem exitCode_eq_one_iff_of_all_read (h : firstUnread? files (c.reports files) = none) :
    (c.answer files).ending.exitCode = 1 ↔
      (c.answer files).ending = .failed ∨ (c.answer files).ending = .pathTooLong := by
  obtain ⟨hlong, hname⟩ := ending_of_all_read h
  cases hending : (c.answer files).ending with
  | integerTooLong => exact absurd hending hlong
  | unnameable => exact absurd hending hname
  | _ => decide

/-- Reading a text ends with a report or finds it malformed exactly if the reader meets no integer
with too many digits, for which it would take a run of digits that long. A command whose first
report that cannot be read is malformed ends with code 2, and otherwise, where the file holds such
an integer or cannot have its name, with the code 1 of new errors. Where all reports can be read,
code 1 tells of new errors or of a path that is too long. -/
theorem malformed_unless_integerTooLong (t : Text) (files : FileTree) (c : Command) :
    (((∃ r, Report.ofText t = .ok r) ∨ ∃ fault, Report.ofText t = .error (.malformed fault)) ↔
        ¬Json.MeetsLongInteger t) ∧
      (¬Json.HasLongRun t → ¬Json.MeetsLongInteger t) ∧
      (firstUnread? files (c.reports files) = none →
        ((c.answer files).ending.exitCode = 1 ↔
          (c.answer files).ending = .failed ∨ (c.answer files).ending = .pathTooLong)) ∧
      ∀ p e, firstUnread? files (c.reports files) = some (p, e) →
        ((c.answer files).ending.exitCode = 2 ↔ ∃ fault, e = .malformed fault) ∧
        ((c.answer files).ending.exitCode = 1 ↔
          Report.FileMeetsLongInteger files p ∨ files.read p = .error .unnameable) := by
  refine ⟨Report.ofText_cases_iff, fun hrun hmeets => hrun hmeets.hasLongRun,
    exitCode_eq_one_iff_of_all_read, fun p e h => ?_⟩
  obtain ⟨htwo, hone⟩ := exitCode_of_firstUnread h
  obtain ⟨-, hload⟩ := load_of_firstUnread h
  refine ⟨htwo, hone.trans ?_⟩
  rw [← Report.load_eq_integerTooLong_iff, ← Report.load_eq_unnameable_iff, hload]
  cases e with
  | malformed fault => simp
  | integerTooLong  => simp
  | unnameable      => simp

/-- A number of 4301 ones is neither a report nor malformed. -/
theorem integerTooLong_ones :
    ¬((∃ r, Report.ofText (List.replicate 4301 (.char '1')) = .ok r) ∨
      ∃ fault, Report.ofText (List.replicate 4301 (.char '1')) = .error (.malformed fault)) := by
  rw [Report.ofText_cases_iff, not_not]
  exact Json.meetsLongInteger_ones (by decide)

end Command

end NoticeLedger
