import Mathlib.Data.List.Induction
import NoticeLedger.Proofs.LimitsFaults
import NoticeLedger.Proofs.Places

/-!
# Limits are those of the first reading

While limits are asked for, the files that configure them may change in any way (`FileEvent`). What
a call gives for a place when the file there can be used for the first time is given for good,
whatever becomes of the file and however the path to it is written; until then every call reads the
file as it is. What is known of a place is what a call before has given for it
(`Session.known?_afterAll_eq_some_iff`), so a call that fails, or is for another place, might as
well not have been made (`Session.limitsIn_without_call`).
-/

namespace NoticeLedger

/-- The limits that a file configures, by what comes of reading it. -/
def Limits.ofContent : Except FileFault (List UInt8) → Except LimitsFault Limits
  | .error _ => .error .unreadable
  | .ok bs   => ofBytes bs

theorem Limits.load_eq_ofContent (files : FileTree) (place : Place) :
    load files place = ofContent (files.read ⟨.root, place⟩) := by
  rw [load]
  cases files.read ⟨.root, place⟩ <;> rfl

/-! ### Sessions -/

/-- What can happen while limits are asked for. -/
inductive FileEvent where
  /-- The files change, whoever changes them and in whatever way. -/
  | edit (change : FileTree → FileTree)
  /-- The limits in a file are asked for. -/
  | load (p : Path)

namespace FileEvent

/-- A file gets other bytes, and is made if it is not there. -/
def write (p : Path) (bs : List UInt8) : FileEvent :=
  .edit fun files => (files.write p bs).toOption.getD files

/-- A file is deleted. -/
def remove (p : Path) : FileEvent :=
  .edit fun files => (files.remove p).toOption.getD files

end FileEvent

/-- The files, and the limits that have been read from them so far. -/
structure Session where
  files : FileTree
  cache : LimitsCache := {}

namespace Session

/-- The place of the file that a path names, if files can have its names. -/
def place? (s : Session) (p : Path) : Option Place :=
  if p.isNameable then some (p.resolved s.files.workingDirectory) else none

/-- What a call for the limits in a file gives. -/
def limitsIn (s : Session) (p : Path) : Except LimitsFault Limits :=
  (s.cache.load s.files p).2

/-- The limits that are known of the file at a place. -/
def known? (s : Session) (place : Place) : Option Limits :=
  s.cache.loaded.lookup place

/-- The session after an event. -/
def happen (s : Session) : FileEvent → Session
  | .edit change => { s with files := change s.files }
  | .load p      => { s with cache := (s.cache.load s.files p).1 }

/-- The session after events. At first nothing has been read. -/
def afterAll (files : FileTree) (es : List FileEvent) : Session :=
  es.foldl happen { files }

/-- One of the events is a call that gives limits for the file at a place. -/
def Gives (files : FileTree) (es : List FileEvent) (place : Place) (l : Limits) : Prop :=
  ∃ before p after, es = before ++ .load p :: after ∧
    (afterAll files before).place? p = some place ∧ (afterAll files before).limitsIn p = .ok l

variable {s s' : Session} {files : FileTree} {es before after : List FileEvent} {e : FileEvent}
  {p q : Path} {place place' : Place} {l : Limits} {fault : LimitsFault}

theorem place?_eq_some_iff : s.place? p = some place ↔
    p.isNameable = true ∧ p.resolved s.files.workingDirectory = place := by
  rw [place?]
  split
  · rename_i hname
    rw [Option.some.injEq]
    exact (and_iff_right hname).symm
  · rename_i hname
    exact iff_of_false nofun fun h => hname h.1

theorem place?_eq_none_iff : s.place? p = none ↔ p.isNameable = false := by
  rw [place?]
  cases p.isNameable with
  | false => exact ⟨fun _ => rfl, fun _ => rfl⟩
  | true  => exact iff_of_false nofun nofun

/-! ### One call -/

theorem limitsIn_of_place?_eq_none (h : s.place? p = none) : s.limitsIn p = .error .unnameable :=
  LimitsCache.load_of_unnameable (place?_eq_none_iff.mp h)

theorem limitsIn_of_known (hplace : s.place? p = some place) (h : s.known? place = some l) :
    s.limitsIn p = .ok l := by
  obtain ⟨hname, rfl⟩ := place?_eq_some_iff.mp hplace
  exact LimitsCache.load_of_loaded hname h

theorem limitsIn_of_unknown (hplace : s.place? p = some place) (h : s.known? place = none) :
    s.limitsIn p = Limits.load s.files place := by
  obtain ⟨hname, rfl⟩ := place?_eq_some_iff.mp hplace
  exact LimitsCache.load_of_new hname h

/-- The session in which the limits in the file at one more place are known. -/
def learn (s : Session) (place : Place) (l : Limits) : Session :=
  { s with cache := { loaded := (place, l) :: s.cache.loaded } }

@[simp] theorem known?_learn_self (s : Session) (place : Place) (l : Limits) :
    (s.learn place l).known? place = some l :=
  List.lookup_cons_self

theorem known?_learn_of_ne (h : place' ≠ place) :
    (s.learn place l).known? place' = s.known? place' := by
  rw [known?, learn, List.lookup_cons, beq_false_of_ne h]
  rfl

/-- What a call gives, and the session after it. -/
inductive Loads (s : Session) (p : Path) : Except LimitsFault Limits → Session → Prop where
  | unnameable (hplace : s.place? p = none) : Loads s p (.error .unnameable) s
  | again {place : Place} {l : Limits} (hplace : s.place? p = some place)
      (hknown : s.known? place = some l) : Loads s p (.ok l) s
  | failed {place : Place} {fault : LimitsFault} (hplace : s.place? p = some place)
      (hnew : s.known? place = none) (hload : Limits.load s.files place = .error fault) :
      Loads s p (.error fault) s
  | first {place : Place} {l : Limits} (hplace : s.place? p = some place)
      (hnew : s.known? place = none) (hload : Limits.load s.files place = .ok l) :
      Loads s p (.ok l) (s.learn place l)

theorem loads (s : Session) (p : Path) : Loads s p (s.limitsIn p) (s.happen (.load p)) := by
  rw [limitsIn, happen, LimitsCache.load]
  split
  · rename_i hname
    have hplace : s.place? p = some (p.resolved s.files.workingDirectory) :=
      place?_eq_some_iff.mpr ⟨hname, rfl⟩
    dsimp only
    split
    · rename_i l hknown
      exact .again hplace hknown
    · rename_i hnew
      split
      · rename_i fault hload
        exact .failed hplace hnew hload
      · rename_i l hload
        exact .first hplace hnew hload
  · rename_i hname
    exact .unnameable (place?_eq_none_iff.mpr (Bool.eq_false_iff.mpr hname))

/-- A call that gives no limits leaves no trace. -/
theorem Loads.eq_of_error (h : Loads s p (.error fault) s') : s' = s := by
  cases h <;> rfl

/-- After a call nothing is known that was not known before, but for what it has given. -/
theorem Loads.known?_eq_some_iff {answer : Except LimitsFault Limits} (h : Loads s p answer s') :
    s'.known? place = some l ↔
      s.known? place = some l ∨ s.place? p = some place ∧ answer = .ok l := by
  cases h with
  | unnameable | failed =>
    exact ⟨.inl, fun heither => heither.resolve_right fun hgiven => nomatch hgiven.2⟩
  | again hplace hknown =>
    refine ⟨.inl, fun heither => heither.elim id ?_⟩
    rintro ⟨hplace', hgiven⟩
    cases hplace.symm.trans hplace'
    cases hgiven
    exact hknown
  | @first known l' hplace hnew =>
    by_cases hother : place = known
    · subst hother
      rw [known?_learn_self, hnew, Option.some.injEq, Except.ok.injEq]
      exact ⟨fun hsame => .inr ⟨hplace, hsame⟩, fun heither => (heither.resolve_left nofun).2⟩
    · rw [known?_learn_of_ne hother]
      refine ⟨.inl, fun heither => heither.resolve_right fun hgiven => hother ?_⟩
      exact Option.some.inj (hgiven.1.symm.trans hplace)

/-! ### Every moment -/

theorem afterAll_append (files : FileTree) (es fs : List FileEvent) :
    afterAll files (es ++ fs) = fs.foldl happen (afterAll files es) :=
  List.foldl_append

theorem afterAll_concat (files : FileTree) (es : List FileEvent) (e : FileEvent) :
    afterAll files (es ++ [e]) = (afterAll files es).happen e :=
  afterAll_append files es [e]

theorem not_gives_nil : ¬Gives files [] place l := by
  rintro ⟨before, p, after, hes, -⟩
  exact List.append_ne_nil_of_right_ne_nil before (List.cons_ne_nil _ _) hes.symm

theorem gives_concat_iff : Gives files (es ++ [e]) place l ↔
    Gives files es place l ∨ ∃ p, e = .load p ∧ (afterAll files es).place? p = some place ∧
      (afterAll files es).limitsIn p = .ok l := by
  constructor
  · rintro ⟨before, p, after, hes, hplace, hgiven⟩
    -- The call is the last event, or it is made among those before.
    rcases List.eq_nil_or_concat after with rfl | ⟨after, last, rfl⟩
    · obtain ⟨rfl, he⟩ := List.append_inj' hes rfl
      exact .inr ⟨p, (List.cons.inj he).1, hplace, hgiven⟩
    · rw [List.concat_eq_append, ← List.cons_append, ← List.append_assoc] at hes
      obtain ⟨rfl, -⟩ := List.append_inj' hes rfl
      exact .inl ⟨before, p, after, rfl, hplace, hgiven⟩
  · rintro (⟨before, p, after, rfl, hplace, hgiven⟩ | ⟨p, rfl, hplace, hgiven⟩)
    · exact ⟨before, p, after ++ [e], by rw [List.append_assoc, List.cons_append], hplace, hgiven⟩
    · exact ⟨es, p, [], rfl, hplace, hgiven⟩

/-- What is known of a place is what a call has given for it. -/
theorem known?_afterAll_eq_some_iff :
    (afterAll files es).known? place = some l ↔ Gives files es place l := by
  induction es using List.reverseRecOn with
  | nil => exact iff_of_false nofun not_gives_nil
  | append_singleton es e ih =>
    rw [afterAll_concat, gives_concat_iff, ← ih]
    cases e with
    | edit change =>
      exact ⟨.inl, fun heither => heither.resolve_right fun ⟨p, he, _⟩ => nomatch he⟩
    | load p =>
      -- What was known before is known still, and only the answer of the call is new.
      rw [((afterAll files es).loads p).known?_eq_some_iff]
      simp only [FileEvent.load.injEq, exists_eq_left']

theorem known?_afterAll_eq_none (h : ∀ l, ¬Gives files es place l) :
    (afterAll files es).known? place = none :=
  Option.eq_none_iff_forall_ne_some.mpr fun l hknown => h l (known?_afterAll_eq_some_iff.mp hknown)

/-! ### Calls that do not matter -/

/-- Two sessions with the same files know the same of a place. -/
structure AgreesAt (place : Place) (s s' : Session) : Prop where
  files : s.files = s'.files
  known : s.known? place = s'.known? place

namespace AgreesAt

theorem place?_eq (h : AgreesAt place s s') (p : Path) : s.place? p = s'.place? p := by
  rw [place?, place?, h.files]

theorem limitsIn_eq (h : AgreesAt place s s') (hplace : s.place? p = some place) :
    s.limitsIn p = s'.limitsIn p := by
  have hplace' : s'.place? p = some place := (h.place?_eq p).symm.trans hplace
  cases hknown : s.known? place with
  | some l =>
    rw [limitsIn_of_known hplace hknown, limitsIn_of_known hplace' (h.known.symm.trans hknown)]
  | none =>
    rw [limitsIn_of_unknown hplace hknown,
      limitsIn_of_unknown hplace' (h.known.symm.trans hknown), h.files]

theorem happen (h : AgreesAt place s s') (e : FileEvent) :
    AgreesAt place (s.happen e) (s'.happen e) := by
  cases e with
  | edit change => exact ⟨congrArg change h.files, h.known⟩
  | load p =>
    refine ⟨h.files, Option.ext fun l => ?_⟩
    rw [(s.loads p).known?_eq_some_iff, (s'.loads p).known?_eq_some_iff, h.known, h.place?_eq p]
    refine or_congr_right (and_congr_right fun hplace => ?_)
    rw [h.limitsIn_eq ((h.place?_eq p).trans hplace)]

theorem foldl_happen (h : AgreesAt place s s') (es : List FileEvent) :
    AgreesAt place (es.foldl Session.happen s) (es.foldl Session.happen s') := by
  induction es generalizing s s' with
  | nil => exact h
  | cons e es ih => exact ih (h.happen e)

end AgreesAt

/-- A call for another place is not noticed. -/
theorem agreesAt_happen_load (h : s.place? p ≠ some place) :
    AgreesAt place (s.happen (.load p)) s := by
  refine ⟨rfl, Option.ext fun l => ?_⟩
  rw [(s.loads p).known?_eq_some_iff]
  exact or_iff_left fun hgiven => h hgiven.1

/-- A call that fails, or is for another place, makes no difference to those that follow. -/
theorem limitsIn_without_call
    (h : (afterAll files before).place? q ≠ (afterAll files (before ++ .load q :: after)).place? p ∨
      ∃ fault, (afterAll files before).limitsIn q = .error fault) :
    (afterAll files (before ++ .load q :: after)).limitsIn p
      = (afterAll files (before ++ after)).limitsIn p := by
  rw [afterAll_append, List.foldl_cons] at h ⊢
  rw [afterAll_append]
  rcases h with hother | ⟨fault, hfault⟩
  · cases hplace : (after.foldl happen ((afterAll files before).happen (.load q))).place? p with
    | none =>
      -- Which paths name no place does not depend on the session.
      have hname := place?_eq_none_iff.mp hplace
      rw [limitsIn_of_place?_eq_none hplace,
        limitsIn_of_place?_eq_none (place?_eq_none_iff.mpr hname)]
    | some place =>
      rw [hplace] at hother
      exact ((agreesAt_happen_load hother).foldl_happen after).limitsIn_eq hplace
  · have hcall := (afterAll files before).loads q
    rw [hfault] at hcall
    rw [hcall.eq_of_error]

/-- Until a call has given limits for a place, a call for it gives what the file there configures,
or why it configures nothing, by the content of the file alone; from then on every call for the
place gives the same limits. A path names the place that it leads to, if it leads to one, and a call
for a path that names none fails. Calls that fail, and calls for other places, make no difference to
those that follow. -/
theorem limitsIn_by_place (files : FileTree) (es : List FileEvent) (p : Path) :
    (∀ place, (afterAll files es).place? p = some place →
      ((∀ l, ¬Gives files es place l) → (afterAll files es).limitsIn p
        = Limits.ofContent ((afterAll files es).files.read ⟨.root, place⟩)) ∧
      ∀ l, Gives files es place l → (afterAll files es).limitsIn p = .ok l) ∧
    (∀ place, (afterAll files es).files.locate p = .ok place →
      (afterAll files es).place? p = some place) ∧
    ((afterAll files es).place? p = none →
      (afterAll files es).limitsIn p = .error .unnameable) ∧
    ∀ before q after, es = before ++ .load q :: after →
      ((afterAll files before).place? q ≠ (afterAll files es).place? p ∨
        ∃ fault, (afterAll files before).limitsIn q = .error fault) →
      (afterAll files es).limitsIn p = (afterAll files (before ++ after)).limitsIn p := by
  refine ⟨fun place hplace => ⟨fun hnew => ?_, fun l hgiven => ?_⟩, fun place hlocate => ?_,
    limitsIn_of_place?_eq_none, ?_⟩
  · rw [limitsIn_of_unknown hplace (known?_afterAll_eq_none hnew), Limits.load_eq_ofContent]
  · exact limitsIn_of_known hplace (known?_afterAll_eq_some_iff.mpr hgiven)
  · exact place?_eq_some_iff.mpr (FileTree.resolved_of_locate hlocate)
  · rintro before q after rfl h
    exact limitsIn_without_call h

/-- The bytes of a file of limits. -/
def draft : List UInt8 :=
  encodeUtf8 "notice_limits:\n  maxExportPerNoticeType: 3\n"

/-- The file is asked for before it is there, and is written. -/
def drafted : List FileEvent :=
  [.load (.ofString "limits.yaml"), .write (.ofString "limits.yaml") draft]

/-- The file is asked for by a roundabout path, and spoilt; another file is written. -/
def spoilt : List FileEvent :=
  drafted ++ [.load (.ofString "/work/old/.././limits.yaml"),
    .write (.ofString "limits.yaml") [255], .write (.ofString "other.yaml") []]

/-- The other file is asked for, and the first one is deleted. -/
def deleted : List FileEvent :=
  spoilt ++ [.load (.ofString "other.yaml"), .remove (.ofString "limits.yaml")]

/-- The limits are those of the draft, though the file is not there any more. -/
theorem limitsIn_by_place_deleted :
    ((∀ l, ¬Gives {} drafted ["work", "limits.yaml"] l) ∧
      (afterAll {} drafted).limitsIn (.ofString "/work/old/.././limits.yaml")
        = Limits.ofContent (.ok draft)) ∧
    (Gives {} deleted ["work", "limits.yaml"] { samples := 3 } ∧
      (afterAll {} deleted).files.read (.ofString "limits.yaml") = .error .notFound ∧
      (afterAll {} deleted).limitsIn (.ofString "limits.yaml") = .ok { samples := 3 }) ∧
    (afterAll {} deleted).limitsIn (.ofString "limits.yaml")
      = (afterAll {} (spoilt ++ [.remove (.ofString "limits.yaml")])).limitsIn
        (.ofString "limits.yaml") ∧
    (afterAll {} drafted).place? (.ofString "limits.yaml") = some ["work", "limits.yaml"] ∧
    (afterAll {} drafted).limitsIn (.ofString "\x00") = .error .unnameable := by
  have hnew : (afterAll {} drafted).known? ["work", "limits.yaml"] = none := by decide +kernel
  have hnone : ∀ l, ¬Gives {} drafted ["work", "limits.yaml"] l := by
    intro l hgives
    cases hnew.symm.trans (known?_afterAll_eq_some_iff.mpr hgives)
  have hgives : Gives {} deleted ["work", "limits.yaml"] { samples := 3 } :=
    known?_afterAll_eq_some_iff.mp (by decide +kernel)
  have hread : (afterAll {} drafted).files.read ⟨.root, ["work", "limits.yaml"]⟩ = .ok draft := by
    decide +kernel
  have hother : (afterAll {} spoilt).place? (.ofString "other.yaml")
      ≠ (afterAll {} deleted).place? (.ofString "limits.yaml") := by decide +kernel
  obtain ⟨hfirst, -⟩ := limitsIn_by_place {} drafted (.ofString "/work/old/.././limits.yaml")
  obtain ⟨hlater, -, -, hwithout⟩ := limitsIn_by_place {} deleted (.ofString "limits.yaml")
  obtain ⟨-, hleads, -⟩ := limitsIn_by_place {} drafted (.ofString "limits.yaml")
  obtain ⟨-, -, hfails, -⟩ := limitsIn_by_place {} drafted (.ofString "\x00")
  refine ⟨⟨hnone, ?_⟩, ⟨hgives, by decide +kernel, ?_⟩, ?_, ?_, ?_⟩
  · rw [(hfirst ["work", "limits.yaml"] (by decide +kernel)).1 hnone, hread]
  · exact (hlater ["work", "limits.yaml"] (by decide +kernel)).2 _ hgives
  · exact hwithout spoilt (.ofString "other.yaml") [.remove (.ofString "limits.yaml")] rfl
      (.inl hother)
  · exact hleads ["work", "limits.yaml"] (by decide +kernel)
  · exact hfails (by decide +kernel)

end Session

end NoticeLedger
