import NoticeLedger.Proofs.ComparedReports
import NoticeLedger.Proofs.Datasets

/-!
# Reports that two directories share

Two directories are compared by the reports that they share (`Answer.IsShared`). One of these that
cannot be read refuses the whole comparison before anything is printed
(`Answer.acceptance_of_unread`), unless the comparison has already broken off at a path that is too
long (`Answer.MeetsLongPath`). Otherwise each dataset has the difference of the last shared report
that belongs to it (`Answer.mem_datasetsOf_sharedNames`).
-/

namespace NoticeLedger

theorem Path.isNameable_child {p : Path} {name : String} :
    (p.child name).isNameable = true ↔ p.isNameable = true ∧ '\x00' ∉ name.toList := by
  simp [Path.isNameable, Path.child]

/-- The text of a path to an entry has a slash and the name more than that to the directory. -/
theorem Path.utf8ByteSize_text_child {p : Path} (h : p.parts ≠ []) (name : String) :
    (p.child name).text.utf8ByteSize = p.text.utf8ByteSize + 1 + name.utf8ByteSize := by
  have hslash : "/".utf8ByteSize = 1 := rfl
  have hchild : (p.child name).parts ≠ [] := List.append_ne_nil_of_left_ne_nil h [name]
  rw [text, text, if_neg fun hp => hchild hp.2, if_neg fun hp => h hp.2]
  simp only [child, String.intercalate_append_of_ne_nil h (List.cons_ne_nil name []),
    String.intercalate_singleton, String.utf8ByteSize_append, hslash]
  omega

/-- It is a fault to ask for an entry under a path that is too long. -/
theorem FileTree.isFile_child_of_long {t : FileTree} {p : Path} {name : String}
    (hparts : p.parts ≠ []) (hname : (p.child name).isNameable = true)
    (hlong : maxPathBytes < p.text.utf8ByteSize + 1 + name.utf8ByteSize) :
    t.isFile (p.child name) = .error .tooLong := by
  have hlocate : t.locate (p.child name) = .error .tooLong := by
    rw [locate, hname, if_neg (by decide), Path.utf8ByteSize_text_child hparts, if_pos hlong]
  rw [isFile, hlocate]

namespace Command

variable {files : FileTree} {baseline candidate p : Path}

theorem exists_of_mem_sharedReports {names : List String}
    (h : p ∈ sharedReports files baseline candidate names) :
    ∃ name ∈ names, files.isFile (candidate.child name) = .ok true ∧
      p ∈ [baseline.child name, candidate.child name] := by
  induction names with
  | nil => cases h
  | cons name names ih =>
    rw [sharedReports] at h
    rw [List.exists_mem_cons_iff]
    split at h
    · cases h
    · exact .inr (ih h)
    · rename_i hfile
      exact (List.mem_append.mp h).imp (fun hp => ⟨hfile, hp⟩) ih

end Command

namespace Answer

variable {files : FileTree} {baseline candidate : Path} {name : String}

/-! ### Shared reports -/

/-- The first directory has a report of the name, and the second one a file. -/
def IsShared (files : FileTree) (baseline candidate : Path) (name : String) : Prop :=
  name ∈ files.namesIn baseline ∧ isReportName name = true ∧
    files.isFile (candidate.child name) = .ok true

/-- The names of the shared reports, in order. -/
def sharedNames (files : FileTree) (baseline candidate : Path) : List String :=
  (reportNames files baseline).filter fun name => files.isFile (candidate.child name) = .ok true

theorem mem_sharedNames :
    name ∈ sharedNames files baseline candidate ↔ IsShared files baseline candidate name := by
  rw [sharedNames, reportNames, List.mem_filter, mem_sortStrings, List.mem_filter, and_assoc,
    decide_eq_true_iff, IsShared]

theorem pairwise_sharedNames (files : FileTree) (baseline candidate : Path) :
    (sharedNames files baseline candidate).Pairwise fun n m => stringLe n m = true :=
  (pairwise_sortStrings _).filter _

/-- The two reports of a name. -/
abbrev pair (baseline candidate : Path) (name : String) : List Path :=
  [baseline.child name, candidate.child name]

/-- All shared reports can be read. -/
def AllRead (files : FileTree) (baseline candidate : Path) : Prop :=
  ∀ name, IsShared files baseline candidate name → ∀ p ∈ pair baseline candidate name,
    ∃ r, Report.load files p = .ok r

/-- No shared report holds an integer that is too long. -/
def NoneLong (files : FileTree) (baseline candidate : Path) : Prop :=
  ∀ name, IsShared files baseline candidate name → ∀ p ∈ pair baseline candidate name,
    ¬Report.FileMeetsLongInteger files p

/-- One of the names leads to a path in the second directory that is too long, and every name in
front of it is passed over or gives a difference. -/
def MeetsLongPath (files : FileTree) (baseline candidate : Path) (names : List String) : Prop :=
  ∃ before name after fault, names = before ++ name :: after ∧
    files.isFile (candidate.child name) = .error fault ∧
    ∀ n ∈ before, files.isFile (candidate.child n) = .ok false ∨
      files.isFile (candidate.child n) = .ok true ∧
        ∃ d, diffOf files (baseline.child n) (candidate.child n) = .ok d

/-- The two reports of each shared name differ in the way given for the name. -/
def DifferBy (files : FileTree) (baseline candidate : Path) (f : String → Diff) : Prop :=
  ∀ name, IsShared files baseline candidate name →
    diffOf files (baseline.child name) (candidate.child name) = .ok (f name)

theorem AllRead.exists_differBy (h : AllRead files baseline candidate) :
    ∃ f, DifferBy files baseline candidate f := by
  have hdiff : ∀ name, ∃ d, IsShared files baseline candidate name →
      diffOf files (baseline.child name) (candidate.child name) = .ok d := by
    intro name
    by_cases hname : IsShared files baseline candidate name
    · obtain ⟨b, hb⟩ := h name hname _ (List.mem_cons_self ..)
      obtain ⟨c, hc⟩ := h name hname _ (List.mem_cons_of_mem _ (List.mem_cons_self ..))
      exact ⟨_, fun _ => diffOf_eq_ok_iff.mpr ⟨b, c, hb, hc, rfl⟩⟩
    · exact ⟨⟨[], []⟩, fun hshared => absurd hshared hname⟩
  choose f hf using hdiff
  exact ⟨f, hf⟩

theorem DifferBy.allRead {f : String → Diff} (h : DifferBy files baseline candidate f) :
    AllRead files baseline candidate := by
  intro name hname
  obtain ⟨b, c, hb, hc, -⟩ := diffOf_eq_ok_iff.mp (h name hname)
  simp only [List.forall_mem_cons]
  exact ⟨⟨b, hb⟩, ⟨c, hc⟩, nofun⟩

/-- A report that can be read holds no integer that is too long. -/
theorem AllRead.noneLong (h : AllRead files baseline candidate) :
    NoneLong files baseline candidate := by
  intro name hname p hp hlong
  obtain ⟨r, hr⟩ := h name hname p hp
  exact nomatch hr.symm.trans (Report.load_eq_integerTooLong_iff.mpr hlong)

theorem isNameable_of_isShared (hbaseline : files.isDirectory baseline = true)
    (h : IsShared files baseline candidate name) {p : Path}
    (hp : p ∈ pair baseline candidate name) : p.isNameable = true := by
  have hcandidate := FileTree.isNameable_of_isFile h.2.2
  simp only [List.mem_cons, List.not_mem_nil, or_false] at hp
  rcases hp with rfl | rfl
  · exact Path.isNameable_child.mpr
      ⟨FileTree.isNameable_of_isDirectory hbaseline, (Path.isNameable_child.mp hcandidate).2⟩
  · exact hcandidate

/-! ### Comparison of shared reports -/

theorem MeetsLongPath.here {fault : FileFault} {names : List String}
    (h : files.isFile (candidate.child name) = .error fault) :
    MeetsLongPath files baseline candidate (name :: names) :=
  ⟨[], name, names, fault, rfl, h, nofun⟩

theorem MeetsLongPath.cons {names : List String}
    (h : MeetsLongPath files baseline candidate names)
    (hname : files.isFile (candidate.child name) = .ok false ∨
      files.isFile (candidate.child name) = .ok true ∧
        ∃ d, diffOf files (baseline.child name) (candidate.child name) = .ok d) :
    MeetsLongPath files baseline candidate (name :: names) := by
  obtain ⟨before, long, after, fault, rfl, hlong, hbefore⟩ := h
  refine ⟨name :: before, long, after, fault, rfl, hlong, ?_⟩
  rw [List.forall_mem_cons]
  exact ⟨hname, hbefore⟩

theorem not_meetsLongPath_of_forall
    (h : ∀ name ∈ files.namesIn baseline, ∃ b, files.isFile (candidate.child name) = .ok b) :
    ¬MeetsLongPath files baseline candidate (reportNames files baseline) := by
  rintro ⟨before, name, after, fault, hnames, hfault, -⟩
  have hname : name ∈ reportNames files baseline := hnames ▸ List.mem_append_cons_self
  rw [reportNames, mem_sortStrings, List.mem_filter] at hname
  obtain ⟨b, hb⟩ := h name hname.1
  cases hb.symm.trans hfault

/-- A comparison breaks off at the first path that is too long, if it comes to it. -/
theorem compareShared_eq_pathTooLong_iff {names : List String} :
    (compareShared files baseline candidate names).2 = .error .pathTooLong ↔
      MeetsLongPath files baseline candidate names := by
  constructor
  · intro h
    induction names with
    | nil => cases h
    | cons name names ih =>
      obtain ⟨fault, hfile, -⟩ | ⟨hfile, houtcome⟩ | ⟨p, e, -, -, houtcome⟩ |
        ⟨d, hfile, hdiff, houtcome⟩ := compareShared_cons_cases files baseline candidate name names
      · exact .here hfile
      · rw [houtcome] at h
        exact (ih h).cons (.inl hfile)
      · cases houtcome.symm.trans h
      · rw [houtcome, map_eq_error_iff] at h
        exact (ih h).cons (.inr ⟨hfile, d, hdiff⟩)
  · rintro ⟨before, long, after, fault, rfl, hlong, hbefore⟩
    induction before with
    | nil => exact compareShared_of_pathTooLong hlong
    | cons name before ih =>
      obtain ⟨hname, hbefore⟩ := List.forall_mem_cons.mp hbefore
      rcases hname with hfile | ⟨hfile, d, hdiff⟩
      · rw [List.cons_append, compareShared_of_absent hfile]
        exact ih hbefore
      · rw [List.cons_append, compareShared_of_diffOf hfile hdiff, ih hbefore]
        rfl

theorem compareShared_of_differ {f : String → Diff} {names : List String}
    (hmeets : ¬MeetsLongPath files baseline candidate names)
    (h : ∀ name ∈ names, files.isFile (candidate.child name) = .ok true →
      diffOf files (baseline.child name) (candidate.child name) = .ok (f name)) :
    (compareShared files baseline candidate names).2 =
      .ok ((names.filter fun name => files.isFile (candidate.child name) = .ok true).map
        fun name => (stemOf name, f name)) := by
  induction names with
  | nil => rfl
  | cons name names ih =>
    obtain ⟨hname, hnames⟩ := List.forall_mem_cons.mp h
    rw [List.filter_cons]
    obtain ⟨fault, hfile, -⟩ | ⟨hfile, houtcome⟩ | ⟨p, e, hfile, hdiff, -⟩ |
      ⟨d, hfile, hdiff, houtcome⟩ := compareShared_cons_cases files baseline candidate name names
    · exact absurd (.here hfile) hmeets
    · have ih := ih (fun hrest => hmeets (hrest.cons (.inl hfile))) hnames
      rw [houtcome, ih, hfile, if_neg (by decide)]
    · cases hdiff.symm.trans (hname hfile)
    · obtain rfl := Except.ok.inj (hdiff.symm.trans (hname hfile))
      have ih := ih (fun hrest => hmeets (hrest.cons (.inr ⟨hfile, _, hdiff⟩))) hnames
      rw [houtcome, ih, hfile, if_pos (by decide)]
      rfl

theorem exists_compareShared_of_differBy {f : String → Diff}
    (hmeets : ¬MeetsLongPath files baseline candidate (reportNames files baseline))
    (h : DifferBy files baseline candidate f) : ∃ messages,
      compareShared files baseline candidate (reportNames files baseline) =
        (messages, .ok ((sharedNames files baseline candidate).map
          fun name => (stemOf name, f name))) := by
  have hnames : ∀ name ∈ reportNames files baseline,
      files.isFile (candidate.child name) = .ok true →
      diffOf files (baseline.child name) (candidate.child name) = .ok (f name) :=
    fun name hname hfile =>
      h name (mem_sharedNames.mp (List.mem_filter.mpr ⟨hname, decide_eq_true hfile⟩))
  exact ⟨_, Prod.ext rfl (compareShared_of_differ hmeets hnames)⟩

/-- A comparison that ends at a report does so at a shared one that cannot be read. -/
theorem exists_unread_of_compareShared {p : Path} {e : ReportError}
    (h : (compareShared files baseline candidate (reportNames files baseline)).2 =
      .error (.unread p e)) :
    ∃ name, IsShared files baseline candidate name ∧ p ∈ pair baseline candidate name ∧
      Report.load files p = .error e := by
  have hfirst : Command.firstUnread? files (Command.sharedReports files baseline candidate
      (reportNames files baseline)) = _ := Command.firstUnread?_sharedReports _
  rw [h] at hfirst
  obtain ⟨hmem, hload⟩ := Command.load_of_firstUnread hfirst
  obtain ⟨name, hname, hfile, hpair⟩ := Command.exists_of_mem_sharedReports hmem
  exact ⟨name, mem_sharedNames.mp (List.mem_filter.mpr ⟨hname, decide_eq_true hfile⟩), hpair,
    hload⟩

/-- A comparison that comes to its end has a difference for every name that is a file in the second
directory. -/
theorem exists_diffOf_of_compareShared {names : List String} {diffs : List (String × Diff)}
    (h : (compareShared files baseline candidate names).2 = .ok diffs) :
    ∀ name ∈ names, files.isFile (candidate.child name) = .ok true →
      ∃ d, diffOf files (baseline.child name) (candidate.child name) = .ok d := by
  induction names generalizing diffs with
  | nil => nofun
  | cons name names ih =>
    rw [List.forall_mem_cons]
    obtain ⟨fault, -, houtcome⟩ | ⟨hfile, houtcome⟩ | ⟨p, e, -, -, houtcome⟩ |
      ⟨d, -, hdiff, houtcome⟩ := compareShared_cons_cases files baseline candidate name names
    · cases houtcome.symm.trans h
    · rw [houtcome] at h
      refine ⟨fun hpresent => ?_, ih h⟩
      cases hfile.symm.trans hpresent
    · cases houtcome.symm.trans h
    · rw [houtcome] at h
      obtain ⟨rest, hrest, -⟩ := exists_of_map_ok h
      exact ⟨fun _ => ⟨d, hdiff⟩, ih hrest⟩

/-- A comparison that comes to its end has read all shared reports. -/
theorem allRead_of_compareShared {diffs : List (String × Diff)}
    (h : (compareShared files baseline candidate (reportNames files baseline)).2 = .ok diffs) :
    AllRead files baseline candidate := by
  intro name hname
  obtain ⟨hmem, hfile⟩ := List.mem_filter.mp (mem_sharedNames.mpr hname)
  obtain ⟨d, hdiff⟩ := exists_diffOf_of_compareShared h name hmem (of_decide_eq_true hfile)
  obtain ⟨b, c, hb, hc, -⟩ := diffOf_eq_ok_iff.mp hdiff
  simp only [List.forall_mem_cons]
  exact ⟨⟨b, hb⟩, ⟨c, hc⟩, nofun⟩

/-! ### Answers -/

section Acceptance

variable (hbaseline : files.isDirectory baseline = true)
  (hcandidate : files.isDirectory candidate = true)

include hbaseline hcandidate

/-- A comparison that breaks off at a path that is too long prints nothing, and its exit code is
that of new errors. -/
theorem acceptance_of_meetsLongPath
    (hmeets : MeetsLongPath files baseline candidate (reportNames files baseline)) (t : Float)
    (format : Format) :
    (acceptance files baseline candidate t format).ending = .pathTooLong ∧
      (acceptance files baseline candidate t format).output = [] := by
  have hstop := compareShared_eq_pathTooLong_iff.mpr hmeets
  rw [acceptance, hbaseline, hcandidate, Bool.and_true, if_pos rfl]
  cases hshared : compareShared files baseline candidate (reportNames files baseline) with
  | mk messages outcome =>
    rw [hshared] at hstop
    obtain rfl : outcome = _ := hstop
    exact ⟨rfl, rfl⟩

section NoLongPath

variable (hmeets : ¬MeetsLongPath files baseline candidate (reportNames files baseline))

include hmeets

/-- A shared report that cannot be read refuses the comparison. -/
theorem acceptance_of_unread (hlong : NoneLong files baseline candidate)
    (hunread : ¬AllRead files baseline candidate) (t : Float) (format : Format) :
    Refuses (acceptance files baseline candidate t format) := by
  rw [acceptance, hbaseline, hcandidate, Bool.and_true, if_pos rfl]
  cases hshared : compareShared files baseline candidate (reportNames files baseline) with
  | mk messages outcome =>
    have houtcome := congrArg Prod.snd hshared
    cases outcome with
    | ok diffs => exact absurd (allRead_of_compareShared houtcome) hunread
    | error stop =>
      cases stop with
      | pathTooLong => exact absurd (compareShared_eq_pathTooLong_iff.mp houtcome) hmeets
      | unread p e =>
        obtain ⟨name, hname, hpair, hload⟩ := exists_unread_of_compareShared houtcome
        exact refuses_ofUnread (exists_malformed_of_load
          (isNameable_of_isShared hbaseline hname hpair) (hlong name hname _ hpair) hload) _ _

theorem acceptance_of_none_shared (hnone : ¬∃ name, IsShared files baseline candidate name)
    (t : Float) (format : Format) : Refuses (acceptance files baseline candidate t format) := by
  have hdiffer : DifferBy files baseline candidate fun _ => ⟨[], []⟩ := fun name hname =>
    absurd ⟨name, hname⟩ hnone
  have hnames : sharedNames files baseline candidate = [] :=
    List.eq_nil_iff_forall_not_mem.mpr fun name hname => hnone ⟨name, mem_sharedNames.mp hname⟩
  obtain ⟨messages, hcompared⟩ := exists_compareShared_of_differBy hmeets hdiffer
  rw [hnames, List.map_nil] at hcompared
  rw [acceptance, hbaseline, hcandidate, Bool.and_true, if_pos rfl, hcompared]
  exact ⟨rfl, rfl⟩

/-- If all shared reports can be read, the answer is that on their datasets. -/
theorem acceptance_of_differBy {f : String → Diff} (h : DifferBy files baseline candidate f)
    (hsome : ∃ name, IsShared files baseline candidate name) :
    ∃ messages, ∀ t format, acceptance files baseline candidate t format =
      ofDatasets messages (datasetsOf ((sharedNames files baseline candidate).map
        fun name => (stemOf name, f name))) t format := by
  obtain ⟨messages, hcompared⟩ := exists_compareShared_of_differBy hmeets h
  cases hnames : sharedNames files baseline candidate with
  | nil =>
    obtain ⟨name, hname⟩ := hsome
    rw [← mem_sharedNames, hnames] at hname
    cases hname
  | cons first names =>
    refine ⟨messages, fun t format => ?_⟩
    rw [hnames, List.map_cons] at hcompared
    rw [acceptance, hbaseline, hcandidate, Bool.and_true, if_pos rfl, hcompared]
    rfl

end NoLongPath

end Acceptance

/-! ### Datasets of shared reports -/

/-- No later name of a shared report belongs to the same dataset. -/
def Decides (files : FileTree) (baseline candidate : Path) (name : String) : Prop :=
  IsShared files baseline candidate name ∧
    ∀ other, IsShared files baseline candidate other → stemOf other = stemOf name →
      stringLe other name = true

/-- Of names in descending order the first one of a dataset is the last one by order. -/
theorem lookup_map_stemOf {names : List String}
    (hsorted : names.Pairwise fun n m => stringLe m n = true) (f : String → Diff) {id : String}
    {d : Diff} : (names.map fun n => (stemOf n, f n)).lookup id = some d ↔ ∃ n ∈ names,
      stemOf n = id ∧ (∀ m ∈ names, stemOf m = id → stringLe m n = true) ∧ f n = d := by
  induction names with
  | nil => exact iff_of_false nofun nofun
  | cons n names ih =>
    obtain ⟨hn, hnames⟩ := List.pairwise_cons.mp hsorted
    rw [List.map_cons, Datasets.lookup_cons]
    split
    -- The first name is the greatest, so it alone can be the last one of its dataset.
    · rename_i heq
      constructor
      · intro h
        refine ⟨n, List.mem_cons_self .., heq.symm, fun m hm _ => ?_, Option.some.inj h⟩
        rcases List.mem_cons.mp hm with rfl | hm
        · exact stringLe_refl m
        · exact hn m hm
      · rintro ⟨m, hm, -, hlast, rfl⟩
        rcases List.mem_cons.mp hm with rfl | hm
        · rfl
        · rw [stringLe_antisymm (hn m hm) (hlast n (List.mem_cons_self ..) heq.symm)]
    · rename_i hne
      rw [ih hnames]
      constructor
      · rintro ⟨m, hm, hid, hlast, rfl⟩
        refine ⟨m, List.mem_cons_of_mem n hm, hid, fun m' hm' hid' => ?_, rfl⟩
        rcases List.mem_cons.mp hm' with rfl | hm'
        · exact absurd hid'.symm hne
        · exact hlast m' hm' hid'
      · rintro ⟨m, hm, hid, hlast, rfl⟩
        rcases List.mem_cons.mp hm with rfl | hm
        · exact absurd hid.symm hne
        · exact ⟨m, hm, hid, fun m' hm' => hlast m' (List.mem_cons_of_mem n hm'), rfl⟩

/-- The datasets of shared reports are those of the names that decide. -/
theorem mem_datasetsOf_sharedNames (f : String → Diff) {id : String} {d : Diff} :
    (id, d) ∈ datasetsOf ((sharedNames files baseline candidate).map fun n => (stemOf n, f n)) ↔
      ∃ name, Decides files baseline candidate name ∧ stemOf name = id ∧ f name = d := by
  rw [← (isKeyed_datasetsOf _).lookup_eq_some_iff, lookup_datasetsOf, ← List.map_reverse,
    lookup_map_stemOf (List.pairwise_reverse.mpr (pairwise_sharedNames files baseline candidate))]
  simp only [List.mem_reverse, mem_sharedNames]
  constructor
  · rintro ⟨name, hname, rfl, hlast, hd⟩
    exact ⟨name, ⟨hname, hlast⟩, rfl, hd⟩
  · rintro ⟨name, ⟨hname, hlast⟩, rfl, hd⟩
    exact ⟨name, hname, rfl, hlast, hd⟩

/-- No two shared reports belong to one dataset. -/
def StemsDiffer (files : FileTree) (baseline candidate : Path) : Prop :=
  ∀ n m, IsShared files baseline candidate n → IsShared files baseline candidate m →
    stemOf n = stemOf m → n = m

theorem StemsDiffer.decides_iff (h : StemsDiffer files baseline candidate) :
    Decides files baseline candidate name ↔ IsShared files baseline candidate name := by
  refine ⟨And.left, fun hname => ⟨hname, fun other hother hstem => ?_⟩⟩
  rw [h other name hother hname hstem]
  exact stringLe_refl name

/-- The datasets are the stems of the shared reports, each with the difference of the two. -/
structure Gathers (files : FileTree) (baseline candidate : Path) (ds : Datasets) : Prop where
  keyed : ds.IsKeyed
  mem_iff : ∀ id d, (id, d) ∈ ds ↔ ∃ name, IsShared files baseline candidate name ∧
    stemOf name = id ∧ diffOf files (baseline.child name) (candidate.child name) = .ok d

theorem gathers_datasetsOf (hstems : StemsDiffer files baseline candidate) {f : String → Diff}
    (h : DifferBy files baseline candidate f) :
    Gathers files baseline candidate
      (datasetsOf ((sharedNames files baseline candidate).map fun n => (stemOf n, f n))) := by
  refine ⟨isKeyed_datasetsOf _, fun id d => ?_⟩
  rw [mem_datasetsOf_sharedNames]
  refine exists_congr fun name => ?_
  rw [hstems.decides_iff]
  refine and_congr_right fun hname => and_congr_right fun _ => ?_
  rw [h name hname, Except.ok.injEq]

theorem Gathers.perm {ds es : Datasets} (hds : Gathers files baseline candidate ds)
    (hes : Gathers files baseline candidate es) : ds.Perm es :=
  hds.keyed.perm_of_mem_iff hes.keyed fun id d => (hds.mem_iff id d).trans (hes.mem_iff id d).symm

end Answer

end NoticeLedger
