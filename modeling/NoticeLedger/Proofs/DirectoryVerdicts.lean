import NoticeLedger.Proofs.Percentages
import NoticeLedger.Proofs.SharedReports

/-!
# The verdict on two directories

A comparison of directories that does not break off at a path that is too long is decided by the
datasets that their shared reports are, in whichever order these are gathered
(`Answer.acceptance_of_gathers`). So trees with the same shared reports are answered alike, whatever
else is in them (`Answer.SharesAlike.acceptance_eq`). A path that is too long is mistaken for new
errors, even if there is nothing to compare (`Answer.mistakes_lonely`).
-/

namespace NoticeLedger.Answer

variable {files files' : FileTree} {baseline candidate : Path} {t : Float}

/-! ### Verdicts -/

theorem refuses_ofDatasets (ht : Acceptance.isThreshold t = false) (messages : List String)
    (ds : Datasets) (format : Format) : Refuses (ofDatasets messages ds t format) := by
  rw [ofDatasets, Acceptance.ofDiffs?, ht]
  exact ⟨rfl, rfl⟩

theorem exitCode_ofDatasets {ds : Datasets} {a : Acceptance}
    (h : Acceptance.ofDiffs? ds t = some a) (messages : List String) (format : Format) :
    (ofDatasets messages ds t format).ending.exitCode = if a.passed then 0 else 1 := by
  rw [ofDatasets, h]
  dsimp only
  split <;> rfl

/-- Messages change neither how a comparison ends nor what it prints. -/
theorem ofDatasets_messages (messages messages' : List String) (ds : Datasets) (t : Float)
    (format : Format) :
    (ofDatasets messages ds t format).ending = (ofDatasets messages' ds t format).ending ∧
      (ofDatasets messages ds t format).outputText =
        (ofDatasets messages' ds t format).outputText := by
  rw [ofDatasets, ofDatasets]
  cases Acceptance.ofDiffs? ds t with
  | none => exact ⟨rfl, rfl⟩
  | some a => exact ⟨rfl, rfl⟩

theorem ending_acceptance (files : FileTree) (baseline candidate : Path) (t : Float)
    (format format' : Format) :
    (acceptance files baseline candidate t format).ending =
      (acceptance files baseline candidate t format').ending := by
  rw [acceptance, acceptance]
  split
  · cases compareShared files baseline candidate (reportNames files baseline) with
    | mk messages outcome =>
      cases outcome with
      | error stop => rfl
      | ok diffs =>
        cases diffs with
        | nil => rfl
        | cons e diffs =>
          dsimp only [ofDatasets]
          cases Acceptance.ofDiffs? (datasetsOf (e :: diffs)) t with
          | none => rfl
          | some a => rfl
  · rfl

/-- If all shared reports can be read, they decide on the answer, in whichever order their datasets
are gathered. -/
theorem acceptance_of_gathers (hbaseline : files.isDirectory baseline = true)
    (hcandidate : files.isDirectory candidate = true)
    (hmeets : ¬MeetsLongPath files baseline candidate (reportNames files baseline))
    (hstems : StemsDiffer files baseline candidate)
    (hsome : ∃ name, IsShared files baseline candidate name)
    (hread : AllRead files baseline candidate) {ds : Datasets}
    (h : Gathers files baseline candidate ds) :
    ∃ messages, ∀ t format,
      acceptance files baseline candidate t format = ofDatasets messages ds t format := by
  obtain ⟨f, hf⟩ := hread.exists_differBy
  obtain ⟨messages, hanswer⟩ := acceptance_of_differBy hbaseline hcandidate hmeets hf hsome
  have hgathered := gathers_datasetsOf hstems hf
  refine ⟨messages, fun t format => ?_⟩
  rw [hanswer t format]
  exact ofDatasets_eq_of_perm hgathered.keyed (hgathered.perm h) messages t format

/-- The shared reports of two directories are the same in two trees, whatever else there is. -/
structure SharesAlike (files files' : FileTree) (baseline candidate : Path) : Prop where
  hasBaseline : files'.isDirectory baseline = true
  hasCandidate : files'.isDirectory candidate = true
  shared : ∀ name, IsShared files' baseline candidate name ↔ IsShared files baseline candidate name
  load : ∀ name, IsShared files baseline candidate name → ∀ p ∈ pair baseline candidate name,
    Report.load files' p = Report.load files p

namespace SharesAlike

variable (h : SharesAlike files files' baseline candidate)

include h

theorem stemsDiffer (hstems : StemsDiffer files baseline candidate) :
    StemsDiffer files' baseline candidate := by
  intro n m hn hm
  exact hstems n m ((h.shared n).mp hn) ((h.shared m).mp hm)

theorem allRead_iff : AllRead files' baseline candidate ↔ AllRead files baseline candidate := by
  refine forall_congr' fun name => ?_
  rw [h.shared name]
  refine forall_congr' fun hname => forall₂_congr fun p hp => ?_
  rw [h.load name hname p hp]

theorem noneLong (hlong : NoneLong files baseline candidate) :
    NoneLong files' baseline candidate := by
  intro name hname p hp
  have hname := (h.shared name).mp hname
  rw [← Report.load_eq_integerTooLong_iff, h.load name hname p hp,
    Report.load_eq_integerTooLong_iff]
  exact hlong name hname p hp

theorem gathers {ds : Datasets} (hds : Gathers files baseline candidate ds) :
    Gathers files' baseline candidate ds := by
  refine ⟨hds.keyed, fun id d => (hds.mem_iff id d).trans (exists_congr fun name => ?_)⟩
  rw [h.shared name]
  refine and_congr_right fun hname => and_congr_right fun _ => ?_
  have hload := h.load name hname
  rw [diffOf, diffOf, hload _ (List.mem_cons_self ..),
    hload _ (List.mem_cons_of_mem _ (List.mem_cons_self ..))]

/-- Trees that have the same shared reports are answered alike. -/
theorem acceptance_eq (hbaseline : files.isDirectory baseline = true)
    (hcandidate : files.isDirectory candidate = true)
    (hmeets : ¬MeetsLongPath files baseline candidate (reportNames files baseline))
    (hmeets' : ¬MeetsLongPath files' baseline candidate (reportNames files' baseline))
    (hstems : StemsDiffer files baseline candidate) (hlong : NoneLong files baseline candidate)
    (t : Float) (format : Format) :
    (acceptance files' baseline candidate t format).ending.exitCode =
        (acceptance files baseline candidate t format).ending.exitCode ∧
      (acceptance files' baseline candidate t format).outputText =
        (acceptance files baseline candidate t format).outputText := by
  have hrefuses : ∀ {a a' : Answer}, Refuses a' → Refuses a →
      a'.ending.exitCode = a.ending.exitCode ∧ a'.outputText = a.outputText :=
    fun h' h => ⟨h'.1.trans h.1.symm, h'.2.trans h.2.symm⟩
  by_cases hread : AllRead files baseline candidate
  · by_cases hsome : ∃ name, IsShared files baseline candidate name
    · obtain ⟨f, hf⟩ := hread.exists_differBy
      have hds := gathers_datasetsOf hstems hf
      obtain ⟨messages, hanswer⟩ :=
        acceptance_of_gathers hbaseline hcandidate hmeets hstems hsome hread hds
      obtain ⟨messages', hanswer'⟩ :=
        acceptance_of_gathers h.hasBaseline h.hasCandidate hmeets' (h.stemsDiffer hstems)
          ((exists_congr h.shared).mpr hsome) (h.allRead_iff.mpr hread) (h.gathers hds)
      rw [hanswer, hanswer']
      obtain ⟨hending, houtput⟩ := ofDatasets_messages messages' messages _ t format
      exact ⟨congrArg Ending.exitCode hending, houtput⟩
    · have hnone' : ¬∃ name, IsShared files' baseline candidate name :=
        fun hsome' => hsome ((exists_congr h.shared).mp hsome')
      exact hrefuses
        (acceptance_of_none_shared h.hasBaseline h.hasCandidate hmeets' hnone' t format)
        (acceptance_of_none_shared hbaseline hcandidate hmeets hsome t format)
  · have hread' : ¬AllRead files' baseline candidate := fun hall => hread (h.allRead_iff.mp hall)
    have hlong' := h.noneLong hlong
    exact hrefuses
      (acceptance_of_unread h.hasBaseline h.hasCandidate hmeets' hlong' hread' t format)
      (acceptance_of_unread hbaseline hcandidate hmeets hlong hread t format)

end SharesAlike

/-- Two directories are compared by the reports they share, unless the comparison comes to a path in
the second one that is too long: it breaks off there with exit code 1, and nothing is printed. Where
it does not, it is refused with exit code 2, and nothing is printed, if the directories share no
report, if one of these cannot be read, or if the threshold is no percentage. Otherwise the exit
code tells whether the change is accepted for the datasets that the shared reports are, each under
its stem and with the difference of the two. What is not shared changes neither that nor what is
printed, and the form of the answer never changes the exit code. -/
theorem verdict_acceptance (hbaseline : files.isDirectory baseline = true)
    (hcandidate : files.isDirectory candidate = true)
    (hstems : StemsDiffer files baseline candidate) (hlong : NoneLong files baseline candidate)
    (t : Float) :
    (MeetsLongPath files baseline candidate (reportNames files baseline) → ∀ format,
      (acceptance files baseline candidate t format).ending.exitCode = 1 ∧
        (acceptance files baseline candidate t format).outputText = "") ∧
    (¬MeetsLongPath files baseline candidate (reportNames files baseline) →
      ((¬∃ name, IsShared files baseline candidate name) ∨
          (∃ name, IsShared files baseline candidate name ∧ ∃ p ∈ pair baseline candidate name,
            ∃ e, Report.load files p = .error e) ∨
          ¬(t.isFinite = true ∧ 0 ≤ Double.value t ∧ Double.value t ≤ 100) →
        ∀ format, Refuses (acceptance files baseline candidate t format)) ∧
      ((∃ name, IsShared files baseline candidate name) → AllRead files baseline candidate →
          t.isFinite = true ∧ 0 ≤ Double.value t ∧ Double.value t ≤ 100 →
        (∃ ds, Gathers files baseline candidate ds) ∧
        ∀ ds, Gathers files baseline candidate ds → ∃ a, Acceptance.ofDiffs? ds t = some a ∧
          ∀ format,
            ((acceptance files baseline candidate t format).ending.exitCode = 0 ↔
              a.passed = true) ∧
            ((acceptance files baseline candidate t format).ending.exitCode = 1 ↔
              a.passed = false)) ∧
      ∀ files', SharesAlike files files' baseline candidate →
        ¬MeetsLongPath files' baseline candidate (reportNames files' baseline) → ∀ format,
        (acceptance files' baseline candidate t format).ending.exitCode =
            (acceptance files baseline candidate t format).ending.exitCode ∧
          (acceptance files' baseline candidate t format).outputText =
            (acceptance files baseline candidate t format).outputText) ∧
    ∀ format format', (acceptance files baseline candidate t format).ending.exitCode =
      (acceptance files baseline candidate t format').ending.exitCode := by
  refine ⟨fun hmeets format => ?_, fun hmeets => ⟨fun hwhy format => ?_, fun hsome hread ht => ?_,
    fun files' h hmeets' format =>
      h.acceptance_eq hbaseline hcandidate hmeets hmeets' hstems hlong t format⟩,
    fun format format' => ?_⟩
  · obtain ⟨hending, houtput⟩ := acceptance_of_meetsLongPath hbaseline hcandidate hmeets t format
    rw [hending, outputText, houtput]
    exact ⟨rfl, rfl⟩
  -- The reports are read before the threshold is looked at, so the reasons are told in this order.
  · by_cases hread : AllRead files baseline candidate
    · by_cases hsome : ∃ name, IsShared files baseline candidate name
      · obtain ⟨f, hf⟩ := hread.exists_differBy
        obtain ⟨messages, hanswer⟩ :=
          acceptance_of_differBy hbaseline hcandidate hmeets hf hsome
        rw [hanswer]
        rcases hwhy with hnone | ⟨name, hname, p, hp, e, he⟩ | ht
        · exact absurd hsome hnone
        · obtain ⟨r, hr⟩ := hread name hname p hp
          cases hr.symm.trans he
        · rw [← Acceptance.isThreshold_iff, Bool.not_eq_true] at ht
          exact refuses_ofDatasets ht messages _ format
      · exact acceptance_of_none_shared hbaseline hcandidate hmeets hsome t format
    · exact acceptance_of_unread hbaseline hcandidate hmeets hlong hread t format
  · obtain ⟨f, hf⟩ := hread.exists_differBy
    refine ⟨⟨_, gathers_datasetsOf hstems hf⟩, fun ds hds => ?_⟩
    obtain ⟨messages, hanswer⟩ :=
      acceptance_of_gathers hbaseline hcandidate hmeets hstems hsome hread hds
    obtain ⟨a, ha, -⟩ :=
      Acceptance.ofDiffs?_of_isThreshold ds (Acceptance.isThreshold_iff.mpr ht)
    refine ⟨a, ha, fun format => ?_⟩
    rw [hanswer, exitCode_ofDatasets ha]
    cases a.passed <;> decide
  · rw [ending_acceptance]

/-- A report that gains an error, beside one that is no report and that nothing is compared with. -/
def regions : FileTree where
  entries :=
    [(["work"], .directory), (["work", "old"], .directory), (["work", "new"], .directory),
      (["work", "old", "north.json"], .file (errorReport [])),
      (["work", "new", "north.json"], .file (errorReport ["share_low"])),
      (["work", "old", "west.json"], .file [0xFF])]

theorem isShared_regions {name : String} :
    IsShared regions (.ofString "old") (.ofString "new") name ↔ name = "north.json" := by
  have hnames : regions.namesIn (.ofString "old") = ["north.json", "west.json"] := rfl
  rw [IsShared, hnames]
  constructor
  · rintro ⟨hmem, -, hfile⟩
    simp only [List.mem_cons, List.not_mem_nil, or_false] at hmem
    rcases hmem with rfl | rfl
    · rfl
    · exact absurd hfile (by decide)
  · rintro rfl
    exact ⟨by decide, by decide, rfl⟩

theorem not_meetsLongPath_regions :
    ¬MeetsLongPath regions (.ofString "old") (.ofString "new")
      (reportNames regions (.ofString "old")) := by
  have hnames : regions.namesIn (.ofString "old") = ["north.json", "west.json"] := rfl
  apply not_meetsLongPath_of_forall
  rw [hnames, List.forall_mem_cons, List.forall_mem_singleton]
  exact ⟨⟨true, rfl⟩, ⟨false, rfl⟩⟩

theorem exists_differBy_regions :
    ∃ d, DifferBy regions (.ofString "old") (.ofString "new") (fun _ => d) ∧
      d.hasNewErrors = true := by
  have hold : regions.read ((Path.ofString "old").child "north.json") = .ok (errorReport []) := rfl
  have hnew : regions.read ((Path.ofString "new").child "north.json")
      = .ok (errorReport ["share_low"]) := rfl
  obtain ⟨d, hdiff, hgained⟩ := exists_diffOf_of_codes
    (codes_of_read_errorReport (by decide) hold) (codes_of_read_errorReport (by decide) hnew)
  refine ⟨d, fun name hname => ?_, ?_⟩
  · obtain rfl := isShared_regions.mp hname
    exact hdiff
  · exact Diff.hasNewErrors_iff.mpr ⟨"share_low", (hgained _).mpr (by decide)⟩

/-- One of one dataset has new errors, which is too much for half of them to be allowed. -/
theorem verdict_acceptance_regions :
    regions.isDirectory (.ofString "old") = true ∧ regions.isDirectory (.ofString "new") = true ∧
    StemsDiffer regions (.ofString "old") (.ofString "new") ∧
    NoneLong regions (.ofString "old") (.ofString "new") ∧
    ∀ format,
      (acceptance regions (.ofString "old") (.ofString "new") 50 format).ending.exitCode = 1 := by
  have hold : regions.isDirectory (.ofString "old") = true := rfl
  have hnew : regions.isDirectory (.ofString "new") = true := rfl
  have hfifty : Acceptance.isThreshold 50 = true := by decide
  have hstem : stemOf "north.json" = "north" := rfl
  obtain ⟨d, hdiffer, hgains⟩ := exists_differBy_regions
  have hstems : StemsDiffer regions (.ofString "old") (.ofString "new") := by
    intro n m hn hm _
    exact (isShared_regions.mp hn).trans (isShared_regions.mp hm).symm
  have hgathers : Gathers regions (.ofString "old") (.ofString "new") [("north", d)] := by
    refine ⟨List.nodup_cons.mpr ⟨nofun, List.nodup_nil⟩, fun id d' => ?_⟩
    have hdiff := hdiffer "north.json" (isShared_regions.mpr rfl)
    simp only [isShared_regions, exists_eq_left, hstem, hdiff, List.mem_singleton, Prod.mk.injEq,
      Except.ok.injEq]
    rw [eq_comm, @eq_comm _ d']
  have hlong := hdiffer.allRead.noneLong
  obtain ⟨-, hverdict, -⟩ := verdict_acceptance hold hnew hstems hlong 50
  obtain ⟨-, hdecided, -⟩ := hverdict not_meetsLongPath_regions
  obtain ⟨a, ha, hexit⟩ := (hdecided ⟨"north.json", isShared_regions.mpr rfl⟩ hdiffer.allRead
    (Acceptance.isThreshold_iff.mp hfifty)).2 _ hgathers
  obtain ⟨a', ha', -, -, hpassed⟩ := Acceptance.exists_ofDiffs?_of_perm (.refl _) hfifty
  obtain rfl := Option.some.inj (ha.symm.trans ha')
  refine ⟨hold, hnew, hstems, hlong, fun format => (hexit format).2.mpr ?_⟩
  simp only [hpassed, List.filter_cons, hgains, if_true, List.filter_nil]
  show decide (Acceptance.percentOf 1 1 ≤ 50) = false
  decide

/-- A report, and beside its directory another one that is empty. -/
def lonely : FileTree where
  entries :=
    [(["work"], .directory), (["work", "old"], .directory), (["work", "new"], .directory),
      (["work", "old", "north.json"], .file (errorReport []))]

/-- The way into the empty directory that leads out of it and in again a number of times. -/
def detour : Nat → List String
  | 0     => ["new"]
  | n + 1 => "new" :: ".." :: detour n

theorem detour_ne_nil (n : Nat) : detour n ≠ [] := by
  cases n <;> exact List.cons_ne_nil _ _

theorem utf8ByteSize_detour (n : Nat) :
    (String.intercalate "/" (detour n)).utf8ByteSize = 7 * n + 3 := by
  have hbytes : "/".utf8ByteSize = 1 ∧ "..".utf8ByteSize = 2 ∧ "new".utf8ByteSize = 3 :=
    ⟨rfl, rfl, rfl⟩
  induction n with
  | zero => rw [detour, String.intercalate_singleton, hbytes.2.2]
  | succ n ih =>
    rw [detour, String.intercalate_cons_of_ne_nil (List.cons_ne_nil _ _),
      String.intercalate_cons_of_ne_nil (detour_ne_nil n)]
    simp only [String.utf8ByteSize_append, ih, hbytes]
    omega

theorem forall_mem_detour (n : Nat) : ∀ part ∈ detour n, part = "new" ∨ part = ".." := by
  induction n with
  | zero => simp [detour]
  | succ n ih => simpa [detour] using ih

theorem foldlM_enter_detour (n : Nat) :
    (detour n).foldlM lonely.enter ["work"] = .ok ["work", "new"] := by
  induction n with
  | zero => rfl
  | succ n ih =>
    have hinto : lonely.enter ["work"] "new" = .ok ["work", "new"] := rfl
    have hout : lonely.enter ["work", "new"] ".." = .ok ["work"] := rfl
    rw [detour, List.foldlM_cons, hinto]
    show (List.foldlM lonely.enter ["work", "new"] (".." :: detour n)) = _
    rw [List.foldlM_cons, hout]
    exact ih

/-- The empty directory, under a path that leaves no room for a name. -/
def farPath : Path :=
  ⟨.workingDirectory, detour 584⟩

theorem utf8ByteSize_text_farPath : farPath.text.utf8ByteSize = 4091 := by
  have htext : farPath.text = String.intercalate "/" (detour 584) := by
    rw [Path.text, if_neg fun h => detour_ne_nil 584 h.2]
    exact String.empty_append
  rw [htext, utf8ByteSize_detour]

theorem isNameable_farPath : farPath.isNameable = true := by
  refine List.all_eq_true.mpr fun part hpart => ?_
  rcases forall_mem_detour 584 part hpart with rfl | rfl <;> decide

theorem locate_farPath : lonely.locate farPath = .ok ["work", "new"] := by
  have horigin : farPath.origin lonely.workingDirectory = ["work"] := rfl
  rw [FileTree.locate, isNameable_farPath, if_neg (by decide), utf8ByteSize_text_farPath,
    if_neg (by decide), horigin]
  exact foldlM_enter_detour 584

/-- There is nothing to compare, which is taken for new errors. -/
theorem mistakes_lonely :
    lonely.isDirectory (.ofString "old") = true ∧ lonely.isDirectory farPath = true ∧
    lonely.namesIn (.ofString "old") = ["north.json"] ∧ lonely.namesIn farPath = [] ∧
    ∀ t format, (acceptance lonely (.ofString "old") farPath t format).ending.exitCode = 1 ∧
      ¬Refuses (acceptance lonely (.ofString "old") farPath t format) := by
  have hold : lonely.isDirectory (.ofString "old") = true := rfl
  have hfar : lonely.isDirectory farPath = true := by
    rw [FileTree.isDirectory, FileTree.entry?, locate_farPath]
    rfl
  have hnames : lonely.namesIn (.ofString "old") = ["north.json"] := rfl
  have hnone : lonely.namesIn farPath = [] := by
    rw [FileTree.namesIn, locate_farPath]
    rfl
  have hlong : lonely.isFile (farPath.child "north.json") = .error .tooLong := by
    refine FileTree.isFile_child_of_long (detour_ne_nil 584) ?_ ?_
    · exact Path.isNameable_child.mpr ⟨isNameable_farPath, by decide⟩
    · rw [utf8ByteSize_text_farPath]
      decide
  have hmeets : MeetsLongPath lonely (.ofString "old") farPath
      (reportNames lonely (.ofString "old")) := by
    have hreports : reportNames lonely (.ofString "old") = ["north.json"] := by
      have hreport : isReportName "north.json" = true := by decide
      rw [reportNames, hnames, List.filter_singleton, hreport]
      exact List.mergeSort_singleton ..
    rw [hreports]
    exact .here hlong
  refine ⟨hold, hfar, hnames, hnone, fun t format => ?_⟩
  have hcode : (acceptance lonely (.ofString "old") farPath t format).ending.exitCode = 1 := by
    rw [(acceptance_of_meetsLongPath hold hfar hmeets t format).1]
    rfl
  exact ⟨hcode, fun h => absurd (hcode.symm.trans h.1) (by decide)⟩

end NoticeLedger.Answer
