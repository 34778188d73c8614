import NoticeLedger.Proofs.SharedReports

/-!
# Reports that share a dataset

Reports are told apart by the stems of their names, and only the names `.json` and `.json.json` have
a stem in common: the first of them is all stem (`eq_or_eq_of_stemOf_eq`). Where both are shared,
the dataset of the first one is lost to the second, and so are its new errors. In all other
directories each shared report is a dataset of its own, unless the comparison breaks off at a path
that is too long (`Answer.datasets_of_shared`).
-/

namespace NoticeLedger

/-! ### Stems -/

theorem exists_eq_of_isReportName {name : String} (h : Answer.isReportName name = true) :
    ∃ base, name = String.ofList (base ++ ".json".toList) := by
  obtain ⟨base, hbase⟩ := List.isSuffixOf_iff_suffix.mp h
  exact ⟨base, by rw [hbase, String.ofList_toList]⟩

/-- The stem of the name of a report is what is in front of its suffix, if there is anything. -/
theorem stemOf_ofList_append (base : List Char) :
    stemOf (String.ofList (base ++ ".json".toList)) =
      if base = [] then ".json" else String.ofList base := by
  have hdrop : (base ++ ".json".toList).reverse.dropWhile (· ≠ '.') = '.' :: base.reverse := by
    simp [List.reverse_append]
  have hhead : (base ++ ".json".toList).reverse.head? ≠ some '.' := by
    simp [List.reverse_append]
  simp only [stemOf, String.toList_ofList, hdrop, List.isEmpty_reverse, Bool.or_eq_true,
    decide_eq_true_eq, hhead, or_false, List.isEmpty_iff, List.reverse_reverse]
  split
  · rename_i hempty
    rw [hempty]
    rfl
  · rfl

/-- Only two names of reports have the same stem. -/
theorem eq_or_eq_of_stemOf_eq {n m : String} (hn : Answer.isReportName n = true)
    (hm : Answer.isReportName m = true) (h : stemOf n = stemOf m) :
    n = m ∨ (n = ".json" ∧ m = ".json.json") ∨ (n = ".json.json" ∧ m = ".json") := by
  obtain ⟨base, rfl⟩ := exists_eq_of_isReportName hn
  obtain ⟨base', rfl⟩ := exists_eq_of_isReportName hm
  rw [stemOf_ofList_append, stemOf_ofList_append] at h
  split at h <;> split at h
  · rename_i hbase hbase'
    exact .inl (by rw [hbase, hbase'])
  · rename_i hbase _
    have hbase' : base' = ".json".toList := by rw [h, String.toList_ofList]
    exact .inr (.inl ⟨by rw [hbase]; rfl, by rw [hbase']; rfl⟩)
  · rename_i _ hbase'
    have hbase : base = ".json".toList := by rw [← h, String.toList_ofList]
    exact .inr (.inr ⟨by rw [hbase]; rfl, by rw [hbase']; rfl⟩)
  · exact .inl (by rw [String.ofList_injective h])

namespace Answer

variable {files : FileTree} {baseline candidate : Path} {name : String} {t : Float}

/-! ### Names that count -/

/-- The names whose datasets are kept: `.json` gives way to `.json.json`. -/
def counted (names : List String) : List String :=
  names.filter fun name => name ≠ ".json" ∨ ".json.json" ∉ names

theorem counted_eq_self_iff {names : List String} :
    counted names = names ↔ ¬(".json" ∈ names ∧ ".json.json" ∈ names) := by
  rw [counted, List.filter_eq_self]
  simp only [decide_eq_true_eq]
  constructor
  · rintro h ⟨hshort, hlong⟩
    rcases h ".json" hshort with hne | hnot
    · exact hne rfl
    · exact hnot hlong
  · intro h name hname
    by_cases hshort : name = ".json"
    · exact .inr fun hlong => h ⟨hshort ▸ hname, hlong⟩
    · exact .inl hshort

theorem length_counted_of_mem {names : List String} (hnodup : names.Nodup)
    (hshort : ".json" ∈ names) (hlong : ".json.json" ∈ names) :
    (counted names).length + 1 = names.length := by
  have herase : counted names = names.erase ".json" := by
    rw [hnodup.erase_eq_filter, counted]
    refine List.filter_congr fun name _ => ?_
    by_cases hname : name = ".json" <;> simp [hname, hlong]
  rw [herase, List.length_erase_add_one hshort]

/-- A name decides on its dataset unless it is the one that gives way. -/
theorem decides_iff : Decides files baseline candidate name ↔
    IsShared files baseline candidate name ∧
      (name ≠ ".json" ∨ ¬IsShared files baseline candidate ".json.json") := by
  have hstem : stemOf ".json.json" = stemOf ".json" := rfl
  -- The datasets are set in the order of the names, so the greater of the two names stays.
  have hbefore : stringLe ".json" ".json.json" = true ∧ stringLe ".json.json" ".json" = false := by
    decide
  constructor
  · rintro ⟨hname, hlast⟩
    refine ⟨hname, or_iff_not_imp_left.mpr fun hshort hlong => ?_⟩
    obtain rfl := not_not.mp hshort
    have hle := hlast _ hlong hstem
    rw [hbefore.2] at hle
    cases hle
  · rintro ⟨hname, hkept⟩
    refine ⟨hname, fun other hother heq => ?_⟩
    rcases eq_or_eq_of_stemOf_eq hother.2.1 hname.2.1 heq with rfl | ⟨rfl, rfl⟩ | ⟨rfl, rfl⟩
    · exact stringLe_refl other
    · exact hbefore.1
    · exact absurd hother (hkept.resolve_left (not_not.mpr rfl))

/-- The datasets of shared reports are those of the names that count, each with its difference. -/
theorem datasetsOf_perm_counted {names : List String} (hnodup : names.Nodup)
    (hnames : ∀ n, n ∈ names ↔ IsShared files baseline candidate n) (f : String → Diff) :
    (datasetsOf ((sharedNames files baseline candidate).map fun n => (stemOf n, f n))).Perm
      ((counted names).map fun n => (stemOf n, f n)) := by
  have hmem : ∀ n, n ∈ counted names ↔ Decides files baseline candidate n := by
    intro n
    rw [decides_iff, counted, List.mem_filter, decide_eq_true_iff, hnames, hnames]
  refine (isKeyed_datasetsOf _).perm_of_mem_iff ?_ fun id d => ?_
  · have hcounted : (counted names).Nodup := hnodup.filter _
    rw [Datasets.IsKeyed, List.map_map]
    refine List.pairwise_map.mpr (hcounted.imp_of_mem fun {n m} hn hm hne heq => hne ?_)
    obtain ⟨hnshared, hnlast⟩ := (hmem n).mp hn
    obtain ⟨hmshared, hmlast⟩ := (hmem m).mp hm
    exact stringLe_antisymm (hmlast n hnshared heq) (hnlast m hmshared heq.symm)
  · rw [mem_datasetsOf_sharedNames, List.mem_map]
    simp only [hmem, Prod.mk.injEq]

/-! ### What is reported -/

/-- What is printed for a verdict on datasets. -/
def reported (ds : Datasets) (a : Acceptance) : Format → List String
  | .text => verdictLines ds a
  | .json => [documentLine a.toJson]

/-- Where all shared reports can be read and the threshold is a percentage, the number of datasets
that is reported is that of the names that count, and those with new errors are the stems of the
names that count and whose candidate has new errors. All shared names count, except for `.json`
where `.json.json` is shared as well. Nothing is reported if the comparison comes to a path that is
too long. -/
theorem datasets_of_shared (hbaseline : files.isDirectory baseline = true)
    (hcandidate : files.isDirectory candidate = true)
    (hsome : ∃ name, IsShared files baseline candidate name)
    (hread : AllRead files baseline candidate) (ht : Acceptance.isThreshold t = true) :
    (¬MeetsLongPath files baseline candidate (reportNames files baseline) →
      ∃ names f ds a, names.Nodup ∧ (∀ n, n ∈ names ↔ IsShared files baseline candidate n) ∧
        DifferBy files baseline candidate f ∧ Acceptance.ofDiffs? ds t = some a ∧
        (∀ format, (acceptance files baseline candidate t format).output = reported ds a format) ∧
        a.datasetCount = (counted names).length ∧
        a.flagged.Perm (((counted names).filter fun n => (f n).hasNewErrors).map stemOf) ∧
        (counted names = names ↔ ¬(".json" ∈ names ∧ ".json.json" ∈ names)) ∧
        (".json" ∈ names ∧ ".json.json" ∈ names → a.datasetCount + 1 = names.length)) ∧
    (MeetsLongPath files baseline candidate (reportNames files baseline) → ∀ format,
      (acceptance files baseline candidate t format).ending = .pathTooLong ∧
        (acceptance files baseline candidate t format).output = []) := by
  refine ⟨fun hmeets => ?_, fun hmeets format =>
    acceptance_of_meetsLongPath hbaseline hcandidate hmeets t format⟩
  obtain ⟨f, hf⟩ := hread.exists_differBy
  obtain ⟨messages, hanswer⟩ := acceptance_of_differBy hbaseline hcandidate hmeets hf hsome
  have hnodup := nodup_distinct (sharedNames files baseline candidate)
  have hnames : ∀ n, n ∈ distinct (sharedNames files baseline candidate) ↔
      IsShared files baseline candidate n := fun n => mem_distinct.trans mem_sharedNames
  obtain ⟨a, ha, hcount, hflagged, -⟩ :=
    Acceptance.exists_ofDiffs?_of_perm (datasetsOf_perm_counted hnodup hnames f) ht
  rw [List.length_map] at hcount
  rw [List.filter_map, List.map_map] at hflagged
  refine ⟨_, f, _, a, hnodup, hnames, hf, ha, fun format => ?_, hcount, hflagged,
    counted_eq_self_iff, fun hboth => ?_⟩
  · rw [hanswer, ofDatasets, ha]
    rfl
  · rw [hcount]
    exact length_counted_of_mem hnodup hboth.1 hboth.2

/-- Two reports whose names have the same stem. The first one gains an error. -/
def hidden : FileTree where
  entries :=
    [(["work"], .directory), (["work", "old"], .directory), (["work", "new"], .directory),
      (["work", "old", ".json"], .file (errorReport [])),
      (["work", "new", ".json"], .file (errorReport ["share_low"])),
      (["work", "old", ".json.json"], .file (errorReport [])),
      (["work", "new", ".json.json"], .file (errorReport []))]

theorem namesIn_hidden : hidden.namesIn (.ofString "old") = [".json", ".json.json"] :=
  rfl

theorem isFile_hidden {name : String} (h : name ∈ [".json", ".json.json"]) :
    hidden.isFile ((Path.ofString "new").child name) = .ok true := by
  have hfiles : ∀ name ∈ [".json", ".json.json"],
      hidden.isFile ((Path.ofString "new").child name) = .ok true := by decide
  exact hfiles name h

theorem isShared_hidden {name : String} :
    IsShared hidden (.ofString "old") (.ofString "new") name ↔ name ∈ [".json", ".json.json"] := by
  have hreports : ∀ name ∈ [".json", ".json.json"], isReportName name = true := by decide
  rw [IsShared, namesIn_hidden]
  exact ⟨And.left, fun hname => ⟨hname, hreports name hname, isFile_hidden hname⟩⟩

theorem not_meetsLongPath_hidden :
    ¬MeetsLongPath hidden (.ofString "old") (.ofString "new")
      (reportNames hidden (.ofString "old")) := by
  apply not_meetsLongPath_of_forall
  rw [namesIn_hidden]
  exact fun name hname => ⟨true, isFile_hidden hname⟩

theorem exists_differBy_hidden :
    ∃ f, DifferBy hidden (.ofString "old") (.ofString "new") f ∧
      (f ".json").hasNewErrors = true ∧ (f ".json.json").hasNewErrors = false := by
  have hshort : hidden.read ((Path.ofString "old").child ".json") = .ok (errorReport []) := rfl
  have hshort' : hidden.read ((Path.ofString "new").child ".json")
      = .ok (errorReport ["share_low"]) := rfl
  have hlong : hidden.read ((Path.ofString "old").child ".json.json") = .ok (errorReport []) := rfl
  have hlong' : hidden.read ((Path.ofString "new").child ".json.json") = .ok (errorReport []) := rfl
  obtain ⟨gained, hgained, hnew⟩ := exists_diffOf_of_codes
    (codes_of_read_errorReport (by decide) hshort) (codes_of_read_errorReport (by decide) hshort')
  obtain ⟨same, hsame, hnone⟩ := exists_diffOf_of_codes
    (codes_of_read_errorReport (by decide) hlong) (codes_of_read_errorReport (by decide) hlong')
  refine ⟨fun name => if name = ".json" then gained else same, fun name hname => ?_, ?_, ?_⟩
  · have hname := isShared_hidden.mp hname
    simp only [List.mem_cons, List.not_mem_nil, or_false] at hname
    rcases hname with rfl | rfl
    · exact hgained
    · exact hsame
  · exact Diff.hasNewErrors_iff.mpr ⟨"share_low", (hnew _).mpr (by decide)⟩
  · refine Bool.eq_false_iff.mpr fun h => ?_
    obtain ⟨code, hcode⟩ := Diff.hasNewErrors_iff.mp h
    exact List.not_mem_nil ((hnone code).mp hcode).1

/-- Of the two reports one dataset is reported, which is the second one. -/
theorem datasets_of_shared_hidden :
    ∃ (names : List String) (a : Acceptance), names.Nodup ∧
      (∀ n, n ∈ names ↔ n ∈ [".json", ".json.json"]) ∧
      (∃ ds, ∀ format, (acceptance hidden (.ofString "old") (.ofString "new") 1 format).output =
        reported ds a format) ∧
      a.datasetCount + 1 = names.length := by
  obtain ⟨f, hf, -⟩ := exists_differBy_hidden
  have hold : hidden.isDirectory (.ofString "old") = true := rfl
  have hnew : hidden.isDirectory (.ofString "new") = true := rfl
  obtain ⟨hreported, -⟩ := datasets_of_shared (t := 1) hold hnew
    ⟨".json", isShared_hidden.mpr (by decide)⟩ hf.allRead (by decide)
  obtain ⟨names, -, ds, a, hnodup, hnames, -, -, houtput, -, -, -, hlost⟩ :=
    hreported not_meetsLongPath_hidden
  simp only [isShared_hidden] at hnames
  exact ⟨names, a, hnodup, hnames, ⟨ds, houtput⟩,
    hlost ⟨(hnames _).mpr (by decide), (hnames _).mpr (by decide)⟩⟩

/-- All reports of the two directories can be read, and one pair has a new error. But one dataset is
reported instead of two, none is reported with new errors, and the change is accepted. -/
theorem datasets_lost_hidden :
    AllRead hidden (.ofString "old") (.ofString "new") ∧
    (∀ name, IsShared hidden (.ofString "old") (.ofString "new") name ↔
      name ∈ [".json", ".json.json"]) ∧
    (∃ d, diffOf hidden ((Path.ofString "old").child ".json")
        ((Path.ofString "new").child ".json") = .ok d ∧ d.hasNewErrors = true) ∧
    ∃ ds a, Acceptance.ofDiffs? ds 1 = some a ∧
      (∀ format, (acceptance hidden (.ofString "old") (.ofString "new") 1 format).output =
        reported ds a format) ∧
      a.datasetCount = 1 ∧ a.flagged = [] ∧ a.passed = true := by
  obtain ⟨f, hf, hgained, hsame⟩ := exists_differBy_hidden
  have hshort := isShared_hidden.mpr (by decide : ".json" ∈ [".json", ".json.json"])
  have hold : hidden.isDirectory (.ofString "old") = true := rfl
  have hnew : hidden.isDirectory (.ofString "new") = true := rfl
  obtain ⟨messages, hanswer⟩ := acceptance_of_differBy hold hnew
    not_meetsLongPath_hidden hf ⟨".json", hshort⟩
  have hcounted : counted [".json", ".json.json"] = [".json.json"] := by decide
  have hperm := datasetsOf_perm_counted (by decide) (fun n => isShared_hidden.symm) f
  rw [hcounted, List.map_singleton] at hperm
  obtain ⟨a, ha, hcount, hflagged, hpassed⟩ :=
    Acceptance.exists_ofDiffs?_of_perm hperm (t := 1) (by decide)
  rw [List.filter_cons_of_neg (by simp [hsame]), List.filter_nil] at hflagged hpassed
  refine ⟨hf.allRead, fun _ => isShared_hidden, ⟨_, hf _ hshort, hgained⟩, _, a, ha,
    fun format => ?_, hcount, hflagged.eq_nil, ?_⟩
  · rw [hanswer, ofDatasets, ha]
    rfl
  · rw [hpassed]
    show decide (Acceptance.percentOf 0 1 ≤ 1) = true
    decide

end Answer

end NoticeLedger
