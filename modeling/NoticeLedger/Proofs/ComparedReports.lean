import NoticeLedger.Proofs.Differences
import NoticeLedger.Proofs.ExitCodes
import NoticeLedger.Proofs.Json.PlainTexts
import NoticeLedger.Proofs.Places

/-!
# The verdict on two reports

Two reports in files are compared by what `Report.load` makes of the files, whatever the files hold:
a report that cannot be read is refused before anything is printed (`Answer.compare_of_unread`), and
otherwise new error codes alone tell a failure from a success (`Answer.exitCode_compare`). A
difference that is printed as a document is a single line that can be read back
(`Answer.read_documentLine`).
-/

namespace NoticeLedger

/-! ### Documents of differences -/

namespace Diff

theorem everywhere_toJson {p : Json → Prop} (d : Diff) (hobj : p d.toJson)
    (harr : ∀ ss, p (stringsJson ss)) (hstr : ∀ s, p (.str (Text.ofString s))) :
    d.toJson.Everywhere p := by
  have hstrings : ∀ ss, (stringsJson ss).Everywhere p := by
    intro ss
    refine .intro (harr ss) fun k hk => ?_
    obtain ⟨s, -, rfl⟩ := List.mem_map.mp hk
    exact .intro (hstr s) nofun
  refine .intro hobj fun k hk => ?_
  simp only [toJson, Json.children_obj, List.map_cons, List.map_nil, List.mem_cons,
    List.not_mem_nil, or_false] at hk
  rcases hk with rfl | rfl
  · exact hstrings _
  · exact hstrings _

theorem isNormal_toJson (d : Diff) : d.toJson.IsNormal := by
  have hnames : Text.lt (Text.ofString "newErrors") (Text.ofString "resolvedErrors") = true := by
    decide
  exact d.everywhere_toJson (List.pairwise_pair.mpr hnames) (fun _ => trivial) fun _ => trivial

theorem isLegible_toJson (d : Diff) : d.toJson.IsLegible :=
  d.everywhere_toJson trivial (fun _ => trivial) fun _ => trivial

theorem isSpelled_toJson (alphabet : Json.Alphabet) (d : Diff) : d.toJson.IsSpelled alphabet := by
  refine d.everywhere_toJson (fun m hm x hx => ?_) (fun _ => trivial)
    fun _ _ => Json.spells_of_mem_ofString
  simp only [List.mem_cons, List.not_mem_nil, or_false] at hm
  rcases hm with rfl | rfl
  · exact Json.spells_of_mem_ofString hx
  · exact Json.spells_of_mem_ofString hx

end Diff

namespace Answer

/-! ### Lines -/

theorem ofString_documentLine {j : Json} (h : j.IsProper) :
    Text.ofString (documentLine j) = Json.write .ascii j.sorted ∧
      ∀ c ∈ (documentLine j).toList, 0x20 ≤ c.toNat := by
  obtain ⟨line, hline, hvisible⟩ := Json.exists_line_of_ascii h.sorted
  have heq : documentLine j = line := by
    rw [documentLine, Json.canonicalText, hline, Text.toString?_ofString, Option.getD_some]
  rw [heq]
  exact ⟨hline.symm, hvisible⟩

/-- The line of a document whose strings hold no surrogates is read as its sorted form. -/
theorem read_documentLine {j : Json} (hproper : j.IsProper) (hlegible : j.IsLegible)
    (hspelled : j.IsSpelled .ascii) :
    Json.read (Text.ofString (documentLine j)) = .ok j.sorted := by
  rw [(ofString_documentLine hproper).1]
  exact Json.read_write hproper.sorted hlegible.sorted hspelled.sorted

/-- The line of a document is printed as it is, and it is no more than a line. -/
theorem printed_documentLine {j : Json} (h : j.IsProper) :
    printed [documentLine j] = documentLine j ++ "\n" ∧ '\n' ∉ (documentLine j).toList := by
  have hvisible := (ofString_documentLine h).2
  have hescape : '\x1b' ∉ (documentLine j).toList := fun hc => absurd (hvisible _ hc) (by decide)
  refine ⟨?_, fun hc => absurd (hvisible _ hc) (by decide)⟩
  rw [printed, List.map_singleton, dropControlSequences_of_notMem hescape, String.ofList_toList,
    String.join_cons, String.join_nil, String.append_empty]

/-! ### Comparison -/

variable {files : FileTree} {baseline candidate p : Path}

theorem diffOf_eq_ok_iff {d : Diff} : diffOf files baseline candidate = .ok d ↔
    ∃ b c, Report.load files baseline = .ok b ∧ Report.load files candidate = .ok c ∧
      d = Diff.between b c := by
  rw [diffOf]
  cases Report.load files baseline with
  | error e =>
    constructor
    · intro h
      cases h
    · rintro ⟨_, _, h, -⟩
      cases h
  | ok b =>
    cases Report.load files candidate with
    | error e =>
      constructor
      · intro h
        cases h
      · rintro ⟨_, _, -, h, -⟩
        cases h
    | ok c =>
      constructor
      · intro h
        exact ⟨b, c, rfl, rfl, (Except.ok.inj h).symm⟩
      · rintro ⟨b', c', hb, hc, rfl⟩
        obtain rfl := Except.ok.inj hb
        obtain rfl := Except.ok.inj hc
        rfl

/-- The new errors of a candidate are told by the error codes in the two files. -/
theorem exists_diffOf_of_codes {s t : List String}
    (hs : (Report.load files baseline).map (·.errorCodes.map (·.text)) = .ok s)
    (ht : (Report.load files candidate).map (·.errorCodes.map (·.text)) = .ok t) :
    ∃ d, diffOf files baseline candidate = .ok d ∧
      ∀ code, code ∈ d.newErrors ↔ code ∈ t ∧ code ∉ s := by
  obtain ⟨b, hbaseline, rfl⟩ := exists_of_map_ok hs
  obtain ⟨c, hcandidate, rfl⟩ := exists_of_map_ok ht
  refine ⟨Diff.between b c, diffOf_eq_ok_iff.mpr ⟨b, c, hbaseline, hcandidate, rfl⟩, fun code => ?_⟩
  rw [Diff.mem_newErrors_between, Report.reportsError_iff, Report.reportsError_iff]

theorem exists_unread_of_diffOf {unread : Path × ReportError}
    (h : diffOf files baseline candidate = .error unread) :
    unread.1 ∈ [baseline, candidate] ∧ Report.load files unread.1 = .error unread.2 := by
  apply Command.load_of_firstUnread (p := unread.1) (e := unread.2)
  rw [Command.firstUnread?_pair, h]

/-- A report that a file can hold is malformed if it cannot be read. -/
theorem exists_malformed_of_load {e : ReportError} (hname : p.isNameable = true)
    (hlong : ¬Report.FileMeetsLongInteger files p) (h : Report.load files p = .error e) :
    ∃ fault, e = .malformed fault := by
  cases e with
  | malformed fault => exact ⟨fault, rfl⟩
  | integerTooLong => exact absurd (Report.load_eq_integerTooLong_iff.mp h) hlong
  | unnameable =>
    rw [Report.load_eq_unnameable_iff, FileTree.read_eq_unnameable_iff, hname] at h
    cases h

/-- Nothing is printed and the exit code is that of malformed reports. -/
def Refuses (a : Answer) : Prop :=
  a.ending.exitCode = 2 ∧ a.outputText = ""

theorem refuses_ofUnread {e : ReportError} (h : ∃ fault, e = .malformed fault)
    (messages : List String) (p : Path) : Refuses (ofUnread messages p e) := by
  obtain ⟨fault, rfl⟩ := h
  exact ⟨rfl, rfl⟩

theorem compare_of_unread (hname : ∀ p ∈ [baseline, candidate], p.isNameable = true)
    (hlong : ∀ p ∈ [baseline, candidate], ¬Report.FileMeetsLongInteger files p)
    (hunread : ∃ p ∈ [baseline, candidate], ∃ e, Report.load files p = .error e) (format : Format) :
    Refuses (compare files baseline candidate format) := by
  rw [compare]
  cases hdiff : diffOf files baseline candidate with
  | error unread =>
    obtain ⟨hmem, hload⟩ := exists_unread_of_diffOf hdiff
    exact refuses_ofUnread (exists_malformed_of_load (hname _ hmem) (hlong _ hmem) hload) _ _
  | ok d =>
    obtain ⟨b, c, hb, hc, -⟩ := diffOf_eq_ok_iff.mp hdiff
    obtain ⟨p, hp, e, he⟩ := hunread
    simp only [List.mem_cons, List.not_mem_nil, or_false] at hp
    rcases hp with rfl | rfl
    · cases hb.symm.trans he
    · cases hc.symm.trans he

theorem exitCode_compare {d : Diff} (h : diffOf files baseline candidate = .ok d)
    (format : Format) : (compare files baseline candidate format).ending.exitCode =
      if d.hasNewErrors then 1 else 0 := by
  rw [compare, h]
  dsimp only
  split <;> rfl

/-- The difference as a document is printed as one line, which is read as the difference. -/
theorem outputText_compare_json {d : Diff} (h : diffOf files baseline candidate = .ok d) :
    ∃ line, (compare files baseline candidate .json).outputText = line ++ "\n" ∧
      '\n' ∉ line.toList ∧ Json.read (Text.ofString line) = .ok d.toJson := by
  have hproper := d.isNormal_toJson.isProper
  have hread := read_documentLine hproper d.isLegible_toJson (d.isSpelled_toJson .ascii)
  rw [Json.sorted_of_isNormal d.isNormal_toJson] at hread
  obtain ⟨hprinted, hline⟩ := printed_documentLine hproper
  refine ⟨documentLine d.toJson, ?_, hline, hread⟩
  rw [compare, h]
  exact hprinted

/-- Two files are compared by what they hold. If one of the reports cannot be read, nothing is
printed and the exit code is 2. Otherwise it is 1 if the candidate reports an error with a code for
which the baseline reports none, and 0 if it does not; and the document that is printed is one line
that lists exactly the new and the resolved codes, each once and in ascending order. The form of the
answer does not change the exit code. -/
theorem verdict_compare (hname : ∀ p ∈ [baseline, candidate], p.isNameable = true)
    (hlong : ∀ p ∈ [baseline, candidate], ¬Report.FileMeetsLongInteger files p) :
    ((∃ p ∈ [baseline, candidate], ∃ e, Report.load files p = .error e) →
      ∀ format, Refuses (compare files baseline candidate format)) ∧
    (∀ b c, Report.load files baseline = .ok b → Report.load files candidate = .ok c →
      (∀ format,
        ((compare files baseline candidate format).ending.exitCode = 1 ↔
          ∃ code, c.ReportsError code ∧ ¬b.ReportsError code) ∧
        ((compare files baseline candidate format).ending.exitCode = 0 ↔
          ¬∃ code, c.ReportsError code ∧ ¬b.ReportsError code)) ∧
      ∃ line newErrors resolvedErrors,
        (compare files baseline candidate .json).outputText = line ++ "\n" ∧ '\n' ∉ line.toList ∧
        Json.read (Text.ofString line) = .ok (Diff.toJson ⟨newErrors, resolvedErrors⟩) ∧
        Ascends newErrors ∧ Ascends resolvedErrors ∧
        (∀ code, code ∈ newErrors ↔ c.ReportsError code ∧ ¬b.ReportsError code) ∧
        ∀ code, code ∈ resolvedErrors ↔ b.ReportsError code ∧ ¬c.ReportsError code) ∧
    ∀ format format', (compare files baseline candidate format).ending.exitCode =
      (compare files baseline candidate format').ending.exitCode := by
  refine ⟨compare_of_unread hname hlong, fun b c hb hc => ?_, fun format format' => ?_⟩
  · have hdiff : diffOf files baseline candidate = .ok (Diff.between b c) :=
      diffOf_eq_ok_iff.mpr ⟨b, c, hb, hc, rfl⟩
    refine ⟨fun format => ?_, ?_⟩
    · rw [exitCode_compare hdiff format, ← Diff.hasNewErrors_between]
      cases (Diff.between b c).hasNewErrors <;> decide
    · obtain ⟨line, houtput, hline, hread⟩ := outputText_compare_json hdiff
      exact ⟨line, _, _, houtput, hline, hread, Diff.ascends_newErrors_between b c,
        Diff.ascends_resolvedErrors_between b c, fun _ => Diff.mem_newErrors_between,
        fun _ => Diff.mem_resolvedErrors_between⟩
  · cases hdiff : diffOf files baseline candidate with
    | error unread => simp only [compare, hdiff]
    | ok d => rw [exitCode_compare hdiff, exitCode_compare hdiff]

/-- The bytes of a report of one error with each of some codes. -/
def errorReport (codes : List String) : List UInt8 :=
  encodeUtf8 ("\x7b\"notices\":[" ++
    String.intercalate "," (codes.map fun code =>
      "\x7b\"code\":\"" ++ code ++ "\",\"severity\":\"ERROR\",\"totalNotices\":1\x7d") ++
    "]\x7d")

/-- The codes of the errors in a report that a file holds. -/
theorem codes_of_read_errorReport {codes : List String}
    (hcodes : codes ∈ [[], ["name_missing"], ["row_empty"], ["share_low"]])
    (hread : files.read p = .ok (errorReport codes)) :
    (Report.load files p).map (·.errorCodes.map (·.text)) = .ok codes := by
  have htold : ∀ codes ∈ [[], ["name_missing"], ["row_empty"], ["share_low"]],
      (fileText? (errorReport codes)).map (fun s =>
        (Report.ofText (Text.ofString s)).map (·.errorCodes.map (·.text))) = some (.ok codes) := by
    decide +kernel
  obtain ⟨s, hs, hcodes⟩ := Option.map_eq_some_iff.mp (htold codes hcodes)
  simp only [Report.load, hread, hs]
  exact hcodes

/-- A report with an error, and a later one with another error in its place. -/
def drafts : FileTree where
  entries :=
    [(["work"], .directory), (["work", "first"], .file (errorReport ["name_missing"])),
      (["work", "second"], .file (errorReport ["row_empty"]))]

theorem verdict_compare_drafts :
    (∀ p ∈ [Path.ofString "first", .ofString "second"], p.isNameable = true) ∧
    (∀ p ∈ [Path.ofString "first", .ofString "second"], ¬Report.FileMeetsLongInteger drafts p) ∧
    (∀ format,
      (compare drafts (.ofString "first") (.ofString "second") format).ending.exitCode = 1) ∧
    ∃ line newErrors resolvedErrors,
      (compare drafts (.ofString "first") (.ofString "second") .json).outputText = line ++ "\n" ∧
      Json.read (Text.ofString line) = .ok (Diff.toJson ⟨newErrors, resolvedErrors⟩) ∧
      "row_empty" ∈ newErrors ∧ "name_missing" ∈ resolvedErrors := by
  have hfirst : drafts.read (.ofString "first") = .ok (errorReport ["name_missing"]) := rfl
  have hsecond : drafts.read (.ofString "second") = .ok (errorReport ["row_empty"]) := rfl
  obtain ⟨b, hb, hbcodes⟩ := exists_of_map_ok (codes_of_read_errorReport (by decide) hfirst)
  obtain ⟨c, hc, hccodes⟩ := exists_of_map_ok (codes_of_read_errorReport (by decide) hsecond)
  have hname : ∀ p ∈ [Path.ofString "first", .ofString "second"], p.isNameable = true := by
    decide
  have hlong : ∀ p ∈ [Path.ofString "first", .ofString "second"],
      ¬Report.FileMeetsLongInteger drafts p := by
    simp only [← Report.load_eq_integerTooLong_iff, List.forall_mem_cons, hb, hc]
    exact ⟨nofun, nofun, nofun⟩
  obtain ⟨-, hread, -⟩ := verdict_compare hname hlong
  obtain ⟨hexit, line, newErrors, resolvedErrors, houtput, -, hline, -, -, hnew, hresolved⟩ :=
    hread b c hb hc
  simp only [Report.reportsError_iff, hbcodes, hccodes] at hexit hnew hresolved
  refine ⟨hname, hlong, fun format => (hexit format).1.mpr ⟨"row_empty", by decide⟩, line,
    newErrors, resolvedErrors, houtput, hline, ?_, ?_⟩
  · exact (hnew _).mpr (by decide)
  · exact (hresolved _).mpr (by decide)

end Answer

end NoticeLedger
