import NoticeLedger.Proofs.Json.PlainTexts
import NoticeLedger.Proofs.MemberOrder
import NoticeLedger.Proofs.Places
import NoticeLedger.Report.File

/-!
# Reports that are written and loaded

A document without surrogates is written wherever there can be a file (`exists_writeReport`), and
what has been written is loaded as if it had never been in a file
(`Report.sameReading_load_of_write`). On the way through the file the text becomes bytes and its
line ends are unified, but a document holds no carriage return and no surrogate that could be lost
(`fileText?_of_encode?`). All other files are the ones from before.
-/

namespace NoticeLedger

/-! ### Texts in files -/

theorem unifyLineEnds_of_notMem {cs : List Char} (h : '\r' ∉ cs) : unifyLineEnds cs = cs := by
  fun_induction unifyLineEnds cs with
  | case1 => rfl
  | case2 cs _ => exact absurd (List.mem_cons_self ..) h
  | case3 cs _ _ => exact absurd (List.mem_cons_self ..) h
  | case4 c cs _ _ ih => rw [ih fun hc => h (List.mem_cons_of_mem c hc)]

/-- A text without carriage returns is read from its bytes. -/
theorem fileText?_of_encode? {t : Text} {bs : List UInt8} (hreturn : .char '\r' ∉ t)
    (hbytes : t.encode? = some bs) : ∃ s, fileText? bs = some s ∧ Text.ofString s = t := by
  obtain ⟨s, hs, rfl⟩ := Option.map_eq_some_iff.mp hbytes
  obtain rfl := Text.toString?_eq_some_iff.mp hs
  have hline : '\r' ∉ s.toList := fun hc => hreturn (List.mem_map_of_mem hc)
  refine ⟨s, ?_, rfl⟩
  rw [fileText?, decodeUtf8?_eq_some_iff.mpr rfl, Option.map_some, unifyLineEnds_of_notMem hline,
    String.ofList_toList]

/-- No document holds a carriage return. -/
theorem Json.notMem_write_of_isProper {j : Json} (h : j.IsProper) :
    .char '\r' ∉ write .unicode j := by
  intro hreturn
  have hplain : Alphabet.unicode.isPlain (Symbol.char '\r').codePoint = true :=
    isPlain_write h _ hreturn
  exact absurd hplain (by decide)

/-! ### Writing -/

variable {files files' : FileTree} {p : Path}

/-- A report is written where directories can be made, its document has a text, the text has bytes,
and a file can be written. -/
theorem writeReport_eq_ok_iff {v : Value} : writeReport files p v = (files', .ok ()) ↔
    ∃ made t bs, files.makeDirectories p.parent = (made, .ok ()) ∧ v.canonicalText? = .ok t ∧
      t.encode? = some bs ∧ made.write p bs = .ok files' := by
  rw [writeReport]
  cases hmade : files.makeDirectories p.parent with
  | mk made outcome =>
    cases outcome with
    | error fault =>
      refine iff_of_false nofun ?_
      rintro ⟨_, _, _, h, -⟩
      cases h
    | ok =>
      cases htext : v.canonicalText? with
      | error fault =>
        refine iff_of_false nofun ?_
        rintro ⟨_, _, _, -, h, -⟩
        cases h
      | ok t =>
        simp only [FileTree.writeText, Prod.mk.injEq, and_true, Except.ok.injEq, exists_eq_left',
          exists_and_left]
        cases hbytes : t.encode? with
        | none =>
          refine iff_of_false (fun h => ?_) nofun
          split at h <;> cases h
        | some bs =>
          simp only [Option.getD_some, Option.isSome_some, if_true, Option.some.injEq,
            exists_eq_left']
          split
          · rename_i hwrite
            rw [hwrite]
            exact iff_of_false nofun nofun
          · rename_i hwrite
            rw [hwrite]
            simp

/-- A document without surrogates is written wherever its directories can be made and its path does
not lead to a directory. -/
theorem exists_writeReport {j : Json} {made : FileTree} {place : Place} (hproper : j.IsProper)
    (hshort : j.IsShort) (hspelled : j.IsSpelled .ascii)
    (hmade : files.makeDirectories p.parent = (made, .ok ())) (hlocate : made.locate p = .ok place)
    (hfile : made.at? place ≠ some .directory) :
    ∃ files', writeReport files p (Value.ofJson j) = (files', .ok ()) := by
  obtain ⟨s, hs⟩ : ∃ s, Json.write .unicode j.sorted = Text.ofString s :=
    Json.exists_string_of_isSpelled hproper.sorted hspelled.sorted
  have hbytes : (Json.write .unicode j.sorted).encode? = some (encodeUtf8 s) := by
    rw [hs, Text.encode?, Text.toString?_ofString, Option.map_some]
  exact ⟨_, writeReport_eq_ok_iff.mpr ⟨made, _, _, hmade,
    Value.canonicalText?_ofJson hproper hshort, hbytes,
    FileTree.write_eq_ok_iff.mpr ⟨place, hlocate, hfile, rfl⟩⟩⟩

/-- A report that has been written makes directories and changes one file. -/
theorem exists_place_of_writeReport {v : Value} (h : writeReport files p v = (files', .ok ())) :
    ∃ place, files'.locate p = .ok place ∧ ∀ other ≠ place,
      files'.at? other = files.at? other ∨
        (files.at? other = none ∧ files'.at? other = some .directory) := by
  obtain ⟨made, t, bs, hmade, -, -, hwrite⟩ := writeReport_eq_ok_iff.mp h
  obtain ⟨place, hlocate, hfile, rfl⟩ := FileTree.write_eq_ok_iff.mp hwrite
  have hadds := files.addsDirectories_makeDirectories p.parent
  rw [hmade] at hadds
  refine ⟨place, (FileTree.keepsDirectories_put hfile _).locate hlocate, fun other hother => ?_⟩
  rw [FileTree.at?_put_of_ne made _ hother]
  exact hadds.at? other

namespace Report

/-- A document that has been written to a file is loaded as it is read itself, its contexts up to
the order of members; no place but that of the file has changed, except that there may be new
directories where nothing was. -/
theorem sameReading_load_of_write {j : Json} (hproper : j.IsProper) (hlegible : j.IsLegible)
    (h : writeReport files p (Value.ofJson j) = (files', .ok ())) :
    SameReading (load files' p) ((ofValue (Value.ofJson j)).mapError .malformed) ∧
      ∃ place, files'.locate p = .ok place ∧ ∀ other ≠ place,
        files'.at? other = files.at? other ∨
          (files.at? other = none ∧ files'.at? other = some .directory) := by
  refine ⟨?_, exists_place_of_writeReport h⟩
  obtain ⟨made, t, bs, -, htext, hbytes, hwrite⟩ := writeReport_eq_ok_iff.mp h
  obtain ⟨t', htext', hread, -⟩ := sameReading_canonicalText hproper hlegible
  obtain rfl := Except.ok.inj (htext.symm.trans htext')
  -- The file unifies line ends, which changes nothing where there is no carriage return.
  have hreturn : .char '\r' ∉ t := by
    rw [Value.canonicalText?_ofJson hproper hlegible.isShort] at htext
    obtain rfl := Except.ok.inj htext
    exact Json.notMem_write_of_isProper hproper.sorted
  obtain ⟨s, hs, rfl⟩ := fileText?_of_encode? hreturn hbytes
  rw [load, FileTree.read_of_write hwrite]
  simp only [hs]
  exact hread

/-- A context whose members are not in the order of their names. -/
def location : Json :=
  .obj [(Text.ofString "row", .int 7), (Text.ofString "column", .int 2)]

/-- A group with this context, the code of which ends a line. -/
def brokenLines : List Group :=
  [⟨⟨⟨"line_broken\r\n", by decide⟩, .error⟩, 1, [location]⟩]

theorem everywhere_location {q : Json → Prop} (hobj : q location) (hrow : q (.int 7))
    (hcolumn : q (.int 2)) : location.Everywhere q := by
  refine .intro hobj ?_
  simp only [location, Json.children_obj, List.map_cons, List.map_nil, List.forall_mem_cons]
  exact ⟨.intro hrow nofun, .intro hcolumn nofun, nofun⟩

theorem isProper_brokenLines : (documentOf brokenLines).IsProper := by
  have hnames : Json.ProperHere location :=
    show [Text.ofString "row", Text.ofString "column"].Nodup by decide
  apply isProper_documentOf
  simpa [brokenLines] using everywhere_location hnames trivial trivial

theorem isLegible_brokenLines : (documentOf brokenLines).IsLegible := by
  have hdigits : ∀ n ∈ ([1, 7, 2] : List Int), Value.isConvertible n = true := by decide
  apply isLegible_documentOf
  · simpa [brokenLines] using hdigits 1 (by decide)
  · simpa [brokenLines] using
      everywhere_location trivial (hdigits 7 (by decide)) (hdigits 2 (by decide))

theorem isSpelled_brokenLines : (documentOf brokenLines).IsSpelled .ascii := by
  have hnames : Json.SpelledHere .ascii location := by
    simp only [location, Json.SpelledHere, List.forall_mem_cons]
    exact ⟨fun _ => Json.spells_of_mem_ofString, fun _ => Json.spells_of_mem_ofString,
      List.forall_mem_nil _⟩
  apply isSpelled_documentOf
  simpa [brokenLines] using everywhere_location hnames trivial trivial

theorem exists_writeReport_brokenLines : ∃ files', writeReport {} (.ofString "out/late/first")
    (Value.ofJson (documentOf brokenLines)) = (files', .ok ()) := by
  generalize hoc : ({} : FileTree).makeDirectories (Path.ofString "out/late/first").parent = oc
  obtain ⟨hmade, hlocate, hfile⟩ : oc.2 = .ok () ∧
      oc.1.locate (.ofString "out/late/first") = .ok ["work", "out", "late", "first"] ∧
      oc.1.at? ["work", "out", "late", "first"] ≠ some .directory := by
    rw [← hoc]
    decide +kernel
  exact exists_writeReport isProper_brokenLines isLegible_brokenLines.isShort isSpelled_brokenLines
    (hoc.trans (Prod.ext rfl hmade)) hlocate hfile

/-- The group is written into directories that are not there yet, and loaded with its code. -/
theorem sameReading_load_brokenLines :
    (documentOf brokenLines).IsProper ∧ (documentOf brokenLines).IsLegible ∧
    ∃ files' r, writeReport {} (.ofString "out/late/first") (Value.ofJson (documentOf brokenLines))
        = (files', .ok ()) ∧
      load files' (.ofString "out/late/first") = .ok r ∧
      List.Forall₂ Summary.Alike r.summaries (brokenLines.map Group.summary) ∧
      r.errorCodes.map (·.text) = ["line_broken\r\n"] := by
  have hvalue : ofValue (Value.ofJson (documentOf brokenLines))
      = .ok ⟨brokenLines.map Group.summary⟩ := by
    apply ofValue_documentOf
    simp [brokenLines]
  obtain ⟨files', hwritten⟩ := exists_writeReport_brokenLines
  obtain ⟨hreading, -⟩ :=
    sameReading_load_of_write isProper_brokenLines isLegible_brokenLines hwritten
  rw [hvalue] at hreading
  generalize hload : load files' (.ofString "out/late/first") = outcome at hreading
  cases hreading with
  | @report r _ halike hcodes =>
    refine ⟨isProper_brokenLines, isLegible_brokenLines, files', r, hwritten, hload, halike, ?_⟩
    rw [hcodes]
    rfl

end Report

end NoticeLedger
