import NoticeLedger.Proofs.Places
import NoticeLedger.Proofs.WritableValues
import NoticeLedger.Report.File

/-!
# Reports that are not written

The directories around a file are made, and the text of the document is composed, before the file is
opened. If either fails, or the file cannot be opened, every file is as it was, and nothing is new
but directories through which the path leads (`writeReport_keepsFiles`).
-/

namespace NoticeLedger

namespace FileTree

variable {t t' : FileTree} {p : Path} {place : Place}

/-! ### On the way to a path -/

/-- The path leads through the place, or to it. -/
def LeadsThrough (t : FileTree) (p : Path) (place : Place) : Prop :=
  ∃ q : Path, q.start = p.start ∧ q.parts <+: p.parts ∧ t.locate q = .ok place

theorem leadsThrough_of_locate (h : t.locate p = .ok place) : t.LeadsThrough p place :=
  ⟨p, rfl, List.prefix_refl _, h⟩

theorem LeadsThrough.of_parent (h : t.LeadsThrough p.parent place) : t.LeadsThrough p place := by
  obtain ⟨q, hstart, hparts, hlocate⟩ := h
  exact ⟨q, hstart, hparts.trans (List.dropLast_prefix _), hlocate⟩

theorem KeepsDirectories.leadsThrough (h : KeepsDirectories t t') (hp : t.LeadsThrough p place) :
    t'.LeadsThrough p place := by
  obtain ⟨q, hstart, hparts, hlocate⟩ := hp
  exact ⟨q, hstart, hparts, h.locate hlocate⟩

/-- The second tree has the files of the first one and no others, and nothing else is new but
directories through which a path leads. -/
structure KeepsFiles (p : Path) (t t' : FileTree) : Prop where
  workingDirectory : t'.workingDirectory = t.workingDirectory
  file : ∀ place bs, t'.at? place = some (.file bs) ↔ t.at? place = some (.file bs)
  read : ∀ q bs, t.read q = .ok bs → t'.read q = .ok bs
  new : ∀ place, t'.at? place = t.at? place ∨
    t.at? place = none ∧ t'.at? place = some .directory ∧ t'.LeadsThrough p place

/-- A directory is made where its path leads to. -/
theorem locate_of_makeDirectory (h : t.makeDirectory p = .ok t')
    (hnew : t'.at? place ≠ t.at? place) : t'.locate p = .ok place := by
  have hkeeps := (addsDirectories_makeDirectory h).keepsDirectories
  rw [makeDirectory] at h
  split at h
  · cases h
  rename_i made hlocate
  split at h
  · cases h
  obtain rfl := Except.ok.inj h
  have hplace : place = made := by
    by_contra hother
    exact hnew (at?_put_of_ne t .directory hother)
  exact hplace ▸ hkeeps.locate hlocate

/-- The path of a directory leads through what is new after it has been made. -/
theorem leadsThrough_of_makeDirectories (t : FileTree) (p : Path)
    (hnew : (t.makeDirectories p).1.at? place ≠ t.at? place) :
    (t.makeDirectories p).1.LeadsThrough p place := by
  -- A new place is the last directory, or it is new after those around it have been made.
  fun_induction makeDirectories t p with
  | case1 p t' hmade => exact leadsThrough_of_locate (locate_of_makeDirectory hmade hnew)
  | case2 p _ _ => exact absurd rfl hnew
  | case3 p _ _ _ t' fault hparent ih =>
    rw [hparent] at ih
    exact (ih hnew).of_parent
  | case4 p _ _ _ t' hparent t'' hmade ih =>
    rw [hparent] at ih
    by_cases hbefore : t'.at? place = t.at? place
    · exact leadsThrough_of_locate (locate_of_makeDirectory hmade (hbefore ▸ hnew))
    · exact (addsDirectories_makeDirectory hmade).keepsDirectories.leadsThrough
        (ih hbefore).of_parent
  | case5 p _ _ _ t' hparent _ ih =>
    rw [hparent] at ih
    exact (ih hnew).of_parent
  | case6 p _ _ _ t' hparent _ _ _ ih =>
    rw [hparent] at ih
    exact (ih hnew).of_parent
  | case7 p _ _ _ => exact absurd rfl hnew

theorem keepsFiles_makeDirectories (t : FileTree) (p : Path) :
    KeepsFiles p t (t.makeDirectories p).1 := by
  have hadds := t.addsDirectories_makeDirectories p
  refine ⟨hadds.workingDirectory, fun _ _ => hadds.at?_eq_file_iff, fun _ _ => hadds.read_of_read,
    fun place => ?_⟩
  by_cases hsame : (t.makeDirectories p).1.at? place = t.at? place
  · exact .inl hsame
  · obtain ⟨hnone, hnew⟩ := (hadds.at? place).resolve_left hsame
    exact .inr ⟨hnone, hnew, t.leadsThrough_of_makeDirectories p hsame⟩

end FileTree

/-! ### Failures -/

variable {files files' made : FileTree} {p : Path} {v : Value}

theorem writeReport_of_blocked {fault : FileFault}
    (h : files.makeDirectories p.parent = (made, .error fault)) :
    writeReport files p v = (made, .error (.file fault)) := by
  rw [writeReport, h]

theorem writeReport_of_unwritable {fault : Unwritable}
    (h : files.makeDirectories p.parent = (made, .ok ()))
    (htext : v.canonicalText? = .error fault) :
    writeReport files p v = (made, .error (.unwritable fault)) := by
  rw [writeReport, h]
  dsimp only
  rw [htext]

theorem writeReport_of_composed {t : Text} (h : files.makeDirectories p.parent = (made, .ok ()))
    (htext : v.canonicalText? = .ok t) : writeReport files p v = made.writeText p t := by
  rw [writeReport, h]
  dsimp only
  rw [htext]

/-- Opening the file is the last step that leaves it as it is. -/
theorem FileTree.eq_of_writeText_error {t : Text} {fault : WriteFault}
    (h : files.writeText p t = (files', .error fault)) (hfault : fault ≠ .notEncodable) :
    files' = files := by
  rw [writeText] at h
  split at h
  · exact (Prod.mk.inj h).1.symm
  · obtain ⟨-, houtcome⟩ := Prod.mk.inj h
    split at houtcome
    · cases houtcome
    · exact absurd (Except.error.inj houtcome).symm hfault

/-- A write that fails has made directories and no more, unless the text has no UTF-8 form. -/
theorem eq_of_writeReport_error {fault : WriteFault}
    (h : writeReport files p v = (files', .error fault)) (hfault : fault ≠ .notEncodable) :
    files' = (files.makeDirectories p.parent).1 := by
  cases hmade : files.makeDirectories p.parent with
  | mk made outcome =>
    cases outcome with
    | error fault' =>
      rw [writeReport_of_blocked hmade] at h
      exact (Prod.mk.inj h).1.symm
    | ok =>
      cases htext : v.canonicalText? with
      | error fault' =>
        rw [writeReport_of_unwritable hmade htext] at h
        exact (Prod.mk.inj h).1.symm
      | ok t =>
        rw [writeReport_of_composed hmade htext] at h
        exact FileTree.eq_of_writeText_error h hfault

/-- A report is not written if a directory around its file cannot be made, or if something nested in
the document cannot be written. Whenever a report is not written, every file is as it was, and
nothing is new but directories through which its path leads; only a text without a UTF-8 form is
found out too late. -/
theorem writeReport_keepsFiles (files : FileTree) (p : Path) (v : Value) :
    (∀ fault, (files.makeDirectories p.parent).2 = .error fault →
      ∃ files', writeReport files p v = (files', .error (.file fault))) ∧
    ((files.makeDirectories p.parent).2 = .ok () → ¬v.Everywhere Value.WritableHere →
      ∃ files' fault, writeReport files p v = (files', .error (.unwritable fault))) ∧
    ∀ files' fault, writeReport files p v = (files', .error fault) → fault ≠ .notEncodable →
      FileTree.KeepsFiles p.parent files files' := by
  refine ⟨fun fault hfault => ?_, fun hmade hunwritable => ?_, fun files' fault h hfault => ?_⟩
  · exact ⟨_, writeReport_of_blocked (Prod.ext rfl hfault)⟩
  · cases hjson : v.toJson? with
    | error fault =>
      have htext : v.canonicalText? = .error fault := by
        rw [Value.canonicalText?, hjson]
        rfl
      exact ⟨_, fault, writeReport_of_unwritable (Prod.ext rfl hmade) htext⟩
    | ok j => exact absurd (Value.exists_toJson?_iff.mp ⟨j, hjson⟩) hunwritable
  · rw [eq_of_writeReport_error h hfault]
    exact files.keepsFiles_makeDirectories p.parent

/-- Files with an old report in the working directory. -/
def archive : FileTree :=
  ({} : FileTree).put ["work", "report"] (.file [0x7b, 0x7d])

/-- A document with bytes in a list. -/
def stained : Value :=
  .map [(.text (Text.ofString "notices"), .list [.null, .bytes [0x7b, 0x7d]])]

/-- The old report is kept, though the path to it leads through a directory that has to be made; and
nothing is written where the report itself stands in the way. -/
theorem writeReport_keepsFiles_archive : ¬stained.Everywhere Value.WritableHere ∧
    (∃ files' fault, writeReport archive (.ofString "new/../report") stained
        = (files', .error (.unwritable fault)) ∧
      FileTree.KeepsFiles (.ofString "new/..") archive files' ∧
      files'.at? ["work", "report"] = some (.file [0x7b, 0x7d])) ∧
    ∃ files', writeReport archive (.ofString "report/next") stained
      = (files', .error (.file .alreadyExists)) := by
  have hblocked : (archive.makeDirectories (Path.ofString "report/next").parent).2
      = .error .alreadyExists := by decide +kernel
  have hmade : (archive.makeDirectories (Path.ofString "new/../report").parent).2 = .ok () := by
    decide +kernel
  have hunwritable : ¬stained.Everywhere Value.WritableHere := by
    intro h
    have hnotices := (Value.everywhere_iff.mp h).2 _ (List.mem_singleton_self _)
    have hbytes :=
      (Value.everywhere_iff.mp hnotices).2 (.bytes [0x7b, 0x7d]) (by simp [Value.parts])
    exact (Value.everywhere_iff.mp hbytes).1
  obtain ⟨hstops, -⟩ := writeReport_keepsFiles archive (.ofString "report/next") stained
  obtain ⟨-, hfails, hkeeps⟩ :=
    writeReport_keepsFiles archive (.ofString "new/../report") stained
  obtain ⟨files', fault, hwrite⟩ := hfails hmade hunwritable
  have hkept : FileTree.KeepsFiles (.ofString "new/..") archive files' := by
    refine hkeeps _ _ hwrite ?_
    rintro ⟨⟩
  exact ⟨hunwritable, ⟨files', fault, hwrite, hkept, (hkept.file _ _).mpr rfl⟩, hstops _ hblocked⟩

end NoticeLedger
