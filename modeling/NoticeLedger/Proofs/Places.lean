import NoticeLedger.Files.Tree

/-!
# Where paths lead

A path leads to a place through directories only, so it leads to the same place in every tree that
has those directories (`FileTree.KeepsDirectories.locate`). Making directories puts new ones where
nothing was and leaves everything else as it is, also if it fails half-way
(`FileTree.addsDirectories_makeDirectories`); writing a file changes what is at its place and at no
other (`FileTree.write_eq_ok_iff`).
-/

namespace NoticeLedger.FileTree

variable {t t' t'' : FileTree} {p : Path} {place : Place} {bs : List UInt8}

/-! ### Names that no file can have -/

theorem enter_ne_unnameable (t : FileTree) (place : Place) (part : String) :
    t.enter place part ≠ .error .unnameable := by
  unfold enter
  split
  · nofun
  · nofun
  · split <;> nofun

theorem foldlM_enter_ne_unnameable (parts : List String) (place : Place) :
    parts.foldlM t.enter place ≠ .error .unnameable := by
  induction parts generalizing place with
  | nil => nofun
  | cons part parts ih =>
    intro h
    rw [List.foldlM_cons] at h
    cases hpart : t.enter place part with
    | error fault =>
      rw [hpart] at h
      exact enter_ne_unnameable t place part (hpart.trans h)
    | ok place' =>
      rw [hpart] at h
      exact ih place' h

theorem locate_eq_unnameable_iff : t.locate p = .error .unnameable ↔ p.isNameable = false := by
  unfold locate
  cases p.isNameable with
  | false => exact ⟨fun _ => rfl, fun _ => rfl⟩
  | true =>
    refine iff_of_false ?_ nofun
    rw [if_neg (by decide)]
    split
    · nofun
    · exact foldlM_enter_ne_unnameable p.parts _

theorem read_eq_unnameable_iff : t.read p = .error .unnameable ↔ p.isNameable = false := by
  rw [← t.locate_eq_unnameable_iff, read]
  split
  · rename_i fault hfault
    rw [hfault, Except.error.injEq, Except.error.injEq]
  · rename_i place hplace
    rw [hplace]
    refine iff_of_false ?_ nofun
    split <;> nofun

theorem isNameable_of_entry? {e : FileEntry} (h : t.entry? p = some e) : p.isNameable = true := by
  rw [← Bool.not_eq_false, ← t.locate_eq_unnameable_iff]
  intro hlocate
  unfold FileTree.entry? at h
  rw [hlocate] at h
  cases h

theorem isNameable_of_isDirectory (h : t.isDirectory p = true) : p.isNameable = true :=
  isNameable_of_entry? (of_decide_eq_true h)

theorem isNameable_of_isFile (h : t.isFile p = .ok true) : p.isNameable = true := by
  rw [← Bool.not_eq_false, ← t.locate_eq_unnameable_iff]
  intro hlocate
  rw [isFile, hlocate] at h
  cases h

/-! ### Resolved paths -/

theorem enter_eq_ok {part : String} {place' : Place} (h : t.enter place part = .ok place') :
    (if part = ".." then place.dropLast else place ++ [part]) = place' := by
  unfold enter at h
  split at h
  · cases h
  · cases h
  · split at h
    · cases h
    · exact Except.ok.inj h

theorem foldlM_enter_eq_ok {parts : List String} {place' : Place}
    (h : parts.foldlM t.enter place = .ok place') :
    parts.foldl (fun place part => if part = ".." then place.dropLast else place ++ [part]) place
      = place' := by
  induction parts generalizing place with
  | nil => exact Except.ok.inj h
  | cons part parts ih =>
    rw [List.foldlM_cons] at h
    cases hpart : t.enter place part with
    | error fault =>
      rw [hpart] at h
      cases h
    | ok next =>
      rw [hpart] at h
      rw [List.foldl_cons, enter_eq_ok hpart]
      exact ih h

/-- A path that leads to a place through directories is resolved to that place. -/
theorem resolved_of_locate (h : t.locate p = .ok place) :
    p.isNameable = true ∧ p.resolved t.workingDirectory = place := by
  unfold locate at h
  split at h
  · cases h
  split at h
  · cases h
  rename_i hname _
  exact ⟨by simpa using hname, foldlM_enter_eq_ok h⟩

/-! ### Trees with the same directories -/

/-- Every directory of the first tree is one of the second, and paths count from the same place. -/
structure KeepsDirectories (t t' : FileTree) : Prop where
  workingDirectory : t'.workingDirectory = t.workingDirectory
  directory : ∀ {place}, t.at? place = some .directory → t'.at? place = some .directory

theorem KeepsDirectories.enter (h : KeepsDirectories t t') {part : String} {place' : Place}
    (henter : t.enter place part = .ok place') : t'.enter place part = .ok place' := by
  unfold FileTree.enter at henter ⊢
  split at henter
  · cases henter
  · cases henter
  · rename_i hdirectory
    rw [h.directory hdirectory]
    exact henter

theorem KeepsDirectories.foldlM_enter (h : KeepsDirectories t t') {parts : List String}
    {place' : Place} (hparts : parts.foldlM t.enter place = .ok place') :
    parts.foldlM t'.enter place = .ok place' := by
  induction parts generalizing place with
  | nil => exact hparts
  | cons part parts ih =>
    rw [List.foldlM_cons] at hparts ⊢
    cases hpart : t.enter place part with
    | error fault =>
      rw [hpart] at hparts
      cases hparts
    | ok next =>
      rw [hpart] at hparts
      rw [h.enter hpart]
      exact ih hparts

theorem KeepsDirectories.locate (h : KeepsDirectories t t') (hlocate : t.locate p = .ok place) :
    t'.locate p = .ok place := by
  unfold FileTree.locate at hlocate ⊢
  split at hlocate
  · cases hlocate
  split at hlocate
  · cases hlocate
  rename_i hname hlength
  rw [if_neg hname, if_neg hlength, h.workingDirectory]
  exact h.foldlM_enter hlocate

/-! ### New directories -/

/-- The second tree has more directories where the first one has nothing, and is the same
otherwise. -/
structure AddsDirectories (t t' : FileTree) : Prop where
  workingDirectory : t'.workingDirectory = t.workingDirectory
  at? : ∀ place, t'.at? place = t.at? place ∨
    (t.at? place = none ∧ t'.at? place = some .directory)

theorem AddsDirectories.refl (t : FileTree) : AddsDirectories t t :=
  ⟨rfl, fun _ => .inl rfl⟩

theorem AddsDirectories.trans (h : AddsDirectories t t') (h' : AddsDirectories t' t'') :
    AddsDirectories t t'' := by
  refine ⟨h'.workingDirectory.trans h.workingDirectory, fun place => ?_⟩
  rcases h.at? place with hsame | ⟨hnone, hnew⟩ <;>
    rcases h'.at? place with hsame' | ⟨hnone', hnew'⟩
  · exact .inl (hsame'.trans hsame)
  · exact .inr ⟨hsame.symm.trans hnone', hnew'⟩
  · exact .inr ⟨hnone, hsame'.trans hnew⟩
  · exact .inr ⟨hnone, hnew'⟩

theorem addsDirectories_makeDirectory (h : t.makeDirectory p = .ok t') : AddsDirectories t t' := by
  rw [makeDirectory] at h
  split at h
  · cases h
  split at h
  · cases h
  rename_i place _ hfree
  obtain rfl := Except.ok.inj h
  have hnone : t.at? place = none := by
    rw [Bool.or_eq_true, not_or, Option.not_isSome_iff_eq_none] at hfree
    exact hfree.2
  refine ⟨rfl, fun other => ?_⟩
  by_cases hother : other = place
  · subst hother
    refine .inr ⟨hnone, at?_put_self t .directory ?_⟩
    rintro rfl
    cases hnone
  · exact .inl (at?_put_of_ne t .directory hother)

/-- Making directories adds directories, whether it succeeds or not. -/
theorem addsDirectories_makeDirectories (t : FileTree) (p : Path) :
    AddsDirectories t (t.makeDirectories p).1 := by
  -- The tree of the parent is built on in every case, also where the last directory is not made.
  fun_induction makeDirectories t p with
  | case1 p t' hmade => exact addsDirectories_makeDirectory hmade
  | case2 p _ _ => exact .refl t
  | case3 p _ _ _ t' fault hparent ih =>
    rw [hparent] at ih
    exact ih
  | case4 p _ _ _ t' hparent t'' hmade ih =>
    rw [hparent] at ih
    exact ih.trans (addsDirectories_makeDirectory hmade)
  | case5 p _ _ _ t' hparent _ ih =>
    rw [hparent] at ih
    exact ih
  | case6 p _ _ _ t' hparent _ _ _ ih =>
    rw [hparent] at ih
    exact ih
  | case7 p _ _ _ => exact .refl t

/-! ### Files -/

theorem read_eq_ok_iff :
    t.read p = .ok bs ↔ ∃ place, t.locate p = .ok place ∧ t.at? place = some (.file bs) := by
  rw [read]
  cases t.locate p with
  | error fault => exact iff_of_false nofun nofun
  | ok place =>
    simp only [Except.ok.injEq, exists_eq_left']
    cases t.at? place with
    | none => exact iff_of_false nofun nofun
    | some e =>
      cases e with
      | directory => exact iff_of_false nofun nofun
      | file content => simp

namespace AddsDirectories

variable (h : AddsDirectories t t')
include h

theorem keepsDirectories : KeepsDirectories t t' := by
  refine ⟨h.workingDirectory, fun {place} hdirectory => ?_⟩
  rcases h.at? place with hsame | ⟨hnone, -⟩
  · exact hsame.trans hdirectory
  · cases hnone.symm.trans hdirectory

theorem at?_eq_file_iff :
    t'.at? place = some (.file bs) ↔ t.at? place = some (.file bs) := by
  rcases h.at? place with hsame | ⟨hnone, hnew⟩
  · rw [hsame]
  · rw [hnone, hnew]
    exact iff_of_false nofun nofun

theorem read_of_read (hread : t.read p = .ok bs) : t'.read p = .ok bs := by
  obtain ⟨place, hlocate, hfile⟩ := read_eq_ok_iff.mp hread
  exact read_eq_ok_iff.mpr
    ⟨place, h.keepsDirectories.locate hlocate, h.at?_eq_file_iff.mpr hfile⟩

end AddsDirectories

/-! ### Written files -/

/-- A file is written where a path leads to, unless that is a directory. -/
theorem write_eq_ok_iff : t.write p bs = .ok t' ↔
    ∃ place, t.locate p = .ok place ∧ t.at? place ≠ some .directory ∧
      t' = t.put place (.file bs) := by
  rw [write]
  cases hlocate : t.locate p with
  | error fault => exact iff_of_false nofun nofun
  | ok place =>
    simp only [Except.ok.injEq, exists_eq_left']
    split
    · rename_i hdirectory
      exact iff_of_false nofun fun h => h.1 hdirectory
    · rename_i hnot
      rw [Except.ok.injEq]
      exact ⟨fun h => ⟨hnot, h.symm⟩, fun h => h.2.symm⟩

theorem ne_nil_of_at? (h : t.at? place ≠ some .directory) : place ≠ [] := by
  rintro rfl
  exact h (at?_nil t)

theorem keepsDirectories_put (h : t.at? place ≠ some .directory) (e : FileEntry) :
    KeepsDirectories t (t.put place e) := by
  refine ⟨rfl, fun {other} hdirectory => ?_⟩
  have hne : other ≠ place := fun heq => h (heq ▸ hdirectory)
  rwa [at?_put_of_ne t e hne]

/-- A file holds what has been written to it. -/
theorem read_of_write (h : t.write p bs = .ok t') : t'.read p = .ok bs := by
  obtain ⟨place, hlocate, hfile, rfl⟩ := write_eq_ok_iff.mp h
  exact read_eq_ok_iff.mpr ⟨place, (keepsDirectories_put hfile (.file bs)).locate hlocate,
    at?_put_self t (.file bs) (ne_nil_of_at? hfile)⟩

end NoticeLedger.FileTree
