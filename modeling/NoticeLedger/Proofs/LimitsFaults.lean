import NoticeLedger.Limits.File
import NoticeLedger.Proofs.Options
import NoticeLedger.Proofs.SummaryFormat

/-!
# Files that give no limits

A file that gives no limits is told by one of three codes, with four exceptions: a path that no file
can have, bytes that are not UTF-8, a document that has no value though it is well formed, and an
option that no text shows (`Limits.Untold`, `LimitsCache.load_told_iff`). What decides is told from
the outside to the inside: the file, its bytes, the document, its section, and the options in it.
-/

namespace NoticeLedger

theorem fileText?_eq_none_iff {bs : List UInt8} :
    fileText? bs = none ↔ ∀ s, bs ≠ encodeUtf8 s := by
  rw [fileText?, Option.map_eq_none_iff, Option.eq_none_iff_forall_ne_some]
  constructor
  · intro h s hs
    exact h s (decodeUtf8?_eq_some_iff.2 hs)
  · intro h s hs
    exact h s (decodeUtf8?_eq_some_iff.1 hs)

namespace LimitsFault

/-- The codes of faults. -/
def codes : List String :=
  ["E_LIMITS_CONFIG_READ_FAILED", "E_LIMITS_CONFIG_PARSE_FAILED", "E_LIMITS_CONFIG_INVALID"]

variable {fault : LimitsFault}

theorem mem_codes_of_code? {code : String} (h : fault.code? = some code) : code ∈ codes := by
  unfold code? at h
  split at h <;> cases h <;> decide

theorem code?_notYaml_eq_none_iff {f : Yaml.Fault} :
    (notYaml f).code? = none ↔ f ≠ .malformed := by
  cases f <;> simp [code?]

theorem code?_option_eq_none_iff {f : Limits.OptionFault} :
    (option f).code? = none ↔ f = .unshowable := by
  cases f <;> simp [code?]

theorem code?_eq_readFailed_iff :
    fault.code? = some "E_LIMITS_CONFIG_READ_FAILED" ↔ fault = .unreadable := by
  cases fault with
  | notYaml f => cases f <;> simp [code?]
  | option f  => cases f <;> simp [code?]
  | unnameable | unreadable | notUtf8 | documentNotMap | sectionNotMap => simp [code?]

theorem code?_eq_parseFailed_iff :
    fault.code? = some "E_LIMITS_CONFIG_PARSE_FAILED" ↔ fault = .notYaml .malformed := by
  cases fault with
  | notYaml f => cases f <;> simp [code?]
  | option f  => cases f <;> simp [code?]
  | unnameable | unreadable | notUtf8 | documentNotMap | sectionNotMap => simp [code?]

end LimitsFault

namespace Limits

/-! ### Layers -/

/-- The file at a place can be read and holds a text. -/
def HoldsText (files : FileTree) (place : Place) (s : String) : Prop :=
  ∃ bs, files.read ⟨.root, place⟩ = .ok bs ∧ fileText? bs = some s

/-- Why a file gives no limits although no code tells. -/
inductive Untold (files : FileTree) (place : Place) : Prop where
  | notUtf8 {bs : List UInt8} (hread : files.read ⟨.root, place⟩ = .ok bs)
      (hbytes : ∀ s, bs ≠ encodeUtf8 s)
  | notYaml {s : String} {fault : Yaml.Fault} (hs : HoldsText files place s)
      (hyaml : Yaml.read 2 s = .error fault) (hfault : fault ≠ .malformed)
  | option {s : String} {entries before after : List (Value × Value)} {option v : Value}
      {seen : List LimitField} (hs : HoldsText files place s)
      (hyaml : Yaml.read 2 s = .ok (.map entries))
      (hsection :
        Value.lookup? sectionKey entries = some (.map (before ++ (option, v) :: after)))
      (hsets : Sets before [] seen) (hunknown : LimitField.ofOption? option = none)
      (hshown : option.isShowable = false)

variable {files : FileTree} {place : Place} {fault : LimitsFault} {s : String}
  {document : Value}

/-- What a document gives fails without a code for one reason only. -/
theorem ofDocument_untold_iff :
    (∃ fault, ofDocument document = .error fault ∧ fault.code? = none) ↔
      ∃ entries options, document = .map entries ∧
        Value.lookup? sectionKey entries = some (.map options) ∧
        ofOptions options = .error .unshowable := by
  constructor
  · rintro ⟨fault, hfault, hcode⟩
    unfold ofDocument at hfault
    split at hfault
    · cases hfault
    · rename_i entries
      unfold ofSection at hfault
      split at hfault
      · cases hfault
      · cases hfault
      · rename_i options hsection
        obtain ⟨f, hoptions, rfl⟩ := exists_of_mapError_error hfault
        obtain rfl := LimitsFault.code?_option_eq_none_iff.1 hcode
        exact ⟨entries, options, rfl, hsection, hoptions⟩
      · cases hfault
        cases hcode
    · cases hfault
      cases hcode
  · rintro ⟨entries, options, rfl, hsection, hoptions⟩
    refine ⟨.option .unshowable, ?_, rfl⟩
    rw [ofDocument, hsection, ofSection, hoptions]
    rfl

/-- What is configured fails with a fault of its own. -/
theorem fault_of_ofDocument (h : ofDocument document = .error fault) :
    fault = .documentNotMap ∨ fault = .sectionNotMap ∨ ∃ f, fault = .option f := by
  unfold ofDocument at h
  split at h
  · cases h
  · unfold ofSection at h
    split at h
    · cases h
    · cases h
    · obtain ⟨f, -, rfl⟩ := exists_of_mapError_error h
      exact .inr (.inr ⟨f, rfl⟩)
    · exact .inr (.inl (Except.error.inj h.symm))
  · exact .inl (Except.error.inj h.symm)

/-- A file that gives no limits cannot be read, or its bytes are no text, or its text is no
document, or the document configures none. -/
theorem cases_of_load_error (h : load files place = .error fault) :
    (fault = .unreadable ∧ ∃ e, files.read ⟨.root, place⟩ = .error e) ∨
      (fault = .notUtf8 ∧ ∃ bs, files.read ⟨.root, place⟩ = .ok bs ∧ ∀ s, bs ≠ encodeUtf8 s) ∨
      ∃ s, HoldsText files place s ∧
        ((∃ f, fault = .notYaml f ∧ Yaml.read 2 s = .error f) ∨
          ∃ document, Yaml.read 2 s = .ok document ∧ ofDocument document = .error fault) := by
  unfold load at h
  unfold HoldsText
  cases hread : files.read ⟨.root, place⟩ with
  | error e =>
    rw [hread] at h
    exact .inl ⟨Except.error.inj h.symm, e, rfl⟩
  | ok bs =>
    simp only [hread, ofBytes] at h
    cases htext : fileText? bs with
    | none =>
      simp only [htext] at h
      exact .inr (.inl ⟨Except.error.inj h.symm, bs, rfl, fileText?_eq_none_iff.1 htext⟩)
    | some s =>
      simp only [htext] at h
      refine .inr (.inr ⟨s, ⟨bs, rfl, htext⟩, ?_⟩)
      cases hyaml : Yaml.read 2 s with
      | error f =>
        rw [hyaml] at h
        exact .inl ⟨f, Except.error.inj h.symm, rfl⟩
      | ok document =>
        rw [hyaml] at h
        exact .inr ⟨document, rfl, h⟩

theorem load_of_yaml_error {f : Yaml.Fault} (hs : HoldsText files place s)
    (h : Yaml.read 2 s = .error f) : load files place = .error (.notYaml f) := by
  obtain ⟨bs, hread, htext⟩ := hs
  simp only [load, hread, ofBytes, htext, h]

theorem load_of_yaml_ok (hs : HoldsText files place s) (h : Yaml.read 2 s = .ok document) :
    load files place = ofDocument document := by
  obtain ⟨bs, hread, htext⟩ := hs
  simp only [load, hread, ofBytes, htext, h]

/-- A file gives no limits and no code tells exactly for the reasons that are listed. -/
theorem load_untold_iff :
    (∃ fault, load files place = .error fault ∧ fault.code? = none) ↔ Untold files place := by
  constructor
  · rintro ⟨fault, hfault, hcode⟩
    rcases cases_of_load_error hfault with
      ⟨rfl, -⟩ | ⟨-, bs, hread, hbytes⟩ | ⟨s, hs, ⟨f, rfl, hyaml⟩ | ⟨document, hyaml, hdocument⟩⟩
    · cases hcode
    · exact .notUtf8 hread hbytes
    · exact .notYaml hs hyaml (LimitsFault.code?_notYaml_eq_none_iff.1 hcode)
    · obtain ⟨entries, options, rfl, hsection, hoptions⟩ :=
        ofDocument_untold_iff.1 ⟨fault, hdocument, hcode⟩
      obtain ⟨before, option, v, after, seen, rfl, hsets, hlast⟩ :=
        setOptions_eq_error_iff.1 hoptions
      obtain ⟨hunknown, hshown⟩ := optionFault?_eq_unshowable_iff.1 hlast
      exact .option hs hyaml hsection hsets hunknown hshown
  · intro h
    cases h with
    | notUtf8 hread hbytes =>
      refine ⟨.notUtf8, ?_, rfl⟩
      rw [load, hread]
      simp only [ofBytes, fileText?_eq_none_iff.2 hbytes]
    | notYaml hs hyaml hfault =>
      exact ⟨_, load_of_yaml_error hs hyaml, LimitsFault.code?_notYaml_eq_none_iff.2 hfault⟩
    | option hs hyaml hsection hsets hunknown hshown =>
      rw [load_of_yaml_ok hs hyaml]
      refine ofDocument_untold_iff.2 ⟨_, _, rfl, hsection, setOptions_eq_error_iff.2 ?_⟩
      exact ⟨_, _, _, _, _, rfl, hsets, optionFault?_eq_unshowable_iff.2 ⟨hunknown, hshown⟩⟩

theorem load_eq_unreadable_iff :
    load files place = .error .unreadable ↔ ∃ e, files.read ⟨.root, place⟩ = .error e := by
  constructor
  · intro h
    rcases cases_of_load_error h with
      ⟨-, he⟩ | ⟨hfault, -⟩ | ⟨s, -, ⟨f, hfault, -⟩ | ⟨document, -, hdocument⟩⟩
    · exact he
    · cases hfault
    · cases hfault
    · rcases fault_of_ofDocument hdocument with hfault | hfault | ⟨f, hfault⟩ <;> cases hfault
  · rintro ⟨e, he⟩
    rw [load, he]

theorem load_eq_malformed_iff :
    load files place = .error (.notYaml .malformed) ↔
      ∃ s, HoldsText files place s ∧ Yaml.read 2 s = .error .malformed := by
  constructor
  · intro h
    rcases cases_of_load_error h with
      ⟨hfault, -⟩ | ⟨hfault, -⟩ | ⟨s, hs, ⟨f, hfault, hyaml⟩ | ⟨document, -, hdocument⟩⟩
    · cases hfault
    · cases hfault
    · cases hfault
      exact ⟨s, hs, hyaml⟩
    · rcases fault_of_ofDocument hdocument with hfault | hfault | ⟨f, hfault⟩ <;> cases hfault
  · rintro ⟨s, hs, hyaml⟩
    exact load_of_yaml_error hs hyaml

end Limits

namespace LimitsCache

/-! ### Calls -/

/-- Why a call gives no limits although no code tells. A file that has given limits before is not
read once more. -/
inductive Untold (cache : LimitsCache) (files : FileTree) (p : Path) : Prop where
  | unnameable (hname : p.isNameable = false)
  | file (hname : p.isNameable = true)
      (hnew : cache.loaded.lookup (p.resolved files.workingDirectory) = none)
      (h : Limits.Untold files (p.resolved files.workingDirectory))

/-- A call gives no limits and tells a code. -/
def Tells (cache : LimitsCache) (files : FileTree) (p : Path) (code : String) : Prop :=
  ∃ fault, (cache.load files p).2 = .error fault ∧ fault.code? = some code

variable {cache : LimitsCache} {files : FileTree} {p : Path}

theorem load_of_unnameable (h : p.isNameable = false) :
    (cache.load files p).2 = .error .unnameable := by
  rw [load, h]
  rfl

theorem load_of_loaded {l : Limits} (hname : p.isNameable = true)
    (h : cache.loaded.lookup (p.resolved files.workingDirectory) = some l) :
    (cache.load files p).2 = .ok l := by
  simp only [load, hname, h, if_true]

theorem load_of_new (hname : p.isNameable = true)
    (h : cache.loaded.lookup (p.resolved files.workingDirectory) = none) :
    (cache.load files p).2 = Limits.load files (p.resolved files.workingDirectory) := by
  simp only [load, hname, h, if_true]
  cases Limits.load files (p.resolved files.workingDirectory) <;> rfl

theorem untold_iff :
    (∃ fault, (cache.load files p).2 = .error fault ∧ fault.code? = none) ↔
      cache.Untold files p := by
  cases hname : p.isNameable with
  | false =>
    rw [load_of_unnameable hname]
    exact iff_of_true ⟨.unnameable, rfl, rfl⟩ (.unnameable hname)
  | true =>
    cases hnew : cache.loaded.lookup (p.resolved files.workingDirectory) with
    | some l =>
      rw [load_of_loaded hname hnew]
      refine iff_of_false nofun ?_
      rintro (hname' | ⟨-, hnew', -⟩)
      · exact nomatch hname.symm.trans hname'
      · exact nomatch hnew.symm.trans hnew'
    | none =>
      rw [load_of_new hname hnew, Limits.load_untold_iff]
      constructor
      · exact .file hname hnew
      · rintro (hname' | ⟨-, -, h⟩)
        · exact nomatch hname.symm.trans hname'
        · exact h

/-- A call gives limits or tells one of the three codes, except for a path that no file can have and
for a file whose bytes are not UTF-8, whose document has no value though it is well formed, or in
which the first option that cannot be set is shown by no text. The code for reading is told exactly
if the file cannot be read, and the code for parsing exactly if its text is not well formed. -/
theorem load_told_iff (cache : LimitsCache) (files : FileTree) (p : Path) :
    (((∃ l, (cache.load files p).2 = .ok l) ∨
          ∃ code ∈ LimitsFault.codes, cache.Tells files p code) ↔
        ¬cache.Untold files p) ∧
      (p.isNameable = true → cache.loaded.lookup (p.resolved files.workingDirectory) = none →
        (cache.Tells files p "E_LIMITS_CONFIG_READ_FAILED" ↔
          ∃ e, files.read ⟨.root, p.resolved files.workingDirectory⟩ = .error e) ∧
        (cache.Tells files p "E_LIMITS_CONFIG_PARSE_FAILED" ↔
          ∃ s, Limits.HoldsText files (p.resolved files.workingDirectory) s ∧
            Yaml.read 2 s = .error .malformed)) := by
  refine ⟨?_, fun hname hnew => ⟨?_, ?_⟩⟩
  · rw [← untold_iff]
    constructor
    · rintro (⟨l, hl⟩ | ⟨code, -, fault, hfault, hcode⟩) ⟨fault', hfault', hnone⟩
      · exact nomatch hl.symm.trans hfault'
      · cases hfault.symm.trans hfault'
        exact nomatch hcode.symm.trans hnone
    · intro hnone
      cases hload : (cache.load files p).2 with
      | ok l => exact .inl ⟨l, rfl⟩
      | error fault =>
        cases hcode : fault.code? with
        | none => exact absurd ⟨fault, hload, hcode⟩ hnone
        | some code =>
          exact .inr ⟨code, LimitsFault.mem_codes_of_code? hcode, fault, hload, hcode⟩
  · simp only [Tells, LimitsFault.code?_eq_readFailed_iff, exists_eq_right, load_of_new hname hnew,
      Limits.load_eq_unreadable_iff]
  · simp only [Tells, LimitsFault.code?_eq_parseFailed_iff, exists_eq_right, load_of_new hname hnew,
      Limits.load_eq_malformed_iff]

/-- A tree with a file that holds the byte 255 alone. -/
def strayByte : FileTree :=
  ({} : FileTree).put ["work", "limits.yaml"] (.file [255])

/-- That file gives no limits, and no code tells. -/
theorem untold_strayByte :
    ¬((∃ l, (LimitsCache.load {} strayByte ⟨.workingDirectory, ["limits.yaml"]⟩).2 = .ok l) ∨
      ∃ code ∈ LimitsFault.codes,
        LimitsCache.Tells {} strayByte ⟨.workingDirectory, ["limits.yaml"]⟩ code) := by
  have hname : Path.isNameable ⟨.workingDirectory, ["limits.yaml"]⟩ = true := by decide +kernel
  have hread : strayByte.read ⟨.root, ["work", "limits.yaml"]⟩ = .ok [255] := by rfl
  have hbytes : ∀ s, [255] ≠ encodeUtf8 s := fileText?_eq_none_iff.1 (by decide +kernel)
  have huntold : Untold {} strayByte ⟨.workingDirectory, ["limits.yaml"]⟩ :=
    .file hname rfl (.notUtf8 hread hbytes)
  obtain ⟨fault, hfault, hnone⟩ := untold_iff.2 huntold
  rintro (⟨l, hl⟩ | ⟨code, -, fault', hfault', hcode⟩)
  · exact nomatch hl.symm.trans hfault
  · cases hfault.symm.trans hfault'
    exact nomatch hnone.symm.trans hcode

end LimitsCache

end NoticeLedger
