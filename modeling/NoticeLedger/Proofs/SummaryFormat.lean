import Mathlib.Tactic.ByContra
import NoticeLedger.Proofs.KeyOrder
import NoticeLedger.Report.Reading

/-!
# The format of summaries

Which values describe a summary, told without reading them: a map of which each of four members
tells its part, whatever else it holds (`Summary.IsDescribedBy`). Reading finds the summary that a
value describes (`Summary.ofValue_eq_ok_iff`). Where there is none it names each member that tells
no part of a summary, once and in order (`Summary.failsAt_of_ofValue`).
-/

namespace NoticeLedger

/-! ### Texts and bytes -/

theorem Text.toString?_eq_some_iff {t : Text} {s : String} :
    t.toString? = some s ↔ t = ofString s := by
  constructor
  · intro h
    obtain ⟨cs, hcs, rfl⟩ := Option.map_eq_some_iff.mp h
    rw [ofString, String.toList_ofList]
    clear h
    induction t generalizing cs with
    | nil =>
      obtain rfl := Option.some.inj hcs
      rfl
    | cons a t ih =>
      cases a with
      | surrogate n => simp [List.mapM_cons] at hcs
      | char c =>
        have hbind : (t.mapM Symbol.char?).bind (fun ds => some (c :: ds)) = some cs := by
          simpa [List.mapM_cons] using hcs
        obtain ⟨ds, hds, hcons⟩ := Option.bind_eq_some_iff.mp hbind
        obtain rfl := Option.some.inj hcons
        rw [ih ds hds, List.map_cons]
  · rintro rfl
    exact toString?_ofString s

theorem decodeUtf8?_eq_some_iff {bs : List UInt8} {s : String} :
    decodeUtf8? bs = some s ↔ bs = encodeUtf8 s := by
  have hbytes : bs = encodeUtf8 s ↔ ByteArray.mk bs.toArray = s.toByteArray := by
    rw [encodeUtf8, String.toUTF8, ByteArray.ext_iff, ← Array.toList_inj]
  rw [hbytes, decodeUtf8?, String.fromUTF8?]
  constructor
  · intro h
    split at h
    · obtain rfl := Option.some.inj h
      rfl
    · cases h
  · intro h
    have hvalid : (ByteArray.mk bs.toArray).IsValidUTF8 := h ▸ s.isValidUTF8
    rw [dif_pos hvalid]
    congr 1
    exact String.toByteArray_inj.mp h

/-! ### Codes and severities -/

theorem Code.ofString_eq_ok_iff {s : String} {c : Code} : ofString s = .ok c ↔ s = c.text := by
  rw [ofString]
  constructor
  · intro h
    split at h
    · cases h
    · obtain rfl := Except.ok.inj h
      rfl
  · rintro rfl
    exact dif_neg c.text_ne

theorem Code.ofTextValue_eq_ok_iff {v : Value} {c : Code} :
    Code.ofTextValue v = .ok c ↔ v = .text (Text.ofString c.text) := by
  constructor
  · intro h
    cases v with
    | text t =>
      rw [ofTextValue, ofText] at h
      split at h
      · cases h
      · rename_i s hs
        rw [Text.toString?_eq_some_iff.mp hs, ofString_eq_ok_iff.mp h]
    | _ => cases h
  · rintro rfl
    rw [ofTextValue, ofText, Text.toString?_ofString, ofString_eq_ok_iff]

/-- The value is the name of the severity, as a text or in its UTF-8 form. -/
def Severity.IsNamedBy (s : Severity) (v : Value) : Prop :=
  v = .text (Text.ofString s.name) ∨ v = .bytes (encodeUtf8 s.name)

theorem Severity.ofName_eq_ok_iff {name : String} {s : Severity} :
    ofName name = .ok s ↔ name = s.name := by
  rw [ofName]
  constructor
  · intro h
    split at h
    · cases h
    · rename_i s' hs
      obtain rfl := Except.ok.inj h
      exact (name_of_ofName? hs).symm
  · rintro rfl
    rw [ofName?_name]

theorem Severity.ofValue_eq_ok_iff {v : Value} {s : Severity} :
    ofValue v = .ok s ↔ s.IsNamedBy v := by
  constructor
  · intro h
    cases v with
    | text t =>
      rw [ofValue] at h
      split at h
      · cases h
      · rename_i name hname
        rw [Text.toString?_eq_some_iff.mp hname, ofName_eq_ok_iff.mp h]
        exact Or.inl rfl
    | bytes bs =>
      rw [ofValue] at h
      split at h
      · cases h
      · rename_i name hname
        rw [decodeUtf8?_eq_some_iff.mp hname, ofName_eq_ok_iff.mp h]
        exact Or.inr rfl
    | _ => cases h
  · rintro (rfl | rfl)
    · rw [ofValue, Text.toString?_ofString]
      exact ofName_eq_ok_iff.mpr rfl
    · rw [ofValue, decodeUtf8?_eq_some_iff.mpr rfl]
      exact ofName_eq_ok_iff.mpr rfl

/-! ### Members with two spellings -/

namespace Fields

/-- The value of a member under its first spelling or, if it is not there, under its second one. -/
def either? (first second : String) (members : List (Value × Value)) : Option Value :=
  (value? first members).or (value? second members)

/-- The spelling that counts for a member: the second one if it is there alone. -/
def spelling (first second : String) (members : List (Value × Value)) : String :=
  if value? first members = none ∧ value? second members ≠ none then second else first

end Fields

/-- The members of a summary that matter, in the order in which they are checked. -/
inductive SummaryMember where
  | code
  | severity
  | total
  | contexts
  deriving DecidableEq, Repr

namespace SummaryMember

/-- All members, in order. -/
def all : List SummaryMember := [code, severity, total, contexts]

theorem mem_all (m : SummaryMember) : m ∈ all := by
  cases m <;> decide

/-- The spelling under which a member is named. -/
def spelling (members : List (Value × Value)) : SummaryMember → String
  | code     => "code"
  | severity => "severity"
  | total    => Fields.spelling "totalNotices" "total_notices" members
  | contexts => Fields.spelling "notices" "contexts" members

/-- The member tells its part of the summary. Contexts that are not there are none. -/
def Tells (members : List (Value × Value)) (s : Summary) : SummaryMember → Prop
  | code     => Fields.value? "code" members = some (.text (Text.ofString s.code.text))
  | severity => ∃ v, Fields.value? "severity" members = some v ∧ s.severity.IsNamedBy v
  | total    => Fields.either? "totalNotices" "total_notices" members = some (.int s.total)
  | contexts =>
    (Fields.either? "notices" "contexts" members = none ∧ s.contexts = []) ∨
      ∃ v ∈ [Value.list s.contexts, .tuple s.contexts, .set s.contexts],
        Fields.either? "notices" "contexts" members = some v

end SummaryMember

/-- The value describes the summary: it is a map of which every member tells its part, whatever
else the map holds. -/
def Summary.IsDescribedBy (s : Summary) (v : Value) : Prop :=
  ∃ members, v = .map members ∧ ∀ m : SummaryMember, m.Tells members s

/-- The names under which a value fails to describe a summary: one for each member that tells no
part of a summary, in order. -/
inductive Summary.FailsAt : Value → List String → Prop where
  | root {v : Value} (h : ∀ members, v ≠ .map members) : FailsAt v ["<root>"]
  | members {members : List (Value × Value)} {failing : List SummaryMember} (hne : failing ≠ [])
      (hsub : failing.Sublist SummaryMember.all)
      (h : ∀ m, m ∈ failing ↔ ∀ s, ¬m.Tells members s) :
      FailsAt (.map members) (failing.map fun m => m.spelling members)

/-! ### Reading members -/

namespace Summary

variable {members : List (Value × Value)}

theorem spelled?_pair (first second : String) :
    spelled? [first, second] members
      = (Fields.either? first second members).map (Fields.spelling first second members, ·) := by
  rw [spelled?, Fields.either?, Fields.spelling]
  cases hfirst : Fields.value? first members with
  | some v => simp [hfirst]
  | none =>
    cases hsecond : Fields.value? second members with
    | some v => simp [hfirst, hsecond]
    | none => simp [hfirst, hsecond]

theorem spelling_of_either?_eq_none {first second : String}
    (h : Fields.either? first second members = none) :
    Fields.spelling first second members = first := by
  rw [Fields.either?, Option.or_eq_none_iff] at h
  rw [Fields.spelling, if_neg]
  exact fun hboth => hboth.2 h.2

theorem readCode_eq_ok_iff {c : Code} :
    readCode members = .ok c
      ↔ Fields.value? "code" members = some (.text (Text.ofString c.text)) := by
  rw [readCode]
  cases Fields.value? "code" members with
  | none => simp
  | some v => simp only [mapError_eq_ok_iff, Code.ofTextValue_eq_ok_iff, Option.some_inj]

theorem readSeverity_eq_ok_iff {severity : Severity} :
    readSeverity members = .ok severity
      ↔ ∃ v, Fields.value? "severity" members = some v ∧ severity.IsNamedBy v := by
  rw [readSeverity]
  cases Fields.value? "severity" members with
  | none => simp
  | some v =>
    simp only [mapError_eq_ok_iff, Severity.ofValue_eq_ok_iff, Option.some_inj, exists_eq_left']

theorem readTotal_eq_ok_iff {total : Nat} :
    readTotal members = .ok total
      ↔ Fields.either? "totalNotices" "total_notices" members = some (.int total) := by
  rw [readTotal, spelled?_pair]
  cases Fields.either? "totalNotices" "total_notices" members with
  | none => simp
  | some v =>
    cases v with
    | int n =>
      simp only [Option.map_some, Option.some_inj, Value.int.injEq]
      by_cases hn : n < 0
      · simp only [if_pos hn]
        constructor
        · nofun
        · omega
      · simp only [if_neg hn, Except.ok.injEq]
        omega
    | _ => simp

theorem readContexts_eq_ok_iff {contexts : List Value} :
    readContexts members = .ok contexts
      ↔ (Fields.either? "notices" "contexts" members = none ∧ contexts = []) ∨
        ∃ v ∈ [Value.list contexts, .tuple contexts, .set contexts],
          Fields.either? "notices" "contexts" members = some v := by
  rw [readContexts, spelled?_pair]
  cases Fields.either? "notices" "contexts" members with
  | none => simp [eq_comm]
  | some v => cases v <;> simp [eq_comm]

theorem forall_tells_iff {s : Summary} : (∀ m : SummaryMember, m.Tells members s) ↔
    readCode members = .ok s.code ∧ readSeverity members = .ok s.severity ∧
      readTotal members = .ok s.total ∧ readContexts members = .ok s.contexts := by
  rw [readCode_eq_ok_iff, readSeverity_eq_ok_iff, readTotal_eq_ok_iff, readContexts_eq_ok_iff]
  constructor
  · intro h
    exact ⟨h .code, h .severity, h .total, h .contexts⟩
  · rintro ⟨hcode, hseverity, htotal, hcontexts⟩ m
    cases m with
    | code => exact hcode
    | severity => exact hseverity
    | total => exact htotal
    | contexts => exact hcontexts

theorem ofValue_eq_ok_iff {v : Value} {s : Summary} : ofValue v = .ok s ↔ s.IsDescribedBy v := by
  constructor
  · intro h
    cases v with
    | map members =>
      rw [ofValue] at h
      split at h
      · rename_i code severity total contexts hcode hseverity htotal hcontexts
        obtain rfl := Except.ok.inj h
        exact ⟨members, rfl, forall_tells_iff.mpr ⟨hcode, hseverity, htotal, hcontexts⟩⟩
      · cases h
    | _ => cases h
  · rintro ⟨members, rfl, h⟩
    obtain ⟨hcode, hseverity, htotal, hcontexts⟩ := forall_tells_iff.mp h
    rw [ofValue]
    simp only [hcode, hseverity, htotal, hcontexts]

end Summary

/-! ### Errors of members -/

namespace Summary

variable {α : Type} {members : List (Value × Value)} {e : SummaryError}

theorem errorOf_eq_nil_iff {r : Except SummaryError α} : errorOf r = [] ↔ ∃ a, r = .ok a := by
  cases r with
  | error e => simp [errorOf]
  | ok a => simp [errorOf]

theorem errorOf_eq_nil_iff_exists {r : Except SummaryError α} {f : Summary → α}
    {p : Summary → Prop} (hf : Function.Surjective f) (h : ∀ s, r = .ok (f s) ↔ p s) :
    errorOf r = [] ↔ ∃ s, p s := by
  rw [errorOf_eq_nil_iff]
  constructor
  · rintro ⟨a, ha⟩
    obtain ⟨s, rfl⟩ := hf a
    exact ⟨s, (h s).mp ha⟩
  · rintro ⟨s, hs⟩
    exact ⟨f s, (h s).mpr hs⟩

theorem member_of_readCode (h : readCode members = .error e) : e.member = "code" := by
  rw [readCode] at h
  split at h
  · obtain rfl := Except.error.inj h
    rfl
  · obtain ⟨fault, _, rfl⟩ := exists_of_mapError_error h
    rfl

theorem member_of_readSeverity (h : readSeverity members = .error e) : e.member = "severity" := by
  rw [readSeverity] at h
  split at h
  · obtain rfl := Except.error.inj h
    rfl
  · obtain ⟨fault, _, rfl⟩ := exists_of_mapError_error h
    rfl

theorem member_of_readTotal (h : readTotal members = .error e) :
    e.member = SummaryMember.total.spelling members := by
  rw [readTotal, spelled?_pair] at h
  rw [SummaryMember.spelling]
  cases hv : Fields.either? "totalNotices" "total_notices" members with
  | none =>
    rw [hv] at h
    obtain rfl := Except.error.inj h
    rw [spelling_of_either?_eq_none hv]
  | some v =>
    rw [hv] at h
    cases v with
    | int n =>
      simp only [Option.map_some] at h
      split at h
      · obtain rfl := Except.error.inj h
        rfl
      · cases h
    | _ =>
      obtain rfl := Except.error.inj h
      rfl

theorem member_of_readContexts (h : readContexts members = .error e) :
    e.member = SummaryMember.contexts.spelling members := by
  rw [readContexts, spelled?_pair] at h
  rw [SummaryMember.spelling]
  cases hv : Fields.either? "notices" "contexts" members with
  | none =>
    rw [hv] at h
    cases h
  | some v =>
    rw [hv] at h
    cases v with
    | list items => cases h
    | tuple items => cases h
    | set items => cases h
    | _ =>
      obtain rfl := Except.error.inj h
      rfl

end Summary

namespace SummaryMember

open Summary

variable {members : List (Value × Value)}

/-- The errors of a member, of which there is one at most. -/
def errors (members : List (Value × Value)) : SummaryMember → List SummaryError
  | code     => errorOf (readCode members)
  | severity => errorOf (readSeverity members)
  | total    => errorOf (readTotal members)
  | contexts => errorOf (readContexts members)

theorem errors_eq_nil_iff {m : SummaryMember} :
    m.errors members = [] ↔ ∃ s, m.Tells members s := by
  have someCode : Code := ⟨"code", by decide⟩
  cases m with
  | code =>
    exact errorOf_eq_nil_iff_exists (fun c => ⟨⟨c, .info, 0, []⟩, rfl⟩)
      fun s => readCode_eq_ok_iff
  | severity =>
    exact errorOf_eq_nil_iff_exists (fun severity => ⟨⟨someCode, severity, 0, []⟩, rfl⟩)
      fun s => readSeverity_eq_ok_iff
  | total =>
    exact errorOf_eq_nil_iff_exists (fun total => ⟨⟨someCode, .info, total, []⟩, rfl⟩)
      fun s => readTotal_eq_ok_iff
  | contexts =>
    exact errorOf_eq_nil_iff_exists (fun contexts => ⟨⟨someCode, .info, 0, contexts⟩, rfl⟩)
      fun s => readContexts_eq_ok_iff

/-- A member with an error has one, which names it. -/
theorem members_errors {m : SummaryMember} (h : m.errors members ≠ []) :
    (m.errors members).map (·.member) = [m.spelling members] := by
  have hone : ∀ {α : Type} {r : Except SummaryError α}, errorOf r ≠ [] →
      (∀ e, r = .error e → e.member = m.spelling members) →
      (errorOf r).map (·.member) = [m.spelling members] := by
    intro α r hne hmember
    cases r with
    | ok a => exact absurd rfl hne
    | error e => rw [errorOf, List.map_singleton, hmember e rfl]
  cases m with
  | code => exact hone h fun e => member_of_readCode
  | severity => exact hone h fun e => member_of_readSeverity
  | total => exact hone h fun e => member_of_readTotal
  | contexts => exact hone h fun e => member_of_readContexts

theorem members_flatMap_errors (ms : List SummaryMember) :
    (ms.flatMap (errors members)).map (·.member)
      = (ms.filter fun m => m.errors members ≠ []).map fun m => m.spelling members := by
  induction ms with
  | nil => rfl
  | cons m ms ih =>
    rw [List.flatMap_cons, List.map_append, ih]
    by_cases h : m.errors members = []
    · simp [h]
    · simp [h, members_errors h]

end SummaryMember

/-! ### Reading values -/

namespace Summary

/-- A value that describes no summary fails at the members of its errors. -/
theorem failsAt_of_ofValue {v : Value} {errors : List SummaryError}
    (h : ofValue v = .error errors) : FailsAt v (errors.map (·.member)) := by
  have hroot : (∀ members, v ≠ .map members) → errors = [⟨"<root>", .notMap⟩] →
      FailsAt v (errors.map (·.member)) := by
    rintro hv rfl
    exact .root hv
  cases v with
  | map members =>
    rw [ofValue] at h
    split at h
    · cases h
    · rename_i hnot
      have herrors : errors = SummaryMember.all.flatMap (SummaryMember.errors members) := by
        rw [← Except.error.inj h]
        simp [SummaryMember.all, SummaryMember.errors]
      -- If no member had an error, all of them would have been read.
      obtain ⟨m, hm⟩ : ∃ m : SummaryMember, m.errors members ≠ [] := by
        by_contra hall
        simp only [not_exists, not_not] at hall
        obtain ⟨code, hcode⟩ := errorOf_eq_nil_iff.mp (hall .code)
        obtain ⟨severity, hseverity⟩ := errorOf_eq_nil_iff.mp (hall .severity)
        obtain ⟨total, htotal⟩ := errorOf_eq_nil_iff.mp (hall .total)
        obtain ⟨contexts, hcontexts⟩ := errorOf_eq_nil_iff.mp (hall .contexts)
        exact hnot code severity total contexts hcode hseverity htotal hcontexts
      rw [herrors, SummaryMember.members_flatMap_errors]
      refine .members ?_ List.filter_sublist ?_
      · apply List.ne_nil_of_mem (a := m)
        simpa [SummaryMember.mem_all] using hm
      · intro m
        simp [SummaryMember.mem_all, SummaryMember.errors_eq_nil_iff]
  | _ => exact hroot nofun (Except.error.inj h).symm

end Summary

end NoticeLedger
