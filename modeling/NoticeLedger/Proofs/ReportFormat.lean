import Mathlib.Data.List.Forall2
import NoticeLedger.Proofs.SummaryFormat

/-!
# The format of reports

Which documents are reports, told without reading them: a mapping with a list of values that
describe summaries (`Report.IsToldBy`). A document that is no report is refused for the first of
four reasons that applies (`Report.IsRefused`). Reading decides between the two
(`Report.ofDocument_format`).
-/

namespace NoticeLedger

/-- The document is a mapping with the entries, whichever its kind. -/
inductive Document.HasEntries : Document → List (Value × Value) → Prop where
  | map (entries : List (Value × Value)) : HasEntries (.value (.map entries)) entries
  | mapping (entries : List (Value × Value)) : HasEntries (.mapping entries) entries

namespace Report

/-- The value describes the report: it is a map with a list of maps that describe the summaries. -/
def IsDescribedBy (r : Report) (v : Value) : Prop :=
  ∃ members items, v = .map members ∧ Fields.value? "notices" members = some (.list items) ∧
    List.Forall₂ Summary.IsDescribedBy r.summaries items

/-- The document tells the report: it is a mapping with a list of mappings that describe the
summaries. -/
def IsToldBy (r : Report) (d : Document) : Prop :=
  ∃ members items, d.HasEntries members ∧ Fields.value? "notices" members = some (.list items) ∧
    List.Forall₂ Summary.IsDescribedBy r.summaries items

/-- The code and the words with which a document is refused as a report. An invalid summary is named
by its position, and only the first one is. -/
inductive IsRefused : Document → (code message : String) → Prop where
  | notMap {d : Document} (h : ∀ members, ¬d.HasEntries members) :
      IsRefused d "E_REPORT_NOT_OBJECT" "report document must be a JSON object"
  | noticesMissing {d : Document} {members : List (Value × Value)} (hd : d.HasEntries members)
      (h : Fields.value? "notices" members = none) :
      IsRefused d "E_REPORT_NOTICES_MISSING" "report document has no 'notices' member"
  | noticesNotList {d : Document} {members : List (Value × Value)} {v : Value}
      (hd : d.HasEntries members) (h : Fields.value? "notices" members = some v)
      (hv : ∀ items, v ≠ .list items) :
      IsRefused d "E_REPORT_NOTICES_NOT_ARRAY" "report member 'notices' must be an array"
  | summaryInvalid {d : Document} {members : List (Value × Value)} {before after : List Value}
      {item : Value} (hd : d.HasEntries members)
      (h : Fields.value? "notices" members = some (.list (before ++ item :: after)))
      (hbefore : ∀ v ∈ before, ∃ s : Summary, s.IsDescribedBy v)
      {names : List String} (hitem : Summary.FailsAt item names)
      (words : List String) (hwords : words.length = names.length) :
      IsRefused d "E_REPORT_SUMMARY_INVALID"
        (s!"notices[{before.length}] is not a valid notice summary: " ++
          String.intercalate "; "
            (List.zipWith (fun name word => name ++ ": " ++ word) names words))

/-! ### Reading -/

theorem readSummaries_eq_ok_iff {index : Nat} {vs : List Value} {ss : List Summary} :
    readSummaries index vs = .ok ss ↔ List.Forall₂ Summary.IsDescribedBy ss vs := by
  induction vs generalizing index ss with
  | nil => simp [readSummaries, eq_comm]
  | cons v vs ih =>
    rw [readSummaries]
    constructor
    · intro h
      split at h
      · cases h
      · rename_i s hs
        obtain ⟨rest, hrest, rfl⟩ := exists_of_map_ok h
        exact .cons (Summary.ofValue_eq_ok_iff.mp hs) (ih.mp hrest)
    · rintro (_ | ⟨hs, hrest⟩)
      rw [Summary.ofValue_eq_ok_iff.mpr hs]
      simp only [ih.mpr hrest]
      rfl

/-- Reading stops at the first value that describes no summary. -/
theorem exists_of_readSummaries {index : Nat} {vs : List Value} {fault : ReportFault}
    (h : readSummaries index vs = .error fault) :
    ∃ before item after errors, vs = before ++ item :: after ∧
      (∀ v ∈ before, ∃ s : Summary, s.IsDescribedBy v) ∧ Summary.ofValue item = .error errors ∧
      fault = .summaryInvalid (index + before.length) errors := by
  induction vs generalizing index with
  | nil => cases h
  | cons v vs ih =>
    rw [readSummaries] at h
    split at h
    · rename_i errors herrors
      exact ⟨[], v, vs, errors, rfl, nofun, herrors, (Except.error.inj h).symm⟩
    · rename_i s hs
      cases hrest : readSummaries (index + 1) vs with
      | ok ss =>
        rw [hrest] at h
        cases h
      | error fault' =>
        rw [hrest] at h
        obtain rfl := Except.error.inj h
        obtain ⟨before, item, after, errors, rfl, hbefore, hitem, rfl⟩ := ih hrest
        refine ⟨v :: before, item, after, errors, rfl, ?_, hitem, ?_⟩
        · rw [List.forall_mem_cons]
          exact ⟨⟨s, Summary.ofValue_eq_ok_iff.mp hs⟩, hbefore⟩
        · rw [List.length_cons]
          congr 1
          omega

theorem ofValue_eq_ok_iff {v : Value} {r : Report} : ofValue v = .ok r ↔ r.IsDescribedBy v := by
  constructor
  · intro h
    cases v with
    | map members =>
      rw [ofValue] at h
      split at h
      · cases h
      · rename_i items hitems
        obtain ⟨ss, hss, rfl⟩ := exists_of_map_ok h
        exact ⟨members, items, rfl, hitems, readSummaries_eq_ok_iff.mp hss⟩
      · cases h
    | _ => cases h
  · rintro ⟨members, items, rfl, hitems, h⟩
    rw [ofValue, hitems]
    simp only [readSummaries_eq_ok_iff.mpr h]
    rfl

theorem map_message (errors : List SummaryError) :
    errors.map SummaryError.message
      = List.zipWith (fun name word => name ++ ": " ++ word) (errors.map (·.member))
          (errors.map (·.fault.message)) := by
  rw [List.zipWith_map, List.zipWith_self]
  rfl

theorem isRefused_of_ofValue_map {d : Document} {members : List (Value × Value)}
    (hd : d.HasEntries members) {fault : ReportFault} (h : ofValue (.map members) = .error fault) :
    ∃ message, fault.message? = some message ∧ IsRefused d fault.code message := by
  rw [ofValue] at h
  split at h
  · rename_i hnone
    obtain rfl := Except.error.inj h
    exact ⟨_, rfl, .noticesMissing hd hnone⟩
  · rename_i items hitems
    cases hread : readSummaries 0 items with
    | ok ss =>
      rw [hread] at h
      cases h
    | error fault' =>
      rw [hread] at h
      obtain rfl := Except.error.inj h
      obtain ⟨before, item, after, errors, rfl, hbefore, hitem, rfl⟩ :=
        exists_of_readSummaries hread
      rw [Nat.zero_add]
      refine ⟨_, rfl, ?_⟩
      rw [map_message]
      refine .summaryInvalid hd hitems hbefore (Summary.failsAt_of_ofValue hitem) _ ?_
      rw [List.length_map, List.length_map]
  · rename_i v hlist hv
    obtain rfl := Except.error.inj h
    refine ⟨_, rfl, .noticesNotList hd hv ?_⟩
    rintro items rfl
    exact hlist items rfl

/-! ### Documents -/

theorem isToldBy_value_iff {r : Report} {v : Value} :
    r.IsToldBy (.value v) ↔ r.IsDescribedBy v := by
  constructor
  · rintro ⟨members, items, hd, h⟩
    cases hd
    exact ⟨_, items, rfl, h⟩
  · rintro ⟨members, items, rfl, h⟩
    exact ⟨members, items, .map members, h⟩

theorem isToldBy_mapping_iff {r : Report} {entries : List (Value × Value)} :
    r.IsToldBy (.mapping entries) ↔ r.IsDescribedBy (.map entries) := by
  constructor
  · rintro ⟨members, items, hd, h⟩
    cases hd
    exact ⟨entries, items, rfl, h⟩
  · rintro ⟨members, items, hentries, h⟩
    obtain rfl := Value.map.inj hentries
    exact ⟨entries, items, .mapping entries, h⟩

theorem ofDocument_eq_ok_iff {d : Document} {r : Report} :
    ofDocument d = .ok r ↔ r.IsToldBy d := by
  cases d with
  | value v         => exact ofValue_eq_ok_iff.trans isToldBy_value_iff.symm
  | mapping entries => exact ofValue_eq_ok_iff.trans isToldBy_mapping_iff.symm

theorem isRefused_of_ofDocument {d : Document} {fault : ReportFault}
    (h : ofDocument d = .error fault) :
    ∃ message, fault.message? = some message ∧ IsRefused d fault.code message := by
  have hroot : (∀ members, ¬d.HasEntries members) → fault = .notMap →
      ∃ message, fault.message? = some message ∧ IsRefused d fault.code message := by
    rintro hd rfl
    exact ⟨_, rfl, .notMap hd⟩
  cases d with
  | mapping entries => exact isRefused_of_ofValue_map (.mapping entries) h
  | value v =>
    cases v with
    | map members => exact isRefused_of_ofValue_map (.map members) h
    | _ => exact hroot nofun (Except.error.inj h).symm

/-- A document is read as a report exactly if it tells one, and then as the report that it tells.
Otherwise it is refused, with the code and the words for the first reason. -/
theorem ofDocument_format (d : Document) :
    (∀ r, ofDocument d = .ok r ↔ r.IsToldBy d) ∧
    ((∀ r : Report, ¬r.IsToldBy d) → ∃ fault message, ofDocument d = .error fault ∧
      fault.message? = some message ∧ IsRefused d fault.code message) := by
  refine ⟨fun r => ofDocument_eq_ok_iff, fun hnot => ?_⟩
  cases h : ofDocument d with
  | ok r => exact absurd (ofDocument_eq_ok_iff.mp h) (hnot r)
  | error fault =>
    obtain ⟨message, hmessage, hrefused⟩ := isRefused_of_ofDocument h
    exact ⟨fault, message, rfl, hmessage, hrefused⟩

/-- A mapping that is no map, with no summaries. -/
def emptyView : Document :=
  .mapping [(.text (Text.ofString "notices"), .list [])]

/-- A mapping that is no map is a report, and without its member it is refused for the lack of that
and not for its kind. -/
theorem ofDocument_emptyView :
    ofDocument emptyView = .ok ⟨[]⟩ ∧ (∀ members, emptyView ≠ .value (.map members)) ∧
      ofDocument (.mapping []) = .error .noticesMissing :=
  ⟨rfl, nofun, rfl⟩

end Report

end NoticeLedger
