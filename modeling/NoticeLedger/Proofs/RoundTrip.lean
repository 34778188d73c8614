import NoticeLedger.Proofs.GroupDocuments
import NoticeLedger.Proofs.NoticeFields

/-!
# From recorders to reports and back

The document of a recorder is written as text and read as a report. The report has one summary for
each counted key, in the order of the keys, with the count of the key and the contexts that the
document shows (`Recorder.IsSound.readsBack`). This holds of every recorder that calls lead to, as
they keep it sound.
-/

namespace NoticeLedger

/-! ### Error codes -/

theorem distinct_of_nodup {α : Type} [DecidableEq α] {xs : List α} (h : xs.Nodup) :
    distinct xs = xs := by
  induction xs with
  | nil => rfl
  | cons x xs ih =>
    obtain ⟨hx, hxs⟩ := List.nodup_cons.mp h
    rw [distinct, ih hxs, List.filter_eq_self.mpr]
    intro y hy
    apply decide_eq_true
    rintro rfl
    exact hx hy

/-- The codes of the errors among keys. -/
def errorCodesOf (ks : List Key) : List Code :=
  (ks.filter fun k => k.severity = .error).map (·.code)

theorem nodup_errorCodesOf {ks : List Key} (h : ks.Nodup) : (errorCodesOf ks).Nodup := by
  apply List.Nodup.map_on _ (h.filter _)
  intro a ha b hb hcode
  have hseverity : a.severity = b.severity := by
    rw [of_decide_eq_true (List.mem_filter.mp ha).2, of_decide_eq_true (List.mem_filter.mp hb).2]
  cases a
  cases b
  congr

theorem errorCodes_of_keys {r : Report} {ks : List Key} {f : Key → Summary}
    (hr : r.summaries = ks.map f) (hf : ∀ k, (f k).code = k.code ∧ (f k).severity = k.severity)
    (h : ks.Nodup) : r.errorCodes = errorCodesOf ks := by
  have hcodes : (r.summaries.filter (·.isError)).map (·.code) = errorCodesOf ks := by
    rw [hr, List.filter_map, List.map_map, errorCodesOf]
    have hfilter : (ks.filter ((·.isError) ∘ f)) = ks.filter fun k => k.severity = .error := by
      apply List.filter_congr
      intro k _
      rw [Function.comp_apply, Summary.isError, (hf k).2]
      cases k.severity <;> rfl
    rw [hfilter]
    exact List.map_congr_left fun k _ => (hf k).1
  rw [Report.errorCodes, hcodes, distinct_of_nodup (nodup_errorCodesOf h)]

/-! ### Recorders -/

namespace Recorder

/-- What the report of a recorder tells of a key. -/
def summaryOf (r : Recorder) (k : Key) : Summary :=
  ⟨k.code, k.severity, r.tally.count k, (r.samplesOf k).map Value.ofJson⟩

/-- What a document of the recorder shows are numbers that are read back. -/
structure IsLegible (r : Recorder) : Prop where
  counts : ∀ k ∈ r.tally.keys, Value.isConvertible (r.tally.count k) = true
  samples : ∀ k ∈ r.tally.keys, ∀ j ∈ r.samplesOf k, j.IsLegible

variable {r : Recorder}

theorem IsSound.isNormal_of_mem_samplesOf (h : r.IsSound) {k : Key} :
    ∀ j ∈ r.samplesOf k, j.IsNormal := by
  intro j hj
  obtain ⟨n, hn, rfl⟩ := List.mem_map.mp (List.mem_of_mem_take hj)
  exact h.normal n (List.mem_filter.mp hn).1

theorem IsSound.sorted_summaryOf (h : r.IsSound) (k : Key) :
    (r.summaryOf k).sorted = r.summaryOf k := by
  have hcontexts : ((r.samplesOf k).map Value.ofJson).map Value.sorted
      = (r.samplesOf k).map Value.ofJson := by
    rw [List.map_map]
    apply List.map_congr_left
    intro j hj
    rw [Function.comp_apply, Value.sorted_ofJson,
      Json.sorted_of_isNormal (h.isNormal_of_mem_samplesOf j hj)]
  rw [Summary.sorted, summaryOf, hcontexts]

/-- The document of a sound recorder is written and read back as one summary for each counted
key. -/
theorem IsSound.readsBack (h : r.IsSound) (hlegible : r.IsLegible) :
    ∃ groups text, r.exportValidation = .ok groups ∧ documentText? groups = .ok text ∧
      Report.ofText text = .ok ⟨(Key.sort r.tally.keys).map r.summaryOf⟩ := by
  have hexport := exportValidation_eq h
  generalize hgroups : ((Key.sort r.tally.keys).map fun k =>
    (⟨k, r.tally.count k, r.samplesOf k⟩ : Group)) = groups at hexport
  have hgroup : ∀ g ∈ groups, ∃ k ∈ r.tally.keys, g = ⟨k, r.tally.count k, r.samplesOf k⟩ := by
    intro g hg
    rw [← hgroups] at hg
    obtain ⟨k, hk, rfl⟩ := List.mem_map.mp hg
    exact ⟨k, Key.mem_sort.mp hk, rfl⟩
  obtain ⟨text, htext, hread⟩ : ∃ text, documentText? groups = .ok text ∧
      Report.ofText text = .ok (Report.sorted ⟨groups.map Group.summary⟩) := by
    apply ofText_documentText?
    · intro g hg
      obtain ⟨k, _, rfl⟩ := hgroup g hg
      exact Int.natCast_nonneg _
    · intro g hg
      obtain ⟨k, hk, rfl⟩ := hgroup g hg
      exact hlegible.counts k hk
    · intro g hg
      obtain ⟨k, _, rfl⟩ := hgroup g hg
      exact fun j hj => (h.isNormal_of_mem_samplesOf j hj).isProper
    · intro g hg
      obtain ⟨k, hk, rfl⟩ := hgroup g hg
      exact hlegible.samples k hk
  have hsummaries : (groups.map Group.summary).map Summary.sorted
      = (Key.sort r.tally.keys).map r.summaryOf := by
    rw [← hgroups, List.map_map, List.map_map]
    exact List.map_congr_left fun k _ => h.sorted_summaryOf k
  refine ⟨groups, text, hexport, htext, ?_⟩
  rw [hread, Report.sorted, hsummaries]

end Recorder

namespace Roster

/-- Whatever calls lead to a recorder, its document is written and read back as a report with one
summary for each counted key, in strictly ascending order of their tokens. -/
theorem exists_report_of_mem_performAll {s : Roster} (hnew : s.IsNew) {cs : List Call}
    (hbuilt : ∀ c ∈ cs, ∀ n, c.notice? = some n → n.IsBuilt) {r : Recorder}
    (hr : r ∈ (s.performAll cs).recorders) (hlegible : r.IsLegible) :
    ∃ groups text report, r.exportValidation = .ok groups ∧ documentText? groups = .ok text ∧
      Report.ofText text = .ok report ∧
      ∃ ks : List Key, (∀ k, k ∈ ks ↔ k ∈ r.tally.keys) ∧
        (ks.Pairwise fun a b => Text.lt (Text.ofString a.token) (Text.ofString b.token) = true) ∧
        report.summaries = ks.map (fun k => ⟨k.code, k.severity, r.tally.count k,
          (((r.retained.toList.filter fun n => n.key = k).map (·.context)).take
            r.limits.samples).map Value.ofJson⟩) ∧
        report.errorCodes = (ks.filter fun k => k.severity = .error).map (·.code) := by
  have hsound := Recorder.invariant_isSound.of_mem_performAll hnew hbuilt r hr
  obtain ⟨groups, text, hexport, htext, hread⟩ := hsound.readsBack hlegible
  have hascending := Key.pairwise_sort r.tally.nodup_keys
  have hnodup : (Key.sort r.tally.keys).Nodup :=
    (List.mergeSort_perm r.tally.keys Key.le).nodup_iff.mpr r.tally.nodup_keys
  refine ⟨groups, text, _, hexport, htext, hread, Key.sort r.tally.keys, fun k => Key.mem_sort,
    hascending.imp Key.lt_iff.mp, rfl, ?_⟩
  exact errorCodes_of_keys rfl (fun k => ⟨rfl, rfl⟩) hnodup

/-- Two recorders, of which the second keeps nothing. -/
def desk : Roster :=
  (({ } : Roster).openRecorder ⟨3, 1, 2⟩).openRecorder ⟨3, 0, 2⟩

/-- A context with numbers of both kinds and a text that has to be escaped. -/
def remark : Json :=
  .obj [(Text.ofString "detail",
    .arr [.float 1.5, .bool true, .int 1, .str [.char '\x01', .char '\x22', .char 'é']])]

/-- An error that is kept once and counted twice. -/
def missingTitle : ValidationNotice := ⟨⟨"title_missing", by decide⟩, .error, remark⟩

/-- A warning that no recorder of the desk keeps. -/
def unusedField : ValidationNotice := ⟨⟨"field_unused", by decide⟩, .warning, .obj []⟩

/-- A run in which a notice is dropped and a recorder is merged. -/
def inspection : List Call :=
  [.addValidation 0 (.validation missingTitle), .addValidation 0 (.validation missingTitle),
    .addValidation 1 (.validation unusedField), .merge 1 0]

theorem everywhere_remark {p : Json → Prop} (hobj : p remark) (harr : ∀ items, p (.arr items))
    (hfloat : p (.float 1.5)) (hbool : p (.bool true)) (hint : p (.int 1))
    (hstr : ∀ t, p (.str t)) : remark.Everywhere p := by
  apply Json.Everywhere.intro hobj
  intro k hk
  obtain rfl := List.mem_singleton.mp hk
  apply Json.Everywhere.intro (harr _)
  intro j hj
  simp only [Json.children_arr, List.mem_cons, List.not_mem_nil, or_false] at hj
  rcases hj with rfl | rfl | rfl | rfl
  · exact .intro hfloat nofun
  · exact .intro hbool nofun
  · exact .intro hint nofun
  · exact .intro (hstr _) nofun

theorem exists_report_inspection :
    desk.IsNew ∧ (∀ c ∈ inspection, ∀ n, c.notice? = some n → n.IsBuilt) ∧
    ∃ r ∈ (desk.performAll inspection).recorders, r.IsLegible ∧
      ∃ groups text report, r.exportValidation = .ok groups ∧ documentText? groups = .ok text ∧
        Report.ofText text = .ok report ∧
        (∃ s ∈ report.summaries, s.code.text = "title_missing" ∧ s.total = 2 ∧
          s.contexts = [Value.ofJson remark]) ∧
        ∃ s ∈ report.summaries, s.code.text = "field_unused" ∧ s.total = 1 ∧ s.contexts = [] := by
  have hnew : desk.IsNew := by simp [desk]
  have hfinite : (1.5 : Float).isFinite = true := by decide +kernel
  have hexact : readDouble? (exactText 1.5) = some 1.5 := by decide +kernel
  have hone : Value.isConvertible 1 = true := by decide
  have hnormal : remark.IsNormal :=
    everywhere_remark (List.pairwise_singleton ..) (fun _ => trivial) hfinite trivial trivial
      fun _ => trivial
  have hremark : remark.IsLegible :=
    everywhere_remark trivial (fun _ => trivial) hexact trivial hone fun _ => trivial
  have hbuilt : ∀ c ∈ inspection, ∀ n, c.notice? = some n → n.IsBuilt := by
    have hmissing : (Notice.validation missingTitle).IsBuilt := Notice.isBuilt_of_isNormal hnormal
    have hunused : (Notice.validation unusedField).IsBuilt :=
      Notice.isBuilt_of_isNormal (.intro List.Pairwise.nil nofun)
    simp [inspection, Call.notice?, hmissing, hunused]
  obtain ⟨r, hr, hretained, hkeys, hmissing, hunused, hsamples⟩ :
      ∃ r ∈ (desk.performAll inspection).recorders, r.retained.toList = [missingTitle] ∧
        r.tally.keys = [unusedField.key, missingTitle.key] ∧
        r.tally.count missingTitle.key = 2 ∧ r.tally.count unusedField.key = 1 ∧
        r.limits.samples = 2 := by
    refine ⟨(desk.performAll inspection).recorders[1], List.getElem_mem _, rfl, ?_⟩
    decide +kernel
  have hlegible : r.IsLegible := by
    constructor
    · rw [hkeys]
      simp only [List.mem_cons, List.not_mem_nil, or_false, forall_eq_or_imp, forall_eq, hmissing,
        hunused]
      decide
    · intro k _ j hj
      obtain ⟨n, hn, rfl⟩ := List.mem_map.mp (List.mem_of_mem_take hj)
      rw [hretained] at hn
      obtain rfl := List.mem_singleton.mp (List.mem_filter.mp hn).1
      exact hremark
  obtain ⟨groups, text, report, hexport, htext, hread, ks, hks, -, hsummaries, -⟩ :=
    exists_report_of_mem_performAll hnew hbuilt hr hlegible
  refine ⟨hnew, hbuilt, r, hr, hlegible, groups, text, report, hexport, htext, hread, ?_, ?_⟩
  · have hk : missingTitle.key ∈ ks := (hks _).mpr (by simp [hkeys])
    rw [hsummaries]
    refine ⟨_, List.mem_map_of_mem hk, rfl, hmissing, ?_⟩
    rw [hretained, hsamples]
    rfl
  · have hk : unusedField.key ∈ ks := (hks _).mpr (by simp [hkeys])
    rw [hsummaries]
    refine ⟨_, List.mem_map_of_mem hk, rfl, hunused, ?_⟩
    rw [hretained, hsamples]
    rfl

end Roster

end NoticeLedger
