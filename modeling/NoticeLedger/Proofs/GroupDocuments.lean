import NoticeLedger.Proofs.Exports
import NoticeLedger.Proofs.Reports

/-!
# Documents of groups

The document of groups can be written unless it holds an integer that is too long
(`documentText?_eq`), and its text is read as one summary for each group
(`ofText_documentText?`).
-/

namespace NoticeLedger

/-! ### Groups -/

/-- The summary that a group becomes. -/
def Group.summary (g : Group) : Summary :=
  ⟨g.key.code, g.key.severity, g.total.toNat, g.samples.map Value.ofJson⟩

namespace Group

theorem everywhere_toJson {p : Json → Prop} {g : Group} (hp : p g.toJson)
    (harr : p (.arr g.samples)) (hstr : ∀ s, p (.str (Text.ofString s))) (htotal : p (.int g.total))
    (hsamples : ∀ j ∈ g.samples, j.Everywhere p) : g.toJson.Everywhere p := by
  apply Json.Everywhere.intro hp
  intro k hk
  simp only [toJson, Json.children_obj, List.map_cons, List.map_nil, List.mem_cons,
    List.not_mem_nil, or_false] at hk
  rcases hk with rfl | rfl | rfl | rfl
  · exact .intro (hstr _) nofun
  · exact .intro (hstr _) nofun
  · exact .intro htotal nofun
  · exact .intro harr hsamples

theorem isProper_toJson {g : Group} (h : ∀ j ∈ g.samples, j.IsProper) : g.toJson.IsProper :=
  everywhere_toJson (by simp [toJson, Json.ProperHere, Json.names]) trivial (fun _ => trivial)
    trivial h

theorem isShort_toJson {g : Group} (htotal : Value.isConvertible g.total = true)
    (h : ∀ j ∈ g.samples, j.IsShort) : g.toJson.IsShort :=
  everywhere_toJson trivial trivial (fun _ => trivial) htotal h

theorem isLegible_toJson {g : Group} (htotal : Value.isConvertible g.total = true)
    (h : ∀ j ∈ g.samples, j.IsLegible) : g.toJson.IsLegible :=
  everywhere_toJson trivial trivial (fun _ => trivial) htotal h

theorem isSpelled_toJson {alphabet : Json.Alphabet} {g : Group}
    (h : ∀ j ∈ g.samples, j.IsSpelled alphabet) : g.toJson.IsSpelled alphabet := by
  refine everywhere_toJson ?_ trivial (fun _ _ => Json.spells_of_mem_ofString) trivial h
  simp only [toJson, Json.SpelledHere, List.forall_mem_cons]
  exact ⟨fun _ => Json.spells_of_mem_ofString, fun _ => Json.spells_of_mem_ofString,
    fun _ => Json.spells_of_mem_ofString, fun _ => Json.spells_of_mem_ofString, nofun⟩

/-- The member of a document for a group is read as its summary. -/
theorem ofValue_toJson {g : Group} (h : 0 ≤ g.total) :
    Summary.ofValue (Value.ofJson g.toJson) = .ok g.summary := by
  have hcode : Code.ofString g.key.code.text = .ok g.key.code := dif_neg g.key.code.text_ne
  have hseverity : Severity.ofName g.key.severity.name = .ok g.key.severity := by
    rw [Severity.ofName, Severity.ofName?_name]
  simp [toJson, summary, Value.ofJson, Summary.ofValue, Summary.readCode, Summary.readSeverity,
    Summary.readTotal, Summary.readContexts, Summary.spelled?, Fields.value?, Value.lookup?,
    Value.text?, Code.ofTextValue, Code.ofText, Severity.ofValue, hcode, hseverity, Except.mapError,
    Int.not_lt.mpr h]

end Group

/-! ### Documents -/

theorem everywhere_documentOf {p : Json → Prop} {groups : List Group} (hp : p (documentOf groups))
    (harr : p (.arr (groups.map Group.toJson))) (h : ∀ g ∈ groups, g.toJson.Everywhere p) :
    (documentOf groups).Everywhere p := by
  apply Json.Everywhere.intro hp
  intro k hk
  obtain rfl : k = .arr (groups.map Group.toJson) := by simpa [documentOf] using hk
  apply Json.Everywhere.intro harr
  intro j hj
  obtain ⟨g, hg, rfl⟩ := List.mem_map.mp hj
  exact h g hg

theorem isProper_documentOf {groups : List Group} (h : ∀ g ∈ groups, ∀ j ∈ g.samples, j.IsProper) :
    (documentOf groups).IsProper :=
  everywhere_documentOf (by simp [documentOf, Json.ProperHere, Json.names]) trivial
    fun g hg => Group.isProper_toJson (h g hg)

theorem isLegible_documentOf {groups : List Group}
    (hconvertible : ∀ g ∈ groups, Value.isConvertible g.total = true)
    (h : ∀ g ∈ groups, ∀ j ∈ g.samples, j.IsLegible) : (documentOf groups).IsLegible :=
  everywhere_documentOf trivial trivial
    fun g hg => Group.isLegible_toJson (hconvertible g hg) (h g hg)

theorem isSpelled_documentOf {alphabet : Json.Alphabet} {groups : List Group}
    (h : ∀ g ∈ groups, ∀ j ∈ g.samples, j.IsSpelled alphabet) :
    (documentOf groups).IsSpelled alphabet := by
  refine everywhere_documentOf ?_ trivial fun g hg => Group.isSpelled_toJson (h g hg)
  simp only [documentOf, Json.SpelledHere, List.forall_mem_cons]
  exact ⟨fun _ => Json.spells_of_mem_ofString, nofun⟩

/-- A document of groups can be written unless an integer in it is too long. -/
theorem documentText?_eq {groups : List Group}
    (hconvertible : ∀ g ∈ groups, Value.isConvertible g.total = true)
    (hproper : ∀ g ∈ groups, ∀ j ∈ g.samples, j.IsProper)
    (hshort : ∀ g ∈ groups, ∀ j ∈ g.samples, j.IsShort) :
    documentText? groups = .ok (Json.write .unicode (documentOf groups).sorted) := by
  apply Value.canonicalText?_ofJson (isProper_documentOf hproper)
  exact everywhere_documentOf trivial trivial
    fun g hg => Group.isShort_toJson (hconvertible g hg) (hshort g hg)

theorem exists_of_mem_groupsOf {shown : Nat} {ns : List Notice} {g : Group}
    (h : g ∈ groupsOf shown ns) :
    (∃ k, g.total = ((ns.filter fun n => n.key = k).length : Int)) ∧
      ∀ j ∈ g.samples, ∃ n ∈ ns, n.context = j := by
  rw [groupsOf, groupNotices_eq, List.map_map] at h
  obtain ⟨k, _, rfl⟩ := List.mem_map.mp h
  refine ⟨⟨k, rfl⟩, fun j hj => ?_⟩
  obtain ⟨n, hn, rfl⟩ := List.mem_map.mp (List.mem_of_mem_take hj)
  exact ⟨n, (List.mem_filter.mp hn).1, rfl⟩

/-- The document of notices has a text if their contexts can be written. -/
theorem exists_documentText?_groupsOf (shown : Nat) {ns : List Notice}
    (hcount : ∀ k, Value.isConvertible ((ns.filter fun n => n.key = k).length : Int) = true)
    (hcontext : ∀ n ∈ ns, n.context.IsProper ∧ n.context.IsShort) :
    ∃ text, documentText? (groupsOf shown ns) = .ok text := by
  refine ⟨_, documentText?_eq (fun g hg => ?_) (fun g hg j hj => ?_) fun g hg j hj => ?_⟩
  · obtain ⟨⟨k, htotal⟩, _⟩ := exists_of_mem_groupsOf hg
    rw [htotal]
    exact hcount k
  · obtain ⟨n, hn, rfl⟩ := (exists_of_mem_groupsOf hg).2 j hj
    exact (hcontext n hn).1
  · obtain ⟨n, hn, rfl⟩ := (exists_of_mem_groupsOf hg).2 j hj
    exact (hcontext n hn).2

theorem readSummaries_map_toJson {groups : List Group} (h : ∀ g ∈ groups, 0 ≤ g.total)
    (index : Nat) :
    Report.readSummaries index ((groups.map Group.toJson).map Value.ofJson)
      = .ok (groups.map Group.summary) := by
  induction groups generalizing index with
  | nil => rfl
  | cons g groups ih =>
    rw [List.map_cons, List.map_cons, Report.readSummaries,
      Group.ofValue_toJson (h g (List.mem_cons_self ..))]
    simp only
    rw [ih fun i hi => h i (List.mem_cons_of_mem _ hi)]
    rfl

theorem ofValue_documentOf {groups : List Group} (h : ∀ g ∈ groups, 0 ≤ g.total) :
    Report.ofValue (Value.ofJson (documentOf groups)) = .ok ⟨groups.map Group.summary⟩ := by
  have hsummaries := readSummaries_map_toJson h 0
  simp only [documentOf, Value.ofJson, Value.ofMembers_eq_map, List.map_cons, List.map_nil,
    Report.ofValue, Fields.value?, Value.lookup?, Value.text?, if_true, Value.ofJsons_eq_map]
  rw [hsummaries]
  rfl

/-- The text of a document of groups is read as the report of their summaries, contexts sorted. -/
theorem ofText_documentText? {groups : List Group} (htotal : ∀ g ∈ groups, 0 ≤ g.total)
    (hconvertible : ∀ g ∈ groups, Value.isConvertible g.total = true)
    (hproper : ∀ g ∈ groups, ∀ j ∈ g.samples, j.IsProper)
    (hlegible : ∀ g ∈ groups, ∀ j ∈ g.samples, j.IsLegible) :
    ∃ text, documentText? groups = .ok text ∧
      Report.ofText text = .ok (Report.sorted ⟨groups.map Group.summary⟩) := by
  have hdocument := isLegible_documentOf hconvertible hlegible
  have hshort : ∀ g ∈ groups, ∀ j ∈ g.samples, j.IsShort := fun g hg j hj =>
    (hlegible g hg j hj).isShort
  refine ⟨_, documentText?_eq hconvertible hproper hshort, ?_⟩
  rw [Report.ofText_write_sorted (isProper_documentOf hproper) hdocument,
    ofValue_documentOf htotal]
  rfl

end NoticeLedger
