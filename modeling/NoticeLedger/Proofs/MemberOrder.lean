import NoticeLedger.Proofs.GroupDocuments
import NoticeLedger.Proofs.Json.Reordering
import NoticeLedger.Proofs.Outcomes
import NoticeLedger.Proofs.ReportFormat

/-!
# Reports and the order of members

What is read off a document does not depend on the order of members, in the document itself or
anywhere inside it (`Report.sameReading_of_reordered`): either the reports tell the same, up to the
order of members in contexts, or the same fault is found. A document is also read like this through
its canonical text, which is the same for all of its reorderings
(`Report.sameReading_canonicalText`).
-/

namespace NoticeLedger

/-! ### JSON values among values -/

namespace Value

theorem ofJson_injective {j k : Json} (h : ofJson j = ofJson k) : j = k := by
  induction j using Json.induction_on generalizing k with
  | step j ih =>
    cases j with
    | null => cases k with
      | null => rfl
      | _ => cases h
    | bool b => cases k with
      | bool c => exact congrArg Json.bool (bool.inj h)
      | _ => cases h
    | int n => cases k with
      | int m => exact congrArg Json.int (int.inj h)
      | _ => cases h
    | float x => cases k with
      | float y => exact congrArg Json.float (float.inj h)
      | _ => cases h
    | str t => cases k with
      | str u => exact congrArg Json.str (text.inj h)
      | _ => cases h
    | arr items => cases k with
      | arr items' =>
        have hitems := list.inj h
        rw [ofJsons_eq_map, ofJsons_eq_map] at hitems
        exact congrArg Json.arr (eq_of_map_eq_map (fun i hi _ => ih i hi) hitems)
      | _ => cases h
    | obj ms => cases k with
      | obj ns =>
        have hmembers := map.inj h
        rw [ofMembers_eq_map, ofMembers_eq_map] at hmembers
        refine congrArg Json.obj (eq_of_map_eq_map (fun m hm n hmn => ?_) hmembers)
        obtain ⟨hname, hvalue⟩ := Prod.mk.inj hmn
        exact Prod.ext (text.inj hname) (ih m.2 (Json.mem_children_obj hm) hvalue)
      | _ => cases h

/-- Values that are JSON values and differ only in the order of members. -/
def Reordered (v w : Value) : Prop :=
  ∃ j k, v = ofJson j ∧ w = ofJson k ∧ j.Reordered k

end Value

/-! ### Reports of JSON values -/

/-- The contexts of the summary are JSON values. -/
def Summary.HoldsJson (s : Summary) : Prop :=
  ∃ js : List Json, s.contexts = js.map Value.ofJson

theorem Fields.exists_of_value?_ofMembers {name : String} {ms : List (Text × Json)} {v : Value}
    (h : Fields.value? name (Value.ofMembers ms) = some v) : ∃ k, v = Value.ofJson k := by
  rw [Fields.value?, Value.lookup?_ofMembers] at h
  obtain ⟨m, _, rfl⟩ := Option.map_eq_some_iff.mp h
  exact ⟨m.2, rfl⟩

theorem Fields.exists_of_either?_ofMembers {first second : String} {ms : List (Text × Json)}
    {v : Value} (h : Fields.either? first second (Value.ofMembers ms) = some v) :
    ∃ k, v = Value.ofJson k := by
  rw [Fields.either?, Option.or_eq_some_iff] at h
  rcases h with hfirst | ⟨_, hsecond⟩
  · exact exists_of_value?_ofMembers hfirst
  · exact exists_of_value?_ofMembers hsecond

theorem Summary.IsDescribedBy.holdsJson {s : Summary} {j : Json}
    (h : s.IsDescribedBy (Value.ofJson j)) : s.HoldsJson := by
  obtain ⟨members, hj, htells⟩ := h
  cases j with
  | obj ms =>
    obtain rfl := Value.map.inj hj
    rcases htells .contexts with ⟨_, hnone⟩ | ⟨v, hv, hsome⟩
    · exact ⟨[], hnone⟩
    · obtain ⟨k, rfl⟩ := Fields.exists_of_either?_ofMembers hsome
      cases k with
      | arr items =>
        have hlist : Value.ofJson (.arr items) = .list s.contexts := by
          simpa [Value.ofJson] using hv
        exact ⟨items, by simpa [Value.ofJson, eq_comm] using hlist⟩
      | _ => simp [Value.ofJson] at hv
  | _ => cases hj

theorem Report.IsDescribedBy.holdsJson {r : Report} {j : Json}
    (h : r.IsDescribedBy (Value.ofJson j)) : ∀ s ∈ r.summaries, s.HoldsJson := by
  obtain ⟨members, items, hj, hitems, hsummaries⟩ := h
  cases j with
  | obj ms =>
    obtain rfl := Value.map.inj hj
    obtain ⟨k, hk⟩ := Fields.exists_of_value?_ofMembers hitems
    cases k with
    | arr js =>
      have hjs := Value.list.inj hk
      rw [Value.ofJsons_eq_map] at hjs
      subst hjs
      have heach : List.Forall₂ (fun s i => s.HoldsJson ∧ s.IsDescribedBy (Value.ofJson i))
          r.summaries js :=
        (List.forall₂_map_right_iff.mp hsummaries).imp fun s i hs => ⟨hs.holdsJson, hs⟩
      exact ((List.forall₂_and_left _ _).mp heach).1
    | _ => cases hk
  | _ => cases hj

/-! ### The same reading -/

/-- The summaries tell the same, except for the order of members in contexts. -/
structure Summary.Alike (s t : Summary) : Prop where
  code : s.code = t.code
  severity : s.severity = t.severity
  total : s.total = t.total
  contexts : List.Forall₂ Value.Reordered s.contexts t.contexts

/-- Two readings come to the same end: with reports whose summaries tell the same one by one and
whose error codes are equal, or with the same fault, and so with the same code and words. -/
inductive Report.SameReading {ε : Type} : Except ε Report → Except ε Report → Prop where
  | report {r s : Report} (summaries : List.Forall₂ Summary.Alike r.summaries s.summaries)
      (errorCodes : r.errorCodes = s.errorCodes) : SameReading (.ok r) (.ok s)
  | fault (e : ε) : SameReading (.error e) (.error e)

namespace Summary

theorem Alike.of_sorted_eq {s t : Summary} (hs : s.HoldsJson) (ht : t.HoldsJson)
    (h : s.sorted = t.sorted) : s.Alike t := by
  obtain ⟨js, hjs⟩ := hs
  obtain ⟨ks, hks⟩ := ht
  obtain ⟨hcode, hseverity, htotal, hcontexts⟩ := Summary.mk.inj h
  refine ⟨hcode, hseverity, htotal, ?_⟩
  have hsorted : js.map Json.sorted = ks.map Json.sorted := by
    apply List.map_injective_iff.mpr fun _ _ => Value.ofJson_injective
    rw [hjs, hks] at hcontexts
    simpa [Function.comp_def, Value.sorted_ofJson] using hcontexts
  rw [hjs, hks, List.forall₂_map_left_iff, List.forall₂_map_right_iff]
  refine forall₂_of_map_eq hsorted fun j _ k hjk => ?_
  exact ⟨j, k, rfl, rfl, .of_sorted_eq hjk⟩

theorem errorCodes_eq_of_alike {ss ts : List Summary} (h : List.Forall₂ Alike ss ts) :
    Report.errorCodes ⟨ss⟩ = Report.errorCodes ⟨ts⟩ := by
  have hcodes : (ss.filter (·.isError)).map (·.code) = (ts.filter (·.isError)).map (·.code) := by
    induction h with
    | nil => rfl
    | @cons s t ss ts hst _ ih =>
      have herror : s.isError = t.isError := by
        rw [isError, isError, hst.severity]
      rw [List.filter_cons, List.filter_cons, herror]
      split
      · rw [List.map_cons, List.map_cons, hst.code, ih]
      · exact ih
  rw [Report.errorCodes, Report.errorCodes, hcodes]

end Summary

namespace Report

theorem SameReading.mapError {ε ε' : Type} {outcome outcome' : Except ε Report}
    (h : SameReading outcome outcome') (f : ε → ε') :
    SameReading (outcome.mapError f) (outcome'.mapError f) := by
  cases h with
  | report hsummaries hcodes => exact .report hsummaries hcodes
  | fault e => exact .fault (f e)

theorem sameReading_of_sorted_eq {outcome outcome' : Except ReportFault Report}
    (hjson : ∀ r, outcome = .ok r → ∀ s ∈ r.summaries, s.HoldsJson)
    (hjson' : ∀ r, outcome' = .ok r → ∀ s ∈ r.summaries, s.HoldsJson)
    (h : outcome.map sorted = outcome'.map sorted) : SameReading outcome outcome' := by
  cases outcome with
  | error e => cases outcome' with
    | error e' =>
      obtain rfl := Except.error.inj h
      exact .fault e
    | ok r => cases h
  | ok r => cases outcome' with
    | error e => cases h
    | ok r' =>
      have hsummaries : List.Forall₂ (fun s t => s.sorted = t.sorted) r.summaries r'.summaries :=
        forall₂_of_map_eq (congrArg summaries (Except.ok.inj h)) fun _ _ _ => id
      have halike : List.Forall₂ Summary.Alike r.summaries r'.summaries := by
        rw [List.forall₂_iff_zip] at hsummaries ⊢
        refine ⟨hsummaries.1, fun {s t} hst => ?_⟩
        obtain ⟨hs, ht⟩ := List.of_mem_zip hst
        exact .of_sorted_eq (hjson r rfl s hs) (hjson' r' rfl t ht) (hsummaries.2 hst)
      exact .report halike (Summary.errorCodes_eq_of_alike halike)

variable {j k : Json}

theorem sameReading_of_reordered (hj : j.IsProper) (h : j.Reordered k) :
    SameReading (ofValue (Value.ofJson j)) (ofValue (Value.ofJson k)) := by
  have hk := hj.of_reordered h
  have hjson : ∀ i : Json, ∀ r, ofValue (Value.ofJson i) = .ok r → ∀ s ∈ r.summaries, s.HoldsJson :=
    fun i r hr => (ofValue_eq_ok_iff.mp hr).holdsJson
  apply sameReading_of_sorted_eq (hjson j) (hjson k)
  rw [← ofValue_sorted hj, ← ofValue_sorted hk, h.sorted_eq hj]

/-- A document is read through its canonical text as it is read itself. Its reorderings have the
same text and are read alike. -/
theorem sameReading_canonicalText (hproper : j.IsProper) (hlegible : j.IsLegible) :
    ∃ text, (Value.ofJson j).canonicalText? = .ok text ∧
      SameReading (ofText text) ((ofValue (Value.ofJson j)).mapError .malformed) ∧
      ∀ k, j.Reordered k → (Value.ofJson k).canonicalText? = .ok text ∧
        SameReading (ofValue (Value.ofJson j)) (ofValue (Value.ofJson k)) := by
  refine ⟨_, Value.canonicalText?_ofJson hproper hlegible.isShort, ?_, fun k h => ⟨?_, ?_⟩⟩
  · have hread : ofText (Json.write .unicode j.sorted)
        = (ofValue (Value.ofJson j.sorted)).mapError .malformed := by
      rw [ofText, Value.read_canonicalText hproper hlegible]
    rw [hread]
    have hsorted := (Json.Reordered.sorted j).symm
    exact (sameReading_of_reordered hproper.sorted hsorted).mapError _
  · rw [h.sorted_eq hproper]
    exact Value.canonicalText?_ofJson (hproper.of_reordered h) (hlegible.isShort.of_reordered h)
  · exact sameReading_of_reordered hproper h

/-- A context with numbers of both kinds. -/
def share : List (Text × Json) :=
  [(Text.ofString "row", .int 1), (Text.ofString "share", .float 0.5)]

/-- A group with this context. -/
def shares : List Group := [⟨⟨⟨"share_low", by decide⟩, .error⟩, 2, [.obj share]⟩]

/-- The document of the group, the members of its summary and of the context the other way round. -/
def turned : Json :=
  .obj [(Text.ofString "notices", .arr
    [.obj
      [(Text.ofString "notices", .arr [.obj share.reverse]),
        (Text.ofString "totalNotices", .int 2),
        (Text.ofString "severity", .str (Text.ofString "ERROR")),
        (Text.ofString "code", .str (Text.ofString "share_low"))]])]

theorem everywhere_share {p : Json → Prop} (hobj : p (.obj share)) (hint : p (.int 1))
    (hfloat : p (.float 0.5)) : (Json.obj share).Everywhere p := by
  apply Json.Everywhere.intro hobj
  simp only [share, Json.children_obj, List.map_cons, List.map_nil, List.mem_cons,
    List.not_mem_nil, or_false, forall_eq_or_imp, forall_eq]
  exact ⟨.intro hint nofun, .intro hfloat nofun⟩

theorem sameReading_shares :
    (documentOf shares).IsProper ∧ (documentOf shares).IsLegible ∧
    (documentOf shares).Reordered turned ∧
    ∃ text r s, (Value.ofJson (documentOf shares)).canonicalText? = .ok text ∧
      (Value.ofJson turned).canonicalText? = .ok text ∧ ofText text = .ok r ∧
      ofValue (Value.ofJson turned) = .ok s ∧
      List.Forall₂ Summary.Alike r.summaries (shares.map Group.summary) ∧
      List.Forall₂ Summary.Alike (shares.map Group.summary) s.summaries ∧
      s.errorCodes.map (·.text) = ["share_low"] := by
  have hfinite : (0.5 : Float).isFinite = true := by decide +kernel
  have hexact : readDouble? (exactText 0.5) = some 0.5 := by decide +kernel
  have hproper : (documentOf shares).IsProper := by
    have hnames : (Json.names share).Nodup := by decide
    have hshare : (Json.obj share).IsProper := everywhere_share hnames trivial hfinite
    apply isProper_documentOf
    simp [shares, hshare]
  have hlegible : (documentOf shares).IsLegible := by
    have hone : Value.isConvertible 1 = true := by decide
    have htwo : Value.isConvertible 2 = true := by decide
    have hshare : (Json.obj share).IsLegible := everywhere_share trivial hone hexact
    apply isLegible_documentOf
    · simp [shares, htwo]
    · simp [shares, hshare]
  have hturned : (documentOf shares).Reordered turned := by
    have hcontext : (Json.obj share).Reordered (.obj share.reverse) :=
      .members (List.reverse_perm share).symm
    have hvalues := Json.Reordered.value
      [(Text.ofString "code", .str (Text.ofString "share_low")),
        (Text.ofString "severity", .str (Text.ofString "ERROR")),
        (Text.ofString "totalNotices", .int 2)]
      [] (Text.ofString "notices") (.item [] [] hcontext)
    exact .value [] [] _ (.item [] [] (hvalues.trans (.members (List.reverse_perm _).symm)))
  obtain ⟨text, htext, hread, hreorder⟩ := sameReading_canonicalText hproper hlegible
  obtain ⟨htext', hread'⟩ := hreorder turned hturned
  have hvalue : ofValue (Value.ofJson (documentOf shares)) = .ok ⟨shares.map Group.summary⟩ := by
    apply ofValue_documentOf
    simp [shares]
  rw [hvalue] at hread hread'
  refine ⟨hproper, hlegible, hturned, text, ?_⟩
  generalize hr : ofText text = outcome at hread
  generalize hs : ofValue (Value.ofJson turned) = outcome' at hread'
  cases hread with
  | report halike _ =>
    cases hread' with
    | report halike' hcodes =>
      refine ⟨_, _, htext, htext', rfl, rfl, halike, halike', ?_⟩
      rw [← hcodes]
      rfl

end Report

end NoticeLedger
