import NoticeLedger.Proofs.Differences
import NoticeLedger.Proofs.GroupDocuments
import NoticeLedger.Proofs.ReportFormat

/-!
# The order of error codes

The error codes of a report stand in the order in which the report first tells of an error with
them (`Report.idxOf_lt_iff`). Summaries of other severities do not count, wherever they stand. A
document with the notices of two others has the error codes of the first one and then those that
only the second one has (`Report.errorCodes_in_order`).
-/

namespace NoticeLedger

/-! ### First places -/

section Lists

variable {α : Type} {x a b : α} {xs : List α}

theorem findIdx_cons_lt_iff {f g : α → Bool} : (x :: xs).findIdx f < (x :: xs).findIdx g ↔
    g x = false ∧ (f x = true ∨ xs.findIdx f < xs.findIdx g) := by
  rw [List.findIdx_cons, List.findIdx_cons]
  cases f x <;> cases g x <;> grind

variable [DecidableEq α]

theorem idxOf_cons_lt_iff : (x :: xs).idxOf a < (x :: xs).idxOf b ↔
    x ≠ b ∧ (x = a ∨ xs.idxOf a < xs.idxOf b) := by
  have h : (x :: xs).findIdx (· == a) < (x :: xs).findIdx (· == b) ↔
      (x == b) = false ∧ ((x == a) = true ∨ xs.findIdx (· == a) < xs.findIdx (· == b)) :=
    findIdx_cons_lt_iff
  rwa [beq_eq_false_iff_ne, beq_iff_eq] at h

/-- What is left of a list stands in the order in which it has stood. -/
theorem idxOf_filter_lt_iff {f : α → Bool} (ha : f a = true) (hb : f b = true) (xs : List α) :
    (xs.filter f).idxOf a < (xs.filter f).idxOf b ↔ xs.idxOf a < xs.idxOf b := by
  induction xs with
  | nil => rfl
  | cons x xs ih =>
    cases hx : f x with
    | true => rw [List.filter_cons_of_pos hx, idxOf_cons_lt_iff, idxOf_cons_lt_iff, ih]
    | false =>
      have hne : ∀ c, f c = true → x ≠ c := by
        rintro c hc rfl
        rw [hx] at hc
        cases hc
      rw [List.filter_cons_of_neg (by simp [hx]), idxOf_cons_lt_iff, ih]
      simp [hne a ha, hne b hb]

/-- Behind the elements of a first list stand those of a second one that the first one has not. -/
theorem distinct_append (xs ys : List α) :
    distinct (xs ++ ys) = distinct xs ++ (distinct ys).filter (· ∉ distinct xs) := by
  induction xs with
  | nil => simp [distinct]
  | cons x xs ih =>
    rw [List.cons_append, distinct, ih, distinct, List.filter_append, List.filter_filter,
      List.cons_append]
    congr 2
    apply List.filter_congr
    intro y _
    by_cases hy : y = x <;> simp [hy]

end Lists

namespace Report

variable {r q : Report} {s : Summary} {ss : List Summary} {c d : Code}

/-- The place of the first summary that tells of an error with a code, behind all summaries if there
is none. -/
def firstError (r : Report) (c : Code) : Nat :=
  r.summaries.findIdx fun s => s.isError && s.code == c

theorem errorCodes_cons : errorCodes ⟨s :: ss⟩
    = if s.isError then s.code :: (errorCodes ⟨ss⟩).filter (· ≠ s.code) else errorCodes ⟨ss⟩ := by
  rw [errorCodes, List.filter_cons]
  split <;> rfl

theorem firstError_cons_lt_iff : firstError ⟨s :: ss⟩ c < firstError ⟨s :: ss⟩ d ↔
    (s.isError && s.code == d) = false ∧
      ((s.isError && s.code == c) = true ∨ firstError ⟨ss⟩ c < firstError ⟨ss⟩ d) :=
  findIdx_cons_lt_iff

/-- Of two codes the one with the earlier first error stands in front. -/
theorem idxOf_lt_iff (r : Report) (c d : Code) :
    r.errorCodes.idxOf c < r.errorCodes.idxOf d ↔ r.firstError c < r.firstError d := by
  obtain ⟨ss⟩ := r
  induction ss with
  | nil => rfl
  | cons s ss ih =>
    rw [errorCodes_cons, firstError_cons_lt_iff]
    cases hs : s.isError with
    | false => simpa using ih
    | true =>
      rw [if_pos rfl, idxOf_cons_lt_iff]
      by_cases hd : s.code = d
      · simp [hd]
      · by_cases hc : s.code = c
        · simp [hc]
        · rw [idxOf_filter_lt_iff, ih]
          · simp [hc, hd]
          · simpa using Ne.symm hc
          · simpa using Ne.symm hd

theorem hasErrorCode_iff {code : String} :
    r.hasErrorCode code = true ↔ ∃ c ∈ r.errorCodes, c.text = code := by
  simp only [hasErrorCode, List.any_eq_true, beq_iff_eq]

/-! ### Joined documents -/

/-- The document is a map with the given list of notices. -/
def HasNotices (document : Value) (items : List Value) : Prop :=
  ∃ members, document = .map members ∧ Fields.value? "notices" members = some (.list items)

/-- A document has the notices of one document and behind them those of another one. -/
def Joins (both first second : Value) : Prop :=
  ∃ items items', HasNotices first items ∧ HasNotices second items' ∧
    HasNotices both (items ++ items')

variable {first second both : Value}

theorem HasNotices.ofValue_eq_ok_iff {items : List Value} (h : HasNotices first items) :
    ofValue first = .ok r ↔ List.Forall₂ Summary.IsDescribedBy r.summaries items := by
  obtain ⟨members, rfl, hitems⟩ := h
  rw [Report.ofValue_eq_ok_iff]
  constructor
  · rintro ⟨_, items', hmembers, hitems', hall⟩
    cases hmembers
    rw [hitems] at hitems'
    cases hitems'
    exact hall
  · intro hall
    exact ⟨members, items, rfl, hitems, hall⟩

theorem Joins.ofValue_eq (h : Joins both first second) (hfirst : ofValue first = .ok r)
    (hsecond : ofValue second = .ok q) : ofValue both = .ok ⟨r.summaries ++ q.summaries⟩ := by
  obtain ⟨items, items', hitems, hitems', hboth⟩ := h
  rw [hboth.ofValue_eq_ok_iff]
  exact List.rel_append (hitems.ofValue_eq_ok_iff.mp hfirst) (hitems'.ofValue_eq_ok_iff.mp hsecond)

theorem hasNotices_documentOf (groups : List Group) :
    HasNotices (Value.ofJson (documentOf groups)) ((groups.map Group.toJson).map Value.ofJson) := by
  rw [documentOf, Value.ofJson, Value.ofMembers_eq_map]
  refine ⟨_, rfl, ?_⟩
  rw [← Value.ofJsons_eq_map, ← Value.ofJson]
  rfl

theorem joins_documentOf (groups others : List Group) :
    Joins (Value.ofJson (documentOf (groups ++ others))) (Value.ofJson (documentOf groups))
      (Value.ofJson (documentOf others)) := by
  refine ⟨_, _, hasNotices_documentOf groups, hasNotices_documentOf others, ?_⟩
  rw [← List.map_append, ← List.map_append]
  exact hasNotices_documentOf (groups ++ others)

/-- A second report adds the error codes that the first one has not. -/
theorem errorCodes_append (r q : Report) : errorCodes ⟨r.summaries ++ q.summaries⟩
    = r.errorCodes ++ q.errorCodes.filter (· ∉ r.errorCodes) := by
  rw [errorCodes, List.filter_append, List.map_append, distinct_append]
  rfl

/-- The error codes of a report are those with which it tells of errors, once each, and one stands
before another one exactly if the report tells earlier of an error with it. A report has exactly
these error codes. Behind the error codes of one document, those that another document adds stand in
the order in which they stand there. -/
theorem errorCodes_in_order (r : Report) :
    r.errorCodes.Nodup ∧
    (∀ c, c ∈ r.errorCodes ↔ ∃ s ∈ r.summaries, s.severity = .error ∧ s.code = c) ∧
    (∀ c d, r.errorCodes.idxOf c < r.errorCodes.idxOf d ↔ r.firstError c < r.firstError d) ∧
    (∀ code, r.hasErrorCode code = true ↔ ∃ c ∈ r.errorCodes, c.text = code) ∧
    ∀ first second both q, ofValue first = .ok r → ofValue second = .ok q →
      Joins both first second → ∃ p, ofValue both = .ok p ∧
        p.errorCodes = r.errorCodes ++ q.errorCodes.filter (· ∉ r.errorCodes) := by
  refine ⟨r.nodup_errorCodes, fun _ => mem_errorCodes, r.idxOf_lt_iff, fun _ => hasErrorCode_iff,
    fun first second both q hfirst hsecond hboth => ?_⟩
  exact ⟨_, hboth.ofValue_eq hfirst hsecond, errorCodes_append r q⟩

/-- A flat tyre and low fuel, which has been a warning at first. -/
def morning : List Group :=
  [⟨⟨⟨"fuel_low", by decide⟩, .warning⟩, 1, []⟩, ⟨⟨⟨"tyre_flat", by decide⟩, .error⟩, 2, []⟩,
    ⟨⟨⟨"fuel_low", by decide⟩, .error⟩, 1, []⟩, ⟨⟨⟨"tyre_flat", by decide⟩, .error⟩, 1, []⟩]

/-- A torn seat and low fuel once more. -/
def evening : List Group :=
  [⟨⟨⟨"seat_torn", by decide⟩, .error⟩, 1, []⟩, ⟨⟨⟨"fuel_low", by decide⟩, .error⟩, 3, []⟩,
    ⟨⟨⟨"lamp_dim", by decide⟩, .info⟩, 1, []⟩]

theorem errorCodes_in_order_day :
    ∃ r q p, ofValue (Value.ofJson (documentOf morning)) = .ok r ∧
      ofValue (Value.ofJson (documentOf evening)) = .ok q ∧
      ofValue (Value.ofJson (documentOf (morning ++ evening))) = .ok p ∧
      r.errorCodes.map (·.text) = ["tyre_flat", "fuel_low"] ∧
      p.errorCodes.map (·.text) = ["tyre_flat", "fuel_low", "seat_torn"] := by
  have hmorning := ofValue_documentOf (show ∀ g ∈ morning, 0 ≤ g.total by decide)
  have hevening := ofValue_documentOf (show ∀ g ∈ evening, 0 ≤ g.total by decide)
  obtain ⟨-, -, -, -, hjoined⟩ := errorCodes_in_order ⟨morning.map Group.summary⟩
  obtain ⟨p, hp, hcodes⟩ :=
    hjoined _ _ _ _ hmorning hevening (joins_documentOf morning evening)
  refine ⟨_, _, p, hmorning, hevening, hp, by decide, ?_⟩
  rw [hcodes]
  decide

end Report

end NoticeLedger
