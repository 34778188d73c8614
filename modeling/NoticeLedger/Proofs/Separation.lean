import NoticeLedger.Proofs.Bookkeeping
import NoticeLedger.Proofs.Sharding

/-!
# Validation notices and system errors apart

A recorder holds two parts that have nothing to do with each other, though notices of either kind
may have the same code and so the same key. A part is told by the recorder that holds nothing else
(`Slice`). Every operation on recorders commutes with taking a part, and notices of the other kind
add nothing to it. So the part of what a run leads to is what the run leads to without the calls
that add notices of the other kind (`Slice.roster_afterAll`). System errors are not limited, so that
also the limits of what is kept can be left out of their part.
-/

namespace NoticeLedger

open Recorder (Refusal)
open Roster (afterAll)

/-- The kind of the notices that a call adds, if it adds any. -/
def Call.kind? : Call → Option Kind
  | .addValidation _ _ => some .validation
  | .addSystem _ _     => some .systemError
  | .merge _ _         => none
  | .join _ _          => none

namespace Event

/-- The event is a call that adds notices of a kind. -/
def adds (kind : Kind) : Event → Bool
  | .openRecorder _    => false
  | .openCoordinator _ => false
  | .call c            => c.kind? = some kind

/-- The event with other limits for the recorder that it opens, if it opens one. -/
def mapLimits (f : Limits → Limits) : Event → Event
  | .openRecorder l    => .openRecorder (f l)
  | .openCoordinator l => .openCoordinator (f l)
  | .call c            => .call c

@[simp] theorem adds_mapLimits (kind : Kind) (f : Limits → Limits) (e : Event) :
    (e.mapLimits f).adds kind = e.adds kind := by
  cases e <;> rfl

end Event

/-- A part of recorders that notices of one kind do not reach. -/
structure Slice where
  /-- The recorder that holds nothing but the part. -/
  part : Recorder → Recorder
  /-- The limits that matter for the part. -/
  limits : Limits → Limits
  /-- The kind of the notices that do not reach the part. -/
  other : Kind
  fresh : ∀ l, part (.fresh l) = .fresh (limits l)
  add : ∀ r n, n.kind ≠ other → part (r.add n) = (part r).add n
  add_other : ∀ r n, n.kind = other → part (r.add n) = part r
  absorb : ∀ r r', part (r.absorb r') = (part r).absorb (part r')
  consume : ∀ r, part r.consume = (part r).consume
  consumed : ∀ r, (part r).consumed = r.consumed

namespace Slice

variable (σ : Slice)

/-- The roster that holds nothing but the parts of the recorders. -/
def roster (s : Roster) : Roster :=
  { s with recorders := s.recorders.map σ.part }

/-- The event without what does not matter for the part. -/
def event? (e : Event) : Option Event :=
  if e.adds σ.other then none else some (e.mapLimits σ.limits)

variable {s : Roster} {i j : Nat} {c : Call}

theorem coordinators_roster (s : Roster) : (σ.roster s).coordinators = s.coordinators := rfl

theorem getElem?_roster (s : Roster) (i : Nat) :
    (σ.roster s).recorders[i]? = s.recorders[i]?.map σ.part :=
  List.getElem?_map

theorem roster_put (s : Roster) (i : Nat) (r : Recorder) :
    σ.roster (s.put i r) = (σ.roster s).put i (σ.part r) := by
  simp only [roster, Roster.put, List.map_set]

/-! ### One call -/

theorem roster_modify {f g : Recorder → Except Refusal Recorder}
    (hfg : ∀ r, g (σ.part r) = (f r).map σ.part) (s : Roster) (i : Nat) :
    (σ.roster s).modify i g = (s.modify i f).map σ.roster := by
  rw [Roster.modify, Roster.modify, getElem?_roster]
  cases s.recorders[i]? with
  | none   => rfl
  | some r =>
    simp only [Option.map_some, hfg]
    cases f r with
    | error e => rfl
    | ok r'   => exact congrArg Except.ok (σ.roster_put s i r').symm

theorem part_merge (r other : Recorder) :
    (σ.part r).merge (σ.part other) = (r.merge other).map σ.part := by
  rw [Recorder.merge, Recorder.merge, σ.consumed]
  split
  · rfl
  · exact congrArg Except.ok (σ.absorb r other).symm

theorem roster_merge (s : Roster) (i j : Nat) :
    (σ.roster s).merge i j = (s.merge i j).map σ.roster := by
  rw [Roster.merge, Roster.merge]
  split
  · rfl
  · rw [getElem?_roster, getElem?_roster]
    cases s.recorders[i]? with
    | none => rfl
    | some r =>
      cases s.recorders[j]? with
      | none => rfl
      | some other =>
        simp only [Option.map_some, part_merge]
        cases r.merge other with
        | error e => rfl
        | ok r'   => simp only [Except.map, roster_put, σ.consume]

theorem roster_join (s : Roster) (c j : Nat) :
    (σ.roster s).join c j = (s.join c j).map σ.roster := by
  rw [Roster.join, Roster.join, coordinators_roster]
  cases s.coordinators[c]? with
  | none => rfl
  | some k =>
    by_cases hself : j = k.destination
    · simp only [if_pos hself]
      rfl
    · simp only [if_neg hself, roster_merge]
      cases s.merge k.destination j <;> rfl

theorem part_addAsValidation (h : Kind.validation ≠ σ.other) (r : Recorder) (n : Notice) :
    (σ.part r).addAsValidation n = (r.addAsValidation n).map σ.part := by
  cases n with
  | system e     => rfl
  | validation n => exact congrArg Except.ok (σ.add r (.validation n) h).symm

theorem part_addAsSystem (h : Kind.systemError ≠ σ.other) (r : Recorder) (n : Notice) :
    (σ.part r).addAsSystem n = (r.addAsSystem n).map σ.part := by
  cases n with
  | validation n => rfl
  | system e     => exact congrArg Except.ok (σ.add r (.system e) h).symm

/-- A call that does not add notices of the other kind does with the parts what it does with the
recorders, and is refused in the same cases. -/
theorem roster_call (hc : c.kind? ≠ some σ.other) (s : Roster) :
    (σ.roster s).call c = (s.call c).map σ.roster := by
  cases c with
  | addValidation i n =>
    have hkind : Kind.validation ≠ σ.other := fun h => hc (congrArg some h)
    exact σ.roster_modify (σ.part_addAsValidation hkind · n) s i
  | addSystem i n =>
    have hkind : Kind.systemError ≠ σ.other := fun h => hc (congrArg some h)
    exact σ.roster_modify (σ.part_addAsSystem hkind · n) s i
  | merge i j => exact σ.roster_merge s i j
  | join c j  => exact σ.roster_join s c j

theorem roster_perform (hc : c.kind? ≠ some σ.other) (s : Roster) :
    σ.roster (s.perform c) = (σ.roster s).perform c := by
  rw [Roster.perform, Roster.perform, σ.roster_call hc]
  cases s.call c <;> rfl

theorem roster_put_of_part {r r' : Recorder} (hr : s.recorders[i]? = some r)
    (h : σ.part r' = σ.part r) : σ.roster (s.put i r') = σ.roster s := by
  rw [roster_put, h, ← roster_put, Roster.put_of_getElem? hr]

/-- A call that adds a notice of the other kind does nothing to the parts. -/
theorem roster_perform_other (hc : c.kind? = some σ.other) (s : Roster) :
    σ.roster (s.perform c) = σ.roster s := by
  rcases s.perform_cases c with ⟨_, _, hsame⟩ | hok
  · rw [hsame]
  · generalize s.perform c = s' at hok
    cases c with
    | addValidation i n =>
      obtain ⟨r, r', hr, hadd, rfl⟩ := Roster.modify_ok hok
      -- the call is not refused, so the notice is of the kind that the call adds
      cases n with
      | system e     => cases hadd
      | validation n =>
        cases hadd
        exact σ.roster_put_of_part hr (σ.add_other r (.validation n) (Option.some.inj hc))
    | addSystem i n =>
      obtain ⟨r, r', hr, hadd, rfl⟩ := Roster.modify_ok hok
      cases n with
      | validation n => cases hadd
      | system e     =>
        cases hadd
        exact σ.roster_put_of_part hr (σ.add_other r (.system e) (Option.some.inj hc))
    | merge i j => cases hc
    | join c j  => cases hc

/-! ### Runs -/

theorem roster_happen {e : Event} (he : e.adds σ.other = false) (s : Roster) :
    σ.roster (s.happen e) = (σ.roster s).happen (e.mapLimits σ.limits) := by
  cases e with
  | openRecorder l =>
    simp [roster, Roster.happen, Roster.openRecorder, Event.mapLimits, σ.fresh]
  | openCoordinator l =>
    simp [roster, Roster.happen, Roster.openCoordinator, Roster.openRecorder, Event.mapLimits,
      σ.fresh]
  | call c =>
    rw [Event.mapLimits, Roster.happen, Roster.happen, Roster.leftBy_eq, Roster.leftBy_eq]
    exact σ.roster_perform (of_decide_eq_false he) s

theorem roster_happen_other {e : Event} (he : e.adds σ.other = true) (s : Roster) :
    σ.roster (s.happen e) = σ.roster s := by
  cases e with
  | openRecorder l    => cases he
  | openCoordinator l => cases he
  | call c =>
    rw [Roster.happen, Roster.leftBy_eq]
    exact σ.roster_perform_other (of_decide_eq_true he) s

theorem roster_foldl_happen (es : List Event) (s : Roster) :
    σ.roster (es.foldl Roster.happen s)
      = (es.filterMap σ.event?).foldl Roster.happen (σ.roster s) := by
  induction es generalizing s with
  | nil => rfl
  | cons e es ih =>
    rw [List.foldl_cons, ih]
    -- An event that is left out on the right does nothing to the parts on the left.
    cases he : e.adds σ.other with
    | true =>
      have hnone : σ.event? e = none := if_pos he
      rw [List.filterMap_cons_none hnone, σ.roster_happen_other he]
    | false =>
      have hsome : σ.event? e = some (e.mapLimits σ.limits) := if_neg (he ▸ Bool.false_ne_true)
      rw [List.filterMap_cons_some hsome, σ.roster_happen he, List.foldl_cons]

/-- The parts of what a run leads to are what the run leads to without what does not matter for
them. -/
theorem roster_afterAll (es : List Event) :
    σ.roster (afterAll es) = afterAll (es.filterMap σ.event?) :=
  σ.roster_foldl_happen es {}

/-- What the parts tell is the same after runs that differ in nothing that matters for them. -/
theorem map_congr {α : Type} {tell : Recorder → α} (htell : ∀ r, tell (σ.part r) = tell r)
    {es es' : List Event} (h : es.filterMap σ.event? = es'.filterMap σ.event?) :
    (afterAll es).recorders.map tell = (afterAll es').recorders.map tell := by
  have hroster : σ.roster (afterAll es) = σ.roster (afterAll es') := by
    rw [roster_afterAll, roster_afterAll, h]
  have htold := congrArg (·.recorders.map tell) hroster
  simpa only [roster, List.map_map, Function.comp_def, htell] using htold

theorem filterMap_event?_filter (es : List Event) :
    (es.filter fun e => !e.adds σ.other).filterMap σ.event? = es.filterMap σ.event? := by
  rw [List.filterMap_filter]
  refine List.filterMap_congr fun e _ => ?_
  cases he : e.adds σ.other <;> simp [event?, he]

theorem filterMap_event?_of_mapLimits {es es' : List Event}
    (h : es.map (·.mapLimits σ.limits) = es'.map (·.mapLimits σ.limits)) :
    es.filterMap σ.event? = es'.filterMap σ.event? := by
  -- Limits do not decide which events are left out, so that they can be exchanged first.
  have hevent : σ.event? = (fun e => if e.adds σ.other then none else some e) ∘
      (·.mapLimits σ.limits) := by
    funext e
    simp [event?]
  rw [hevent, ← List.filterMap_map, ← List.filterMap_map, h]

end Slice

/-! ### The two parts -/

/-- The limits of which only that of samples is kept, the others at their defaults. -/
def Limits.onlySamples (l : Limits) : Limits :=
  { samples := l.samples }

namespace Recorder

variable (r : Recorder) (n : ValidationNotice)

/-- The recorder without what comes from system errors. -/
def onlyFindings : Recorder :=
  { fresh r.limits with
    retained := r.retained, tally := r.tally, sawError := r.sawError, consumed := r.consumed }

/-- The recorder without what comes from validation notices. -/
def onlyFailures : Recorder :=
  { fresh r.limits.onlySamples with
    systemErrors := r.systemErrors, systemTally := r.systemTally, consumed := r.consumed }

theorem onlyFindings_addValidation :
    (r.addValidation n).onlyFindings = r.onlyFindings.addValidation n := by
  have hfull : r.onlyFindings.isFull = r.isFull := rfl
  rw [addValidation, addValidation, hfull]
  split <;> rfl

theorem onlyFailures_addValidation : (r.addValidation n).onlyFailures = r.onlyFailures := by
  rw [addValidation]
  split <;> rfl

/-- What a recorder tells of validation notices. -/
def findings :
    Journal ValidationNotice × Tally × Bool × Bool × Except ExportFault (List Group) :=
  (r.retained, r.tally, r.sawError, r.consumed, r.exportValidation)

/-- What a recorder tells of system errors. -/
def failures :
    Journal SystemError × Tally × Except ExportFault (List Group) :=
  (r.systemErrors, r.systemTally, r.exportSystem)

end Recorder

namespace Slice

/-- What comes from validation notices. -/
def findings : Slice where
  part := Recorder.onlyFindings
  limits := id
  other := .systemError
  fresh _ := rfl
  add r n hn := by
    cases n with
    | validation n => exact r.onlyFindings_addValidation n
    | system e     => exact absurd rfl hn
  add_other r n hn := by
    cases n with
    | validation n => cases hn
    | system e     => rfl
  absorb _ _ := rfl
  consume _ := rfl
  consumed _ := rfl

/-- What comes from system errors. -/
def failures : Slice where
  part := Recorder.onlyFailures
  limits := Limits.onlySamples
  other := .validation
  fresh _ := rfl
  add r n hn := by
    cases n with
    | validation n => exact absurd rfl hn
    | system e     => rfl
  add_other r n hn := by
    cases n with
    | validation n => exact r.onlyFailures_addValidation n
    | system e     => cases hn
  absorb _ _ := rfl
  consume _ := rfl
  consumed _ := rfl

end Slice

/-! ### Where system errors go -/

/-- The system errors that come into a recorder. -/
def incomingErrors : Bookkeeping (List SystemError) where
  start := []
  receive es n := es ++ n.system?.toList
  unite := (· ++ ·)

theorem reflects_incomingErrors :
    incomingErrors.Reflects (fun _ => True) Recorder.HoldsErrors where
  fresh {l} _ := .fresh l
  add {es r} h n := by
    cases n with
    | validation n =>
      have hsame : incomingErrors.receive es (.validation n) = es := List.append_nil es
      rw [hsame]
      exact h.addValidation n
    | system e => exact h.addSystem e
  absorb h h' := h.absorb h'
  consume h := ⟨h.errors, h.counts⟩

/-! ### Every run -/

/-- Without the calls that add system errors a run leads to recorders with the same validation
notices, numbers of them, errors remembered, marks and documents. Without the calls that add
validation notices, or with other limits of what is kept, it leads to recorders with the same system
errors, numbers of them and documents. The system errors of a recorder are all those that have come
into it. -/
theorem Roster.separate_afterAll (es : List Event) :
    (afterAll (es.filter fun e => !e.adds .systemError)).recorders.map Recorder.findings
      = (afterAll es).recorders.map Recorder.findings ∧
    (afterAll (es.filter fun e => !e.adds .validation)).recorders.map Recorder.failures
      = (afterAll es).recorders.map Recorder.failures ∧
    (∀ es', es'.map (·.mapLimits Limits.onlySamples) = es.map (·.mapLimits Limits.onlySamples) →
      (afterAll es').recorders.map Recorder.failures
        = (afterAll es).recorders.map Recorder.failures) ∧
    ∀ (i : Nat) (r : Recorder), (afterAll es).recorders[i]? = some r →
      r.HoldsErrors (incomingErrors.after es i) := by
  refine ⟨?_, ?_, fun es' hes' => ?_, fun i r hr => ?_⟩
  · exact Slice.findings.map_congr (fun _ => rfl) (Slice.findings.filterMap_event?_filter es)
  · exact Slice.failures.map_congr (fun _ => rfl) (Slice.failures.filterMap_event?_filter es)
  · exact Slice.failures.map_congr (fun _ => rfl)
      (Slice.failures.filterMap_event?_of_mapLimits hes')
  · exact reflects_incomingErrors.of_afterAll (fun _ _ _ _ => trivial) hr

/-- A run in which a recorder that is full with a notice is handed a notice and system errors of the
same key, and is joined into one that has such a system error already. -/
def Roster.collision : List Event :=
  let noticed (i : Nat) : Call :=
    .addValidation i (.validation ⟨⟨"label_torn", by decide⟩, .error, .null⟩)
  let failed (i : Nat) : Call := .addSystem i (.system ⟨⟨"label_torn", by decide⟩, .null⟩)
  [.openCoordinator ⟨3, 1, 1⟩, .openRecorder ⟨1, 1, 1⟩, .call (failed 0), .call (failed 1),
    .call (noticed 1), .call (noticed 1), .call (failed 1), .call (.join 0 1)]

theorem Roster.separate_collision :
    (afterAll (collision.filter fun e => !e.adds .systemError)).recorders.map Recorder.findings
      = (afterAll collision).recorders.map Recorder.findings ∧
    (afterAll (collision.filter fun e => !e.adds .validation)).recorders.map Recorder.failures
      = (afterAll collision).recorders.map Recorder.failures ∧
    (afterAll (collision.map (·.mapLimits fun _ => ⟨0, 0, 1⟩))).recorders.map Recorder.failures
      = (afterAll collision).recorders.map Recorder.failures ∧
    ∃ r, (afterAll collision).recorders[0]? = some r ∧
      r.HoldsErrors (incomingErrors.after collision 0) ∧
      (incomingErrors.after collision 0).length = 3 ∧ r.retained.size = 1 := by
  obtain ⟨hfindings, hfailures, hlimits, herrors⟩ := separate_afterAll collision
  refine ⟨hfindings, hfailures, hlimits _ ?_, ?_⟩
  · simp [collision, Event.mapLimits, Limits.onlySamples]
  · have hkept : (afterAll collision).recorders[0]?.map (·.retained.size) = some 1 := by
      decide +kernel
    obtain ⟨r, hr, hsize⟩ := Option.map_eq_some_iff.1 hkept
    exact ⟨r, hr, herrors 0 r hr, by decide +kernel, hsize⟩

end NoticeLedger
