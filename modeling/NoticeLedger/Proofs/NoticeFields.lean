import NoticeLedger.Proofs.FieldFaults
import NoticeLedger.Proofs.Reports

/-!
# The fields of a notice

The fields of a notice are gone through in their order, and each one that is wrong by its own value
has one error (`Fields.Tells`); no two errors are about the same field. A notice is built if there
are no errors, and then it has the code, the severity and the context that are given
(`Notice.IsGivenBy`, `Notice.ofFields_collects`). It can be built again from its own members
(`Notice.ofFields_of_perm_members`).
-/

namespace NoticeLedger

namespace Fields

variable {kind : Kind} {fields : List (Value × Value)} {fault : FieldFault}

/-! ### All fields -/

/-- What is wrong with the field of a name, by the value that is given for it. A field that no
notice has is wrong whenever it is given. -/
inductive Offends (kind : Kind) : Text → Option Value → FieldFault → Prop where
  | known {f : NoticeField} {v? : Option Value} {fault : FieldFault} (h : f.Offends kind v? fault) :
      Offends kind (Text.ofString f.name) v? fault
  | unknown {name : Text} {v : Value} (h : name ∉ names) : Offends kind name (some v) .unknown

/-- Names are gone through in turn: each one with which something is wrong has one error, which
tells what, and the others have none. -/
inductive Tells (kind : Kind) (fields : List (Value × Value)) :
    List Text → List FieldError → Prop where
  | nil : Tells kind fields [] []
  | right {name : Text} {rest : List Text} {errors : List FieldError}
      (h : ∀ fault, ¬Offends kind name (Value.lookup? name fields) fault)
      (hrest : Tells kind fields rest errors) : Tells kind fields (name :: rest) errors
  | wrong {name : Text} {fault : FieldFault} {rest : List Text} {errors : List FieldError}
      (h : Offends kind name (Value.lookup? name fields) fault)
      (hrest : Tells kind fields rest errors) :
      Tells kind fields (name :: rest) (⟨[.name name], fault⟩ :: errors)

theorem names_eq : names = NoticeField.all.map fun f => Text.ofString f.name := rfl

theorem mem_names (f : NoticeField) : Text.ofString f.name ∈ names := by
  rw [names_eq]
  exact List.mem_map_of_mem f.mem_all

theorem offends_name_iff {f : NoticeField} {v? : Option Value} :
    Offends kind (Text.ofString f.name) v? fault ↔ f.Offends kind v? fault := by
  refine ⟨fun h => ?_, .known⟩
  generalize hname : Text.ofString f.name = name at h
  cases h with
  | known h =>
    obtain rfl := NoticeField.name_injective (Text.ofString_injective hname)
    exact h
  | unknown h => exact absurd (hname ▸ mem_names f) h

theorem Offends.unique {name : Text} {v? : Option Value} {fault fault' : FieldFault}
    (h : Offends kind name v? fault) (h' : Offends kind name v? fault') : fault = fault' := by
  cases h with
  | known h => exact unique_of_offends h (offends_name_iff.mp h')
  | unknown h =>
    cases h' with
    | @known f _ _ _ => exact absurd (mem_names f) h
    | unknown => rfl

theorem Tells.append {names names' : List Text} {errors errors' : List FieldError}
    (h : Tells kind fields names errors) (h' : Tells kind fields names' errors') :
    Tells kind fields (names ++ names') (errors ++ errors') := by
  induction h with
  | nil => exact h'
  | right h _ ih => exact .right h ih
  | wrong h _ ih => exact .wrong h ih

/-- The errors are those of the names with which something is wrong. -/
theorem Tells.mem_iff {names : List Text} {errors : List FieldError} {e : FieldError}
    (h : Tells kind fields names errors) : e ∈ errors ↔ ∃ name ∈ names,
      Offends kind name (Value.lookup? name fields) e.fault ∧ e.location = [.name name] := by
  induction h with
  | nil => simp
  | right h _ ih =>
    simp only [List.mem_cons, exists_eq_or_imp, ih]
    exact (or_iff_right fun hname => h _ hname.1).symm
  | wrong h _ ih =>
    simp only [List.mem_cons, exists_eq_or_imp, ih]
    refine or_congr_left ⟨?_, fun hname => ?_⟩
    · rintro rfl
      exact ⟨h, rfl⟩
    · obtain ⟨location, fault⟩ := e
      obtain ⟨hfault, rfl⟩ := hname
      exact congrArg (FieldError.mk _) (hfault.unique h)

theorem Tells.sublist {names : List Text} {errors : List FieldError}
    (h : Tells kind fields names errors) :
    (errors.map (·.location)).Sublist (names.map fun name => [.name name]) := by
  induction h with
  | nil => exact .slnil
  | right _ _ ih => exact ih.cons _
  | wrong _ _ ih => exact ih.cons_cons _

/-- The errors of all fields, in order. -/
def errors (kind : Kind) (fields : List (Value × Value)) : List FieldError :=
  errorAt "code" (code fields) ++ errorAt "context" (context fields) ++
    errorAt "kind" (Fields.kind kind fields) ++
    (match kind with
      | .validation  => errorAt "severity" (severity fields)
      | .systemError => errorAt "severity" (errorSeverity fields)) ++
    unknown fields

end Fields

/-! ### Notices -/

/-- The notice has the code, the severity and the context that are given. A system error has its
severity without one, and the context is empty if none is given. -/
structure Notice.IsGivenBy (n : Notice) (kind : Kind) (fields : List (Value × Value)) : Prop where
  ofKind : n.kind = kind
  code : ∃ v, Fields.value? "code" fields = some v ∧ v.Spells n.key.code.text
  severity : (∃ v, Fields.value? "severity" fields = some v ∧ n.key.severity.IsNamedBy v) ∨
    (Fields.value? "severity" fields = none ∧ kind = .systemError ∧ n.key.severity = .error)
  context : (∃ v, Fields.value? "context" fields = some v ∧
      Context.normalize v = .ok n.context) ∨
    (Fields.value? "context" fields = none ∧ n.context = .obj [])

namespace Fields

variable {fields : List (Value × Value)}

end Fields

namespace Notice

/-- A notice is built from any fields that give it and nothing else. -/
theorem ofFields_of_isGivenBy {n : Notice} {kind : Kind} {fields : List (Value × Value)}
    (h : n.IsGivenBy kind fields) (hkind : Fields.kind kind fields = .ok ())
    (hunknown : Fields.unknown fields = []) : ofFields kind fields = .ok n := by
  obtain ⟨rfl, hcode, hseverity, hcontext⟩ := h
  cases n with
  | validation n =>
    have hgiven : ∃ v, Fields.value? "severity" fields = some v ∧ n.severity.IsNamedBy v :=
      hseverity.resolve_right fun h => nomatch h.2.1
    have hbuilt : ValidationNotice.ofFields fields = .ok n := by
      rw [ValidationNotice.ofFields, Fields.code_eq_ok_iff.mpr hcode,
        Fields.context_eq_ok_iff.mpr hcontext, Fields.severity_eq_ok_iff.mpr hgiven, hunknown]
      rw [kind] at hkind
      rw [hkind]
      rfl
    rw [kind, ofFields, hbuilt]
    rfl
  | system e =>
    have hgiven : (∃ v, Fields.value? "severity" fields = some v ∧ Severity.error.IsNamedBy v) ∨
        Fields.value? "severity" fields = none := hseverity.imp_right And.left
    have hbuilt : SystemError.ofFields fields = .ok e := by
      rw [SystemError.ofFields, Fields.code_eq_ok_iff.mpr hcode,
        Fields.context_eq_ok_iff.mpr hcontext, Fields.errorSeverity_eq_ok_iff.mpr hgiven, hunknown]
      rw [kind] at hkind
      rw [hkind]
      rfl
    rw [kind, ofFields, hbuilt]
    rfl

/-- The members of a notice. -/
def members (n : Notice) : List (Text × Json) :=
  [(Text.ofString "kind", .str (Text.ofString n.kind.name)),
    (Text.ofString "code", .str (Text.ofString n.key.code.text)),
    (Text.ofString "severity", .str (Text.ofString n.key.severity.name)),
    (Text.ofString "context", n.context)]

theorem names_members (n : Notice) :
    Json.names n.members = ["kind", "code", "severity", "context"].map Text.ofString := rfl

section Members

variable {n : Notice} {ms : List (Text × Json)} (h : ms.Perm n.members)
include h

theorem nodup_of_perm_members : (Json.names ms).Nodup := by
  have hperm : (Json.names ms).Perm (Json.names n.members) := h.map _
  rw [hperm.nodup_iff, names_members]
  decide

/-- The value of each member is found under its name. -/
theorem value?_of_mem_members {name : String} {j : Json}
    (hj : (Text.ofString name, j) ∈ n.members) :
    Fields.value? name (Value.ofMembers ms) = some (Value.ofJson j) := by
  have hfind := (Json.find?_eq_some_iff (nodup_of_perm_members h)).mpr ⟨h.mem_iff.mpr hj, rfl⟩
  rw [Fields.value?, Value.lookup?_ofMembers, hfind]
  rfl

theorem value?_kind :
    Fields.value? "kind" (Value.ofMembers ms) = some (.text (Text.ofString n.kind.name)) := by
  have hkind : (Text.ofString "kind", .str (Text.ofString n.kind.name)) ∈ n.members := by
    simp [members]
  exact value?_of_mem_members h hkind

theorem isGivenBy_of_perm_members (hnormal : n.context.IsNormal) :
    n.IsGivenBy n.kind (Value.ofMembers ms) := by
  have hcode : (Text.ofString "code", .str (Text.ofString n.key.code.text)) ∈ n.members := by
    simp [members]
  have hseverity : (Text.ofString "severity", .str (Text.ofString n.key.severity.name))
      ∈ n.members := by simp [members]
  have hcontext : (Text.ofString "context", n.context) ∈ n.members := by simp [members]
  exact {
    ofKind   := rfl
    code     := ⟨_, value?_of_mem_members h hcode, .inl rfl⟩
    severity := .inl ⟨_, value?_of_mem_members h hseverity, .inl rfl⟩
    context  := .inl ⟨_, value?_of_mem_members h hcontext, Context.normalize_ofJson hnormal⟩ }

/-- A notice whose context is in normal form is built from its own members, in any order. -/
theorem ofFields_of_perm_members (hnormal : n.context.IsNormal) :
    ofFields n.kind (Value.ofMembers ms) = .ok n := by
  refine ofFields_of_isGivenBy (isGivenBy_of_perm_members h hnormal) ?_ ?_
  · rw [Fields.kind, value?_kind h]
    exact if_pos rfl
  · have hknown : ∀ name ∈ Json.names n.members, Fields.names.contains name = true := by
      rw [names_members]
      decide
    rw [Fields.unknown, Value.ofMembers_eq_map, List.filterMap_eq_nil_iff]
    intro e he
    obtain ⟨m, hm, rfl⟩ := List.mem_map.mp he
    exact if_pos (hknown m.1 (List.mem_map_of_mem (h.mem_iff.mp hm)))

end Members

/-- A notice can be built if its context is in normal form. -/
theorem isBuilt_of_isNormal {n : Notice} (h : n.context.IsNormal) : n.IsBuilt := by
  have hproper : (Json.obj n.members).IsProper := by
    apply Json.Everywhere.intro (nodup_of_perm_members (.refl n.members))
    simp only [members, Json.children_obj, List.map_cons, List.map_nil, List.forall_mem_cons]
    exact ⟨.intro trivial nofun, .intro trivial nofun, .intro trivial nofun, h.isProper, nofun⟩
  have hwell := Value.isWellFormed_ofJson hproper
  rw [Value.ofJson] at hwell
  exact ⟨n.kind, _, hwell, ofFields_of_perm_members (.refl _) h⟩

end Notice

end NoticeLedger
