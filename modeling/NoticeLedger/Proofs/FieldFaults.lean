import NoticeLedger.Proofs.Contexts
import NoticeLedger.Proofs.SummaryFormat

/-!
# What is wrong with a field

A field of a notice is right or wrong by the value that is given for it, or by none being given, and
by nothing else (`NoticeField.Offends`). One thing at most is wrong with it, and checking the field
finds it (`Fields.code_eq_error_iff` and the lemmas behind it); a field that is right tells its part
of the notice (`Fields.code_eq_ok_iff` and the lemmas behind it).
-/

namespace NoticeLedger

/-! ### Spelled values -/

/-- The value is the string, as a text or in its UTF-8 form. -/
def Value.Spells (v : Value) (s : String) : Prop :=
  v = .text (Text.ofString s) ∨ v = .bytes (encodeUtf8 s)

namespace Code

variable {v : Value} {c : Code}

theorem ofString_eq_error_iff {s : String} {fault : CodeFault} :
    ofString s = .error fault ↔ s = "" ∧ fault = .empty := by
  rw [ofString]
  constructor
  · intro h
    split at h
    · rename_i hs
      exact ⟨hs, (Except.error.inj h).symm⟩
    · cases h
  · rintro ⟨rfl, rfl⟩
    rfl

/-- The string that a value spells decides whether there is a code. -/
theorem ofValue_of_spells {s : String} (h : v.Spells s) : ofValue v = ofString s := by
  rcases h with rfl | rfl
  · rw [ofValue, ofText, Text.toString?_ofString]
  · rw [ofValue, decodeUtf8?_eq_some_iff.mpr rfl]

theorem ofValue_eq_ok_iff : ofValue v = .ok c ↔ v.Spells c.text := by
  constructor
  · intro h
    cases v with
    | text t =>
      rw [ofValue, ofText] at h
      split at h
      · cases h
      · rename_i s hs
        obtain rfl := ofString_eq_ok_iff.mp h
        exact .inl (congrArg _ (Text.toString?_eq_some_iff.mp hs))
    | bytes bs =>
      rw [ofValue] at h
      split at h
      · cases h
      · rename_i s hs
        obtain rfl := ofString_eq_ok_iff.mp h
        exact .inr (congrArg _ (decodeUtf8?_eq_some_iff.mp hs))
    | _ => cases h
  · intro h
    rw [ofValue_of_spells h, ofString_eq_ok_iff]

end Code

namespace Text

theorem toString?_eq_none_iff {t : Text} :
    t.toString? = none ↔ ∀ s, ¬(Value.text t).Spells s := by
  simp [Option.eq_none_iff_forall_ne_some, toString?_eq_some_iff, Value.Spells]

end Text

theorem decodeUtf8?_eq_none_iff {bs : List UInt8} :
    decodeUtf8? bs = none ↔ ∀ s, ¬(Value.bytes bs).Spells s := by
  simp [Option.eq_none_iff_forall_ne_some, decodeUtf8?_eq_some_iff, Value.Spells]

/-! ### Single fields -/

/-- The fields of a notice, in the order in which they are checked. -/
inductive NoticeField where
  | code
  | context
  | kind
  | severity
  deriving DecidableEq, Repr

namespace NoticeField

/-- The name of a field. -/
def name : NoticeField → String
  | code     => "code"
  | context  => "context"
  | kind     => "kind"
  | severity => "severity"

/-- All fields, in order. -/
def all : List NoticeField := [code, context, kind, severity]

theorem mem_all (f : NoticeField) : f ∈ all := by
  cases f <;> decide

theorem name_injective : Function.Injective name := by
  intro f g h
  cases f <;> cases g <;> first | rfl | exact absurd h (by decide)

/-- What is wrong with a field of a notice of some kind, by the value that is given for it. -/
inductive Offends (kind : Kind) : NoticeField → Option Value → FieldFault → Prop where
  | codeMissing : Offends kind .code none .missing
  | codeNotText {v : Value} (htext : ∀ t, v ≠ .text t) (hbytes : ∀ bs, v ≠ .bytes bs) :
      Offends kind .code (some v) (.code .notText)
  | codeNotUnicode {v : Value} (h : (∃ t, v = .text t) ∨ ∃ bs, v = .bytes bs)
      (hspells : ∀ s, ¬v.Spells s) : Offends kind .code (some v) (.code .notUnicode)
  | codeEmpty {v : Value} (h : v.Spells "") : Offends kind .code (some v) (.code .empty)
  | context {v : Value} {fault : ContextFault} (h : Context.normalize v = .error fault) :
      Offends kind .context (some v) (.context fault)
  | kind {v : Value} (h : v ≠ .text (Text.ofString kind.name)) :
      Offends kind .kind (some v) (.kindOther kind)
  | severityMissing (hkind : kind = .validation) : Offends kind .severity none .missing
  | severityNotUnicode {t : Text} (hspells : ∀ s, ¬(Value.text t).Spells s) :
      Offends kind .severity (some (.text t)) (.severity .notUnicode)
  | severityUnknown {v : Value} (htext : ∀ t, v = .text t → ∃ s, v.Spells s)
      (hnamed : ∀ s : Severity, ¬s.IsNamedBy v) :
      Offends kind .severity (some v) (.severity .unknown)
  | severityOther {v : Value} {s : Severity} (hkind : kind = .systemError) (hs : s.IsNamedBy v)
      (hne : s ≠ .error) : Offends kind .severity (some v) .severityFixed

end NoticeField

namespace Code

theorem ofValue_eq_error_iff {kind : Kind} {v : Value} {fault : FieldFault} :
    (∃ f, ofValue v = .error f ∧ FieldFault.code f = fault) ↔
      NoticeField.code.Offends kind (some v) fault := by
  constructor
  · rintro ⟨f, hf, rfl⟩
    cases v with
    | text t =>
      rw [ofValue, ofText] at hf
      split at hf
      · rename_i ht
        obtain rfl := Except.error.inj hf
        exact .codeNotUnicode (.inl ⟨t, rfl⟩) (Text.toString?_eq_none_iff.mp ht)
      · rename_i s hs
        obtain ⟨rfl, rfl⟩ := ofString_eq_error_iff.mp hf
        exact .codeEmpty (.inl (congrArg _ (Text.toString?_eq_some_iff.mp hs)))
    | bytes bs =>
      rw [ofValue] at hf
      split at hf
      · rename_i hbs
        obtain rfl := Except.error.inj hf
        exact .codeNotUnicode (.inr ⟨bs, rfl⟩) (decodeUtf8?_eq_none_iff.mp hbs)
      · rename_i s hs
        obtain ⟨rfl, rfl⟩ := ofString_eq_error_iff.mp hf
        exact .codeEmpty (.inr (congrArg _ (decodeUtf8?_eq_some_iff.mp hs)))
    | _ =>
      obtain rfl := Except.error.inj hf
      refine .codeNotText (fun t h => ?_) fun bs h => ?_
      · cases h
      · cases h
  · rintro (_ | ⟨htext, hbytes⟩ | ⟨⟨t, rfl⟩ | ⟨bs, rfl⟩, hspells⟩ | hempty)
    · cases v with
      | text t => exact absurd rfl (htext t)
      | bytes bs => exact absurd rfl (hbytes bs)
      | _ => exact ⟨_, rfl, rfl⟩
    · exact ⟨_, by rw [ofValue, ofText, Text.toString?_eq_none_iff.mpr hspells], rfl⟩
    · exact ⟨_, by rw [ofValue, decodeUtf8?_eq_none_iff.mpr hspells], rfl⟩
    · exact ⟨_, (ofValue_of_spells hempty).trans (ofString_eq_error_iff.mpr ⟨rfl, rfl⟩), rfl⟩

end Code

namespace Severity

variable {v : Value}

theorem ofName_ne_notUnicode (name : String) : ofName name ≠ .error .notUnicode := by
  intro h
  rw [ofName] at h
  split at h <;> cases h

theorem ofValue_eq_notUnicode_iff :
    ofValue v = .error .notUnicode ↔ ∃ t, v = .text t ∧ ∀ s, ¬v.Spells s := by
  constructor
  · intro h
    cases v with
    | text t =>
      rw [ofValue] at h
      split at h
      · rename_i ht
        exact ⟨t, rfl, Text.toString?_eq_none_iff.mp ht⟩
      · exact absurd h (ofName_ne_notUnicode _)
    | bytes bs =>
      rw [ofValue] at h
      split at h
      · cases h
      · exact absurd h (ofName_ne_notUnicode _)
    | _ => cases h
  · rintro ⟨t, rfl, hspells⟩
    rw [ofValue, Text.toString?_eq_none_iff.mpr hspells]

theorem ofValue_eq_unknown_iff : ofValue v = .error .unknown ↔
    (∀ t, v = .text t → ∃ s, v.Spells s) ∧ ∀ s : Severity, ¬s.IsNamedBy v := by
  have hneither : ofValue v = .error .unknown ↔
      ¬ofValue v = .error .notUnicode ∧ ∀ s, ¬ofValue v = .ok s := by
    cases ofValue v with
    | ok s => simp
    | error fault => cases fault <;> simp
  rw [hneither, ofValue_eq_notUnicode_iff]
  simp only [ofValue_eq_ok_iff, not_exists, not_and, not_forall, not_not]

variable {kind : Kind} {fault : FieldFault}

/-- Nothing is wrong with the name of a severity but that it is not that of a system error. -/
theorem offends_iff_of_isNamedBy {s : Severity} (hs : s.IsNamedBy v) :
    NoticeField.severity.Offends kind (some v) fault ↔
      kind = .systemError ∧ s ≠ .error ∧ fault = .severityFixed := by
  constructor
  · intro h
    cases h with
    | severityNotUnicode hspells => exact absurd hs (hspells _)
    | severityUnknown _ hnamed => exact absurd hs (hnamed s)
    | severityOther hkind hs' hne =>
      obtain rfl := Except.ok.inj
        ((ofValue_eq_ok_iff.mpr hs').symm.trans (ofValue_eq_ok_iff.mpr hs))
      exact ⟨hkind, hne, rfl⟩
  · rintro ⟨hkind, hne, rfl⟩
    exact .severityOther hkind hs hne

theorem offends_iff_of_unnamed (hnamed : ∀ s : Severity, ¬s.IsNamedBy v) :
    NoticeField.severity.Offends kind (some v) fault ↔
      ∃ f, ofValue v = .error f ∧ FieldFault.severity f = fault := by
  constructor
  · intro h
    cases h with
    | severityNotUnicode hspells =>
      exact ⟨_, ofValue_eq_notUnicode_iff.mpr ⟨_, rfl, hspells⟩, rfl⟩
    | severityUnknown htext _ => exact ⟨_, ofValue_eq_unknown_iff.mpr ⟨htext, hnamed⟩, rfl⟩
    | severityOther _ hs _ => exact absurd hs (hnamed _)
  · rintro ⟨_ | _, hf, rfl⟩
    · obtain ⟨t, rfl, hspells⟩ := ofValue_eq_notUnicode_iff.mp hf
      exact .severityNotUnicode hspells
    · exact .severityUnknown (ofValue_eq_unknown_iff.mp hf).1 hnamed

theorem unnamed_of_ofValue {f : SeverityFault} (h : ofValue v = .error f) (s : Severity) :
    ¬s.IsNamedBy v := by
  rw [← ofValue_eq_ok_iff, h]
  nofun

end Severity

namespace Fields

variable {kind : Kind} {fields : List (Value × Value)} {fault : FieldFault}

theorem code_eq_error_iff : code fields = .error fault ↔
    NoticeField.code.Offends kind (value? "code" fields) fault := by
  rw [code]
  cases value? "code" fields with
  | none =>
    constructor
    · rintro ⟨rfl⟩
      exact .codeMissing
    · rintro ⟨⟩
      rfl
  | some v => exact mapError_eq_error_iff.trans Code.ofValue_eq_error_iff

theorem context_eq_error_iff : context fields = .error fault ↔
    NoticeField.context.Offends kind (value? "context" fields) fault := by
  rw [context]
  cases value? "context" fields with
  | none =>
    constructor
    · rintro ⟨⟩
    · rintro ⟨⟩
  | some v =>
    simp only [mapError_eq_error_iff]
    constructor
    · rintro ⟨y, hy, rfl⟩
      exact .context hy
    · intro h
      cases h with
      | context hy => exact ⟨_, hy, rfl⟩

theorem kind_eq_error_iff : Fields.kind kind fields = .error fault ↔
    NoticeField.kind.Offends kind (value? "kind" fields) fault := by
  rw [Fields.kind]
  cases value? "kind" fields with
  | none => exact iff_of_false nofun nofun
  | some v =>
    have hname : v.text? = some (Text.ofString kind.name) ↔ v = .text (Text.ofString kind.name) :=
      ⟨Value.text?_eq_some, fun h => h ▸ rfl⟩
    dsimp only
    constructor
    · intro h
      split at h
      · cases h
      · rename_i hother
        obtain rfl := Except.error.inj h
        exact .kind (mt hname.mpr hother)
    · intro h
      cases h with
      | kind hother => exact if_neg (mt hname.mp hother)

theorem severity_eq_error_iff : severity fields = .error fault ↔
    NoticeField.severity.Offends .validation (value? "severity" fields) fault := by
  rw [severity]
  cases value? "severity" fields with
  | none =>
    constructor
    · rintro ⟨rfl⟩
      exact .severityMissing rfl
    · rintro ⟨⟩
      rfl
  | some v =>
    simp only [mapError_eq_error_iff]
    cases hv : Severity.ofValue v with
    | error f => rw [Severity.offends_iff_of_unnamed (Severity.unnamed_of_ofValue hv), hv]
    | ok s =>
      rw [Severity.offends_iff_of_isNamedBy (Severity.ofValue_eq_ok_iff.mp hv)]
      constructor
      · rintro ⟨_, hf, -⟩
        cases hf
      · rintro ⟨hkind, -⟩
        cases hkind

theorem errorSeverity_eq_error_iff : errorSeverity fields = .error fault ↔
    NoticeField.severity.Offends .systemError (value? "severity" fields) fault := by
  rw [errorSeverity]
  cases value? "severity" fields with
  | none => exact iff_of_false nofun fun h => by cases h with | severityMissing hkind => cases hkind
  | some v =>
    cases hv : Severity.ofValue v with
    | error f =>
      rw [Severity.offends_iff_of_unnamed (Severity.unnamed_of_ofValue hv)]
      simp [hv]
    | ok s =>
      rw [Severity.offends_iff_of_isNamedBy (Severity.ofValue_eq_ok_iff.mp hv)]
      cases s <;> simp [hv, eq_comm]

theorem exists_value?_eq (name : String) (v? : Option Value) :
    ∃ fields, value? name fields = v? := by
  cases v? with
  | none => exact ⟨[], rfl⟩
  | some v => exact ⟨[(.text (Text.ofString name), v)], if_pos rfl⟩

theorem eq_of_eq_error_iff {α : Type} {r : Except FieldFault α} {f : NoticeField}
    {v? : Option Value} {fault' : FieldFault}
    (hr : ∀ fault, r = .error fault ↔ f.Offends kind v? fault) (h : f.Offends kind v? fault)
    (h' : f.Offends kind v? fault') : fault = fault' :=
  Except.error.inj (((hr fault).mpr h).symm.trans ((hr fault').mpr h'))

/-- One thing at most is wrong with a field. -/
theorem unique_of_offends {f : NoticeField} {v? : Option Value} {fault fault' : FieldFault}
    (h : f.Offends kind v? fault) (h' : f.Offends kind v? fault') : fault = fault' := by
  -- Checking a field that has the value finds either.
  obtain ⟨fields, rfl⟩ := exists_value?_eq f.name v?
  cases f with
  | code => exact eq_of_eq_error_iff (fun _ => code_eq_error_iff) h h'
  | context => exact eq_of_eq_error_iff (fun _ => context_eq_error_iff) h h'
  | kind => exact eq_of_eq_error_iff (fun _ => kind_eq_error_iff) h h'
  | severity =>
    cases kind with
    | validation => exact eq_of_eq_error_iff (fun _ => severity_eq_error_iff) h h'
    | systemError => exact eq_of_eq_error_iff (fun _ => errorSeverity_eq_error_iff) h h'

/-! ### What a field tells -/

theorem code_eq_ok_iff {c : Code} :
    code fields = .ok c ↔ ∃ v, value? "code" fields = some v ∧ v.Spells c.text := by
  rw [code]
  cases value? "code" fields with
  | none => simp
  | some v => simp [mapError_eq_ok_iff, Code.ofValue_eq_ok_iff]

theorem context_eq_ok_iff {j : Json} : context fields = .ok j ↔
    (∃ v, value? "context" fields = some v ∧ Context.normalize v = .ok j) ∨
      (value? "context" fields = none ∧ j = .obj []) := by
  rw [context]
  cases value? "context" fields with
  | none => simp [eq_comm]
  | some v => simp [mapError_eq_ok_iff]

theorem severity_eq_ok_iff {s : Severity} :
    severity fields = .ok s ↔ ∃ v, value? "severity" fields = some v ∧ s.IsNamedBy v := by
  rw [severity]
  cases value? "severity" fields with
  | none => simp
  | some v => simp [mapError_eq_ok_iff, Severity.ofValue_eq_ok_iff]

theorem errorSeverity_eq_ok_iff : errorSeverity fields = .ok () ↔
    (∃ v, value? "severity" fields = some v ∧ Severity.error.IsNamedBy v) ∨
      value? "severity" fields = none := by
  rw [errorSeverity]
  cases value? "severity" fields with
  | none => simp
  | some v =>
    simp only [← Severity.ofValue_eq_ok_iff]
    cases hv : Severity.ofValue v with
    | error f => simp [hv]
    | ok s => cases s <;> simp [hv]

end Fields

end NoticeLedger
