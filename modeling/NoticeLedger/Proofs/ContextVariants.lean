import NoticeLedger.Proofs.Json.Documents
import NoticeLedger.Proofs.Normalization

/-!
# Variants of a context

Values that differ only in the order of entries and in lists that stand for tuples
(`Value.Alike`) make the same context: either both have the very same normal form or both are
refused for the same reason (`Context.normalize_eq_of_alike`). A value that has a normal form is
such a variant of it, so that for these values the normal form decides which are variants of each
other (`Context.normalize_eq_iff_alike`), and it is also written as its normal form is
(`Context.toJson?_of_normalize`).
-/

namespace NoticeLedger

namespace Value

/-- Values that differ only in the order of entries and in lists that stand for tuples, at any
depth. -/
inductive Alike : Value → Value → Prop where
  | refl (v : Value) : Alike v v
  | trans {u v w : Value} (first : Alike u v) (second : Alike v w) : Alike u w
  | ofTuple (items : List Value) : Alike (tuple items) (list items)
  | ofList (items : List Value) : Alike (list items) (tuple items)
  | entries {es fs : List (Value × Value)} (h : es.Perm fs) : Alike (map es) (map fs)
  | item (before after : List Value) {v w : Value} (h : Alike v w) :
      Alike (list (before ++ v :: after)) (list (before ++ w :: after))
  | value (before after : List (Value × Value)) (key : Value) {v w : Value} (h : Alike v w) :
      Alike (map (before ++ (key, v) :: after)) (map (before ++ (key, w) :: after))

namespace Alike

theorem symm {v w : Value} (h : Alike v w) : Alike w v := by
  induction h with
  | refl v => exact .refl v
  | trans _ _ ih ih' => exact .trans ih' ih
  | ofTuple items => exact .ofList items
  | ofList items => exact .ofTuple items
  | entries h => exact .entries h.symm
  | item before after _ ih => exact .item before after ih
  | value before after key _ ih => exact .value before after key ih

theorem of_items {vs ws : List Value} (h : List.Forall₂ Alike vs ws) (before : List Value) :
    Alike (list (before ++ vs)) (list (before ++ ws)) := by
  induction h generalizing before with
  | nil => exact .refl _
  | @cons v w vs ws hvw _ ih =>
    have htail := ih (before ++ [w])
    rw [List.append_assoc, List.append_assoc] at htail
    exact (item before vs hvw).trans htail

theorem of_entries {es fs : List (Value × Value)}
    (h : List.Forall₂ (fun e f => e.1 = f.1 ∧ Alike e.2 f.2) es fs)
    (before : List (Value × Value)) : Alike (map (before ++ es)) (map (before ++ fs)) := by
  induction h generalizing before with
  | nil => exact .refl _
  | @cons e f es fs hef _ ih =>
    obtain ⟨key, v⟩ := e
    obtain ⟨key', w⟩ := f
    obtain ⟨hkey, hvw⟩ := hef
    obtain rfl : key = key' := hkey
    have htail := ih (before ++ [(key, w)])
    rw [List.append_assoc, List.append_assoc] at htail
    exact (value before es key hvw).trans htail

end Alike

/-! ### Names -/

/-- The texts among the keys of a map are distinct. -/
def NamesHere : Value → Prop
  | map es => (es.filterMap (·.1.text?)).Nodup
  | _      => True

theorem nodup_names {es : List (Value × Value)}
    (h : es.Pairwise fun a b => sameKey a.1 b.1 = false) : (es.filterMap (·.1.text?)).Nodup := by
  refine List.pairwise_filterMap.mpr (h.imp fun {a b} hab s hs t ht => ?_)
  rintro rfl
  rw [text?_eq_some hs, text?_eq_some ht, sameKey, beq_self_eq_true] at hab
  cases hab

theorem IsWellFormed.names {v : Value} (h : v.IsWellFormed) : v.Everywhere NamesHere := by
  induction h with
  | @intro v keys _ ih =>
    refine .intro ?_ ih
    cases v with
    | map es => exact nodup_names (keys es rfl)
    | _ => trivial

theorem Everywhere.of_alike {v w : Value} (h : v.Everywhere NamesHere) (hvw : v.Alike w) :
    w.Everywhere NamesHere := by
  induction hvw with
  | refl v => exact h
  | trans _ _ ih ih' => exact ih' (ih h)
  | ofTuple items => exact .intro trivial (everywhere_iff.mp h).2
  | ofList items => exact .intro trivial (everywhere_iff.mp h).2
  | entries hperm =>
    obtain ⟨here, inside⟩ := everywhere_iff.mp h
    refine .intro ((hperm.filterMap _).nodup_iff.mp here) fun u hu => ?_
    exact inside u ((hperm.map _).mem_iff.mpr hu)
  | item before after _ ih =>
    obtain ⟨_, inside⟩ := everywhere_iff.mp h
    refine .intro trivial ?_
    simp only [parts, List.forall_mem_append, List.forall_mem_cons] at inside ⊢
    exact ⟨inside.1, ih inside.2.1, inside.2.2⟩
  | value before after key _ ih =>
    obtain ⟨here, inside⟩ := everywhere_iff.mp h
    refine .intro ?_ ?_
    · simpa [NamesHere, List.filterMap_append, List.filterMap_cons] using here
    · simp only [parts, List.map_append, List.map_cons, List.forall_mem_append,
        List.forall_mem_cons] at inside ⊢
      exact ⟨inside.1, ih inside.2.1, inside.2.2⟩

end Value

namespace Context

open Value

/-! ### Objects -/

/-- The keys of a map tell its members: either all of them are texts, or the map is refused. -/
theorem namedMembers_eq (es : List (Value × Except ContextFault Json)) :
    namedMembers es = if ∀ e ∈ es, e.1.text?.isSome
      then .ok (es.filterMap fun e => e.1.text?.map fun t => (t, e.2))
      else .error .nameNotText := by
  induction es with
  | nil => rfl
  | cons e es ih =>
    obtain ⟨key, r⟩ := e
    rw [namedMembers, ih]
    cases hkey : key.text? with
    | none => simp [hkey]
    | some name =>
      by_cases hall : ∀ e ∈ es, e.1.text?.isSome
      · rw [if_pos hall, if_pos (List.forall_mem_cons.mpr ⟨by simp [hkey], hall⟩)]
        simp [hkey, Except.map]
      · rw [if_neg hall, if_neg fun h => hall (List.forall_mem_cons.mp h).2]
        rfl

theorem objectOf_eq_of_perm {es fs : List (Value × Except ContextFault Json)} (hperm : es.Perm fs)
    (hnames : (es.filterMap (·.1.text?)).Nodup) : objectOf es = objectOf fs := by
  have hall : (∀ e ∈ es, e.1.text?.isSome) ↔ ∀ e ∈ fs, e.1.text?.isSome :=
    forall_congr' fun e => by rw [hperm.mem_iff]
  rw [objectOf, objectOf, namedMembers_eq, namedMembers_eq]
  by_cases h : ∀ e ∈ es, e.1.text?.isSome
  · have hsorted : (es.filterMap fun e => e.1.text?.map fun t => (t, e.2)).mergeSort memberLe
        = (fs.filterMap fun e => e.1.text?.map fun t => (t, e.2)).mergeSort memberLe := by
      apply Json.mergeSort_eq_of_perm (hperm.filterMap _)
      rw [List.map_filterMap]
      simpa [Function.comp_def] using hnames
    rw [if_pos h, if_pos (hall.mp h)]
    simp only [hsorted]
  · rw [if_neg h, if_neg fun hfs => h (hall.mpr hfs)]

/-! ### Variants -/

/-- Variants of a value have the same normal form, or the same stands against them. -/
theorem normalize_eq_of_alike {v w : Value} (hv : v.Everywhere NamesHere) (h : v.Alike w) :
    normalize v = normalize w := by
  induction h with
  | refl v => rfl
  | trans first _ ih ih' => rw [ih hv, ih' (hv.of_alike first)]
  | ofTuple items => exact normalize_tuple items
  | ofList items => exact (normalize_tuple items).symm
  | @entries es fs hperm =>
    rw [normalize, normalize, normalizeEntries_eq_map, normalizeEntries_eq_map]
    apply objectOf_eq_of_perm (hperm.map _)
    rw [List.filterMap_map]
    exact (everywhere_iff.mp hv).1
  | item before after _ ih =>
    have hitem := ih ((everywhere_iff.mp hv).2 _ (by simp [parts]))
    simp [normalize, hitem]
  | value before after key _ ih =>
    have hvalue := ih ((everywhere_iff.mp hv).2 _ (by simp [parts]))
    simp [normalize, hvalue]

/-- A value is a variant of its normal form. -/
theorem alike_of_normalize {v : Value} {j : Json} (h : normalize v = .ok j) :
    v.Alike (ofJson j) := by
  induction v using Value.induction_on generalizing j with
  | step v ih =>
    obtain ⟨rfl, _⟩ | ⟨items, js, hv, hjs, rfl⟩ | ⟨es, ms, rfl, hms, rfl⟩ := cases_of_normalize h
    · exact .refl _
    · have hlist : v.Alike (list items) := by
        obtain rfl | rfl := hv
        · exact .refl _
        · exact .ofTuple items
      have hitems : List.Forall₂ Alike items (js.map ofJson) := by
        rw [List.forall₂_map_right_iff]
        refine forall₂_of_map_eq hjs fun w hw k hk => ih w ?_ hk
        obtain rfl | rfl := hv <;> exact hw
      rw [ofJson, ofJsons_eq_map]
      exact hlist.trans (Alike.of_items hitems [])
    · have hentries : List.Forall₂ (fun e f => e.1 = f.1 ∧ Alike e.2 f.2) es
          (ms.map fun m => (text m.1, ofJson m.2)) := by
        rw [List.forall₂_map_right_iff]
        refine forall₂_of_map_eq hms fun e he m hm => ?_
        obtain ⟨hkey, hvalue⟩ := Prod.mk.inj hm
        exact ⟨hkey, ih e.2 (List.mem_map_of_mem he) hvalue⟩
      rw [ofJson, ofMembers_eq_map]
      exact (Alike.of_entries hentries []).trans (.entries ((List.mergeSort_perm ms _).symm.map _))

/-- Among values that have a normal form, it decides which are variants of each other. -/
theorem normalize_eq_iff_alike {v w : Value} (hv : v.IsWellFormed) {j : Json}
    (h : normalize v = .ok j) : normalize w = .ok j ↔ v.Alike w := by
  constructor
  · intro hw
    exact (alike_of_normalize h).trans (alike_of_normalize hw).symm
  · intro hvw
    rw [← normalize_eq_of_alike hv.names hvw, h]

/-! ### Documents -/

/-- A value that has a normal form is written as its normal form is, or fails to be written for the
same reason. -/
theorem toJson?_of_normalize {v : Value} {j : Json} (h : normalize v = .ok j) :
    v.toJson? = (ofJson j).toJson? := by
  induction v using Value.induction_on generalizing j with
  | step v ih =>
    obtain ⟨rfl, _⟩ | ⟨items, js, hv, hjs, rfl⟩ | ⟨es, ms, rfl, hms, rfl⟩ := cases_of_normalize h
    · rfl
    · have hlist : v.toJson? = (list items).toJson? := by
        obtain rfl | rfl := hv
        · rfl
        · rw [toJson?, toJson?]
      have hitems : items.map toJson? = (js.map ofJson).map toJson? := by
        rw [List.map_map]
        refine map_eq_of_map_eq hjs fun w hw k hk => ih w ?_ hk
        obtain rfl | rfl := hv <;> exact hw
      rw [hlist, ofJson, ofJsons_eq_map, toJson?, toJson?, itemsToJson?_eq_map,
        itemsToJson?_eq_map, hitems]
    · have hentries : es.map (fun e => (e.1, e.2.toJson?))
          = ms.map fun m => (text m.1, (ofJson m.2).toJson?) := by
        refine map_eq_of_map_eq hms fun e he m hm => ?_
        obtain ⟨hkey, hvalue⟩ := Prod.mk.inj hm
        exact Prod.ext hkey (ih e.2 (List.mem_map_of_mem he) hvalue)
      have horder := orderEntries?_map_text (fun m : Text × Json => m.1)
        fun m => (ofJson m.2).toJson?
      -- Sorting what is sorted already changes nothing.
      have hsorted : (ms.mergeSort Json.memberLe).mergeSort (fun a b => Text.le a.1 b.1)
          = ms.mergeSort fun a b => Text.le a.1 b.1 :=
        List.mergeSort_of_pairwise
          (List.pairwise_mergeSort Json.memberLe_trans Json.memberLe_total ms)
      rw [ofJson, ofMembers_eq_map, toJson?, toJson?, entriesToJson?_eq_map,
        entriesToJson?_eq_map, hentries, List.map_map]
      simp only [Value.objectOf, Function.comp_def, horder, hsorted]

/-- The canonical text of a value that has a normal form is that of its normal form, and there is
one unless an integer is too long. -/
theorem canonicalText?_of_normalize {v : Value} (hv : v.IsWellFormed) {j : Json}
    (h : normalize v = .ok j) :
    v.canonicalText? = (ofJson j).canonicalText? ∧
      (j.IsShort → v.canonicalText? = .ok (Json.write .unicode j)) := by
  have htext : v.canonicalText? = (ofJson j).canonicalText? := by
    rw [canonicalText?, canonicalText?, toJson?_of_normalize h]
  refine ⟨htext, fun hshort => ?_⟩
  have hnormal := isNormal_of_normalize hv h
  rw [htext, canonicalText?_ofJson hnormal.isProper hshort, Json.sorted_of_isNormal hnormal]

end Context

/-! ### Notices -/

theorem Value.lookup?_append (name : Text) (es fs : List (Value × Value)) :
    lookup? name (es ++ fs) = (lookup? name es).or (lookup? name fs) := by
  induction es with
  | nil => rfl
  | cons e es ih =>
    rw [List.cons_append, lookup?, lookup?, ih]
    split <;> rfl

/-- Named values with one for a context among them. -/
def Fields.withContext (before after : List (Value × Value)) (v : Value) : List (Value × Value) :=
  before ++ (.text (Text.ofString "context"), v) :: after

section Fields

variable (before after : List (Value × Value)) {v w : Value}

/-- Another context does not change what is found under another name. -/
theorem Fields.value?_withContext {name : String} (h : "context" ≠ name) :
    value? name (withContext before after v) = value? name (withContext before after w) := by
  have hkey : ¬ (Value.text (Text.ofString "context")).text? = some (Text.ofString name) :=
    fun heq => h (Text.ofString_injective (Option.some.inj heq))
  simp only [value?, withContext, Value.lookup?_append, Value.lookup?, if_neg hkey]

theorem Fields.unknown_withContext :
    unknown (withContext before after v) = unknown (withContext before after w) := by
  simp only [unknown, withContext, List.filterMap_append, List.filterMap_cons]

variable (h : Context.normalize v = Context.normalize w)
include h

theorem Fields.context_withContext :
    context (withContext before after v) = context (withContext before after w) := by
  have hkey : (Value.text (Text.ofString "context")).text? = some (Text.ofString "context") := rfl
  simp only [context, value?, withContext, Value.lookup?_append, Value.lookup?, if_pos hkey]
  cases Value.lookup? (Text.ofString "context") before with
  | none => simp [h]
  | some u => rfl

/-- Contexts with the same normal form, or with the same against them, make the same notice, or the
same errors. -/
theorem Notice.ofFields_withContext (kind : Kind) :
    ofFields kind (Fields.withContext before after v)
      = ofFields kind (Fields.withContext before after w) := by
  have hcode : Fields.code (Fields.withContext before after v)
      = Fields.code (Fields.withContext before after w) := by
    rw [Fields.code, Fields.code, Fields.value?_withContext before after (by decide)]
  have hkind : ∀ expected, Fields.kind expected (Fields.withContext before after v)
      = Fields.kind expected (Fields.withContext before after w) := fun expected => by
    rw [Fields.kind, Fields.kind, Fields.value?_withContext before after (by decide)]
  have hcontext := Fields.context_withContext before after h
  have hunknown := Fields.unknown_withContext before after (v := v) (w := w)
  cases kind with
  | validation =>
    have hseverity : Fields.severity (Fields.withContext before after v)
        = Fields.severity (Fields.withContext before after w) := by
      rw [Fields.severity, Fields.severity, Fields.value?_withContext before after (by decide)]
    simp only [ofFields, ValidationNotice.ofFields, hcode, hcontext, hkind, hseverity, hunknown]
  | systemError =>
    have hseverity : Fields.errorSeverity (Fields.withContext before after v)
        = Fields.errorSeverity (Fields.withContext before after w) := by
      rw [Fields.errorSeverity, Fields.errorSeverity,
        Fields.value?_withContext before after (by decide)]
    simp only [ofFields, SystemError.ofFields, hcode, hcontext, hkind, hseverity, hunknown]

end Fields

/-- Variants of a context make the same notice, with the same context in it, or the same errors; and
a value that can be a context has the canonical text of the context that it becomes. -/
theorem Notice.ofFields_of_alike {v w : Value} (hv : v.IsWellFormed) (h : v.Alike w) :
    Context.normalize v = Context.normalize w ∧
      (∀ kind before after, ofFields kind (Fields.withContext before after v)
        = ofFields kind (Fields.withContext before after w)) ∧
      ∀ j, Context.normalize v = .ok j →
        v.canonicalText? = (Value.ofJson j).canonicalText? ∧
          w.canonicalText? = (Value.ofJson j).canonicalText? ∧
          (j.IsShort → v.canonicalText? = .ok (Json.write .unicode j)) := by
  have hnormal := Context.normalize_eq_of_alike hv.names h
  refine ⟨hnormal, fun kind before after => ofFields_withContext before after hnormal kind, ?_⟩
  intro j hj
  obtain ⟨htext, hwritten⟩ := Context.canonicalText?_of_normalize hv hj
  have hw : w.canonicalText? = (Value.ofJson j).canonicalText? := by
    rw [Value.canonicalText?, Value.canonicalText?,
      Context.toJson?_of_normalize (hnormal.symm.trans hj)]
  exact ⟨htext, hw, hwritten⟩

theorem Notice.ofFields_outOfOrder :
    Context.outOfOrder.Alike (Value.ofJson Context.inOrder) ∧
      (∀ kind before after, ofFields kind (Fields.withContext before after Context.outOfOrder)
        = ofFields kind (Fields.withContext before after (Value.ofJson Context.inOrder))) ∧
      Context.outOfOrder.canonicalText? = (Value.ofJson Context.inOrder).canonicalText? := by
  have halike := Context.alike_of_normalize Context.normalize_outOfOrder
  have hsame := ofFields_of_alike Context.isWellFormed_outOfOrder halike
  exact ⟨halike, hsame.2.1, (hsame.2.2 _ Context.normalize_outOfOrder).1⟩

end NoticeLedger
