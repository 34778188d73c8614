import Mathlib.Data.Multiset.Basic
import NoticeLedger.Proofs.Contexts

/-!
# What a context may be

A value is brought into normal form exactly if everything nested in it is one of the kinds that a
context is made of (`Context.exists_normalize_iff`). What comes out tells the same at every place:
the same number of items, the same keys, the same leaf (`Context.surface_at?_of_normalize`). It is a
normal form, so that nothing changes when it is normalized again
(`Context.normalize_isNormalFormOf`).
-/

namespace NoticeLedger

namespace Value

/-! ### Nested values -/

theorem sizeOf_lt_of_mem_parts {v w : Value} (h : w ∈ v.parts) : sizeOf w < sizeOf v := by
  have hitems : ∀ items : List Value, w ∈ items → sizeOf w < 1 + sizeOf items := fun items hw =>
    Nat.lt_add_left 1 (List.sizeOf_lt_of_mem hw)
  cases v with
  | list items => simpa using hitems items h
  | tuple items => simpa using hitems items h
  | set items => simpa using hitems items h
  | map es =>
    obtain ⟨⟨key, u⟩, he, rfl⟩ := List.mem_map.mp h
    have hlt := List.sizeOf_lt_of_mem he
    simp only [map.sizeOf_spec, Prod.mk.sizeOf_spec] at hlt ⊢
    omega
  | null => cases h
  | bool b => cases h
  | int n => cases h
  | float x => cases h
  | text t => cases h
  | bytes bs => cases h
  | foreign shown => cases h

/-- Induction over nested values. -/
theorem induction_on {motive : Value → Prop} (v : Value)
    (step : ∀ v, (∀ w ∈ v.parts, motive w) → motive v) : motive v :=
  step v fun w _ => induction_on w step
termination_by sizeOf v
decreasing_by exact sizeOf_lt_of_mem_parts ‹_›

/-- A property of a value and of everything nested in it. -/
inductive Everywhere (p : Value → Prop) : Value → Prop where
  | intro {v : Value} (here : p v) (inside : ∀ w ∈ v.parts, Everywhere p w) : Everywhere p v

theorem everywhere_iff {p : Value → Prop} {v : Value} :
    v.Everywhere p ↔ p v ∧ ∀ w ∈ v.parts, w.Everywhere p := by
  constructor
  · rintro ⟨here, inside⟩
    exact ⟨here, inside⟩
  · rintro ⟨here, inside⟩
    exact ⟨here, inside⟩

theorem everywhere_ofJson {p : Value → Prop} (h : ∀ j, p (ofJson j)) (j : Json) :
    (ofJson j).Everywhere p := by
  induction j using Json.induction_on with
  | step j ih =>
    refine .intro (h j) fun w hw => ?_
    cases j with
    | arr items =>
      rw [ofJson, ofJsons_eq_map] at hw
      obtain ⟨k, hk, rfl⟩ := List.mem_map.mp hw
      exact ih k hk
    | obj ms =>
      rw [ofJson, ofMembers_eq_map] at hw
      obtain ⟨e, he, rfl⟩ := List.mem_map.mp hw
      obtain ⟨m, hm, rfl⟩ := List.mem_map.mp he
      exact ih m.2 (Json.mem_children_obj hm)
    | null => cases hw
    | bool b => cases hw
    | int n => cases hw
    | float x => cases hw
    | str t => cases hw

/-- The value is of a kind that a context is made of: null, a truth value, an integer, a finite
double, a text, a list, a tuple, or a map whose keys are texts. -/
def PlainHere : Value → Prop
  | null      => True
  | bool _    => True
  | int _     => True
  | float x   => x.isFinite = true
  | text _    => True
  | list _    => True
  | tuple _   => True
  | map es    => ∀ e ∈ es, ∃ t, e.1 = text t
  | bytes _   => False
  | set _     => False
  | foreign _ => False

/-- The value is not a tuple. -/
def NoTuple : Value → Prop
  | tuple _ => False
  | _       => True

theorem noTuple_ofJson (j : Json) : (ofJson j).NoTuple := by
  cases j with
  | null => exact trivial
  | bool b => exact trivial
  | int n => exact trivial
  | float x => exact trivial
  | str t => exact trivial
  | arr items => rw [ofJson]; exact trivial
  | obj ms => rw [ofJson]; exact trivial

/-! ### Places in a value -/

/-- A turn on the way into a value. -/
inductive Turn where
  | item (n : ℕ)
  | entry (name : Text)
  deriving DecidableEq, Repr

/-- The value one turn further in. -/
def part? : Value → Turn → Option Value
  | list items, .item n    => items[n]?
  | tuple items, .item n   => items[n]?
  | map es, .entry name    => lookup? name es
  | _, _                   => none

/-- The value at the end of a way. -/
def at? (v : Value) : List Turn → Option Value
  | []      => some v
  | t :: ts => (v.part? t).bind fun w => w.at? ts

/-- What a value is, apart from what is inside: a sequence of so many items, a map with such keys in
whatever order, or a leaf. -/
inductive Surface where
  | items (count : ℕ)
  | entries (keys : Multiset Value)
  | leaf (v : Value)

/-- What is seen of a value from the outside. -/
def surface : Value → Surface
  | list items  => .items items.length
  | tuple items => .items items.length
  | map es      => .entries (es.map (·.1))
  | v           => .leaf v

theorem lookup?_eq_some_iff {name : Text} {es : List (Value × Value)} {v : Value}
    (hkeys : es.Pairwise fun a b => sameKey a.1 b.1 = false) :
    lookup? name es = some v ↔ (text name, v) ∈ es := by
  induction hkeys with
  | nil => simp [lookup?]
  | @cons e es hne _ ih =>
    rw [lookup?, List.mem_cons]
    split
    · rename_i hname
      have hkey : e.1 = text name := text?_eq_some hname
      constructor
      · rintro ⟨rfl⟩
        exact Or.inl (Prod.ext hkey.symm rfl)
      · rintro (rfl | hmem)
        · rfl
        · have hfresh := hne _ hmem
          rw [hkey, sameKey, beq_self_eq_true] at hfresh
          cases hfresh
    · rename_i hname
      rw [ih]
      refine ⟨Or.inr, Or.rec (fun heq => ?_) id⟩
      rw [← heq] at hname
      exact absurd rfl hname

end Value

namespace Context

open Value

/-! ### What is accepted -/

theorem normalize_list_eq_ok_iff {items : List Value} {j : Json} :
    normalize (.list items) = .ok j ↔ ∃ js, items.map normalize = js.map .ok ∧ j = .arr js := by
  rw [normalize, normalizeItems_eq_map]
  constructor
  · intro h
    obtain ⟨js, hjs, rfl⟩ := exists_of_map_ok h
    exact ⟨js, collect_eq_ok_iff.mp hjs, rfl⟩
  · rintro ⟨js, hjs, rfl⟩
    rw [hjs, collect_map_ok]
    rfl

theorem normalize_tuple (items : List Value) :
    normalize (.tuple items) = normalize (.list items) := by
  rw [normalize, normalize]

theorem normalize_map_eq_ok_iff {es : List (Value × Value)} {j : Json} :
    normalize (.map es) = .ok j ↔ ∃ ms : List (Text × Json),
      es.map (fun e => (e.1, normalize e.2)) = ms.map (fun m => (.text m.1, .ok m.2)) ∧
        j = .obj (ms.mergeSort Json.memberLe) := by
  rw [normalize, normalizeEntries_eq_map]
  exact objectOf_eq_ok_iff

theorem exists_normalize_list_iff {items : List Value} :
    (∃ j, normalize (.list items) = .ok j) ↔ ∀ w ∈ items, ∃ j, normalize w = .ok j := by
  rw [normalize, normalizeItems_eq_map, exists_map_ok_iff, exists_collect_map_ok_iff]

theorem exists_normalize_map_iff {es : List (Value × Value)} :
    (∃ j, normalize (.map es) = .ok j) ↔
      (∀ e ∈ es, ∃ t, e.1 = .text t) ∧ ∀ e ∈ es, ∃ j, normalize e.2 = .ok j := by
  have hentries : (∃ j, normalize (.map es) = .ok j) ↔ ∃ ms : List (Text × Json),
      es.map (fun e => (e.1, normalize e.2)) = ms.map (fun m => (.text m.1, .ok m.2)) := by
    constructor
    · rintro ⟨j, hj⟩
      obtain ⟨ms, hms, _⟩ := normalize_map_eq_ok_iff.mp hj
      exact ⟨ms, hms⟩
    · rintro ⟨ms, hms⟩
      exact ⟨_, normalize_map_eq_ok_iff.mpr ⟨ms, hms, rfl⟩⟩
  rw [hentries, exists_map_eq_map_iff, ← forall₂_and]
  refine forall₂_congr fun e _ => ?_
  constructor
  · rintro ⟨m, hm⟩
    obtain ⟨hkey, hvalue⟩ := Prod.mk.inj hm
    exact ⟨⟨m.1, hkey⟩, ⟨m.2, hvalue⟩⟩
  · rintro ⟨⟨t, hkey⟩, ⟨j, hvalue⟩⟩
    exact ⟨(t, j), Prod.ext hkey hvalue⟩

/-- A value can be a context exactly if everything nested in it is of a kind that a context is made
of. -/
theorem exists_normalize_iff {v : Value} :
    (∃ j, normalize v = .ok j) ↔ v.Everywhere PlainHere := by
  induction v using Value.induction_on with
  | step v ih =>
    rw [everywhere_iff, ← forall₂_congr ih]
    cases v with
    | null => simp [normalize, PlainHere, parts]
    | bool b => simp [normalize, PlainHere, parts]
    | int n => simp [normalize, PlainHere, parts]
    | text t => simp [normalize, PlainHere, parts]
    | float x =>
      rw [normalize]
      constructor
      · rintro ⟨j, hj⟩
        split at hj
        · rename_i hfinite
          exact ⟨hfinite, by simp [parts]⟩
        · cases hj
      · rintro ⟨hfinite, _⟩
        exact ⟨_, if_pos hfinite⟩
    | list items => exact exists_normalize_list_iff.trans (iff_of_eq (true_and _)).symm
    | tuple items =>
      rw [normalize_tuple]
      exact exists_normalize_list_iff.trans (iff_of_eq (true_and _)).symm
    | map es =>
      rw [exists_normalize_map_iff, parts, List.forall_mem_map]
      rfl
    | bytes bs => simp [normalize, PlainHere]
    | set items => simp [normalize, PlainHere]
    | foreign shown => simp [normalize, PlainHere]

/-! ### What is kept -/

/-- What has a normal form is a leaf that is its own, a sequence of values that have one, or a map
from texts to such values. -/
theorem cases_of_normalize {v : Value} {j : Json} (h : normalize v = .ok j) :
    (v = ofJson j ∧ ∀ t, v.part? t = none) ∨
      (∃ items js, (v = .list items ∨ v = .tuple items) ∧
        items.map normalize = js.map .ok ∧ j = .arr js) ∨
      ∃ es, ∃ ms : List (Text × Json), v = .map es ∧
        es.map (fun e => (e.1, normalize e.2)) = ms.map (fun m => (.text m.1, .ok m.2)) ∧
        j = .obj (ms.mergeSort Json.memberLe) := by
  cases v with
  | null => obtain rfl := Except.ok.inj h; exact .inl ⟨rfl, fun _ => rfl⟩
  | bool b => obtain rfl := Except.ok.inj h; exact .inl ⟨rfl, fun _ => rfl⟩
  | int n => obtain rfl := Except.ok.inj h; exact .inl ⟨rfl, fun _ => rfl⟩
  | text t => obtain rfl := Except.ok.inj h; exact .inl ⟨rfl, fun _ => rfl⟩
  | float x =>
    rw [normalize] at h
    split at h
    · obtain rfl := Except.ok.inj h
      exact .inl ⟨rfl, fun _ => rfl⟩
    · cases h
  | list items =>
    obtain ⟨js, hjs, rfl⟩ := normalize_list_eq_ok_iff.mp h
    exact .inr (.inl ⟨items, js, .inl rfl, hjs, rfl⟩)
  | tuple items =>
    rw [normalize_tuple] at h
    obtain ⟨js, hjs, rfl⟩ := normalize_list_eq_ok_iff.mp h
    exact .inr (.inl ⟨items, js, .inr rfl, hjs, rfl⟩)
  | map es =>
    obtain ⟨ms, hms, rfl⟩ := normalize_map_eq_ok_iff.mp h
    exact .inr (.inr ⟨es, ms, rfl, hms, rfl⟩)
  | bytes bs => cases h
  | set items => cases h
  | foreign shown => cases h

/-- From the outside a value looks like its normal form. -/
theorem surface_of_normalize {v : Value} {j : Json} (h : normalize v = .ok j) :
    (ofJson j).surface = v.surface := by
  obtain ⟨rfl, _⟩ | ⟨items, js, hv, hjs, rfl⟩ | ⟨es, ms, rfl, hms, rfl⟩ := cases_of_normalize h
  · rfl
  · have hlength : items.length = js.length := by simpa using congrArg List.length hjs
    obtain rfl | rfl := hv <;> simp [ofJson, surface, hlength]
  · have hkeys : es.map (·.1) = ms.map fun m => .text m.1 := by
      simpa [Function.comp_def] using congrArg (List.map (·.1)) hms
    have hperm := (List.mergeSort_perm ms Json.memberLe).map fun m => Value.text m.1
    simpa [ofJson, surface, hkeys, Function.comp_def] using hperm

/-- The entries of a map are the members of its normal form. -/
theorem exists_member_of_mem {es : List (Value × Value)} {ms : List (Text × Json)}
    (h : es.map (fun e => (e.1, normalize e.2)) = ms.map fun m => (.text m.1, .ok m.2))
    {name : Text} {w : Value} (hw : (.text name, w) ∈ es) :
    ∃ k, (name, k) ∈ ms ∧ normalize w = .ok k := by
  have hmem := List.mem_map_of_mem (f := fun e : Value × Value => (e.1, normalize e.2)) hw
  rw [h] at hmem
  obtain ⟨⟨name', k⟩, hk, heq⟩ := List.mem_map.mp hmem
  obtain ⟨hname, hvalue⟩ := Prod.mk.inj heq
  obtain rfl := text.inj hname
  exact ⟨k, hk, hvalue.symm⟩

theorem exists_entry_of_mem {es : List (Value × Value)} {ms : List (Text × Json)}
    (h : es.map (fun e => (e.1, normalize e.2)) = ms.map fun m => (.text m.1, .ok m.2))
    {name : Text} {k : Json} (hk : (name, k) ∈ ms) : ∃ w, (.text name, w) ∈ es := by
  have hmem := List.mem_map_of_mem
    (f := fun m : Text × Json => (Value.text m.1, (.ok m.2 : Except ContextFault Json))) hk
  rw [← h] at hmem
  obtain ⟨⟨key, w⟩, hw, heq⟩ := List.mem_map.mp hmem
  obtain ⟨rfl, _⟩ := Prod.mk.inj heq
  exact ⟨w, hw⟩

/-- The second value is what the first is brought into. -/
def IsNormalized (w u : Value) : Prop :=
  w.IsWellFormed ∧ ∃ k, normalize w = .ok k ∧ u = ofJson k

/-- One turn further in there is a value beside its normal form, or nothing on either side. -/
theorem part?_of_normalize {v : Value} (hv : v.IsWellFormed) {j : Json} (h : normalize v = .ok j)
    (t : Turn) : Option.Rel IsNormalized (v.part? t) ((ofJson j).part? t) := by
  have hproper := isWellFormed_ofJson (isNormal_of_normalize hv h).isProper
  obtain ⟨keys, inside⟩ := hv
  obtain ⟨rfl, hnone⟩ | ⟨items, js, hv, hjs, rfl⟩ | ⟨es, ms, rfl, hms, rfl⟩ := cases_of_normalize h
  · rw [hnone t]
    exact .none
  · have hwell : ∀ w ∈ items, w.IsWellFormed := by
      obtain rfl | rfl := hv <;> exact inside
    have hpart : v.part? t = (Value.list items).part? t := by
      obtain rfl | rfl := hv <;> cases t <;> rfl
    rw [hpart, ofJson, ofJsons_eq_map]
    cases t with
    | entry name => exact .none
    | item n =>
      have hn := congrArg (·[n]?) hjs
      simp only [List.getElem?_map] at hn
      rw [part?, part?, List.getElem?_map]
      cases hw : items[n]? with
      | none =>
        rw [hw] at hn
        rw [Option.map_eq_none_iff.mp hn.symm]
        exact .none
      | some w =>
        rw [hw] at hn
        obtain ⟨k, hk, hvalue⟩ := Option.map_eq_some_iff.mp hn.symm
        rw [hk]
        exact .some ⟨hwell w (List.mem_of_getElem? hw), k, hvalue.symm, rfl⟩
  · rw [ofJson] at hproper ⊢
    cases hproper with
    | intro keys' _ =>
    cases t with
    | item n => exact .none
    | entry name =>
      rw [part?, part?]
      cases hw : lookup? name es with
      | none =>
        cases hu : lookup? name (ofMembers (ms.mergeSort Json.memberLe)) with
        | none => exact .none
        | some u =>
          have hmem := (lookup?_eq_some_iff (keys' _ rfl)).mp hu
          rw [ofMembers_eq_map] at hmem
          obtain ⟨m, hm, heq⟩ := List.mem_map.mp hmem
          obtain ⟨hname, _⟩ := Prod.mk.inj heq
          obtain rfl := text.inj hname
          obtain ⟨w, hwes⟩ := exists_entry_of_mem hms (List.mem_mergeSort.mp hm)
          rw [(lookup?_eq_some_iff (keys _ rfl)).mpr hwes] at hw
          cases hw
      | some w =>
        have hwes := (lookup?_eq_some_iff (keys _ rfl)).mp hw
        obtain ⟨k, hk, hvalue⟩ := exists_member_of_mem hms hwes
        have hmem : (.text name, ofJson k) ∈ ofMembers (ms.mergeSort Json.memberLe) := by
          rw [ofMembers_eq_map]
          exact List.mem_map.mpr ⟨(name, k), List.mem_mergeSort.mpr hk, rfl⟩
        rw [(lookup?_eq_some_iff (keys' _ rfl)).mpr hmem]
        exact .some ⟨inside w (List.mem_map_of_mem hwes), k, hvalue, rfl⟩

/-- At every place a value looks like its normal form. -/
theorem surface_at?_of_normalize {v : Value} (hv : v.IsWellFormed) {j : Json}
    (h : normalize v = .ok j) (way : List Turn) :
    ((ofJson j).at? way).map surface = (v.at? way).map surface := by
  induction way generalizing v j with
  | nil => exact congrArg some (surface_of_normalize h)
  | cons t way ih =>
    have hpart := part?_of_normalize hv h t
    rw [at?, at?]
    generalize v.part? t = x, (ofJson j).part? t = y at hpart ⊢
    cases hpart with
    | none => rfl
    | some hsame =>
      obtain ⟨hw, k, hk, rfl⟩ := hsame
      exact ih hw hk

/-! ### Normal forms -/

/-- The JSON value is the normal form of the value: it holds no tuple, its members ascend, it looks
the same at every place, and it is its own normal form. -/
structure IsNormalFormOf (j : Json) (v : Value) : Prop where
  noTuple : (ofJson j).Everywhere NoTuple
  isNormal : j.IsNormal
  looksAlike : ∀ way, ((ofJson j).at? way).map surface = (v.at? way).map surface
  stable : normalize (ofJson j) = .ok j

/-- A value has a normal form exactly if everything nested in it is of a kind that a context is made
of, and it is brought into this form. -/
theorem normalize_isNormalFormOf {v : Value} (hv : v.IsWellFormed) :
    ((∃ j, normalize v = .ok j) ↔ v.Everywhere PlainHere) ∧
      ∀ j, normalize v = .ok j → IsNormalFormOf j v := by
  refine ⟨exists_normalize_iff, fun j h => ?_⟩
  have hnormal := isNormal_of_normalize hv h
  exact {
    noTuple    := everywhere_ofJson noTuple_ofJson j
    isNormal   := hnormal
    looksAlike := surface_at?_of_normalize hv h
    stable     := normalize_ofJson hnormal }

/-- A map with a tuple in it and its members out of order. -/
def outOfOrder : Value :=
  .map [(.text (Text.ofString "rows"), .tuple [.int 1, .bool true]),
    (.text (Text.ofString "note"), .list [
      .map [(.text (Text.ofString "to"), .null), (.text (Text.ofString "by"), .int 2)]])]

/-- The same in normal form. -/
def inOrder : Json :=
  .obj [(Text.ofString "note", .arr [
      .obj [(Text.ofString "by", .int 2), (Text.ofString "to", .null)]]),
    (Text.ofString "rows", .arr [.int 1, .bool true])]

theorem normalize_map_of_perm {es : List (Value × Value)} (ms : List (Text × Json))
    {ns : List (Text × Json)}
    (h : es.map (fun e => (e.1, normalize e.2)) = ms.map fun m => (.text m.1, .ok m.2))
    (hperm : ns.Perm ms) (hns : Json.Ascending ns) : normalize (.map es) = .ok (.obj ns) :=
  normalize_map_eq_ok_iff.mpr ⟨ms, h, by rw [Json.mergeSort_eq_of_ascending hperm hns]⟩

theorem normalize_outOfOrder : normalize outOfOrder = .ok inOrder := by
  have hinner : normalize
      (.map [(.text (Text.ofString "to"), .null), (.text (Text.ofString "by"), .int 2)])
        = .ok (.obj [(Text.ofString "by", .int 2), (Text.ofString "to", .null)]) :=
    normalize_map_of_perm [(Text.ofString "to", .null), (Text.ofString "by", .int 2)]
      rfl (.swap ..) (by decide)
  have hnote : normalize (.list
      [.map [(.text (Text.ofString "to"), .null), (.text (Text.ofString "by"), .int 2)]])
        = .ok (.arr [.obj [(Text.ofString "by", .int 2), (Text.ofString "to", .null)]]) := by
    refine normalize_list_eq_ok_iff.mpr ⟨_, ?_, rfl⟩
    rw [List.map_singleton, hinner, List.map_singleton]
  refine normalize_map_of_perm [(Text.ofString "rows", .arr [.int 1, .bool true]),
    (Text.ofString "note", .arr [
      .obj [(Text.ofString "by", .int 2), (Text.ofString "to", .null)]])] ?_ (.swap ..)
    (by decide)
  simp only [List.map_cons, hnote]
  rfl

theorem isWellFormed_outOfOrder : outOfOrder.IsWellFormed := by
  have hkeys : ∀ s t : Text, s ≠ t → sameKey (.text s) (.text t) = false := fun s t hne => by
    rw [sameKey, beq_false_of_ne hne]
  have hrows := hkeys (Text.ofString "rows") (Text.ofString "note") (by decide)
  have hto := hkeys (Text.ofString "to") (Text.ofString "by") (by decide)
  have hnull : null.IsWellFormed := .intro (by simp) (by simp [parts])
  have hbool : (bool true).IsWellFormed := .intro (by simp) (by simp [parts])
  have hint : ∀ n, (int n).IsWellFormed := fun n => .intro (by simp) (by simp [parts])
  have hinner : (map [(text (Text.ofString "to"), null),
      (text (Text.ofString "by"), int 2)]).IsWellFormed :=
    .intro (by simp [hto]) (by simp [parts, hnull, hint])
  have hnote : (list [map [(text (Text.ofString "to"), null),
      (text (Text.ofString "by"), int 2)]]).IsWellFormed :=
    .intro (by simp) (by simp [parts, hinner])
  have htuple : (tuple [int 1, bool true]).IsWellFormed :=
    .intro (by simp) (by simp [parts, hint, hbool])
  exact .intro (by simp [outOfOrder, hrows]) (by simp [outOfOrder, parts, hnote, htuple])

theorem isNormalFormOf_outOfOrder : outOfOrder.IsWellFormed ∧ IsNormalFormOf inOrder outOfOrder :=
  ⟨isWellFormed_outOfOrder,
    (normalize_isNormalFormOf isWellFormed_outOfOrder).2 _ normalize_outOfOrder⟩

end Context

end NoticeLedger
