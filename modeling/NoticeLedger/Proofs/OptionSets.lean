import Mathlib.Algebra.Group.Nat.Defs
import NoticeLedger.Proofs.LimitsFaults
import NoticeLedger.Proofs.Normalization

/-!
# Sets of options

Options give limits exactly if each of them names a limit, no two the same one, and every value is a
natural number (`Limits.AreValid`); their order does not count then, and the constructor of limits
accepts what they resolve to. In other cases the first option that cannot stand behind the options
in front of it tells what is wrong (`Limits.ofOptions_decides`).
-/

namespace NoticeLedger

namespace LimitField

variable {f g : LimitField} {option : Value}

/-- An option names a limit in one of its two spellings. -/
def IsNamedBy (f : LimitField) (option : Value) : Prop :=
  option = .text (Text.ofString f.name) ∨ option = .text (Text.ofString f.camelName)

theorem name_injective : Function.Injective name := by
  intro f g h
  cases f <;> cases g <;> first | rfl | exact absurd h (by decide)

theorem mem_all (f : LimitField) : f ∈ all := by
  cases f <;> decide

theorem ofOption?_eq_some_iff : ofOption? option = some f ↔ f.IsNamedBy option := by
  constructor
  · intro h
    have hspelled := List.find?_some h
    rw [Bool.or_eq_true, beq_iff_eq, beq_iff_eq] at hspelled
    exact hspelled.imp Value.text?_eq_some Value.text?_eq_some
  · rintro (rfl | rfl) <;> cases f <;> decide

theorem ofOption?_eq_none_iff :
    ofOption? option = none ↔ ∀ f : LimitField, ¬f.IsNamedBy option := by
  simp only [Option.eq_none_iff_forall_ne_some, ne_eq, ofOption?_eq_some_iff]

theorem IsNamedBy.unique (hf : f.IsNamedBy option) (hg : g.IsNamedBy option) : f = g :=
  Option.some.inj <|
    (ofOption?_eq_some_iff.mpr hf).symm.trans (ofOption?_eq_some_iff.mpr hg)

end LimitField

section LimitOf

variable {v : Value} {n : Nat}

theorem limitOf_eq_ok_iff : limitOf v = .ok n ↔ v = .int n := by
  cases v with
  | int k =>
    rw [limitOf]
    split <;> simp <;> omega
  | _ => simp [limitOf]

theorem limitOf_eq_notInteger_iff : limitOf v = .error .notInteger ↔ ∀ k, v ≠ .int k := by
  cases v with
  | int k =>
    rw [limitOf]
    split <;> simp
  | _ => simp [limitOf]

theorem limitOf_eq_negative_iff : limitOf v = .error .negative ↔ ∃ k < 0, v = .int k := by
  cases v with
  | int k =>
    rw [limitOf]
    split <;> simp <;> omega
  | _ => simp [limitOf]

end LimitOf

namespace Limits

open LimitField

variable {options others rest before : List (Value × Value)} {seen seen' : List LimitField}
  {l l' l'' : Limits} {f g : LimitField} {option v : Value} {fault : OptionFault}

/-- The limit of a kind. -/
def get (l : Limits) : LimitField → Nat
  | .total   => l.total
  | .perKey  => l.perKey
  | .samples => l.samples

theorem get_set (l : Limits) (f g : LimitField) (n : Nat) :
    (l.set f n).get g = if g = f then n else l.get g := by
  cases f <;> cases g <;> rfl

theorem ext_get (h : ∀ f, l.get f = l'.get f) : l = l' := by
  cases l
  cases l'
  have htotal := h .total
  have hperKey := h .perKey
  have hsamples := h .samples
  simp only [get] at htotal hperKey hsamples
  rw [htotal, hperKey, hsamples]

/-! ### Valid options -/

/-- One of the options names the limit. -/
def Mentions (options : List (Value × Value)) (f : LimitField) : Prop :=
  ∃ e ∈ options, f.IsNamedBy e.1

/-- All options name limits, no two of them the same one, and their values are natural numbers. -/
structure AreValid (options : List (Value × Value)) : Prop where
  known : ∀ e ∈ options, ∃ f : LimitField, f.IsNamedBy e.1
  distinct : options.Pairwise fun e e' => ∀ f : LimitField, f.IsNamedBy e.1 → ¬f.IsNamedBy e'.1
  natural : ∀ e ∈ options, ∃ n : Nat, e.2 = .int n

theorem mentions_cons_iff :
    Mentions ((option, v) :: rest) f ↔ f.IsNamedBy option ∨ Mentions rest f := by
  simp only [Mentions, List.mem_cons, exists_eq_or_imp]

theorem areValid_cons_iff : AreValid ((option, v) :: rest) ↔
    (∃ f, f.IsNamedBy option ∧ ¬Mentions rest f) ∧ (∃ n : Nat, v = .int n) ∧ AreValid rest := by
  constructor
  · rintro ⟨hknown, hdistinct, hnatural⟩
    rw [List.forall_mem_cons] at hknown hnatural
    rw [List.pairwise_cons] at hdistinct
    obtain ⟨f, hf⟩ := hknown.1
    refine ⟨⟨f, hf, ?_⟩, hnatural.1, hknown.2, hdistinct.2, hnatural.2⟩
    rintro ⟨e, he, hfe⟩
    exact hdistinct.1 e he f hf hfe
  · rintro ⟨⟨f, hf, hnew⟩, hn, hknown, hdistinct, hnatural⟩
    refine ⟨List.forall_mem_cons.mpr ⟨⟨f, hf⟩, hknown⟩, List.pairwise_cons.mpr ⟨?_, hdistinct⟩,
      List.forall_mem_cons.mpr ⟨hn, hnatural⟩⟩
    intro e he g hg hge
    obtain rfl := hg.unique hf
    exact hnew ⟨e, he, hge⟩

theorem AreValid.perm (h : AreValid options) (hperm : options.Perm others) : AreValid others where
  known e he := h.known e (hperm.mem_iff.mpr he)
  distinct := hperm.pairwise h.distinct fun hne f hf hf' => hne f hf' hf
  natural e he := h.natural e (hperm.mem_iff.mpr he)

theorem Sets.mem_iff (h : Sets options seen seen') : f ∈ seen' ↔ f ∈ seen ∨ Mentions options f := by
  induction h with
  | nil seen => simp [Mentions]
  | @cons option v g n rest seen seen' hg _ _ _ ih =>
    have hnamed : f.IsNamedBy option ↔ f = g :=
      ⟨fun hf => hf.unique (ofOption?_eq_some_iff.mp hg),
        fun heq => heq ▸ ofOption?_eq_some_iff.mp hg⟩
    rw [ih, mentions_cons_iff, hnamed, List.mem_cons]
    tauto

/-- Valid options can be set one after another if no limit is set already that they name. -/
theorem exists_sets_iff :
    (∃ seen', Sets options seen seen') ↔ AreValid options ∧ ∀ f ∈ seen, ¬Mentions options f := by
  -- What is set already grows with every option: that the options behind it do not name its limit
  -- is one half of `distinct`.
  induction options generalizing seen with
  | nil =>
    refine iff_of_true ⟨seen, .nil seen⟩ ⟨⟨nofun, .nil, nofun⟩, ?_⟩
    rintro f - ⟨e, he, -⟩
    cases he
  | cons entry rest ih =>
    obtain ⟨option, v⟩ := entry
    rw [areValid_cons_iff]
    constructor
    · rintro ⟨seen', _ | ⟨hf, hnew, hn, hrest⟩⟩
      rw [ofOption?_eq_some_iff] at hf
      obtain ⟨hvalid, hunseen⟩ := ih.mp ⟨seen', hrest⟩
      rw [List.forall_mem_cons] at hunseen
      refine ⟨⟨⟨_, hf, hunseen.1⟩, ⟨_, limitOf_eq_ok_iff.mp hn⟩, hvalid⟩, fun g hg => ?_⟩
      rw [mentions_cons_iff]
      rintro (hg' | hmentions)
      · exact hnew (hg'.unique hf ▸ hg)
      · exact hunseen.2 g hg hmentions
    · rintro ⟨⟨⟨f, hf, hnew⟩, ⟨n, hn⟩, hvalid⟩, hunseen⟩
      have hrest : ∀ g ∈ f :: seen, ¬Mentions rest g :=
        List.forall_mem_cons.mpr
          ⟨hnew, fun g hg hmentions => hunseen g hg (mentions_cons_iff.mpr (.inr hmentions))⟩
      obtain ⟨seen', hsets⟩ := ih.mpr ⟨hvalid, hrest⟩
      exact ⟨seen', .cons (ofOption?_eq_some_iff.mpr hf)
        (fun hmem => hunseen f hmem (mentions_cons_iff.mpr (.inl hf)))
        (limitOf_eq_ok_iff.mpr hn) hsets⟩

theorem areValid_iff_exists_sets : AreValid options ↔ ∃ seen', Sets options [] seen' := by
  rw [exists_sets_iff]
  exact (and_iff_left nofun).symm

/-! ### The limits that are set -/

/-- The limits that options name are set in addition to those there are. -/
structure AreSetBy (options : List (Value × Value)) (l l' : Limits) : Prop where
  named : ∀ option f (n : Nat), (option, .int n) ∈ options → f.IsNamedBy option → l'.get f = n
  others : ∀ f, ¬Mentions options f → l'.get f = l.get f

theorem AreSetBy.perm (h : AreSetBy options l l') (hperm : options.Perm others) :
    AreSetBy others l l' where
  named option f n he := h.named option f n (hperm.mem_iff.mpr he)
  others f hf := h.others f fun ⟨e, he, hfe⟩ => hf ⟨e, hperm.mem_iff.mp he, hfe⟩

theorem AreSetBy.unique (hvalid : AreValid options) (h : AreSetBy options l l')
    (h' : AreSetBy options l l'') : l' = l'' := by
  refine ext_get fun f => ?_
  by_cases hf : Mentions options f
  · obtain ⟨⟨option, v⟩, he, hfe⟩ := hf
    obtain ⟨n, rfl⟩ := hvalid.natural _ he
    rw [h.named option f n he hfe, h'.named option f n he hfe]
  · rw [h.others f hf, h'.others f hf]

theorem Sets.exists_setOptions (h : Sets options seen seen') (l : Limits) :
    ∃ l', setOptions options seen l = .ok l' ∧ AreSetBy options l l' := by
  induction h generalizing l with
  | nil seen => exact ⟨l, rfl, nofun, fun _ _ => rfl⟩
  | @cons option v f n rest seen seen' hf hnew hn hrest ih =>
    obtain ⟨l', hl', hset⟩ := ih (l.set f n)
    rw [setOptions_of_fits hf hnew hn]
    obtain ⟨-, hunseen⟩ := exists_sets_iff.mp ⟨seen', hrest⟩
    have hget := hset.others f (hunseen f List.mem_cons_self)
    rw [get_set, if_pos rfl] at hget
    rw [ofOption?_eq_some_iff] at hf
    refine ⟨l', hl', fun option' g k he hg => ?_, fun g hg => ?_⟩
    · rcases List.mem_cons.mp he with heq | he
      · cases heq
        obtain rfl := hg.unique hf
        rw [limitOf_eq_ok_iff, Value.int.injEq, Int.natCast_inj] at hn
        rw [hget, hn]
      · exact hset.named option' g k he hg
    · rw [mentions_cons_iff, not_or] at hg
      rw [hset.others g hg.2, get_set, if_neg]
      rintro rfl
      exact hg.1 hf

theorem sets_of_setOptions (h : setOptions options seen l = .ok l') :
    ∃ seen', Sets options seen seen' := by
  induction options generalizing seen l with
  | nil => exact ⟨seen, .nil seen⟩
  | cons entry rest ih =>
    obtain ⟨option, v⟩ := entry
    cases hfault : optionFault? seen option v with
    | some fault =>
      rw [setOptions_of_fault hfault] at h
      cases h
    | none =>
      obtain ⟨f, n, hf, hnew, hn⟩ := optionFault?_eq_none_iff.mp hfault
      rw [setOptions_of_fits hf hnew hn] at h
      obtain ⟨seen', hsets⟩ := ih h
      exact ⟨seen', .cons hf hnew hn hsets⟩

theorem AreValid.exists_ofOptions (h : AreValid options) :
    ∃ l, ofOptions options = .ok l ∧ AreSetBy options {} l := by
  obtain ⟨seen', hsets⟩ := areValid_iff_exists_sets.mp h
  exact hsets.exists_setOptions {}

theorem ofOptions_eq_ok_iff :
    ofOptions options = .ok l ↔ AreValid options ∧ AreSetBy options {} l := by
  constructor
  · intro h
    obtain ⟨seen', hsets⟩ := sets_of_setOptions h
    obtain ⟨l', hl', hset⟩ := hsets.exists_setOptions {}
    cases h.symm.trans hl'
    exact ⟨areValid_iff_exists_sets.mpr ⟨seen', hsets⟩, hset⟩
  · rintro ⟨hvalid, hset⟩
    obtain ⟨l', hl', hset'⟩ := hvalid.exists_ofOptions
    rw [hl', hset'.unique hvalid hset]

theorem exists_ofOptions_iff : (∃ l, ofOptions options = .ok l) ↔ AreValid options := by
  constructor
  · rintro ⟨l, hl⟩
    exact (ofOptions_eq_ok_iff.mp hl).1
  · intro hvalid
    obtain ⟨l, hl, -⟩ := hvalid.exists_ofOptions
    exact ⟨l, hl⟩

theorem ofOptions_eq_ok_iff_of_perm (hperm : options.Perm others) :
    ofOptions options = .ok l ↔ ofOptions others = .ok l := by
  rw [ofOptions_eq_ok_iff, ofOptions_eq_ok_iff]
  constructor
  · exact And.imp (·.perm hperm) (·.perm hperm)
  · exact And.imp (·.perm hperm.symm) (·.perm hperm.symm)

/-! ### The constructor -/

/-- The values of options under the names of the limits. -/
def resolved (options : List (Value × Value)) : List (Value × Value) :=
  options.filterMap fun e =>
    (LimitField.ofOption? e.1).map fun f => (.text (Text.ofString f.name), e.2)

theorem mem_resolved_iff : (.text (Text.ofString f.name), v) ∈ resolved options ↔
    ∃ option, f.IsNamedBy option ∧ (option, v) ∈ options := by
  simp only [resolved, List.mem_filterMap, Option.map_eq_some_iff, ofOption?_eq_some_iff]
  constructor
  · rintro ⟨⟨option, w⟩, he, g, hg, heq⟩
    rw [Prod.mk.injEq, Value.text.injEq] at heq
    obtain rfl := name_injective (Text.ofString_injective heq.1)
    obtain rfl := heq.2
    exact ⟨option, hg, he⟩
  · rintro ⟨option, hf, he⟩
    exact ⟨(option, v), he, f, hf, rfl⟩

theorem AreValid.lookup?_resolved_iff (h : AreValid options) :
    Value.lookup? (Text.ofString f.name) (resolved options) = some v ↔
      ∃ option, f.IsNamedBy option ∧ (option, v) ∈ options := by
  rw [← mem_resolved_iff]
  apply Value.lookup?_eq_some_iff
  rw [resolved, List.pairwise_filterMap]
  apply h.distinct.imp
  intro e e' hne b hb b' hb'
  obtain ⟨f, hf, rfl⟩ := Option.map_eq_some_iff.mp hb
  obtain ⟨f', hf', rfl⟩ := Option.map_eq_some_iff.mp hb'
  rw [ofOption?_eq_some_iff] at hf hf'
  rw [Value.sameKey, beq_eq_false_iff_ne]
  intro heq
  obtain rfl := name_injective (Text.ofString_injective heq)
  exact hne f hf hf'

/-- Fields that are natural numbers are set. -/
theorem setFields_eq_ok {fields : List (Value × Value)} {fs : List LimitField}
    (hgiven : ∀ f ∈ fs, ∀ v, Value.lookup? (Text.ofString f.name) fields = some v →
      v = .int (l'.get f))
    (hothers : ∀ f, (f ∈ fs → Value.lookup? (Text.ofString f.name) fields = none) →
      l'.get f = l.get f) :
    setFields fields fs l = .ok l' := by
  induction fs generalizing l with
  | nil => rw [setFields, ext_get fun f => hothers f nofun]
  | cons f fs ih =>
    rw [List.forall_mem_cons] at hgiven
    rw [setFields]
    cases hlookup : Value.lookup? (Text.ofString f.name) fields with
    | none =>
      refine ih hgiven.2 fun g hg => hothers g fun hmem => ?_
      rcases List.mem_cons.mp hmem with rfl | hmem
      · exact hlookup
      · exact hg hmem
    | some v =>
      simp only [limitOf_eq_ok_iff.mpr (hgiven.1 v hlookup)]
      refine ih hgiven.2 fun g hg => ?_
      rw [get_set]
      split
      · rename_i heq
        rw [heq]
      · rename_i hne
        exact hothers g fun hmem => hg ((List.mem_cons.mp hmem).resolve_left hne)

/-- The constructor accepts what options resolve to. -/
theorem ofFields_resolved (h : ofOptions options = .ok l) :
    ofFields (resolved options) = .ok l := by
  obtain ⟨hvalid, hset⟩ := ofOptions_eq_ok_iff.mp h
  apply setFields_eq_ok
  · intro f _ v hlookup
    obtain ⟨option, hf, he⟩ := hvalid.lookup?_resolved_iff.mp hlookup
    obtain ⟨n, rfl⟩ := hvalid.natural _ he
    rw [hset.named option f n he hf]
  · intro f hf
    apply hset.others
    rintro ⟨⟨option, v⟩, he, hfe⟩
    have hlookup := hvalid.lookup?_resolved_iff.mpr ⟨option, hfe, he⟩
    exact nomatch hlookup.symm.trans (hf (mem_all f))

/-! ### What is wrong -/

/-- What is wrong with an option behind valid ones. -/
inductive Refuses (before : List (Value × Value)) (option v : Value) : OptionFault → Prop where
  | unsupported (hunknown : ∀ f : LimitField, ¬f.IsNamedBy option)
      (hshown : option.isShowable = true) : Refuses before option v (.unsupported option.shown)
  | unshowable (hunknown : ∀ f : LimitField, ¬f.IsNamedBy option)
      (hshown : option.isShowable = false) : Refuses before option v .unshowable
  | repeated {f : LimitField} (hf : f.IsNamedBy option) (hseen : Mentions before f) :
      Refuses before option v (.repeated f)
  | notInteger {f : LimitField} (hf : f.IsNamedBy option) (hnew : ¬Mentions before f)
      (hv : ∀ k, v ≠ .int k) : Refuses before option v (.invalid option.shown .notInteger)
  | negative {f : LimitField} {k : Int} (hf : f.IsNamedBy option) (hnew : ¬Mentions before f)
      (hk : k < 0) (hv : v = .int k) : Refuses before option v (.invalid option.shown .negative)

theorem Refuses.optionFault?_eq (hseen : ∀ f, f ∈ seen ↔ Mentions before f)
    (h : Refuses before option v fault) : optionFault? seen option v = some fault := by
  unfold optionFault?
  cases h with
  | unsupported hunknown hshown =>
    rw [ofOption?_eq_none_iff.mpr hunknown, hshown]
    rfl
  | unshowable hunknown hshown =>
    rw [ofOption?_eq_none_iff.mpr hunknown, hshown]
    rfl
  | repeated hf hmem =>
    rw [ofOption?_eq_some_iff.mpr hf]
    exact if_pos (List.contains_iff_mem.mpr ((hseen _).mpr hmem))
  | notInteger hf hnew hv =>
    rw [← hseen, ← List.contains_iff_mem] at hnew
    rw [ofOption?_eq_some_iff.mpr hf, limitOf_eq_notInteger_iff.mpr hv]
    exact if_neg hnew
  | negative hf hnew hk hv =>
    rw [← hseen, ← List.contains_iff_mem] at hnew
    rw [ofOption?_eq_some_iff.mpr hf, limitOf_eq_negative_iff.mpr ⟨_, hk, hv⟩]
    exact if_neg hnew

/-- What stands against an option is what is wrong with it. Something is wrong with an option that
cannot be set, and one thing only. -/
theorem optionFault?_eq_some_iff (hseen : ∀ f, f ∈ seen ↔ Mentions before f) :
    optionFault? seen option v = some fault ↔ Refuses before option v fault := by
  refine ⟨fun h => ?_, fun h => h.optionFault?_eq hseen⟩
  suffices hrefused : ∃ found, Refuses before option v found by
    obtain ⟨found, hfound⟩ := hrefused
    cases h.symm.trans (hfound.optionFault?_eq hseen)
    exact hfound
  by_cases hknown : ∃ f : LimitField, f.IsNamedBy option
  · obtain ⟨f, hf⟩ := hknown
    by_cases hnew : Mentions before f
    · exact ⟨_, .repeated hf hnew⟩
    · cases hv : limitOf v with
      | ok n =>
        have hfits := optionFault?_eq_none_iff.mpr
          ⟨f, n, ofOption?_eq_some_iff.mpr hf, mt (hseen f).mp hnew, hv⟩
        exact nomatch h.symm.trans hfits
      | error reason =>
        cases reason with
        | notInteger => exact ⟨_, .notInteger hf hnew (limitOf_eq_notInteger_iff.mp hv)⟩
        | negative =>
          obtain ⟨k, hk, rfl⟩ := limitOf_eq_negative_iff.mp hv
          exact ⟨_, .negative hf hnew hk rfl⟩
  · have hunknown := not_exists.mp hknown
    cases hshown : option.isShowable with
    | true => exact ⟨_, .unsupported hunknown hshown⟩
    | false => exact ⟨_, .unshowable hunknown hshown⟩

/-- The first option that does not stand behind the options in front of it tells what is wrong. -/
theorem ofOptions_eq_error_iff : ofOptions options = .error fault ↔
    ∃ before option v after, options = before ++ (option, v) :: after ∧ AreValid before ∧
      Refuses before option v fault := by
  have hmentioned : ∀ {before seen}, Sets before [] seen → ∀ f, f ∈ seen ↔ Mentions before f :=
    fun hsets f => hsets.mem_iff.trans (or_iff_right nofun)
  rw [ofOptions, setOptions_eq_error_iff]
  constructor
  · rintro ⟨before, option, v, after, seen, hsplit, hsets, hfault⟩
    rw [optionFault?_eq_some_iff (hmentioned hsets)] at hfault
    exact ⟨before, option, v, after, hsplit, areValid_iff_exists_sets.mpr ⟨seen, hsets⟩, hfault⟩
  · rintro ⟨before, option, v, after, hsplit, hvalid, hrefused⟩
    obtain ⟨seen, hsets⟩ := areValid_iff_exists_sets.mp hvalid
    exact ⟨before, option, v, after, seen, hsplit, hsets,
      (optionFault?_eq_some_iff (hmentioned hsets)).mpr hrefused⟩

theorem refuses_unshowable_iff : Refuses before option v .unshowable ↔
    (∀ f : LimitField, ¬f.IsNamedBy option) ∧ option.isShowable = false := by
  constructor
  · rintro (- | ⟨hunknown, hshown⟩)
    exact ⟨hunknown, hshown⟩
  · rintro ⟨hunknown, hshown⟩
    exact .unshowable hunknown hshown

/-- Options give limits exactly if they are valid, in whichever order they stand: those that they
name, the others at their defaults. The constructor accepts what they resolve to. Of other options
the first one that does not stand behind those in front of it tells what is wrong, with the code for
what is configured unless it is unknown and no text shows it. -/
theorem ofOptions_decides (options : List (Value × Value)) :
    ((∃ l, ofOptions options = .ok l) ↔ AreValid options) ∧
    (∀ l, ofOptions options = .ok l →
      AreSetBy options {} l ∧ ofFields (resolved options) = .ok l) ∧
    (∀ others l, options.Perm others → (ofOptions options = .ok l ↔ ofOptions others = .ok l)) ∧
    (∀ fault, ofOptions options = .error fault ↔
      ∃ before option v after, options = before ++ (option, v) :: after ∧ AreValid before ∧
        Refuses before option v fault) ∧
    ((∃ fault, ofOptions options = .error fault ∧
        (LimitsFault.option fault).code? ≠ some "E_LIMITS_CONFIG_INVALID") ↔
      ∃ before option v after, options = before ++ (option, v) :: after ∧ AreValid before ∧
        (∀ f : LimitField, ¬f.IsNamedBy option) ∧ option.isShowable = false) := by
  refine ⟨exists_ofOptions_iff, fun l hl => ⟨(ofOptions_eq_ok_iff.mp hl).2, ofFields_resolved hl⟩,
    fun _ _ => ofOptions_eq_ok_iff_of_perm, fun _ => ofOptions_eq_error_iff, ?_⟩
  have hcode : ∀ fault, (LimitsFault.option fault).code? ≠ some "E_LIMITS_CONFIG_INVALID" ↔
      fault = .unshowable := by
    rintro (_ | _ | _ | _) <;> simp [LimitsFault.code?]
  simp only [hcode, exists_eq_right, ofOptions_eq_error_iff, refuses_unshowable_iff]

/-- No samples at all, and few notices. -/
def fewNotices : List (Value × Value) :=
  [(.text (Text.ofString "maxExportPerNoticeType"), .int 0),
    (.text (Text.ofString "max_total_validation_notices"), .int 5)]

theorem ofOptions_decides_reversed :
    ∃ l, ofOptions fewNotices = .ok l ∧ ofOptions fewNotices.reverse = .ok l ∧
      ofFields (resolved fewNotices) = .ok l ∧ l = ⟨5, 100000, 0⟩ := by
  obtain ⟨-, hset, horder, -⟩ := ofOptions_decides fewNotices
  have hl : ofOptions fewNotices = .ok ⟨5, 100000, 0⟩ := by decide
  exact ⟨_, hl, (horder _ _ (List.reverse_perm _).symm).mp hl, (hset _ hl).2, rfl⟩

/-- The least integer with too many digits, of which there are 4301. -/
def wideOption : Value :=
  .int (10 ^ Json.maxIntegerDigits : Nat)

/-- That option is refused without the code. -/
theorem uncoded_wideOption :
    ∃ fault, ofOptions [(wideOption, .int 1)] = .error fault ∧
      (LimitsFault.option fault).code? ≠ some "E_LIMITS_CONFIG_INVALID" := by
  have hunknown : ∀ f : LimitField, ¬f.IsNamedBy wideOption := by
    rintro f (h | h) <;> cases h
  have hshown : wideOption.isShowable = false := by
    rw [wideOption, Value.isShowable, Value.isConvertible, Int.natAbs_natCast,
      decide_eq_false_iff_not, Nat.length_toDigits_le_iff (by decide) (by decide)]
    exact lt_irrefl _
  refine ⟨.unshowable, ofOptions_eq_error_iff.mpr ?_, nofun⟩
  exact ⟨[], _, _, [], rfl, areValid_iff_exists_sets.mpr ⟨[], .nil []⟩,
    .unshowable hunknown hshown⟩

end Limits

end NoticeLedger
