import NoticeLedger.KeyMap

/-!
# The order of keys

The token of a key tells the key: the names of the severities end in three different letters, so
the last letter of a token gives the severity and what stands in front of its name the code
(`Severity.append_name_injective`, `Key.token_injective`). The order of keys is therefore the order
of their tokens (`Key.lt_iff`), and it is total. The entries of a map stand in strictly ascending
order of tokens once they are sorted (`KeyMap.pairwise_keys_sorted`).
-/

namespace NoticeLedger

/-! ### Strings as texts -/

namespace Text

@[simp] theorem ofString_empty : ofString "" = [] := rfl

theorem ofString_injective {s t : String} (h : ofString s = ofString t) : s = t := by
  have hchar : ∀ c d, Symbol.char c = Symbol.char d → c = d := fun _ _ e => Symbol.char.inj e
  exact String.toList_inj.1 ((List.map_inj_right hchar).1 h)

@[simp] theorem ofString_inj {s t : String} : ofString s = ofString t ↔ s = t :=
  ⟨ofString_injective, fun h => h ▸ rfl⟩

@[simp] theorem toString?_ofString (s : String) : (ofString s).toString? = some s := by
  have hmap : ∀ cs : List Char, (cs.map Symbol.char).mapM Symbol.char? = some cs := by
    intro cs
    induction cs with
    | nil => rfl
    | cons c cs ih => simp [List.mapM_cons, ih]
  rw [toString?, ofString, hmap, Option.map_some, String.ofList_toList]

theorem lt_asymm {s t : Text} (h : lt s t = true) : lt t s = false := by
  apply Bool.eq_false_iff.2
  intro h'
  simpa [lt_irrefl] using lt_trans h h'

/-- Of two texts that differ, one that is at or before the other is strictly before it. -/
theorem lt_of_le_of_ne {s t : Text} (h : le s t = true) (hne : s ≠ t) : lt s t = true := by
  simp only [le, Bool.not_eq_true'] at h
  rcases lt_trichotomy s t with hlt | heq | hgt
  · exact hlt
  · exact absurd heq hne
  · simp [h] at hgt

end Text

/-! ### Tokens -/

namespace Severity

/-- The last letter of the name of a severity tells the severity. -/
theorem eq_of_getLast?_name {a b : Severity}
    (h : a.name.toList.getLast? = b.name.toList.getLast?) : a = b := by
  cases a <;> cases b <;> first | rfl | exact absurd h (by decide)

/-- Behind any texts, lone surrogates included, the names of severities are told apart. -/
theorem append_name_injective {s t : Text} {a b : Severity}
    (h : s ++ Text.ofString a.name = t ++ Text.ofString b.name) : s = t ∧ a = b := by
  have hlast : ∀ (s : Text) (a : Severity),
      (s ++ Text.ofString a.name).getLast? = a.name.toList.getLast?.map .char := by
    intro s a
    cases a <;> simp [Text.ofString, Severity.name]
  have hname : a = b := by
    apply eq_of_getLast?_name
    have hchar := congrArg List.getLast? h
    rw [hlast, hlast] at hchar
    exact (Option.map_inj_right fun _ _ e => Symbol.char.inj e).mp hchar
  subst hname
  exact ⟨List.append_cancel_right h, rfl⟩

end Severity

theorem Code.ext {a b : Code} (h : a.text = b.text) : a = b := by
  cases a
  cases b
  congr

namespace Key

theorem ofString_token (k : Key) :
    Text.ofString k.token = Text.ofString k.code.text ++ Text.ofString k.severity.name := by
  rw [token, Text.ofString, String.toList_append, List.map_append]
  rfl

/-- Keys with the same token are the same key. -/
theorem token_injective {a b : Key} (h : a.token = b.token) : a = b := by
  have htext := congrArg Text.ofString h
  rw [ofString_token, ofString_token] at htext
  obtain ⟨hcode, hseverity⟩ := Severity.append_name_injective htext
  obtain ⟨ca, sa⟩ := a
  obtain ⟨cb, sb⟩ := b
  congr 1
  exact Code.ext (Text.ofString_injective hcode)

/-- Keys are in the order of their tokens: codes and ranks never have to decide. -/
theorem lt_iff {a b : Key} :
    lt a b = true ↔ Text.lt (Text.ofString a.token) (Text.ofString b.token) = true := by
  constructor
  · intro h
    simp only [lt, Bool.or_eq_true, Bool.and_eq_true, beq_iff_eq] at h
    rcases h with h | ⟨htoken, h⟩
    · exact h
    · obtain rfl := token_injective htoken
      simp [Text.lt_irrefl] at h
  · intro h
    simp [lt, h]

theorem le_iff {a b : Key} :
    le a b = true ↔ Text.le (Text.ofString a.token) (Text.ofString b.token) = true := by
  simp only [le, Text.le, Bool.not_eq_true', ← Bool.not_eq_true, lt_iff]

theorem le_total (a b : Key) : (le a b || le b a) = true := by
  have h := Text.le_total (Text.ofString a.token) (Text.ofString b.token)
  rwa [Bool.or_eq_true, ← le_iff, ← le_iff, ← Bool.or_eq_true] at h

theorem le_trans (a b c : Key) (hab : le a b = true) (hbc : le b c = true) : le a c = true := by
  rw [le_iff] at hab hbc ⊢
  exact Text.le_trans hab hbc

theorem le_refl (k : Key) : le k k = true := by
  simpa using le_total k k

theorem le_antisymm {a b : Key} (hab : le a b = true) (hba : le b a = true) : a = b := by
  apply token_injective
  apply Text.ofString_injective
  exact Text.le_antisymm (le_iff.mp hab) (le_iff.mp hba)

theorem le_of_lt {a b : Key} (h : lt a b = true) : le a b = true := by
  rw [le_iff, Text.le, Text.lt_asymm (lt_iff.mp h)]
  rfl

theorem lt_of_le_of_ne {a b : Key} (h : le a b = true) (hne : a ≠ b) : lt a b = true := by
  rw [lt_iff]
  refine Text.lt_of_le_of_ne (le_iff.1 h) fun heq => hne ?_
  exact token_injective (Text.ofString_injective heq)

theorem mem_sort {ks : List Key} {k : Key} : k ∈ sort ks ↔ k ∈ ks :=
  List.mem_mergeSort

/-- Keys of which no two are the same are in strictly ascending order once they are sorted. -/
theorem pairwise_sort {ks : List Key} (h : ks.Nodup) :
    (sort ks).Pairwise fun a b => lt a b = true := by
  have hle : (sort ks).Pairwise fun a b => le a b = true :=
    List.pairwise_mergeSort le_trans le_total ks
  have hne : (sort ks).Pairwise (· ≠ ·) := (List.mergeSort_perm ks le).nodup_iff.2 h
  exact (hle.and hne).imp fun h => lt_of_le_of_ne h.1 h.2

/-- The same keys are sorted into the same list. -/
theorem sort_eq_of_mem_iff {ks ls : List Key} (hks : ks.Nodup) (hls : ls.Nodup)
    (h : ∀ k, k ∈ ks ↔ k ∈ ls) : sort ks = sort ls := by
  have hperm : ks.Perm ls := (List.perm_ext_iff_of_nodup hks hls).mpr h
  have hsort : (sort ks).Perm (sort ls) :=
    ((List.mergeSort_perm ks le).trans hperm).trans (List.mergeSort_perm ls le).symm
  refine hsort.eq_of_pairwise (fun a b _ _ => le_antisymm) ?_ ?_
  · exact List.pairwise_mergeSort le_trans le_total ks
  · exact List.pairwise_mergeSort le_trans le_total ls

end Key

/-! ### Sorted maps -/

namespace KeyMap

variable {α : Type}

theorem mem_keys_iff {m : KeyMap α} {k : Key} : k ∈ m.keys ↔ (m.get? k).isSome = true := by
  obtain ⟨es, hes⟩ := m
  simp only [keys, get?]
  induction es with
  | nil => simp [find?]
  | cons e es ih =>
    by_cases h : e.1 = k
    · simp [find?, h]
    · have h' : ¬k = e.1 := fun heq => h heq.symm
      simpa [find?, h, h'] using ih (List.nodup_cons.1 hes).2

/-- Altering a key adds it and takes no other key away. -/
theorem mem_keys_alter {m : KeyMap α} {k k' : Key} {f : Option α → α} :
    k' ∈ (m.alter k f).keys ↔ k' = k ∨ k' ∈ m.keys := by
  rw [keys_alter]
  split
  · rename_i h
    exact ⟨Or.inr, fun h' => h'.elim (fun heq => heq ▸ h) id⟩
  · simp [or_comm]

/-- An entry is what the map holds for its key. -/
theorem get?_eq_some_iff {m : KeyMap α} {k : Key} {a : α} :
    m.get? k = some a ↔ (k, a) ∈ m.entries := by
  obtain ⟨es, hes⟩ := m
  simp only [get?]
  induction es with
  | nil => simp [find?]
  | cons e es ih =>
    obtain ⟨hnotMem, hes'⟩ := List.nodup_cons.1 hes
    by_cases h : e.1 = k
    · subst h
      have hfst : ∀ a, (e.1, a) ∉ es := fun a ha =>
        hnotMem (List.mem_map.2 ⟨(e.1, a), ha, rfl⟩)
      simp [find?, hfst, Prod.ext_iff, eq_comm]
    · have hne : (k, a) ≠ e := fun heq => h (congrArg Prod.fst heq).symm
      simp [find?, h, hne, ih hes']

theorem keys_sorted (m : KeyMap α) : m.sorted.map (·.1) = Key.sort m.keys := by
  rw [sorted, Key.sort, keys]
  exact List.map_mergeSort fun _ _ _ _ => rfl

/-- The keys of a map stand in strictly ascending order once they are sorted. -/
theorem pairwise_keys_sorted (m : KeyMap α) :
    (m.sorted.map (·.1)).Pairwise fun a b => Key.lt a b = true := by
  rw [keys_sorted]
  exact Key.pairwise_sort m.nodup

end KeyMap

end NoticeLedger
