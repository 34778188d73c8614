import Mathlib.Data.Finset.Basic
import Mathlib.Order.Defs.Unbundled
import NoticeLedger.Proofs.KeyOrder

/-!
# Sets of keys in order

No separator stands between the code and the name of the severity in a token. The code can be told
nevertheless, because no name ends as another one does. So the order of keys is a strict total
order, it is the order of tokens by code point (`Key.lt_iff_token_lt`), and a set of keys has one
sorted list (`Key.sort_eq_of_ascending`).
-/

namespace NoticeLedger

/-! ### Strings by code point -/

/-- The order of texts is that of strings where both are strings. -/
theorem Text.lt_ofString_iff {s t : String} :
    Text.lt (Text.ofString s) (Text.ofString t) = true ↔ s < t := by
  have hchars : ∀ cs ds : List Char,
      Text.lt (cs.map .char) (ds.map .char) = true ↔ cs < ds := by
    intro cs ds
    induction cs generalizing ds with
    | nil => cases ds <;> simp
    | cons c cs ih =>
      cases ds with
      | nil => simp
      | cons d ds =>
        rw [List.map_cons, List.map_cons, Text.cons_lt_cons, List.cons_lt_cons_iff, ih]
        simp only [Symbol.codePoint_char, Char.toNat_inj]
        rfl
  rw [String.lt_iff, ← hchars]
  rfl

/-! ### Tokens -/

namespace Key

/-- Keys are in the order of their tokens as strings. -/
theorem lt_iff_token_lt {a b : Key} : lt a b = true ↔ a.token < b.token := by
  rw [lt_iff, Text.lt_ofString_iff]

instance isStrictTotalOrder_lt : IsStrictTotalOrder Key fun a b => lt a b = true where
  irrefl a h := by
    rw [lt_iff, Text.lt_irrefl] at h
    cases h
  trans a b c hab hbc := by
    rw [lt_iff] at hab hbc ⊢
    exact Text.lt_trans hab hbc
  trichotomous a b hab hba := by
    rw [lt_iff] at hab hba
    rcases Text.lt_trichotomy (Text.ofString a.token) (Text.ofString b.token) with h | h | h
    · exact absurd h hab
    · exact token_injective (Text.ofString_injective h)
    · exact absurd h hba

/-- Each token is strictly before the next one. -/
def TokensAscend (ks : List Key) : Prop :=
  ks.Pairwise fun a b => a.token < b.token

theorem tokensAscend_iff {ks : List Key} :
    TokensAscend ks ↔ ks.Pairwise fun a b => lt a b = true := by
  simp only [TokensAscend, lt_iff_token_lt]

theorem TokensAscend.nodup {ks : List Key} (h : TokensAscend ks) : ks.Nodup := by
  refine (tokensAscend_iff.mp h).imp fun {a b} hlt heq => ?_
  exact irrefl_of (fun a b : Key => lt a b = true) a (heq ▸ hlt)

theorem tokensAscend_sort {ks : List Key} (h : ks.Nodup) : TokensAscend (sort ks) :=
  tokensAscend_iff.mpr (pairwise_sort h)

/-- A list of ascending tokens is the sorted list of its keys, in whichever order they come. -/
theorem sort_eq_of_ascending {ks ls : List Key} (hks : ks.Nodup) (hls : TokensAscend ls)
    (h : ∀ k, k ∈ ks ↔ k ∈ ls) : sort ks = ls := by
  have hsorted : ls.Pairwise fun a b => le a b = true := (tokensAscend_iff.mp hls).imp Key.le_of_lt
  rw [sort_eq_of_mem_iff hks hls.nodup h, sort, List.mergeSort_of_pairwise hsorted]

/-- A token tells the code and the severity of its key, as any text would be told in front of the
name of a severity. Hence keys are ordered strictly and totally, by the code points of their tokens,
and every set of keys has one list with ascending tokens, which is what the keys are sorted into
from whichever order. -/
theorem sorted_by_token :
    (∀ (s t : Text) (a b : Severity),
      s ++ Text.ofString a.name = t ++ Text.ofString b.name → s = t ∧ a = b) ∧
    (∀ a b : Key, a.token = b.token → a.code = b.code ∧ a.severity = b.severity) ∧
    IsStrictTotalOrder Key (fun a b => lt a b = true) ∧
    (∀ a b : Key, lt a b = true ↔ a.token < b.token) ∧
    ∀ keys : Finset Key, ∃ ls, TokensAscend ls ∧
      (∀ ks : List Key, ks.Nodup → ks.toFinset = keys → sort ks = ls) ∧
      ∀ ls', TokensAscend ls' → ls'.toFinset = keys → ls' = ls := by
  refine ⟨fun _ _ _ _ => Severity.append_name_injective, fun a b h => ?_, isStrictTotalOrder_lt,
    fun _ _ => lt_iff_token_lt, fun keys => ?_⟩
  · obtain rfl := token_injective h
    exact ⟨rfl, rfl⟩
  · have hnodup := keys.nodup_toList
    refine ⟨sort keys.toList, tokensAscend_sort hnodup, fun ks hks hkeys => ?_,
      fun ls hls hkeys => ?_⟩
    · apply sort_eq_of_mem_iff hks hnodup
      intro k
      rw [Finset.mem_toList, ← hkeys, List.mem_toFinset]
    · refine (sort_eq_of_ascending hnodup hls fun k => ?_).symm
      rw [Finset.mem_toList, ← hkeys, List.mem_toFinset]

end Key

end NoticeLedger
