import NoticeLedger.Proofs.Double.Decimals
import NoticeLedger.Proofs.Json.Documents

/-!
# Canonical texts tell values apart

A finite double is read back from its exact text, so every value whose integers are not too long is
read back from its document (`Json.IsLegible.of_isShort`). Its canonical text is therefore shared
by the values that differ from it in the order of members alone
(`Value.exists_canonicalText?_eq_iff`).
-/

namespace NoticeLedger

namespace Json

/-- Finite doubles and integers that are not too long are read back from their texts. -/
theorem IsLegible.of_isShort {j : Json} (hproper : j.IsProper) (hshort : j.IsShort) :
    j.IsLegible := by
  refine Everywhere.mono (fun k hk => ?_) (hproper.and hshort)
  cases k with
  | int n => exact hk.2
  | float x => exact readDouble?_exactText hk.1
  | null => trivial
  | bool b => trivial
  | str t => trivial
  | arr items => trivial
  | obj ms => trivial

end Json

namespace Value

open Json

/-- A canonical text is shared by the reorderings of a value. -/
theorem canonicalText_eq_iff {j k : Json} (hproper : j.IsProper) (hlegible : j.IsLegible)
    (hproper' : k.IsProper) (hlegible' : k.IsLegible) :
    write .unicode j.sorted = write .unicode k.sorted ↔ j.Reordered k := by
  rw [reordered_iff hproper]
  constructor
  · intro h
    have hread := read_canonicalText hproper hlegible
    rw [h, read_canonicalText hproper' hlegible'] at hread
    exact (Except.ok.inj hread).symm
  · exact congrArg (write .unicode)

/-- Two values have canonical texts, and these are the same text if and only if the values are the
same up to the order of members; for two values with nothing inside, if they are the same. -/
theorem exists_canonicalText?_eq_iff {j k : Json} (hproper : j.IsProper) (hshort : j.IsShort)
    (hproper' : k.IsProper) (hshort' : k.IsShort) :
    ∃ s t, (ofJson j).canonicalText? = .ok s ∧ (ofJson k).canonicalText? = .ok t ∧
      (s = t ↔ j.Reordered k) ∧ (j.children = [] → (s = t ↔ j = k)) := by
  have hiff := canonicalText_eq_iff hproper (.of_isShort hproper hshort) hproper'
    (.of_isShort hproper' hshort')
  refine ⟨_, _, canonicalText?_ofJson hproper hshort, canonicalText?_ofJson hproper' hshort', hiff,
    fun hleaf => hiff.trans ⟨fun h => h.eq_of_children_eq_nil hleaf, ?_⟩⟩
  rintro rfl
  exact .refl _

/-- Numbers and truth values that are easily taken for each other. -/
def lookalikes : List Json := [.int 1, .float 1, .bool true, .float 0, .float (-0)]

/-- Members that hold some of them. -/
def row : List (Text × Json) :=
  [(Text.ofString "bounds", .arr [.float 0, .int 1]), (Text.ofString "closed", .bool true)]

theorem children_lookalikes : ∀ j ∈ lookalikes, j.children = [] := by
  simp [lookalikes, children]

theorem everywhere_lookalikes {p : Json → Prop} (h : ∀ j ∈ lookalikes, p j) :
    ∀ j ∈ lookalikes, Json.Everywhere p j := by
  intro j hj
  apply Json.Everywhere.intro (h j hj)
  rw [children_lookalikes j hj]
  nofun

theorem everywhere_row {p : Json → Prop} (hobj : p (.obj row)) (harr : ∀ items, p (.arr items))
    (h : ∀ j ∈ lookalikes, p j) : Json.Everywhere p (.obj row) := by
  have hscalar := everywhere_lookalikes h
  simp only [lookalikes, List.mem_cons, List.not_mem_nil, or_false, forall_eq_or_imp,
    forall_eq] at hscalar
  obtain ⟨hint, -, hbool, hfloat, -⟩ := hscalar
  refine .intro hobj ?_
  simp only [row, children_obj, List.map_cons, List.map_nil, List.mem_cons, List.not_mem_nil,
    or_false, forall_eq_or_imp, forall_eq]
  refine ⟨.intro (harr _) ?_, hbool⟩
  simp [hfloat, hint]

/-- The members of an object may be given in either order, but no two of the lookalikes have one
text. -/
theorem canonicalText?_row :
    (∃ s, (ofJson (.obj row)).canonicalText? = .ok s ∧
      (ofJson (.obj row.reverse)).canonicalText? = .ok s) ∧
    (lookalikes.map fun j => (ofJson j).canonicalText?).Nodup := by
  have hproper : ∀ j ∈ lookalikes, ProperHere j := by
    have hone : (1 : Float).isFinite = true := by decide +kernel
    have hzero : (0 : Float).isFinite = true := by decide +kernel
    have hminus : (-0 : Float).isFinite = true := by decide +kernel
    simp [lookalikes, ProperHere, hone, hzero, hminus]
  have hshort : ∀ j ∈ lookalikes, ShortHere j := by
    have hone : isConvertible 1 = true := by decide
    simp [lookalikes, ShortHere, hone]
  have hdistinct : lookalikes.Nodup := by
    have hone : (1 : Float) ≠ 0 := by decide +kernel
    have hone' : (1 : Float) ≠ -0 := by decide +kernel
    have hzero : (0 : Float) ≠ -0 := by decide +kernel
    simp [lookalikes, hone, hone', hzero]
  constructor
  · have hnames : (names row).Nodup := by decide
    have hrow : IsProper (.obj row) := everywhere_row hnames (fun _ => trivial) hproper
    have hrow' : IsShort (.obj row) := everywhere_row trivial (fun _ => trivial) hshort
    have hreordered : Reordered (.obj row) (.obj row.reverse) :=
      .members (List.reverse_perm row).symm
    obtain ⟨s, t, hs, ht, hiff, -⟩ := exists_canonicalText?_eq_iff hrow hrow'
      (hrow.of_reordered hreordered) (hrow'.of_reordered hreordered)
    obtain rfl := hiff.mpr hreordered
    exact ⟨s, hs, ht⟩
  · refine List.Nodup.map_on (fun j hj k hk heq => ?_) hdistinct
    obtain ⟨s, t, hs, ht, -, hiff⟩ := exists_canonicalText?_eq_iff
      (everywhere_lookalikes hproper j hj) (everywhere_lookalikes hshort j hj)
      (everywhere_lookalikes hproper k hk) (everywhere_lookalikes hshort k hk)
    rw [hs, ht] at heq
    exact (hiff (children_lookalikes j hj)).mp (Except.ok.inj heq)

end Value

end NoticeLedger
