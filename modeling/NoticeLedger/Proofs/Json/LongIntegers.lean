import NoticeLedger.Proofs.Json.Documents
import NoticeLedger.Proofs.Json.Remainders

/-!
# Integers with too many digits

The reader has one way to stop that is no fault of the document: it comes to a place where a value
begins, and what stands there is an integer with more digits than are converted
(`Json.read_eq_integerTooLong_iff`). Such an integer is a run of digits in the text of the document
(`Json.MeetsLongInteger.hasLongRun`), so a document without long runs of digits is read or has a
fault.
-/

namespace NoticeLedger.Json

/-! ### Long integers in front of a text -/

/-- What is in front is an integer that ends here: no further digit follows, no fraction and no
power of ten. -/
structure EndsInteger (rest : Text) : Prop where
  digit : NoDigitFirst rest
  fraction : ∀ s, rest = .char '.' :: s → NoDigitFirst s
  power : ∀ c s, rest = .char c :: s → c = 'e' ∨ c = 'E' → NoDigitFirst (readSign s).2

/-- Digits that make an integer with more digits than are converted, and what is behind them. -/
structure IsLongInteger (ds : List Char) (rest : Text) : Prop where
  digits : ∀ d ∈ ds, d.isDigit = true
  /-- A leading zero would stand alone. -/
  zero : ds.head? ≠ some '0'
  long : maxIntegerDigits < ds.length
  ends : EndsInteger rest

/-- An integer with more digits than are converted stands in front of a text, with a minus or
without. -/
def BeginsWithLongInteger (s : Text) : Prop :=
  ∃ negative ds rest, IsLongInteger ds rest ∧ s = (signed negative ds).map .char ++ rest

theorem IsLongInteger.exists_eq_cons {ds : List Char} {rest : Text} (h : IsLongInteger ds rest) :
    ∃ d ds', ds = d :: ds' ∧ d.isDigit = true ∧ d ≠ '0' := by
  cases ds with
  | nil => exact absurd h.long (Nat.not_lt_zero _)
  | cons d ds =>
    exact ⟨d, ds, rfl, h.digits d (List.mem_cons_self ..), fun hd => h.zero (congrArg some hd)⟩

/-- A long integer is a numeral like any other. -/
theorem IsLongInteger.isProper {ds : List Char} {rest : Text} (h : IsLongInteger ds rest) :
    Numeral.IsProper ⟨ds, [], none⟩ where
  whole := h.digits
  whole_ne := by
    obtain ⟨d, ds, rfl, -⟩ := h.exists_eq_cons
    exact List.cons_ne_nil d ds
  zero hzero := absurd hzero h.zero
  fraction := nofun
  power := nofun

theorem spanDigits_spec (s : Text) :
    s = (spanDigits s).1.map .char ++ (spanDigits s).2 ∧
      (∀ d ∈ (spanDigits s).1, d.isDigit = true) ∧ NoDigitFirst (spanDigits s).2 := by
  induction s with
  | nil => exact ⟨rfl, List.forall_mem_nil _, nofun⟩
  | cons x s ih =>
    cases x with
    | surrogate n => exact ⟨rfl, List.forall_mem_nil _, nofun⟩
    | char c =>
      by_cases hc : c.isDigit = true
      · obtain ⟨hs, hdigits, hfirst⟩ := ih
        simp only [spanDigits, Symbol.char?_char, if_pos hc]
        refine ⟨by rw [List.map_cons, List.cons_append, ← hs], ?_, hfirst⟩
        rintro d (_ | ⟨_, hd⟩)
        · exact hc
        · exact hdigits d hd
      · simp only [spanDigits, Symbol.char?_char, if_neg hc]
        refine ⟨rfl, List.forall_mem_nil _, fun d hd => ?_⟩
        obtain rfl : c = d := by simpa using hd
        exact Bool.eq_false_iff.2 hc

theorem spanDigits_of_noDigitFirst {s : Text} (h : NoDigitFirst s) : spanDigits s = ([], s) :=
  @spanDigits_append [] s nofun h

theorem spanDigits_eq_nil_iff {s : Text} : (spanDigits s).1 = [] ↔ NoDigitFirst s := by
  constructor
  · intro h
    obtain ⟨hs, -, hfirst⟩ := spanDigits_spec s
    rw [h] at hs
    rw [hs]
    exact hfirst
  · intro h
    rw [spanDigits_of_noDigitFirst h]

theorem readFraction_eq_nil_iff {s : Text} :
    (readFraction s).1 = [] ↔ ∀ t, s = .char '.' :: t → NoDigitFirst t := by
  fun_cases readFraction s with
  | case1 rest behind hspan =>
    refine iff_of_true rfl ?_
    rintro t ⟨⟩
    rw [← spanDigits_eq_nil_iff, hspan]
  | case2 rest ds behind hne hspan =>
    refine iff_of_false hne fun h => hne ?_
    have hnil := spanDigits_eq_nil_iff.2 (h rest rfl)
    rwa [hspan] at hnil
  | case3 =>
    rename_i hpoint
    exact iff_of_true rfl fun t ht => (hpoint t ht).elim

theorem readFraction_of_nil {s : Text} (h : (readFraction s).1 = []) :
    (readFraction s).2 = s := by
  unfold readFraction at h ⊢
  split
  · rename_i rest
    split
    · rfl
    · rename_i ds behind hne hspan
      simp only [hspan] at h
      exact absurd h hne
  · rfl

theorem readPower_eq_none_iff {s : Text} :
    (readPower s).1 = none ↔
      ∀ c t, s = .char c :: t → c = 'e' ∨ c = 'E' → NoDigitFirst (readSign t).2 := by
  fun_cases readPower s with
  | case1 c rest hc negative unsigned hsign behind hspan =>
    refine iff_of_true rfl ?_
    rintro _ t ⟨⟩ -
    rw [← spanDigits_eq_nil_iff, hsign, hspan]
  | case2 c rest hc negative unsigned hsign ds behind hne hspan =>
    refine iff_of_false (Option.some_ne_none _) fun h => hne ?_
    have hnil := spanDigits_eq_nil_iff.2 (h c rest rfl hc)
    rwa [hsign, hspan] at hnil
  | case3 c rest hc =>
    refine iff_of_true rfl ?_
    rintro _ t ⟨⟩ hc'
    exact absurd hc' hc
  | case4 =>
    rename_i hchar
    exact iff_of_true rfl fun c t ht => (hchar c t ht).elim

/-- A number is an integer exactly if what is behind its whole part ends it. -/
theorem endsInteger_iff {rest : Text} (hfirst : NoDigitFirst rest) :
    EndsInteger rest ↔
      (readFraction rest).1 = [] ∧ (readPower (readFraction rest).2).1 = none := by
  constructor
  · intro h
    have hfraction := readFraction_eq_nil_iff.2 h.fraction
    rw [readFraction_of_nil hfraction]
    exact ⟨hfraction, readPower_eq_none_iff.2 h.power⟩
  · rintro ⟨hfraction, hpower⟩
    rw [readFraction_of_nil hfraction] at hpower
    exact ⟨hfirst, readFraction_eq_nil_iff.1 hfraction, readPower_eq_none_iff.1 hpower⟩

theorem numberOf_eq_integerTooLong_iff {negative : Bool} {whole fraction : List Char}
    {power : Option Int} :
    numberOf negative whole fraction power = .error .integerTooLong ↔
      maxIntegerDigits < whole.length ∧ fraction = [] ∧ power = none := by
  unfold numberOf
  split
  · rename_i hinteger
    rw [Bool.and_eq_true, List.isEmpty_iff, Option.isNone_iff_eq_none] at hinteger
    split
    · rename_i hlong
      exact iff_of_true rfl ⟨hlong, hinteger⟩
    · rename_i hlong
      exact iff_of_false nofun fun h => hlong h.1
  · rename_i hdouble
    rw [Bool.and_eq_true, List.isEmpty_iff, Option.isNone_iff_eq_none] at hdouble
    exact iff_of_false nofun fun h => hdouble h.2

theorem readWhole_of_ne_zero {s : Text} (h : s.head? ≠ some (.char '0')) :
    readWhole s = spanDigits s := by
  unfold readWhole
  split
  · exact absurd rfl h
  · rfl

theorem readUnsigned_eq_integerTooLong_iff {negative : Bool} {s : Text} :
    (∃ r, readUnsigned negative s = some (.error .integerTooLong, r)) ↔
      ∃ ds rest, IsLongInteger ds rest ∧ s = ds.map .char ++ rest := by
  have hread : (∃ r, readUnsigned negative s = some (.error .integerTooLong, r)) ↔
      (readWhole s).1 ≠ [] ∧
        numberOf negative (readWhole s).1 (readFraction (readWhole s).2).1
          (readPower (readFraction (readWhole s).2).2).1 = .error .integerTooLong := by
    unfold readUnsigned
    by_cases hnil : (readWhole s).1 = [] <;> simp [hnil]
  rw [hread, numberOf_eq_integerTooLong_iff]
  constructor
  · rintro ⟨-, hlong, hinteger⟩
    have hzero : s.head? ≠ some (.char '0') := by
      intro hzero
      obtain ⟨t, rfl⟩ := List.head?_eq_some_iff.1 hzero
      -- the whole part is the zero alone
      have hshort : ¬maxIntegerDigits < ['0'].length := by decide
      exact hshort hlong
    rw [readWhole_of_ne_zero hzero] at hlong hinteger
    obtain ⟨hs, hdigits, hfirst⟩ := spanDigits_spec s
    refine ⟨_, _, ⟨hdigits, fun hhead => hzero ?_, hlong, (endsInteger_iff hfirst).2 hinteger⟩, hs⟩
    obtain ⟨ds, hds⟩ := List.head?_eq_some_iff.1 hhead
    rw [hs, hds]
    rfl
  · rintro ⟨ds, rest, h, rfl⟩
    have hzero : (ds.map Symbol.char ++ rest).head? ≠ some (.char '0') := by
      obtain ⟨d, ds, rfl, -, hd⟩ := h.exists_eq_cons
      simpa using hd
    rw [readWhole_of_ne_zero hzero, spanDigits_append h.digits h.ends.digit]
    exact ⟨h.isProper.whole_ne, h.long, (endsInteger_iff h.ends.digit).1 h.ends⟩

theorem readNumber_eq_integerTooLong_iff {s : Text} :
    (∃ r, readNumber s = some (.error .integerTooLong, r)) ↔ BeginsWithLongInteger s := by
  unfold readNumber BeginsWithLongInteger
  split
  · rename_i s
    rw [readUnsigned_eq_integerTooLong_iff]
    constructor
    · rintro ⟨ds, rest, h, rfl⟩
      exact ⟨true, ds, rest, h, rfl⟩
    · rintro ⟨negative, ds, rest, h, hs⟩
      cases negative with
      | true => exact ⟨ds, rest, h, (List.cons.inj hs).2⟩
      | false =>
        obtain ⟨d, ds, rfl, hd, -⟩ := h.exists_eq_cons
        obtain rfl : '-' = d := by simpa [signed] using (List.cons.inj hs).1
        cases hd
  · rename_i hminus
    rw [readUnsigned_eq_integerTooLong_iff]
    constructor
    · rintro ⟨ds, rest, h, rfl⟩
      exact ⟨false, ds, rest, h, rfl⟩
    · rintro ⟨negative, ds, rest, h, rfl⟩
      cases negative with
      | true => exact absurd rfl (hminus _)
      | false => exact ⟨ds, rest, h, rfl⟩

theorem readScalar_eq_integerTooLong_iff {s : Text} :
    readScalar s = .error .integerTooLong ↔ BeginsWithLongInteger s := by
  rw [← readNumber_eq_integerTooLong_iff]
  constructor
  · intro h
    unfold readScalar at h
    split at h
    · cases h
    · split at h
      · rename_i value rest hnumber
        cases value with
        | ok j      => cases h
        | error e =>
          obtain rfl := Except.error.inj h
          exact ⟨rest, hnumber⟩
      · cases h
  · rintro ⟨r, hnumber⟩
    have hword : readWord s = none := by
      obtain ⟨negative, ds, rest, h, rfl⟩ := readNumber_eq_integerTooLong_iff.1 ⟨r, hnumber⟩
      have hnone := @readWord_signed _ h.isProper rest negative
      rwa [Numeral.text, Numeral.pointPart, Numeral.powerPart, List.append_nil, List.append_nil]
        at hnone
    rw [readScalar, hword, hnumber]
    rfl

/-! ### Steps of the reader -/

theorem BeginsWithLongInteger.exists_eq_cons {s : Text} (h : BeginsWithLongInteger s) :
    ∃ c t, s = .char c :: t ∧ (c = '-' ∨ c.isDigit = true) := by
  obtain ⟨negative, ds, rest, h, rfl⟩ := h
  obtain ⟨d, ds, rfl, hd, -⟩ := h.exists_eq_cons
  cases negative with
  | true => exact ⟨'-', _, rfl, .inl rfl⟩
  | false => exact ⟨d, _, rfl, .inr hd⟩

theorem BeginsWithLongInteger.ne_char {s : Text} (h : BeginsWithLongInteger s) {d : Char}
    (hminus : d ≠ '-') (hdigit : d.isDigit = false) (t : Text) : s ≠ .char d :: t := by
  obtain ⟨c, t', rfl, hc⟩ := h.exists_eq_cons
  intro heq
  obtain rfl : c = d := by simpa using (List.cons.inj heq).1
  rcases hc with hc | hc
  · exact hminus hc
  · exact nomatch hc.symm.trans hdigit

theorem readUnicodeEscape_ne_integerTooLong (s : Text) :
    readUnicodeEscape s ≠ .error .integerTooLong := by
  fun_cases readUnicodeEscape s <;> nofun

theorem readString_ne_integerTooLong (opening s : Text) :
    readString opening s ≠ .error .integerTooLong := by
  fun_induction readString opening s with
  | case1 | case2 | case3 | case6 | case8 => simp
  | case4 behind stop hescape =>
    rintro ⟨⟩
    exact readUnicodeEscape_ne_integerTooLong behind hescape
  | case5 _ _ _ _ ih | case7 _ _ _ _ _ _ ih | case9 _ _ _ _ _ ih =>
    rwa [Ne, map_eq_error_iff]

theorem stepValue_eq_integerTooLong_iff {frames : List Frame} {s : Text} :
    stepValue frames s = .error .integerTooLong ↔ BeginsWithLongInteger s := by
  constructor
  · intro h
    unfold stepValue at h
    split at h
    · exact (readString_ne_integerTooLong _ _ (map_eq_error_iff.1 h)).elim
    · split at h <;> cases h
    · split at h <;> cases h
    · exact readScalar_eq_integerTooLong_iff.1 (map_eq_error_iff.1 h)
  · intro h
    unfold stepValue
    split
    · exact (h.ne_char (by decide) (by decide) _ rfl).elim
    · exact (h.ne_char (by decide) (by decide) _ rfl).elim
    · exact (h.ne_char (by decide) (by decide) _ rfl).elim
    · exact map_eq_error_iff.2 (readScalar_eq_integerTooLong_iff.2 h)

/-- Only where a value begins can an integer be too long. -/
theorem step_eq_integerTooLong_iff {next : Next} {frames : List Frame} {s : Text} :
    step next frames s = .error .integerTooLong ↔ next = .value ∧ BeginsWithLongInteger s := by
  cases next with
  | value =>
    rw [step, stepValue_eq_integerTooLong_iff]
    exact (and_iff_right rfl).symm
  | name before =>
    refine iff_of_false (fun h => ?_) (by simp)
    rw [step] at h
    unfold stepName at h
    split at h
    · split at h
      · rename_i hread
        obtain rfl := Except.error.inj h
        exact readString_ne_integerTooLong _ _ hread
      · split at h <;> cases h
    · cases h
  | after j =>
    refine iff_of_false (fun h => ?_) (by simp)
    rw [step] at h
    unfold stepAfter at h
    split at h
    · cases h
    · split at h <;> cases h
    · split at h <;> cases h

/-! ### Places that the reader comes to -/

/-- The reader comes from one thing to read to another one, with the frames and the texts left for
them. -/
inductive Leads : Next → List Frame → Text → Next → List Frame → Text → Prop where
  | here (next : Next) (frames : List Frame) (s : Text) : Leads next frames s next frames s
  | on {next next' target : Next} {frames frames' targetFrames : List Frame} {s s' rest : Text}
      (hstep : step next frames s = .ok (.on next' frames' s'))
      (hleads : Leads next' frames' s' target targetFrames rest) :
      Leads next frames s target targetFrames rest

theorem run_of_error {next : Next} {frames : List Frame} {s : Text} {stop : Stop}
    (h : step next frames s = .error stop) : run next frames s = .error stop := by
  rw [run.eq_def]
  split
  · rename_i hs
    rw [h] at hs
    exact congrArg Except.error (Except.error.inj hs.symm)
  · rename_i hs
    rw [h] at hs
    cases hs
  · rename_i hs
    rw [h] at hs
    cases hs

theorem run_eq_integerTooLong_iff {next : Next} {frames : List Frame} {s : Text} :
    run next frames s = .error .integerTooLong ↔
      ∃ frames' rest, Leads next frames s .value frames' rest ∧ BeginsWithLongInteger rest := by
  constructor
  · intro h
    fun_induction run next frames s with
    | case1 next frames s stop hstep =>
      obtain rfl := Except.error.inj h
      obtain ⟨rfl, hlong⟩ := step_eq_integerTooLong_iff.1 hstep
      exact ⟨frames, s, .here .., hlong⟩
    | case2 => cases h
    | case3 next frames s next' frames' s' hstep ih =>
      obtain ⟨frames'', rest, hleads, hlong⟩ := ih h
      exact ⟨frames'', rest, .on hstep hleads, hlong⟩
  · rintro ⟨frames', rest, hleads, hlong⟩
    generalize hvalue : Next.value = target at hleads
    induction hleads with
    | here next frames s =>
      exact run_of_error (step_eq_integerTooLong_iff.2 ⟨hvalue.symm, hlong⟩)
    | on hstep _ ih => rw [run_of_step hstep, ih hlong hvalue]

theorem Leads.suffix {next target : Next} {frames targetFrames : List Frame} {s rest : Text}
    (h : Leads next frames s target targetFrames rest) : rest <:+ s := by
  induction h with
  | here         => exact List.suffix_rfl
  | on hstep _ ih => exact ih.trans (suffix_of_step hstep)

/-! ### Documents -/

/-- The reader of a document, which does not begin with a byte order mark, comes to a place where a
value begins and a long integer stands. -/
structure MeetsLongInteger (document : Text) : Prop where
  unmarked : document.head? ≠ some (.char '\uFEFF')
  met : ∃ frames rest, Leads .value [] (skipSpace document) .value frames rest ∧
    BeginsWithLongInteger rest

/-- More digits than are converted stand in a row. -/
def HasLongRun (document : Text) : Prop :=
  ∃ (before : Text) (ds : List Char) (behind : Text), document = before ++ ds.map .char ++ behind ∧
    (∀ d ∈ ds, d.isDigit = true) ∧ maxIntegerDigits < ds.length

theorem MeetsLongInteger.hasLongRun {document : Text} (h : MeetsLongInteger document) :
    HasLongRun document := by
  obtain ⟨frames, rest, hleads, negative, ds, behind, hlong, rfl⟩ := h.met
  obtain ⟨before, hbefore⟩ := hleads.suffix.trans (suffix_skipSpace document)
  cases negative with
  | true =>
    refine ⟨before ++ [.char '-'], ds, behind, ?_, hlong.digits, hlong.long⟩
    simpa [signed] using hbefore.symm
  | false =>
    refine ⟨before, ds, behind, ?_, hlong.digits, hlong.long⟩
    simpa [signed] using hbefore.symm

/-- A document that is nothing but ones, too many of them. -/
theorem meetsLongInteger_ones {n : Nat} (h : maxIntegerDigits < n) :
    MeetsLongInteger (List.replicate n (.char '1')) := by
  obtain ⟨m, rfl⟩ := Nat.exists_eq_succ_of_ne_zero (Nat.ne_zero_of_lt h)
  have hskip : skipSpace (List.replicate (m + 1) (.char '1')) =
      List.replicate (m + 1) (.char '1') :=
    skipSpace_cons (by decide) _
  refine ⟨?_, [], _, .here .., false, List.replicate (m + 1) '1', [], ⟨?_, ?_, ?_, ?_⟩, ?_⟩
  · simp [List.replicate_succ]
  · intro d hd
    rw [List.eq_of_mem_replicate hd]
    rfl
  · simp [List.replicate_succ]
  · rwa [List.length_replicate]
  · exact ⟨nofun, nofun, nofun⟩
  · rw [hskip, signed, if_neg Bool.false_ne_true, List.map_replicate, List.append_nil]

theorem readDocument_eq_integerTooLong_iff {s : Text} :
    readDocument s = .error .integerTooLong ↔
      run .value [] (skipSpace s) = .error .integerTooLong := by
  unfold readDocument
  split
  · rename_i stop hrun
    rw [hrun]
    exact ⟨fun h => congrArg Except.error (Except.error.inj h),
      fun h => congrArg Except.error (Except.error.inj h)⟩
  · rename_i j rest hrun
    rw [hrun]
    refine iff_of_false ?_ nofun
    split <;> nofun

theorem within_eq_integerTooLong_iff {document : Text} {stop : Stop} :
    stop.within document = .integerTooLong ↔ stop = .integerTooLong := by
  cases stop with
  | fault f remaining => exact ⟨nofun, nofun⟩
  | integerTooLong    => exact ⟨fun _ => rfl, fun _ => rfl⟩

/-- A document cannot be read for its long integers exactly if the reader meets one. -/
theorem read_eq_integerTooLong_iff {document : Text} :
    read document = .error .integerTooLong ↔ MeetsLongInteger document := by
  have hiff : (readDocument document).mapError (Stop.within document) = .error .integerTooLong ↔
      ∃ frames rest, Leads .value [] (skipSpace document) .value frames rest ∧
        BeginsWithLongInteger rest := by
    rw [← run_eq_integerTooLong_iff, ← readDocument_eq_integerTooLong_iff]
    constructor
    · intro h
      obtain ⟨stop, hstop, hwithin⟩ := exists_of_mapError_error h
      rwa [within_eq_integerTooLong_iff.1 hwithin] at hstop
    · intro h
      rw [h]
      rfl
  unfold read
  split
  · rename_i hmark
    exact iff_of_false nofun fun h => h.unmarked hmark
  · rename_i hmark
    exact hiff.trans ⟨fun h => ⟨hmark, h⟩, fun h => h.met⟩

end NoticeLedger.Json
