import NoticeLedger.Text

/-!
# Control sequences

A control sequence tells a terminal how to show what follows. It is made of the escape character, an
opening bracket, parameters, and a letter. `dropControlSequences` leaves them out of a text, in one
pass from the front; a text without the escape character stays as it is
(`dropControlSequences_of_notMem`).
-/

namespace NoticeLedger

/-- A character of the parameters of a control sequence. -/
def isParameter (c : Char) : Bool :=
  c.isDigit || c == ';' || c == '?'

/-- What is behind the control sequence in front, if there is one. -/
def behindControl? : List Char → Option (List Char)
  | '\x1b' :: '[' :: cs =>
    match cs.dropWhile isParameter with
    | []        => none
    | c :: rest => if c.isAlpha then some rest else none
  | _                   => none

theorem length_of_behindControl? {cs rest : List Char} (h : behindControl? cs = some rest) :
    rest.length < cs.length := by
  unfold behindControl? at h
  split at h
  · next ds =>
    have hle := (List.dropWhile_sublist isParameter (l := ds)).length_le
    split at h
    · exact absurd h (by simp)
    · next c tail hd =>
      rw [hd] at hle
      split at h
      · obtain rfl := Option.some.inj h
        simp only [List.length_cons] at hle ⊢
        omega
      · exact absurd h (by simp)
  · exact absurd h (by simp)

/-- A text without its control sequences. -/
def dropControlSequences : List Char → List Char
  | []      => []
  | c :: cs =>
    match _h : behindControl? (c :: cs) with
    | some rest => dropControlSequences rest
    | none      => c :: dropControlSequences cs
termination_by cs => cs.length
decreasing_by
  · exact length_of_behindControl? _h
  · exact Nat.lt_succ_self cs.length

/-- No control sequence begins without the escape character. -/
theorem behindControl?_of_ne {c : Char} (cs : List Char) (h : c ≠ '\x1b') :
    behindControl? (c :: cs) = none := by
  unfold behindControl?
  split
  · next heq => exact absurd (List.cons.inj heq).1 h
  · rfl

theorem dropControlSequences_of_notMem {cs : List Char} (h : '\x1b' ∉ cs) :
    dropControlSequences cs = cs := by
  induction cs with
  | nil          => rw [dropControlSequences]
  | cons c cs ih =>
    rw [List.mem_cons, not_or] at h
    have hc := behindControl?_of_ne cs (Ne.symm h.1)
    rw [dropControlSequences]
    split
    · next hsome => rw [hc] at hsome; exact absurd hsome (by simp)
    · rw [ih h.2]

end NoticeLedger
