import Mathlib.Logic.Function.Basic
import NoticeLedger.Proofs.Refusals

/-!
# Keeping books on a run

What has come into a recorder can be told without looking into it: by the notices that have been
handed to it, and by what belonged to the recorders that it has taken over. A bookkeeping says what
belongs to a fresh recorder, and what a notice and a takeover make of that (`Bookkeeping.after`). It
sees which calls are made and which of them are refused, and nothing that a recorder holds.

If each change of a recorder keeps a relation between what belongs to the recorder and what it
holds (`Bookkeeping.Reflects`), the relation holds of every recorder that events lead to
(`Bookkeeping.Reflects.of_afterAll`).
-/

namespace NoticeLedger

open Roster (afterAll)

/-- The limits of the recorder that an event opens, if it opens one. -/
def Event.limits? : Event → Option Limits
  | .openRecorder l    => some l
  | .openCoordinator l => some l
  | .call _            => none

/-- What belongs to the recorders of a run. -/
structure Bookkeeping (α : Type) where
  /-- What belongs to a fresh recorder. -/
  start : α
  /-- What belongs to a recorder that has been handed a notice. -/
  receive : α → Notice → α
  /-- What belongs to a recorder that has taken over another one. -/
  unite : α → α → α

namespace Bookkeeping

variable {α : Type}

/-- The books after a call that is not refused. -/
def enter (b : Bookkeeping α) (s : Roster) (books : Nat → α) : Call → Nat → α
  | .addValidation i n => Function.update books i (b.receive (books i) n)
  | .addSystem i n     => Function.update books i (b.receive (books i) n)
  | .merge i j         => Function.update books i (b.unite (books i) (books j))
  | .join c j          =>
    match s.coordinators[c]? with
    | none   => books
    | some k =>
      Function.update books k.destination (b.unite (books k.destination) (books j))

/-- The books after an event. A call that is refused is not entered. -/
def book (b : Bookkeeping α) (s : Roster) (books : Nat → α) : Event → Nat → α
  | .openRecorder _    => Function.update books s.recorders.length b.start
  | .openCoordinator _ => Function.update books s.recorders.length b.start
  | .call c            =>
    match s.accepted? (.call c) with
    | none   => books
    | some c => b.enter s books c

/-- The books after the events of a run. -/
def bookAll (b : Bookkeeping α) : Roster → (Nat → α) → List Event → Nat → α
  | _, books, []      => books
  | s, books, e :: es => bookAll b (s.happen e) (b.book s books e) es

/-- What belongs to the recorder of each number after events that start with nothing. -/
def after (b : Bookkeeping α) (es : List Event) : Nat → α :=
  b.bookAll {} (fun _ => b.start) es

/-- A relation between what belongs to each recorder and what the recorder holds. -/
def Match (R : α → Recorder → Prop) (books : Nat → α) (rs : List Recorder) : Prop :=
  ∀ i r, rs[i]? = some r → R (books i) r

/-- A relation between what belongs to a recorder and what the recorder holds. It holds of fresh
recorders with limits in `Q`, and every change of a recorder keeps it. -/
structure Reflects (b : Bookkeeping α) (Q : Limits → Prop) (R : α → Recorder → Prop) : Prop where
  fresh : ∀ {l}, Q l → R b.start (Recorder.fresh l)
  add : ∀ {a r}, R a r → ∀ n, R (b.receive a n) (r.add n)
  absorb : ∀ {a a' r other}, R a r → R a' other → R (b.unite a a') (r.absorb other)
  consume : ∀ {a r}, R a r → R a r.consume

variable {b : Bookkeeping α} {Q : Limits → Prop} {R : α → Recorder → Prop} {s : Roster}
  {books : Nat → α} {i j : Nat} {r other : Recorder} {rs : List Recorder}

/-! ### One event -/

theorem Match.concat (h : Match R books rs) {a : α} (ha : R a r) :
    Match R (Function.update books rs.length a) (rs ++ [r]) := by
  intro m x hx
  by_cases hm : m = rs.length
  · subst hm
    obtain rfl : r = x := by simpa using hx
    rwa [Function.update_self]
  · rw [Function.update_of_ne hm]
    refine h m x ?_
    rw [List.getElem?_append] at hx
    split at hx
    · exact hx
    · -- only `r` stands behind `rs`
      rename_i hlt
      have hone := (List.getElem?_eq_some_iff.1 hx).1
      rw [List.length_singleton] at hone
      omega

theorem Match.set (h : Match R books rs) (hr : rs[i]? = some r) {a : α} {r' : Recorder}
    (ha : R a r') : Match R (Function.update books i a) (rs.set i r') := by
  intro m x hx
  by_cases hm : m = i
  · subst hm
    obtain rfl : r' = x := by simpa [List.getElem?_set_self', hr] using hx
    rwa [Function.update_self]
  · rw [List.getElem?_set_ne (Ne.symm hm)] at hx
    rw [Function.update_of_ne hm]
    exact h m x hx

namespace Reflects

theorem takenOver (hR : b.Reflects Q R) (h : Match R books s.recorders)
    (hr : s.recorders[i]? = some r) (ho : s.recorders[j]? = some other)
    (htaken : s.TakenOver i j r other rs) :
    Match R (Function.update books i (b.unite (books i) (books j))) rs := by
  intro m x hx
  by_cases hi : m = i
  · subst hi
    obtain rfl := Option.some.inj (htaken.target.symm.trans hx)
    rw [Function.update_self]
    exact hR.absorb (h m r hr) (h j other ho)
  · rw [Function.update_of_ne hi]
    by_cases hj : m = j
    · subst hj
      obtain rfl := Option.some.inj (htaken.source.symm.trans hx)
      exact hR.consume (h m other ho)
    · rw [htaken.rest m hi hj] at hx
      exact h m x hx

theorem enter (hR : b.Reflects Q R) (h : Match R books s.recorders) {c : Call}
    (hrec : s.Recorded c rs) : Match R (b.enter s books c) rs := by
  cases hrec with
  | validation hr => exact h.set hr (hR.add (h _ _ hr) _)
  | system hr     => exact h.set hr (hR.add (h _ _ hr) _)
  | merge hne hr ho _ => exact hR.takenOver h hr ho (Roster.takenOver_set hne hr ho)
  | join hc hne hr ho _ =>
    rw [Bookkeeping.enter, hc]
    exact hR.takenOver h hr ho (Roster.takenOver_set hne hr ho)

/-- One event keeps the books right. -/
theorem happen (hR : b.Reflects Q R) (h : Match R books s.recorders) {e : Event}
    (he : ∀ l ∈ e.limits?, Q l) : Match R (b.book s books e) (s.happen e).recorders := by
  cases e with
  | openRecorder l    => exact h.concat (hR.fresh (he l rfl))
  | openCoordinator l => exact h.concat (hR.fresh (he l rfl))
  | call c =>
    rw [Roster.happen, Roster.leftBy_eq, book]
    rcases s.perform_cases c with ⟨x, hrefused, hsame⟩ | hok
    · rw [Roster.accepted?_of_error hrefused, hsame]
      exact h
    · rw [Roster.accepted?_of_ok hok]
      exact hR.enter h (Roster.recorded_of_call hok)

/-! ### Runs -/

theorem foldl_happen (hR : b.Reflects Q R) (h : Match R books s.recorders) {es : List Event}
    (hes : ∀ e ∈ es, ∀ l ∈ e.limits?, Q l) :
    Match R (b.bookAll s books es) (es.foldl Roster.happen s).recorders := by
  induction es generalizing s books with
  | nil => exact h
  | cons e es ih =>
    refine ih ?_ fun e' he' => hes e' (List.mem_cons_of_mem e he')
    exact hR.happen h (hes e (List.mem_cons_self ..))

/-- The books are right for every recorder that events lead to. -/
theorem of_afterAll (hR : b.Reflects Q R) {es : List Event} (hes : ∀ e ∈ es, ∀ l ∈ e.limits?, Q l)
    (hr : (afterAll es).recorders[i]? = some r) : R (b.after es i) r := by
  have hempty : Match R (fun _ => b.start) ({} : Roster).recorders := fun _ _ hx => by cases hx
  exact hR.foldl_happen hempty hes i r hr

end Reflects

end Bookkeeping

end NoticeLedger
