/-!
# Journals

A journal keeps entries in the order of their arrival. Its entries are looked at as a list
(`Journal.toList`); an entry that arrives stands at the end of it (`Journal.toList_push`), and a
journal is determined by its list (`Journal.ext`). Adding an entry takes the same time however
long the journal is, and so does asking for its size.
-/

namespace NoticeLedger

variable {α : Type}

/-- Entries in the order of their arrival. -/
structure Journal (α : Type) where
  /-- The entries, the last one first. -/
  newestFirst : List α
  /-- How many entries there are. -/
  size : Nat
  size_eq : size = newestFirst.length
  deriving DecidableEq, Repr

namespace Journal

/-- The journal without entries. -/
def empty : Journal α :=
  ⟨[], 0, rfl⟩

instance : Inhabited (Journal α) := ⟨empty⟩

/-- The entries, the first one first. -/
def toList (l : Journal α) : List α :=
  l.newestFirst.reverse

/-- Add an entry at the end. -/
def push (l : Journal α) (a : α) : Journal α :=
  ⟨a :: l.newestFirst, l.size + 1, congrArg (· + 1) l.size_eq⟩

/-- Add the entries of another journal at the end, in their order. -/
def append (l m : Journal α) : Journal α :=
  ⟨m.newestFirst ++ l.newestFirst, m.size + l.size, by
    rw [List.length_append, m.size_eq, l.size_eq]⟩

/-- Add an entry in front of those from a position on. -/
def insertAt (l : Journal α) (position : Nat) (a : α) : Journal α :=
  let behind := l.size - position
  ⟨l.newestFirst.take behind ++ a :: l.newestFirst.drop behind, l.size + 1, by
    have := congrArg List.length (List.take_append_drop behind l.newestFirst)
    rw [List.length_append] at this
    simp only [List.length_append, List.length_cons, l.size_eq]
    omega⟩

@[simp] theorem toList_empty : (empty : Journal α).toList = [] := rfl

@[simp] theorem toList_push (l : Journal α) (a : α) : (l.push a).toList = l.toList ++ [a] := by
  simp [toList, push]

@[simp] theorem toList_append (l m : Journal α) :
    (l.append m).toList = l.toList ++ m.toList := by
  simp [toList, append]

@[simp] theorem toList_insertAt (l : Journal α) (position : Nat) (a : α) :
    (l.insertAt position a).toList = l.toList.take position ++ a :: l.toList.drop position := by
  simp [toList, insertAt, List.take_reverse, List.drop_reverse, l.size_eq]

theorem length_toList (l : Journal α) : l.toList.length = l.size := by
  rw [toList, List.length_reverse, l.size_eq]

/-- Journals with the same list are the same. -/
theorem ext {l m : Journal α} (h : l.toList = m.toList) : l = m := by
  obtain ⟨xs, n, hn⟩ := l
  obtain ⟨ys, k, hk⟩ := m
  have hxy : xs = ys := List.reverse_inj.1 h
  subst hxy hn hk
  rfl

end Journal

end NoticeLedger
