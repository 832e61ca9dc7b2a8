/-!
# Histories

A history keeps the last few things that happened, the oldest first. Where it is full, the oldest
one makes room for the newest one.

## Main definitions

* `Raceway.History`: a history, of at most `Raceway.History.capacity` things.
* `Raceway.History.push`: adding the newest thing.

## Main results

* `Raceway.History.entries_push`: the entries are the last ones of all that was pushed.
-/

namespace Raceway

/-- The last entries of a list, at most the given number. -/
def lastEntries {α : Type} (n : Nat) (l : List α) : List α :=
  l.drop (l.length - n)

theorem length_lastEntries {α : Type} (n : Nat) (l : List α) :
    (lastEntries n l).length = min n l.length := by
  rw [lastEntries, List.length_drop]
  omega

namespace History

/-- The greatest number of entries. -/
def capacity : Nat := 64

end History

/-- The last things that happened. -/
structure History (α : Type) where
  /-- What happened, the oldest first. -/
  entries : List α
  /-- There is room for all entries. -/
  length_le : entries.length ≤ History.capacity

namespace History

variable {α : Type}

/-- Nothing has happened. -/
def empty : History α :=
  ⟨[], Nat.zero_le _⟩

/-- Add the newest thing, and let go of the oldest one if there is no room for both. -/
def push (h : History α) (a : α) : History α :=
  ⟨lastEntries capacity (h.entries ++ [a]), by rw [length_lastEntries]; omega⟩

/-- The newest things, at most the given number. -/
def last (h : History α) (n : Nat) : List α :=
  lastEntries n h.entries

@[simp] theorem entries_empty : (empty : History α).entries = [] := rfl

@[simp] theorem entries_push (h : History α) (a : α) :
    (h.push a).entries = lastEntries capacity (h.entries ++ [a]) := by
  rw [push]

end History

end Raceway
