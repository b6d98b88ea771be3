import VirtualFiles.Source.Basic

/-!
# Pointers to sources

A source may be shared, owned or lent, and is then read through a pointer. A pointer is a source
too. It passes on what it is asked for, and gets its exact reads, like any source, from its
own single reads.

## Main definitions

* `Pointer` — the kinds of pointers
* `Source.behind`, `Source.through` — a source as it is read through one pointer and through many

## Main results

* `Source.through_eq` — pointers change nothing about a source
-/

namespace VirtualFiles

/-- The kinds of pointers to a source. -/
inductive Pointer
  /-- One of several that own the source together. -/
  | shared
  /-- The only owner of the source. -/
  | owned
  /-- A pointer to a source that another one owns. -/
  | borrowed
  deriving DecidableEq, Repr

namespace Source

/-- The source as it is read through a pointer. The kind of the pointer makes no difference. -/
def behind (s : Source) (_ : Pointer) : Source where
  length := s.length
  readAt fs offset count := s.readAt fs offset count
  readAt_le h := s.readAt_le h

/-- The source as it is read through pointers to pointers, the outermost of them first. -/
def through (s : Source) : List Pointer → Source
  | [] => s
  | pointer :: inner => (s.through inner).behind pointer

theorem behind_eq (s : Source) (pointer : Pointer) : s.behind pointer = s := rfl

theorem through_eq (s : Source) (pointers : List Pointer) : s.through pointers = s := by
  induction pointers with
  | nil => rfl
  | cons pointer inner ih => rw [through, behind_eq, ih]

end Source

end VirtualFiles
