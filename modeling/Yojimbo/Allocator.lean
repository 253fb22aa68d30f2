import Yojimbo.Config
/-!
# Allocators

Every object of the model that the sources put on the heap, a message, a block buffer, an array of
channel entries, is a block of an `Allocator`. `yojimbo_allocator.h` is not among the sources, so the
allocator is modelled from what the sources ask of it: `YOJIMBO_ALLOCATE` gives a block or `NULL`,
`YOJIMBO_FREE` takes a block back, and freeing `NULL` does nothing.

Which attempts fail is part of the allocator's state, so "every outcome of the allocator" is every
choice of `succeeds`. Addresses are never reused: `next` grows with every attempt, so an address
names one object for the whole of a run.
-/

namespace Yojimbo

/-- Modelled from the spec: `Allocator` (yojimbo_allocator.h) is not in the sources. The blocks
handed out and not yet freed, the address of the next attempt, and which attempts succeed. -/
structure Allocator where
  outstanding : List Nat
  next : Nat
  succeeds : Nat → Bool

namespace Allocator

/-- `YOJIMBO_ALLOCATE`: a fresh block, or `none` for `NULL`. -/
def allocate (a : Allocator) : Option Nat × Allocator :=
  if a.succeeds a.next then
    (some a.next, { a with outstanding := a.next :: a.outstanding, next := a.next + 1 })
  else (none, { a with next := a.next + 1 })

/-- `YOJIMBO_FREE`: the block leaves the outstanding ones; freeing `NULL` does nothing. -/
def free (a : Allocator) : Option Nat → Allocator
  | none => a
  | some p => { a with outstanding := a.outstanding.erase p }

@[simp] theorem allocate_fst (a : Allocator) :
    a.allocate.1 = if a.succeeds a.next then some a.next else none := by
  unfold allocate; split <;> rfl

@[simp] theorem allocate_next (a : Allocator) : a.allocate.2.next = a.next + 1 := by
  unfold allocate; split <;> rfl

@[simp] theorem allocate_succeeds (a : Allocator) : a.allocate.2.succeeds = a.succeeds := by
  unfold allocate; split <;> rfl

@[simp] theorem allocate_outstanding (a : Allocator) :
    a.allocate.2.outstanding =
      if a.succeeds a.next then a.next :: a.outstanding else a.outstanding := by
  unfold allocate; split <;> rfl

@[simp] theorem free_none (a : Allocator) : a.free none = a := rfl

@[simp] theorem free_next (a : Allocator) (p : Option Nat) : (a.free p).next = a.next := by
  cases p <;> rfl

@[simp] theorem free_succeeds (a : Allocator) (p : Option Nat) :
    (a.free p).succeeds = a.succeeds := by
  cases p <;> rfl

@[simp] theorem free_some_outstanding (a : Allocator) (p : Nat) :
    (a.free (some p)).outstanding = a.outstanding.erase p := rfl

theorem allocate_eq_some {a : Allocator} {p : Nat} (h : a.allocate.1 = some p) :
    p = a.next ∧ a.succeeds a.next = true := by
  rw [allocate_fst] at h
  split at h
  · exact ⟨(Option.some.inj h).symm, ‹_›⟩
  · cases h

end Allocator

end Yojimbo
