import RowStore.Error

/-!
# Sizes

Widths, offsets and numbers of bytes are natural numbers throughout the library, so that the laws
of page geometry hold without side conditions.  A machine is bounded: what it counts has to fit
into 64 bits (`Size.limit`), and what it holds in one piece has to be countable with 63 of them
(`Size.bufferLimit`).

To stay within these bounds is a promise of the caller, like the other ones that a `Violation` is
about.  `Size.check` and `Size.checkBuffer` hold a caller to it where a size comes from outside.
Within the bounds they change nothing.
-/

namespace RowStore.Size

/-- The greatest size that can be counted. -/
def limit : Nat := 18446744073709551615

/-- The greatest size of what is held in one piece. -/
def bufferLimit : Nat := 9223372036854775807

/-- Accepts a size that is not beyond a bound. -/
def within (bound size : Nat) : Except Failure Nat :=
  if size ≤ bound then .ok size else .error (.violation (.sizeOutOfRange size))

/-- Accepts a size that can be counted. -/
def check (size : Nat) : Except Failure Nat := within limit size

/-- Accepts the size of something that can be held in one piece. -/
def checkBuffer (size : Nat) : Except Failure Nat := within bufferLimit size

theorem within_of_le {bound size : Nat} (h : size ≤ bound) : within bound size = .ok size :=
  if_pos h

end RowStore.Size
