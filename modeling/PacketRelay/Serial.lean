/-!
The order of TCP sequence numbers.

Sequence numbers are counted modulo 2^32. One comes after another if it lies less than half the
circle ahead of it; half the circle apart, neither comes after the other.
-/

set_option autoImplicit false

namespace PacketRelay.Serial

/-- `a` lies ahead of `b`, by less than half the circle. -/
def after (a b : UInt32) : Bool := 0 < a - b && a - b < 0x80000000

/-- `a` is `b` or lies ahead of it, by less than half the circle. -/
def atOrAfter (a b : UInt32) : Bool := a - b < 0x80000000

/-- Of two sequence numbers the one that the other is not behind. -/
def earlier (a b : UInt32) : UInt32 := if after a b then b else a

theorem atOrAfter_self (a : UInt32) : atOrAfter a a = true := by
  rw [atOrAfter, UInt32.sub_self]; rfl

theorem after_self (a : UInt32) : after a a = false := by
  rw [after, UInt32.sub_self]; rfl

end PacketRelay.Serial
