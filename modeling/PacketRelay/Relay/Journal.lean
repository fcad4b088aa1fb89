import PacketRelay.Effect
import PacketRelay.Relay.Table

/-!
The journal of a relay: all its effects, each with the session it belongs to.

A packet is fully determined by its draft and the identification that was next when it was written.
-/

set_option autoImplicit false

namespace PacketRelay

structure Entry where
  /-- The session that was handled, if it was one. -/
  session : Option SessionId
  /-- The identification that was next when the effect happened. -/
  identification : UInt16
  effect : Effect
  deriving DecidableEq

/-- The packet that an entry put into the tunnel. -/
def Entry.packet? (e : Entry) : Option Bytes :=
  match e.effect with
  | .write _ draft => some (draft.toBytes e.identification)
  | _ => none

end PacketRelay
