import PacketRelay.Relay.State

/-!
Answering echo requests once their destinations have been probed.
-/

set_option autoImplicit false

namespace PacketRelay

/-- The reply to an echo request whose destination was reached. -/
def Inbound.Echo.reply (e : Inbound.Echo) : Except PacketError Draft :=
  Draft.echoMessage e.ip.replyTemplate e.message.echoReply

namespace Relay

/-- The `i`-th job of the ping workers is done: its destination was reached and the reply is
written, or it was not and nothing is. -/
def finishProbe (r : Relay) (i : Nat) (reachable : Bool) : Relay :=
  match r.pings.busy[i]? with
  | none => r
  | some job =>
    let r := { r with pings := r.pings.complete i }
    let r := r.emit none (.probe job.ip.destination r.settings.probeTimeout reachable)
    if reachable then
      match job.reply with
      | .ok draft => r.emit none (.write .echoReply draft)
      | .error _ => r
    else r

end Relay
end PacketRelay
