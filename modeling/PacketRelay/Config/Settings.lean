import PacketRelay.Relay.State

/-!
The configuration of a relay: its defaults and the bounds it has to keep.
-/

set_option autoImplicit false

namespace PacketRelay

namespace Config

structure Tunnel where
  name : String := "tun0"
  /-- The largest packet read from the interface. -/
  mtu : Nat := 1500
  deriving DecidableEq

structure Sessions where
  idleTimeoutSecs : Nat := 120
  receiveBufferSize : Nat := 65535
  linkLocalScope : UInt32 := 0
  redirections : List Redirection := []
  deriving DecidableEq

structure Pings where
  coreWorkers : Nat := 1
  maxWorkers : Nat := 20
  keepAliveSecs : Nat := 60
  probeTimeoutSecs : Nat := 10
  deriving DecidableEq

structure Polling where
  intervalMs : Nat := 10
  deriving DecidableEq

inductive Error
  | unreadable
  | maxWorkersOutOfRange (max : Nat)
  | coreAboveMax (core max : Nat)
  deriving DecidableEq

/-- The most workers that may be allowed. -/
def workerLimit : Nat := 20

/-- The wording of an error about the ping workers; what cannot be read has no fixed wording. -/
def Error.message? : Error → Option String
  | unreadable => none
  | maxWorkersOutOfRange max =>
    some ("invalid configuration: ping.max_workers must be between 1 and " ++ toString workerLimit ++
      ", got " ++ toString max)
  | coreAboveMax core max =>
    some ("invalid configuration: ping.core_workers (" ++ toString core ++
      ") exceeds ping.max_workers (" ++ toString max ++ ")")

/-- Checks the numbers of workers: at least one and at most the limit, and no more in the core than
in all. -/
def Pings.validate (p : Pings) : Except Error Unit :=
  if p.maxWorkers = 0 ∨ workerLimit < p.maxWorkers then .error (.maxWorkersOutOfRange p.maxWorkers)
  else if p.maxWorkers < p.coreWorkers then .error (.coreAboveMax p.coreWorkers p.maxWorkers)
  else .ok ()

end Config

structure Config where
  tunnel : Config.Tunnel := {}
  sessions : Config.Sessions := {}
  pings : Config.Pings := {}
  polling : Config.Polling := {}
  logLevel : String := "info"
  deriving DecidableEq

namespace Config

/-- Where connections to a port go, if not to their own destination. -/
def redirectionFor (c : Config) (port : UInt16) : Option Socket.Target :=
  (c.sessions.redirections.find? fun redirection => redirection.port == port).map (·.target)

/-- The settings of a relay with this configuration. Segments are kept within the tunnel. -/
def relaySettings (c : Config) (egress ingress : Session.Classifier) : Relay.Settings where
  mssLimit := Tcp.mssForMtu c.tunnel.mtu
  idleTimeout := c.sessions.idleTimeoutSecs * 1000 * millisecond
  receiveBuffer := c.sessions.receiveBufferSize
  linkLocalScope := c.sessions.linkLocalScope
  redirections := c.sessions.redirections
  egressClassifier := egress
  ingressClassifier := ingress
  probeTimeout := c.pings.probeTimeoutSecs * 1000

/-- A relay with this configuration. -/
def startRelay (c : Config) (egress ingress : Session.Classifier) (now : Nat) : Relay :=
  Relay.start (c.relaySettings egress ingress) now c.pings.coreWorkers c.pings.maxWorkers

end Config
end PacketRelay
