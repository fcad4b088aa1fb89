import PacketRelay.Config.Document
import PacketRelay.Config.Endpoint
import PacketRelay.Config.Environment
import PacketRelay.Config.Settings

/-!
Loading a configuration: the defaults, over them a document, over that the environment.

A setting that is given must have the right type and lie in the range of its field. Unknown keys are
ignored. A group of settings may also be given as a list, whose items are the settings in their
order.
-/

set_option autoImplicit false

namespace PacketRelay.Config

namespace Value

def natural? (bound : Nat) : Value → Option Nat
  | integer negative size =>
    if (negative → size = 0) ∧ size < bound then some size else none
  | _ => none

def text? : Value → Option String
  | text s => some s
  | _ => none

/-- The members of a group, by name in a mapping and by place in a list. -/
def member? (v : Value) (name : String) (place : Nat) : Option (Option Value) :=
  match v with
  | mapping entries => some (find? entries name)
  | list items => some items[place]?
  | _ => none

/-- A member of a group, or its default where it is not given. -/
def setting {α : Type} (v : Value) (name : String) (place : Nat) (read : Value → Option α)
    (default : α) : Option α := do
  match ← v.member? name place with
  | some given => read given
  | none => some default

/-- A member of a group that must be given. -/
def required {α : Type} (v : Value) (name : String) (place : Nat) (read : Value → Option α) :
    Option α := do
  read (← ← v.member? name place)

def bound64 : Nat := Nat.pow 2 64

def tunnel? (v : Value) : Option Tunnel := do
  let default : Tunnel := {}
  let name ← v.setting "name" 0 text? default.name
  let mtu ← v.setting "mtu" 1 (natural? bound64) default.mtu
  return { name, mtu }

def redirection? (v : Value) : Option Redirection := do
  let port ← v.required "port" 0 (natural? 65536)
  let target ← v.required "target" 1 fun v => v.text?.bind Endpoint.parse
  return { port := UInt16.ofNat port, target }

def redirections? : Value → Option (List Redirection)
  | list items => items.mapM redirection?
  | _ => none

def sessions? (v : Value) : Option Sessions := do
  let default : Sessions := {}
  let idleTimeoutSecs ← v.setting "idle_timeout_secs" 0 (natural? bound64) default.idleTimeoutSecs
  let receiveBufferSize ←
    v.setting "receive_buffer_size" 1 (natural? bound64) default.receiveBufferSize
  let scope ← v.setting "link_local_scope_id" 2 (natural? (Nat.pow 2 32)) default.linkLocalScope.toNat
  let redirections ← v.setting "tcp_port_redirections" 3 redirections? default.redirections
  return {
    idleTimeoutSecs, receiveBufferSize, linkLocalScope := UInt32.ofNat scope, redirections }

def pings? (v : Value) : Option Pings := do
  let default : Pings := {}
  let coreWorkers ← v.setting "core_workers" 0 (natural? bound64) default.coreWorkers
  let maxWorkers ← v.setting "max_workers" 1 (natural? bound64) default.maxWorkers
  let keepAliveSecs ← v.setting "keep_alive_secs" 2 (natural? bound64) default.keepAliveSecs
  let probeTimeoutSecs ← v.setting "probe_timeout_secs" 3 (natural? bound64) default.probeTimeoutSecs
  return { coreWorkers, maxWorkers, keepAliveSecs, probeTimeoutSecs }

def polling? (v : Value) : Option Polling := do
  let default : Polling := {}
  let intervalMs ← v.setting "poll_interval_ms" 0 (natural? bound64) default.intervalMs
  return { intervalMs }

def config? (v : Value) : Option Config := do
  let tunnel ← v.setting "tunnel" 0 tunnel? {}
  let sessions ← v.setting "session" 1 sessions? {}
  let pings ← v.setting "ping" 2 pings? {}
  let polling ← v.setting "relay" 3 polling? {}
  let logLevel ← v.setting "log_level" 4 text? "info"
  return { tunnel, sessions, pings, polling, logLevel }

end Value

/-- Loads a configuration from a document, if there is one, and environment variables, and checks
it. -/
def load (document : Option String) (vars : List (String × String)) : Except Error Config :=
  match Document.parse (document.getD "") with
  | none => .error .unreadable
  | some entries =>
    match ((Value.mapping entries).overlay (Environment.settings vars)).config? with
    | none => .error .unreadable
    | some config => config.pings.validate.map fun _ => config

end PacketRelay.Config
