import PacketRelay.Config.Load
import PacketRelay.Ping.Probe
import PacketRelay.Relay.Handling
import PacketRelay.Relay.Pinging
import PacketRelay.Relay.Polling
import PacketRelay.Proofs.Run
import PacketRelay.Proofs.Move
import PacketRelay.Proofs.History
import PacketRelay.Proofs.Addition
import PacketRelay.Proofs.Answer
import PacketRelay.Proofs.Egress
import PacketRelay.Proofs.Ingress
import PacketRelay.Proofs.Access
import PacketRelay.Proofs.Window
import PacketRelay.Proofs.Removal
import PacketRelay.Proofs.Finishing
import PacketRelay.Proofs.Delivery
import PacketRelay.Proofs.Conversing
import PacketRelay.Proofs.Isolation
import PacketRelay.Proofs.Interleaving
import PacketRelay.Proofs.Datagrams
import PacketRelay.Proofs.RoundTrip
import PacketRelay.Proofs.Workers
import PacketRelay.Proofs.Fitting
import PacketRelay.Proofs.Besides
import PacketRelay.Proofs.Echoing
import PacketRelay.Proofs.Fragments
import PacketRelay.Proofs.Unopened
import PacketRelay.Proofs.Agreement
import PacketRelay.Proofs.Idling
import PacketRelay.Proofs.Rejection
import PacketRelay.Proofs.Repetition
import PacketRelay.Proofs.OptionList
import PacketRelay.Proofs.Naming
import PacketRelay.Proofs.Damage
import PacketRelay.Proofs.Transience
import PacketRelay.Proofs.Recognition
