import PacketRelay.Session.Outbound
import PacketRelay.Socket

/-!
Emptying a queue of client payload into a socket.

Chunks are offered whole and in order. The flush ends when the queue is empty or the socket takes no
more; every send that takes something uses up an outcome of the socket or a chunk of the queue.
-/

set_option autoImplicit false

namespace PacketRelay.Session

inductive FlushEnd
  | drained
  /-- The socket takes nothing now. -/
  | blocked
  | failed (errno : Errno)
  deriving DecidableEq

structure Flushed where
  queue : Outbound
  socket : Socket
  /-- The pieces that the socket took, latest first. -/
  sent : List Bytes
  finish : FlushEnd
  deriving DecidableEq

namespace Outbound

/-- The number of sends that can still make progress. -/
def sendsLeft (q : Outbound) (socket : Socket) : Nat := socket.room.length + q.chunks.length

theorem sendsLeft_consume {q : Outbound} {chunk : Bytes} {rest : List Bytes}
    {socket after : Socket} {n : Nat} (chunks : q.chunks = chunk :: rest)
    (sent : socket.send chunk = (.ok n, after)) (some_taken : n ≠ 0) :
    (q.consume n).sendsLeft after < q.sendsLeft socket := by
  have length_le : (q.consume n).chunks.length ≤ q.chunks.length := by
    simp only [consume, chunks]
    split <;> simp
  cases room : socket.room with
  | nil =>
    simp only [Socket.send, room, Prod.mk.injEq, Except.ok.injEq] at sent
    obtain ⟨rfl, rfl⟩ := sent
    simp [sendsLeft, consume, chunks]
  | cons outcome later =>
    cases outcome with
    | failure e => simp [Socket.send, room] at sent
    | upTo m =>
      simp only [Socket.send, room, Prod.mk.injEq] at sent
      obtain ⟨-, rfl⟩ := sent
      simp only [sendsLeft, room, List.length_cons]
      omega

/-- Sends from the front of the queue until it is empty or the socket takes no more. An interrupted
send counts as a failure. -/
def flush (q : Outbound) (socket : Socket) (sent : List Bytes) : Flushed :=
  match _ : q.chunks with
  | [] => ⟨q, socket, sent, .drained⟩
  | chunk :: _ =>
    match _ : socket.send chunk with
    | (.error .wouldBlock, after) => ⟨q, after, sent, .blocked⟩
    | (.error e, after) => ⟨q, after, sent, .failed e⟩
    | (.ok n, after) =>
      if _ : n = 0 then ⟨q, after, sent, .blocked⟩
      else flush (q.consume n) after (chunk.take n :: sent)
termination_by q.sendsLeft socket
decreasing_by exact sendsLeft_consume ‹_› ‹_› ‹_›

end Outbound
end PacketRelay.Session
