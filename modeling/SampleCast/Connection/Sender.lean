import SampleCast.Connection.Basic

/-! The sender of a connection.
It writes the queued blocks in their order, each whole before the next is taken. It exits when the
queue is empty and closed, when the queue is empty and the server has stopped, and at the first
write that fails. A failed write is an error of the server's own only if the connection was open
and the client had not left. -/

namespace SampleCast.Connection

def failureEvent (c : Connection) (f : Fault) : List Metrics.Event :=
  if c.queue.closed || f.isDisconnect then [] else [.sendFailed]

/-- One action of the sender, or `none` if it has not begun or has exited. `peer` is the client's
side of the write that the action may make. -/
def send (hub : Hub) (peer : Acceptance) (c : Connection) : Option (Hub × Connection) :=
  match c.sender with
  | .absent => none
  | .popping =>
    match c.queue.popOrTimeOut with
    | (.item f, q) =>
      let message := Message.encode f
      some (hub, { c with queue := q, sender := .writing message.length message })
    | (.closed, q) => some (hub, { c with queue := q, sender := .exited })
    | (.empty, q) => some (hub, { c with queue := q, sender := .polling })
  | .polling =>
    some (hub, { c with sender := if hub.barrier.stopped then .exited else .popping })
  | .writing size [] =>
    some (hub.record (.sent size),
      { c with sent := ⟨c.sent.frames + 1, c.sent.bytes + size⟩, sender := .popping })
  | .writing size (b :: bs) =>
    match peer.settle (b :: bs) with
    | .more taken left =>
      some (hub, { c with output := c.output ++ taken, sender := .writing size left })
    | .broken f => some (hub, { c with sender := .failing f })
  | .failing f =>
    some ((c.failureEvent f).foldl Hub.record hub, { c with sender := .unlinking })
  | .unlinking => some (hub, { c with linkUp := false, sender := .exited })
  | .exited => none

def senderIdle (hub : Hub) (c : Connection) : Bool :=
  match c.sender with
  | .absent | .exited => true
  | .popping => c.queue.isEmpty && !c.queue.closed && !hub.barrier.stopped
  | _ => false

end SampleCast.Connection
