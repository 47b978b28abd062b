/-! Counters of one server.
Every counter is a 64-bit word and wraps. The active connections are those accepted and not yet
closed. -/

namespace SampleCast

structure Metrics where
  connectionsAccepted : UInt64 := 0
  activeConnections : UInt64 := 0
  handshakeFailures : UInt64 := 0
  overflowDrops : UInt64 := 0
  sendErrors : UInt64 := 0
  invariantViolations : UInt64 := 0
  generationsPublished : UInt64 := 0
  framesSent : UInt64 := 0
  bytesSent : UInt64 := 0
  deriving DecidableEq, Inhabited

namespace Metrics

inductive Event
  | accepted
  | closed
  | handshakeFailed
  | overflowed
  | sendFailed
  | violated
  | published
  | sent (bytes : Nat)
  deriving DecidableEq, Inhabited

def record (m : Metrics) : Event → Metrics
  | .accepted => { m with
      connectionsAccepted := m.connectionsAccepted + 1
      activeConnections := m.activeConnections + 1 }
  | .closed => { m with activeConnections := m.activeConnections - 1 }
  | .handshakeFailed => { m with handshakeFailures := m.handshakeFailures + 1 }
  | .overflowed => { m with overflowDrops := m.overflowDrops + 1 }
  | .sendFailed => { m with sendErrors := m.sendErrors + 1 }
  | .violated => { m with invariantViolations := m.invariantViolations + 1 }
  | .published => { m with generationsPublished := m.generationsPublished + 1 }
  | .sent bytes => { m with
      framesSent := m.framesSent + 1
      bytesSent := m.bytesSent + UInt64.ofNat bytes }

def recordEach (m : Metrics) : List Event → List Metrics
  | [] => []
  | e :: more => m.record e :: (m.record e).recordEach more

end Metrics
end SampleCast
