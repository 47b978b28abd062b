import SampleCast.Metrics.Basic

/-! The one-line report of a server's counters.
It names every counter and gives the rate at which blocks were published. A server that has run for
no time has rate zero. Rates have a fixed number of decimal places: the exact binary value is
rounded to the nearest multiple of the last place, and a value half-way between two goes to the even
one. -/

namespace SampleCast

namespace FixedPlaces

/-- The quotient, rounded to the nearest whole number and to the even one of two. -/
def roundDiv (n d : Nat) : Nat :=
  let q := n / d
  let twice := 2 * (n % d)
  if d < twice ∨ (twice = d ∧ q % 2 = 1) then q + 1 else q

def digits (places scaled : Nat) : String :=
  let whole := toString (scaled / Nat.pow 10 places)
  if places = 0 then whole
  else
    let part := toString (scaled % Nat.pow 10 places)
    whole ++ "." ++ String.ofList (List.replicate (places - part.length) '0') ++ part

def hiddenBit : Nat := 0x10000000000000

def format (places : Nat) (x : Float) : String :=
  let bits := x.toBits.toNat
  let mantissa := bits % hiddenBit
  let exponent := bits / hiddenBit % 2048
  let sign := if bits / hiddenBit / 2048 = 1 then "-" else ""
  if exponent = 2047 then (if mantissa = 0 then sign ++ "inf" else "NaN")
  else
    let m := (if exponent = 0 then mantissa else mantissa + hiddenBit) * Nat.pow 10 places
    let e := max exponent 1
    let scaled := if 1075 ≤ e then m * Nat.pow 2 (e - 1075) else roundDiv m (Nat.pow 2 (1075 - e))
    sign ++ digits places scaled

end FixedPlaces

namespace Metrics

def rate (count : UInt64) (uptime : Float) : Float :=
  if 0.0 < uptime then count.toFloat / uptime else 0.0

def generationRate (m : Metrics) (uptime : Float) : Float := rate m.generationsPublished uptime

def byteRate (m : Metrics) (uptime : Float) : Float := rate m.bytesSent uptime

def report (m : Metrics) (uptime : Float) : String :=
  s!"generations={m.generationsPublished} ({FixedPlaces.format 1 (m.generationRate uptime)}/s) "
    ++ s!"clients={m.activeConnections} accepted={m.connectionsAccepted} "
    ++ s!"frames_sent={m.framesSent} bytes_sent={m.bytesSent} "
    ++ s!"handshake_failures={m.handshakeFailures} overflow_drops={m.overflowDrops} "
    ++ s!"send_errors={m.sendErrors} invariant_violations={m.invariantViolations}"

end Metrics
end SampleCast
