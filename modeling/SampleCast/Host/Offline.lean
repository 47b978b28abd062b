import SampleCast.Host.Name
import SampleCast.Stream.Fault

/-! Hosts without a network.
No link of such a host is up. Every version 4 address can be bound, and none can be reached. Of
version 6 only the address that stands for all of them can be bound, and there is none from which
another host could be reached. -/

namespace SampleCast

structure OfflineHost where
  names : List (String × Address) := []
  takenPort : UInt16
  deriving Inhabited

namespace Address

/-- A version 6 address that stands for one of version 4 is used like it. -/
def unmapped : Address → Address
  | .v6 0 0 0 0 0 0xffff g h => .ofNumber (g.toNat * 0x10000 + h.toNat)
  | a => a

def coversLoopback (a : Address) : Bool :=
  a == .loopbackV4 || a == .anyV4 || a == .v6 0 0 0 0 0 0 0 0

end Address

namespace OfflineHost

def bindFault? (host : OfflineHost) (a : Address) (port : UInt16) : Option Fault :=
  let a := a.unmapped
  if a.coversLoopback then if port = host.takenPort then some .addressTaken else none
  else
    match a with
    | .v4 .. => none
    | .v6 .. =>
      if a.isLinkLocal || a.isMulticast then some .badArgument else some .addressForeign

def connectFault (a : Address) (onLink : Bool) : Fault :=
  match a.unmapped with
  | .v4 .. => .unreachable
  | a =>
    if a.isMulticast then .unreachable
    else if a.isLinkLocal && !onLink then .badArgument
    else .addressForeign

def known? (host : OfflineHost) (name : String) : Option Address :=
  (host.names.find? (·.1.toLower == name.toLower)).map (·.2)

def dialFault (host : OfflineHost) (text : String) : Fault :=
  match HostName.parse? text with
  | none => .noHost
  | some (.address a onLink) => connectFault a onLink
  | some (.name name) =>
    match host.known? name with
    | some a => connectFault a false
    | none => .unknownHost

end OfflineHost
end SampleCast
