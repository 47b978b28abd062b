/-! Faults of a byte stream.
A fault has a kind, which decides how the program reacts, and a text, which is what it prints. -/

namespace SampleCast

inductive FaultKind
  | interrupted
  | unexpectedEnd
  | writeZero
  | brokenPipe
  | connectionReset
  | connectionAborted
  | networkUnreachable
  | addressInUse
  | addressNotAvailable
  | notFound
  | invalidData
  | invalidInput
  | other (name : String)
  deriving DecidableEq, Inhabited

structure Fault where
  kind : FaultKind
  text : String
  deriving DecidableEq, Inhabited

namespace Fault

def shortRead : Fault := ⟨.unexpectedEnd, "failed to fill whole buffer"⟩

def brokenMessage : Fault := ⟨.unexpectedEnd, "stream closed inside a message"⟩

def shortWrite : Fault := ⟨.writeZero, "failed to write whole buffer"⟩

def unreachable : Fault := ⟨.networkUnreachable, "Network is unreachable (os error 101)"⟩

def addressTaken : Fault := ⟨.addressInUse, "Address already in use (os error 98)"⟩

def addressForeign : Fault :=
  ⟨.addressNotAvailable, "Cannot assign requested address (os error 99)"⟩

def badArgument : Fault := ⟨.invalidInput, "Invalid argument (os error 22)"⟩

def missingFile : Fault := ⟨.notFound, "No such file or directory (os error 2)"⟩

def isDirectory : Fault := ⟨.other "IsADirectory", "Is a directory (os error 21)"⟩

def notDirectory : Fault := ⟨.other "NotADirectory", "Not a directory (os error 20)"⟩

def longName : Fault := ⟨.other "InvalidFilename", "File name too long (os error 36)"⟩

def noHost : Fault :=
  ⟨.other "Uncategorized", "failed to lookup address information: Name or service not known"⟩

def unknownHost : Fault :=
  ⟨.other "Uncategorized",
    "failed to lookup address information: Temporary failure in name resolution"⟩

def notText : Fault := ⟨.invalidData, "stream did not contain valid UTF-8"⟩

def zeroTimeout : Fault := ⟨.invalidInput, "cannot set a 0 duration timeout"⟩

def isRetried (f : Fault) : Bool := f.kind == .interrupted

/-- The faults by which a write learns that the peer has left. -/
def isDisconnect (f : Fault) : Bool :=
  f.kind == .brokenPipe || f.kind == .connectionReset || f.kind == .connectionAborted

end Fault
end SampleCast
