import CreditFlow.Text.Quoted

/-!
# Failures and their causes

A *cause* is what a producer reports when its transfer breaks.  A *failure* is
what the thread at a bridge is told: the cause that its producer gave, or a condition
that the bridge itself detected.

Every error has a message, a chain of the messages of its sources, and a debug
text.  An adapter that relays a cause keeps all three and hides only which kind
of error it was.

Main results:

- {lit}`Failure.producer_message` and {lit}`Failure.producer_chain`: a failure of the
  producer quotes its cause and has it as its first source.
- {lit}`Cause.relayed_message`, {lit}`Cause.relayed_chain`,
  {lit}`Cause.relayed_debug`: relaying changes no text.
- {lit}`Failure.ioKind_ne_interrupted`: no failure is ever reported under the
  kind that callers retry.
-/

namespace CreditFlow

/-- Where a blocking call was waiting when it was interrupted. -/
inductive WaitPoint where
  | metadata
  | data
  | demand
  deriving DecidableEq, Repr

namespace WaitPoint

/-- What the call was waiting for. -/
def message : WaitPoint → String
  | .metadata => "response metadata"
  | .data => "stream data"
  | .demand => "downstream demand"

/-- The name of the wait point. -/
def debug : WaitPoint → String
  | .metadata => "Metadata"
  | .data => "Data"
  | .demand => "Demand"

end WaitPoint

/-- The kinds under which input and output errors are classed. -/
inductive IoKind where
  | notFound | permissionDenied | connectionRefused | connectionReset
  | hostUnreachable | networkUnreachable | connectionAborted | notConnected
  | addrInUse | addrNotAvailable | networkDown | brokenPipe | alreadyExists
  | wouldBlock | notADirectory | isADirectory | directoryNotEmpty
  | readOnlyFilesystem | staleNetworkFileHandle | invalidInput | invalidData
  | timedOut | writeZero | storageFull | notSeekable | quotaExceeded
  | fileTooLarge | resourceBusy | executableFileBusy | deadlock
  | crossesDevices | tooManyLinks | invalidFilename | argumentListTooLong
  | interrupted | unsupported | unexpectedEof | outOfMemory | other
  deriving DecidableEq, Repr

namespace IoKind

/-- The name under which a kind is reported. -/
def name : IoKind → String
  | .notFound => "NotFound"
  | .permissionDenied => "PermissionDenied"
  | .connectionRefused => "ConnectionRefused"
  | .connectionReset => "ConnectionReset"
  | .hostUnreachable => "HostUnreachable"
  | .networkUnreachable => "NetworkUnreachable"
  | .connectionAborted => "ConnectionAborted"
  | .notConnected => "NotConnected"
  | .addrInUse => "AddrInUse"
  | .addrNotAvailable => "AddrNotAvailable"
  | .networkDown => "NetworkDown"
  | .brokenPipe => "BrokenPipe"
  | .alreadyExists => "AlreadyExists"
  | .wouldBlock => "WouldBlock"
  | .notADirectory => "NotADirectory"
  | .isADirectory => "IsADirectory"
  | .directoryNotEmpty => "DirectoryNotEmpty"
  | .readOnlyFilesystem => "ReadOnlyFilesystem"
  | .staleNetworkFileHandle => "StaleNetworkFileHandle"
  | .invalidInput => "InvalidInput"
  | .invalidData => "InvalidData"
  | .timedOut => "TimedOut"
  | .writeZero => "WriteZero"
  | .storageFull => "StorageFull"
  | .notSeekable => "NotSeekable"
  | .quotaExceeded => "QuotaExceeded"
  | .fileTooLarge => "FileTooLarge"
  | .resourceBusy => "ResourceBusy"
  | .executableFileBusy => "ExecutableFileBusy"
  | .deadlock => "Deadlock"
  | .crossesDevices => "CrossesDevices"
  | .tooManyLinks => "TooManyLinks"
  | .invalidFilename => "InvalidFilename"
  | .argumentListTooLong => "ArgumentListTooLong"
  | .interrupted => "Interrupted"
  | .unsupported => "Unsupported"
  | .unexpectedEof => "UnexpectedEof"
  | .outOfMemory => "OutOfMemory"
  | .other => "Other"

/-- Every kind, once. -/
def all : List IoKind :=
  [.notFound, .permissionDenied, .connectionRefused, .connectionReset,
    .hostUnreachable, .networkUnreachable, .connectionAborted, .notConnected,
    .addrInUse, .addrNotAvailable, .networkDown, .brokenPipe, .alreadyExists,
    .wouldBlock, .notADirectory, .isADirectory, .directoryNotEmpty,
    .readOnlyFilesystem, .staleNetworkFileHandle, .invalidInput, .invalidData,
    .timedOut, .writeZero, .storageFull, .notSeekable, .quotaExceeded,
    .fileTooLarge, .resourceBusy, .executableFileBusy, .deadlock,
    .crossesDevices, .tooManyLinks, .invalidFilename, .argumentListTooLong,
    .interrupted, .unsupported, .unexpectedEof, .outOfMemory, .other]

/-- The kind of a given name. -/
def ofName? (s : String) : Option IoKind :=
  all.find? fun k => k.name = s

end IoKind

/-- What a bridge detects by itself. -/
inductive Condition where
  /-- The interrupt token fired while a call was waiting. -/
  | interrupted (point : WaitPoint)
  /-- The consumer cancelled. -/
  | cancelled
  /-- The bridge was closed by its own side. -/
  | closed
  /-- The producer delivered an item that nobody had asked for. -/
  | demandExceeded
  /-- The writer went away without closing. -/
  | abandoned
  /-- The stream ended and no metadata was ever published. -/
  | missingMetadata
  deriving DecidableEq, Repr

namespace Condition

/-- The message of a condition. -/
def message : Condition → String
  | .interrupted point => "interrupted while waiting for " ++ point.message
  | .cancelled => "stream cancelled during write"
  | .closed => "stream already closed"
  | .demandExceeded => "publisher delivered more items than requested"
  | .abandoned => "writer dropped before close"
  | .missingMetadata => "stream ended without response metadata"

/-- The debug text of a condition. -/
def debug : Condition → String
  | .interrupted point => "Interrupted(" ++ point.debug ++ ")"
  | .cancelled => "Cancelled"
  | .closed => "Closed"
  | .demandExceeded => "DemandExceeded"
  | .abandoned => "Abandoned"
  | .missingMetadata => "MissingMetadata"

/-- The kind under which byte-stream calls report a condition. -/
def ioKind : Condition → IoKind
  | .cancelled | .closed | .abandoned => .brokenPipe
  | .interrupted _ | .demandExceeded | .missingMetadata => .other

end Condition

/-- What a producer reports when its transfer breaks.  A bridge may itself serve as
the producer of the next one; its failures are then causes as well. -/
inductive Cause where
  /-- An error made up for a rehearsal, with its message. -/
  | test (text : String)
  /-- An input or output error of some kind, with its message. -/
  | io (kind : IoKind) (text : String)
  /-- The consumer asked for zero items. -/
  | zeroDemand
  /-- The producer is a bridge, which detected a condition. -/
  | condition (c : Condition)
  /-- The producer is a bridge, whose own producer failed. -/
  | producer (c : Cause)
  /-- An adapter handed the cause on, and hides its kind. -/
  | relayed (c : Cause)
  deriving DecidableEq, Repr

namespace Cause

/-- What a bridge writes before the message of its producer's cause. -/
def producerText : String := "could not read response: "

/-- The message of a cause. -/
def message : Cause → String
  | .test text => text
  | .io _ text => text
  | .zeroDemand => "subscriber requested zero items"
  | .condition c => c.message
  | .producer c => producerText ++ c.message
  | .relayed c => c.message

/-- The messages of the sources of a cause, the nearest first. -/
def chain : Cause → List String
  | .producer c => c.message :: c.chain
  | .relayed c => c.chain
  | _ => []

/-- The debug text of a cause. -/
def debug : Cause → String
  | .test text => "TestError(" ++ Text.quoted text ++ ")"
  | .io kind text =>
      "Custom \x7b kind: " ++ kind.name ++ ", error: " ++ Text.quoted text ++ " \x7d"
  | .zeroDemand => "ZeroDemand"
  | .condition c => c.debug
  | .producer c => "Upstream(" ++ c.debug ++ ")"
  | .relayed c => c.debug

/-- Relaying a cause keeps its message. -/
@[simp]
theorem relayed_message (c : Cause) : (relayed c).message = c.message := rfl

/-- Relaying a cause keeps its sources. -/
@[simp]
theorem relayed_chain (c : Cause) : (relayed c).chain = c.chain := rfl

/-- Relaying a cause keeps its debug text. -/
@[simp]
theorem relayed_debug (c : Cause) : (relayed c).debug = c.debug := rfl

end Cause

/-- What the thread at a bridge is told when a call cannot do its work. -/
inductive Failure where
  /-- The bridge detected a condition. -/
  | condition (c : Condition)
  /-- The producer failed. -/
  | producer (cause : Cause)
  deriving DecidableEq, Repr

namespace Failure

/-- A failure seen as the cause that the next bridge is told. -/
def toCause : Failure → Cause
  | .condition c => .condition c
  | .producer cause => .producer cause

/-- The message of a failure. -/
def message (f : Failure) : String := f.toCause.message

/-- The messages of the sources of a failure, the nearest first. -/
def chain (f : Failure) : List String := f.toCause.chain

/-- The debug text of a failure. -/
def debug (f : Failure) : String := f.toCause.debug

/-- The kind under which a failure is reported by byte-stream calls. -/
def ioKind : Failure → IoKind
  | .condition c => c.ioKind
  | .producer _ => .other

/-- A failure of the producer quotes the message of its cause. -/
@[simp]
theorem producer_message (c : Cause) :
    (producer c).message = Cause.producerText ++ c.message := rfl

/-- A failure of the producer has its cause as its first source. -/
@[simp]
theorem producer_chain (c : Cause) : (producer c).chain = c.message :: c.chain := rfl

/-- No failure is reported under the kind that callers answer by trying again. -/
theorem ioKind_ne_interrupted (f : Failure) : f.ioKind ≠ .interrupted := by
  cases f with
  | condition c => cases c <;> simp [ioKind, Condition.ioKind]
  | producer c => simp [ioKind]

end Failure

/-- What a byte-stream call reports instead of bytes. -/
inductive IoFailure where
  /-- A failure of the stream itself. -/
  | stream (f : Failure)
  /-- The position of a stream cannot be moved. -/
  | notSeekable
  /-- The stream ended before the caller's buffer was full. -/
  | endedEarly
  deriving DecidableEq, Repr

namespace IoFailure

/-- The message of a failed byte-stream call. -/
def message : IoFailure → String
  | .stream f => f.message
  | .notSeekable => "seek is not supported on a read bridge"
  | .endedEarly => "failed to fill whole buffer"

/-- The kind of a failed byte-stream call. -/
def ioKind : IoFailure → IoKind
  | .stream f => f.ioKind
  | .notSeekable => .unsupported
  | .endedEarly => .unexpectedEof

end IoFailure
end CreditFlow
