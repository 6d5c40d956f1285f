import ByteFlow.Text.Hex
import ByteFlow.Text.Quoted

/-!
# What can go wrong with a stream

Every operation on a stream answers a value or a `Fault`.  One of the faults is
no accident: `Fault.endOfStream` says that a source has no more bytes or that a
sink takes no more, and whoever moves bytes in bulk takes it as a signal to stop.

A fault is stored as its cause.  Its wording is in one place, `Fault.message`,
and the form that trace lines use is `Fault.shown`.

## Main definitions

* `IoKind`, `IoError` — what a device reports: a kind and a text.
* `Misuse` — a caller's mistake, found before any byte moves.
* `Corruption` — malformed bytes.
* `Fault` — the faults of a stream, with `Fault.message` and `Fault.shown`.
* `Fault.ofIo`, `Fault.toIo` — the two ways between device errors and faults.
-/

namespace ByteFlow

/-! ## Device errors -/

/-- What kind of error a device reports. -/
inductive IoKind where
  | notFound
  | permissionDenied
  | connectionRefused
  | connectionReset
  | hostUnreachable
  | networkUnreachable
  | connectionAborted
  | notConnected
  | addrInUse
  | addrNotAvailable
  | networkDown
  | brokenPipe
  | alreadyExists
  | wouldBlock
  | notADirectory
  | isADirectory
  | directoryNotEmpty
  | readOnlyFilesystem
  | staleNetworkFileHandle
  | invalidInput
  | invalidData
  | timedOut
  | writeZero
  | storageFull
  | notSeekable
  | quotaExceeded
  | fileTooLarge
  | resourceBusy
  | executableFileBusy
  | deadlock
  | crossesDevices
  | tooManyLinks
  | invalidFilename
  | argumentListTooLong
  | interrupted
  | unsupported
  | unexpectedEof
  | outOfMemory
  | other
  deriving DecidableEq, Repr, Inhabited

namespace IoKind

/-- The kind's name in traces and in answers. -/
def name : IoKind → String
  | notFound => "NotFound"
  | permissionDenied => "PermissionDenied"
  | connectionRefused => "ConnectionRefused"
  | connectionReset => "ConnectionReset"
  | hostUnreachable => "HostUnreachable"
  | networkUnreachable => "NetworkUnreachable"
  | connectionAborted => "ConnectionAborted"
  | notConnected => "NotConnected"
  | addrInUse => "AddrInUse"
  | addrNotAvailable => "AddrNotAvailable"
  | networkDown => "NetworkDown"
  | brokenPipe => "BrokenPipe"
  | alreadyExists => "AlreadyExists"
  | wouldBlock => "WouldBlock"
  | notADirectory => "NotADirectory"
  | isADirectory => "IsADirectory"
  | directoryNotEmpty => "DirectoryNotEmpty"
  | readOnlyFilesystem => "ReadOnlyFilesystem"
  | staleNetworkFileHandle => "StaleNetworkFileHandle"
  | invalidInput => "InvalidInput"
  | invalidData => "InvalidData"
  | timedOut => "TimedOut"
  | writeZero => "WriteZero"
  | storageFull => "StorageFull"
  | notSeekable => "NotSeekable"
  | quotaExceeded => "QuotaExceeded"
  | fileTooLarge => "FileTooLarge"
  | resourceBusy => "ResourceBusy"
  | executableFileBusy => "ExecutableFileBusy"
  | deadlock => "Deadlock"
  | crossesDevices => "CrossesDevices"
  | tooManyLinks => "TooManyLinks"
  | invalidFilename => "InvalidFilename"
  | argumentListTooLong => "ArgumentListTooLong"
  | interrupted => "Interrupted"
  | unsupported => "Unsupported"
  | unexpectedEof => "UnexpectedEof"
  | outOfMemory => "OutOfMemory"
  | other => "Other"

/-- Every kind, once. -/
def all : List IoKind :=
  [notFound, permissionDenied, connectionRefused, connectionReset, hostUnreachable,
    networkUnreachable, connectionAborted, notConnected, addrInUse, addrNotAvailable,
    networkDown, brokenPipe, alreadyExists, wouldBlock, notADirectory, isADirectory,
    directoryNotEmpty, readOnlyFilesystem, staleNetworkFileHandle, invalidInput, invalidData,
    timedOut, writeZero, storageFull, notSeekable, quotaExceeded, fileTooLarge, resourceBusy,
    executableFileBusy, deadlock, crossesDevices, tooManyLinks, invalidFilename,
    argumentListTooLong, interrupted, unsupported, unexpectedEof, outOfMemory, other]

/-- The kind with the given name. -/
def ofName? (text : String) : Option IoKind := all.find? fun kind => kind.name == text

end IoKind

/-- An error as a device reports it. -/
structure IoError where
  kind : IoKind
  message : String
  deriving DecidableEq, Repr, Inhabited

/-! ## Faults -/

/-- A mistake of the caller.  No byte has moved when it is reported. -/
inductive Misuse where
  /-- A region that only gives bytes was to be filled. -/
  | readOnlyRegion
  /-- One more byte was put into a full region. -/
  | regionFull
  /-- A transfer was to use a larger buffer than is allowed. -/
  | oversizedBuffer (size maximum : Nat)
  /-- A transfer was to run through a region that cannot be filled. -/
  | unwritableBuffer
  /-- A transfer of a given length was to run through a region without room. -/
  | emptyBuffer
  /-- More code units than a four-byte length can count. -/
  | sequenceTooLong (units : Nat)
  /-- Transfer settings that are not well-formed. -/
  | malformedConfig
  /-- A mistake that a stream from outside reports in its own words. -/
  | other (text : String)
  deriving DecidableEq, Repr

/-- Bytes that do not mean anything. -/
inductive Corruption where
  /-- A sequence announced a negative number of code units. -/
  | negativeLength (length : Int)
  /-- A string held a surrogate outside a pair. -/
  | loneSurrogate
  /-- No digest algorithm has this number. -/
  | unknownAlgorithm (id : UInt16)
  /-- A defect that a stream from outside reports in its own words. -/
  | other (text : String)
  deriving DecidableEq, Repr

/-- Why a stream operation failed. -/
inductive Fault where
  /-- The source has no more bytes, or the sink takes no more. -/
  | endOfStream
  /-- The stream was closed before. -/
  | closed
  /-- The device behind the stream failed. -/
  | io (error : IoError)
  | misuse (cause : Misuse)
  | corrupt (cause : Corruption)
  deriving DecidableEq, Repr

/-- The wording of a mistake. -/
def Misuse.message : Misuse → String
  | readOnlyRegion => "cannot fill a read-only region"
  | regionFull => "region has no remaining capacity"
  | oversizedBuffer size maximum => s!"buffer_size {size} exceeds the maximum of {maximum}"
  | unwritableBuffer => "transfer buffer must be writable"
  | emptyBuffer => "zero-capacity buffer for a bounded transfer"
  | sequenceTooLong units =>
    s!"sequence of {units} code units exceeds the 4-byte length prefix"
  | malformedConfig => "transfer config:"
  | other text => text

/-- The wording of a defect. -/
def Corruption.message : Corruption → String
  | negativeLength length => s!"negative sequence length {length}"
  | loneSurrogate => "invalid utf-16: lone surrogate found"
  | unknownAlgorithm id => "unknown digest algorithm 0x" ++ Text.hex 4 id.toNat
  | other text => text

namespace Fault

/-- The wording of a fault. -/
def message : Fault → String
  | endOfStream => "end of stream"
  | closed => "stream closed"
  | io error => "I/O error: " ++ error.message
  | misuse cause => "invalid argument: " ++ cause.message
  | corrupt cause => "invalid data: " ++ cause.message

/-- The fault as trace lines show it: its kind, and its text in quotes. -/
def shown : Fault → String
  | endOfStream => "EndOfStream"
  | closed => "Closed"
  | io error =>
    "Io(Custom \x7b kind: " ++ error.kind.name ++ ", error: " ++ Text.Quoted.quote error.message
      ++ " \x7d)"
  | misuse cause => "InvalidArgument(" ++ Text.Quoted.quote cause.message ++ ")"
  | corrupt cause => "InvalidData(" ++ Text.Quoted.quote cause.message ++ ")"

/-- A device that meets an unexpected end, or that takes nothing, is exhausted and
not broken; every other device error is a fault of its own. -/
def ofIo (error : IoError) : Fault :=
  match error.kind with
  | .unexpectedEof | .writeZero => endOfStream
  | _ => io error

/-- Two kinds of device errors are taken for an end. -/
theorem ofIo_eq_endOfStream {e : IoError} (h : ofIo e = .endOfStream) :
    e.kind = .unexpectedEof ∨ e.kind = .writeZero := by
  rw [ofIo] at h
  split at h
  · exact .inl ‹_›
  · exact .inr ‹_›
  · cases h

/-- The device error that stands for a fault.  A device error stands for itself;
any other fault keeps its wording under the kind that is closest to it. -/
def toIo : Fault → IoError
  | io error => error
  | endOfStream => ⟨.unexpectedEof, endOfStream.message⟩
  | closed => ⟨.brokenPipe, closed.message⟩
  | misuse cause => ⟨.invalidInput, (misuse cause).message⟩
  | corrupt cause => ⟨.invalidData, (corrupt cause).message⟩

end Fault

end ByteFlow
