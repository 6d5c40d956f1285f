import ByteFlow.Fault
import ByteFlow.Preference

/-!
# Trace events

Some operations leave a trace.  An event says what happened; its line of text is
made from it by `Event.line`, so that nothing in the library looks at text.

## Main definitions

* `Cursor` — which member of a chain is in use.
* `Call` — one operation on a traced stream, with its answer.
* `Event` — everything that leaves a trace, with `Event.level` and `Event.line`.
-/

namespace ByteFlow

/-- Which member of a chain is in use. -/
inductive Cursor where
  | active (index : Nat)
  | exhausted
  deriving DecidableEq, Repr, Inhabited

/-- The cursor as trace lines show it. -/
def Cursor.shown : Cursor → String
  | active index => s!"Active({index})"
  | exhausted => "Exhausted"

/-- One operation on a traced stream, with its answer. -/
inductive Call where
  | readU8 (answer : Except Fault UInt8)
  | readBytes (count : Nat) (answer : Except Fault Unit)
  | readUnits (count : Nat) (answer : Except Fault Unit)
  | fill (moved room : Nat) (answer : Except Fault Unit)
  | writeU8 (byte : UInt8) (answer : Except Fault Unit)
  | writeBytes (count : Nat) (answer : Except Fault Unit)
  | writeUnits (count : Nat) (answer : Except Fault Unit)
  | drain (moved offered : Nat) (answer : Except Fault Unit)
  | flush (answer : Except Fault Unit)
  | close (answer : Except Fault Unit)

/-- How important an event is. -/
inductive Level where
  | debug
  | trace
  deriving DecidableEq, Repr

/-- Everything that leaves a trace. -/
inductive Event where
  /-- A traced stream answered a call. -/
  | called (label : String) (call : Call)
  /-- A chain left the member at `position`, counted from one. -/
  | memberLeft (position total : Nat) (next : Cursor)
  /-- A chain is about to close its last member. -/
  | closingLast (total : Nat)
  /-- A close policy decided whether its wrapper is closed. -/
  | policyApplied (closed : Bool)
  /-- A transfer goes byte by byte. -/
  | unbuffered (preference : Preference) (bufferSize : Nat)
  /-- A transfer goes through a buffer of its own. -/
  | buffered (placement : Placement) (capacity : Nat) (preference : Preference)
  /-- A transfer finished a round through its buffer. -/
  | round (number staged drained total : Nat)

/-! ## Lines of text -/

/-- An answer as trace lines show it, given how its value is shown. -/
def shownAnswer {α : Type} (shownValue : α → String) : Except Fault α → String
  | .ok value => "Ok(" ++ shownValue value ++ ")"
  | .error fault => "Err(" ++ fault.shown ++ ")"

/-- An answer without a value as trace lines show it. -/
def shownDone : Except Fault Unit → String := shownAnswer fun _ => "()"

/-- A call as trace lines show it. -/
def Call.shown : Call → String
  | readU8 answer => "read_u8 -> " ++ shownAnswer toString answer
  | readBytes count answer => s!"read_bytes({count}) -> " ++ shownDone answer
  | readUnits count answer => s!"read_chars16({count}) -> " ++ shownDone answer
  | fill moved room answer => s!"fill_buffer filled {moved} of {room} -> " ++ shownDone answer
  | writeU8 byte answer => "write_u8(0x" ++ Text.hex 2 byte.toNat ++ ") -> " ++ shownDone answer
  | writeBytes count answer => s!"write_bytes({count}) -> " ++ shownDone answer
  | writeUnits count answer => s!"write_chars16({count}) -> " ++ shownDone answer
  | drain moved offered answer =>
    s!"drain_buffer drained {moved} of {offered} -> " ++ shownDone answer
  | flush answer => "flush -> " ++ shownDone answer
  | close answer => "close -> " ++ shownDone answer

/-- The importance of a traced call: closing is rare, data operations are not. -/
def Call.level : Call → Level
  | close _ => .debug
  | _ => .trace

namespace Event

/-- How important the event is. -/
def level : Event → Level
  | called _ call => call.level
  | round .. => .trace
  | _ => .debug

/-- The text of an event, without its level. -/
def text : Event → String
  | called label call => "[" ++ label ++ "] " ++ call.shown
  | memberLeft position total next =>
    s!"sequence left stream {position}/{total} -> " ++ next.shown
  | closingLast total => s!"sequence closing terminal stream {total}"
  | policyApplied closed => s!"close policy applied, wrapper reports closed={closed}"
  | unbuffered preference bufferSize =>
    "transfer: unbuffered (preference " ++ preference.label ++ s!", buffer_size {bufferSize})"
  | buffered placement capacity preference =>
    "transfer: buffered " ++ placement.label ++ s!" x {capacity} (preference "
      ++ preference.label ++ ")"
  | round number staged drained total =>
    s!"transfer round {number}: staged {staged}, drained {drained}, total {total}"

/-- The trace line of an event: its level and its text. -/
def line (event : Event) : String :=
  (match event.level with
    | .debug => "DEBUG "
    | .trace => "TRACE ") ++ event.text

end Event

end ByteFlow
