import ByteFlow.Fault

/-!
# Transfer settings

How large a transfer's buffer is to be, and after how many bytes it is to stop.

## Main definitions

* `Config` — the settings.
* `Config.validate` — a buffer may not be larger than `maxBufferSize`.
-/

namespace ByteFlow

/-- The buffer size of a transfer that names none: 8 KiB. -/
def defaultBufferSize : Nat := 8 * 1024

/-- The largest buffer that a transfer may use: 32 MiB. -/
def maxBufferSize : Nat := 32 * 1024 * 1024

/-- Settings of a transfer. -/
structure Config where
  /-- A size of zero makes the transfer go byte by byte. -/
  bufferSize : UInt64 := defaultBufferSize.toUInt64
  /-- After how many bytes to stop; without it, when either side is exhausted. -/
  limit : Option UInt64 := none
  deriving DecidableEq, Repr, Inhabited

namespace Config

/-- Settings with nothing but a limit. -/
def bounded (limit : UInt64) : Config := { limit := some limit }

/-- Refuse a buffer that is too large. -/
def validate (c : Config) : Except Fault Unit :=
  if maxBufferSize < c.bufferSize.toNat then
    .error (.misuse (.oversizedBuffer c.bufferSize.toNat maxBufferSize))
  else .ok ()

end Config

end ByteFlow
