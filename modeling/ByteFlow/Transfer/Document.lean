import ByteFlow.Json.Reader
import ByteFlow.Json.Writer
import ByteFlow.Transfer.Config
import ByteFlow.Transfer.Summary

/-!
# Transfer documents

Settings and reports as JSON.  A document may also give the values alone, as an
array in the order of the fields.  Fields of other names are ignored, but a known
one may not come twice.  Settings may leave out any field; a report may not.

## Main definitions

* `Config.write`, `Config.parse` — settings as text; `Config.parseWith` for any reader of values.
* `Report.write`, `Report.parse` — reports as text.
* `Preference.ofJson?`, `Placement.ofJson?`, `Strategy.ofJson?` — the parts.
-/

namespace ByteFlow

/-- The largest number of 64 bits. -/
def maxWord64 : Nat := UInt64.size - 1

/-- The largest number of 32 bits. -/
def maxWord32 : Nat := UInt32.size - 1

/-! ## Preferences and placements -/

namespace Placement

/-- The placement as a value. -/
def toJson (p : Placement) : Json := .ofString p.name

/-- The placement that a value names. -/
def ofJson? : Json → Option Placement :=
  Json.named? ([direct, indirect].map fun p => (p.name, p))

end Placement

namespace Preference

/-- The preference as a value. -/
def toJson (p : Preference) : Json := .ofString p.name

/-- The preference that a value names. -/
def ofJson? : Json → Option Preference := Json.named? (all.map fun p => (p.name, p))

end Preference

/-! ## Settings -/

namespace Config

/-- The settings as a value. -/
def toJson (c : Config) : Json :=
  .ofFields [("buffer_size", .ofNat c.bufferSize.toNat),
    ("limit", (c.limit.map fun limit => Json.ofNat limit.toNat).getD .null)]

/-- The settings as text. -/
def write (c : Config) : String := c.toJson.write

/-- The buffer size that a value gives; a missing value gives the usual one. -/
def bufferSizeOfJson? : Option Json → Option UInt64
  | none => some defaultBufferSize.toUInt64
  | some value => (value.natural? maxWord64).map Nat.toUInt64

/-- The limit that a value gives; a missing value and a null give none. -/
def limitOfJson? : Option Json → Option (Option UInt64)
  | none => some none
  | some .null => some none
  | some value => (value.natural? maxWord64).map fun n => some n.toUInt64

/-- The settings that a value gives, before they are checked. -/
def ofJson? : Json → Option Config
  | .array items =>
    if items.length ≤ 2 then do
      let bufferSize ← bufferSizeOfJson? items[0]?
      let limit ← limitOfJson? items[1]?
      some { bufferSize, limit }
    else none
  | value => do
    let fields ← value.fields?
    let bufferSize ← bufferSizeOfJson? (← Json.lookUp "buffer_size" fields)
    let limit ← limitOfJson? (← Json.lookUp "limit" fields)
    some { bufferSize, limit }

/-- The settings that a text gives to a reader of values, checked. -/
def parseWith (read : String → Option Json) (text : String) : Except Fault Config :=
  match (read text).bind ofJson? with
  | none => .error (.misuse .malformedConfig)
  | some c => c.validate.map fun _ => c

/-- The settings that a text gives, checked. -/
def parse (text : String) : Except Fault Config := parseWith Json.parse text

end Config

/-! ## Reports -/

namespace Strategy

/-- The strategy as a value. -/
def toJson : Strategy → Json
  | unbuffered => .ofString "Unbuffered"
  | buffered placement capacity =>
    .ofFields [("Buffered",
      .ofFields [("placement", placement.toJson), ("capacity", .ofNat capacity)])]

/-- The strategy that a placement and a capacity give. -/
def ofParts? (placement capacity : Json) : Option Strategy := do
  let placement ← Placement.ofJson? placement
  let capacity ← capacity.natural? maxWord64
  some (buffered placement capacity)

/-- The strategy with a buffer that a value describes. -/
def bufferedOfJson? : Json → Option Strategy
  | .array [placement, capacity] => ofParts? placement capacity
  | value => do
    let fields ← value.fields?
    ofParts? (← Json.require "placement" fields) (← Json.require "capacity" fields)

/-- The strategy that a value gives. -/
def ofJson? (value : Json) : Option Strategy :=
  match value.fields? with
  | some [("Buffered", buffer)] => bufferedOfJson? buffer
  | _ => Json.named? [("Unbuffered", unbuffered)] value

end Strategy

namespace Elapsed

/-- The span as a value. -/
def toJson (e : Elapsed) : Json :=
  .ofFields [("secs", .ofNat e.seconds.toNat), ("nanos", .ofNat e.nanoseconds.toNat)]

/-- The span of some seconds and nanoseconds; a thousand million nanoseconds and more
are carried over to the seconds, which must not grow too large by that. -/
def ofNats? (seconds nanoseconds : Nat) : Option Elapsed :=
  let total := seconds + nanoseconds / 1000000000
  if total ≤ maxWord64 then
    some {
      seconds := total.toUInt64
      nanoseconds := (nanoseconds % 1000000000).toUInt32
      nanoseconds_lt := by
        rw [UInt32.toNat_ofNat']
        omega }
  else none

/-- The span that two numbers give. -/
def ofParts? (seconds nanoseconds : Json) : Option Elapsed := do
  let seconds ← seconds.natural? maxWord64
  let nanoseconds ← nanoseconds.natural? maxWord32
  ofNats? seconds nanoseconds

/-- The span that a value gives.  Fields of other names are not allowed here. -/
def ofJson? : Json → Option Elapsed
  | .array [seconds, nanoseconds] => ofParts? seconds nanoseconds
  | value => do
    let fields ← value.fields?
    if fields.all fun (name, _) => name == "secs" || name == "nanos" then
      ofParts? (← Json.require "secs" fields) (← Json.require "nanos" fields)
    else none

end Elapsed

namespace Report

/-- The report as a value. -/
def toJson (r : Report) : Json :=
  .ofFields [("bytes", .ofNat r.summary.bytes), ("rounds", .ofNat r.summary.rounds),
    ("strategy", r.summary.strategy.toJson), ("elapsed", r.elapsed.toJson)]

/-- The report as text. -/
def write (r : Report) : String := r.toJson.write

/-- The report that four values give. -/
def ofParts? (bytes rounds strategy elapsed : Json) : Option Report := do
  let bytes ← bytes.natural? maxWord64
  let rounds ← rounds.natural? maxWord64
  let strategy ← Strategy.ofJson? strategy
  let elapsed ← Elapsed.ofJson? elapsed
  some ⟨⟨bytes, rounds, strategy⟩, elapsed⟩

/-- The report that a value gives. -/
def ofJson? : Json → Option Report
  | .array [bytes, rounds, strategy, elapsed] => ofParts? bytes rounds strategy elapsed
  | value => do
    let fields ← value.fields?
    ofParts? (← Json.require "bytes" fields) (← Json.require "rounds" fields)
      (← Json.require "strategy" fields) (← Json.require "elapsed" fields)

/-- The report that a text gives. -/
def parse? (text : String) : Option Report := (Json.parse text).bind ofJson?

end Report

end ByteFlow
