/-!
# Buffer preferences

A stream may say what kind of buffer suits it for moving many bytes at once, and
a transfer between two streams has to settle on one.  The rule that settles it is
not symmetric: the source is heard first.

## Main definitions

* `Placement` — where a buffer lives.
* `Preference` — what a stream would like.
* `Preference.negotiate` — what a source and a target agree on.
* `Preference.placement` — the buffer that a preference asks for, if any.
-/

namespace ByteFlow

/-- Where a buffer lives: `direct` is meant for devices, `indirect` for code that
looks at single bytes. -/
inductive Placement where
  | direct
  | indirect
  deriving DecidableEq, Repr, Inhabited

/-- What a stream says about the buffer that suits it. -/
inductive Preference where
  | indirect
  | direct
  | any
  | unsupported
  deriving DecidableEq, Repr, Inhabited

/-- The placement's name in running text. -/
def Placement.label : Placement → String
  | direct => "direct"
  | indirect => "indirect"

/-- The placement's name in documents. -/
def Placement.name : Placement → String
  | direct => "Direct"
  | indirect => "Indirect"

namespace Preference

/-- Every preference, once. -/
def all : List Preference := [indirect, direct, any, unsupported]

/-- The preference's name in running text. -/
def label : Preference → String
  | indirect => "prefer-indirect"
  | direct => "prefer-direct"
  | any => "prefer-any"
  | unsupported => "unsupported"

/-- The preference's name in documents. -/
def name : Preference → String
  | indirect => "PreferIndirect"
  | direct => "PreferDirect"
  | any => "PreferAny"
  | unsupported => "Unsupported"

/-- What a source and a target agree on.  A source without a preference leaves the
choice to the target.  Otherwise `indirect` wins if either side asks for it,
since any sink can take bytes from such a buffer, and if neither does, the
buffer is `direct`. -/
def negotiate : (source target : Preference) → Preference
  | unsupported, target => target
  | indirect, _ => indirect
  | _, indirect => indirect
  | _, _ => direct

/-- The buffer that a preference asks for; none when a buffer would bring
nothing.  A preference for `any` is still open only when no one narrowed it, and
then the buffer is `direct`. -/
def placement : Preference → Option Placement
  | indirect => some .indirect
  | direct | any => some .direct
  | unsupported => none

/-- The preference of several streams taken in order. -/
def negotiateAll (preferences : List Preference) : Preference :=
  preferences.foldl negotiate unsupported

end Preference

end ByteFlow
