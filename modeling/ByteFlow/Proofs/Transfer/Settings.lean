import ByteFlow.Proofs.Json.Writer
import ByteFlow.Transfer.Document

/-!
# Settings as text

A document may give any of the settings, in any order and among fields that mean nothing here.
Reading it answers the settings that it gives, with the usual ones for the others, and refuses a
buffer that is too large.  What is written for some settings is such a document, and it gives all
of them, so settings survive their text whenever a transfer could use them.

## Main definitions

* `Config.Describes bufferSize limit text` — the document gives these settings and no others.
* `Config.checked c` — the settings, unless their buffer is too large.
* `Config.parse_exact` — every document is read for what it gives.
-/

namespace ByteFlow

variable {bufferSize : Option UInt64} {limit : Option (Option UInt64)} {text : String}
  {fields extras : List (String × Json)} {name other : String} {value : Option Json}

/-! ## Records -/

namespace Json

theorem fields?_ofFields (fields : List (String × Json)) :
    (ofFields fields).fields? = some fields := by
  rw [ofFields, fields?]
  induction fields with
  | nil => rfl
  | cons field fields ih => simp [ih, Text.Utf16.decode_encode]

/-- A field that may be missing. -/
def field (name : String) (value : Option Json) : List (String × Json) :=
  value.toList.map fun v => (name, v)

theorem filter_field_self :
    (field name value).filter (fun f => f.1 == name) = field name value := by
  cases value <;> simp [field]

theorem filter_field_of_ne (h : other ≠ name) :
    (field other value).filter (fun f => f.1 == name) = [] := by
  cases value <;> simp [field, h]

/-- A field is found by its name wherever it stands. -/
theorem lookUp_of_perm (h : (fields.filter fun f => f.1 == name).Perm (field name value)) :
    lookUp name fields = some value := by
  rw [lookUp]
  cases value with
  | none => rw [List.perm_nil.1 h]
  | some v => rw [List.perm_singleton.1 h]

theorem proper_ofFields (h : ∀ f ∈ fields, Proper f.2) : Proper (ofFields fields) := by
  refine .object fun m hm => ?_
  obtain ⟨f, hf, rfl⟩ := List.mem_map.1 hm
  exact h f hf

/-- A number of 64 bits is read as it is. -/
theorem natural?_ofNat (n : UInt64) : (ofNat n.toNat).natural? maxWord64 = some n.toNat := by
  rw [ofNat, natural?, if_pos]
  exact Nat.le_pred_of_lt n.toNat_lt

end Json

namespace Config

/-! ## Documents -/

/-- A limit as a value; none is null. -/
def limitToJson (limit : Option UInt64) : Json := (limit.map fun n => Json.ofNat n.toNat).getD .null

/-- The fields that give a buffer size and a limit, or those of them that are given at all. -/
def fieldsOf (bufferSize : Option UInt64) (limit : Option (Option UInt64)) : List (String × Json) :=
  Json.field "buffer_size" (bufferSize.map fun n => Json.ofNat n.toNat) ++
    Json.field "limit" (limit.map limitToJson)

/-- The document gives these settings and no others: its fields are theirs, in any order and among
fields of other names. -/
inductive Describes (bufferSize : Option UInt64) (limit : Option (Option UInt64)) : String → Prop
  | mk {extras fields : List (String × Json)} {text : String} :
    (∀ e ∈ extras, e.1 ∉ ["buffer_size", "limit"]) →
    fields.Perm (fieldsOf bufferSize limit ++ extras) →
    Json.Document (.ofFields fields) text → Describes bufferSize limit text

/-- The settings, unless their buffer is too large. -/
def checked (c : Config) : Except Fault Config :=
  if c.bufferSize.toNat ≤ maxBufferSize then .ok c
  else .error (.misuse (.oversizedBuffer c.bufferSize.toNat maxBufferSize))

/-! ## Reading -/

theorem bufferSizeOfJson?_map (bufferSize : Option UInt64) :
    bufferSizeOfJson? (bufferSize.map fun n => Json.ofNat n.toNat) =
      some (bufferSize.getD defaultBufferSize.toUInt64) := by
  cases bufferSize with
  | none => rfl
  | some n =>
    rw [Option.map_some, bufferSizeOfJson?, Json.natural?_ofNat, Option.map_some]
    exact congrArg some UInt64.ofNat_toNat

theorem limitOfJson?_map (limit : Option (Option UInt64)) :
    limitOfJson? (limit.map limitToJson) = some limit.join := by
  match limit with
  | none | some none => rfl
  | some (some n) =>
    have hread := Json.natural?_ofNat n
    rw [Json.ofNat] at hread
    simp [limitToJson, limitOfJson?, Json.ofNat, hread]

/-- The fields of other names do not matter, and neither does the order. -/
theorem ofJson?_ofFields (hextras : ∀ e ∈ extras, e.1 ∉ ["buffer_size", "limit"])
    (hfields : fields.Perm (fieldsOf bufferSize limit ++ extras)) :
    ofJson? (.ofFields fields) =
      some ⟨bufferSize.getD defaultBufferSize.toUInt64, limit.join⟩ := by
  have hothers {name : String} (hname : name ∈ ["buffer_size", "limit"]) :
      extras.filter (fun f => f.1 == name) = [] := by
    refine List.filter_eq_nil_iff.2 fun e he heq => hextras e he ?_
    rwa [eq_of_beq heq]
  have hbufferSize := hfields.filter fun f => f.1 == "buffer_size"
  rw [fieldsOf, List.filter_append, List.filter_append, Json.filter_field_self,
    Json.filter_field_of_ne (by decide), hothers (by decide), List.append_nil,
    List.append_nil] at hbufferSize
  have hlimit := hfields.filter fun f => f.1 == "limit"
  rw [fieldsOf, List.filter_append, List.filter_append, Json.filter_field_self,
    Json.filter_field_of_ne (by decide), hothers (by decide), List.append_nil,
    List.nil_append] at hlimit
  have hread := Json.fields?_ofFields fields
  rw [Json.ofFields] at hread ⊢
  rw [ofJson?, hread, Option.bind_eq_bind, Option.bind_some]
  · simp only [Json.lookUp_of_perm hbufferSize, Json.lookUp_of_perm hlimit, Option.bind_eq_bind,
      Option.bind_some, bufferSizeOfJson?_map, limitOfJson?_map]
  · exact fun _ h => nomatch h

theorem parse_of_describes (h : Describes bufferSize limit text) :
    parse text = checked ⟨bufferSize.getD defaultBufferSize.toUInt64, limit.join⟩ := by
  obtain ⟨hextras, hfields, hdocument⟩ := h
  rw [parse, parseWith, Json.parse_eq_some_iff.2 hdocument, Option.bind_some,
    ofJson?_ofFields hextras hfields, checked]
  dsimp only
  rw [validate]
  split
  · next hlarge => rw [if_neg (Nat.not_le_of_lt hlarge)]; rfl
  · next hsmall => rw [if_pos (Nat.le_of_not_lt hsmall)]; rfl

/-! ## Writing -/

/-- What is written gives all settings. -/
theorem describes_write (c : Config) : Describes (some c.bufferSize) (some c.limit) c.write := by
  have hproper : c.toJson.Proper := by
    refine Json.proper_ofFields fun f hf => ?_
    simp only [List.mem_cons, List.not_mem_nil, or_false] at hf
    rcases hf with rfl | rfl
    · exact .natural _
    · cases c.limit with
      | none => exact .null
      | some n => exact .natural _
  have hextras : ∀ e ∈ ([] : List (String × Json)), e.1 ∉ ["buffer_size", "limit"] := nofun
  refine .mk hextras ?_ (Json.parse_eq_some_iff.1 (Json.parse_write hproper))
  rw [List.append_nil]
  exact .refl _

/-- Settings are what their text says, whoever wrote it: the text that is written for them is read
back as them, and any document is read for the settings that it gives, with the usual ones for the
others.  A buffer that is too large is refused either way.  None of this hangs on one reader of
values: with any other that reads the grammar, the same settings are read. -/
theorem parse_exact :
    (∀ c : Config, parse c.write = c.checked) ∧
      (∀ bufferSize limit text, Describes bufferSize limit text →
        parse text = checked {
          bufferSize := bufferSize.getD defaultBufferSize.toUInt64
          limit := limit.join }) ∧
      ∀ read, Json.Reads read → ∀ text, parseWith read text = parse text := by
  refine ⟨fun c => parse_of_describes c.describes_write, fun _ _ _ => parse_of_describes, ?readers⟩
  case readers =>
    intro read hread text
    rw [hread.eq_parse, parse]

/-- A field that means nothing here, though a limit is mentioned in it. -/
def note : String × Json :=
  ("note", .array [.number (.other "1e5"), .ofFields [("limit", .ofNat 3)]])

/-- Such a field, and behind it the largest limit and the largest buffer, whose name is written with
an escape. -/
def crowded : String :=
  "\x7b \"note\" : [1e5, \x7b\"limit\": 3\x7d], \"limit\":18446744073709551615," ++
    "\n\t\"\\u0062uffer_size\" : 33554432 \x7d\r\n"

section Crowded

open ByteFlow.Json

/-- The text by the rules of the grammar, from the inside out. -/
theorem document_crowded : Document (.ofFields
    [note, ("limit", .ofNat 18446744073709551615), ("buffer_size", .ofNat 33554432)]) crowded := by
  have hspace : Blank [' '] := by simp [Blank, blanks]
  have hbreak : Blank ['\n', '\t'] := by simp [Blank, blanks]
  have hend : Blank ['\r', '\n'] := by simp [Blank, blanks]
  -- the note
  have hfive : SignedDigits ['5'] := .mk [] (by simp) ⟨by simp, by simp⟩
  have hfloat : Written (.number (.other "1e5")) "1e5".toList :=
    .number (@Number.Written.other [] ['1'] [] _ (by simp) (.digits ⟨by simp, by simp⟩ (by simp))
      .none (.some (by simp) hfive) (by simp))
  have hinner : WrittenName (Text.Utf16.encode "limit") "\"limit\":".toList :=
    .mk blank_nil (writtenUnits_flatMap (Text.Utf16.encode "limit")) blank_nil
  have hthree : Written (.ofFields [("limit", .ofNat 3)]) "\x7b\"limit\": 3\x7d".toList :=
    .object (.last hinner (.blank_append hspace (Proper.natural 3).written))
  have hitems : Written note.2 "[1e5, \x7b\"limit\": 3\x7d]".toList :=
    .array (.more hfloat.spaced (.last (.blank_append hspace hthree)))
  have hnote : WrittenName (Text.Utf16.encode "note") " \"note\" :".toList :=
    .mk hspace (writtenUnits_flatMap (Text.Utf16.encode "note")) hspace
  -- the limit
  have hlimit : WrittenName (Text.Utf16.encode "limit") " \"limit\":".toList :=
    .mk hspace (writtenUnits_flatMap (Text.Utf16.encode "limit")) blank_nil
  have hlargest : Written (.ofNat 18446744073709551615) "18446744073709551615".toList :=
    (Proper.natural _).written
  -- the buffer size
  have hescaped : WrittenUnits (Text.Utf16.encode "buffer_size") "\\u0062uffer_size".toList :=
    @WrittenUnits.unit '0' '0' '6' '2' 0 0 6 2 _ _ (by decide) (by decide) (by decide) (by decide)
      (writtenUnits_flatMap (Text.Utf16.encode "uffer_size"))
  have hsize : WrittenName (Text.Utf16.encode "buffer_size")
      "\n\t\"\\u0062uffer_size\" :".toList := .mk hbreak hescaped hspace
  have hbuffer : Written (.ofNat 33554432) "33554432".toList := (Proper.natural _).written
  have hmembers := WrittenMembers.more hnote (.blank_append hspace hitems) <|
    .more hlimit hlargest.spaced <| .last hsize (.mk hspace hbuffer hspace)
  exact .append_blank (Written.object hmembers).spaced hend

end Crowded

theorem parse_exact_crowded :
    Describes (some 33554432) (some (some 18446744073709551615)) crowded ∧
      parse crowded = .ok { bufferSize := 33554432, limit := some 18446744073709551615 } ∧
      parseWith Json.parse crowded = parse crowded := by
  have hdescribes : Describes (some 33554432) (some (some 18446744073709551615)) crowded := by
    have hextras : ∀ e ∈ [note], e.1 ∉ ["buffer_size", "limit"] := by
      intro e he
      rw [List.mem_singleton.1 he]
      decide
    have hfields : fieldsOf (some 33554432) (some (some 18446744073709551615)) =
        [("buffer_size", .ofNat 33554432), ("limit", .ofNat 18446744073709551615)] := rfl
    refine .mk hextras ?_ document_crowded
    rw [hfields]
    exact List.reverse_perm [("buffer_size", _), ("limit", _), note]
  exact ⟨hdescribes, parse_exact.2.1 _ _ _ hdescribes,
    parse_exact.2.2 Json.parse Json.reads_parse crowded⟩

end Config

end ByteFlow
