import ByteFlow.Json.Writer
import ByteFlow.Proofs.Codec.Utf16
import ByteFlow.Proofs.Json.Reader

/-!
# Writing JSON

What is written for a value is a text of the grammar, and the grammar gives a text no second
value, so reading brings the value back.  A number other than a natural one is written as it
stands in the value; for such numbers the value has to hold the text of a number.

## Main definitions

* `Json.Proper v` — what the value holds as the text of a number is one.
* `Json.Proper.written` — the text of a value is one for it.
* `Json.parse_write` — reading undoes writing.
-/

namespace ByteFlow.Json

variable {v : Json} {u : UInt16} {us : List UInt16} {text : List Char}

/-! ## Numbers -/

/-- Numerals have no zeros in front. -/
theorem head_toDigits {n : Nat} (h : n ≠ 0) : (Nat.toDigits 10 n).head? ≠ some '0' := by
  induction n using Nat.strongRecOn with
  | ind n ih =>
    by_cases hlt : n < 10
    · have hdigit : ∀ d < 10, d ≠ 0 → d.digitChar ≠ '0' := by decide
      rw [Nat.toDigits_of_lt_base hlt, List.head?_cons]
      exact fun heq => hdigit n hlt h (Option.some.inj heq)
    · rw [Nat.toDigits_of_base_le (by decide) (Nat.le_of_not_lt hlt),
        List.head?_append_of_ne_nil _ Nat.toDigits_ne_nil]
      exact ih (n / 10) (by omega) (by omega)

theorem whole_toDigits (n : Nat) : Whole (Nat.toDigits 10 n) := by
  rcases eq_or_ne n 0 with rfl | hn
  · exact .zero
  · refine .digits ⟨Nat.toDigits_ne_nil, fun c hc => ?_⟩ (head_toDigits hn)
    exact Nat.isDigit_of_mem_toDigits (by decide) (by decide) hc

theorem Number.written_natural (n : Nat) :
    (Number.natural n).Written (writeNumber (.natural n)) := by
  have hwritten := Number.Written.natural (whole_toDigits n)
  rw [Nat.ofDigitChars_toDigits (by decide) (by decide)] at hwritten
  have htext : writeNumber (.natural n) = Nat.toDigits 10 n := Nat.toList_repr
  rwa [htext]

/-! ## Strings -/

theorem digitChar_mem_hexDigits {n : Nat} (h : n < 16) : (n.digitChar, n) ∈ hexDigits := by
  have hall : ∀ n < 16, (n.digitChar, n) ∈ hexDigits := by decide
  exact hall n h

/-- The last digit of a padded numeral, and the numeral without it. -/
theorem leftpad_toDigits (k n : Nat) :
    (Nat.toDigits 16 n).leftpad (k + 2) '0' =
      (Nat.toDigits 16 (n / 16)).leftpad (k + 1) '0' ++ [(n % 16).digitChar] := by
  by_cases hlt : n < 16
  · have hzeros : List.replicate (k + 1) '0' = List.replicate k '0' ++ ['0'] :=
      List.replicate_succ'
    rw [Nat.toDigits_of_lt_base hlt, Nat.div_eq_of_lt hlt, Nat.mod_eq_of_lt hlt, Nat.toDigits_zero]
    simp [List.leftpad, hzeros]
  · rw [Nat.toDigits_of_base_le (by decide) (Nat.le_of_not_lt hlt)]
    simp [List.leftpad]

/-- A code unit is written by four digits. -/
theorem hex_four {n : Nat} (h : n < 0x10000) :
    (Text.hex 4 n).toList = [(n / 16 / 16 / 16).digitChar, (n / 16 / 16 % 16).digitChar,
      (n / 16 % 16).digitChar, (n % 16).digitChar] := by
  rw [Text.hex, String.toList_ofList, leftpad_toDigits, leftpad_toDigits, leftpad_toDigits,
    Nat.toDigits_of_lt_base (by omega)]
  rfl

/-- A plain ASCII character stands for itself. -/
theorem WrittenUnits.cons_ascii (h : WrittenUnits us text) (hlow : 0x20 ≤ u.toNat)
    (hhigh : u.toNat < 0x7F) (hquote : u ≠ 0x22) (hescape : u ≠ 0x5C) :
    WrittenUnits (u :: us) (Char.ofNat u.toNat :: text) := by
  have hnat : (Char.ofNat u.toNat).toNat = u.toNat := by
    refine Text.Utf16.toNat_ofNat ?_
    rw [Nat.isValidChar]
    omega
  have hunits : Text.Utf16.units (Char.ofNat u.toNat) = [u] := by
    rw [Text.Utf16.units, hnat, if_pos (by omega), Text.Utf16.toUInt16_toNat]
  have hne {d : Char} (hd : u ≠ d.toNat.toUInt16) : Char.ofNat u.toNat ≠ d := by
    rintro rfl
    rw [hnat, Text.Utf16.toUInt16_toNat] at hd
    exact hd rfl
  have hwritten := WrittenUnits.plain (hnat.symm ▸ hlow) (hne hquote) (hne hescape) h
  rwa [hunits] at hwritten

/-- Any unit can be written by its number. -/
theorem WrittenUnits.cons_hex (h : WrittenUnits us text) :
    WrittenUnits (u :: us) ('\\' :: 'u' :: (Text.hex 4 u.toNat).toList ++ text) := by
  have hlt : u.toNat < 0x10000 := u.toNat_lt
  have hwritten := WrittenUnits.unit
    (digitChar_mem_hexDigits (n := u.toNat / 16 / 16 / 16) (by omega))
    (digitChar_mem_hexDigits (n := u.toNat / 16 / 16 % 16) (by omega))
    (digitChar_mem_hexDigits (n := u.toNat / 16 % 16) (by omega))
    (digitChar_mem_hexDigits (n := u.toNat % 16) (by omega)) h
  have hunit : ((u.toNat / 16 / 16 / 16 * 16 + u.toNat / 16 / 16 % 16) * 16 +
      u.toNat / 16 % 16) * 16 + u.toNat % 16 = u.toNat := by omega
  rw [hunit, Text.Utf16.toUInt16_toNat] at hwritten
  rw [hex_four hlt]
  exact hwritten

theorem WrittenUnits.cons_writeUnit (h : WrittenUnits us text) :
    WrittenUnits (u :: us) (writeUnit u ++ text) := by
  rw [writeUnit]
  split
  · next hu => exact hu ▸ WrittenUnits.escape (c := '"') (by decide) h
  split
  · next hu => exact hu ▸ WrittenUnits.escape (c := '\\') (by decide) h
  split
  · next hquote hescape hplain =>
    rw [Bool.and_eq_true, decide_eq_true_eq, decide_eq_true_eq, UInt16.le_iff_toNat_le,
      UInt16.lt_iff_toNat_lt] at hplain
    exact h.cons_ascii hplain.1 hplain.2 hquote hescape
  · exact h.cons_hex

/-- Every sequence of code units can be written, with surrogates outside a pair or without. -/
theorem writtenUnits_flatMap (us : List UInt16) : WrittenUnits us (us.flatMap writeUnit) := by
  induction us with
  | nil => exact .nil
  | cons u us ih => exact ih.cons_writeUnit

/-! ## Values -/

/-- Wherever the value holds a number as it was written, this is the text of a number. -/
inductive Proper : Json → Prop
  | null : Proper null
  | bool (b : Bool) : Proper (bool b)
  | natural (n : Nat) : Proper (number (.natural n))
  | other {written : String} : (Number.other written).Written written.toList →
    Proper (number (.other written))
  | string (us : List UInt16) : Proper (string us)
  | array {items : List Json} : (∀ item ∈ items, Proper item) → Proper (array items)
  | object {members : List (List UInt16 × Json)} : (∀ m ∈ members, Proper m.2) →
    Proper (object members)

theorem writtenItems_writeItems {items : List Json} (hne : items ≠ [])
    (h : ∀ item ∈ items, Written item (writeValue item)) :
    WrittenItems items (writeItems items) := by
  induction items with
  | nil => exact absurd rfl hne
  | cons item rest ih =>
    have hitem := (h item (List.mem_cons_self ..)).spaced
    cases rest with
    | nil => exact .last hitem
    | cons next rest =>
      have hrest := ih (List.cons_ne_nil _ _) fun item hmem => h item (List.mem_cons_of_mem _ hmem)
      exact .more hitem hrest

theorem writtenMembers_writeMembers {members : List (List UInt16 × Json)} (hne : members ≠ [])
    (h : ∀ m ∈ members, Written m.2 (writeValue m.2)) :
    WrittenMembers members (writeMembers members) := by
  induction members with
  | nil => exact absurd rfl hne
  | cons m rest ih =>
    obtain ⟨name, item⟩ := m
    have hname : WrittenName name (writeString name ++ [':']) := by
      simpa [writeString] using WrittenName.mk blank_nil (writtenUnits_flatMap name) blank_nil
    have hitem := (h (name, item) (List.mem_cons_self ..)).spaced
    cases rest with
    | nil => simpa [writeMembers] using WrittenMembers.last hname hitem
    | cons next rest =>
      have hrest := ih (List.cons_ne_nil _ _) fun m hmem => h m (List.mem_cons_of_mem _ hmem)
      simpa [writeMembers] using WrittenMembers.more hname hitem hrest

/-- What is written for a value is a text of the value. -/
theorem Proper.written (h : Proper v) : Written v (writeValue v) := by
  induction h with
  | null => exact .null
  | bool b =>
    cases b with
    | true => exact .true
    | false => exact .false
  | natural n => exact .number (Number.written_natural n)
  | other hwritten => exact .number hwritten
  | string us => exact .string (writtenUnits_flatMap us)
  | @array items _ ih =>
    rcases eq_or_ne items [] with rfl | hne
    · exact .emptyArray blank_nil
    · exact .array (writtenItems_writeItems hne ih)
  | @object members _ ih =>
    rcases eq_or_ne members [] with rfl | hne
    · exact .emptyObject blank_nil
    · exact .object (writtenMembers_writeMembers hne ih)

/-- What was written is read back. -/
theorem parse_write (h : Proper v) : parse v.write = some v := by
  rw [parse_eq_some_iff, Document, write, String.toList_ofList]
  exact h.written.spaced

end ByteFlow.Json
