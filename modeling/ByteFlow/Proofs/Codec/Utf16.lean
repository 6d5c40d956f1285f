import ByteFlow.Text.Utf16

/-!
# Strings and their code units

The code units of a string denote that string and no other.  A character below `0x10000`
is no surrogate, so its unit is not taken for half of a pair, and the units of any other
character are the two halves of its pair.  Units that are not those of a string are told by a
surrogate that has no other half beside it.

## Main definitions

* `Utf16.decode_encode` — the units of a string denote it.
* `Utf16.Unpaired us i` — the unit at `i` is a surrogate outside a pair.
* `Utf16.decode_eq_none_iff` — units denote a string unless there is such a surrogate.
* `Utf16.encode_of_decode` — units that denote a string are its code units.
-/

namespace ByteFlow.Text.Utf16

variable {u v : UInt16} {found cs : List Char} {rest us : List UInt16} {i : Nat}

theorem toNat_toUInt16 {n : Nat} (h : n < 0x10000) : n.toUInt16.toNat = n :=
  UInt16.toNat_ofNat_of_lt' h

theorem isHigh_iff : isHigh u = true ↔ 0xD800 ≤ u.toNat ∧ u.toNat < 0xDC00 := by
  simp [isHigh, UInt16.le_iff_toNat_le, UInt16.lt_iff_toNat_lt]

theorem isLow_iff : isLow u = true ↔ 0xDC00 ≤ u.toNat ∧ u.toNat < 0xE000 := by
  simp [isLow, UInt16.le_iff_toNat_le, UInt16.lt_iff_toNat_lt]

/-! ## One step of decoding -/

/-- A unit that is no surrogate is a character. -/
theorem decodeFrom_cons (hhigh : isHigh u = false) (hlow : isLow u = false) :
    decodeFrom found (u :: rest) = decodeFrom (Char.ofNat u.toNat :: found) rest := by
  cases rest with
  | nil => simp [decodeFrom, hhigh, hlow]
  | cons v rest => simp [decodeFrom, hhigh, hlow]

/-- A pair of surrogates is a character. -/
theorem decodeFrom_pair (hhigh : isHigh u = true) (hlow : isLow v = true) :
    decodeFrom found (u :: v :: rest) = decodeFrom (ofPair u v :: found) rest := by
  simp [decodeFrom, hhigh, hlow]

/-! ## The units of a character -/

/-- A character is a number below `0x110000` that is no surrogate. -/
theorem toNat_valid (c : Char) : c.toNat < 0xD800 ∨ 0xDFFF < c.toNat ∧ c.toNat < 0x110000 :=
  c.valid

theorem decodeFrom_units (c : Char) (found : List Char) (rest : List UInt16) :
    decodeFrom found (units c ++ rest) = decodeFrom (c :: found) rest := by
  have hvalid := toNat_valid c
  rw [units]
  by_cases hsmall : c.toNat < 0x10000
  · have hunit := toNat_toUInt16 hsmall
    have hhigh : isHigh c.toNat.toUInt16 = false := by
      rw [Bool.eq_false_iff, Ne, isHigh_iff, hunit]
      omega
    have hlow : isLow c.toNat.toUInt16 = false := by
      rw [Bool.eq_false_iff, Ne, isLow_iff, hunit]
      omega
    rw [if_pos hsmall, List.singleton_append, decodeFrom_cons hhigh hlow, hunit, Char.ofNat_toNat]
  · -- the distance from `0x10000` has ten bits for each half
    have hdist : (c.toNat - 0x10000) / 0x400 < 0x400 := by omega
    have hmod : (c.toNat - 0x10000) % 0x400 < 0x400 := Nat.mod_lt _ (by decide)
    have hfirst := toNat_toUInt16 (n := 0xD800 + (c.toNat - 0x10000) / 0x400) (by omega)
    have hsecond := toNat_toUInt16 (n := 0xDC00 + (c.toNat - 0x10000) % 0x400) (by omega)
    have hhigh : isHigh (0xD800 + (c.toNat - 0x10000) / 0x400).toUInt16 = true := by
      rw [isHigh_iff, hfirst]
      omega
    have hlow : isLow (0xDC00 + (c.toNat - 0x10000) % 0x400).toUInt16 = true := by
      rw [isLow_iff, hsecond]
      omega
    have hpair : ofPair (0xD800 + (c.toNat - 0x10000) / 0x400).toUInt16
        (0xDC00 + (c.toNat - 0x10000) % 0x400).toUInt16 = c := by
      have hnumber : 0x10000 + (0xD800 + (c.toNat - 0x10000) / 0x400 - 0xD800) * 0x400 +
          (0xDC00 + (c.toNat - 0x10000) % 0x400 - 0xDC00) = c.toNat := by omega
      rw [ofPair, hfirst, hsecond, hnumber, Char.ofNat_toNat]
    rw [if_neg hsmall, List.cons_append, List.singleton_append, decodeFrom_pair hhigh hlow, hpair]

/-! ## The units of a string -/

theorem decodeFrom_flatMap (cs found : List Char) :
    decodeFrom found (cs.flatMap units) = some (found.reverse ++ cs) := by
  induction cs generalizing found with
  | nil => simp [decodeFrom]
  | cons c cs ih =>
    rw [List.flatMap_cons, decodeFrom_units, ih, List.reverse_cons, List.append_assoc]
    rfl

/-- The code units of a string denote it. -/
theorem decode_encode (s : String) : decode (encode s) = some s := by
  rw [decode, encode, decodeFrom_flatMap]
  simp

/-! ## Surrogates outside a pair -/

/-- The unit at `i` is a surrogate that is not part of a pair: a high one with no low one behind
it, or a low one with no high one in front of it. -/
def Unpaired (us : List UInt16) (i : Nat) : Prop :=
  us[i]?.any isHigh ∧ ¬us[i + 1]?.any isLow ∨
    us[i]?.any isLow ∧ (i = 0 ∨ ¬us[i - 1]?.any isHigh)

instance (us : List UInt16) (i : Nat) : Decidable (Unpaired us i) :=
  inferInstanceAs (Decidable (_ ∨ _))

theorem isLow_of_isHigh (h : isHigh u = true) : isLow u = false := by
  rw [Bool.eq_false_iff, Ne, isLow_iff]
  rw [isHigh_iff] at h
  omega

theorem isHigh_of_isLow (h : isLow u = true) : isHigh u = false := by
  rw [Bool.eq_false_iff, Ne, isHigh_iff]
  rw [isLow_iff] at h
  omega

/-- Only the unit right in front of a surrogate matters to it. -/
theorem unpaired_succ_succ : Unpaired (u :: us) (i + 2) ↔ Unpaired us (i + 1) := by
  simp [Unpaired]

/-- Behind a unit that opens no pair it is as if the units began there. -/
theorem unpaired_succ (hu : isHigh u = false) : Unpaired (u :: us) (i + 1) ↔ Unpaired us i := by
  cases i with
  | zero => simp [Unpaired, hu]
  | succ i => exact unpaired_succ_succ

theorem exists_unpaired_nil : ¬∃ i, Unpaired [] i := by
  simp [Unpaired]

theorem exists_unpaired_cons (hhigh : isHigh u = false) (hlow : isLow u = false) :
    (∃ i, Unpaired (u :: us) i) ↔ ∃ i, Unpaired us i := by
  have hzero : ¬Unpaired (u :: us) 0 := by simp [Unpaired, hhigh, hlow]
  constructor
  · rintro ⟨_ | i, hi⟩
    · exact absurd hi hzero
    · exact ⟨i, (unpaired_succ hhigh).1 hi⟩
  · rintro ⟨i, hi⟩
    exact ⟨i + 1, (unpaired_succ hhigh).2 hi⟩

theorem exists_unpaired_pair (hhigh : isHigh u = true) (hlow : isLow v = true) :
    (∃ i, Unpaired (u :: v :: us) i) ↔ ∃ i, Unpaired us i := by
  have hzero : ¬Unpaired (u :: v :: us) 0 := by simp [Unpaired, hlow, isLow_of_isHigh hhigh]
  have hone : ¬Unpaired (u :: v :: us) 1 := by simp [Unpaired, hhigh, isHigh_of_isLow hlow]
  constructor
  · rintro ⟨_ | _ | i, hi⟩
    · exact absurd hi hzero
    · exact absurd hi hone
    · exact ⟨i, (unpaired_succ (isHigh_of_isLow hlow)).1 (unpaired_succ_succ.1 hi)⟩
  · rintro ⟨i, hi⟩
    exact ⟨i + 2, unpaired_succ_succ.2 ((unpaired_succ (isHigh_of_isLow hlow)).2 hi)⟩

/-- Units denote no characters exactly when one of them is a surrogate outside a pair. -/
theorem decodeFrom_eq_none_iff : decodeFrom found us = none ↔ ∃ i, Unpaired us i := by
  fun_induction decodeFrom found us with
  | case1 found => exact iff_of_false nofun exists_unpaired_nil
  | case2 found u hu => exact iff_of_true rfl ⟨0, by simpa [Unpaired] using hu⟩
  | case3 found u hu =>
    rw [Bool.or_eq_true, not_or, Bool.not_eq_true, Bool.not_eq_true] at hu
    refine iff_of_false nofun ?_
    rw [exists_unpaired_cons hu.1 hu.2]
    exact exists_unpaired_nil
  | case4 found u v rest hu hv ih => rw [ih, exists_unpaired_pair hu hv]
  | case5 found u v rest hu hv => exact iff_of_true rfl ⟨0, by simp [Unpaired, hu, hv]⟩
  | case6 found u v rest hu hlow => exact iff_of_true rfl ⟨0, by simp [Unpaired, hlow]⟩
  | case7 found u v rest hu hlow ih =>
    rw [ih, exists_unpaired_cons (Bool.eq_false_iff.2 hu) (Bool.eq_false_iff.2 hlow)]

theorem decode_eq_none_iff : decode us = none ↔ ∃ i, Unpaired us i := by
  rw [decode, Option.map_eq_none_iff, decodeFrom_eq_none_iff]

/-! ## The units of what was decoded -/

theorem toNat_ofNat {n : Nat} (h : n.isValidChar) : (Char.ofNat n).toNat = n := by
  rw [Char.ofNat, dif_pos h]
  rfl

theorem toUInt16_toNat (u : UInt16) : u.toNat.toUInt16 = u := UInt16.ofNat_toNat

/-- A unit that is no surrogate is the only unit of its character. -/
theorem units_ofNat (hhigh : isHigh u = false) (hlow : isLow u = false) :
    units (Char.ofNat u.toNat) = [u] := by
  have hlt : u.toNat < 0x10000 := u.toNat_lt
  rw [Bool.eq_false_iff, Ne, isHigh_iff] at hhigh
  rw [Bool.eq_false_iff, Ne, isLow_iff] at hlow
  have hvalid : u.toNat.isValidChar := by
    rw [Nat.isValidChar]
    omega
  rw [units, toNat_ofNat hvalid, if_pos hlt, toUInt16_toNat]

/-- The two units of a pair are those of its character. -/
theorem units_ofPair (hhigh : isHigh u = true) (hlow : isLow v = true) :
    units (ofPair u v) = [u, v] := by
  rw [isHigh_iff] at hhigh
  rw [isLow_iff] at hlow
  have hvalid : (0x10000 + (u.toNat - 0xD800) * 0x400 + (v.toNat - 0xDC00)).isValidChar := by
    rw [Nat.isValidChar]
    omega
  have hfirst : 0xD800 + (0x10000 + (u.toNat - 0xD800) * 0x400 + (v.toNat - 0xDC00) - 0x10000) /
      0x400 = u.toNat := by omega
  have hsecond : 0xDC00 + (0x10000 + (u.toNat - 0xD800) * 0x400 + (v.toNat - 0xDC00) - 0x10000) %
      0x400 = v.toNat := by omega
  rw [units, ofPair, toNat_ofNat hvalid, if_neg (by omega), hfirst, hsecond, toUInt16_toNat,
    toUInt16_toNat]

theorem flatMap_units_of_decodeFrom (h : decodeFrom found us = some cs) :
    cs.flatMap units = found.reverse.flatMap units ++ us := by
  fun_induction decodeFrom found us with
  | case1 found =>
    obtain rfl := Option.some.inj h
    rw [List.append_nil]
  | case2 found u hu => cases h
  | case3 found u hu =>
    rw [Bool.or_eq_true, not_or, Bool.not_eq_true, Bool.not_eq_true] at hu
    obtain rfl := Option.some.inj h
    rw [List.reverse_cons, List.flatMap_append, List.flatMap_singleton, units_ofNat hu.1 hu.2]
  | case4 found u v rest hu hv ih =>
    rw [ih h, List.reverse_cons, List.flatMap_append, List.flatMap_singleton, units_ofPair hu hv,
      List.append_assoc]
    rfl
  | case5 found u v rest hu hv => cases h
  | case6 found u v rest hu hlow => cases h
  | case7 found u v rest hu hlow ih =>
    rw [ih h, List.reverse_cons, List.flatMap_append, List.flatMap_singleton,
      units_ofNat (Bool.eq_false_iff.2 hu) (Bool.eq_false_iff.2 hlow), List.append_assoc]
    rfl

/-- Units that denote a string are its code units. -/
theorem encode_of_decode {s : String} (h : decode us = some s) : encode s = us := by
  obtain ⟨cs, hcs, rfl⟩ := Option.map_eq_some_iff.1 h
  rw [encode, String.toList_ofList]
  exact flatMap_units_of_decodeFrom hcs

end ByteFlow.Text.Utf16
