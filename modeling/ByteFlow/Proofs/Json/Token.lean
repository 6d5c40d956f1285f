import ByteFlow.Json.Reader
import ByteFlow.Proofs.Json.Grammar
import Mathlib.Data.List.DropRight
import Mathlib.Data.List.TakeDrop
import Mathlib.Data.List.TakeWhile

/-!
# Reading the tokens of JSON

A reader takes a token off the front of a text, and the token is one that the grammar knows.
Conversely it takes all of a token, if what follows could not be a part of it.

## Main definitions

* `Reader.Stops p text` — the text does not go on with a character of some kind.
* `Reader.Delimited text` — no number goes on with the text.
* `Reader.number_append`, `Reader.written_of_number` — numbers.
* `Reader.stringBody_append`, `Reader.written_of_stringBody` — strings.
* `Reader.memberName_append`, `Reader.written_of_memberName` — the names of members.
-/

namespace ByteFlow.Json.Reader

variable {more : Char → Bool} {c : Char} {w text found rest : List Char} {us name : List UInt16}

/-! ## Blanks -/

theorem isBlank_iff : isBlank c = true ↔ c ∈ blanks := by
  simp [isBlank, blanks, or_assoc]

theorem skipBlanks_append (h : Blank w) (text : List Char) :
    skipBlanks (w ++ text) = skipBlanks text :=
  List.dropWhile_append_of_pos fun c hc => isBlank_iff.2 (h c hc)

theorem skipBlanks_cons (h : isBlank c = false) (text : List Char) :
    skipBlanks (c :: text) = c :: text :=
  List.dropWhile_cons_of_neg (by simp [h])

theorem skipBlanks_skipBlanks (text : List Char) :
    skipBlanks (skipBlanks text) = skipBlanks text :=
  List.dropWhile_idempotent _ _

/-- What is skipped are blanks. -/
theorem exists_blank_append (text : List Char) : ∃ w, Blank w ∧ text = w ++ skipBlanks text := by
  refine ⟨text.takeWhile isBlank, ?_, List.takeWhile_append_dropWhile.symm⟩
  intro c hc
  exact isBlank_iff.1 (List.mem_takeWhile_imp hc)

/-! ## Words -/

theorem expect_append (word rest : List Char) : expect word (word ++ rest) = some rest := by
  induction word with
  | nil => rfl
  | cons c word ih => rw [List.cons_append, expect, if_pos rfl, ih]

theorem eq_append_of_expect {word : List Char} (h : expect word text = some rest) :
    text = word ++ rest := by
  fun_induction expect word text with
  | case1 text => exact Option.some.inj h
  | case2 c word text ih => rw [ih h, List.cons_append]
  | case3 => cases h
  | case4 => cases h

/-! ## What follows a token -/

/-- The text does not go on with a character of this kind. -/
def Stops (more : Char → Bool) (text : List Char) : Prop := ∀ c ∈ text.head?, more c = false

@[simp] theorem stops_nil : Stops more [] := by
  simp [Stops]

@[simp] theorem stops_cons : Stops more (c :: text) ↔ more c = false := by
  simp [Stops]

theorem Stops.mono {less : Char → Bool} (h : Stops more text)
    (hle : ∀ c, less c = true → more c = true) : Stops less text := by
  intro c hc
  have hmore := h c hc
  rw [← Bool.not_eq_true] at hmore ⊢
  exact fun hless => hmore (hle c hless)

/-- A text that begins with a token goes on as the token does. -/
theorem Stops.append (hfound : Stops more found) (hrest : Stops more rest) :
    Stops more (found ++ rest) := by
  cases found with
  | nil => exact hrest
  | cons c found => rwa [List.cons_append, stops_cons, ← stops_cons]

/-- The reader takes tokens of one kind off the front of a text.  It takes all of a token unless
there is more of it behind. -/
structure Recognizes (reader : List Char → Option (List Char × List Char))
    (Token : List Char → Prop) (more : Char → Bool) : Prop where
  append : ∀ {found rest : List Char}, Token found → Stops more rest →
    reader (found ++ rest) = some (found, rest)
  sound : ∀ {text found rest : List Char}, reader text = some (found, rest) →
    text = found ++ rest ∧ Token found

/-- A reader that makes something of what another one takes. -/
theorem exists_of_map {α β : Type} {f : α → β} {x : Option (α × List Char)} {b : β}
    (h : (x.map fun found => (f found.1, found.2)) = some (b, rest)) :
    ∃ a, x = some (a, rest) ∧ f a = b := by
  obtain ⟨⟨a, tail⟩, hx, heq⟩ := Option.map_eq_some_iff.1 h
  obtain ⟨rfl, rfl⟩ := Prod.mk.inj heq
  exact ⟨a, hx, rfl⟩

/-! ## Numbers -/

theorem recognizes_digits : Recognizes digits Digits Char.isDigit where
  append {found rest} h hrest := by
    have hspan : (found ++ rest).span Char.isDigit = (found, rest) := by
      rw [List.span_eq_takeWhile_dropWhile, List.takeWhile_append_of_pos h.isDigit,
        List.dropWhile_append_of_pos h.isDigit]
      cases rest with
      | nil => simp
      | cons c rest =>
        rw [stops_cons] at hrest
        simp [hrest]
    rw [digits, hspan]
    split
    · next heq => exact absurd (Prod.mk.inj heq).1 h.ne_nil
    · next heq => rw [heq]
  sound {text found rest} h := by
    rw [digits, List.span_eq_takeWhile_dropWhile] at h
    split at h
    · cases h
    · next hne heq =>
      obtain ⟨rfl, rfl⟩ := Prod.mk.inj (Option.some.inj h)
      obtain ⟨rfl, rfl⟩ := Prod.mk.inj heq
      exact ⟨List.takeWhile_append_dropWhile.symm, hne, fun c hc => List.mem_takeWhile_imp hc⟩

theorem wholePart_of_head (h : text.head? ≠ some '0') : wholePart text = digits text := by
  rw [wholePart.eq_def]
  split
  · exact absurd rfl h
  · rfl

theorem recognizes_wholePart : Recognizes wholePart Whole Char.isDigit where
  append h hrest := by
    cases h with
    | zero => rfl
    | digits hdigits hzero =>
      rw [wholePart_of_head, recognizes_digits.append hdigits hrest]
      rwa [List.head?_append_of_ne_nil _ hdigits.ne_nil]
  sound h := by
    rw [wholePart.eq_def] at h
    split at h
    · obtain ⟨rfl, rfl⟩ := Prod.mk.inj (Option.some.inj h)
      exact ⟨rfl, .zero⟩
    · next hne =>
      obtain ⟨rfl, hdigits⟩ := recognizes_digits.sound h
      refine ⟨rfl, .digits hdigits fun hzero => ?_⟩
      obtain ⟨tail, rfl⟩ := List.head?_eq_some_iff.1 hzero
      exact hne _ rfl

theorem recognizes_fraction :
    Recognizes fraction Fraction (fun c => c.isDigit || c == '.') where
  append {found rest} h hrest := by
    cases h with
    | none =>
      rw [List.nil_append, fraction.eq_def]
      split
      · simp at hrest
      · rfl
    | some hdigits =>
      have hdigit : Stops Char.isDigit rest := hrest.mono fun c hc => by rw [hc, Bool.true_or]
      simp [fraction, recognizes_digits.append hdigits hdigit]
  sound h := by
    rw [fraction.eq_def] at h
    split at h
    · obtain ⟨ds, hdigits, rfl⟩ := exists_of_map (f := ('.' :: ·)) h
      obtain ⟨rfl, hds⟩ := recognizes_digits.sound hdigits
      exact ⟨rfl, .some hds⟩
    · obtain ⟨rfl, rfl⟩ := Prod.mk.inj (Option.some.inj h)
      exact ⟨rfl, .none⟩

theorem signedDigits_of_digits (h : Digits found) :
    signedDigits (found ++ rest) = digits (found ++ rest) := by
  obtain ⟨c, ds, rfl⟩ := List.exists_cons_of_ne_nil h.ne_nil
  have hc := h.isDigit c (List.mem_cons_self ..)
  rw [List.cons_append, signedDigits.eq_def]
  split
  · next heq =>
    obtain ⟨rfl, -⟩ := List.cons.inj heq
    exact absurd hc (by decide)
  · next heq =>
    obtain ⟨rfl, -⟩ := List.cons.inj heq
    exact absurd hc (by decide)
  · rfl

theorem recognizes_signedDigits : Recognizes signedDigits SignedDigits Char.isDigit where
  append h hrest := by
    obtain ⟨sign, hsign, hdigits⟩ := h
    have hread := recognizes_digits.append hdigits hrest
    simp only [List.mem_cons, List.not_mem_nil, or_false] at hsign
    rcases hsign with rfl | rfl | rfl
    · rw [List.nil_append, signedDigits_of_digits hdigits, hread]
    · simp [signedDigits, hread]
    · simp [signedDigits, hread]
  sound h := by
    rw [signedDigits.eq_def] at h
    split at h
    · obtain ⟨ds, hdigits, rfl⟩ := exists_of_map (f := ('+' :: ·)) h
      obtain ⟨rfl, hds⟩ := recognizes_digits.sound hdigits
      exact ⟨rfl, .mk ['+'] (by simp) hds⟩
    · obtain ⟨ds, hdigits, rfl⟩ := exists_of_map (f := ('-' :: ·)) h
      obtain ⟨rfl, hds⟩ := recognizes_digits.sound hdigits
      exact ⟨rfl, .mk ['-'] (by simp) hds⟩
    · obtain ⟨rfl, hds⟩ := recognizes_digits.sound h
      exact ⟨rfl, .mk [] (by simp) hds⟩

theorem recognizes_exponent :
    Recognizes exponent Exponent (fun c => c.isDigit || (c == 'e' || c == 'E')) where
  append {found rest} h hrest := by
    cases h with
    | none =>
      rw [List.nil_append, exponent.eq_def]
      split
      · simp at hrest
      · simp at hrest
      · rfl
    | some hletter hsigned =>
      have hdigit : Stops Char.isDigit rest := hrest.mono fun c hc => by rw [hc, Bool.true_or]
      have hread := recognizes_signedDigits.append hsigned hdigit
      simp only [List.mem_cons, List.not_mem_nil, or_false] at hletter
      rcases hletter with rfl | rfl
      · simp [exponent, hread]
      · simp [exponent, hread]
  sound h := by
    rw [exponent.eq_def] at h
    split at h
    · obtain ⟨ds, hsigned, rfl⟩ := exists_of_map (f := ('e' :: ·)) h
      obtain ⟨rfl, hds⟩ := recognizes_signedDigits.sound hsigned
      exact ⟨rfl, .some (by simp) hds⟩
    · obtain ⟨ds, hsigned, rfl⟩ := exists_of_map (f := ('E' :: ·)) h
      obtain ⟨rfl, hds⟩ := recognizes_signedDigits.sound hsigned
      exact ⟨rfl, .some (by simp) hds⟩
    · obtain ⟨rfl, rfl⟩ := Prod.mk.inj (Option.some.inj h)
      exact ⟨rfl, .none⟩

/-- No number goes on with the text. -/
def Delimited (text : List Char) : Prop :=
  Stops (fun c => c.isDigit || c == '.' || (c == 'e' || c == 'E')) text

/-- The number that is made of its parts. -/
def assemble : (sign whole fraction exponent : List Char) → Number
  | [], whole, [], [] => .natural (ofDigits whole)
  | sign, whole, fraction, exponent =>
    .other (String.ofList (sign ++ whole ++ fraction ++ exponent))

theorem assemble_natural (whole : List Char) :
    assemble [] whole [] [] = .natural (Nat.ofDigitChars 10 whole 0) := by
  rw [assemble, ofDigits, Nat.ofDigitChars_eq_foldl]

theorem assemble_other {sign whole fraction exponent : List Char}
    (h : sign ++ fraction ++ exponent ≠ []) :
    assemble sign whole fraction exponent =
      .other (String.ofList (sign ++ whole ++ fraction ++ exponent)) := by
  rw [assemble.eq_def]
  split
  · exact absurd rfl h
  · rfl

/-- What is read behind the sign of a number. -/
def afterSign (sign text : List Char) : Option (Number × List Char) := do
  let (whole, rest) ← wholePart text
  let (fraction, rest) ← fraction rest
  let (exponent, rest) ← exponent rest
  some (assemble sign whole fraction exponent, rest)

theorem number_minus (text : List Char) : number ('-' :: text) = afterSign ['-'] text := rfl

theorem number_of_head (h : text.head? ≠ some '-') : number text = afterSign [] text := by
  rw [number.eq_2 text fun rest heq => h (by rw [heq]; rfl), afterSign]
  congr 1
  funext ⟨whole, rest⟩
  dsimp only
  congr 1
  funext ⟨fraction, rest⟩
  dsimp only
  congr 1
  funext ⟨exponent, rest⟩
  dsimp only
  rw [assemble.eq_def]
  split <;> simp_all

theorem afterSign_append (sign : List Char) {whole fraction exponent : List Char}
    (hwhole : Whole whole) (hfraction : Fraction fraction) (hexponent : Exponent exponent)
    (hrest : Delimited rest) :
    afterSign sign (whole ++ (fraction ++ (exponent ++ rest))) =
      some (assemble sign whole fraction exponent, rest) := by
  have hexponentRest : Stops (fun c => c.isDigit || (c == 'e' || c == 'E')) rest :=
    hrest.mono fun c hc => by grind
  have hfractionRest : Stops (fun c => c.isDigit || c == '.') (exponent ++ rest) := by
    refine Stops.append ?_ (hrest.mono fun c hc => by grind)
    cases hexponent with
    | none => exact stops_nil
    | some hletter _ =>
      simp only [List.mem_cons, List.not_mem_nil, or_false] at hletter
      rcases hletter with rfl | rfl <;> rw [stops_cons] <;> rfl
  have hwholeRest : Stops Char.isDigit (fraction ++ (exponent ++ rest)) := by
    refine Stops.append ?_ (hfractionRest.mono fun c hc => by grind)
    cases hfraction with
    | none => exact stops_nil
    | some _ => rw [stops_cons]; rfl
  rw [afterSign, recognizes_wholePart.append hwhole hwholeRest, Option.bind_eq_bind,
    Option.bind_some]
  dsimp only
  rw [recognizes_fraction.append hfraction hfractionRest, Option.bind_some]
  dsimp only
  rw [recognizes_exponent.append hexponent hexponentRest, Option.bind_some]

theorem afterSign_eq_some {sign : List Char} {n : Number}
    (h : afterSign sign text = some (n, rest)) :
    ∃ whole fraction exponent, text = whole ++ (fraction ++ (exponent ++ rest)) ∧ Whole whole ∧
      Fraction fraction ∧ Exponent exponent ∧ n = assemble sign whole fraction exponent := by
  obtain ⟨⟨whole, text₁⟩, hwhole, h⟩ := Option.bind_eq_some_iff.1 h
  obtain ⟨⟨fraction, text₂⟩, hfraction, h⟩ := Option.bind_eq_some_iff.1 h
  obtain ⟨⟨exponent, text₃⟩, hexponent, h⟩ := Option.bind_eq_some_iff.1 h
  obtain ⟨rfl, rfl⟩ := Prod.mk.inj (Option.some.inj h)
  obtain ⟨rfl, hwhole'⟩ := recognizes_wholePart.sound hwhole
  obtain ⟨rfl, hfraction'⟩ := recognizes_fraction.sound hfraction
  obtain ⟨rfl, hexponent'⟩ := recognizes_exponent.sound hexponent
  exact ⟨whole, fraction, exponent, rfl, hwhole', hfraction', hexponent', rfl⟩

/-- The sign is read first. -/
theorem number_sign {sign whole : List Char} (hsign : sign ∈ [[], ['-']]) (hwhole : Whole whole)
    (text : List Char) : number (sign ++ whole ++ text) = afterSign sign (whole ++ text) := by
  simp only [List.mem_cons, List.not_mem_nil, or_false] at hsign
  rcases hsign with rfl | rfl
  · obtain ⟨c, digits, rfl, hc⟩ := hwhole.exists_cons
    refine number_of_head fun hminus => ?_
    obtain rfl := Option.some.inj hminus
    exact absurd hc (by decide)
  · exact number_minus (whole ++ text)

/-- A number is read as it is written. -/
theorem number_append {n : Number} (h : n.Written text) (hrest : Delimited rest) :
    number (text ++ rest) = some (n, rest) := by
  cases h with
  | natural hwhole =>
    rw [← assemble_natural, ← afterSign_append [] hwhole .none .none hrest]
    exact number_sign (List.mem_cons_self ..) hwhole rest
  | @other sign whole fraction exponent hsign hwhole hfraction hexponent hne =>
    rw [← assemble_other hne, ← afterSign_append sign hwhole hfraction hexponent hrest,
      ← number_sign hsign hwhole]
    simp only [List.append_assoc]

theorem written_assemble {sign whole fraction exponent : List Char} (hsign : sign ∈ [[], ['-']])
    (hwhole : Whole whole) (hfraction : Fraction fraction) (hexponent : Exponent exponent) :
    (assemble sign whole fraction exponent).Written (sign ++ whole ++ fraction ++ exponent) := by
  by_cases hempty : sign ++ fraction ++ exponent = []
  · simp only [List.append_eq_nil_iff] at hempty
    obtain ⟨⟨rfl, rfl⟩, rfl⟩ := hempty
    rw [assemble_natural, List.nil_append, List.append_nil, List.append_nil]
    exact .natural hwhole
  · rw [assemble_other hempty]
    exact .other hsign hwhole hfraction hexponent hempty

/-- What is read as a number is one. -/
theorem written_of_number {n : Number} (h : number text = some (n, rest)) :
    ∃ front, text = front ++ rest ∧ n.Written front := by
  obtain ⟨sign, tail, rfl, hsign, h⟩ : ∃ sign tail, text = sign ++ tail ∧
      sign ∈ [[], ['-']] ∧ afterSign sign tail = some (n, rest) := by
    by_cases hminus : text.head? = some '-'
    · obtain ⟨tail, rfl⟩ := List.head?_eq_some_iff.1 hminus
      exact ⟨['-'], tail, rfl, by simp, h⟩
    · rw [number_of_head hminus] at h
      exact ⟨[], text, rfl, by simp, h⟩
  obtain ⟨whole, fraction, exponent, rfl, hwhole, hfraction, hexponent, rfl⟩ :=
    afterSign_eq_some h
  exact ⟨_, by simp only [List.append_assoc], written_assemble hsign hwhole hfraction hexponent⟩

/-! ## Strings -/

theorem hexDigit?_of_mem {n : Nat} (h : (c, n) ∈ hexDigits) : hexDigit? c = some n := by
  have hall : ∀ p ∈ hexDigits, hexDigit? p.1 = some p.2 := by decide
  exact hall _ h

theorem toNat_lt_of_hexDigit? {n : Nat} (h : hexDigit? c = some n) : c.toNat < 128 := by
  rw [hexDigit?] at h
  split at h
  · next hc =>
    simp only [Char.isDigit, Bool.and_eq_true, decide_eq_true_eq] at hc
    exact Nat.lt_of_le_of_lt hc.2 (by decide)
  split at h
  · next hc =>
    rw [Bool.and_eq_true, decide_eq_true_eq, decide_eq_true_eq] at hc
    exact Nat.lt_of_le_of_lt hc.2 (by decide)
  split at h
  · next hc =>
    rw [Bool.and_eq_true, decide_eq_true_eq, decide_eq_true_eq] at hc
    exact Nat.lt_of_le_of_lt hc.2 (by decide)
  · cases h

theorem mem_of_hexDigit? {n : Nat} (h : hexDigit? c = some n) : (c, n) ∈ hexDigits := by
  have hall : ∀ k < 128, ∀ n ∈ hexDigit? (Char.ofNat k), (Char.ofNat k, n) ∈ hexDigits := by
    decide
  have hmem := hall c.toNat (toNat_lt_of_hexDigit? h)
  rw [Char.ofNat_toNat] at hmem
  exact hmem n h

theorem escaped?_of_mem {letter : Char} (h : (letter, c) ∈ escapes) : escaped? letter = some c := by
  have hall : ∀ p ∈ escapes, escaped? p.1 = some p.2 := by decide
  exact hall _ h

theorem mem_of_escaped? {letter : Char} (h : escaped? letter = some c) : (letter, c) ∈ escapes := by
  rw [escaped?.eq_def] at h
  split at h <;> cases h <;> simp [escapes]

theorem hexUnit?_of_mem {a b c d : Char} {i j k l : Nat} (ha : (a, i) ∈ hexDigits)
    (hb : (b, j) ∈ hexDigits) (hc : (c, k) ∈ hexDigits) (hd : (d, l) ∈ hexDigits) :
    hexUnit? a b c d = some (((i * 16 + j) * 16 + k) * 16 + l).toUInt16 := by
  rw [hexUnit?, hexDigit?_of_mem ha, hexDigit?_of_mem hb, hexDigit?_of_mem hc,
    hexDigit?_of_mem hd]
  rfl

theorem mem_of_hexUnit? {a b c d : Char} {u : UInt16} (h : hexUnit? a b c d = some u) :
    ∃ i j k l, (a, i) ∈ hexDigits ∧ (b, j) ∈ hexDigits ∧ (c, k) ∈ hexDigits ∧
      (d, l) ∈ hexDigits ∧ u = (((i * 16 + j) * 16 + k) * 16 + l).toUInt16 := by
  obtain ⟨i, ha, h⟩ := Option.bind_eq_some_iff.1 h
  obtain ⟨j, hb, h⟩ := Option.bind_eq_some_iff.1 h
  obtain ⟨k, hc, h⟩ := Option.bind_eq_some_iff.1 h
  obtain ⟨l, hd, h⟩ := Option.bind_eq_some_iff.1 h
  exact ⟨i, j, k, l, mem_of_hexDigit? ha, mem_of_hexDigit? hb, mem_of_hexDigit? hc,
    mem_of_hexDigit? hd, (Option.some.inj h).symm⟩

theorem stringBody_plain (hc : 0x20 ≤ c.toNat) (hquote : c ≠ '"') (hescape : c ≠ '\\')
    (found : List UInt16) (text : List Char) :
    stringBody found (c :: text) = stringBody ((Text.Utf16.units c).reverse ++ found) text := by
  rw [stringBody.eq_5, if_neg (Nat.not_lt_of_le hc)]
  · exact hquote
  · exact fun _ _ _ _ _ heq _ => hescape heq
  · exact fun _ _ heq _ => hescape heq

theorem stringBody_escape {letter : Char} (h : (letter, c) ∈ escapes) (found : List UInt16)
    (text : List Char) :
    stringBody found ('\\' :: letter :: text) =
      stringBody ((Text.Utf16.units c).reverse ++ found) text := by
  have hu : letter ≠ 'u' := by
    rintro rfl
    simp [escapes] at h
  rw [stringBody.eq_4, escaped?_of_mem h]
  exact fun _ _ _ _ _ heq _ => hu heq

/-- A string is read as it is written, up to the quote. -/
theorem stringBody_append (h : WrittenUnits us text) (found : List UInt16) (rest : List Char) :
    stringBody found (text ++ '"' :: rest) = some (found.reverse ++ us, rest) := by
  induction h generalizing found with
  | nil => rw [List.nil_append, stringBody, List.append_nil]
  | plain hc hquote hescape _ ih =>
    rw [List.cons_append, stringBody_plain hc hquote hescape, ih]
    simp
  | escape hletter _ ih =>
    rw [List.cons_append, List.cons_append, stringBody_escape hletter, ih]
    simp
  | unit ha hb hc hd _ ih =>
    simp only [List.cons_append]
    rw [stringBody, hexUnit?_of_mem ha hb hc hd]
    dsimp only
    rw [ih]
    simp

/-- What is read as a string up to the quote is one. -/
theorem written_of_stringBody {found : List UInt16} (h : stringBody found text = some (us, rest)) :
    ∃ units front, text = front ++ '"' :: rest ∧ us = found.reverse ++ units ∧
      WrittenUnits units front := by
  fun_induction stringBody found text with
  | case1 found => cases h
  | case2 found tail =>
    obtain ⟨rfl, rfl⟩ := Prod.mk.inj (Option.some.inj h)
    exact ⟨[], [], rfl, (List.append_nil _).symm, .nil⟩
  | case3 found a b c d tail u hu ih =>
    obtain ⟨units, front, rfl, rfl, hfront⟩ := ih h
    obtain ⟨i, j, k, l, ha, hb, hc, hd, rfl⟩ := mem_of_hexUnit? hu
    exact ⟨_, _, rfl, by simp, .unit ha hb hc hd hfront⟩
  | case4 => cases h
  | case5 found letter tail _ c hletter ih =>
    obtain ⟨units, front, rfl, rfl, hfront⟩ := ih h
    exact ⟨_, _, rfl, by simp, .escape (mem_of_escaped? hletter) hfront⟩
  | case6 => cases h
  | case7 => cases h
  | case8 found c tail hquote _ hescape hc ih =>
    obtain ⟨units, front, rfl, rfl, hfront⟩ := ih h
    have hback : c ≠ '\\' := by
      -- the text goes on, at least with the quote, so a backslash would have been an escape
      intro hback
      obtain ⟨d, rest, hrest⟩ := List.exists_cons_of_ne_nil (l := front ++ '"' :: rest) (by simp)
      exact hescape d rest hback hrest
    exact ⟨_, _, rfl, by simp, .plain (Nat.le_of_not_lt hc) hquote hback hfront⟩

/-! ## Names -/

theorem memberName_skipBlanks (text : List Char) :
    memberName (skipBlanks text) = memberName text := by
  rw [memberName, skipBlanks_skipBlanks, ← memberName]

/-- A name is read as it is written, with the colon behind it. -/
theorem memberName_append (h : WrittenName name text) (rest : List Char) :
    memberName (text ++ rest) = some (name, rest) := by
  obtain @⟨pre, name, quoted, post, hpre, hquoted, hpost⟩ := h
  have htext : pre ++ '"' :: (quoted ++ '"' :: (post ++ [':'])) ++ rest =
      pre ++ (['"'] ++ (quoted ++ '"' :: (post ++ ([':'] ++ rest)))) := by simp
  have hquote : skipBlanks (['"'] ++ (quoted ++ '"' :: (post ++ ([':'] ++ rest)))) =
      ['"'] ++ (quoted ++ '"' :: (post ++ ([':'] ++ rest))) := skipBlanks_cons rfl _
  have hcolon : skipBlanks ([':'] ++ rest) = [':'] ++ rest := skipBlanks_cons rfl _
  rw [htext, memberName, skipBlanks_append hpre, hquote, expect_append]
  simp only [Option.bind_eq_bind, Option.bind_some, stringBody_append hquoted,
    skipBlanks_append hpost, hcolon, expect_append, List.reverse_nil, List.nil_append]

/-- What is read as a name is one. -/
theorem written_of_memberName (h : memberName text = some (name, rest)) :
    ∃ front, text = front ++ rest ∧ WrittenName name front := by
  obtain ⟨text₁, hquote, h⟩ := Option.bind_eq_some_iff.1 h
  obtain ⟨⟨us, text₂⟩, hbody, h⟩ := Option.bind_eq_some_iff.1 h
  obtain ⟨text₃, hcolon, h⟩ := Option.bind_eq_some_iff.1 h
  obtain ⟨rfl, rfl⟩ := Prod.mk.inj (Option.some.inj h)
  obtain ⟨pre, hpre, htext⟩ := exists_blank_append text
  obtain ⟨post, hpost, htext₂⟩ := exists_blank_append text₂
  obtain ⟨units, quoted, rfl, rfl, hquoted⟩ := written_of_stringBody hbody
  rw [eq_append_of_expect hquote] at htext
  rw [eq_append_of_expect hcolon] at htext₂
  refine ⟨_, ?_, .mk hpre hquoted hpost⟩
  rw [htext, htext₂]
  simp

end ByteFlow.Json.Reader
