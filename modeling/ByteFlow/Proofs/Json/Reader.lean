import ByteFlow.Proofs.Json.Token

/-!
# Reading JSON

The reader accepts the texts that the grammar derives, and no others.  It is given a bound on the
nesting, which is never reached: each step down is paid for by a character of the text, and the
bound is made from the length of the whole.

## Main definitions

* `Reader.value_append`, `Reader.items_append`, `Reader.members_append` — what is written is read.
* `Reader.Sound` — what is read was written; `Reader.sound` says so for every bound.
* `Json.parse_eq_some_iff` — the texts that denote a value; by `Document.unique` no other one.
* `Json.Reads read` — a reader of the grammar; by `Reads.eq_parse` there is one only.
-/

namespace ByteFlow.Json.Reader

variable {c : Char} {w text front rest : List Char} {v : Json} {depth : Nat}

theorem value_skipBlanks (depth : Nat) (text : List Char) :
    value depth (skipBlanks text) = value depth text := by
  cases depth with
  | zero => rfl
  | succ depth => rw [value, value, skipBlanks_skipBlanks]

theorem items_skipBlanks (depth : Nat) (text : List Char) :
    items depth (skipBlanks text) = items depth text := by
  cases depth with
  | zero => rfl
  | succ depth => rw [items, items, value_skipBlanks]

theorem members_skipBlanks (depth : Nat) (text : List Char) :
    members depth (skipBlanks text) = members depth text := by
  cases depth with
  | zero => rfl
  | succ depth => rw [members, members, memberName_skipBlanks]

/-! ## What is written is read -/

theorem isBlank_eq_false (h : c ∉ blanks) : isBlank c = false := by
  rw [Bool.eq_false_iff, Ne, isBlank_iff]
  exact h

theorem value_number (hc : c.isDigit = true ∨ c = '-') (depth : Nat) (text : List Char) :
    value (depth + 1) (c :: text) =
      (Reader.number (c :: text)).map fun (n, rest) => (Json.number n, rest) := by
  obtain ⟨hblank, hothers⟩ := head_of_number hc
  simp only [List.mem_cons, List.not_mem_nil, or_false, not_or] at hothers
  obtain ⟨-, hbracket, hbrace, hquote, hn, ht, hf⟩ := hothers
  rw [value, skipBlanks_cons (isBlank_eq_false hblank)]
  split <;> simp_all

theorem value_quote (depth : Nat) (text : List Char) :
    value (depth + 1) ('"' :: text) =
      (stringBody [] text).map fun (units, rest) => (string units, rest) := by
  rw [value, skipBlanks_cons rfl]
  rfl

/-- An array without items. -/
theorem value_bracket_of_closed (h : skipBlanks text = ']' :: rest) (depth : Nat) :
    value (depth + 1) ('[' :: text) = some (array [], rest) := by
  rw [value, skipBlanks_cons rfl]
  simp only [h]

/-- An array with items. -/
theorem value_bracket (h : ∀ rest, skipBlanks text ≠ ']' :: rest) (depth : Nat) :
    value (depth + 1) ('[' :: text) =
      (items depth text).map fun (found, rest) => (array found, rest) := by
  rw [value, skipBlanks_cons rfl]
  simp only [items_skipBlanks]

/-- An object without members. -/
theorem value_brace_of_closed (h : skipBlanks text = '}' :: rest) (depth : Nat) :
    value (depth + 1) ('{' :: text) = some (object [], rest) := by
  rw [value, skipBlanks_cons rfl]
  simp only [h]

/-- An object with members. -/
theorem value_brace (h : ∀ rest, skipBlanks text ≠ '}' :: rest) (depth : Nat) :
    value (depth + 1) ('{' :: text) =
      (members depth text).map fun (found, rest) => (object found, rest) := by
  rw [value, skipBlanks_cons rfl]
  simp only [members_skipBlanks]

/-- Blanks do not belong to a number. -/
theorem Delimited.blank_append (hw : Blank w) (h : Delimited rest) : Delimited (w ++ rest) := by
  refine Stops.append ?_ h
  cases w with
  | nil => exact stops_nil
  | cons c w =>
    have hc := hw c (List.mem_cons_self ..)
    simp only [blanks, List.mem_cons, List.not_mem_nil, or_false] at hc
    rw [stops_cons]
    rcases hc with rfl | rfl | rfl | rfl <;> rfl

/-- A value with blanks around it is found behind the blanks. -/
theorem skipBlanks_spaced (h : WrittenSpaced v text) (rest : List Char) :
    ∃ c tail, skipBlanks (text ++ rest) = c :: tail ∧ c ≠ ']' := by
  obtain @⟨pre, _, body, post, hpre, hbody, hpost⟩ := h
  obtain ⟨c, tail, rfl, hblank, hc⟩ := hbody.exists_cons
  refine ⟨c, tail ++ post ++ rest, ?_, hc⟩
  rw [List.append_assoc, List.append_assoc, Reader.skipBlanks_append hpre, List.cons_append,
    skipBlanks_cons (isBlank_eq_false hblank), List.append_assoc]

theorem skipBlanks_items {items : List Json} (h : WrittenItems items text)
    (rest : List Char) : ∃ c tail, skipBlanks (text ++ rest) = c :: tail ∧ c ≠ ']' := by
  cases h with
  | last hitem => exact skipBlanks_spaced hitem rest
  | more hitem _ =>
    rw [List.append_assoc]
    exact skipBlanks_spaced hitem _

theorem skipBlanks_name {name : List UInt16} (h : WrittenName name text)
    (rest : List Char) : ∃ tail, skipBlanks (text ++ rest) = '"' :: tail := by
  obtain @⟨pre, _, quoted, post, hpre, _, _⟩ := h
  refine ⟨quoted ++ '"' :: (post ++ [':']) ++ rest, ?_⟩
  rw [List.append_assoc, Reader.skipBlanks_append hpre, List.cons_append]
  exact skipBlanks_cons rfl _

theorem skipBlanks_members {members : List (List UInt16 × Json)}
    (h : WrittenMembers members text) (rest : List Char) :
    ∃ tail, skipBlanks (text ++ rest) = '"' :: tail := by
  cases h with
  | last hname _ =>
    rw [List.append_assoc]
    exact skipBlanks_name hname _
  | more hname _ _ =>
    rw [List.append_assoc, List.append_assoc]
    exact skipBlanks_name hname _

/-- Whatever closes an array or an object, or goes on with it, is no part of a number. -/
theorem delimited_cons (h : c ∈ [',', ']', '}']) (rest : List Char) : Delimited (c :: rest) := by
  simp only [List.mem_cons, List.not_mem_nil, or_false] at h
  rw [Delimited, stops_cons]
  rcases h with rfl | rfl | rfl <;> rfl

/-- What stands between brackets is shorter than the whole. -/
theorem length_of_closed {opening closing : Char}
    (h : (opening :: (text ++ [closing])).length ≤ depth + 1) : text.length < depth := by
  simp only [List.length_cons, List.length_append, List.length_nil] at h
  omega

mutual

/-- A value is read as it is written. -/
theorem value_append {v : Json} {text rest : List Char} {depth : Nat} (h : Written v text)
    (hdepth : text.length ≤ depth) (hrest : Delimited rest) :
    value depth (text ++ rest) = some (v, rest) := by
  obtain ⟨c, tail, htext, -, -⟩ := h.exists_cons
  obtain ⟨depth, rfl⟩ : ∃ n, depth = n + 1 := by
    refine Nat.exists_eq_succ_of_ne_zero ?_
    rw [htext, List.length_cons] at hdepth
    omega
  cases h with
  | null | true | false => rfl
  | number h =>
    obtain ⟨c, tail, rfl, hc⟩ := h.exists_cons
    rw [List.cons_append, value_number hc, ← List.cons_append, number_append h hrest]
    rfl
  | @string us body h =>
    have htext : '"' :: (body ++ ['"']) ++ rest = '"' :: (body ++ '"' :: rest) := by simp
    rw [htext, value_quote, stringBody_append h]
    rfl
  | @emptyArray w hw =>
    have htext : '[' :: (w ++ [']']) ++ rest = '[' :: (w ++ ']' :: rest) := by simp
    have hskip : skipBlanks (w ++ ']' :: rest) = ']' :: rest := by
      rw [skipBlanks_append hw, skipBlanks_cons rfl]
    rw [htext, value_bracket_of_closed hskip]
  | @array items body h =>
    have htext : '[' :: (body ++ [']']) ++ rest = '[' :: (body ++ ']' :: rest) := by simp
    have hread := items_append h (length_of_closed hdepth) rest
    obtain ⟨c, tail, hskip, hc⟩ := skipBlanks_items h (']' :: rest)
    rw [htext, value_bracket, hread]
    · rfl
    · intro rest heq
      exact hc (List.cons.inj (hskip.symm.trans heq)).1
  | @emptyObject w hw =>
    have htext : '{' :: (w ++ ['}']) ++ rest = '{' :: (w ++ '}' :: rest) := by simp
    have hskip : skipBlanks (w ++ '}' :: rest) = '}' :: rest := by
      rw [skipBlanks_append hw, skipBlanks_cons rfl]
    rw [htext, value_brace_of_closed hskip]
  | @object members body h =>
    have htext : '{' :: (body ++ ['}']) ++ rest = '{' :: (body ++ '}' :: rest) := by simp
    have hread := members_append h (length_of_closed hdepth) rest
    obtain ⟨tail, hskip⟩ := skipBlanks_members h ('}' :: rest)
    rw [htext, value_brace, hread]
    · rfl
    · intro rest heq
      exact absurd (List.cons.inj (hskip.symm.trans heq)).1 (by decide)

/-- A value is read with the blanks in front of it; those behind it do not matter. -/
theorem value_spaced_append {v : Json} {text rest : List Char} {depth : Nat}
    (h : WrittenSpaced v text) (hdepth : text.length ≤ depth) (hrest : Delimited rest) :
    ∃ left, value depth (text ++ rest) = some (v, left) ∧ skipBlanks left = skipBlanks rest := by
  cases h with
  | @mk pre _ body post hpre hbody hpost =>
    refine ⟨post ++ rest, ?_, skipBlanks_append hpost rest⟩
    rw [← value_skipBlanks, List.append_assoc, List.append_assoc, skipBlanks_append hpre,
      value_skipBlanks]
    refine value_append hbody ?_ (hrest.blank_append hpost)
    simp only [List.length_append] at hdepth
    omega

/-- The items of an array are read up to the bracket that closes it. -/
theorem items_append {found : List Json} {text : List Char} {depth : Nat}
    (h : WrittenItems found text) (hdepth : text.length < depth) (rest : List Char) :
    items depth (text ++ ']' :: rest) = some (found, rest) := by
  obtain ⟨depth, rfl⟩ := Nat.exists_eq_succ_of_ne_zero (Nat.ne_zero_of_lt hdepth)
  cases h with
  | last hitem =>
    obtain ⟨left, hread, hleft⟩ := value_spaced_append hitem (Nat.le_of_lt_succ hdepth)
      (delimited_cons (c := ']') (by decide) rest)
    rw [items, hread]
    simp only [hleft, skipBlanks_cons (c := ']') rfl]
  | @more item front others tail hitem hitems =>
    rw [List.length_append, List.length_cons] at hdepth
    have hfront : front.length ≤ depth := by omega
    have htail : tail.length < depth := by omega
    obtain ⟨left, hread, hleft⟩ := value_spaced_append hitem hfront
      (delimited_cons (c := ',') (by decide) (tail ++ ']' :: rest))
    have hothers := items_append hitems htail rest
    rw [List.append_assoc, List.cons_append, items, hread]
    simp only [hleft, skipBlanks_cons (c := ',') rfl, hothers, Option.map_some]

/-- The members of an object are read up to the brace that closes it. -/
theorem members_append {found : List (List UInt16 × Json)} {text : List Char} {depth : Nat}
    (h : WrittenMembers found text) (hdepth : text.length < depth) (rest : List Char) :
    members depth (text ++ '}' :: rest) = some (found, rest) := by
  obtain ⟨depth, rfl⟩ := Nat.exists_eq_succ_of_ne_zero (Nat.ne_zero_of_lt hdepth)
  cases h with
  | @last name front item body hname hitem =>
    rw [List.length_append] at hdepth
    have hbody : body.length ≤ depth := by omega
    obtain ⟨left, hread, hleft⟩ := value_spaced_append hitem hbody
      (delimited_cons (c := '}') (by decide) rest)
    rw [List.append_assoc, members, memberName_append hname]
    dsimp only
    rw [hread]
    simp only [hleft, skipBlanks_cons (c := '}') rfl]
  | @more name front item body others tail hname hitem hmembers =>
    rw [List.length_append, List.length_append, List.length_cons] at hdepth
    have hbody : body.length ≤ depth := by omega
    have htail : tail.length < depth := by omega
    obtain ⟨left, hread, hleft⟩ := value_spaced_append hitem hbody
      (delimited_cons (c := ',') (by decide) (tail ++ '}' :: rest))
    have hothers := members_append hmembers htail rest
    rw [List.append_assoc, List.append_assoc, List.cons_append, members, memberName_append hname]
    dsimp only
    rw [hread]
    simp only [hleft, skipBlanks_cons (c := ',') rfl, hothers, Option.map_some]

end

/-! ## What is read was written -/

/-- The texts that are read with a bound on the nesting are texts of the grammar. -/
structure Sound (depth : Nat) : Prop where
  value : ∀ {text rest v}, value depth text = some (v, rest) →
    ∃ front, text = front ++ rest ∧ WrittenSpaced v front
  items : ∀ {text rest found}, items depth text = some (found, rest) →
    ∃ front, text = front ++ ']' :: rest ∧ WrittenItems found front
  members : ∀ {text rest found}, members depth text = some (found, rest) →
    ∃ front, text = front ++ '}' :: rest ∧ WrittenMembers found front

theorem exists_of_expect {word : List Char} {u : Json}
    (h : (expect word text).map (u, ·) = some (v, rest)) : text = word ++ rest ∧ v = u := by
  obtain ⟨left, hword, heq⟩ := Option.map_eq_some_iff.1 h
  obtain ⟨rfl, rfl⟩ := Prod.mk.inj heq
  exact ⟨eq_append_of_expect hword, rfl⟩

/-- An array, from behind the bracket that opens it. -/
theorem Sound.bracket (h : Sound depth)
    (hread : Reader.value (depth + 1) ('[' :: text) = some (v, rest)) :
    ∃ front, text = front ++ rest ∧ Written v ('[' :: front) := by
  by_cases hclosed : ∃ tail, skipBlanks text = ']' :: tail
  · obtain ⟨tail, hskip⟩ := hclosed
    rw [value_bracket_of_closed hskip] at hread
    obtain ⟨rfl, rfl⟩ := Prod.mk.inj (Option.some.inj hread)
    obtain ⟨w, hw, htext⟩ := exists_blank_append text
    exact ⟨w ++ [']'], by rw [htext, hskip, List.append_assoc]; rfl, .emptyArray hw⟩
  · rw [value_bracket (not_exists.1 hclosed)] at hread
    obtain ⟨found, hitems, rfl⟩ := exists_of_map (f := array) hread
    obtain ⟨front, rfl, hfront⟩ := h.items hitems
    exact ⟨front ++ [']'], by rw [List.append_assoc]; rfl, .array hfront⟩

/-- An object, from behind the brace that opens it. -/
theorem Sound.brace (h : Sound depth)
    (hread : Reader.value (depth + 1) ('{' :: text) = some (v, rest)) :
    ∃ front, text = front ++ rest ∧ Written v ('{' :: front) := by
  by_cases hclosed : ∃ tail, skipBlanks text = '}' :: tail
  · obtain ⟨tail, hskip⟩ := hclosed
    rw [value_brace_of_closed hskip] at hread
    obtain ⟨rfl, rfl⟩ := Prod.mk.inj (Option.some.inj hread)
    obtain ⟨w, hw, htext⟩ := exists_blank_append text
    exact ⟨w ++ ['}'], by rw [htext, hskip, List.append_assoc]; rfl, .emptyObject hw⟩
  · rw [value_brace (not_exists.1 hclosed)] at hread
    obtain ⟨found, hmembers, rfl⟩ := exists_of_map (f := object) hread
    obtain ⟨front, rfl, hfront⟩ := h.members hmembers
    exact ⟨front ++ ['}'], by rw [List.append_assoc]; rfl, .object hfront⟩

/-- The value that stands behind some blanks. -/
theorem Sound.value_succ (h : Sound depth)
    (hread : Reader.value (depth + 1) text = some (v, rest)) :
    ∃ front, text = front ++ rest ∧ WrittenSpaced v front := by
  obtain ⟨w, hw, htext⟩ := exists_blank_append text
  suffices ∃ front, skipBlanks text = front ++ rest ∧ Written v front by
    obtain ⟨front, hfront, hwritten⟩ := this
    rw [htext, hfront, ← List.append_assoc]
    exact ⟨w ++ front, rfl, .blank_append hw hwritten⟩
  have hskipped := (value_skipBlanks (depth + 1) text).trans hread
  rw [Reader.value] at hread
  split at hread
  · next hskip =>
    obtain ⟨rfl, rfl⟩ := exists_of_expect hread
    exact ⟨_, hskip, .null⟩
  · next hskip =>
    obtain ⟨rfl, rfl⟩ := exists_of_expect hread
    exact ⟨_, hskip, .true⟩
  · next hskip =>
    obtain ⟨rfl, rfl⟩ := exists_of_expect hread
    exact ⟨_, hskip, .false⟩
  · next hskip =>
    obtain ⟨us, hbody, rfl⟩ := exists_of_map (f := string) hread
    obtain ⟨units, front, rfl, rfl, hfront⟩ := written_of_stringBody hbody
    exact ⟨'"' :: (front ++ ['"']), by simp [hskip], .string hfront⟩
  · next hskip =>
    obtain ⟨front, rfl, hfront⟩ := h.bracket (hskip ▸ hskipped)
    exact ⟨_, hskip, hfront⟩
  · next hskip =>
    obtain ⟨front, rfl, hfront⟩ := h.brace (hskip ▸ hskipped)
    exact ⟨_, hskip, hfront⟩
  · obtain ⟨n, hnumber, rfl⟩ := exists_of_map (f := Json.number) hread
    obtain ⟨front, hfront, hn⟩ := written_of_number hnumber
    exact ⟨front, hfront, .number hn⟩

/-- What is skipped behind a value is a part of it. -/
theorem exists_of_skipBlanks {item : Json} {left tail : List Char} (h : WrittenSpaced item front)
    (hskip : skipBlanks left = tail) :
    ∃ whole, front ++ left = whole ++ tail ∧ WrittenSpaced item whole := by
  obtain ⟨w, hw, hleft⟩ := exists_blank_append left
  refine ⟨front ++ w, ?_, h.append_blank hw⟩
  rw [List.append_assoc, ← hskip, ← hleft]

/-- The items up to the bracket, with one more in front. -/
theorem Sound.items_succ {found : List Json} (h : Sound depth)
    (hread : Reader.items (depth + 1) text = some (found, rest)) :
    ∃ front, text = front ++ ']' :: rest ∧ WrittenItems found front := by
  rw [Reader.items] at hread
  split at hread
  · cases hread
  next item left hvalue =>
  obtain ⟨front, rfl, hfront⟩ := h.value hvalue
  split at hread
  · next tail hskip =>
    obtain ⟨whole, hwhole, hitem⟩ := exists_of_skipBlanks hfront hskip
    obtain ⟨others, hitems, rfl⟩ := exists_of_map (f := (item :: ·)) hread
    obtain ⟨behind, rfl, hbehind⟩ := h.items hitems
    exact ⟨whole ++ ',' :: behind, by rw [hwhole]; simp, .more hitem hbehind⟩
  · next tail hskip =>
    obtain ⟨whole, hwhole, hitem⟩ := exists_of_skipBlanks hfront hskip
    obtain ⟨rfl, rfl⟩ := Prod.mk.inj (Option.some.inj hread)
    exact ⟨whole, hwhole, .last hitem⟩
  · cases hread

/-- The members up to the brace, with one more in front. -/
theorem Sound.members_succ {found : List (List UInt16 × Json)} (h : Sound depth)
    (hread : Reader.members (depth + 1) text = some (found, rest)) :
    ∃ front, text = front ++ '}' :: rest ∧ WrittenMembers found front := by
  rw [Reader.members] at hread
  split at hread
  · cases hread
  next name behindName hmember =>
  obtain ⟨before, rfl, hname⟩ := written_of_memberName hmember
  split at hread
  · cases hread
  next item left hvalue =>
  obtain ⟨front, rfl, hfront⟩ := h.value hvalue
  split at hread
  · next tail hskip =>
    obtain ⟨whole, hwhole, hitem⟩ := exists_of_skipBlanks hfront hskip
    obtain ⟨others, hmembers, rfl⟩ := exists_of_map (f := ((name, item) :: ·)) hread
    obtain ⟨behind, rfl, hbehind⟩ := h.members hmembers
    exact ⟨before ++ whole ++ ',' :: behind, by rw [hwhole]; simp, .more hname hitem hbehind⟩
  · next tail hskip =>
    obtain ⟨whole, hwhole, hitem⟩ := exists_of_skipBlanks hfront hskip
    obtain ⟨rfl, rfl⟩ := Prod.mk.inj (Option.some.inj hread)
    exact ⟨before ++ whole, by rw [hwhole, List.append_assoc], .last hname hitem⟩
  · cases hread

theorem sound (depth : Nat) : Sound depth := by
  induction depth with
  | zero => exact ⟨by simp [Reader.value], by simp [Reader.items], by simp [Reader.members]⟩
  | succ depth ih => exact ⟨ih.value_succ, ih.items_succ, ih.members_succ⟩

end ByteFlow.Json.Reader

namespace ByteFlow.Json

open Reader

/-- Reading accepts the documents of the grammar, each with the value that it denotes. -/
theorem parse_eq_some_iff {v : Json} {text : String} : parse text = some v ↔ Document v text := by
  constructor
  · intro h
    rw [parse] at h
    split at h
    · next found rest hread =>
      split at h
      · next hblank =>
        obtain rfl := Option.some.inj h
        obtain ⟨front, htext, hfront⟩ := (sound _).value hread
        obtain ⟨whole, hwhole, hdocument⟩ :=
          exists_of_skipBlanks hfront (List.isEmpty_iff.1 hblank)
        rw [Document, htext, hwhole, List.append_nil]
        exact hdocument
      · cases h
    · cases h
  · intro h
    -- the bound is far from being reached: a step down costs a character
    have hdepth : text.toList.length ≤ 2 * text.toList.length + 2 := by omega
    obtain ⟨left, hread, hleft⟩ := value_spaced_append h hdepth stops_nil
    rw [List.append_nil] at hread
    rw [parse]
    simp only [hread, hleft]
    rfl

/-- The function reads the documents of the grammar, each as the value that it denotes, and no other
texts. -/
def Reads (read : String → Option Json) : Prop := ∀ text v, read text = some v ↔ Document v text

theorem reads_parse : Reads parse := fun _ _ => parse_eq_some_iff

/-- The grammar leaves it no choice. -/
theorem Reads.eq_parse {read : String → Option Json} (h : Reads read) : read = parse := by
  funext text
  ext v
  rw [h text v, parse_eq_some_iff]

/-- A text is a document of one value only. -/
theorem Document.unique {v u : Json} {text : String} (h : Document v text) (h' : Document u text) :
    v = u :=
  Option.some.inj ((parse_eq_some_iff.2 h).symm.trans (parse_eq_some_iff.2 h'))

end ByteFlow.Json
