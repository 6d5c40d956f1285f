/-!
# Packed bytes

Bytes at rest are kept packed.  Reasoning about them goes through the list of the
bytes, `Bytes.list`; every operation of this file has an equation for it.

## Main definitions

* `Bytes.list b` — the bytes as a list.
* `Bytes.replicate n v` — `n` bytes equal to `v`.
* `Bytes.overwrite b position src start count` — `count` bytes of `src` placed over
  those of `b`.
-/

namespace ByteFlow

/-- Bytes at rest. -/
abbrev Bytes := ByteArray

namespace Bytes

instance : DecidableEq Bytes := ByteArray.instDecidableEq

/-- The bytes as a list. -/
def list (b : Bytes) : List UInt8 := b.data.toList

/-- Bytes from a list. -/
def ofList (bytes : List UInt8) : Bytes := ⟨bytes.toArray⟩

/-- `n` bytes equal to `v` added behind `b`. -/
def extend (v : UInt8) : Nat → Bytes → Bytes
  | 0, b => b
  | n + 1, b => extend v n (b.push v)

/-- `n` bytes equal to `v`. -/
def replicate (n : Nat) (v : UInt8) : Bytes := extend v n ByteArray.empty

/-- The bytes of `b` with `count` bytes of `src`, from `start` on, placed over those
from `position` on. -/
def overwrite (b : Bytes) (position : Nat) (src : Bytes) (start count : Nat) : Bytes :=
  src.copySlice start b position count

@[simp] theorem list_ofList (bytes : List UInt8) : list (ofList bytes) = bytes := rfl

@[simp] theorem length_list (b : Bytes) : b.list.length = b.size := rfl

/-- A byte is looked up in the packed form, without making a list. -/
theorem getElem?_list (b : Bytes) (i : Nat) : b.list[i]? = b[i]? := by
  simp only [list, Array.getElem?_toList]
  by_cases h : i < b.size
  · rw [getElem?_pos b i h, Array.getElem?_eq_getElem (by simpa using h)]
    rfl
  · rw [getElem?_neg b i h, Array.getElem?_eq_none (by simpa using h)]

@[simp] theorem list_empty : list ByteArray.empty = [] := rfl

@[simp] theorem list_push (b : Bytes) (v : UInt8) : list (b.push v) = b.list ++ [v] := by
  simp [list]

theorem ext_list {a b : Bytes} (h : a.list = b.list) : a = b := by
  cases a
  cases b
  congr
  exact Array.toList_inj.1 h

@[simp] theorem list_append (a b : Bytes) : list (a ++ b) = a.list ++ b.list := by
  simp [list]

@[simp] theorem list_set (b : Bytes) (i : Nat) (v : UInt8) :
    list (b.set! i v) = b.list.set i v := by
  cases b
  simp [list, ByteArray.set!, Array.set!_eq_setIfInBounds, Array.toList_setIfInBounds]

@[simp] theorem list_extract (b : Bytes) (start stop : Nat) :
    list (b.extract start stop) = (b.list.take stop).drop start := by
  simp [list, ByteArray.data_extract, List.extract_eq_take_drop, List.drop_take]

theorem list_overwrite (b : Bytes) (position : Nat) (src : Bytes) (start count : Nat) :
    list (b.overwrite position src start count) =
      b.list.take position ++ (src.list.drop start).take count
        ++ b.list.drop (position + min count (src.size - start)) := by
  have rest (n : Nat) : (b.list.drop n).take (b.size - n) = b.list.drop n :=
    List.take_of_length_le (by simp)
  simp only [list] at rest
  simp [overwrite, list, ByteArray.copySlice, Array.toList_extract, List.extract_eq_take_drop,
    rest]

theorem list_extend (v : UInt8) (n : Nat) (b : Bytes) :
    list (extend v n b) = b.list ++ List.replicate n v := by
  induction n generalizing b with
  | zero => simp [extend]
  | succ n ih => simp [extend, ih, List.replicate_succ]

@[simp] theorem list_replicate (n : Nat) (v : UInt8) :
    list (replicate n v) = List.replicate n v := by
  simp [replicate, list_extend]

@[simp] theorem size_replicate (n : Nat) (v : UInt8) : (replicate n v).size = n := by
  rw [← length_list, list_replicate, List.length_replicate]

end Bytes

end ByteFlow
