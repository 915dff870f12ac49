/-
Messages as frames. A frame is a list of fields, each found where the fields
before it end; a decoder reads a field between two fixed positions. A codec is
canonical when its decoder accepts the encodings of the values and nothing else.
-/

import Mathlib.Data.Vector.Defs
import ReclaimTee.BigEndian
import ReclaimTee.Lists

namespace ReclaimTee

open List hiding Vector

section Slices

variable {α : Type}

def slice (data : List α) (start stop : Nat) : List α :=
  (data.drop start).take (stop - start)

theorem slice_length {data : List α} {start stop : Nat} (inside : stop ≤ data.length := by omega) :
    (slice data start stop).length = stop - start := by
  rw [slice, length_take, length_drop]
  omega

theorem slice_append_drop (data : List α) {start stop : Nat} (ordered : start ≤ stop) :
    slice data start stop ++ data.drop stop = data.drop start := by
  have rest : data.drop stop = (data.drop start).drop (stop - start) := by
    rw [drop_drop, Nat.add_sub_cancel' ordered]
  rw [slice, rest, take_append_drop]

theorem slice_append_slice (data : List α) {start middle stop : Nat} (first : start ≤ middle)
    (second : middle ≤ stop) :
    slice data start middle ++ slice data middle stop = slice data start stop := by
  unfold slice
  have rest : data.drop middle = (data.drop start).drop (middle - start) := by
    rw [drop_drop, Nat.add_sub_cancel' first]
  have whole : stop - start = (middle - start) + (stop - middle) := by omega
  rw [rest, whole, take_add]

theorem slice_drop (data : List α) (offset start stop : Nat) :
    slice (data.drop offset) start stop = slice data (offset + start) (offset + stop) := by
  rw [slice, slice, drop_drop, Nat.add_sub_add_left]

theorem slice_slice (data : List α) {start stop last : Nat} (inside : start + last ≤ stop)
    (first : Nat) :
    slice (slice data start stop) first last = slice data (start + first) (start + last) := by
  rw [slice, slice, drop_take, drop_drop, take_take]
  congr 1
  omega

section Field

variable {field rest : List α} {start stop : Nat}

theorem drop_past (passed : field.length ≤ start) :
    (field ++ rest).drop start = rest.drop (start - field.length) := by
  rw [drop_append, drop_of_length_le passed, nil_append]

theorem slice_past (passed : field.length ≤ start) :
    slice (field ++ rest) start stop = slice rest (start - field.length) (stop - field.length) := by
  rw [slice, slice, drop_past passed, Nat.sub_sub_sub_cancel_right passed]

theorem slice_here (whole : field.length = stop) : slice (field ++ rest) 0 stop = field := by
  rw [slice, drop_zero, Nat.sub_zero, take_left' whole]

end Field

def blocks (size count : Nat) (data : List α) : List (List α) :=
  (List.range count).map fun index => (data.drop (index * size)).take size

theorem blocks_flatten {size : Nat} {parts : List (List α)}
    (uniform : ∀ part ∈ parts, part.length = size) :
    blocks size parts.length parts.flatten = parts := by
  apply ext_getElem
  · rw [blocks, length_map, length_range]
  intro index _ inside
  simp only [blocks, getElem_map, getElem_range]
  rw [flatten_block parts uniform index inside]
  rw [getD_eq_getElem?_getD, getElem?_eq_getElem inside]
  rfl

theorem blocks_succ (size count : Nat) (data : List α) :
    blocks size (count + 1) data = data.take size :: blocks size count (data.drop size) := by
  unfold blocks
  rw [range_succ_eq_map, map_cons, map_map, Nat.zero_mul]
  congr 1
  apply map_congr_left
  intro index _
  rw [Function.comp_apply, drop_drop, Nat.succ_mul, Nat.add_comm]

theorem flatten_blocks {size count : Nat} {data : List α} (length : data.length = count * size) :
    (blocks size count data).flatten = data := by
  induction count generalizing data with
  | zero =>
    rw [Nat.zero_mul] at length
    rw [eq_nil_of_length_eq_zero length]
    rfl
  | succ count ih =>
    rw [Nat.succ_mul] at length
    have rest : (data.drop size).length = count * size := by
      rw [length_drop]
      omega
    rw [blocks_succ, flatten_cons, ih rest, take_append_drop]

theorem blocks_length {size count : Nat} {data : List α} (length : data.length = count * size) :
    ∀ block ∈ blocks size count data, block.length = size := by
  induction count generalizing data with
  | zero =>
    intro block member
    cases member
  | succ count ih =>
    rw [Nat.succ_mul] at length
    have rest : (data.drop size).length = count * size := by
      rw [length_drop]
      omega
    rw [blocks_succ]
    refine forall_mem_cons.mpr ⟨?_, ih rest⟩
    rw [length_take]
    omega

theorem map_blocks_flatMap {Item : Type} {size : Nat} {write : Item → List α} {read : List α → Item}
    (sized : ∀ item, (write item).length = size) (inverse : ∀ item, read (write item) = item)
    (items : List Item) : (blocks size items.length (items.flatMap write)).map read = items := by
  have parts := @blocks_flatten _ size (items.map write) (by
    intro part member
    obtain ⟨item, _, same⟩ := mem_map.mp member
    rw [← same]
    exact sized item)
  rw [length_map, ← flatMap_def] at parts
  rw [parts, map_map]
  have identity : read ∘ write = id := funext inverse
  rw [identity, map_id]

theorem flatMap_map_blocks {Item : Type} {size count : Nat} {write : Item → List α}
    {read : List α → Item} (inverse : ∀ block, block.length = size → write (read block) = block)
    {data : List α} (length : data.length = count * size) :
    ((blocks size count data).map read).flatMap write = data := by
  have same : ((blocks size count data).map read).map write = blocks size count data := by
    rw [map_map]
    exact (map_congr_left fun block member =>
      inverse block (blocks_length length block member)).trans (map_id _)
  rw [flatMap_def, same, flatten_blocks length]

theorem length_flatMap_uniform {Item : Type} {size : Nat} {write : Item → List α}
    (sized : ∀ item, (write item).length = size) (items : List Item) :
    (items.flatMap write).length = items.length * size := by
  rw [flatMap_def, length_flatten_blocks size, length_map]
  intro part member
  obtain ⟨item, _, same⟩ := mem_map.mp member
  rw [← same]
  exact sized item

end Slices

/-! ### Fixed-size fields -/

def array (size : Nat) (bytes : List Byte) : Vector Byte size :=
  Vector.ofFn fun index => bytes.getD index 0

@[simp] theorem array_toList {size : Nat} (bytes : Vector Byte size) :
    array size bytes.toList = bytes := by
  apply Vector.ext
  intro index inside
  simp [array]

theorem toList_array {size : Nat} {bytes : List Byte} (length : bytes.length = size) :
    (array size bytes).toList = bytes := by
  subst length
  apply ext_getElem
  · simp
  · intro index _ inside
    simp [array]

theorem toList_array_slice {data : List Byte} {start stop size : Nat}
    (inside : stop ≤ data.length := by omega) (width : stop - start = size := by decide) :
    (array size (slice data start stop)).toList = slice data start stop :=
  toList_array ((slice_length inside).trans width)

theorem bigEndian_slice {data : List Byte} {start stop size : Nat}
    (inside : stop ≤ data.length := by omega) (width : stop - start = size := by decide) :
    bigEndian size (ofBigEndian (slice data start stop)) = slice data start stop := by
  have length : (slice data start stop).length = size := by
    rw [slice_length inside, width]
  rw [← length]
  exact bigEndian_ofBigEndian _

/-! ### Canonical codecs -/

/-- The values that the encoder accepts are read back, and what the decoder accepts
is the encoding of the value it returns. -/
structure Canonical {α : Type} (Value : α → Prop)
    (encode : α → Except String (List Byte))
    (decode : List Byte → Except String α) : Prop where
  decodes : ∀ value data, Value value → encode value = .ok data → decode data = .ok value
  exact : ∀ data value, decode data = .ok value → Value value ∧ encode value = .ok data

end ReclaimTee
