import Mathlib.Data.List.Basic
import Mathlib.Tactic

/-!
# Contiguous storage with checked accesses

A block of memory is a list of cells.  `slice` is the content of a range,
`write` and `move` are the two ways a program overwrites a range, and both are
partial: they are defined exactly when the ranges that they touch lie inside
the block.  A program built from them is memory safe exactly when it never
returns `none`.

`findSub` is the first occurrence of a pattern, in the way library string
searches compute it.
-/

namespace SolarNet
namespace Lib

variable {α : Type*}

/-- The cells in the range `[start, start + count)`. -/
def slice (cells : List α) (start count : Nat) : List α :=
  (cells.drop start).take count

/-- Overwrite the cells from `start` on with `source`. -/
def write (cells : List α) (start : Nat) (source : List α) : Option (List α) :=
  if start + source.length ≤ cells.length then
    some (cells.take start ++ source ++ cells.drop (start + source.length))
  else
    none

/-- Move `count` cells from `source` to `target`; the ranges may overlap. -/
def move (cells : List α) (target source count : Nat) : Option (List α) :=
  if source + count ≤ cells.length then
    write cells target (slice cells source count)
  else
    none

/-- Grow or cut a block to exactly `size` cells. -/
def resize (cells : List α) (size : Nat) (fill : α) : List α :=
  cells.take size ++ List.replicate (size - cells.length) fill

theorem length_slice {cells : List α} {start count : Nat}
    (hRange : start + count ≤ cells.length) :
    (slice cells start count).length = count := by
  simp only [slice, List.length_take, List.length_drop]
  omega

/-- A write inside the block is defined. -/
theorem write_eq_some {cells : List α} {start : Nat} {source : List α}
    (hRange : start + source.length ≤ cells.length) :
    write cells start source =
      some (cells.take start ++ source ++ cells.drop (start + source.length)) := by
  simp [write, hRange]

theorem length_of_write {cells cells' : List α} {start : Nat} {source : List α}
    (hWrite : write cells start source = some cells') :
    cells'.length = cells.length := by
  unfold write at hWrite
  split at hWrite
  · obtain rfl := Option.some.inj hWrite
    simp only [List.length_append, List.length_take, List.length_drop]
    omega
  · cases hWrite

/-- The range that was written reads back as the source. -/
theorem slice_of_write {cells cells' : List α} {start : Nat} {source : List α}
    (hWrite : write cells start source = some cells') :
    slice cells' start source.length = source := by
  unfold write at hWrite
  split at hWrite
  case isTrue hRange =>
      obtain rfl := Option.some.inj hWrite
      have hPrefix : (cells.take start).length = start := by
        rw [List.length_take]
        omega
      rw [slice, List.append_assoc, List.drop_append_of_le_length (by omega),
        List.drop_of_length_le (by omega), List.nil_append, List.take_left]
  case isFalse => cases hWrite

/-- Writing directly behind a range extends the content of that range. -/
theorem slice_append_of_write {cells cells' : List α} {start stop : Nat}
    {source : List α} (hOrder : start ≤ stop)
    (hWrite : write cells stop source = some cells') :
    slice cells' start (stop + source.length - start) =
      slice cells start (stop - start) ++ source := by
  unfold write at hWrite
  split at hWrite
  case isTrue hRange =>
      obtain rfl := Option.some.inj hWrite
      have hPrefix : (cells.take stop).length = stop := by
        rw [List.length_take]
        omega
      have hCount : stop + source.length - start =
          ((cells.take stop).drop start ++ source).length := by
        simp only [List.length_append, List.length_drop, hPrefix]
        omega
      rw [slice, List.append_assoc,
        List.drop_append_of_le_length (by omega), ← List.append_assoc, hCount,
        List.take_left, slice, List.drop_take]
  case isFalse => cases hWrite

/-- Writing directly in front of a range extends the content of that range. -/
theorem slice_of_write_front {cells cells' : List α} {start : Nat} {source : List α}
    (hWrite : write cells start source = some cells') (count : Nat) :
    slice cells' start (source.length + count) =
      source ++ slice cells (start + source.length) count := by
  unfold write at hWrite
  split at hWrite
  case isTrue hRange =>
      obtain rfl := Option.some.inj hWrite
      have hPrefix : (cells.take start).length = start := by
        rw [List.length_take]
        omega
      rw [slice, List.append_assoc, List.drop_append_of_le_length (by omega),
        List.drop_of_length_le (by omega), List.nil_append, List.take_length_add_append]
      rfl
  case isFalse => cases hWrite

/-- A move inside the block is defined. -/
theorem move_isSome {cells : List α} {target source count : Nat}
    (hSource : source + count ≤ cells.length)
    (hTarget : target + count ≤ cells.length) :
    ∃ cells', move cells target source count = some cells' ∧
      cells'.length = cells.length ∧
      slice cells' target count = slice cells source count := by
  have hLength : (slice cells source count).length = count := length_slice hSource
  obtain ⟨cells', hWrite⟩ :
      ∃ cells', write cells target (slice cells source count) = some cells' :=
    ⟨_, write_eq_some (by omega)⟩
  have hSlice := slice_of_write hWrite
  rw [hLength] at hSlice
  exact ⟨cells', by rw [move, if_pos hSource]; exact hWrite,
    length_of_write hWrite, hSlice⟩

theorem length_of_move {cells cells' : List α} {target source count : Nat}
    (hMove : move cells target source count = some cells') :
    cells'.length = cells.length := by
  unfold move at hMove
  split at hMove
  · exact length_of_write hMove
  · cases hMove

/-- A move whose target range leaves the block is not. -/
theorem move_eq_none {cells : List α} {target source count : Nat}
    (hTarget : ¬ target + count ≤ cells.length) : move cells target source count = none := by
  unfold move
  split
  case isTrue hSource =>
      have hLength : (slice cells source count).length = count := length_slice hSource
      rw [write, hLength, if_neg hTarget]
  case isFalse => rfl

theorem length_resize (cells : List α) (size : Nat) (fill : α) :
    (resize cells size fill).length = size := by
  simp only [resize, List.length_append, List.length_take, List.length_replicate]
  omega

/-- Growing a block keeps the content of every range inside the old block. -/
theorem slice_resize {cells : List α} {size start count : Nat} (fill : α)
    (hRange : start + count ≤ cells.length) (hGrow : cells.length ≤ size) :
    slice (resize cells size fill) start count = slice cells start count := by
  rw [resize, List.take_of_length_le hGrow, slice, slice,
    List.drop_append_of_le_length (by omega),
    List.take_append_of_le_length (by rw [List.length_drop]; omega)]

/-- Dropping cells from a range moves its start. -/
theorem drop_slice (cells : List α) (start count skip : Nat) :
    (slice cells start count).drop skip =
      slice cells (start + skip) (count - skip) := by
  rw [slice, slice, List.drop_take, List.drop_drop]

/-! ## Searching a pattern -/

/-- Position of the first occurrence of `pattern`, scanning from the left.  The
empty pattern occurs at position `0`. -/
def findSub [DecidableEq α] (pattern : List α) : List α → Option Nat
  | [] => if pattern = [] then some 0 else none
  | cell :: cells =>
      if pattern <+: cell :: cells then some 0
      else (findSub pattern cells).map (· + 1)

/-- `pattern` occurs in `cells` at `position`. -/
def OccursAt (pattern cells : List α) (position : Nat) : Prop :=
  position ≤ cells.length ∧ pattern <+: cells.drop position

theorem occursAt_cons_succ {pattern cells : List α} {cell : α} {position : Nat} :
    OccursAt pattern (cell :: cells) (position + 1) ↔
      OccursAt pattern cells position := by
  simp [OccursAt]

/-- A search that succeeds returns an occurrence before which there is none. -/
theorem findSub_eq_some [DecidableEq α] {pattern cells : List α} {position : Nat}
    (hFind : findSub pattern cells = some position) :
    OccursAt pattern cells position ∧
      ∀ earlier, earlier < position → ¬ OccursAt pattern cells earlier := by
  induction cells generalizing position with
  | nil =>
      simp only [findSub] at hFind
      split at hFind
      case isTrue hEmpty =>
          obtain rfl := Option.some.inj hFind
          subst hEmpty
          simp [OccursAt]
      case isFalse => cases hFind
  | cons cell cells ih =>
      simp only [findSub] at hFind
      split at hFind
      case isTrue hHere =>
          obtain rfl := Option.some.inj hFind
          exact ⟨⟨Nat.zero_le _, hHere⟩, fun earlier hEarlier => by omega⟩
      case isFalse hNotHere =>
          obtain ⟨rest, hRest, rfl⟩ := Option.map_eq_some_iff.mp hFind
          obtain ⟨hOccurs, hFirst⟩ := ih hRest
          refine ⟨occursAt_cons_succ.mpr hOccurs, ?_⟩
          intro earlier hEarlier
          cases earlier with
          | zero => exact fun hOccursHere => hNotHere hOccursHere.2
          | succ earlier =>
              rw [occursAt_cons_succ]
              exact hFirst earlier (by omega)

/-- A search that fails was over cells without any occurrence. -/
theorem findSub_eq_none [DecidableEq α] {pattern cells : List α}
    (hFind : findSub pattern cells = none) (position : Nat) :
    ¬ OccursAt pattern cells position := by
  induction cells generalizing position with
  | nil =>
      simp only [findSub] at hFind
      split at hFind
      case isTrue => cases hFind
      case isFalse hNonempty =>
          rintro ⟨-, hOccurs⟩
          simp [hNonempty] at hOccurs
  | cons cell cells ih =>
      simp only [findSub] at hFind
      split at hFind
      case isTrue => cases hFind
      case isFalse hNotHere =>
          cases position with
          | zero => exact fun hOccurs => hNotHere hOccurs.2
          | succ position =>
              rw [occursAt_cons_succ]
              exact ih (Option.map_eq_none_iff.mp hFind) position

end Lib
end SolarNet
