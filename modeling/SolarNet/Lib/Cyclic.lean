import Mathlib.Data.Int.CardIntervalMod
import Mathlib.Data.List.Nodup
import Mathlib.Tactic

/-!
# Windows of a list that is repeated without end

`items[k % items.length]?` for `k = 0, 1, 2, …` goes round a list.  A window is a
stretch of consecutive positions, from anywhere and of any length.  When the
items are different, a window of length `m` over `n` items contains each of them
`⌊m / n⌋` or `⌈m / n⌉` times, and a window of length `n` contains each once.
-/

namespace SolarNet
namespace Lib

/-- The positions of a window that have a given residue. -/
theorem count_residue_window {n residue : Nat} (hResidue : residue < n) (start m : Nat) :
    (Nat.count (fun k => (start + k) % n = residue) m = m / n) ∨
      Nat.count (fun k => (start + k) % n = residue) m = (m + n - 1) / n := by
  have hPos : 0 < n := by omega
  -- the residue seen from the start of the window
  have hShift : ∀ k, (start + k) % n = residue ↔ k ≡ residue + (n - start % n) [MOD n] := by
    intro k
    have hStart : start + (residue + (n - start % n)) = residue + n * (start / n + 1) := by
      have hDiv := Nat.div_add_mod start n
      have hLt := Nat.mod_lt start hPos
      rw [Nat.mul_add]
      omega
    have hTarget : start + (residue + (n - start % n)) ≡ residue [MOD n] := by
      rw [hStart, Nat.ModEq, Nat.add_mul_mod_self_left]
    constructor
    · intro hMod
      refine Nat.ModEq.add_left_cancel' start (Nat.ModEq.trans ?_ hTarget.symm)
      rw [Nat.ModEq, hMod, Nat.mod_eq_of_lt hResidue]
    · intro hMod
      have hEq : start + k ≡ residue [MOD n] := (hMod.add_left start).trans hTarget
      rw [hEq, Nat.mod_eq_of_lt hResidue]
  have hCount : Nat.count (fun k => (start + k) % n = residue) m =
      m / n + if (residue + (n - start % n)) % n < m % n then 1 else 0 := by
    rw [Nat.count_eq_card_filter_range, Finset.filter_congr fun k _ => hShift k,
      ← Nat.count_eq_card_filter_range, Nat.count_modEq_card m hPos]
  rw [hCount]
  split
  case isTrue hLt =>
    right
    have hUp : m + n - 1 = (m % n - 1) + n * (m / n + 1) := by
      have hDiv := Nat.div_add_mod m n
      rw [Nat.mul_add]
      omega
    have hSmall : (m % n - 1) / n = 0 := by
      have hMod := Nat.mod_lt m hPos
      exact Nat.div_eq_of_lt (by omega)
    rw [hUp, Nat.add_mul_div_left _ _ hPos, hSmall, Nat.zero_add]
  case isFalse => exact .inl rfl

section Window

variable {α : Type*} [DecidableEq α] {items window : List α} {start : Nat}

/-- How often an item occurs in a window is how often its position comes round. -/
theorem count_window_eq (hNodup : items.Nodup) {residue : Nat}
    (hResidue : residue < items.length)
    (hWindow : ∀ k, k < window.length → window[k]? = items[(start + k) % items.length]?) :
    window.count (items.get ⟨residue, hResidue⟩) =
      Nat.count (fun k => (start + k) % items.length = residue) window.length := by
  have hMap : window.map some =
      (List.range window.length).map fun k => items[(start + k) % items.length]? := by
    apply List.ext_getElem?
    intro k
    rw [List.getElem?_map, List.getElem?_map]
    by_cases hK : k < window.length
    · have hNext := hWindow k hK
      rw [List.getElem?_eq_getElem hK] at hNext ⊢
      rw [List.getElem?_range hK, Option.map_some, Option.map_some, hNext]
    · rw [List.getElem?_eq_none (by omega), List.getElem?_eq_none (by simpa using hK)]
      rfl
  have hPlace : ∀ k, items[(start + k) % items.length]? = some (items.get ⟨residue, hResidue⟩) ↔
      (start + k) % items.length = residue := by
    intro k
    have hLt : (start + k) % items.length < items.length := Nat.mod_lt _ (by omega)
    rw [List.getElem?_eq_getElem hLt, Option.some.injEq, List.get_eq_getElem,
      hNodup.getElem_inj_iff]
  rw [← List.count_map_of_injective window some (Option.some_injective α), hMap, List.count,
    List.countP_map, Nat.count]
  refine List.countP_congr fun k _ => ?_
  simpa using hPlace k

/-- Each item occurs `⌊m / n⌋` or `⌈m / n⌉` times in a window of length `m`. -/
theorem count_window (hNodup : items.Nodup) {item : α} (hItem : item ∈ items)
    (hWindow : ∀ k, k < window.length → window[k]? = items[(start + k) % items.length]?) :
    window.count item = window.length / items.length ∨
      window.count item = (window.length + items.length - 1) / items.length := by
  obtain ⟨⟨residue, hResidue⟩, rfl⟩ := List.get_of_mem hItem
  rw [count_window_eq hNodup hResidue hWindow]
  exact count_residue_window hResidue start window.length

omit [DecidableEq α] in
theorem mem_of_mem_window
    (hWindow : ∀ k, k < window.length → window[k]? = items[(start + k) % items.length]?)
    {item : α} (hItem : item ∈ window) : item ∈ items := by
  obtain ⟨k, hK, hEq⟩ := List.getElem_of_mem hItem
  have hAt := hWindow k hK
  rw [List.getElem?_eq_getElem hK, hEq] at hAt
  exact List.mem_of_getElem? hAt.symm

/-- A window that is as long as the list has no item twice. -/
theorem nodup_window (hNodup : items.Nodup) (hLength : window.length = items.length)
    (hWindow : ∀ k, k < window.length → window[k]? = items[(start + k) % items.length]?) :
    window.Nodup := by
  rw [List.nodup_iff_count_le_one]
  intro item
  by_cases hMem : item ∈ items
  · have hPos : 0 < items.length := List.length_pos_of_mem hMem
    have hTwice : (items.length + items.length - 1) / items.length = 1 := by
      rw [Nat.div_eq_iff hPos]
      omega
    rcases count_window hNodup hMem hWindow with hFloor | hCeil
    · rw [hFloor, hLength, Nat.div_self hPos]
    · rw [hCeil, hLength, hTwice]
  · have hNot : item ∉ window := fun hIn => hMem (mem_of_mem_window hWindow hIn)
    rw [List.count_eq_zero_of_not_mem hNot]
    omega

end Window

end Lib
end SolarNet
