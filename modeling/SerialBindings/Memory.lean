-- Memory as a function of the place: a part of it as a list, and the memory
-- after a list was stored over a part of it.
import Mathlib.Data.List.Basic

namespace memory

variable {α : Type}

/-- The `n` values from the place `i` on. -/
def cells (m : Nat → α) (i n : Nat) : List α := (List.range' i n).map m

/-- The memory after the list `l` was stored from the place `i` on. -/
def store (m : Nat → α) (i : Nat) (l : List α) : Nat → α :=
  fun j => if i ≤ j then (l[j - i]?).getD (m j) else m j

variable (m : Nat → α) (i j n k : Nat) (l : List α)

@[simp] theorem cells_length : (cells m i n).length = n := by
  simp [cells]

@[simp] theorem cells_none : cells m i 0 = [] := rfl

theorem cells_add : cells m i (n + k) = cells m i n ++ cells m (i + n) k := by
  simp [cells, ← List.range'_append_1]

theorem cells_take : (cells m i n).take k = cells m i (min k n) := by
  rcases Nat.le_total k n with h | h
  · obtain ⟨d, rfl⟩ := Nat.exists_eq_add_of_le h
    rw [Nat.min_eq_left h, cells_add]
    simp
  · rw [Nat.min_eq_right h]
    apply List.take_of_length_le
    simp [h]

/-- A part of the memory from a later place on. -/
theorem cells_shift : cells (fun a => m (i + a)) 0 n = cells m i n := by
  apply List.ext_getElem
  · simp
  · simp [cells]

theorem cells_congr {m m' : Nat → α} (h : ∀ a, i ≤ a → a < i + n → m a = m' a) :
    cells m i n = cells m' i n := by
  unfold cells
  apply List.map_congr_left
  intro a ha
  rw [List.mem_range'_1] at ha
  exact h a ha.1 ha.2

/-- A part before the stored list is as it was. -/
theorem cells_store_before (h : j + n ≤ i) : cells (store m i l) j n = cells m j n := by
  apply cells_congr
  intro a _ ha
  unfold store
  rw [if_neg (by omega)]

/-- The stored list is what stands where it was stored. -/
theorem cells_store_self : cells (store m i l) i l.length = l := by
  apply List.ext_getElem?
  intro a
  unfold cells
  rw [List.getElem?_map]
  by_cases ha : a < l.length
  · rw [List.getElem?_range' ha]
    simp [store, ha]
  · have ha := Nat.not_lt.mp ha
    rw [List.getElem?_eq_none ha, List.getElem?_eq_none (by simp [ha])]
    rfl

/-- Storing right after a part adds the stored list to it. -/
theorem cells_store_next : cells (store m n l) 0 (n + l.length) = cells m 0 n ++ l := by
  rw [cells_add, Nat.zero_add, cells_store_before m n 0 n l (by omega), cells_store_self]

end memory
