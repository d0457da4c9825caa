import Mathlib.Tactic.Common

/-! # Reading a range block by block

A sequence indexed by natural numbers is cut into blocks of size `b`.  Visiting the
blocks that a range touches, and taking of the first and of the last one only the part
inside the range, gives the range back.
-/

namespace LightOS.Lib

variable {α : Type*}

/-- The elements of `f` at positions `lo`, …, `hi - 1`. -/
def slice (f : Nat → α) (lo hi : Nat) : List α := (List.range' lo (hi - lo)).map f

@[simp] theorem slice_length (f : Nat → α) (lo hi : Nat) : (slice f lo hi).length = hi - lo := by
  simp [slice]

theorem slice_getElem (f : Nat → α) {lo hi i : Nat} (inside : i < (slice f lo hi).length) :
    (slice f lo hi)[i] = f (lo + i) := by
  simp [slice]

theorem slice_empty (f : Nat → α) (n : Nat) : slice f n n = [] := by
  simp [slice]

theorem slice_append (f : Nat → α) {lo mid hi : Nat} (first : lo ≤ mid) (second : mid ≤ hi) :
    slice f lo mid ++ slice f mid hi = slice f lo hi := by
  have split : List.range' lo (mid - lo) ++ List.range' mid (hi - mid) =
      List.range' lo (hi - lo) := by
    have joined := List.range'_append_1 (s := lo) (m := mid - lo) (n := hi - mid)
    have lower : lo + (mid - lo) = mid := by omega
    have whole : mid - lo + (hi - mid) = hi - lo := by omega
    rw [lower, whole] at joined
    exact joined
  rw [slice, slice, ← List.map_append, split, slice]

theorem slice_eq_range (f : Nat → α) (lo n : Nat) :
    slice f lo (lo + n) = (List.range n).map (fun i => f (lo + i)) := by
  simp only [slice, Nat.add_sub_cancel_left, List.range'_eq_map_range, List.map_map,
    Function.comp_def]

theorem slice_eq_take_drop (f : Nat → α) {lo hi n : Nat} (inside : hi ≤ n) :
    slice f lo hi = ((slice f 0 n).drop lo).take (hi - lo) := by
  apply List.ext_getElem
  · simp; omega
  · intro i _ _
    simp [slice]

/-- The part of block `index` that lies in `lo … hi - 1`, for a visit that starts at
    block `lo / b` and ends at block `hi / b`. -/
def blockPart (f : Nat → α) (b lo hi index : Nat) : List α :=
  slice f (if index = lo / b then lo else index * b)
    (if index = hi / b then hi else (index + 1) * b)

/-- Visiting the blocks one after the other reads the range from `lo` to `hi`. -/
theorem blockParts_flatten (f : Nat → α) {b : Nat} (pos : 0 < b) {lo hi : Nat} (le : lo ≤ hi) :
    ((List.range' (lo / b) (hi / b + 1 - lo / b)).map (blockPart f b lo hi)).flatten =
      slice f lo hi := by
  have blocks : lo / b ≤ hi / b := Nat.div_le_div_right le
  -- on the number of blocks after the first; `lo` moves to the start of the second block
  induction gap : hi / b - lo / b generalizing lo with
  | zero =>
      have same : hi / b = lo / b := by omega
      simp [blockPart, same]
  | succ gap ih =>
      have startNext : (lo / b + 1) * b / b = lo / b + 1 := Nat.mul_div_cancel _ pos
      have beforeNext : lo < (lo / b + 1) * b := by
        rw [Nat.add_mul, Nat.one_mul, Nat.mul_comm]
        exact Nat.lt_mul_div_succ lo pos
      have nextBefore : (lo / b + 1) * b ≤ hi := by
        calc (lo / b + 1) * b ≤ hi / b * b := Nat.mul_le_mul_right b (by omega)
          _ ≤ hi := Nat.div_mul_le_self hi b
      have rest := ih nextBefore (by rw [startNext]; omega) (by rw [startNext]; omega)
      have head : blockPart f b lo hi (lo / b) = slice f lo ((lo / b + 1) * b) := by
        simp only [blockPart, if_true, if_neg (show lo / b ≠ hi / b by omega)]
      have others : ∀ index ∈ List.range' (lo / b + 1) (hi / b + 1 - (lo / b + 1)),
          blockPart f b lo hi index = blockPart f b ((lo / b + 1) * b) hi index := by
        intro index member
        have after : lo / b + 1 ≤ index := (List.mem_range'_1.mp member).1
        have start : (if index = lo / b + 1 then (lo / b + 1) * b else index * b) = index * b := by
          split
          · next same => rw [same]
          · rfl
        simp only [blockPart, startNext, if_neg (show index ≠ lo / b by omega), start]
      have blocks : hi / b + 1 - lo / b = (hi / b + 1 - (lo / b + 1)) + 1 := by omega
      rw [blocks, List.range'_succ,
        List.map_cons, List.flatten_cons, head, List.map_congr_left others]
      rw [startNext] at rest
      rw [rest, slice_append f (Nat.le_of_lt beforeNext) nextBefore]

end LightOS.Lib
