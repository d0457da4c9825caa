import Mathlib.Tactic.Common

/-! # Lines, and lines cut into pieces

A text is its lines with a separator between them, `List.splitOn`.  A reader whose buffer is
too short for a line sees pieces of it.  Selecting pieces instead of lines gives the same
result if and only if no line that would be selected has been cut.
-/

namespace LightOS.Lib

variable {α : Type*}

/-- Lines that are complete, each with its separator, and what follows the last. -/
def joinLines (sep : α) (lines : List (List α)) (rest : List α) : List α :=
  lines.foldr (fun line rest => line ++ sep :: rest) rest

section Joined

variable {sep : α} {line rest : List α} {lines : List (List α)}

@[simp] theorem joinLines_nil : joinLines sep [] rest = rest := rfl

@[simp] theorem joinLines_cons :
    joinLines sep (line :: lines) rest = line ++ sep :: joinLines sep lines rest := rfl

theorem joinLines_eq_nil : joinLines sep lines rest = [] ↔ lines = [] ∧ rest = [] := by
  cases lines <;> simp

theorem length_joinLines (sep : α) (lines : List (List α)) (rest : List α) :
     lines.length + rest.length ≤ (joinLines sep lines rest).length ∧
    ∀ line ∈ lines, line.length ≤ (joinLines sep lines rest).length := by
  induction lines with
  | nil => simp
  | cons line lines ih =>
      obtain ⟨total, each⟩ := ih
      rw [joinLines_cons, List.length_append, List.length_cons, List.length_cons,
        List.forall_mem_cons]
      refine ⟨by omega, by omega, fun other member => ?_⟩
      have fits := each other member
      omega

theorem joinLines_append (more : List α) :
    joinLines sep lines rest ++ more = joinLines sep lines (rest ++ more) := by
  induction lines with
  | nil => rfl
  | cons line lines ih => simp [ih]

/-- A text ends with a separator if nothing follows its complete lines. -/
theorem getLast?_joinLines (lines : List (List α)) (none : sep ∉ rest) :
    (joinLines sep lines rest).getLast? = some sep ↔ lines ≠ [] ∧ rest = [] := by
  induction lines with
  | nil =>
      rw [joinLines_nil]
      simp only [ne_eq, not_true, false_and, iff_false]
      exact fun last => none (List.mem_of_getLast? last)
  | cons line lines ih =>
      have behind : (line ++ sep :: joinLines sep lines rest).getLast? =
          (sep :: joinLines sep lines rest).getLast? := by
        rw [List.getLast?_append, List.getLast?_cons, Option.some_or]
      rw [joinLines_cons, behind]
      by_cases ended : joinLines sep lines rest = []
      · simp [joinLines_eq_nil.mp ended]
      · rw [List.getLast?_cons_of_ne_nil ended, ih]
        rw [joinLines_eq_nil, not_and'] at ended
        simpa using ended

/-- Every text is some complete lines and a rest without a separator. -/
theorem exists_joinLines (sep : α) (text : List α) :
    ∃ lines rest, text = joinLines sep lines rest ∧ (∀ line ∈ lines, sep ∉ line) ∧ sep ∉ rest := by
  induction text with
  | nil => exact ⟨[], [], rfl, by simp, by simp⟩
  | cons c text ih =>
      obtain ⟨lines, rest, rfl, noneInLines, noneInRest⟩ := ih
      by_cases same : c = sep
      · exact ⟨[] :: lines, rest, by simp [same], by simpa using noneInLines, noneInRest⟩
      · cases lines with
        | nil => exact ⟨[], c :: rest, rfl, by simp, by simp [Ne.symm same, noneInRest]⟩
        | cons line lines =>
            refine ⟨(c :: line) :: lines, rest, rfl, ?_, noneInRest⟩
            rw [List.forall_mem_cons] at noneInLines ⊢
            exact ⟨by simp [Ne.symm same, noneInLines.1], noneInLines.2⟩

variable [BEq α] [LawfulBEq α]

theorem splitOn_joinLines (none : ∀ line ∈ lines, sep ∉ line) :
    (joinLines sep lines rest).splitOn sep = lines ++ rest.splitOn sep := by
  induction lines with
  | nil => rfl
  | cons line lines ih =>
      obtain ⟨here, later⟩ := List.forall_mem_cons.mp none
      rw [joinLines_cons, List.splitOn_append_cons_self_of_not_mem here, ih later,
        List.cons_append]

/-- The line that begins a text that goes on from one without a separator. -/
theorem splitOn_append_of_not_mem {first : List α} (none : sep ∉ first) (text : List α) :
    ∃ line lines, text.splitOn sep = line :: lines ∧
      (first ++ text).splitOn sep = (first ++ line) :: lines := by
  obtain ⟨complete, last, rfl, noneInLines, noneInLast⟩ := exists_joinLines sep text
  cases complete with
  | nil =>
      have joined : sep ∉ first ++ last := by simp [none, noneInLast]
      exact ⟨last, [], List.splitOn_eq_singleton noneInLast, List.splitOn_eq_singleton joined⟩
  | cons line complete =>
      have joined : sep ∉ first ++ line := by
        simp [none, (List.forall_mem_cons.mp noneInLines).1]
      refine ⟨line, complete ++ last.splitOn sep, splitOn_joinLines noneInLines, ?_⟩
      rw [joinLines_cons, ← List.append_assoc, List.splitOn_append_cons_self_of_not_mem joined,
        splitOn_joinLines (List.forall_mem_cons.mp noneInLines).2]

end Joined

/-- Pieces of `n` elements, the last one with what is left. -/
def chunks (n : Nat) (line : List α) : List (List α) :=
  if _left : line ≠ [] ∧ 0 < n then line.take n :: chunks n (line.drop n) else []
termination_by line.length
decreasing_by
  have nonempty := List.length_pos_iff.mpr _left.1
  rw [List.length_drop]
  omega

section Chunks

variable {n : Nat} {line : List α}

@[simp] theorem chunks_nil : chunks n ([] : List α) = [] := by
  rw [chunks, dif_neg (fun left => left.1 rfl)]

theorem chunks_eq (nonempty : line ≠ []) (positive : 0 < n) :
    chunks n line = line.take n :: chunks n (line.drop n) := by
  rw [chunks, dif_pos ⟨nonempty, positive⟩]

/-- A line that fits is one piece. -/
theorem chunks_of_fits (nonempty : line ≠ []) (fits : line.length ≤ n) :
    chunks n line = [line] := by
  have positive : 0 < n := Nat.lt_of_lt_of_le (List.length_pos_iff.mpr nonempty) fits
  rw [chunks_eq nonempty positive, List.take_of_length_le fits, List.drop_of_length_le fits,
    chunks_nil]

/-- A full piece in front of the others. -/
theorem chunks_append {first : List α} (full : first.length = n) (positive : 0 < n) :
    chunks n (first ++ line) = first :: chunks n line := by
  have nonempty : first ++ line ≠ [] := by
    intro empty
    have none := congrArg List.length (List.append_eq_nil_iff.mp empty).1
    rw [full, List.length_nil] at none
    omega
  rw [chunks_eq nonempty positive, List.take_left' full, List.drop_left' full]

/-- The pieces make up the line, and each has something in it and fits. -/
theorem chunks_spec (positive : 0 < n) (line : List α) :
    (chunks n line).flatten = line ∧ ∀ piece ∈ chunks n line, piece ≠ [] ∧ piece.length ≤ n := by
  induction line using chunks.induct n with
  | case1 line left ih =>
      obtain ⟨whole, each⟩ := ih
      rw [chunks_eq left.1 left.2]
      constructor
      · rw [List.flatten_cons, whole, List.take_append_drop]
      · rw [List.forall_mem_cons]
        refine ⟨⟨?_, by rw [List.length_take]; omega⟩, each⟩
        rw [Ne, List.take_eq_nil_iff, not_or]
        exact ⟨Nat.pos_iff_ne_zero.mp positive, left.1⟩
  | case2 line none =>
      have empty : line = [] := by
        by_contra nonempty
        exact none ⟨nonempty, positive⟩
      subst empty
      simp

/-- Few pieces. -/
theorem length_chunks_lt (positive : 0 < n) (line : List α) :
    n * (chunks n line).length < line.length + n := by
  induction line using chunks.induct n with
  | case1 line left ih =>
      rw [chunks_eq left.1 left.2, List.length_cons, Nat.mul_succ]
      rw [List.length_drop] at ih
      rcases Nat.le_total n line.length with more | last
      · omega
      · have some_ := List.length_pos_iff.mpr left.1
        rw [List.drop_of_length_le last, chunks_nil, List.length_nil]
        omega
  | case2 line none =>
      rw [chunks, dif_neg none, List.length_nil]
      omega

theorem chunks_eq_nil_iff (positive : 0 < n) : chunks n line = [] ↔ line = [] := by
  constructor
  · intro none
    rw [← (chunks_spec positive line).1, none, List.flatten_nil]
  · rintro rfl
    exact chunks_nil

/-- One piece is the whole line. -/
theorem chunks_eq_singleton_iff (positive : 0 < n) :
    chunks n line = [line] ↔ line ≠ [] ∧ line.length ≤ n := by
  constructor
  · intro one
    have spec := (chunks_spec positive line).2
    rw [one] at spec
    exact spec line (List.mem_singleton_self line)
  · exact fun fits => chunks_of_fits fits.1 fits.2

/-- A line in two parts is one piece only if one of them is empty. -/
theorem chunks_append_chunks_iff {front back : List α} (positive : 0 < n)
    (nonempty : front ++ back ≠ []) :
    chunks n front ++ chunks n back = [front ++ back] ↔
      (front ++ back).length ≤ n ∧ (front ≠ [] → back = []) := by
  by_cases left : front = []
  · subst left
    rw [chunks_nil, List.nil_append, List.nil_append, chunks_eq_singleton_iff positive]
    simp_all
  · by_cases right : back = []
    · subst right
      rw [chunks_nil, List.append_nil, List.append_nil, chunks_eq_singleton_iff positive]
      simp [left]
    · have two : chunks n front ++ chunks n back ≠ [front ++ back] := by
        intro one
        have count := congrArg List.length one
        rw [List.length_append, List.length_singleton] at count
        have some := List.length_pos_iff.mpr (mt (chunks_eq_nil_iff positive).mp left)
        have some' := List.length_pos_iff.mpr (mt (chunks_eq_nil_iff positive).mp right)
        omega
      simp [two, left, right]

end Chunks

section Selected

variable {select : List α → Bool} {line : List α} {pieces : List (List α)}
variable {items : List (List α × List (List α))}

/-- How a reader may cut a line: into pieces that make it up and have something in them, and of
    which one is selected only if the line is. -/
structure CutUp (select : List α → Bool) (line : List α) (pieces : List (List α)) : Prop where
  whole : pieces.flatten = line
  nonempty : ∀ piece ∈ pieces, piece ≠ []
  selected : ∀ piece ∈ pieces, select piece = true → select line = true

theorem CutUp.filter_of_not (cut : CutUp select line pieces) (unselected : ¬ select line = true) :
    pieces.filter select = [] := by
  rw [List.filter_eq_nil_iff]
  exact fun piece member selected => unselected (cut.selected piece member selected)

/-- Pieces that are not selected are missed in the length. -/
theorem filter_chars (select : List α → Bool) (nonempty : ∀ piece ∈ pieces, piece ≠ []) :
    (pieces.filter select).flatten.length ≤ pieces.flatten.length ∧
      ((pieces.filter select).flatten.length = pieces.flatten.length →
        pieces.filter select = pieces) := by
  induction pieces with
  | nil => exact ⟨Nat.le_refl _, fun _ => rfl⟩
  | cons piece pieces ih =>
      obtain ⟨here, later⟩ := List.forall_mem_cons.mp nonempty
      obtain ⟨bound, all⟩ := ih later
      have positive := List.length_pos_iff.mpr here
      rw [List.filter_cons]
      split
      · simp only [List.flatten_cons, List.length_append, List.cons.injEq, true_and]
        exact ⟨by omega, fun same => all (by omega)⟩
      · simp only [List.flatten_cons, List.length_append]
        exact ⟨by omega, fun same => by omega⟩

/-- What is selected of the pieces is no longer than what is selected of the lines, and as long
    only if all pieces of the lines selected are. -/
theorem selected_chars (cut : ∀ item ∈ items, CutUp select item.1 item.2) :
    ((items.flatMap Prod.snd).filter select).flatten.length ≤
        ((items.map Prod.fst).filter select).flatten.length ∧
      (((items.flatMap Prod.snd).filter select).flatten.length =
          ((items.map Prod.fst).filter select).flatten.length →
        ∀ item ∈ items, select item.1 = true → item.2.filter select = item.2) := by
  induction items with
  | nil => simp
  | cons item items ih =>
      obtain ⟨here, later⟩ := List.forall_mem_cons.mp cut
      obtain ⟨bound, all⟩ := ih later
      obtain ⟨fewer, same⟩ := filter_chars select here.nonempty
      rw [here.whole] at fewer same
      simp only [List.flatMap_cons, List.filter_append, List.flatten_append, List.length_append,
        List.map_cons, List.filter_cons, List.forall_mem_cons]
      split
      · next selected =>
          simp only [List.flatten_cons, List.length_append]
          exact ⟨by omega, fun equal => ⟨fun _ => same (by omega), all (by omega)⟩⟩
      · next unselected =>
          rw [here.filter_of_not unselected, List.flatten_nil, List.length_nil, Nat.zero_add]
          exact ⟨bound, fun equal => ⟨fun selected => absurd selected unselected, all equal⟩⟩

/-- If they are, there are at least as many pieces selected as lines, and as many only if no
    line selected has been cut. -/
theorem selected_count (cut : ∀ item ∈ items, CutUp select item.1 item.2)
    (blank : select [] = false)
    (all : ∀ item ∈ items, select item.1 = true → item.2.filter select = item.2) :
    ((items.map Prod.fst).filter select).length ≤
        ((items.flatMap Prod.snd).filter select).length ∧
      (((items.flatMap Prod.snd).filter select).length =
          ((items.map Prod.fst).filter select).length →
        ∀ item ∈ items, select item.1 = true → item.2 = [item.1]) := by
  induction items with
  | nil => simp
  | cons item items ih =>
      obtain ⟨here, later⟩ := List.forall_mem_cons.mp cut
      obtain ⟨allHere, allLater⟩ := List.forall_mem_cons.mp all
      obtain ⟨bound, single⟩ := ih later allLater
      simp only [List.flatMap_cons, List.filter_append, List.length_append, List.map_cons,
        List.filter_cons, List.forall_mem_cons]
      split
      · next selected =>
          have some : item.2 ≠ [] := by
            intro none
            have empty : item.1 = [] := by rw [← here.whole, none, List.flatten_nil]
            rw [empty, blank] at selected
            exact absurd selected Bool.false_ne_true
          have positive := List.length_pos_iff.mpr some
          rw [allHere selected, List.length_cons]
          refine ⟨by omega, fun equal => ⟨fun _ => ?_, single (by omega)⟩⟩
          obtain ⟨piece, one⟩ := List.length_eq_one_iff.mp (show item.2.length = 1 by omega)
          rw [one, ← here.whole, one, List.flatten_singleton]
      · next unselected =>
          rw [here.filter_of_not unselected, List.length_nil, Nat.zero_add]
          exact ⟨bound, fun equal => ⟨fun selected => absurd selected unselected, single equal⟩⟩

/-- Selecting pieces selects the lines, if and only if no line selected has been cut. -/
theorem select_pieces_iff (cut : ∀ item ∈ items, CutUp select item.1 item.2)
    (blank : select [] = false) :
    (items.flatMap Prod.snd).filter select = (items.map Prod.fst).filter select ↔
      ∀ item ∈ items, select item.1 = true → item.2 = [item.1] := by
  constructor
  · intro same
    have all := (selected_chars cut).2 (by rw [same])
    exact (selected_count cut blank all).2 (by rw [same])
  · intro single
    induction items with
    | nil => rfl
    | cons item items ih =>
        obtain ⟨here, later⟩ := List.forall_mem_cons.mp cut
        obtain ⟨singleHere, singleLater⟩ := List.forall_mem_cons.mp single
        rw [List.flatMap_cons, List.filter_append, ih later singleLater, List.map_cons,
          List.filter_cons]
        split
        · next selected =>
            rw [singleHere selected, List.filter_cons_of_pos selected, List.filter_nil,
              List.singleton_append]
        · next unselected => rw [here.filter_of_not unselected, List.nil_append]

end Selected

end LightOS.Lib
