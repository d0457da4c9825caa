import LightOS.Programs.Grep

/-! # The lines that grep searches

The inner loop searches the complete lines of the buffer and keeps what follows them, so a line
comes to the search as a whole, unless it fills the buffer.
-/

namespace LightOS.Programs

open Lib Filesystem
open Kernel (NEWLINE)

section Buffer

variable {data data' : CharPtr} {start : Nat} {line rest carry bytes : List UInt8}

theorem Holds.left (holds : Holds data start (line ++ rest)) : Holds data start line := by
  intro k inside
  have shorter : k < (line ++ rest).length := by
    rw [List.length_append]
    omega
  rw [holds k shorter, List.getElem_append_left inside]

theorem Holds.right (holds : Holds data start (line ++ rest)) :
    Holds data (start + line.length) rest := by
  intro k inside
  have later : line.length + k < (line ++ rest).length := by
    rw [List.length_append]
    omega
  rw [Nat.add_assoc, holds _ later, List.getElem_append_right (Nat.le_add_right ..)]
  simp

theorem Holds.of_same (holds : Holds data start line)
    (same : ∀ k, start ≤ k → k < start + line.length → data' k = data k) :
    Holds data' start line := by
  intro k inside
  rw [same _ (Nat.le_add_right ..) (Nat.add_lt_add_left inside _)]
  exact holds k inside

theorem holds_of_spells (spells : Spells data start line) : Holds data start line :=
  fun k inside => (spells.char k inside).1

theorem holds_nil : Holds data start [] := fun _ inside => absurd inside (Nat.not_lt_zero _)

/-- A line with a NUL put at its end. -/
theorem Holds.ended (holds : Holds data start line) (nonzero : ∀ c ∈ line, c ≠ 0) :
    Spells (Function.update data (start + line.length) 0) start line := by
  have same : Holds (Function.update data (start + line.length) 0) start line :=
    holds.of_same fun k _ before => Function.update_of_ne (Nat.ne_of_lt before) _ _
  exact same.spells nonzero (Function.update_self ..)

/-- What is read is put behind what has been kept. -/
theorem place_holds (holds : Holds data 0 carry) :
    Holds (place data carry.length bytes) 0 (carry ++ bytes) := by
  intro k inside
  rw [Nat.zero_add, place]
  split
  · next before =>
      have kept := holds k before
      rw [Nat.zero_add] at kept
      rw [kept, List.getElem_append_left before]
  · next behind =>
      rw [List.getElem_append_right (Nat.le_of_not_lt behind), List.getElem?_eq_getElem,
        Option.getD_some]

theorem place_past {k : Nat} (past : carry.length + bytes.length ≤ k) :
    place data carry.length bytes k = data k := by
  rw [place, if_neg (by omega), List.getElem?_eq_none (by omega), Option.getD_none]

end Buffer

section Writes

variable {select : List UInt8 → Bool} {name : List UInt8} {lines more : List (List UInt8)}

theorem writes_append :
    writes select name (lines ++ more) = writes select name lines ++ writes select name more := by
  rw [writes, List.filter_append, List.flatMap_append]
  rfl

theorem writes_cons {line : List UInt8} :
    writes select name (line :: lines) = writes select name [line] ++ writes select name lines := by
  rw [← writes_append, List.singleton_append]

theorem selects_nil {pattern : List UInt8} (nonempty : pattern ≠ []) :
    selects pattern [] = false := by
  simp [selects, nonempty]

theorem writes_blank (blank : select [] = false) : writes select name [[]] = [] := by
  rw [writes, List.filter_cons_of_neg (by simp [blank])]
  rfl

end Writes

/-- What the inner loop leaves of a buffer with the lines `lines` and `rest` behind them, of
    which `last` is the end: `rest` is either kept or searched, and what is behind it only
    changes if a NUL is put there. -/
structure Leaves (select : List UInt8 → Bool) (name : List UInt8) (data : CharPtr) (last : Nat)
    (lines : List (List UInt8)) (rest : List UInt8) (kept : Bool) (out : List (List UInt8))
    (scanned : Scanned) : Prop where
  written : scanned.out = out ++ writes select name (if kept then lines else lines ++ [rest])
  inUse : scanned.last = (if kept then rest else []).length
  carried : Holds scanned.data 0 (if kept then rest else [])
  after : ∀ k, last ≤ k → scanned.data k = data k ∨ scanned.data k = 0
  cut : rest ≠ [] → scanned.data last = 0
  whole : rest = [] → lines ≠ [] → scanned.data last = data last

section Inner

variable {s fname data : CharPtr} {pattern name rest : List UInt8} {lines : List (List UInt8)}
variable {cnt last rounds fuel lineStart : Nat} {out : List (List UInt8)} {kept : Bool}

/-- One round on a line that is searched. -/
theorem lineLoop_search {line : List UInt8} (asked : Asked s fname pattern name rounds)
    (holds : Holds data lineStart line) (nonzero : ∀ c ∈ line, c ≠ 0)
    (unbroken : NEWLINE ∉ line) (inside : lineStart + line.length ≤ last)
    (lineEnds : lineStart + line.length = last ∨ data (lineStart + line.length) = NEWLINE)
    (lineFits : line.length ≤ BUFSIZE)
    (searched : ¬ (data (lineStart + line.length) ≠ NEWLINE ∧ cnt ≠ 0 ∧ lineStart ≠ 0)) :
    lineLoop s fname pattern.length cnt last rounds data lineStart out (fuel + 1) =
      if last ≤ lineStart + line.length + 1 then
        some ⟨Function.update data (lineStart + line.length) 0, 0,
          out ++ writes (selects pattern) name [line]⟩
      else
        lineLoop s fname pattern.length cnt last rounds
          (Function.update data (lineStart + line.length) 0) (lineStart + line.length + 1)
          (out ++ writes (selects pattern) name [line]) fuel := by
  have found : scanLine data lineStart (last - lineStart) = lineStart + line.length :=
    scanLine_line holds unbroken (by omega) (lineEnds.imp_left (by omega))
  rw [lineLoop, found, if_neg searched, printIfFound_spells asked
    (holds.ended nonzero) lineFits]
  rfl

/-- The last round, on what follows the complete lines. -/
theorem lineLoop_rest (asked : Asked s fname pattern name rounds)
    (holds : Holds data lineStart rest) (nonzero : ∀ c ∈ rest, c ≠ 0) (unbroken : NEWLINE ∉ rest)
    (restFits : rest.length ≤ BUFSIZE) (ends : lineStart + rest.length = last)
    (keeps : kept = true ↔ data last ≠ NEWLINE ∧ cnt ≠ 0 ∧ lineStart ≠ 0) :
    ∃ scanned,
      lineLoop s fname pattern.length cnt last rounds data lineStart out (fuel + 1) =
          some scanned ∧
        Leaves (selects pattern) name data last [] rest kept out scanned := by
  subst ends
  have after : ∀ k, lineStart + rest.length ≤ k →
      Function.update data (lineStart + rest.length) 0 k = data k ∨
        Function.update data (lineStart + rest.length) 0 k = 0 := by
    intro k _
    by_cases same : k = lineStart + rest.length
    · exact .inr (same ▸ Function.update_self ..)
    · exact .inl (Function.update_of_ne same _ _)
  cases kept with
  | true =>
      have keep := keeps.mp rfl
      have found : scanLine data lineStart (lineStart + rest.length - lineStart) =
          lineStart + rest.length :=
        scanLine_line holds unbroken (by omega) (.inl (Nat.add_sub_cancel_left ..))
      obtain ⟨copied, result, copy, others⟩ :=
        ece391Strcpy_spells (holds.ended nonzero) (Nat.pos_of_ne_zero keep.2.2)
          (Nat.lt_of_le_of_lt restFits asked.bufferFits)
      have past : ∀ k, lineStart + rest.length ≤ k →
          copied k = Function.update data (lineStart + rest.length) 0 k :=
        fun k from_ => others k (.inr (by omega))
      refine ⟨⟨copied, rest.length, out⟩, ?_, ?_, rfl, holds_of_spells copy, ?_, ?_, ?_⟩
      · rw [lineLoop, found, if_pos keep, result, Nat.add_sub_cancel_left]
        rfl
      · exact (List.append_nil out).symm
      · intro k from_
        have same := past k from_
        simpa only [same] using after k from_
      · intro _
        exact (past _ (Nat.le_refl _)).trans (Function.update_self ..)
      · exact fun _ none => absurd rfl none
  | false =>
      have searched : ¬ (data (lineStart + rest.length) ≠ NEWLINE ∧ cnt ≠ 0 ∧ lineStart ≠ 0) :=
        fun keep => absurd (keeps.mpr keep) Bool.false_ne_true
      refine ⟨⟨Function.update data (lineStart + rest.length) 0, 0,
        out ++ writes (selects pattern) name [rest]⟩, ?_, rfl, rfl, holds_nil, after,
        fun _ => Function.update_self .., fun _ none => absurd rfl none⟩
      rw [lineLoop_search asked holds nonzero unbroken (Nat.le_refl _)
        (.inl rfl) restFits searched, if_pos (Nat.le_succ _)]

/-- A complete line in front that has been searched before. -/
theorem Leaves.cons {select : List UInt8 → Bool} {line : List UInt8} {scanned : Scanned}
    {lineEnd : Nat} (inside : lineEnd < last)
    (later : Leaves select name (Function.update data lineEnd 0) last lines rest kept
      (out ++ writes select name [line]) scanned)
    (more : lines ≠ [] ∨ rest ≠ []) :
    Leaves select name data last (line :: lines) rest kept out scanned where
  written := by
    rw [later.written, List.append_assoc, ← writes_cons]
    cases kept <;> rfl
  inUse := later.inUse
  carried := later.carried
  after k from_ := by
    have same : Function.update data lineEnd 0 k = data k :=
      Function.update_of_ne (Nat.ne_of_gt (Nat.lt_of_lt_of_le inside from_)) _ _
    rw [← same]
    exact later.after k from_
  cut := later.cut
  whole none _ := by
    rw [later.whole none (more.resolve_right (not_not_intro none)),
      Function.update_of_ne (Nat.ne_of_gt inside)]

/-- A complete line that is the last one. -/
theorem leaves_line {select : List UInt8 → Bool} {line : List UInt8} {lineEnd : Nat}
    (blank : select [] = false) (inside : lineEnd < last) :
    Leaves select name data last [line] [] kept out
      ⟨Function.update data lineEnd 0, 0, out ++ writes select name [line]⟩ where
  written := by
    cases kept with
    | true => rfl
    | false => rw [if_neg Bool.false_ne_true, writes_append, writes_blank blank, List.append_nil]
  inUse := by rw [ite_self, List.length_nil]
  carried := by
    rw [ite_self]
    exact holds_nil
  after k from_ :=
    .inl (Function.update_of_ne (Nat.ne_of_gt (Nat.lt_of_lt_of_le inside from_)) _ _)
  cut some := absurd rfl some
  whole _ _ := Function.update_of_ne (Nat.ne_of_gt inside) _ _

/-- The inner loop, on some complete lines and what follows them. -/
theorem lineLoop_lines (asked : Asked s fname pattern name rounds)
    (holds : Holds data lineStart (joinLines NEWLINE lines rest))
    (nonzero : ∀ c ∈ joinLines NEWLINE lines rest, c ≠ 0)
    (noneInLines : ∀ line ∈ lines, NEWLINE ∉ line) (noneInRest : NEWLINE ∉ rest)
    (ends : lineStart + (joinLines NEWLINE lines rest).length = last)
    (fits : (joinLines NEWLINE lines rest).length ≤ BUFSIZE) (enough : lines.length < fuel)
    (keeps : kept = true ↔ data last ≠ NEWLINE ∧ cnt ≠ 0 ∧ (lineStart ≠ 0 ∨ lines ≠ []))
    (out : List (List UInt8)) :
    ∃ scanned,
      lineLoop s fname pattern.length cnt last rounds data lineStart out fuel = some scanned ∧
        Leaves (selects pattern) name data last lines rest kept out scanned := by
  obtain ⟨fuel, rfl⟩ := Nat.exists_eq_succ_of_ne_zero (Nat.ne_zero_of_lt enough)
  induction lines generalizing data lineStart out fuel with
  | nil =>
      have started : kept = true ↔ data last ≠ NEWLINE ∧ cnt ≠ 0 ∧ lineStart ≠ 0 := by
        simpa using keeps
      exact lineLoop_rest asked holds nonzero noneInRest fits ends
        started
  | cons line lines ih =>
      obtain ⟨unbroken, noneInLines⟩ := List.forall_mem_cons.mp noneInLines
      rw [joinLines_cons] at holds nonzero ends fits
      obtain ⟨nonzeroLine, nonzero⟩ := List.forall_mem_append.mp nonzero
      obtain ⟨_, nonzero⟩ := List.forall_mem_cons.mp nonzero
      rw [List.length_append, List.length_cons] at ends fits
      have newline : data (lineStart + line.length) = NEWLINE :=
        holds.right 0 (Nat.zero_lt_succ _)
      have searched : ¬ (data (lineStart + line.length) ≠ NEWLINE ∧ cnt ≠ 0 ∧ lineStart ≠ 0) :=
        fun keep => keep.1 newline
      rw [lineLoop_search asked holds.left nonzeroLine unbroken
        (by omega) (.inr newline) (by omega) searched]
      by_cases ended : joinLines NEWLINE lines rest = []
      · rw [ended, List.length_nil] at ends
        obtain ⟨rfl, rfl⟩ := joinLines_eq_nil.mp ended
        rw [if_pos (by omega)]
        exact ⟨_, rfl, leaves_line (selects_nil asked.nonempty) (by omega)⟩
      · have positive := List.length_pos_iff.mpr ended
        rw [if_neg (by omega)]
        have same : ∀ k, lineStart + line.length < k →
            Function.update data (lineStart + line.length) 0 k = data k :=
          fun k past => Function.update_of_ne (Nat.ne_of_gt past) _ _
        have later := holds.right.tail.of_same fun k from_ _ => same k from_
        obtain ⟨fuel, rfl⟩ := Nat.exists_eq_succ_of_ne_zero (Nat.ne_zero_of_lt
          (Nat.lt_of_succ_lt_succ enough))
        obtain ⟨scanned, result, leaves⟩ :=
          ih later nonzero noneInLines (by omega) (by omega) (by
            rw [same last (by omega), keeps]
            simp) _ fuel (Nat.lt_of_succ_lt_succ enough)
        refine ⟨scanned, result, leaves.cons (by omega) ?_⟩
        rw [joinLines_eq_nil] at ended
        exact not_and_or.mp ended

end Inner

end LightOS.Programs
