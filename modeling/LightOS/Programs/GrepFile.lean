import LightOS.Programs.GrepLines

/-! # The whole file

A round of the outer loop fills the buffer up behind the line that has been kept.  All lines are
searched in the end, those that are longer than the buffer in pieces of its size.
-/

namespace LightOS.Programs

open Lib Filesystem
open Kernel (NEWLINE)

/-- The lines of a text as they fit in the buffer. -/
def pieces (content : List UInt8) : List (List UInt8) :=
  (content.splitOn NEWLINE).flatMap (chunks BUFSIZE)

section Pieces

variable {select : List UInt8 → Bool} {name line rest more : List UInt8}
variable {lines : List (List UInt8)}

@[simp] theorem pieces_nil : pieces [] = [] := by
  rw [pieces, List.splitOn_nil, List.flatMap_singleton, chunks_nil]

theorem pieces_joinLines (noneInLines : ∀ line ∈ lines, NEWLINE ∉ line) :
    pieces (joinLines NEWLINE lines rest) = lines.flatMap (chunks BUFSIZE) ++ pieces rest := by
  rw [pieces, splitOn_joinLines noneInLines, List.flatMap_append]
  rfl

/-- A piece that fills the buffer. -/
theorem pieces_full (full : line.length = BUFSIZE) (unbroken : NEWLINE ∉ line) :
    pieces (line ++ rest) = line :: pieces rest := by
  obtain ⟨first, lines, split, joined⟩ := splitOn_append_of_not_mem unbroken rest
  rw [pieces, pieces, joined, split, List.flatMap_cons, List.flatMap_cons,
    chunks_append full (by decide), List.cons_append]

/-- Pieces of a line that fits are searched as the line is. -/
theorem writes_chunks (blank : select [] = false) (fits : line.length ≤ BUFSIZE) :
    writes select name (chunks BUFSIZE line) = writes select name [line] := by
  cases line with
  | nil =>
      rw [chunks_nil, writes_blank blank]
      rfl
  | cons c line => rw [chunks_of_fits (List.cons_ne_nil c line) fits]

theorem writes_flatMap_chunks (blank : select [] = false)
    (fits : ∀ line ∈ lines, line.length ≤ BUFSIZE) :
    writes select name (lines.flatMap (chunks BUFSIZE)) = writes select name lines := by
  induction lines with
  | nil => rfl
  | cons line lines ih =>
      obtain ⟨here, later⟩ := List.forall_mem_cons.mp fits
      rw [List.flatMap_cons, writes_append, writes_chunks blank here, ih later, ← writes_cons]

/-- A piece in front that fills the buffer, or is empty, or is the last one. -/
theorem writes_pieces_append (name : List UInt8) (blank : select [] = false)
    (unbroken : NEWLINE ∉ line) (fits : line.length ≤ BUFSIZE)
    (ended : rest = [] ∨ line = [] ∨ line.length = BUFSIZE) :
    writes select name (pieces (line ++ rest)) =
      writes select name [line] ++ writes select name (pieces rest) := by
  rcases ended with rfl | rfl | full
  · rw [List.append_nil, pieces_nil, pieces, List.splitOn_eq_singleton unbroken,
      List.flatMap_singleton, writes_chunks blank fits]
    exact (List.append_nil _).symm
  · rw [List.nil_append, writes_blank blank, List.nil_append]
  · rw [pieces_full full unbroken, writes_cons]

end Pieces

/-- A round of the outer loop in which something is read. -/
structure Round (select : List UInt8 → Bool) (name : List UInt8) (data : CharPtr)
    (carry rest : List UInt8) (lines : List (List UInt8)) (tail : List UInt8) (kept : Bool)
    (out : List (List UInt8)) (scanned : Scanned) : Prop where
  buffer : carry ++ rest.take (BUFSIZE - carry.length) = joinLines NEWLINE lines tail
  noneInLines : ∀ line ∈ lines, NEWLINE ∉ line
  noneInTail : NEWLINE ∉ tail
  keeps : kept = true ↔
    place data carry.length (rest.take (BUFSIZE - carry.length))
      (joinLines NEWLINE lines tail).length ≠ NEWLINE ∧ lines ≠ []
  leaves : Leaves select name (place data carry.length (rest.take (BUFSIZE - carry.length)))
    (joinLines NEWLINE lines tail).length lines tail kept out scanned

section Outer

variable {s fname data : CharPtr} {pattern name carry rest content tail : List UInt8}
variable {lines : List (List UInt8)} {rounds reads : Nat} {out : List (List UInt8)} {kept : Bool}
variable {scanned : Scanned}

theorem readLoop_round (asked : Asked s fname pattern name rounds)
    (nonzero : ∀ c ∈ carry ++ rest, c ≠ 0) (short : carry.length < BUFSIZE)
    (holds : Holds data 0 carry) (more : rest ≠ []) (content : List UInt8)
    (out : List (List UInt8)) (reads : Nat) :
    ∃ lines tail kept scanned, Round (selects pattern) name data carry rest lines tail kept out
        scanned ∧
      readLoop (diskFile content) s fname pattern.length rounds rest data carry.length out
          (reads + 1) =
        readLoop (diskFile content) s fname pattern.length rounds
          (rest.drop (BUFSIZE - carry.length)) scanned.data scanned.last scanned.out reads := by
  obtain ⟨lines, tail, buffer, noneInLines, noneInTail⟩ :=
    exists_joinLines NEWLINE (carry ++ rest.take (BUFSIZE - carry.length))
  have placed : Holds (place data carry.length (rest.take (BUFSIZE - carry.length))) 0
      (joinLines NEWLINE lines tail) := buffer ▸ place_holds holds
  have total : carry.length + (rest.take (BUFSIZE - carry.length)).length =
      (joinLines NEWLINE lines tail).length := by rw [← buffer, List.length_append]
  have positive := List.length_pos_iff.mpr more
  have taken := List.length_take (i := BUFSIZE - carry.length) (l := rest)
  have fits : (joinLines NEWLINE lines tail).length ≤ BUFSIZE := by omega
  have nonzeroHere : ∀ c ∈ joinLines NEWLINE lines tail, c ≠ 0 := by
    rw [← buffer]
    rw [List.forall_mem_append] at nonzero ⊢
    exact ⟨nonzero.1, fun c member => nonzero.2 c (List.mem_of_mem_take member)⟩
  have linesFit := (length_joinLines NEWLINE lines tail).1
  have bufferFits := asked.bufferFits
  have some : (rest.take (BUFSIZE - carry.length)).length ≠ 0 := by omega
  obtain ⟨kept, keeps⟩ : ∃ kept : Bool, kept = true ↔
      place data carry.length (rest.take (BUFSIZE - carry.length))
        (joinLines NEWLINE lines tail).length ≠ NEWLINE ∧ lines ≠ [] :=
    ⟨decide _, decide_eq_true_iff⟩
  have keepsHere : kept = true ↔
      place data carry.length (rest.take (BUFSIZE - carry.length))
          (joinLines NEWLINE lines tail).length ≠ NEWLINE ∧
        (rest.take (BUFSIZE - carry.length)).length ≠ 0 ∧ (0 ≠ 0 ∨ lines ≠ []) := by
    rw [keeps]
    simp only [some, ne_eq, not_true, false_or, not_false_iff, true_and]
  obtain ⟨scanned, result, leaves⟩ := lineLoop_lines asked placed nonzeroHere noneInLines noneInTail
    (Nat.zero_add _) fits (show lines.length < rounds by omega) keepsHere out
  refine ⟨lines, tail, kept, scanned,
    ⟨buffer, noneInLines, noneInTail, keeps, leaves⟩, ?_⟩
  simp only [readLoop, diskFile, total, result, Option.bind_eq_bind, Option.bind_some, if_neg some]

/-- The last round, with nothing read. -/
theorem readLoop_end (asked : Asked s fname pattern name rounds) (nonzero : ∀ c ∈ carry, c ≠ 0)
    (unbroken : NEWLINE ∉ carry) (short : carry.length ≤ BUFSIZE) (holds : Holds data 0 carry) :
    readLoop (diskFile content) s fname pattern.length rounds [] data carry.length out
        (reads + 1) =
      some (0, out ++ writes (selects pattern) name (pieces carry)) := by
  have placed : Holds (place data carry.length []) 0 (joinLines NEWLINE [] carry) := by
    have kept : Holds (place data carry.length []) 0 (carry ++ []) := place_holds holds
    rwa [List.append_nil] at kept
  have keeps : false = true ↔ place data carry.length [] carry.length ≠ NEWLINE ∧ 0 ≠ 0 ∧
      (0 ≠ 0 ∨ ([] : List (List UInt8)) ≠ []) := by simp
  obtain ⟨scanned, result, leaves⟩ := lineLoop_lines asked placed nonzero
    (List.forall_mem_nil _) unbroken (Nat.zero_add _) short (Nat.zero_lt_of_lt asked.bufferFits)
    keeps out
  have searched : writes (selects pattern) name (pieces carry) =
      writes (selects pattern) name [carry] := by
    have ended := writes_pieces_append name (selects_nil asked.nonempty) unbroken short
      (.inl (Eq.refl []))
    simpa [writes] using ended
  have written : scanned.out = out ++ writes (selects pattern) name [carry] := leaves.written
  simp only [readLoop, diskFile, List.take_nil, List.drop_nil, List.length_nil, Nat.add_zero,
    joinLines_nil] at result ⊢
  rw [result, searched, ← written]
  rfl

section Round

variable (round : Round (selects pattern) name data carry rest lines tail kept out scanned)
include round

theorem Round.length_eq (short : carry.length < BUFSIZE) :
    (joinLines NEWLINE lines tail).length = min BUFSIZE (carry.length + rest.length) := by
  have inBuffer := congrArg List.length round.buffer
  rw [List.length_append, List.length_take] at inBuffer
  omega

theorem Round.fits (short : carry.length < BUFSIZE) :
    (∀ line ∈ lines, line.length ≤ BUFSIZE) ∧ tail.length ≤ BUFSIZE := by
  obtain ⟨total, each⟩ := length_joinLines NEWLINE lines tail
  have inUse := round.length_eq short
  refine ⟨fun line member => ?_, by omega⟩
  have fits := each line member
  omega

/-- What is kept leaves room in the buffer. -/
theorem Round.kept_short (short : carry.length < BUFSIZE) :
    (if kept then tail else []).length < BUFSIZE := by
  cases kept with
  | false => exact Nat.zero_lt_of_lt short
  | true =>
      have some := List.length_pos_iff.mpr (round.keeps.mp rfl).2
      have total := (length_joinLines NEWLINE lines tail).1
      have inUse := round.length_eq short
      rw [if_pos rfl]
      omega

theorem Round.forall_left {p : UInt8 → Prop} (each : ∀ c ∈ carry ++ rest, p c) :
    ∀ c ∈ (if kept then tail else []) ++ rest.drop (BUFSIZE - carry.length), p c := by
  have whole : carry ++ rest =
      joinLines NEWLINE lines [] ++ (tail ++ rest.drop (BUFSIZE - carry.length)) := by
    rw [← List.append_assoc, joinLines_append, List.nil_append, ← round.buffer, List.append_assoc,
      List.take_append_drop]
  rw [whole, List.forall_mem_append, List.forall_mem_append] at each
  rw [List.forall_mem_append]
  cases kept with
  | true => exact each.2
  | false => exact ⟨List.forall_mem_nil _, each.2.2⟩

/-- The place behind the buffer, after the round. -/
theorem Round.behind (short : carry.length < BUFSIZE) :
    scanned.data BUFSIZE = data BUFSIZE ∨ scanned.data BUFSIZE = 0 := by
  have inUse := round.length_eq short
  have taken := List.length_take (i := BUFSIZE - carry.length) (l := rest)
  have after := round.leaves.after BUFSIZE (by omega)
  rwa [place_past (by omega)] at after

/-- What follows the lines of a full buffer is kept, unless it fills the buffer or there is a
    newline behind the buffer. -/
theorem Round.full (short : carry.length < BUFSIZE)
    (more : rest.drop (BUFSIZE - carry.length) ≠ []) (plain : data BUFSIZE ≠ NEWLINE)
    (searched : kept = false) : tail.length = BUFSIZE := by
  have inUse := round.length_eq short
  have longer := List.length_pos_iff.mpr more
  rw [List.length_drop] at longer
  have filled : (joinLines NEWLINE lines tail).length = BUFSIZE := by omega
  have taken := List.length_take (i := BUFSIZE - carry.length) (l := rest)
  have keeps := round.keeps
  rw [filled, place_past (by omega)] at keeps
  have none : lines = [] := by
    by_contra some
    exact absurd (keeps.mpr ⟨plain, some⟩) (by simp [searched])
  rw [none] at filled
  exact filled

/-- What has been written, with what is still to come. -/
theorem Round.written (blank : selects pattern [] = false) (short : carry.length < BUFSIZE)
    (searched : kept = false →
      rest.drop (BUFSIZE - carry.length) = [] ∨ tail = [] ∨ tail.length = BUFSIZE) :
    scanned.out ++ writes (selects pattern) name
        (pieces ((if kept then tail else []) ++ rest.drop (BUFSIZE - carry.length))) =
      out ++ writes (selects pattern) name (pieces (carry ++ rest)) := by
  obtain ⟨linesFit, tailFits⟩ := round.fits short
  have whole : carry ++ rest =
      joinLines NEWLINE lines (tail ++ rest.drop (BUFSIZE - carry.length)) := by
    rw [← joinLines_append, ← round.buffer, List.append_assoc, List.take_append_drop]
  rw [whole, pieces_joinLines round.noneInLines, writes_append,
    writes_flatMap_chunks blank linesFit, round.leaves.written, List.append_assoc]
  cases kept with
  | true => rfl
  | false =>
      rw [if_neg Bool.false_ne_true, if_neg Bool.false_ne_true, List.nil_append, writes_append,
        List.append_assoc,
        writes_pieces_append name blank round.noneInTail tailFits (searched rfl)]

theorem Round.searched (blank : selects pattern [] = false) (short : carry.length < BUFSIZE)
    (searched : kept = false) :
    scanned.out = out ++ writes (selects pattern) name
      (pieces (carry ++ rest.take (BUFSIZE - carry.length))) := by
  obtain ⟨linesFit, tailFits⟩ := round.fits short
  have ended := writes_pieces_append name blank round.noneInTail tailFits
    (.inl (Eq.refl []))
  rw [List.append_nil, pieces_nil] at ended
  rw [round.leaves.written, searched, round.buffer, pieces_joinLines round.noneInLines,
    writes_append, writes_flatMap_chunks blank linesFit, ended]
  exact congrArg (out ++ ·) (by rw [if_neg Bool.false_ne_true, writes_append]; simp [writes])

/-- All of a full buffer is searched if there is a newline behind it. -/
theorem Round.searched_of_newline (short : carry.length < BUFSIZE)
    (full : BUFSIZE ≤ carry.length + rest.length) (behind : data BUFSIZE = NEWLINE) :
    kept = false := by
  have inUse := round.length_eq short
  have taken := List.length_take (i := BUFSIZE - carry.length) (l := rest)
  have filled : (joinLines NEWLINE lines tail).length = BUFSIZE := by omega
  have keeps := round.keeps
  rw [filled, place_past (by omega), behind] at keeps
  simpa using keeps

end Round

/-- A file, or the rest of it, if there is no newline behind the buffer. -/
theorem readLoop_plain (asked : Asked s fname pattern name rounds)
    (nonzero : ∀ c ∈ carry ++ rest, c ≠ 0) (unbroken : NEWLINE ∉ carry)
    (short : carry.length < BUFSIZE) (holds : Holds data 0 carry)
    (plain : BUFSIZE ≤ carry.length + rest.length → data BUFSIZE ≠ NEWLINE)
    (enough : rest.length < reads) :
    readLoop (diskFile content) s fname pattern.length rounds rest data carry.length out reads =
      some (0, out ++ writes (selects pattern) name (pieces (carry ++ rest))) := by
  induction reads generalizing carry rest data out with
  | zero => exact absurd enough (Nat.not_lt_zero _)
  | succ reads ih =>
      by_cases more : rest = []
      · subst more
        rw [List.append_nil] at nonzero ⊢
        exact readLoop_end asked nonzero unbroken (Nat.le_of_lt short) holds
      · obtain ⟨lines, tail, kept, scanned, round, result⟩ :=
          readLoop_round asked nonzero short holds more content out reads
        have positive := List.length_pos_iff.mpr more
        have left := List.length_drop (i := BUFSIZE - carry.length) (l := rest)
        have room := round.kept_short short
        rw [result, round.leaves.inUse, ih (round.forall_left nonzero) ?_ room
          round.leaves.carried ?_ (by omega), round.written (selects_nil asked.nonempty) short]
        · intro searched
          by_cases last : rest.drop (BUFSIZE - carry.length) = []
          · exact .inl last
          · have longer := List.length_pos_iff.mpr last
            exact .inr (.inr (round.full short last (plain (by omega)) searched))
        · cases kept with
          | true => exact round.noneInTail
          | false => exact List.not_mem_nil
        · intro full
          have before := plain (by omega)
          rcases round.behind short with same | ended
          · rwa [same]
          · rw [ended]
            decide

end Outer

/-- Where the first read ends that does not end with a newline, if each of them fills the
    buffer. -/
def seam (content : List UInt8) : Nat :=
  if _ended : content[BUFSIZE - 1]? = some NEWLINE then BUFSIZE + seam (content.drop BUFSIZE)
  else BUFSIZE
termination_by content.length
decreasing_by
  obtain ⟨inside, _⟩ := List.getElem?_eq_some_iff.mp _ended
  have some : BUFSIZE = 1024 := rfl
  rw [List.length_drop]
  omega

/-- What is searched if there is a newline behind the buffer at first. -/
def seamPieces (content : List UInt8) : List (List UInt8) :=
  pieces (content.take (seam content)) ++ pieces (content.drop (seam content))

section Seam

variable {s fname data : CharPtr} {pattern name rest content : List UInt8}
variable {rounds reads : Nat} {out : List (List UInt8)}

theorem seamPieces_short (short : rest.length < BUFSIZE) : seamPieces rest = pieces rest := by
  have inside : ¬ rest[BUFSIZE - 1]? = some NEWLINE := by
    rw [List.getElem?_eq_none (by omega)]
    exact Option.some_ne_none _ |>.symm
  rw [seamPieces, seam, dif_neg inside, List.take_of_length_le (Nat.le_of_lt short),
    List.drop_of_length_le (Nat.le_of_lt short), pieces_nil, List.append_nil]

/-- A read that fills the buffer ends with a newline if nothing follows its complete lines. -/
theorem seam_eq {lines : List (List UInt8)} {tail : List UInt8}
    (buffer : rest.take BUFSIZE = joinLines NEWLINE lines tail) (noneInTail : NEWLINE ∉ tail)
    (full : BUFSIZE ≤ rest.length) :
    seam rest = if tail = [] then BUFSIZE + seam (rest.drop BUFSIZE) else BUFSIZE := by
  have size : BUFSIZE = 1024 := rfl
  have some : lines ≠ [] ∨ tail ≠ [] := by
    rw [← not_and_or]
    intro none
    have empty := congrArg List.length (buffer.trans (joinLines_eq_nil.mpr none))
    rw [List.length_take, List.length_nil] at empty
    omega
  have ends : rest[BUFSIZE - 1]? = (rest.take BUFSIZE).getLast? := by
    rw [List.getLast?_eq_getElem?, List.length_take, Nat.min_eq_left full,
      List.getElem?_take_of_lt (by omega)]
  have newline := getLast?_joinLines lines noneInTail
  rw [← buffer, ← ends] at newline
  rw [seam, dite_eq_ite]
  apply if_congr _ rfl rfl
  rw [newline, and_iff_right_of_imp]
  exact fun none => some.resolve_right (not_not_intro none)

theorem seamPieces_next {lines : List (List UInt8)}
    (buffer : rest.take BUFSIZE = joinLines NEWLINE lines [])
    (noneInLines : ∀ line ∈ lines, NEWLINE ∉ line) (full : BUFSIZE ≤ rest.length) :
    seamPieces rest = pieces (rest.take BUFSIZE) ++ seamPieces (rest.drop BUFSIZE) := by
  rw [seamPieces, seam_eq buffer List.not_mem_nil full, if_pos rfl, List.take_add,
    ← List.drop_drop, buffer, joinLines_append, List.nil_append, pieces_joinLines noneInLines,
    pieces_joinLines noneInLines, pieces_nil, List.append_nil, List.append_assoc]
  rfl

/-- A round that fills the buffer, with a newline behind it: nothing is kept, and the newline
    stays there if the last line of the buffer is complete. -/
theorem readLoop_full (asked : Asked s fname pattern name rounds) (nonzero : ∀ c ∈ rest, c ≠ 0)
    (behind : data BUFSIZE = NEWLINE) (full : BUFSIZE ≤ rest.length) (content : List UInt8)
    (out : List (List UInt8)) (reads : Nat) :
    ∃ lines tail data',
      rest.take BUFSIZE = joinLines NEWLINE lines tail ∧ (∀ line ∈ lines, NEWLINE ∉ line) ∧
      NEWLINE ∉ tail ∧ data' BUFSIZE = (if tail = [] then NEWLINE else 0) ∧
      readLoop (diskFile content) s fname pattern.length rounds rest data 0 out (reads + 1) =
        readLoop (diskFile content) s fname pattern.length rounds (rest.drop BUFSIZE) data' 0
          (out ++ writes (selects pattern) name (pieces (rest.take BUFSIZE))) reads := by
  have size : ([] : List UInt8).length < BUFSIZE := by decide
  have empty : Holds data 0 [] := holds_nil
  have total : BUFSIZE ≤ ([] : List UInt8).length + rest.length := by simpa using full
  have more : rest ≠ [] := List.ne_nil_of_length_pos (Nat.lt_of_lt_of_le size full)
  obtain ⟨lines, tail, kept, scanned, round, result⟩ :=
    readLoop_round asked nonzero size empty more content out reads
  have searched := round.searched_of_newline size total behind
  have filled := (round.length_eq size).trans (Nat.min_eq_left total)
  have same : place data ([] : List UInt8).length (rest.take (BUFSIZE - ([] : List UInt8).length))
      BUFSIZE = NEWLINE := by
    have inside : ([] : List UInt8).length +
        (rest.take (BUFSIZE - ([] : List UInt8).length)).length ≤ BUFSIZE := by
      rw [List.length_take, List.length_nil]
      omega
    rw [place_past inside, behind]
  refine ⟨lines, tail, scanned.data, round.buffer, round.noneInLines, round.noneInTail, ?_, ?_⟩
  · split
    · next none =>
        have some : lines ≠ [] := by
          intro empty
          rw [empty, none] at filled
          exact absurd filled (by decide)
        have whole := round.leaves.whole none some
        rwa [filled, same] at whole
    · next some =>
        have cut := round.leaves.cut some
        rwa [filled] at cut
  · have written := round.searched (selects_nil asked.nonempty) size searched
    have last := round.leaves.inUse
    rw [searched, if_neg Bool.false_ne_true] at last
    rw [last, written] at result
    exact result

/-- A newline behind the buffer stays there while each read ends with a newline. -/
theorem readLoop_newline (asked : Asked s fname pattern name rounds) (nonzero : ∀ c ∈ rest, c ≠ 0)
    (behind : data BUFSIZE = NEWLINE) (enough : rest.length < reads) :
    readLoop (diskFile content) s fname pattern.length rounds rest data 0 out reads =
      some (0, out ++ writes (selects pattern) name (seamPieces rest)) := by
  induction reads generalizing rest data out with
  | zero => exact absurd enough (Nat.not_lt_zero _)
  | succ reads ih =>
      have size : 0 < BUFSIZE := by decide
      rcases Nat.lt_or_ge rest.length BUFSIZE with short | full
      · rw [seamPieces_short short]
        exact readLoop_plain asked nonzero List.not_mem_nil size holds_nil
          (fun long => absurd long (by simpa using short)) enough
      · have fewer : (rest.drop BUFSIZE).length < reads := by
          rw [List.length_drop]
          omega
        have nonzeroLeft : ∀ c ∈ rest.drop BUFSIZE, c ≠ 0 :=
          fun c member => nonzero c (List.mem_of_mem_drop member)
        obtain ⟨lines, tail, data', buffer, noneInLines, noneInTail, after, result⟩ :=
          readLoop_full asked nonzero behind full content out reads
        rw [result]
        by_cases complete : tail = []
        · rw [if_pos complete] at after
          rw [complete] at buffer
          rw [ih nonzeroLeft after fewer, seamPieces_next buffer noneInLines full, writes_append,
            List.append_assoc]
        · rw [if_neg complete] at after
          have plain : data' BUFSIZE ≠ NEWLINE := by
            rw [after]
            decide
          rw [seamPieces, seam_eq buffer noneInTail full, if_neg complete, writes_append,
            ← List.append_assoc]
          exact readLoop_plain asked nonzeroLeft List.not_mem_nil size holds_nil (fun _ => plain)
            fewer

end Seam

/-- What of a file comes to the search, with the buffer as it is before. -/
def searchedPieces (data : CharPtr) (content : List UInt8) : List (List UInt8) :=
  if data BUFSIZE = NEWLINE then seamPieces content else pieces content

/-- `do_one_file` returns 0 and has written the pieces in which the pattern is found. -/
theorem doOneFile_eq {s fname : CharPtr} {pattern name content : List UInt8} {rounds : Nat}
    (asked : Asked s fname pattern name rounds) (nonzero : ∀ c ∈ content, c ≠ 0)
    (patternFits : pattern.length < rounds) (enough : content.length < rounds) (data : CharPtr) :
    doOneFile (diskFile content) s fname data rounds =
      some (0, writes (selects pattern) name (searchedPieces data content)) := by
  rw [doOneFile, ece391Strlen_spells asked.spelled patternFits, Nat.zero_add, searchedPieces]
  by_cases behind : data BUFSIZE = NEWLINE
  · rw [if_pos behind]
    exact readLoop_newline asked nonzero behind enough
  · rw [if_neg behind]
    exact readLoop_plain asked nonzero List.not_mem_nil (by decide) holds_nil (fun _ => behind)
      enough

end LightOS.Programs
