import LightOS.Programs.GrepFile

/-! # What grep prints

The lines that contain the pattern are printed, if and only if none of them is searched in
pieces and the first character of the pattern is not a signed one.
-/

namespace LightOS.Programs

open Lib Filesystem
open Kernel (NEWLINE text)

/-- The lines of a file that contain the pattern, each with the name in front. -/
def matchingLines (pattern name content : List UInt8) : List (List UInt8) :=
  writes (fun line => decide (pattern <:+: line)) name (content.splitOn NEWLINE)

/-- The part of a line in front of the seam. -/
def beforeSeam (content : List UInt8) : List UInt8 :=
  ((content.take (seam content)).splitOn NEWLINE).getLastD []

/-- The part of a line behind the seam. -/
def behindSeam (content : List UInt8) : List UInt8 :=
  ((content.drop (seam content)).splitOn NEWLINE).headD []

/-- A line with the pieces that are searched of it. -/
def linePieces (line : List UInt8) : List UInt8 × List (List UInt8) := (line, chunks BUFSIZE line)

/-- The line that is cut, with its pieces. -/
def seamPiecesOf (content : List UInt8) : List UInt8 × List (List UInt8) :=
  (beforeSeam content ++ behindSeam content,
    chunks BUFSIZE (beforeSeam content) ++ chunks BUFSIZE (behindSeam content))

/-- The lines that contain the pattern fit in the buffer and are not cut at its end. -/
structure Searchable (data : CharPtr) (pattern content : List UInt8) : Prop where
  fits : ∀ line ∈ content.splitOn NEWLINE, pattern <:+: line → line.length ≤ BUFSIZE
  uncut : data BUFSIZE = NEWLINE → beforeSeam content ≠ [] → behindSeam content ≠ [] →
    ¬ pattern <:+: beforeSeam content ++ behindSeam content

section Matches

variable {s fname data : CharPtr} {pattern name content : List UInt8} {select : List UInt8 → Bool}
variable {lines lines' : List (List UInt8)}

/-- The writes tell which lines have been found. -/
theorem writes_inj {select' : List UInt8 → Bool} :
    writes select name lines = writes select' name lines' ↔
      lines.filter select = lines'.filter select' := by
  constructor
  · rw [writes, writes]
    generalize lines.filter select = found
    generalize lines'.filter select' = found'
    intro same
    induction found generalizing found' with
    | nil =>
        cases found' with
        | nil => rfl
        | cons line found' => exact absurd same (by simp)
    | cons line found ih =>
        cases found' with
        | nil => exact absurd same (by simp)
        | cons line' found' =>
            rw [List.flatMap_cons, List.flatMap_cons] at same
            obtain ⟨here, later⟩ := List.append_inj same rfl
            simp only [List.cons.injEq, true_and, and_true] at here
            rw [here, ih _ later]
  · intro same
    rw [writes, same]
    rfl

/-- The seam lies in a line, between complete ones. -/
theorem exists_seam (content : List UInt8) :
    ∃ before behind, content.splitOn NEWLINE =
        before ++ (beforeSeam content ++ behindSeam content) :: behind ∧
      seamPieces content = before.flatMap (chunks BUFSIZE) ++
        (chunks BUFSIZE (beforeSeam content) ++ chunks BUFSIZE (behindSeam content)) ++
        behind.flatMap (chunks BUFSIZE) := by
  obtain ⟨before, front, first, noneInLines, noneInFront⟩ :=
    exists_joinLines NEWLINE (content.take (seam content))
  obtain ⟨back, behind, second, joined⟩ :=
    splitOn_append_of_not_mem noneInFront (content.drop (seam content))
  have inFront : beforeSeam content = front := by
    rw [beforeSeam, first, splitOn_joinLines noneInLines, List.splitOn_eq_singleton noneInFront]
    simp
  have inBack : behindSeam content = back := by
    rw [behindSeam, second, List.headD_cons]
  refine ⟨before, behind, ?_, ?_⟩
  · have whole : content = joinLines NEWLINE before (front ++ content.drop (seam content)) := by
      rw [← joinLines_append, ← first, List.take_append_drop]
    rw [inFront, inBack, ← joined, ← splitOn_joinLines noneInLines, ← whole]
  · rw [seamPieces, first, pieces_joinLines noneInLines, pieces, pieces, second, inFront, inBack,
      List.splitOn_eq_singleton noneInFront, List.flatMap_singleton, List.flatMap_cons]
    simp only [List.append_assoc]

theorem ne_nil_of_found {line : List UInt8} (nonempty : pattern ≠ []) (found : pattern <:+: line) :
    line ≠ [] := by
  rintro rfl
  exact nonempty (List.infix_nil.mp found)

/-- Lines that are searched whole. -/
theorem forall_linePieces (nonempty : pattern ≠ []) :
    (∀ item ∈ lines.map linePieces, pattern <:+: item.1 → item.2 = [item.1]) ↔
      ∀ line ∈ lines, pattern <:+: line → line.length ≤ BUFSIZE := by
  rw [List.forall_mem_map]
  refine forall₂_congr fun line _ => forall_congr' fun found => ?_
  rw [linePieces, chunks_eq_singleton_iff (by decide)]
  exact and_iff_right (ne_nil_of_found nonempty found)

theorem seamPiecesOf_iff (nonempty : pattern ≠ []) :
    (pattern <:+: (seamPiecesOf content).1 →
        (seamPiecesOf content).2 = [(seamPiecesOf content).1]) ↔
      (pattern <:+: beforeSeam content ++ behindSeam content →
        (beforeSeam content ++ behindSeam content).length ≤ BUFSIZE) ∧
      (beforeSeam content ≠ [] → behindSeam content ≠ [] →
        ¬ pattern <:+: beforeSeam content ++ behindSeam content) := by
  rw [seamPiecesOf]
  by_cases found : pattern <:+: beforeSeam content ++ behindSeam content
  · rw [chunks_append_chunks_iff (by decide) (ne_nil_of_found nonempty found)]
    simp only [found, true_imp_iff, not_true, imp_false, not_not]
  · simp [found]

/-- The pieces that are searched of the lines of `items`: they make the line up, and have
    something in them. -/
def MadeUp (items : List (List UInt8 × List (List UInt8))) : Prop :=
  ∀ item ∈ items, item.2.flatten = item.1 ∧ ∀ piece ∈ item.2, piece ≠ []

theorem chunks_madeUp (line : List UInt8) :
    (chunks BUFSIZE line).flatten = line ∧ ∀ piece ∈ chunks BUFSIZE line, piece ≠ [] := by
  obtain ⟨whole, each⟩ := chunks_spec (show 0 < BUFSIZE by decide) line
  exact ⟨whole, fun piece member => (each piece member).1⟩

theorem madeUp_linePieces (lines : List (List UInt8)) : MadeUp (lines.map linePieces) := by
  rw [MadeUp, List.forall_mem_map]
  exact fun line _ => chunks_madeUp line

theorem seamPiecesOf_madeUp (content : List UInt8) :
    (seamPiecesOf content).2.flatten = (seamPiecesOf content).1 ∧
      ∀ piece ∈ (seamPiecesOf content).2, piece ≠ [] := by
  obtain ⟨front, eachFront⟩ := chunks_madeUp (beforeSeam content)
  obtain ⟨back, eachBack⟩ := chunks_madeUp (behindSeam content)
  constructor
  · rw [seamPiecesOf, List.flatten_append, front, back]
  · rw [seamPiecesOf, List.forall_mem_append]
    exact ⟨eachFront, eachBack⟩

theorem map_linePieces : (lines.map linePieces).map Prod.fst = lines := by
  rw [List.map_map]
  exact List.map_id lines

theorem flatMap_linePieces :
    (lines.map linePieces).flatMap Prod.snd = lines.flatMap (chunks BUFSIZE) := by
  rw [List.flatMap_map]
  rfl

/-- The lines of a file, each with the pieces that are searched of it. -/
theorem exists_items (nonempty : pattern ≠ []) (data : CharPtr) (content : List UInt8) :
    ∃ items : List (List UInt8 × List (List UInt8)),
      items.map Prod.fst = content.splitOn NEWLINE ∧
      items.flatMap Prod.snd = searchedPieces data content ∧ MadeUp items ∧
      ((∀ item ∈ items, pattern <:+: item.1 → item.2 = [item.1]) ↔
        Searchable data pattern content) := by
  by_cases newline : data BUFSIZE = NEWLINE
  · obtain ⟨before, behind, split, searched⟩ := exists_seam content
    refine ⟨before.map linePieces ++ seamPiecesOf content :: behind.map linePieces,
      ?_, ?_, ?_, ?_⟩
    · rw [List.map_append, List.map_cons, map_linePieces, map_linePieces, split]
      rfl
    · rw [List.flatMap_append, List.flatMap_cons, flatMap_linePieces, flatMap_linePieces,
        searchedPieces, if_pos newline, searched, List.append_assoc]
      rfl
    · rw [MadeUp, List.forall_mem_append, List.forall_mem_cons]
      exact ⟨madeUp_linePieces before, seamPiecesOf_madeUp content, madeUp_linePieces behind⟩
    · rw [List.forall_mem_append, List.forall_mem_cons, forall_linePieces nonempty,
        forall_linePieces nonempty, seamPiecesOf_iff nonempty]
      constructor
      · rintro ⟨fitsBefore, ⟨fits, uncut⟩, fitsBehind⟩
        refine ⟨?_, fun _ => uncut⟩
        rw [split, List.forall_mem_append, List.forall_mem_cons]
        exact ⟨fitsBefore, fits, fitsBehind⟩
      · intro safe
        have fits := safe.fits
        rw [split, List.forall_mem_append, List.forall_mem_cons] at fits
        exact ⟨fits.1, ⟨fits.2.1, safe.uncut newline⟩, fits.2.2⟩
  · refine ⟨(content.splitOn NEWLINE).map linePieces, map_linePieces, ?_, madeUp_linePieces _, ?_⟩
    · rw [flatMap_linePieces, searchedPieces, if_neg newline]
      rfl
    · rw [forall_linePieces nonempty]
      exact ⟨fun fits => ⟨fits, fun behind => absurd behind newline⟩, fun safe => safe.fits⟩

theorem charValue_eq_toNat_iff {c : UInt8} : charValue c = c.toNat ↔ c < 0x80 := by
  have bound : c < 0x80 ↔ c.toNat < 128 := UInt8.lt_iff_toNat_lt
  rw [bound, charValue]
  split <;> omega

theorem selects_iff {line : List UInt8} :
    selects pattern line = true ↔ pattern.headD 0 < 0x80 ∧ pattern <:+: line := by
  rw [selects, decide_eq_true_iff, charValue_eq_toNat_iff]

/-- What has been found in the pieces is the lines that contain the pattern. -/
theorem writes_pieces_iff (nonempty : pattern ≠ []) (data : CharPtr) :
    writes (selects pattern) name (searchedPieces data content) =
        matchingLines pattern name content ↔
      (∀ line ∈ content.splitOn NEWLINE, pattern <:+: line → pattern.headD 0 < 0x80) ∧
        Searchable data pattern content := by
  obtain ⟨items, lines, searched, madeUp, safe⟩ := exists_items nonempty data content
  rw [matchingLines, writes_inj, ← searched, ← lines, ← safe]
  by_cases plain : pattern.headD 0 < 0x80
  · have same : selects pattern = fun line => decide (pattern <:+: line) := by
      funext line
      rw [Bool.eq_iff_iff, selects_iff, decide_eq_true_iff]
      exact and_iff_right plain
    have cut : ∀ item ∈ items, CutUp (selects pattern) item.1 item.2 := by
      intro item member
      obtain ⟨whole, each⟩ := madeUp item member
      refine ⟨whole, each, fun piece inside => ?_⟩
      rw [selects_iff, selects_iff]
      intro found
      exact ⟨plain, found.2.trans (whole ▸ List.infix_of_mem_flatten inside)⟩
    rw [← same, select_pieces_iff cut (selects_nil nonempty)]
    constructor
    · intro single
      refine ⟨fun _ _ _ => plain, fun item member found => ?_⟩
      exact single item member (selects_iff.mpr ⟨plain, found⟩)
    · intro safe item member found
      exact safe.2 item member (selects_iff.mp found).2
  · have none : (items.flatMap Prod.snd).filter (selects pattern) = [] := by
      rw [List.filter_eq_nil_iff]
      intro line _ found
      exact plain (selects_iff.mp found).1
    rw [none, eq_comm, List.filter_eq_nil_iff]
    simp only [decide_eq_true_iff]
    constructor
    · intro absent
      refine ⟨fun line member found => absurd found (absent line member), ?_⟩
      exact fun item member found =>
        absurd found (absent item.1 (List.mem_map_of_mem member))
    · exact fun safe line member found => plain (safe.1 line member found)

theorem seam_ge (content : List UInt8) : BUFSIZE ≤ seam content := by
  rw [seam]
  split
  · exact Nat.le_add_right ..
  · exact Nat.le_refl _

/-- A file that fits in the buffer. -/
theorem searchable_of_fits (fits : content.length ≤ BUFSIZE) : Searchable data pattern content where
  fits line member _ := by
    obtain ⟨complete, last, rfl, noneInLines, noneInLast⟩ := exists_joinLines NEWLINE content
    obtain ⟨total, each⟩ := length_joinLines NEWLINE complete last
    rw [splitOn_joinLines noneInLines, List.splitOn_eq_singleton noneInLast, List.mem_append,
      List.mem_singleton] at member
    rcases member with inside | rfl
    · exact Nat.le_trans (each line inside) fits
    · omega
  uncut _ _ behind := by
    rw [behindSeam, List.drop_of_length_le (Nat.le_trans fits (seam_ge content))] at behind
    exact absurd rfl behind

/-- `do_one_file` ends, and prints the lines that contain the pattern, if and only if these are
    what has been found in the pieces. -/
theorem doOneFile_matching_iff (spelled : Spells s 0 pattern) (nonempty : pattern ≠ [])
    (named : Spells fname 0 name) (nonzero : ∀ c ∈ content, c ≠ 0) (data : CharPtr) :
    (∃ bound, ∀ rounds, bound ≤ rounds →
        doOneFile (diskFile content) s fname data rounds =
          some (0, matchingLines pattern name content)) ↔
      writes (selects pattern) name (searchedPieces data content) =
        matchingLines pattern name content := by
  let enough := BUFSIZE + 1 + pattern.length + name.length + content.length
  have result : ∀ rounds, enough ≤ rounds → doOneFile (diskFile content) s fname data rounds =
      some (0, writes (selects pattern) name (searchedPieces data content)) := by
    intro rounds many
    exact doOneFile_eq ⟨spelled, nonempty, named, by omega, by omega⟩ nonzero (by omega) (by omega)
      data
  constructor
  · rintro ⟨bound, prints⟩
    have printed := prints (max bound enough) (Nat.le_max_left ..)
    rw [result _ (Nat.le_max_right ..)] at printed
    exact (Prod.mk.inj (Option.some.inj printed)).2
  · intro same
    exact ⟨enough, fun rounds many => same ▸ result rounds many⟩

/-- grep prints the lines that contain the pattern, in their order and once each, and ends with
    result 0, if and only if no such line is longer than the buffer, none is cut at the end of a
    full buffer that a newline follows, and the first character of the pattern is not a signed
    one. -/
theorem grep_prints_matching_iff (spelled : Spells s 0 pattern) (nonempty : pattern ≠ [])
    (named : Spells fname 0 name) (nonzero : ∀ c ∈ content, c ≠ 0) (data : CharPtr) :
    (∃ bound, ∀ rounds, bound ≤ rounds →
        doOneFile (diskFile content) s fname data rounds =
          some (0, matchingLines pattern name content)) ↔
      (∀ line ∈ content.splitOn NEWLINE, pattern <:+: line → pattern.headD 0 < 0x80) ∧
        Searchable data pattern content := by
  rw [doOneFile_matching_iff spelled nonempty named nonzero data, writes_pieces_iff nonempty data]

/-- Two of three lines are printed, the last one without a newline at its end. -/
theorem grep_prints_two_lines :
    ∃ bound, ∀ rounds, bound ≤ rounds →
      doOneFile (diskFile (text "cat\ngrep\ncounter")) (charPtr (text "c"))
          (charPtr (text "frame0.txt")) (fun _ => NEWLINE) rounds =
        some (0, [text "frame0.txt", text ":", text "cat", text "\n",
          text "frame0.txt", text ":", text "counter", text "\n"]) := by
  have lines : matchingLines (text "c") (text "frame0.txt") (text "cat\ngrep\ncounter") =
      [text "frame0.txt", text ":", text "cat", text "\n",
        text "frame0.txt", text ":", text "counter", text "\n"] := by decide +kernel
  rw [← lines]
  exact (grep_prints_matching_iff (spells_charPtr (by decide +kernel)) (by decide)
    (spells_charPtr (by decide +kernel)) (by decide +kernel) fun _ => NEWLINE).mpr
      ⟨fun _ _ _ => by decide, searchable_of_fits (by decide)⟩

/-- A line of 1024 letters after an empty one. -/
def seamFile : List UInt8 := NEWLINE :: (List.replicate 1023 0x61 ++ [0x62])

theorem seam_seamFile : seam seamFile = BUFSIZE := by
  rw [seam, dif_neg (by decide +kernel)]

/-- With a newline behind the buffer, the line is searched without its last letter. -/
theorem grep_cuts_line :
    ¬ ∃ bound, ∀ rounds, bound ≤ rounds →
      doOneFile (diskFile seamFile) (charPtr (text "ab")) (charPtr (text "f")) (fun _ => NEWLINE)
          rounds =
        some (0, matchingLines (text "ab") (text "f") seamFile) := by
  have spelled : Spells (charPtr (text "ab")) 0 (text "ab") := spells_charPtr (by decide +kernel)
  have named : Spells (charPtr (text "f")) 0 (text "f") := spells_charPtr (by decide +kernel)
  rw [doOneFile_matching_iff spelled (by decide) named (by decide +kernel),
    writes_pieces_iff (by decide)]
  intro searchable
  have uncut := searchable.2.uncut rfl
  rw [beforeSeam, behindSeam, seam_seamFile] at uncut
  exact uncut (by decide +kernel) (by decide +kernel) (by decide +kernel)

end Matches

end LightOS.Programs
