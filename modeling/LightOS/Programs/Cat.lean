import LightOS.Descriptor.Listing
import LightOS.Kernel.Arguments
import LightOS.Programs.Session

/-! # cat and ls

Both read a descriptor until a read delivers nothing, and write what has been read.  What the
reads of a descriptor deliver is said apart from the programs, in `Delivers`.
-/

namespace LightOS.Programs

open Lib Lib.Interaction Filesystem Descriptor
open Kernel (NEWLINE text padded)

/-- A round of the loop of both programs; `ls` puts a newline behind what has been read. -/
def copyRound (rounds : Nat) (fd nbytes : Int) (ending : List UInt8) (failure : String)
    (buf : CharPtr) : UserProgram (Int ⊕ CharPtr) := do
  let read ← .ask (.read fd nbytes)
  let buf := place buf 0 read.bytes
  if read.ret = 0 then return .inl 0
  else if read.ret = -1 then do
    message rounds failure
    return .inl 3
  else do
    let buf := place buf read.ret.toNat ending
    let write ← .ask (.write 1 buf (read.ret + ending.length))
    if write.ret = -1 then return .inl 3 else return .inr buf

/-- ece391cat.c.  `buf` is what the stack holds before. -/
def cat (rounds : Nat) (buf : CharPtr) : UserProgram Int := do
  let args ← .ask (.getargs 1024)
  let buf := place buf 0 args.bytes
  if args.ret ≠ 0 then do
    message rounds "could not read arguments\n"
    return 3
  else do
    let opened ← .ask (.openName buf)
    if opened.ret = -1 then do
      message rounds "file not found\n"
      return 2
    else .loop (copyRound rounds opened.ret 1024 [] "file read failed\n") rounds buf

def SBUFSIZE : Nat := 33

/-- ece391ls.c -/
def ls (rounds : Nat) (buf : CharPtr) : UserProgram Int := do
  let opened ← .ask (.openName (charPtr (text ".")))
  if opened.ret = -1 then do
    message rounds "directory open failed\n"
    return 2
  else
    .loop (copyRound rounds opened.ret (SBUFSIZE - 1 : Nat) [NEWLINE]
      "directory entry read failed\n") rounds buf

/-- The session goes on as before, with a text printed. -/
structure Printed (before : Session) (printed : List UInt8) (after : Session) : Prop where
  screen : after.screen = before.screen ++ printed
  argumentExist : after.argumentExist = before.argumentExist
  typed : after.typed = before.typed
  children : after.children = before.children
  commands : after.commands = before.commands
  terminal : OnTerminal after.pcb

/-- What the reads of `nbytes` bytes on a descriptor deliver until one returns 0 or -1. -/
inductive Delivers (bootBlock : Option Image) (fd nbytes : Int) :
    Pcb → List (List UInt8) → Int → Prop
  | ends {pcb : Pcb} {last : Int} :
      (fileDescriptorTableRead bootBlock pcb fd false nbytes ⟨0, []⟩).1.ret = last →
      last = 0 ∨ last = -1 → Delivers bootBlock fd nbytes pcb [] last
  | more {pcb : Pcb} {chunk : List UInt8} {chunks : List (List UInt8)} {last : Int} :
      (fileDescriptorTableRead bootBlock pcb fd false nbytes ⟨0, []⟩).1 =
        ⟨chunk.length, chunk⟩ →
      chunk ≠ [] → chunk.length < 2 ^ 30 →
      Delivers bootBlock fd nbytes
        (fileDescriptorTableRead bootBlock pcb fd false nbytes ⟨0, []⟩).2 chunks last →
      Delivers bootBlock fd nbytes pcb (chunk :: chunks) last

section Copying

variable {bootBlock : Option Image} {start s : Session} {printed : List UInt8} {fd nbytes : Int}

theorem Printed.refl (on : OnTerminal s.pcb) : Printed s [] s :=
  ⟨(List.append_nil _).symm, rfl, rfl, rfl, rfl, on⟩

theorem Printed.setPcb (before : Printed start printed s) {pcb : Pcb} (on : OnTerminal pcb) :
    Printed start printed (s.setPcb pcb) :=
  ⟨before.screen, before.argumentExist, before.typed, before.children, before.commands, on⟩

theorem Printed.print (before : Printed start printed s) (more : List UInt8) :
    Printed start (printed ++ more) (s.print more) where
  screen := by rw [Session.print, before.screen, List.append_assoc]
  argumentExist := before.argumentExist
  typed := before.typed
  children := before.children
  commands := before.commands
  terminal := before.terminal

theorem Printed.trans {middle later : Session} {more : List UInt8}
    (first : Printed start printed middle) (second : Printed middle more later) :
    Printed start (printed ++ more) later where
  screen := by rw [second.screen, first.screen, List.append_assoc]
  argumentExist := second.argumentExist.trans first.argumentExist
  typed := second.typed.trans first.typed
  children := second.children.trans first.children
  commands := second.commands.trans first.commands
  terminal := second.terminal

/-- What is read to the beginning of a buffer, and what is put behind it. -/
theorem place_place (buf : CharPtr) (bytes ending : List UInt8) :
    (List.range (bytes.length + ending.length)).map
      (place (place buf 0 bytes) bytes.length ending) = bytes ++ ending := by
  apply List.ext_getElem
  · simp
  · intro k _ inside
    rw [List.length_append] at inside
    simp only [List.getElem_map, List.getElem_range, place]
    split
    · next before => simp [before]
    · next behind =>
        have inEnding : k - bytes.length < ending.length := by omega
        simp [List.getElem_append_right (Nat.not_lt.mp behind), inEnding]

section Round

variable {result : Transfer × Pcb} {rounds : Nat} {ending : List UInt8} {failure : String}

/-- A message that a loop can print. -/
structure Printable (rounds : Nat) (string : String) : Prop where
  plain : ∀ c ∈ text string, c ≠ 0
  short : (text string).length < 2 ^ 31
  enough : (text string).length < rounds

theorem copyRound_ends
    (answered : s.serve bootBlock (.read fd nbytes) = some (result.1, s.setPcb result.2))
    (ended : result.1.ret = 0) (buf : CharPtr) :
    (copyRound rounds fd nbytes ending failure buf).run (Session.serve bootBlock) s =
      .returned (.inl 0) (s.setPcb result.2) := by
  rw [copyRound, run_after (run_ask answered)]
  dsimp only
  rw [if_pos ended]
  rfl

theorem copyRound_fails
    (answered : s.serve bootBlock (.read fd nbytes) = some (result.1, s.setPcb result.2))
    (failed : result.1.ret = -1) (on : OnTerminal result.2) (printable : Printable rounds failure)
    (buf : CharPtr) :
    (copyRound rounds fd nbytes ending failure buf).run (Session.serve bootBlock) s =
      .returned (.inl 3) ((s.setPcb result.2).print (text failure)) := by
  have said : (message rounds failure).run (Session.serve bootBlock) (s.setPcb result.2) =
      .returned () ((s.setPcb result.2).print (text failure)) :=
    OnTerminal.run_message on printable.plain printable.enough printable.short
  rw [copyRound, run_after (run_ask answered)]
  dsimp only
  rw [if_neg (by omega), if_pos failed, run_after said]
  rfl

theorem copyRound_copies
    (answered : s.serve bootBlock (.read fd nbytes) = some (result.1, s.setPcb result.2))
    {chunk : List UInt8} (transfer : result.1 = ⟨chunk.length, chunk⟩) (nonempty : chunk ≠ [])
    (fits : chunk.length < 2 ^ 30) (short : ending.length < 2 ^ 30) (on : OnTerminal result.2)
    (buf : CharPtr) :
    (copyRound rounds fd nbytes ending failure buf).run (Session.serve bootBlock) s =
      .returned (.inr (place (place buf 0 chunk) chunk.length ending))
        ((s.setPcb result.2).print (chunk ++ ending)) := by
  have positive := List.length_pos_iff.mpr nonempty
  have write : (s.setPcb result.2).serve bootBlock (.write 1
        (place (place buf 0 chunk) chunk.length ending) (chunk.length + ending.length : Nat)) =
      some (⟨(chunk.length + ending.length : Nat), []⟩,
        (s.setPcb result.2).print ((List.range (chunk.length + ending.length)).map
          (place (place buf 0 chunk) chunk.length ending))) :=
    OnTerminal.serve_write on _ (by omega)
  rw [place_place] at write
  rw [transfer] at answered
  rw [copyRound, run_after (run_ask answered)]
  dsimp only
  rw [if_neg (by omega), if_neg (by omega), Int.toNat_natCast, ← Int.natCast_add,
    run_after (run_ask write)]
  have accepted : ((chunk.length + ending.length : Nat) : Int) ≠ -1 := by omega
  rw [if_neg accepted]
  rfl

end Round

/-- What a loop has still to print. -/
def rest (ending : List UInt8) (failure : String) (chunks : List (List UInt8)) (last : Int) :
    List UInt8 :=
  (chunks.flatMap fun chunk => chunk ++ ending) ++ if last = 0 then [] else text failure

/-- A copy under way: what is printed and what is left to print make up the whole. -/
structure Copying (bootBlock : Option Image) (fd nbytes : Int) (ending : List UInt8)
    (failure : String) (last : Int) (start : Session) (whole : List UInt8)
    (chunks : List (List UInt8)) (t : Session) : Prop where
  delivers : Delivers bootBlock fd nbytes t.pcb chunks last
  other : driverOf t.pcb fd ≠ some .terminalStdin
  printed : ∃ done, Printed start done t ∧ done ++ rest ending failure chunks last = whole

/-- The invariant of the loop; a round takes one chunk. -/
def CopyLeft (bootBlock : Option Image) (fd nbytes : Int) (ending : List UInt8) (failure : String)
    (last : Int) (start : Session) (whole : List UInt8) (_ : CharPtr) (t : Session) (left : Nat) :
    Prop :=
  ∃ chunks, Copying bootBlock fd nbytes ending failure last start whole chunks t ∧
    left = chunks.length

/-- A copy has been made. -/
def Copied (last : Int) (start : Session) (whole : List UInt8) (o : Outcome Syscall Session Int) :
    Prop :=
  ∃ later, o = .returned (if last = 0 then 0 else 3) later ∧ Printed start whole later

theorem Copying.round {chunks : List (List UInt8)} {last : Int} {start t : Session}
    {ending whole : List UInt8} {failure : String} {rounds : Nat}
    (copying : Copying bootBlock fd nbytes ending failure last start whole chunks t)
    (short : ending.length < 2 ^ 30) (printable : Printable rounds failure) (buf : CharPtr) :
    RoundEnds (CopyLeft bootBlock fd nbytes ending failure last start whole)
      (Copied last start whole) chunks.length
      ((copyRound rounds fd nbytes ending failure buf).run (Session.serve bootBlock) t) := by
  obtain ⟨delivers, other, done, printed, rfl⟩ := copying
  have answered : t.serve bootBlock (.read fd nbytes) =
      some ((fileDescriptorTableRead bootBlock t.pcb fd false nbytes ⟨0, []⟩).1,
        t.setPcb (fileDescriptorTableRead bootBlock t.pcb fd false nbytes ⟨0, []⟩).2) :=
    serve_read other
  have terminal : OnTerminal (fileDescriptorTableRead bootBlock t.pcb fd false nbytes ⟨0, []⟩).2 :=
    printed.terminal.read ..
  cases delivers with
  | ends ret ended =>
      rcases ended with rfl | rfl
      · rw [copyRound_ends answered ret]
        refine ⟨_, rfl, ?_⟩
        rw [rest, List.flatMap_nil, if_pos rfl, List.append_nil, List.append_nil]
        exact printed.setPcb terminal
      · rw [copyRound_fails answered ret terminal printable]
        refine ⟨_, rfl, ?_⟩
        rw [rest, List.flatMap_nil, if_neg (by decide), List.nil_append]
        exact (printed.setPcb terminal).print _
  | @more _ chunk chunks' _ transfer nonempty fits following =>
      rw [copyRound_copies answered transfer nonempty fits short terminal]
      refine ⟨chunks'.length, Nat.lt_succ_self _, chunks', ⟨following, ?_,
        done ++ (chunk ++ ending), (printed.setPcb terminal).print _, ?_⟩, rfl⟩
      · intro stdin
        exact other ((driver_read t.pcb fd nbytes ⟨0, []⟩ fd).symm.trans stdin)
      · rw [rest, rest, List.flatMap_cons]
        simp only [List.append_assoc]

/-- A loop over all that a descriptor delivers. -/
theorem Delivers.copies {chunks : List (List UInt8)} {last : Int}
    (delivers : Delivers bootBlock fd nbytes s.pcb chunks last)
    (other : driverOf s.pcb fd ≠ some .terminalStdin) (on : OnTerminal s.pcb)
    (ending : List UInt8) (short : ending.length < 2 ^ 30) {failure : String} {rounds : Nat}
    (printable : Printable rounds failure) (enough : chunks.length < rounds) (buf : CharPtr) :
    Copied last s (rest ending failure chunks last)
      ((Program.loop (copyRound rounds fd nbytes ending failure) rounds buf).run
        (Session.serve bootBlock) s) := by
  have start : Copying bootBlock fd nbytes ending failure last s (rest ending failure chunks last)
      chunks s := ⟨delivers, other, [], .refl on, rfl⟩
  have kept {buf : CharPtr} {t : Session} {left : Nat} (inside : CopyLeft bootBlock fd nbytes ending
      failure last s (rest ending failure chunks last) buf t left) :
      RoundEnds
        (CopyLeft bootBlock fd nbytes ending failure last s (rest ending failure chunks last))
        (Copied last s (rest ending failure chunks last)) left
        ((copyRound rounds fd nbytes ending failure buf).run (Session.serve bootBlock) t) := by
    obtain ⟨chunks, copying, rfl⟩ := inside
    exact copying.round short printable buf
  exact loop_rule kept ⟨chunks, start, rfl⟩ enough

end Copying

section Delivered

variable {img : Image} {pcb : Pcb} {slot : Fin MAX_NUM_FILES} {inode : Int} {pos size : Nat}

/-- A regular file is delivered in pieces. -/
theorem delivers_file (wellFormed : img.WellFormed)
    (valid : 0 < inode ∧ inode.toNat < img.inodeCount) (positive : 0 < size) (small : size < 2 ^ 30)
    (reading : ReadingAt pcb slot inode pos) :
    Delivers (some img) slot.val size pcb
      (chunks size ((img.fileBytes inode.toNat).drop pos)) 0 := by
  generalize left : img.fileLength inode.toNat - pos = bytes
  induction bytes using Nat.strong_induction_on generalizing pcb pos with
  | _ bytes ih =>
      have fits : size < 2 ^ 31 := by omega
      obtain ⟨transfer, _, next⟩ := read_step ⟨0, []⟩ wellFormed valid reading fits
      rw [left] at transfer next
      have length : ((img.fileBytes inode.toNat).drop pos).length = bytes := by
        rw [List.length_drop, Image.fileBytes_length, left]
      rcases Nat.eq_zero_or_pos bytes with none | some_
      · have nothing : (img.fileBytes inode.toNat).drop pos = [] :=
          List.eq_nil_of_length_eq_zero (length.trans none)
        rw [nothing, chunks_nil]
        refine .ends ?_ (.inl rfl)
        rw [transfer, none, Nat.min_zero]
        rfl
      · have nonempty : (img.fileBytes inode.toNat).drop pos ≠ [] :=
          List.ne_nil_of_length_pos (by omega)
        have chunk : slice (img.fileByte inode.toNat) pos (pos + min size bytes) =
            ((img.fileBytes inode.toNat).drop pos).take size := by
          rw [slice_eq_take_drop (n := img.fileLength inode.toNat) _ (by omega),
            Nat.add_sub_cancel_left, ← Image.fileBytes, List.take_eq_take_iff, length]
          omega
        have count :
            (((img.fileBytes inode.toNat).drop pos).take size).length = min size bytes := by
          rw [List.length_take, length]
        rw [if_pos (by omega)] at next
        rw [chunk] at transfer
        rw [chunks_eq nonempty positive, List.drop_drop]
        refine .more (by rw [count]; exact transfer) ?_ (by omega) ?_
        · exact List.ne_nil_of_length_pos (by omega)
        · exact ih (bytes - size) (by omega) next (by omega)

/-- A directory is delivered entry by entry, 17 of them at most. -/
theorem delivers_directory (valid : inode ≠ -1) (positive : 0 < size) (small : size < 2 ^ 30)
    (listing : ListingAt pcb slot inode pos) (inside : pos ≤ min 17 img.inodeCount) :
    Delivers (some img) slot.val size pcb
      ((List.range' pos (min 17 img.inodeCount - pos)).map fun k =>
        img.bytes (Image.direntryAddr k) size)
      (if 18 ≤ img.inodeCount then 0 else -1) := by
  have accepted : ¬ (inode = -1 ∨ false) := by simpa using valid
  have word : toUint32 (size : Int) = size := toUint32_natCast (by omega)
  generalize left : min 17 img.inodeCount - pos = entries
  induction entries generalizing pcb pos with
  | zero =>
      have read := (request_listing img ⟨0, []⟩ listing ⟨false, size⟩).1
      rw [dirRead_eq accepted] at read
      refine .ends (congrArg Transfer.ret read |>.trans ?_) (by split <;> simp)
      split
      · next past => rw [if_neg (by omega)]; rfl
      · next more => rw [if_pos (show 18 ≤ pos + 1 by omega), if_pos (by omega)]
  | succ entries ih =>
      obtain ⟨read, next⟩ := request_listing img ⟨0, []⟩ listing ⟨false, size⟩
      rw [dirRead_eq accepted, if_neg (by omega), word] at read next
      have bytes : (img.bytes (Image.direntryAddr pos) size).length = size := by simp [Image.bytes]
      have ret : toInt32 size = size := toInt32_small (by omega)
      rw [if_neg (by omega), ret] at read
      rw [List.range'_succ, List.map_cons]
      refine .more (by rw [bytes]; exact read) ?_ (by omega) ?_
      · exact List.ne_nil_of_length_pos (by omega)
      · exact ih next (by omega) (by omega)

/-- The clock is read, with nothing delivered. -/
theorem delivers_rtc (bound : (pcb.fileDescriptorArray slot).fileOps = some .rtc) (nbytes : Int) :
    Delivers (some img) slot.val nbytes pcb [] 0 := by
  have read := request_run img ⟨0, []⟩ bound rfl ⟨false, nbytes⟩
  exact .ends (congrArg (·.1.ret) read) (.inl rfl)

/-- No read of a file gets through without an inode in range. -/
theorem delivers_nothing (reading : ReadingAt pcb slot inode pos)
    (invalid : inode = 0 ∨ img.inodeCount ≤ toUint32 inode ∨ inode < 0) (nbytes : Int) :
    Delivers (some img) slot.val nbytes pcb [] (-1) := by
  have read := (request_reading img ⟨0, []⟩ reading ⟨false, nbytes⟩).1
  refine .ends (congrArg Transfer.ret read |>.trans ?_) (.inr rfl)
  rcases invalid with rfl | rejected
  · simp [fileRead, Transfer.failed]
  · by_cases zero : inode = 0
    · simp [fileRead, Transfer.failed, zero]
    · simp [fileRead, readData, Transfer.failed, zero, rejected]

/-- A name that is found is opened while a descriptor is free. -/
theorem open_found {filename : Option CharPtr} {dirEntry : DirEntry} {ops : FileOps}
    (free : ¬ AllBusy pcb) (found : readDentryByName (some img) filename = some dirEntry)
    (typed : opsOfType dirEntry.filetype = some ops) :
    ∃ slot : Fin MAX_NUM_FILES, (fileDescriptorTableOpen (some img) pcb filename).1 = slot.val ∧
      (fileDescriptorTableOpen (some img) pcb filename).2.fileDescriptorArray slot =
        { fileOps := some ops, inode := toInt32 dirEntry.inodeNum, filePos := 0, flags := 1 } := by
  refine open_bound found typed fun failed => ?_
  have outcome := fileDescriptorTableOpen_opened (some img) pcb filename
  generalize fileDescriptorTableOpen (some img) pcb filename = result at outcome failed
  cases outcome with
  | full busy => exact free busy
  | missing _ _ none => exact absurd (found.symm.trans none) (by simp)
  | untyped | bound => simp at failed

/-- And a name that is not found is refused. -/
theorem open_missing {filename : Option CharPtr}
    (missing : readDentryByName (some img) filename = none) :
    (fileDescriptorTableOpen (some img) pcb filename).1 = -1 := by
  have outcome := fileDescriptorTableOpen_opened (some img) pcb filename
  generalize fileDescriptorTableOpen (some img) pcb filename = result at outcome
  cases outcome with
  | full busy => rfl
  | missing => rfl
  | untyped _ _ found => exact absurd (missing.symm.trans found) (by simp)
  | bound _ _ found => exact absurd (missing.symm.trans found) (by simp)

end Delivered

/-- What is printed of a directory, entry by entry, and what is returned. -/
def directoryText (img : Image) (size : Nat) (ending : List UInt8) (failure : String) :
    Int × List UInt8 :=
  let entries := (List.range (min 17 img.inodeCount)).flatMap fun k =>
    img.bytes (Image.direntryAddr k) size ++ ending
  if 18 ≤ img.inodeCount then (0, entries) else (3, entries ++ text failure)

/-- What cat returns and prints for the answer of the directory search. -/
def catText (img : Image) : Option DirEntry → Int × List UInt8
  | none => (2, text "file not found\n")
  | some dirEntry =>
      if dirEntry.filetype = TYPE_FILE then
        if 0 < dirEntry.inodeNum ∧ dirEntry.inodeNum < img.inodeCount then
          (0, img.fileBytes dirEntry.inodeNum)
        else (3, text "file read failed\n")
      else if dirEntry.filetype = TYPE_DIRECTORY then
        directoryText img 1024 [] "file read failed\n"
      else (0, [])

/-- An argument that `execute` has stored. -/
structure HasArgument (s : Session) (word : List UInt8) : Prop where
  given : s.argumentExist ≠ 0
  stored : s.pcb.argBuf = padded word
  fits : word.length < MAX_ARG_LENGTH
  nonzero : ∀ c ∈ word, c ≠ 0

section Results

variable {img : Image} {s : Session} {word : List UInt8} {buf : CharPtr}

/-- A text that is copied with its NUL. -/
theorem spells_copied {t : List UInt8} {p : CharPtr} (spells : Spells p 0 t) :
    (List.range (t.length + 1)).map p = t ++ [0] := by
  have nul := spells.nul
  rw [Nat.zero_add] at nul
  rw [List.range_succ, List.map_append, List.map_singleton, nul, List.append_cancel_right_eq]
  apply List.ext_getElem
  · simp
  · intro k _ inside
    have char := (spells.char k inside).1
    rw [Nat.zero_add] at char
    rw [List.getElem_map, List.getElem_range, char]

theorem HasArgument.getargs (has : HasArgument s word) {nbytes : Int}
    (enough : (word.length : Int) ≤ nbytes) :
    getargs s.argumentExist s.pcb nbytes = ⟨0, word ++ [0]⟩ := by
  have spells := Kernel.spells_padded has.fits has.nonzero
  have fits := has.fits
  simp only [MAX_ARG_LENGTH] at fits
  have length : toInt32 (strlen (charPtr (padded word))) = word.length := by
    rw [spells.strlen_eq (by omega), toInt32_small (by omega)]
  have count : ((word.length : Int) + 1).toNat = word.length + 1 := by omega
  simp only [Programs.getargs, if_neg has.given, has.stored, length, count, spells_copied spells,
    if_neg (Int.not_lt.mpr enough)]

/-- The argument in the buffer, as `open` is given it. -/
theorem HasArgument.spells (has : HasArgument s word) (buf : CharPtr) :
    Spells (place buf 0 (word ++ [0])) 0 word where
  char k inside := by
    have longer : k < (word ++ [0]).length := by
      rw [List.length_append]
      omega
    refine ⟨?_, has.nonzero _ (List.getElem_mem inside)⟩
    rw [Nat.zero_add, place, if_neg (Nat.not_lt_zero k), Nat.sub_zero,
      List.getElem?_eq_getElem longer, Option.getD_some, List.getElem_append_left inside]
  nul := by simp [place]

/-- The search for it is exact. -/
theorem HasArgument.exact (has : HasArgument s word) (padded : img.NamesPadded) (buf : CharPtr) :
    ExactAnswer img word
      (readDentryByName (some img) (some (place buf 0 (word ++ [0])))) := by
  rw [readDentryByName_exact_iff padded (has.spells buf)]
  rintro ⟨index, _, full, _, read⟩
  have fits := has.fits
  rw [read, List.length_append, full, List.length_singleton] at fits
  exact absurd fits (by decide)

/-- A message fits in 32 characters. -/
theorem printable_of_short {string : String} (plain : ∀ c ∈ text string, c ≠ 0)
    (short : (text string).length < 32) {rounds : Nat} (enough : 32 ≤ rounds) :
    Printable rounds string :=
  ⟨plain, by omega, by omega⟩

theorem rest_copied (failure : String) (chunks : List (List UInt8)) :
    rest [] failure chunks 0 = chunks.flatten := by
  simp [rest, List.flatMap_def]

/-- The text of a directory as it is delivered. -/
theorem directoryText_eq (img : Image) (size : Nat) (ending : List UInt8) (failure : String) :
    let last : Int := if 18 ≤ img.inodeCount then 0 else -1
    directoryText img size ending failure =
      (if last = 0 then 0 else 3,
        rest ending failure ((List.range' 0 (min 17 img.inodeCount - 0)).map fun k =>
          img.bytes (Image.direntryAddr k) size) last) := by
  intro last
  rw [directoryText, rest, List.flatMap_map, Nat.sub_zero, ← List.range_eq_range']
  simp only [last]
  split <;> simp

/-- From the start of an entry to its end. -/
theorem delivers_entry {pcb : Pcb} {slot : Fin MAX_NUM_FILES} {dirEntry : DirEntry} {ops : FileOps}
    (wellFormed : img.WellFormed) (typed : opsOfType dirEntry.filetype = some ops)
    (small : dirEntry.inodeNum < 2 ^ 32 - 1)
    (opened : pcb.fileDescriptorArray slot =
      { fileOps := some ops, inode := toInt32 dirEntry.inodeNum, filePos := 0, flags := 1 }) :
    ∃ chunks last, Delivers (some img) slot.val 1024 pcb chunks last ∧ chunks.length ≤ 4092 ∧
      catText img (some dirEntry) =
        (if last = 0 then 0 else 3, rest [] "file read failed\n" chunks last) := by
  have count : img.inodeCount < 2 ^ 31 := by
    have fits := wellFormed.fits
    simp only [BLOCK_SIZE] at fits
    omega
  by_cases file : dirEntry.filetype = TYPE_FILE
  · obtain rfl : FileOps.file = ops := by simpa [opsOfType, file] using typed
    have reading : ReadingAt pcb slot (toInt32 dirEntry.inodeNum) 0 := by
      constructor <;> rw [opened]
    by_cases valid : 0 < dirEntry.inodeNum ∧ dirEntry.inodeNum < img.inodeCount
    · have inode : toInt32 dirEntry.inodeNum = dirEntry.inodeNum := toInt32_small (by omega)
      rw [inode] at reading
      have positive : 0 < 1024 := by decide
      have small : 1024 < 2 ^ 30 := by decide
      have delivers := delivers_file wellFormed ⟨by omega, by simpa using valid.2⟩ positive small
        reading
      rw [List.drop_zero, Int.toNat_natCast] at delivers
      refine ⟨_, _, delivers, ?_, ?_⟩
      · have few := length_chunks_lt (n := 1024) (by decide) (img.fileBytes dirEntry.inodeNum)
        have length := wellFormed.length _ valid.2
        simp only [BLOCK_SIZE] at length
        rw [Image.fileBytes_length] at few
        omega
      · rw [rest_copied, (chunks_spec (by decide) _).1, catText, if_pos file, if_pos valid,
          if_pos rfl]
    · refine ⟨_, _, delivers_nothing reading ?_ _, Nat.zero_le _, ?_⟩
      · by_cases zero : dirEntry.inodeNum = 0
        · exact .inl (by rw [zero]; rfl)
        · refine .inr (.inl ?_)
          simp only [toUint32, toInt32]
          omega
      · rw [catText, if_pos file, if_neg valid]
        rfl
  · by_cases directory : dirEntry.filetype = TYPE_DIRECTORY
    · rw [opsOfType, if_neg file, if_pos directory] at typed
      cases typed
      have listing : ListingAt pcb slot (toInt32 dirEntry.inodeNum) 0 := by
        constructor <;> rw [opened]
      have inode : toInt32 dirEntry.inodeNum ≠ -1 := by
        rw [Ne, toInt32_eq_neg_one (by omega)]
        omega
      have positive : 0 < 1024 := by decide
      have small : 1024 < 2 ^ 30 := by decide
      have delivers := delivers_directory inode positive small listing
        (Nat.zero_le (min 17 img.inodeCount))
      refine ⟨_, _, delivers, by simp, ?_⟩
      rw [catText, if_neg file, if_pos directory, directoryText_eq]
    · obtain ⟨_, rfl⟩ : dirEntry.filetype = TYPE_RTC ∧ FileOps.rtc = ops := by
        simpa [opsOfType, file, directory] using typed
      refine ⟨_, _, delivers_rtc (by rw [opened]) _, Nat.zero_le _, ?_⟩
      rw [catText, if_neg file, if_neg directory]
      rfl

/-- The kinds of entries are those of a padded directory, and no inode number is -1. -/
structure Openable (img : Image) : Prop where
  wellFormed : img.WellFormed
  padded : img.NamesPadded
  inode : ∀ index < MAX_DIRECTORY_NUMBER, (img.direntries index).inodeNum ≠ 0xFFFFFFFF

/-- Of every entry it is known how it is opened. -/
theorem Openable.typed (openable : Openable img) {filename : Option CharPtr} {dirEntry : DirEntry}
    (found : readDentryByName (some img) filename = some dirEntry) :
    (∃ ops, opsOfType dirEntry.filetype = some ops) ∧ dirEntry.inodeNum < 2 ^ 32 - 1 := by
  obtain ⟨index, inside, rfl⟩ := readDentryByName_entry found
  constructor
  · rcases openable.padded.filetype index inside with kind | kind | kind <;> rw [kind] <;>
      exact ⟨_, rfl⟩
  · have word : (img.direntries index).inodeNum < 2 ^ 32 := img.u32_lt _
    have valid := openable.inode index inside
    omega

/-- No entry is opened as a terminal. -/
theorem driver_of_typed {filetype : Nat} {ops : FileOps} (typed : opsOfType filetype = some ops)
    {pcb : Pcb} {slot : Fin MAX_NUM_FILES}
    (bound : (pcb.fileDescriptorArray slot).fileOps = some ops) :
    driverOf pcb slot.val ≠ some .terminalStdin := by
  have index : descriptorIndex slot.val = some slot := descriptorIndex_eq_some.mpr rfl
  rw [driverOf, index, Option.bind_some, bound]
  intro stdin
  cases stdin
  simp only [opsOfType] at typed
  split_ifs at typed <;> cases typed

/-- On every openable image and for every argument: cat looks the argument up exactly, prints the
    file it names, byte for byte, and returns 0.  It says so if there is no such file or if its
    inode is 0 or out of range; of a directory it prints 1024 bytes for each of the first 17
    entries. -/
theorem cat_prints (openable : Openable img) (on : OnTerminal s.pcb) (has : HasArgument s word)
    (free : ¬ AllBusy s.pcb) {rounds : Nat} (enough : 4092 < rounds) (buf : CharPtr) :
    ∃ answer later, ExactAnswer img word answer ∧
      (cat rounds buf).run (Session.serve (some img)) s = .returned (catText img answer).1 later ∧
      Printed s (catText img answer).2 later := by
  have fits := has.fits
  simp only [MAX_ARG_LENGTH] at fits
  have args : s.serve (some img) (.getargs 1024) = some (⟨0, word ++ [0]⟩, s) := by
    rw [Session.serve, has.getargs (by omega)]
  have exact_ := has.exact openable.padded buf
  generalize named : place buf 0 (word ++ [0]) = filename at exact_
  have terminal : OnTerminal (fileDescriptorTableOpen (some img) s.pcb (some filename)).2 :=
    on.opened _
  have opened : s.serve (some img) (.openName filename) =
      some (⟨(fileDescriptorTableOpen (some img) s.pcb (some filename)).1, []⟩,
        s.setPcb (fileDescriptorTableOpen (some img) s.pcb (some filename)).2) := rfl
  refine ⟨readDentryByName (some img) (some filename), ?_⟩
  rw [cat, run_after (run_ask args)]
  dsimp only
  rw [if_neg (not_not.mpr rfl), named, run_after (run_ask opened)]
  dsimp only
  cases found : readDentryByName (some img) (some filename) with
  | none =>
      have missing : Printable rounds "file not found\n" :=
        printable_of_short (by decide +kernel) (by decide +kernel) (by omega)
      rw [open_missing found, if_pos rfl]
      refine ⟨(s.setPcb (fileDescriptorTableOpen (some img) s.pcb (some filename)).2).print
        (text "file not found\n"), found ▸ exact_, ?_, ((Printed.refl on).setPcb terminal).print _⟩
      exact run_after (OnTerminal.run_message terminal missing.plain missing.enough missing.short) _
  | some dirEntry =>
      obtain ⟨⟨ops, typed⟩, small⟩ := openable.typed found
      obtain ⟨slot, fd, descriptor⟩ := open_found free found typed
      obtain ⟨chunks, last, delivers, few, result⟩ :=
        delivers_entry openable.wellFormed typed small descriptor
      have other : driverOf (fileDescriptorTableOpen (some img) s.pcb (some filename)).2 slot.val ≠
          some .terminalStdin :=
        driver_of_typed typed (congrArg FileDescriptor.fileOps descriptor)
      have printable : Printable rounds "file read failed\n" :=
        printable_of_short (by decide +kernel) (by decide +kernel) (by omega)
      obtain ⟨later, runs, printed⟩ := Delivers.copies (s := s.setPcb
        (fileDescriptorTableOpen (some img) s.pcb (some filename)).2) delivers other terminal
        [] (by decide) printable (Nat.lt_of_le_of_lt few enough) filename
      rw [fd, if_neg (by omega)]
      refine ⟨later, found ▸ exact_, ?_, ?_⟩
      · rw [result]
        exact runs
      · rw [result]
        exact ((Printed.refl on).setPcb terminal).trans printed

/-- On an openable image with a directory `.`: ls prints the 32 bytes of each of the first 17 name
    fields and a newline behind each, and then either returns 0, without the other entries, or
    fails, where there are fewer than 18 inodes. -/
theorem ls_prints (openable : Openable img) (on : OnTerminal s.pcb) (free : ¬ AllBusy s.pcb)
    {dirEntry : DirEntry}
    (found : readDentryByName (some img) (some (charPtr (text "."))) = some dirEntry)
    (directory : dirEntry.filetype = TYPE_DIRECTORY) {rounds : Nat} (enough : 32 ≤ rounds)
    (buf : CharPtr) :
    ∃ later,
      (ls rounds buf).run (Session.serve (some img)) s =
        .returned (directoryText img FILENAME_LEN [NEWLINE] "directory entry read failed\n").1
          later ∧
      Printed s (directoryText img FILENAME_LEN [NEWLINE] "directory entry read failed\n").2
        later := by
  have typed : opsOfType dirEntry.filetype = some .dir := by
    rw [directory]
    rfl
  have small := (openable.typed found).2
  obtain ⟨slot, fd, descriptor⟩ := open_found free found typed
  have terminal : OnTerminal
      (fileDescriptorTableOpen (some img) s.pcb (some (charPtr (text ".")))).2 := on.opened _
  have opened : s.serve (some img) (.openName (charPtr (text "."))) =
      some (⟨(fileDescriptorTableOpen (some img) s.pcb (some (charPtr (text ".")))).1, []⟩,
        s.setPcb (fileDescriptorTableOpen (some img) s.pcb (some (charPtr (text ".")))).2) := rfl
  have listing : ListingAt
      (fileDescriptorTableOpen (some img) s.pcb (some (charPtr (text ".")))).2 slot
      (toInt32 dirEntry.inodeNum) 0 := by
    constructor <;> rw [descriptor]
  have inode : toInt32 dirEntry.inodeNum ≠ -1 := by
    rw [Ne, toInt32_eq_neg_one (by omega)]
    omega
  have small : FILENAME_LEN < 2 ^ 30 := by decide
  have delivers := delivers_directory inode (by decide) small listing
    (Nat.zero_le (min 17 img.inodeCount))
  have other : driverOf (fileDescriptorTableOpen (some img) s.pcb (some (charPtr (text ".")))).2
      slot.val ≠ some .terminalStdin :=
    driver_of_typed typed (congrArg FileDescriptor.fileOps descriptor)
  have printable : Printable rounds "directory entry read failed\n" :=
    printable_of_short (by decide +kernel) (by decide +kernel) enough
  obtain ⟨later, runs, printed⟩ := Delivers.copies
    (s := s.setPcb (fileDescriptorTableOpen (some img) s.pcb (some (charPtr (text ".")))).2)
    delivers other terminal [NEWLINE] (by decide) printable (by simp; omega) buf
  rw [ls, run_after (run_ask opened)]
  dsimp only
  rw [fd, if_neg (by omega), directoryText_eq]
  exact ⟨later, runs, ((Printed.refl on).setPcb terminal).trans printed⟩

end Results

/-- The directory itself, two programs `shell` and `cat`, and a text of five letters, `f`. -/
def catImage : Image where
  byte addr :=
    -- behind the four entries the directory is empty
    if 320 ≤ addr ∧ addr < 4096 then 0
    else
      ([(0, 4), (4, 2), (8, 2), (64, 0x2E), (96, 1), (128, 0x73), (129, 0x68), (130, 0x65),
        (131, 0x6C), (132, 0x6C), (160, 2), (192, 0x63), (193, 0x61), (194, 0x74), (224, 2),
        (256, 0x66), (288, 2), (292, 1), (4096, 4), (8192, 5), (8196, 1), (12288, 0x7F),
        (12289, 0x45), (12290, 0x4C), (12291, 0x46), (16384, 0x68), (16385, 0x65), (16386, 0x6C),
        (16387, 0x6C), (16388, 0x6F)].lookup addr).getD 0

theorem catImage_openable : Openable catImage where
  wellFormed := .of_short (by decide +kernel) (by decide +kernel)
  padded := ⟨by decide +kernel, by decide +kernel, by decide +kernel⟩
  inode := by decide +kernel

/-- With two inodes, the listing fails after two names. -/
theorem catImage_listed : ∃ later,
    (ls 32 fun _ => 0).run (Session.serve (some catImage)) (newSession freshPcb [] []) =
        .returned (directoryText catImage FILENAME_LEN [NEWLINE]
          "directory entry read failed\n").1 later ∧
      Printed (newSession freshPcb [] []) (directoryText catImage FILENAME_LEN [NEWLINE]
          "directory entry read failed\n").2 later := by
  have found : readDentryByName (some catImage) (some (charPtr (text "."))) =
      some (catImage.direntries 0) := by decide +kernel
  have directory : (catImage.direntries 0).filetype = TYPE_DIRECTORY := by decide +kernel
  obtain ⟨terminal, free⟩ : OnTerminal (fileDescriptorTableInit freshPcb) ∧
      ¬ AllBusy (fileDescriptorTableInit freshPcb) := new_descriptors rfl
  exact ls_prints catImage_openable terminal free found directory (Nat.le_refl 32) _

end LightOS.Programs
