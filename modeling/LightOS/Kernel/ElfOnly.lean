import LightOS.Filesystem.ExactLookup
import LightOS.Kernel.Parsing

/-! # Only ELF files are executed

`execute` looks the first word of a command up in the directory, reads the first four bytes of the
file into a buffer on the stack, and compares the buffer with the magic number.  `NamesElf` says
for which words this is meant to succeed, `ShortElf` for which the rest of a short file comes from
whatever was on the stack before.
-/

namespace LightOS.Kernel

open Lib Filesystem Descriptor

/-- 0x7f, E, L, F -/
def elfMagic : List UInt8 := [0x7F, 0x45, 0x4C, 0x46]

/-- The inode of a regular file, found under a name: the first entry of the name counts. -/
structure FileNamed (img : Image) (word : List UInt8) (inode : Nat) : Prop where
  nonempty : word ≠ []
  entry : ∃ index, img.HasName word index ∧ (∀ earlier < index, ¬ img.HasName word earlier) ∧
    (img.direntries index).filetype = TYPE_FILE ∧ (img.direntries index).inodeNum = inode
  inRange : inode < img.inodeCount

/-- The word names a file of at least four bytes that begins with the magic number. -/
def NamesElf (img : Image) (word : List UInt8) : Prop :=
  ∃ inode, FileNamed img word inode ∧ 4 ≤ img.fileLength inode ∧
    (img.fileBytes inode).take 4 = elfMagic

/-- The word names a file that ends before the magic number does, and agrees with it so far. -/
def ShortElf (img : Image) (word : List UInt8) : Prop :=
  ∃ inode, FileNamed img word inode ∧ img.fileLength inode < 4 ∧
    img.fileBytes inode = elfMagic.take (img.fileLength inode)

/-- A pid is free: both the counter and the pool of `get_process_available` say so. -/
structure PidFree (proc : Proc) : Prop where
  count : proc.processCount ≠ MAX_NUM_PROCESSES
  pool : (List.range 7).find? (fun i => proc.processes i = 0) ≠ none

/-- `execute` goes on to create a process, and enters it. -/
def StartsProcess (bootBlock : Option Image) (stack : List UInt8) (command : CharPtr)
    (caller : Context) (s : State) : Prop :=
  ∃ entryPoint, (s.syscallExecute bootBlock stack command caller).control = .enterUser entryPoint

section Forest

variable {proc : Proc} {sessions : Sessions}

/-- Where the tables agree, the counter follows the pool. -/
theorem Forest.pidFree_iff (forest : Forest proc sessions) :
    PidFree proc ↔ (List.range 7).find? (fun i => proc.processes i = 0) ≠ none := by
  refine ⟨PidFree.pool, fun free => ⟨fun full => ?_, free⟩⟩
  obtain ⟨pid, found⟩ := Option.ne_none_iff_exists'.mp free
  obtain ⟨isFree, inPool⟩ := Proc.free_of_find found
  have taken : poolCount proc.processes = 6 := by
    have count := forest.count
    rw [full] at count
    exact (Int.natCast_inj.mp count).symm
  have notReserved : 4 ≤ pid := by
    by_contra small
    have reserved := (forest.allocated pid).mpr (.inl (by omega))
    omega
  have all : ∀ pid ∈ List.range' 1 6, decide (proc.processes pid = 1) = true :=
    List.countP_eq_length.mp (taken.trans (List.length_range' ..).symm)
  have one := all pid (List.mem_range'_1.mpr ⟨by omega, by omega⟩)
  rw [decide_eq_true_eq] at one
  omega

end Forest

section Magic

variable {img : Image} {word stack : List UInt8} {inode : Nat}

/-- What is compared: the first bytes of the file, and behind a short file what the stack held. -/
theorem isExecutable_iff (inRange : inode < img.inodeCount) :
    isExecutable (some img) inode stack = true ↔
      ((img.fileBytes inode).take 4 ++ stack.drop (min 4 (img.fileLength inode))).take 4 =
        elfMagic := by
  have read := readData_start inRange 4
  have first : slice (img.fileByte inode) 0 (min 4 (img.fileLength inode)) =
      (img.fileBytes inode).take 4 := by
    rw [slice_eq_take_drop _ (Nat.min_le_right 4 (img.fileLength inode)),
      List.drop_zero, Nat.sub_zero, Image.fileBytes, List.take_eq_take_iff, slice_length]
    omega
  have counted : toInt32 (min 4 (img.fileLength inode)) ≠ -1 := by
    rw [toInt32_small (by omega)]
    omega
  simp only [isExecutable, read, first, if_neg counted, List.length_take, Image.fileBytes_length,
    decide_eq_true_eq]
  rfl

/-- A file of four bytes and more is decided by its own bytes. -/
theorem isExecutable_long (inRange : inode < img.inodeCount) (long : 4 ≤ img.fileLength inode)
    (whole : stack.length = 4) :
    isExecutable (some img) inode stack = true ↔ (img.fileBytes inode).take 4 = elfMagic := by
  rw [isExecutable_iff inRange, Nat.min_eq_left long, List.drop_of_length_le (Nat.le_of_eq whole),
    List.append_nil, List.take_take, Nat.min_self]

/-- A shorter one by its own bytes and by the stack. -/
theorem isExecutable_short (inRange : inode < img.inodeCount) (short : img.fileLength inode < 4)
    (whole : stack.length = 4) :
    isExecutable (some img) inode stack = true ↔
      img.fileBytes inode = elfMagic.take (img.fileLength inode) ∧
        stack.drop (img.fileLength inode) = elfMagic.drop (img.fileLength inode) := by
  have length : (img.fileBytes inode).length = img.fileLength inode := Image.fileBytes_length inode
  rw [isExecutable_iff inRange, Nat.min_eq_right (Nat.le_of_lt short),
    List.take_of_length_le (l := img.fileBytes inode) (by omega), List.take_of_length_le]
  · constructor
    · intro same
      rw [← same, List.take_append_of_le_length (Nat.le_of_eq length.symm),
        List.take_of_length_le (Nat.le_of_eq length),
        List.drop_append_of_le_length (Nat.le_of_eq length.symm),
        List.drop_of_length_le (Nat.le_of_eq length), List.nil_append]
      exact ⟨rfl, rfl⟩
    · rintro ⟨first, rest⟩
      rw [first, rest, List.take_append_drop]
  · rw [List.length_append, List.length_drop, length, whole]
    omega

end Magic

section Lookup

variable {img : Image} {word stack : List UInt8}

/-- There is one first entry of a name. -/
theorem first_unique {index other : Nat} (names : img.HasName word index)
    (first : ∀ earlier < index, ¬ img.HasName word earlier) (names' : img.HasName word other)
    (first' : ∀ earlier < other, ¬ img.HasName word earlier) : index = other := by
  rcases Nat.lt_trichotomy index other with less | same | more
  · exact absurd names (first' index less)
  · exact same
  · exact absurd names' (first other more)

theorem FileNamed.unique {inode other : Nat} (named : FileNamed img word inode)
    (named' : FileNamed img word other) : inode = other := by
  obtain ⟨index, names, first, _, isInode⟩ := named.entry
  obtain ⟨index', names', first', _, isInode'⟩ := named'.entry
  rw [← isInode, ← isInode', first_unique names first names' first']

/-- An inode number that `read_data` takes is in range. -/
theorem isExecutable_inRange {number : Nat} (small : number < 2 ^ 32)
    (executable : isExecutable (some img) (toInt32 number) stack = true) :
    toInt32 number = number ∧ number < img.inodeCount := by
  have taken : ¬ (img.inodeCount ≤ toUint32 (toInt32 number) ∨ toInt32 number < 0) := by
    intro rejected
    have failed : readData (some img) (toInt32 number) 0 false 4 = .failed := by
      simp only [readData, if_pos rejected, Bool.false_eq_true, if_false]
    simp [isExecutable, failed, Transfer.failed] at executable
  simp only [toInt32, toUint32] at taken ⊢
  omega

theorem wellFormed_inode_small (wellFormed : img.WellFormed) {number : Nat}
    (inRange : number < img.inodeCount) : toInt32 number = number := by
  have fits := wellFormed.fits
  simp only [BLOCK_SIZE] at fits
  exact toInt32_small (by omega)

/-- The directory search on a word of at most 32 characters. -/
theorem readDentryByName_word (nonzero : ∀ c ∈ word, c ≠ 0) (fits : word.length ≤ 32) :
    readDentryByName (some img) (some (charPtr (word ++ [0]))) =
      if word = [] then none
      else ((List.range MAX_DIRECTORY_NUMBER).find? fun index =>
        (img.direntries index).name = word).map img.direntries := by
  have same : charPtr (word ++ [0]) = charPtr word := by
    funext k
    simp only [charPtr]
    rcases Nat.lt_or_ge k word.length with before | behind
    · rw [List.getD_append _ _ _ _ before]
    · rw [List.getD_append_right _ _ _ _ behind, List.getD_eq_default _ _ behind]
      cases k - word.length with
      | zero => rfl
      | succ n => rfl
  rw [same]
  split
  · rename_i empty
    rw [empty]
    rfl
  · rename_i nonempty
    exact readDentryByName_short (spells_charPtr nonzero) nonempty fits

/-- Where the search finds nothing, no entry has the name. -/
theorem not_found (nonzero : ∀ c ∈ word, c ≠ 0) (fits : word.length ≤ 32)
    (search : readDentryByName (some img) (some (charPtr (word ++ [0]))) = none)
    (nonempty : word ≠ []) (index : Nat) : ¬ img.HasName word index := by
  rintro ⟨inside, named⟩
  rw [readDentryByName_word nonzero fits, if_neg nonempty, Option.map_eq_none_iff,
    List.find?_eq_none] at search
  exact search index (List.mem_range.mpr inside) (by simpa using named)

/-- The search finds the first entry of the name. -/
theorem found_first (nonzero : ∀ c ∈ word, c ≠ 0) (fits : word.length ≤ 32) {dentry : DirEntry}
    (search : readDentryByName (some img) (some (charPtr (word ++ [0]))) = some dentry) :
    word ≠ [] ∧ ∃ index, img.HasName word index ∧
      (∀ earlier < index, ¬ img.HasName word earlier) ∧ dentry = img.direntries index := by
  rw [readDentryByName_word nonzero fits] at search
  split at search
  · cases search
  · rename_i nonempty
    obtain ⟨index, found, rfl⟩ := Option.map_eq_some_iff.mp search
    obtain ⟨named, inside, first⟩ := List.find?_range_eq_some.mp found
    refine ⟨nonempty, index, ⟨List.mem_range.mp inside, of_decide_eq_true named⟩, ?_, rfl⟩
    rintro earlier before ⟨_, named'⟩
    simpa [named'] using first earlier before

/-- The checks of `execute` on a word of at most 32 characters. -/
theorem programInode_iff (wellFormed : img.WellFormed) (nonzero : ∀ c ∈ word, c ≠ 0)
    (fits : word.length ≤ 32) :
    programInode (some img) (word ++ [0]) stack ≠ none ↔
      ∃ inode, FileNamed img word inode ∧ isExecutable (some img) inode stack = true := by
  cases search : readDentryByName (some img) (some (charPtr (word ++ [0]))) with
  | none =>
      simp only [programInode, search, ne_eq, not_true, false_iff]
      rintro ⟨inode, named, _⟩
      obtain ⟨index, names, _⟩ := named.entry
      exact not_found nonzero fits search named.nonempty index names
  | some dentry =>
      obtain ⟨nonempty, index, names, first, rfl⟩ := found_first nonzero fits search
      have opened : fileOpen (some img) (some (charPtr (word ++ [0]))) =
          if (img.direntries index).filetype ≠ TYPE_FILE then none
          else some (toInt32 (img.direntries index).inodeNum) := by
        simp only [fileOpen, search]
      have only {inode : Nat} (named : FileNamed img word inode) :
          (img.direntries index).filetype = TYPE_FILE ∧
            (img.direntries index).inodeNum = inode := by
        obtain ⟨index', names', first', found⟩ := named.entry
        rw [first_unique names first names' first']
        exact found
      by_cases regular : (img.direntries index).filetype = TYPE_FILE
      · simp only [programInode, search, opened, regular, ne_eq, not_true, if_false]
        have number : (img.direntries index).inodeNum < 2 ^ 32 := img.u32_lt _
        constructor
        · intro found
          have executable : isExecutable (some img)
              (toInt32 (img.direntries index).inodeNum) stack = true := by
            by_contra refused
            simp [refused] at found
          obtain ⟨signed, inRange⟩ := isExecutable_inRange number executable
          rw [signed] at executable
          exact ⟨_, ⟨nonempty, ⟨index, names, first, regular, rfl⟩, inRange⟩, executable⟩
        · rintro ⟨inode, named, executable⟩
          have signed := wellFormed_inode_small wellFormed named.inRange
          rw [(only named).2, signed, executable]
          simp
      · simp only [programInode, search, ne_eq, regular, not_false_eq_true, if_true, not_true,
          false_iff]
        rintro ⟨inode, named, _⟩
        exact regular (only named).1

/-- The decision is about the file alone, whatever the stack holds, if and only if the word does
    not name a short file that agrees with the magic number. -/
theorem decision_iff (wellFormed : img.WellFormed) (nonzero : ∀ c ∈ word, c ≠ 0)
    (fits : word.length ≤ 32) :
    (∀ stack : List UInt8, stack.length = 4 →
      (programInode (some img) (word ++ [0]) stack ≠ none ↔ NamesElf img word)) ↔
      ¬ ShortElf img word := by
  constructor
  · rintro decided ⟨inode, named, short, agrees⟩
    have executable : isExecutable (some img) inode elfMagic = true :=
      (isExecutable_short named.inRange short rfl).mpr ⟨agrees, rfl⟩
    have passed := (programInode_iff wellFormed nonzero fits).mpr ⟨inode, named, executable⟩
    obtain ⟨other, named', long, _⟩ := (decided elfMagic rfl).mp passed
    rw [named.unique named'] at short
    omega
  · intro notShort stack whole
    rw [programInode_iff wellFormed nonzero fits]
    constructor
    · rintro ⟨inode, named, executable⟩
      rcases Nat.lt_or_ge (img.fileLength inode) 4 with short | long
      · obtain ⟨agrees, _⟩ := (isExecutable_short named.inRange short whole).mp executable
        exact absurd ⟨inode, named, short, agrees⟩ notShort
      · exact ⟨inode, named, long, (isExecutable_long named.inRange long whole).mp executable⟩
    · rintro ⟨inode, named, long, magic⟩
      exact ⟨inode, named, (isExecutable_long named.inRange long whole).mpr magic⟩

end Lookup

section Execute

variable {s : State} {img : Image} {bootBlock : Option Image} {stack : List UInt8}
  {command : CharPtr} {caller : Context}

/-- What the checks of a short command come to. -/
theorem checkCommand_program (notFull : s.proc.processCount ≠ MAX_NUM_PROCESSES)
    (short : strlen command ≤ MAX_ARG_LENGTH + 3) :
    (s.checkCommand bootBlock stack command).2 =
      programInode bootBlock (firstWord (chars command) ++ [0]) stack := by
  have bound : strlen command ≤ 36 := short
  have length : (chars command).length = strlen command := by simp [chars]
  have whole : toInt32 (strlen command + 1) = ((strlen command + 1 : Nat) : Int) :=
    toInt32_small (by omega)
  have passed : ¬ (MAX_ARG_LENGTH : Int) + 4 < ((strlen command + 1 : Nat) : Int) := by
    rw [MAX_ARG_LENGTH]
    omega
  obtain ⟨next, first, _, _⟩ := scanWord_spells (spells_chars (s := command) (by omega))
  rw [length] at first
  simp only [State.checkCommand, if_neg notFull, whole, if_neg passed, Int.toNat_natCast, first]

/-- A command that is too long is refused, whatever it names. -/
theorem tooLong_refused (notFull : s.proc.processCount ≠ MAX_NUM_PROCESSES)
    (long : ¬ Accepted command) :
    (s.syscallExecute bootBlock stack command caller).control = .returned (-1) := by
  have refused : (MAX_ARG_LENGTH : Int) + 4 < toInt32 (strlen command + 1) := not_not.mp long
  simp only [State.syscallExecute, State.checkCommand, if_neg notFull, if_pos refused]

/-- With a pid free, the checks decide. -/
theorem startsProcess_iff (bootBlock : Option Image) (sound : Sound s)
    (able : s.able (.execute stack command caller)) (free : PidFree s.proc) :
    (StartsProcess bootBlock stack command caller s ↔
        (s.checkCommand bootBlock stack command).2 ≠ none) ∧
      (¬ StartsProcess bootBlock stack command caller s →
        (s.syscallExecute bootBlock stack command caller).control = .returned (-1)) := by
  have outcome : Outcome bootBlock s (.execute stack command caller)
      (s.syscallExecute bootBlock stack command caller) := State.step_outcome sound able
  unfold StartsProcess
  generalize s.syscallExecute bootBlock stack command caller = after at outcome ⊢
  cases outcome with
  | rejected refused =>
      refine ⟨iff_of_false ?_ (not_not.mpr refused), fun _ => rfl⟩
      rintro ⟨_, entered⟩
      cases entered
  | full passed noPid notFull => exact absurd noPid free.pool
  | started active passed found child small notFull switched writes =>
      exact ⟨iff_of_true ⟨_, rfl⟩ passed, fun refused => absurd ⟨_, rfl⟩ refused⟩
  | fault faulting faults elsewhere => exact absurd faulting id

/-- Only ELF files are executed: for every command that lies in memory in some state of a run of
    the kernel, that is not too long, and whose first word fits and does not name a file that ends
    inside the magic number. -/
theorem only_elf_executed {later : State} {buffers : TerminalId → List UInt8}
    {as : List VideoAction} (wellFormed : img.WellFormed) (on : PowerOn s)
    (run : (videoMachine (some img)).Run (s.entry (some img) buffers) as later)
    (running : later.faulted = false) (active : later.proc.activePid ≠ 0)
    (free : PidFree later.proc) {va : Nat} (held : later.display.mmu.HoldsString va command)
    (accepted : Accepted command) (fits : (firstWord (chars command)).length ≤ 32)
    (notShort : ¬ ShortElf img (firstWord (chars command))) (whole : stack.length = 4) :
    (StartsProcess (some img) stack command caller later ↔
        NamesElf img (firstWord (chars command))) ∧
      (¬ NamesElf img (firstWord (chars command)) →
        (later.syscallExecute (some img) stack command caller).control = .returned (-1)) := by
  have sound := (on.entry_videoSound buffers).of_run run running
  have bounded : later.Bounded := (State.entry_bounded buffers s).of_run run
  have short := accepted.short (bounded.strlen_lt held)
  have nonzero : ∀ c ∈ firstWord (chars command), c ≠ 0 :=
    fun c inWord => chars_nonzero (mem_of_firstWord inWord)
  have decided := (decision_iff wellFormed nonzero fits).mpr notShort stack whole
  have able : later.able (.execute stack command caller) := ⟨running, active⟩
  obtain ⟨creates, returns⟩ := startsProcess_iff (some img) sound.sound able free
  rw [checkCommand_program free.count short, decided] at creates
  exact ⟨creates, fun notElf => returns (mt creates.mp notElf)⟩

end Execute

/-- An image with two files: `shell`, the four bytes of the magic number, and `x`, of no bytes. -/
def twoFileImage : Image where
  byte addr :=
    -- behind the two entries the directory is empty
    if 192 ≤ addr ∧ addr < 4096 then 0
    else
      ([(0, 2), (4, 2), (8, 1), (64, 0x73), (65, 0x68), (66, 0x65), (67, 0x6C), (68, 0x6C), (96, 2),
        (128, 0x78), (160, 2), (164, 1), (4096, 4), (12288, 0x7F), (12289, 0x45), (12290, 0x4C),
        (12291, 0x46)].lookup addr).getD 0

theorem twoFileImage_wellFormed : twoFileImage.WellFormed :=
  .of_short (by decide +kernel) (by decide +kernel)

theorem twoFileImage_shell : FileNamed twoFileImage (text "shell") 0 where
  nonempty := by decide
  entry := ⟨0, ⟨by decide, by decide +kernel⟩,
    fun earlier before => absurd before (Nat.not_lt_zero earlier), by decide +kernel,
    by decide +kernel⟩
  inRange := by decide +kernel

theorem twoFileImage_namesElf : NamesElf twoFileImage (text "shell") :=
  ⟨0, twoFileImage_shell, by decide +kernel, by decide +kernel⟩

/-- `shell` with an argument that makes the command too long. -/
def longCommand : CharPtr := charPtr (text "shell xxxxxxxxxxxxxxxxxxxxxxxxxxxxxxx")

/-- In the shell of terminal 2, with a command in memory. -/
theorem PowerOn.command_held {s : State} (on : PowerOn s) (bootBlock : Option Image)
    (text : List UInt8) (nonzero : ∀ c ∈ text, c ≠ 0) (short : text.length < 4096) :
    ∃ as later, (videoMachine bootBlock).Run (s.entry bootBlock (fun _ => [])) as later ∧
      later.faulted = false ∧ later.proc.activePid ≠ 0 ∧ PidFree later.proc ∧
      later.display.mmu.HoldsString VIRTUAL_128MB_START (charPtr text) ∧ Sound later := by
  have fresh := (on.entry_fresh bootBlock (fun _ => [])).1
  have start : VideoSound (s.entry bootBlock fun _ => []) := on.entry_videoSound _
  obtain ⟨later, run, held, running, active, count, pool⟩ :=
    fresh.command_held bootBlock ⟨0x7FFF00, 0x7FFF80⟩ text nonzero short
  have sound := start.of_run run running
  refine ⟨_, later, run, running, by rw [active]; decide, ⟨by rw [count]; decide, ?_⟩, held,
    sound.sound⟩
  rw [pool]
  decide

/-- A command that names an ELF file is refused when it is too long; and the command `x`, which
    names an empty file, creates a process or not as the stack has it. -/
theorem long_and_short_decided_otherwise :
    (∃ as later, (videoMachine (some twoFileImage)).Run
        (poweredOn.entry (some twoFileImage) (fun _ => [])) as later ∧
      later.faulted = false ∧ later.proc.activePid ≠ 0 ∧ PidFree later.proc ∧
      later.display.mmu.HoldsString VIRTUAL_128MB_START longCommand ∧
      NamesElf twoFileImage (firstWord (chars longCommand)) ∧ ∀ stack caller,
        (later.syscallExecute (some twoFileImage) stack longCommand caller).control =
          .returned (-1)) ∧
    ∃ as later, (videoMachine (some twoFileImage)).Run
        (poweredOn.entry (some twoFileImage) (fun _ => [])) as later ∧
      later.faulted = false ∧ later.proc.activePid ≠ 0 ∧ PidFree later.proc ∧
      later.display.mmu.HoldsString VIRTUAL_128MB_START (charPtr (text "x")) ∧ ∀ caller,
        StartsProcess (some twoFileImage) elfMagic (charPtr (text "x")) caller later ∧
          ¬ StartsProcess (some twoFileImage) [0, 0, 0, 0] (charPtr (text "x")) caller later := by
  constructor
  · obtain ⟨as, later, run, running, active, free, held, _⟩ := poweredOn_powerOn.command_held
      (some twoFileImage) (text "shell xxxxxxxxxxxxxxxxxxxxxxxxxxxxxxx") (by decide +kernel)
      (by decide)
    have names : NamesElf twoFileImage (firstWord (chars longCommand)) := by
      rw [show firstWord (chars longCommand) = text "shell" by decide +kernel]
      exact twoFileImage_namesElf
    exact ⟨as, later, run, running, active, free, held, names,
      fun stack caller => tooLong_refused free.count (by decide +kernel)⟩
  · obtain ⟨as, later, run, running, active, free, held, sound⟩ := poweredOn_powerOn.command_held
      (some twoFileImage) (text "x") (by decide +kernel) (by decide)
    refine ⟨as, later, run, running, active, free, held, fun caller => ⟨?_, ?_⟩⟩
    · rw [(startsProcess_iff _ sound ⟨running, active⟩ free).1,
        checkCommand_program free.count (by decide +kernel)]
      decide +kernel
    · rw [(startsProcess_iff _ sound ⟨running, active⟩ free).1,
        checkCommand_program free.count (by decide +kernel)]
      decide +kernel

theorem shell_command_decided : ∃ as later, (videoMachine (some twoFileImage)).Run
        (poweredOn.entry (some twoFileImage) (fun _ => [])) as later ∧
      later.faulted = false ∧ later.proc.activePid ≠ 0 ∧ PidFree later.proc ∧ ∀ caller,
        (StartsProcess (some twoFileImage) [0, 0, 0, 0] shellWithArgument caller later ↔
            NamesElf twoFileImage (firstWord (chars shellWithArgument))) ∧
          (¬ NamesElf twoFileImage (firstWord (chars shellWithArgument)) →
            (later.syscallExecute (some twoFileImage) [0, 0, 0, 0] shellWithArgument
              caller).control = .returned (-1)) := by
  have word : firstWord (chars shellWithArgument) = text "shell" := by decide +kernel
  have notShort : ¬ ShortElf twoFileImage (firstWord (chars shellWithArgument)) := by
    rintro ⟨inode, named, short, _⟩
    rw [word] at named
    obtain rfl := named.unique twoFileImage_shell
    exact absurd short (by decide +kernel)
  obtain ⟨as, later, run, running, active, free, held, _⟩ := poweredOn_powerOn.command_held
    (some twoFileImage) (text "shell x") (by decide +kernel) (by decide)
  exact ⟨as, later, run, running, active, free, fun caller =>
    only_elf_executed twoFileImage_wellFormed poweredOn_powerOn run running active free held
      (by decide +kernel) (by decide +kernel) notShort rfl⟩

end LightOS.Kernel
