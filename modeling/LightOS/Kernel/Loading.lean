import LightOS.Kernel.ElfOnly

/-! # Loading a program

`execute` copies at most `MAX_FILE_SIZE` bytes of the file to the page of the new process and
does not look at how many it got.  `WholeOrNothing` is what a loader is expected to do;
`loaded_whole_iff` says for which files and calls this one does it.
-/

namespace LightOS.Kernel

open Lib Filesystem Descriptor

/-- The active process has the file in memory from the program start on; behind it memory is as
    it was before. -/
structure LoadedWhole (img : Image) (inode : Nat) (before after : State) : Prop where
  file : ∀ k < img.fileLength inode,
    after.display.mmu.loadByte (VIRTUAL_ADDRESS_PROGRAM_START + k) = some (img.fileByte inode k)
  rest : ∀ k, img.fileLength inode ≤ k → State.inUserPage (VIRTUAL_ADDRESS_PROGRAM_START + k) →
    ∃ pa, after.display.mmu.translate (VIRTUAL_ADDRESS_PROGRAM_START + k) = some pa ∧
      OnFrame after.proc.activePid pa ∧ after.display.mmu.mem pa = before.display.mmu.mem pa

/-- What is started is loaded whole, and what the loader cannot take in full is not started. -/
structure WholeOrNothing (img : Image) (inode : Nat) (before after : State) : Prop where
  started : ∀ entryPoint, after.control = .enterUser entryPoint →
    LoadedWhole img inode before after
  refused : MAX_FILE_SIZE < img.fileLength inode → after.control = .returned (-1)

section Load

variable {s : State} {img : Image} {bootBlock : Option Image} {stack : List UInt8}
  {command : CharPtr} {caller : Context}

/-- A command that passes the checks starts its program, when the pool has a pid. -/
theorem Sound.execute_loads (sound : Sound s) (caller : Context)
    (active : s.proc.activePid ≠ 0) {inode : Int}
    (checked : (s.checkCommand bootBlock stack command).2 = some inode) {pid : Nat}
    (free : (List.range 7).find? (fun i => s.proc.processes i = 0) = some pid) :
    ∃ proc paged entryPoint, s.syscallExecute bootBlock stack command caller =
        ⟨proc,
          { paged with
            mmu := paged.mmu.storeBytes VIRTUAL_ADDRESS_PROGRAM_START
              (readData bootBlock inode 0 false MAX_FILE_SIZE).bytes },
          .enterUser entryPoint⟩ ∧
      proc.activePid = pid ∧ pid ≤ 6 ∧
      Switched s.display paged s.proc.activeTerminal pid := by
  obtain ⟨activePositive, activeSmall⟩ := State.active_range sound active
  obtain ⟨created, lineage⟩ := sound.lineage
  obtain ⟨isFree, inPool⟩ := Proc.free_of_find free
  have child : 4 ≤ pid := by
    by_contra small
    have taken := lineage.reserved pid (by omega)
    simp [taken] at isFree
  obtain ⟨argBuf, argumentExist, _, _, starts⟩ := State.syscallExecute_accepted checked
  obtain ⟨eip, paged, entryPoint, started, switched⟩ := State.startProgram_effect
    (s := ⟨{ s.proc with argBuf, argumentExist }, s.display, s.control⟩) sound.valid.toMapped
    (sound.user active) activePositive activeSmall free (by omega) inPool bootBlock inode caller
  exact ⟨_, paged, entryPoint, (starts caller).trans started, rfl, inPool, switched⟩

/-- Where the addresses from the start of a program on lie. -/
theorem Mmu.translate_program {mmu : Mmu} {pid : Nat} (small : pid ≤ 6)
    (user : mmu.pageDir userIndex = userEntry pid) {k : Nat}
    (inside : State.inUserPage (VIRTUAL_ADDRESS_PROGRAM_START + k)) :
    mmu.translate (VIRTUAL_ADDRESS_PROGRAM_START + k) =
      some (0x800000 + 0x400000 * pid + 0x48000 + k) := by
  have offset : VIRTUAL_ADDRESS_PROGRAM_START + k - VIRTUAL_128MB_START = 0x48000 + k := by
    simp only [VIRTUAL_ADDRESS_PROGRAM_START, VIRTUAL_128MB_START]
    omega
  rw [Mmu.translate_user small user inside.1 inside.2, offset, ← Nat.add_assoc]

/-- A file that the loader can take is in memory whole. -/
theorem loadedWhole {proc : Proc} {paged : Display} {control : Control} {inode : Nat}
    (inRange : inode < img.inodeCount) (fits : img.fileLength inode ≤ MAX_FILE_SIZE)
    (small : proc.activePid ≤ 6)
    (switched : Switched s.display paged s.proc.activeTerminal proc.activePid) :
    LoadedWhole img inode s
      ⟨proc,
        { paged with
          mmu := paged.mmu.storeBytes VIRTUAL_ADDRESS_PROGRAM_START
            (readData (some img) inode 0 false MAX_FILE_SIZE).bytes },
        control⟩ := by
  have bytes : (readData (some img) inode 0 false MAX_FILE_SIZE).bytes =
      slice (img.fileByte inode) 0 (img.fileLength inode) := by
    rw [readData_start inRange, Nat.min_eq_right fits]
  generalize (readData (some img) inode 0 false MAX_FILE_SIZE).bytes = program at bytes ⊢
  have length : program.length = img.fileLength inode := by rw [bytes, slice_length, Nat.sub_zero]
  have start : VIRTUAL_ADDRESS_PROGRAM_START - VIRTUAL_128MB_START = 0x48000 := rfl
  have inPage (k : Nat) (inside : k < program.length) :
      State.inUserPage (VIRTUAL_ADDRESS_PROGRAM_START + k) := by
    rw [length] at inside
    simp only [State.inUserPage, VIRTUAL_ADDRESS_PROGRAM_START, VIRTUAL_128MB_START,
      MAX_FILE_SIZE] at fits ⊢
    omega
  obtain ⟨writes, stored⟩ := Mmu.storeBytes_user small switched.user inPage
  rw [start] at writes stored
  -- where the program's addresses lie
  have place (k : Nat) (inside : State.inUserPage (VIRTUAL_ADDRESS_PROGRAM_START + k)) :
      (paged.mmu.storeBytes VIRTUAL_ADDRESS_PROGRAM_START program).translate
          (VIRTUAL_ADDRESS_PROGRAM_START + k) =
        some (0x800000 + 0x400000 * proc.activePid + 0x48000 + k) := by
    rw [writes.translate, Mmu.translate_program small switched.user inside]
  constructor
  · intro k inside
    rw [← length] at inside
    have byte : program[k] = img.fileByte inode k := by
      rw [List.getElem_of_eq bytes, slice_getElem, Nat.zero_add]
    rw [Mmu.loadByte, place k (inPage k inside), Option.map_some, stored k inside, byte]
  · intro k behind inside
    refine ⟨_, place k inside, ?_, ?_⟩
    · simp only [State.inUserPage, VIRTUAL_ADDRESS_PROGRAM_START, VIRTUAL_128MB_START] at inside
      simp only [OnFrame]
      omega
    · rw [writes.mem _ (by omega), switched.same.mem]

/-- A command that is too long, or has no pid to run under, is refused. -/
theorem Sound.execute_refused (sound : Sound s) (bootBlock : Option Image)
    (able : s.able (.execute stack command caller))
    (refused : ¬ (Accepted command ∧ PidFree s.proc)) :
    (s.syscallExecute bootBlock stack command caller).control = .returned (-1) := by
  have outcome : Outcome bootBlock s (.execute stack command caller)
      (s.syscallExecute bootBlock stack command caller) := State.step_outcome sound able
  generalize s.syscallExecute bootBlock stack command caller = after at outcome ⊢
  cases outcome with
  | rejected failed => rfl
  | full passed noPid notFull => rfl
  | started active passed found child small notFull switched writes =>
      have starts : StartsProgram bootBlock s (.execute stack command caller) :=
        startsProgram_iff.mpr passed
      exact absurd ⟨Int.not_lt.mpr starts.2.1, notFull, by simp [found]⟩ refused
  | fault faulting faults elsewhere => exact absurd faulting id

/-- The inode of a program is one of the image. -/
theorem programInode_inRange {fn : List UInt8} {inode : Int}
    (program : programInode (some img) fn stack = some inode) :
    ∃ number : Nat, inode = number ∧ number < img.inodeCount := by
  unfold programInode at program
  split at program
  · cases program
  · rename_i dentry found
    split at program
    · cases program
    · rename_i regular
      have opened : fileOpen (some img) (some (charPtr fn)) = some (toInt32 dentry.inodeNum) := by
        simp only [fileOpen, found, if_neg regular]
      obtain ⟨index, _, rfl⟩ := readDentryByName_entry found
      have number : (img.direntries index).inodeNum < 2 ^ 32 := img.u32_lt _
      simp only [opened] at program
      split at program
      · rename_i executable
        obtain ⟨signed, inRange⟩ := isExecutable_inRange number executable
        exact ⟨_, (Option.some.inj program).symm.trans signed, inRange⟩
      · cases program

/-- An executable file is loaded whole or not at all if and only if it has at most `MAX_FILE_SIZE`
    bytes, or its command is too long, or no pid is free. -/
theorem loaded_whole_iff {later : State} {buffers : TerminalId → List UInt8}
    {as : List VideoAction} (on : PowerOn s)
    (run : (videoMachine (some img)).Run (s.entry (some img) buffers) as later)
    (running : later.faulted = false) (active : later.proc.activePid ≠ 0) {va : Nat}
    (held : later.display.mmu.HoldsString va command) {inode : Nat}
    (program : programInode (some img) (firstWord (chars command) ++ [0]) stack = some inode) :
    WholeOrNothing img inode later (later.syscallExecute (some img) stack command caller) ↔
      img.fileLength inode ≤ MAX_FILE_SIZE ∨ ¬ Accepted command ∨ ¬ PidFree later.proc := by
  have sound := ((on.entry_videoSound buffers).of_run run running).sound
  have bounded : later.Bounded := (State.entry_bounded buffers s).of_run run
  obtain ⟨number, same, inRange⟩ := programInode_inRange program
  obtain rfl : inode = number := Int.natCast_inj.mp same
  by_cases starts : Accepted command ∧ PidFree later.proc
  · obtain ⟨accepted, free⟩ := starts
    have checked : (later.checkCommand (some img) stack command).2 =
        programInode (some img) (firstWord (chars command) ++ [0]) stack :=
      checkCommand_program free.count (accepted.short (bounded.strlen_lt held))
    obtain ⟨pid, found⟩ := Option.ne_none_iff_exists'.mp free.pool
    obtain ⟨proc, paged, entryPoint, result, rfl, small, switched⟩ :=
      sound.execute_loads caller active (checked.trans program) found
    rw [result]
    constructor
    · intro whole
      by_contra long
      rw [not_or, Nat.not_le] at long
      cases whole.refused long.1
    · rintro (short | refused | full)
      · exact ⟨fun _ _ => loadedWhole inRange short small switched,
          fun long => absurd short (Nat.not_le.mpr long)⟩
      · exact absurd accepted refused
      · exact absurd free full
  · have able : later.able (.execute stack command caller) := ⟨running, active⟩
    have returned := sound.execute_refused (some img) able starts
    refine iff_of_true ⟨fun entryPoint entered => ?_, fun _ => returned⟩ (.inr ?_)
    · rw [returned] at entered
      cases entered
    · exact not_and_or.mp starts

end Load

/-- An image with one executable file, `shell`, of one byte more than `MAX_FILE_SIZE`.  The inode
    lists the one data block 64 times. -/
def bigFileImage : Image where
  byte addr :=
    ([(0, 1), (4, 1), (8, 1), (64, 0x73), (65, 0x68), (66, 0x65), (67, 0x6C), (68, 0x6C), (96, 2),
      (4096, 0x01), (4097, 0xF0), (4098, 0x03), (8192, 0x7F), (8193, 0x45), (8194, 0x4C),
      (8195, 0x46)].lookup addr).getD 0

theorem bigFileImage_length : bigFileImage.fileLength 0 = MAX_FILE_SIZE + 1 := by decide +kernel

theorem bigFileImage_wellFormed : bigFileImage.WellFormed where
  fits := by decide +kernel
  length := by decide +kernel
  blocks := by
    have listed : ∀ index < 64, bigFileImage.dataBlockNum 0 index < bigFileImage.dataCount := by
      decide +kernel
    have one : bigFileImage.inodeCount = 1 := by decide +kernel
    intro inode inRange index inside
    obtain rfl : inode = 0 := by omega
    rw [bigFileImage_length] at inside
    simp only [MAX_FILE_SIZE, BLOCK_SIZE] at inside
    exact listed index (by omega)

/-- It is started all the same, without its last byte. -/
theorem big_file_loaded_in_part : bigFileImage.WellFormed ∧
    ∃ as later, (videoMachine (some bigFileImage)).Run
        (poweredOn.entry (some bigFileImage) (fun _ => [])) as later ∧
      later.faulted = false ∧ later.proc.activePid ≠ 0 ∧
      later.display.mmu.HoldsString VIRTUAL_128MB_START (charPtr (text "shell")) ∧
      programInode (some bigFileImage) (text "shell" ++ [0]) [0, 0, 0, 0] = some 0 ∧ ∀ caller,
        ¬ WholeOrNothing bigFileImage 0 later (later.syscallExecute (some bigFileImage)
          [0, 0, 0, 0] (charPtr (text "shell")) caller) := by
  have program : programInode (some bigFileImage) (text "shell" ++ [0]) [0, 0, 0, 0] = some 0 := by
    decide +kernel
  obtain ⟨as, later, run, running, active, free, held, sound⟩ := poweredOn_powerOn.command_held
    (some bigFileImage) (text "shell") (by decide +kernel) (by decide)
  refine ⟨bigFileImage_wellFormed, as, later, run, running, active, held, program,
    fun caller whole => ?_⟩
  have checked : (later.checkCommand (some bigFileImage) [0, 0, 0, 0]
      (charPtr (text "shell"))).2 = some 0 := by
    rw [checkCommand_program free.count (by decide +kernel),
      show firstWord (chars (charPtr (text "shell"))) = text "shell" by decide +kernel, program]
  obtain ⟨pid, found⟩ := Option.ne_none_iff_exists'.mp free.pool
  obtain ⟨proc, paged, entryPoint, result, _⟩ :=
    sound.execute_loads caller active checked found
  have refused := whole.refused (by rw [bigFileImage_length]; exact Nat.lt_succ_self _)
  rw [result] at refused
  cases refused

theorem shell_loaded_whole_iff : ∃ as later, (videoMachine (some twoFileImage)).Run
        (poweredOn.entry (some twoFileImage) (fun _ => [])) as later ∧ ∀ caller,
      (WholeOrNothing twoFileImage 0 later
          (later.syscallExecute (some twoFileImage) [0, 0, 0, 0] shellWithArgument caller) ↔
        twoFileImage.fileLength 0 ≤ MAX_FILE_SIZE ∨ ¬ Accepted shellWithArgument ∨
          ¬ PidFree later.proc) := by
  obtain ⟨as, later, run, running, active, _, held, _⟩ := poweredOn_powerOn.command_held
    (some twoFileImage) (text "shell x") (by decide +kernel) (by decide)
  exact ⟨as, later, run, fun caller =>
    loaded_whole_iff poweredOn_powerOn run running active held (by decide +kernel)⟩

end LightOS.Kernel
