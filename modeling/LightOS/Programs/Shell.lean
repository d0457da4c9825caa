import LightOS.Programs.Session

/-! # The shell

A line is read, the command in it is executed, and the shell says what has become of it.
`dialogue` is what comes out on the terminal when the lines and the ends of the programs are
given, and `shell_answers` says that this is what the shell does, up to the call it waits in.
-/

namespace LightOS.Programs

open Lib Lib.Interaction Filesystem Descriptor
open Kernel (NEWLINE text chars)

/-- `ece391_strcmp`, from index `i` on. -/
def ece391Strcmp (s1 s2 : CharPtr) (i : Nat) : Nat → Option Int
  | 0 => none
  | rounds + 1 =>
      if s1 i = s2 i then if s1 i = 0 then some 0 else ece391Strcmp s1 s2 (i + 1) rounds
      else some (((s1 i).toNat : Int) - (s2 i).toNat)

/-- What the shell says of the end of a program. -/
def report (rounds : Nat) (rval : Int) : UserProgram Unit :=
  if rval = -1 then message rounds "no such command\n"
  else if rval = 256 then message rounds "program terminated by exception\n"
  else if rval ≠ 0 then message rounds "program terminated abnormally\n"
  else return ()

/-- A round of the loop in ece391shell.c. -/
def shellRound (rounds : Nat) (buf : CharPtr) : UserProgram (Int ⊕ CharPtr) := do
  message rounds "391OS> "
  let read ← .ask (.read 0 (BUFSIZE - 1 : Nat))
  let buf := place buf 0 read.bytes
  if read.ret = -1 then do
    message rounds "read from keyboard failed\n"
    return .inl 3
  else
    let last := read.ret.toNat - 1
    let cnt := if 0 < read.ret ∧ buf last = NEWLINE then last else read.ret.toNat
    let buf := Function.update buf cnt 0
    match ece391Strcmp buf (charPtr (text "exit")) 0 rounds with
    | none => .spent
    | some difference =>
        if difference = 0 then return .inl 0
        else if buf 0 = 0 then return .inr buf
        else do
          let executed ← .ask (.execute buf)
          report rounds executed.ret
          return .inr buf

/-- ece391shell.c -/
def shell (rounds : Nat) (buf : CharPtr) : UserProgram Int := do
  message rounds "Starting 391 Shell\n"
  .loop (shellRound rounds) rounds buf

/-- How a dialogue ends: with `exit`, at a prompt, or in a program that has not ended. -/
inductive Ending where
  | exited
  | reading
  | executing (command : List UInt8)

/-- What is printed, and which commands are executed. -/
structure Dialogue where
  printed : List UInt8
  commands : List (List UInt8)
  ending : Ending

/-- A dialogue that begins before another. -/
def Dialogue.behind (later : Dialogue) (printed : List UInt8) (commands : List (List UInt8)) :
    Dialogue :=
  ⟨printed ++ later.printed, commands ++ later.commands, later.ending⟩

def prompt : List UInt8 := text "391OS> "

def verdict (status : Int) : List UInt8 :=
  if status = -1 then text "no such command\n"
  else if status = 256 then text "program terminated by exception\n"
  else if status ≠ 0 then text "program terminated abnormally\n"
  else []

/-- The dialogue over these lines, where the programs return and print this. -/
def dialogue : List (List UInt8) → List (Int × List UInt8) → Dialogue
  | [], _ => ⟨prompt, [], .reading⟩
  | line :: lines, children =>
      let command := line.takeWhile (· ≠ 0)
      if command = text "exit" then ⟨prompt, [], .exited⟩
      else if command = [] then (dialogue lines children).behind prompt []
      else
        match children with
        | [] => ⟨prompt, [], .executing command⟩
        | (status, printed) :: children =>
            (dialogue lines children).behind (prompt ++ printed ++ verdict status) [command]

/-- A line that fits in the buffer of the keyboard, before its newline. -/
structure Enterable (line : List UInt8) : Prop where
  unbroken : NEWLINE ∉ line
  fits : line.length < 128

section Words

variable {s s' : CharPtr} {i : Nat} {t t' line : List UInt8}

/-- `ece391_strcmp` is 0 for the same texts only. -/
theorem ece391Strcmp_spells (spells : Spells s i t) (spells' : Spells s' i t') {rounds : Nat}
    (enough : t'.length < rounds) :
    ∃ difference, ece391Strcmp s s' i rounds = some difference ∧ (difference = 0 ↔ t = t') := by
  induction t' generalizing i t rounds with
  | nil =>
      obtain ⟨rounds, rfl⟩ := Nat.exists_eq_succ_of_ne_zero (Nat.ne_zero_of_lt enough)
      have nul' : s' i = 0 := spells'.nul
      rw [ece391Strcmp, nul']
      cases t with
      | nil =>
          have nul : s i = 0 := spells.nul
          exact ⟨0, by rw [if_pos nul, if_pos nul], by simp⟩
      | cons c t =>
          obtain ⟨here, notNul⟩ := spells.head
          refine ⟨_, by rw [here, if_neg notNul], iff_of_false ?_ (by simp)⟩
          intro same
          rw [Int.sub_eq_zero, Int.natCast_inj, UInt8.toNat_inj] at same
          exact notNul same
  | cons c' t' ih =>
      obtain ⟨rounds, rfl⟩ := Nat.exists_eq_succ_of_ne_zero (Nat.ne_zero_of_lt enough)
      obtain ⟨here', notNul'⟩ := spells'.head
      rw [ece391Strcmp, here']
      cases t with
      | nil =>
          have nul : s i = 0 := spells.nul
          refine ⟨_, by rw [nul, if_neg (Ne.symm notNul')], iff_of_false ?_ (by simp)⟩
          intro same
          rw [Int.sub_eq_zero, Int.natCast_inj, UInt8.toNat_inj] at same
          exact notNul' same.symm
      | cons c t =>
          obtain ⟨here, notNul⟩ := spells.head
          by_cases same : c = c'
          · obtain ⟨difference, result, zero⟩ :=
              ih spells.tail spells'.tail (Nat.lt_of_succ_lt_succ enough)
            refine ⟨difference, ?_, by rw [zero, same]; simp⟩
            rw [here, if_pos same, if_neg notNul, result]
          · refine ⟨_, by rw [here, if_neg same], iff_of_false ?_ (by simp [same])⟩
            intro zero
            rw [Int.sub_eq_zero, Int.natCast_inj, UInt8.toNat_inj] at zero
            exact same zero

/-- A text that is closed by a NUL is spelled up to the first one. -/
theorem spells_upto (held : ∀ k, ∀ inside : k < t.length, s (i + k) = t[k])
    (closed : s (i + t.length) = 0) : Spells s i (t.takeWhile (· ≠ 0)) := by
  induction t generalizing i with
  | nil => exact ⟨fun k inside => absurd inside (Nat.not_lt_zero k), closed⟩
  | cons c t ih =>
      have here : s i = c := held 0 (Nat.succ_pos _)
      by_cases nul : c = 0
      · rw [List.takeWhile_cons_of_neg (by simp [nul])]
        exact ⟨fun k inside => absurd inside (Nat.not_lt_zero k), here.trans nul⟩
      · rw [List.takeWhile_cons_of_pos (by simp [nul])]
        refine .cons here nul (ih ?_ ?_)
        · intro k inside
          have char := held (k + 1) (Nat.succ_lt_succ inside)
          rwa [← Nat.add_assoc, Nat.add_right_comm] at char
        · rwa [List.length_cons, ← Nat.add_assoc, Nat.add_right_comm] at closed

/-- The command as the shell leaves it in its buffer. -/
theorem spells_entered (buf : CharPtr) (line : List UInt8) :
    Spells (Function.update (place buf 0 (line ++ [NEWLINE])) line.length 0) 0
      (line.takeWhile (· ≠ 0)) := by
  apply spells_upto
  · intro k inside
    have longer : k < (line ++ [NEWLINE]).length := by
      rw [List.length_append]
      omega
    rw [Nat.zero_add, Function.update_of_ne (Nat.ne_of_lt inside), place,
      if_neg (Nat.not_lt_zero k), Nat.sub_zero, List.getElem?_eq_getElem longer, Option.getD_some,
      List.getElem_append_left inside]
  · rw [Nat.zero_add, Function.update_self]

/-- Only the empty text begins with its NUL. -/
theorem nul_first_iff (spells : Spells s 0 t) : s 0 = 0 ↔ t = [] := by
  cases t with
  | nil => exact iff_of_true spells.nul rfl
  | cons c t =>
      obtain ⟨here, notNul⟩ := spells.head
      exact iff_of_false (here ▸ notNul) (by simp)

theorem chars_of_spells (spells : Spells s 0 t) (small : t.length < 2 ^ 32) : chars s = t := by
  rw [chars, spells.strlen_eq small]
  apply List.ext_getElem
  · simp
  · intro k _ inside
    have char := (spells.char k inside).1
    rw [Nat.zero_add] at char
    rw [List.getElem_map, List.getElem_range, char]

end Words

/-- Where a dialogue has come to an end. -/
inductive Ended (d : Dialogue) : Outcome Syscall Session Int → Prop
  | exited {s : Session} : d.ending = .exited → s.screen = d.printed → s.commands = d.commands →
      Ended d (.returned 0 s)
  | reading {s : Session} : d.ending = .reading → s.screen = d.printed → s.commands = d.commands →
      Ended d (.waits (.read 0 (BUFSIZE - 1 : Nat)) s)
  | executing {s : Session} {buf : CharPtr} : d.ending = .executing (chars buf) →
      s.screen = d.printed → s.commands = d.commands → Ended d (.waits (.execute buf) s)

/-- The dialogue over the lines that are left comes behind what there is. -/
structure Talks (d : Dialogue) (lines : List (List UInt8)) (s : Session) : Prop where
  terminal : OnTerminal s.pcb
  typed : s.typed = lines.map (· ++ [NEWLINE])
  enterable : ∀ line ∈ lines, Enterable line
  whole : (dialogue lines s.children).behind s.screen s.commands = d

/-- The invariant of the loop; a round takes a line. -/
def Talking (d : Dialogue) (_ : CharPtr) (s : Session) (left : Nat) : Prop :=
  ∃ lines, Talks d lines s ∧ left = lines.length

section Talk

variable {bootBlock : Option Image} {s : Session} {d : Dialogue} {line : List UInt8}
  {lines : List (List UInt8)} {rounds : Nat} {n : Nat}

theorem OnTerminal.serve_waits (on : OnTerminal s.pcb) (none : s.typed = []) (positive : 0 < n)
    (small : n < 2 ^ 31) : s.serve bootBlock (.read 0 n) = .none := by
  have count : toUint32 (n : Int) = n := toUint32_natCast (by omega)
  have nonzero : n ≠ 0 := by omega
  simp only [Session.serve, Session.device, on.driver_stdin, count, none, true_and, ne_eq, nonzero,
    not_false_eq_true, if_true, Option.map_none]

/-- A line comes back with its newline. -/
theorem terminalRead_line (unbroken : NEWLINE ∉ line) (room : line.length < n) :
    terminalRead (line ++ [NEWLINE]) n = ⟨line.length + 1, line ++ [NEWLINE]⟩ := by
  have length : (line ++ [NEWLINE]).length = line.length + 1 := by simp
  have copied : (line ++ [NEWLINE]).take n = line ++ [NEWLINE] :=
    List.take_of_length_le (by omega)
  have found : (line ++ [NEWLINE]).findIdx? (· = NEWLINE) = some line.length := by
    have before : line.findIdx? (· = NEWLINE) = none := by
      rw [List.findIdx?_eq_none_iff]
      intro c inLine
      simpa using ne_of_mem_of_not_mem inLine unbroken
    rw [List.findIdx?_append, before]
    simp
  simp only [terminalRead, copied, found]
  rw [List.take_of_length_le (Nat.le_of_eq length)]

/-- A read of a line. -/
theorem OnTerminal.serve_line (on : OnTerminal s.pcb) {typed : List (List UInt8)}
    (next : s.typed = (line ++ [NEWLINE]) :: typed) (enterable : Enterable line)
    (room : 128 ≤ n) (small : n < 2 ^ 31) :
    ∃ pcb, OnTerminal pcb ∧ s.serve bootBlock (.read 0 n) =
      some (⟨line.length + 1, line ++ [NEWLINE]⟩, { s.setPcb pcb with typed }) := by
  have count : toUint32 (n : Int) = n := toUint32_natCast (by omega)
  have nonzero : n ≠ 0 := by omega
  have answer := terminalRead_line enterable.unbroken (Nat.lt_of_lt_of_le enterable.fits room)
  have slot : descriptorIndex 0 = some ⟨0, by decide⟩ := rfl
  have read : (fileDescriptorTableRead bootBlock s.pcb 0 false n
      ⟨line.length + 1, line ++ [NEWLINE]⟩).1 = ⟨line.length + 1, line ++ [NEWLINE]⟩ := by
    simp only [fileDescriptorTableRead, slot, on.stdin, FileOps.hasRead, if_true, driverRead]
  have terminal : OnTerminal (fileDescriptorTableRead bootBlock s.pcb 0 false n
      ⟨line.length + 1, line ++ [NEWLINE]⟩).2 := on.read ..
  refine ⟨_, terminal, ?_⟩
  simp only [Session.serve, Session.device, on.driver_stdin, count, next, true_and, ne_eq, nonzero,
    not_false_eq_true, if_true, Option.map_some, answer, Call.run, read]

/-- A message of 32 characters at most. -/
theorem OnTerminal.run_short (on : OnTerminal s.pcb) {string : String}
    (plain : ∀ c ∈ text string, c ≠ 0) (short : (text string).length < 33)
    (enough : 33 ≤ rounds) : (message rounds string).run (Session.serve bootBlock) s =
      .returned () (s.print (text string)) :=
  on.run_message plain (Nat.lt_of_lt_of_le short enough) (by omega)

/-- What is said of a program. -/
theorem OnTerminal.run_report (on : OnTerminal s.pcb) (enough : 33 ≤ rounds) (status : Int) :
    (report rounds status).run (Session.serve bootBlock) s =
      .returned () (s.print (verdict status)) := by
  unfold report verdict
  split
  · exact on.run_short (by decide +kernel) (by decide +kernel) enough
  · split
    · exact on.run_short (by decide +kernel) (by decide +kernel) enough
    · split
      · exact on.run_short (by decide +kernel) (by decide +kernel) enough
      · rw [Session.print, List.append_nil]
        rfl

/-- A round up to the command, which is then in the buffer. -/
theorem OnTerminal.run_shellRound (bootBlock : Option Image) (on : OnTerminal s.pcb)
    {typed : List (List UInt8)} (next : s.typed = (line ++ [NEWLINE]) :: typed)
    (enterable : Enterable line) (enough : 33 ≤ rounds) (buf : CharPtr) :
    ∃ pcb buf', OnTerminal pcb ∧ Spells buf' 0 (line.takeWhile (· ≠ 0)) ∧
      (shellRound rounds buf).run (Session.serve bootBlock) s =
        (if line.takeWhile (· ≠ 0) = text "exit" then return .inl 0
          else if line.takeWhile (· ≠ 0) = [] then return .inr buf'
          else do
            let executed ← .ask (.execute buf')
            report rounds executed.ret
            return .inr buf' : UserProgram (Int ⊕ CharPtr)).run (Session.serve bootBlock)
          { (s.print prompt).setPcb pcb with typed } := by
  have prompted : (message rounds "391OS> ").run (Session.serve bootBlock) s =
      .returned () (s.print prompt) :=
    on.run_short (by decide +kernel) (by decide +kernel) enough
  have still : OnTerminal (s.print prompt).pcb := on
  obtain ⟨pcb, terminal, read⟩ : ∃ pcb, OnTerminal pcb ∧
      (s.print prompt).serve bootBlock (.read 0 (BUFSIZE - 1 : Nat)) =
        some (⟨line.length + 1, line ++ [NEWLINE]⟩, { (s.print prompt).setPcb pcb with typed }) :=
    still.serve_line next enterable (by decide) (by decide)
  have spells := spells_entered buf line
  generalize line.takeWhile (· ≠ 0) = command at spells ⊢
  have exit : Spells (charPtr (text "exit")) 0 (text "exit") := spells_charPtr (by decide +kernel)
  obtain ⟨difference, compared, zero⟩ :=
    ece391Strcmp_spells spells exit (Nat.lt_of_lt_of_le (by decide +kernel) enough)
  have first := nul_first_iff spells
  refine ⟨pcb, _, terminal, spells, ?_⟩
  have last : ((line.length : Int) + 1).toNat - 1 = line.length := by omega
  have newline : place buf 0 (line ++ [NEWLINE]) line.length = NEWLINE := by simp [place]
  have failed : (line.length : Int) + 1 ≠ -1 := by omega
  have some : (0 : Int) < line.length + 1 := by omega
  rw [shellRound, run_after prompted]
  refine (run_after (run_ask read) _).trans ?_
  simp only [last, newline, failed, some, and_self, if_true, if_false, compared, zero, first]

theorem dialogue_cons (line : List UInt8) (lines : List (List UInt8))
    (children : List (Int × List UInt8)) :
    dialogue (line :: lines) children =
      if line.takeWhile (· ≠ 0) = text "exit" then ⟨prompt, [], .exited⟩
      else if line.takeWhile (· ≠ 0) = [] then (dialogue lines children).behind prompt []
      else
        match children with
        | [] => ⟨prompt, [], .executing (line.takeWhile (· ≠ 0))⟩
        | (status, printed) :: children => (dialogue lines children).behind
            (prompt ++ printed ++ verdict status) [line.takeWhile (· ≠ 0)] := by
  cases children <;> rfl

/-- The rest of a dialogue, after a round. -/
theorem Talks.next {later : Session} {printed : List UInt8}
    {commands : List (List UInt8)} (talks : Talks d (line :: lines) s)
    (first : dialogue (line :: lines) s.children =
      (dialogue lines later.children).behind printed commands)
    (terminal : OnTerminal later.pcb) (typed : later.typed = lines.map (· ++ [NEWLINE]))
    (screen : later.screen = s.screen ++ printed)
    (executed : later.commands = s.commands ++ commands) : Talks d lines later where
  terminal := terminal
  typed := typed
  enterable other inside := talks.enterable other (List.mem_cons_of_mem line inside)
  whole := by
    rw [← talks.whole, first, screen, executed]
    simp only [Dialogue.behind, List.append_assoc]

/-- One round of a dialogue: it ends, or a line is done. -/
theorem Talks.round (talks : Talks d lines s) (enough : 33 ≤ rounds) (buf : CharPtr) :
    RoundEnds (Talking d) (Ended d) lines.length
      ((shellRound rounds buf).run (Session.serve bootBlock) s) := by
  have on := talks.terminal
  have whole := talks.whole
  have prompted : (message rounds "391OS> ").run (Session.serve bootBlock) s =
      .returned () (s.print prompt) :=
    on.run_short (by decide +kernel) (by decide +kernel) enough
  cases lines with
  | nil =>
      have still : OnTerminal (s.print prompt).pcb := on
      have unanswered : (s.print prompt).serve bootBlock (.read 0 (BUFSIZE - 1 : Nat)) = none :=
        still.serve_waits talks.typed (by decide) (by decide)
      rw [shellRound, run_after prompted, run_waits (run_ask_waits unanswered)]
      subst whole
      exact .reading rfl rfl (List.append_nil _).symm
  | cons line lines =>
      have enterable := talks.enterable line List.mem_cons_self
      obtain ⟨pcb, buf', terminal, spells, runs⟩ :=
        on.run_shellRound bootBlock talks.typed enterable enough buf
      rw [runs]
      by_cases exits : line.takeWhile (· ≠ 0) = text "exit"
      · rw [if_pos exits]
        have first : dialogue (line :: lines) s.children = ⟨prompt, [], .exited⟩ := by
          rw [dialogue_cons, if_pos exits]
        rw [first] at whole
        subst whole
        exact .exited rfl rfl (List.append_nil _).symm
      · rw [if_neg exits]
        by_cases blank : line.takeWhile (· ≠ 0) = []
        · rw [if_pos blank]
          have first : dialogue (line :: lines) s.children =
              (dialogue lines s.children).behind prompt [] := by
            rw [dialogue_cons, if_neg exits, if_pos blank]
          exact ⟨lines.length, Nat.lt_succ_self _, lines,
            talks.next first terminal rfl rfl (List.append_nil _).symm, rfl⟩
        · rw [if_neg blank]
          have command := chars_of_spells spells (Nat.lt_of_le_of_lt
            (List.takeWhile_sublist _).length_le (Nat.lt_trans enterable.fits (by decide)))
          cases programs : s.children with
          | nil =>
              have unanswered : Session.serve bootBlock
                  { (s.print prompt).setPcb pcb with typed := lines.map (· ++ [NEWLINE]) }
                  (.execute buf') = none := by
                simp only [Session.serve, Session.setPcb, Session.print, programs]
              rw [run_waits (run_ask_waits unanswered)]
              have first : dialogue (line :: lines) s.children =
                  ⟨prompt, [], .executing (chars buf')⟩ := by
                rw [dialogue_cons, if_neg exits, if_neg blank, programs, command]
              rw [first] at whole
              subst whole
              exact .executing rfl rfl (List.append_nil _).symm
          | cons child children =>
              have first : dialogue (line :: lines) s.children = (dialogue lines children).behind
                  (prompt ++ child.2 ++ verdict child.1) [chars buf'] := by
                rw [dialogue_cons, if_neg exits, if_neg blank, programs, command]
              let started : Session :=
                { (s.print prompt).setPcb pcb with typed := lines.map (· ++ [NEWLINE]) }
              let ended : Session :=
                { started.print child.2 with
                  children, commands := s.commands ++ [chars buf'] }
              have answered : started.serve bootBlock (.execute buf') =
                  some (⟨child.1, []⟩, ended) := by
                simp only [started, ended, Session.serve, Session.setPcb, Session.print, programs]
              have behind : OnTerminal ended.pcb := terminal
              have reported : (report rounds child.1).run (Session.serve bootBlock) ended =
                  .returned () (ended.print (verdict child.1)) := behind.run_report enough child.1
              rw [run_after (run_ask answered), run_after reported]
              refine ⟨lines.length, Nat.lt_succ_self _, lines,
                talks.next first behind rfl ?_ rfl, rfl⟩
              simp only [ended, started, Session.print, Session.setPcb, List.append_assoc]

/-- For all lines that can be entered and whatever the programs do, the shell does and says what
    the dialogue has: it executes the commands in their order and no others, it stops at `exit`,
    and it waits for a line, or for a program, where the dialogue ends so. -/
theorem shell_answers (on : OnTerminal s.pcb) (typed : s.typed = lines.map (· ++ [NEWLINE]))
    (enterable : ∀ line ∈ lines, Enterable line) (enough : 33 ≤ rounds)
    (more : lines.length < rounds) (buf : CharPtr) :
    Ended ((dialogue lines s.children).behind (s.screen ++ text "Starting 391 Shell\n") s.commands)
      ((shell rounds buf).run (Session.serve bootBlock) s) := by
  have greeted : (message rounds "Starting 391 Shell\n").run (Session.serve bootBlock) s =
      .returned () (s.print (text "Starting 391 Shell\n")) :=
    on.run_short (by decide +kernel) (by decide +kernel) enough
  rw [shell, run_after greeted]
  have kept {d : Dialogue} {buf : CharPtr} {s : Session} {left : Nat}
      (talking : Talking d buf s left) : RoundEnds (Talking d) (Ended d) left
        ((shellRound rounds buf).run (Session.serve bootBlock) s) := by
    obtain ⟨lines, talks, rfl⟩ := talking
    exact talks.round enough buf
  exact loop_rule kept ⟨lines, ⟨on, typed, enterable, rfl⟩, rfl⟩ more

/-- A command that is not found, a blank line, and `exit`. -/
theorem shell_answers_exit :
    Ended ⟨text "Starting 391 Shell\n391OS> no such command\n391OS> 391OS> ", [text "x"], .exited⟩
      ((shell 33 fun _ => 0).run (Session.serve none) (newSession freshPcb
        [text "x\n", text "\n", text "exit\n"] [(-1, [])])) := by
  have terminal : OnTerminal (fileDescriptorTableInit freshPcb) := (new_descriptors rfl).1
  have typed : (newSession freshPcb [text "x\n", text "\n", text "exit\n"] [(-1, [])]).typed =
      [text "x", [], text "exit"].map (· ++ [NEWLINE]) := rfl
  exact shell_answers terminal typed
    (by
      intro line inside
      have : line = text "x" ∨ line = [] ∨ line = text "exit" := by simpa using inside
      rcases this with rfl | rfl | rfl <;> exact ⟨by decide +kernel, by decide +kernel⟩)
    (Nat.le_refl 33) (by decide) _

end Talk

end LightOS.Programs
