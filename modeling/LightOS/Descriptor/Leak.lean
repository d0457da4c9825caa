import LightOS.Descriptor.Refines
import Mathlib.Data.Int.Interval

/-! # Descriptors that are lost

`file_descriptor_table_open` marks a slot as in use before it looks the name up, and a slot
without an inode cannot be closed.  A process that never opens a missing name while it
has a descriptor to spare keeps all six; one that does loses a descriptor each time.
-/

namespace LightOS.Descriptor

open Lib Filesystem

/-- The calls that take descriptors and give them back. -/
inductive OpenClose
  | openName (filename : Option CharPtr)
  | close (fd : Int)

def OpenClose.call : OpenClose → Call
  | .openName filename => .openName filename
  | .close fd => .close fd

/-- A table together with the descriptors opened successfully and not closed since. -/
structure TableHistory where
  pcb : Pcb
  opened : Finset Int

/-- A table just initialised. -/
def TableHistory.init (pcb : Pcb) : TableHistory := ⟨fileDescriptorTableInit pcb, ∅⟩

/-- The open descriptors after a call that returns `ret`. -/
def OpenClose.account (opened : Finset Int) (ret : Int) : OpenClose → Finset Int
  | .openName _ => if ret = -1 then opened else insert ret opened
  | .close fd => if ret = 0 then opened.erase fd else opened

def TableHistory.next (bootBlock : Option Image) (history : TableHistory) (action : OpenClose) :
    TableHistory :=
  let result := action.call.run bootBlock history.pcb
  { pcb := result.2
    opened := action.account history.opened result.1.ret }

def historyMachine (bootBlock : Option Image) : Machine TableHistory OpenClose where
  enabled _ _ := True
  next := TableHistory.next bootBlock

/-- An open that finds no entry although fewer than six descriptors are open. -/
def OpensMissing (bootBlock : Option Image) (history : TableHistory) : OpenClose → Prop
  | .openName filename =>
      readDentryByName bootBlock filename = none ∧ history.opened.card < 6
  | .close _ => False

/-- A name that resolves can be opened exactly while fewer than six descriptors are open,
    and an open that fails leaves the descriptors as they were, unless it is one that
    `OpensMissing` describes. -/
structure NoLeak (bootBlock : Option Image) (history : TableHistory) : Prop where
  opens : ∀ filename, (readDentryByName bootBlock filename).isSome →
    ((fileDescriptorTableOpen bootBlock history.pcb filename).1 ≠ -1 ↔ history.opened.card < 6)
  fails : ∀ filename, ¬ OpensMissing bootBlock history (.openName filename) →
    (fileDescriptorTableOpen bootBlock history.pcb filename).1 = -1 →
    (fileDescriptorTableOpen bootBlock history.pcb filename).2.fileDescriptorArray =
      history.pcb.fileDescriptorArray

/-- Marks, inodes and history agree. -/
structure Accounted (history : TableHistory) : Prop where
  user : ∀ fd ∈ history.opened, 2 ≤ fd ∧ fd < 8
  marked : ∀ fd : Fin MAX_NUM_FILES, 2 ≤ fd.val →
    ((history.pcb.fileDescriptorArray fd).flags = 1 ↔ (fd.val : Int) ∈ history.opened)
  closable : ∀ fd : Fin MAX_NUM_FILES, (history.pcb.fileDescriptorArray fd).inode ≠ -1 →
    (fd.val : Int) ∈ history.opened

section Accounting

variable {img : Image} {history : TableHistory}

theorem accounted_init (pcb : Pcb) : Accounted (TableHistory.init pcb) where
  user fd member := by simp [TableHistory.init] at member
  marked fd inside := by
    have notStdin : fd.val ≠ 0 := by omega
    have notStdout : fd.val ≠ 1 := by omega
    simp [TableHistory.init, fileDescriptorTableInit, initialDescriptor, notStdin, notStdout]
  closable fd inode := by
    refine absurd ?_ inode
    simp only [TableHistory.init, fileDescriptorTableInit]
    split
    · rfl
    · split <;> rfl

/-- All six marks are set when six descriptors are open. -/
theorem Accounted.allBusy_iff (accounted : Accounted history) :
    AllBusy history.pcb ↔ ¬ history.opened.card < 6 := by
  have within : history.opened ⊆ Finset.Ico 2 8 := by
    intro fd member
    exact Finset.mem_Ico.mpr (accounted.user fd member)
  constructor
  · intro busy few
    have all : Finset.Ico 2 8 ⊆ history.opened := by
      intro fd member
      obtain ⟨low, high⟩ := Finset.mem_Ico.mp member
      have slot := accounted.marked ⟨fd.toNat, by simp only [MAX_NUM_FILES]; omega⟩
        (by simp only; omega)
      have mark := slot.mp (busy _ (by simp only; omega))
      have index : ((fd.toNat : Nat) : Int) = fd := by omega
      rwa [index] at mark
    have six := Finset.card_le_card all
    simp at six
    omega
  · intro many fd inside
    have all : history.opened = Finset.Ico 2 8 :=
      Finset.eq_of_subset_of_card_le within (by simp; omega)
    rw [accounted.marked fd inside, all, Finset.mem_Ico]
    have := fd.isLt
    simp only [MAX_NUM_FILES] at this
    omega

theorem Accounted.noLeak (accounted : Accounted history) : NoLeak (some img) history where
  opens filename resolves := by
    rw [← not_iff_not, ← accounted.allBusy_iff]
    have outcome := fileDescriptorTableOpen_opened (some img) history.pcb filename
    generalize fileDescriptorTableOpen (some img) history.pcb filename = result at outcome ⊢
    cases outcome with
    | full busy => simp [busy]
    | missing inside free lost => simp [lost] at resolves
    | untyped inside free | bound inside free =>
        have notBusy : ¬ AllBusy history.pcb := fun busy => free (busy _ inside)
        simp only [notBusy, iff_false, not_not]
        omega
  fails filename allowed failed := by
    have outcome := fileDescriptorTableOpen_opened (some img) history.pcb filename
    generalize fileDescriptorTableOpen (some img) history.pcb filename = result at *
    cases outcome with
    | full busy => rfl
    | missing inside free lost =>
        refine absurd ⟨lost, ?_⟩ allowed
        by_contra many
        exact free (accounted.allBusy_iff.mpr many _ inside)
    | untyped | bound =>
        simp only at failed
        omega

/-- What an open does to the history, for the three ways it can go. -/
theorem accounted_open (accounted : Accounted history) {filename : Option CharPtr}
    (known : ∀ index < MAX_DIRECTORY_NUMBER,
      (opsOfType (img.direntries index).filetype).isSome)
    (allowed : ¬ OpensMissing (some img) history (.openName filename)) :
    Accounted (TableHistory.next (some img) history (.openName filename)) := by
  simp only [TableHistory.next, OpenClose.call, Call.run]
  have outcome := fileDescriptorTableOpen_opened (some img) history.pcb filename
  generalize fileDescriptorTableOpen (some img) history.pcb filename = result at outcome ⊢
  cases outcome with
  | full busy => exact ⟨accounted.user, accounted.marked, accounted.closable⟩
  | missing inside free lost =>
      refine absurd ⟨lost, ?_⟩ allowed
      by_contra many
      exact free (accounted.allBusy_iff.mpr many _ inside)
  | untyped inside free found unknown =>
      obtain ⟨index, inRange, rfl⟩ := readDentryByName_entry found
      simpa [unknown] using known index inRange
  | @bound fd dirEntry ops inside free found typed =>
      have success : (fd.val : Int) ≠ -1 := by omega
      simp only [OpenClose.account, if_neg success]
      refine ⟨?_, ?_, ?_⟩
      · intro other member
        rcases Finset.mem_insert.mp member with rfl | before
        · have := fd.isLt
          simp only [MAX_NUM_FILES] at this
          omega
        · exact accounted.user other before
      · intro other user
        by_cases same : other = fd
        · subst same
          simp
        · have ne : (other.val : Int) ≠ fd.val := by
            intro equal
            exact same (Fin.ext (by omega))
          rw [Pcb.setDescriptor_other same, Finset.mem_insert, accounted.marked other user]
          simp [ne]
      · intro other inode
        by_cases same : other = fd
        · subst same
          simp
        · rw [Pcb.setDescriptor_other same] at inode
          exact Finset.mem_insert_of_mem (accounted.closable other inode)

theorem accounted_close (accounted : Accounted history) (fd : Int) :
    Accounted (TableHistory.next (some img) history (.close fd)) := by
  simp only [TableHistory.next, OpenClose.call, Call.run]
  rcases fileDescriptorTableClose_cases history.pcb fd with
    ⟨unchanged, _⟩ | ⟨slot, rfl, inode, closed⟩
  · rw [unchanged]
    exact accounted
  · rw [closed]
    simp only [OpenClose.account, if_true]
    have differ {other : Fin MAX_NUM_FILES} (ne : other ≠ slot) : (other.val : Int) ≠ slot.val :=
      fun equal => ne (Fin.ext (by omega))
    refine ⟨?_, ?_, ?_⟩
    · intro other member
      exact accounted.user other (Finset.mem_of_mem_erase member)
    · intro other user
      by_cases same : other = slot
      · subst same
        simp [initialDescriptor]
      · rw [Pcb.setDescriptor_other same, Finset.mem_erase, accounted.marked other user]
        simp [differ same]
    · intro other later
      by_cases same : other = slot
      · subst same
        simp [initialDescriptor] at later
      · rw [Pcb.setDescriptor_other same] at later
        exact Finset.mem_erase.mpr ⟨differ same, accounted.closable other later⟩

end Accounting

/-- As long as no missing name is opened with a descriptor to spare, none is lost. -/
theorem no_leak_of_no_missing {img : Image}
    (types : ∀ index < MAX_DIRECTORY_NUMBER, (img.direntries index).filetype = TYPE_RTC ∨
      (img.direntries index).filetype = TYPE_DIRECTORY ∨
      (img.direntries index).filetype = TYPE_FILE)
    {pcb : Pcb} {actions : List OpenClose} {history : TableHistory}
    (run : ((historyMachine (some img)).restrict
      (fun before action => ¬ OpensMissing (some img) before action)).Run
        (TableHistory.init pcb) actions history) :
    NoLeak (some img) history := by
  have known : ∀ index < MAX_DIRECTORY_NUMBER,
      (opsOfType (img.direntries index).filetype).isSome := by
    intro index inside
    rcases types index inside with h | h | h <;> rw [h] <;> rfl
  have accounted : Accounted history := by
    refine run.invariant (I := Accounted) ?_ (accounted_init pcb)
    intro before action kept able
    cases action with
    | openName filename => exact accounted_open kept known able.2
    | close fd => exact accounted_close kept fd
  exact accounted.noLeak

theorem open_and_close_no_leak :
    NoLeak (some oneEntry)
      ([OpenClose.openName (some (charPtr [0x66])), .close 2].foldl
        (historyMachine (some oneEntry)).next (TableHistory.init freshPcb)) := by
  have resolves : readDentryByName (some oneEntry) (some (charPtr [0x66])) ≠ none := by
    decide +kernel
  have allowed : ((historyMachine (some oneEntry)).restrict
      (fun before action => ¬ OpensMissing (some oneEntry) before action)).Run
      (TableHistory.init freshPcb) [.openName (some (charPtr [0x66])), .close 2]
      ([OpenClose.openName (some (charPtr [0x66])), .close 2].foldl
        (historyMachine (some oneEntry)).next (TableHistory.init freshPcb)) :=
    .cons ⟨trivial, fun missing => resolves missing.1⟩ (.cons ⟨trivial, not_false⟩ (.nil _))
  exact no_leak_of_no_missing oneEntry_known.types allowed

/-- Six opens of a missing name, and a name that is there cannot be opened any more. -/
theorem six_missing_names_leak :
    ∃ history, (historyMachine (some oneEntry)).Run (TableHistory.init freshPcb)
        (List.replicate 6 (.openName (some (charPtr [0x67])))) history ∧
      ¬ NoLeak (some oneEntry) history := by
  refine ⟨_, Machine.Run.of_enabled (fun _ _ => trivial) _ _, ?_⟩
  intro noLeak
  have nothingOpen : ((List.replicate 6 (OpenClose.openName (some (charPtr [0x67])))).foldl
      (historyMachine (some oneEntry)).next (TableHistory.init freshPcb)).opened.card < 6 := by
    decide +kernel
  exact (noLeak.opens (some (charPtr [0x66])) (by decide +kernel)).mpr nothingOpen
    (by decide +kernel)

end LightOS.Descriptor
