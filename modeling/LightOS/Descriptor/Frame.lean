import LightOS.Descriptor.Table
import LightOS.Lib.Machine

/-! # What the descriptor calls write

An open that finds all six descriptors in use has already set the flags of a seventh,
which is not in the array: it is the saved `ebp` of the scheduler.  Every other call
keeps the block behind the array as it was.
-/

namespace LightOS.Descriptor

open Lib Filesystem

/-- A process making calls on its own table. -/
def callMachine (bootBlock : Option Image) : Machine Pcb Call where
  enabled _ _ := True
  next pcb call := (call.run bootBlock pcb).2

/-- An open on a full table, where the store behind the array changes what is there. -/
def OpensFull (pcb : Pcb) : Call → Prop
  | .openName _ => AllBusy pcb ∧ pcb.currentEbp ≠ 1
  | _ => False

section Step

variable {bootBlock : Option Image} {pcb : Pcb}

theorem open_tail (filename : Option CharPtr) :
    (fileDescriptorTableOpen bootBlock pcb filename).2.SameTail pcb ↔
      ¬ (AllBusy pcb ∧ pcb.currentEbp ≠ 1) := by
  have outcome := fileDescriptorTableOpen_opened bootBlock pcb filename
  generalize fileDescriptorTableOpen bootBlock pcb filename = result at outcome ⊢
  cases outcome with
  | full busy =>
      rw [Pcb.storeWord_flags_past]
      constructor
      · rintro tail ⟨_, other⟩
        exact other tail.currentEbp.symm
      · intro same
        have ebp : pcb.currentEbp = 1 := by
          by_contra other
          exact same ⟨busy, other⟩
        exact ⟨rfl, rfl, rfl, ebp.symm, rfl, rfl, rfl, rfl⟩
  | missing inside free | untyped inside free | bound inside free =>
      constructor
      · rintro _ ⟨busy, _⟩
        exact free (busy _ inside)
      · intro _
        exact Pcb.SameTail.setDescriptor _ _ _

theorem close_tail (fd : Int) : (fileDescriptorTableClose pcb fd).2.SameTail pcb := by
  rcases fileDescriptorTableClose_cases pcb fd with ⟨unchanged, _⟩ | ⟨slot, _, _, closed⟩
  · rw [unchanged]
    exact .refl pcb
  · rw [closed]
    exact .setDescriptor _ _ _

theorem read_tail (fd : Int) (bufIsNull : Bool) (length : Int) (answer : Transfer) :
    (fileDescriptorTableRead bootBlock pcb fd bufIsNull length answer).2.SameTail pcb := by
  simp only [fileDescriptorTableRead]
  split
  · exact .refl pcb
  · split
    · exact .refl pcb
    · split
      · exact .setDescriptor _ _ _
      · exact .refl pcb

variable (bootBlock pcb) in
theorem run_tail (call : Call) :
    (call.run bootBlock pcb).2.SameTail pcb ↔ ¬ OpensFull pcb call := by
  cases call with
  | openName filename => exact open_tail filename
  | close fd => simpa [Call.run, OpensFull] using close_tail fd
  | read fd bufIsNull nbytes answer =>
      simpa [Call.run, OpensFull] using read_tail fd bufIsNull nbytes answer
  | write fd answer => simpa [Call.run, OpensFull] using Pcb.SameTail.refl pcb

end Step

/-- The fields behind the array keep their values through a sequence of calls exactly when
    no call of it is an open on a full table.  No buffer is one over the control block of the
    caller. -/
theorem tail_kept_iff (bootBlock : Option Image) (pcb : Pcb) (calls : List Call) :
    (callMachine bootBlock).Always (fun later => later.SameTail pcb) pcb calls ↔
      (callMachine bootBlock).EachStep (fun before call => ¬ OpensFull before call) pcb calls := by
  have run := Machine.Run.of_enabled (M := callMachine bootBlock) (fun _ _ => trivial) pcb calls
  refine run.always_iff (I := fun _ => True) (fun _ _ _ _ _ => trivial) ?_ trivial (.refl pcb)
  intro before call _ kept _
  rw [← run_tail bootBlock before call]
  constructor
  · intro after
    exact after.trans kept.symm
  · intro step
    exact step.trans kept

/-- A directory with one entry: the RTC, under the name `f`. -/
def oneEntry : Image where
  byte addr := if addr = 64 then 0x66 else 0

/-- The block of a process that has just been created. -/
def freshPcb : Pcb :=
  fileDescriptorTableInit
    { fileDescriptorArray := fun _ => initialDescriptor none
      currentPid := 4
      parentPid := 1
      currentEsp := 0x083FFFFC
      currentEbp := 0x083FFFFC
      currentEip := 0x08048000
      argBuf := List.replicate MAX_ARG_LENGTH 0
      vidmapFlag := 0
      terminal := some .terminal1 }

theorem seventh_open_overwrites_ebp :
    ¬ (callMachine (some oneEntry)).Always (fun later => later.SameTail freshPcb) freshPcb
      (List.replicate 7 (.openName (some (charPtr [0x66])))) := by
  intro always
  have overwritten : ((List.replicate 7 (Call.openName (some (charPtr [0x66])))).foldl
      (callMachine (some oneEntry)).next freshPcb).currentEbp = 1 := by decide +kernel
  have kept := always.last.currentEbp
  rw [overwritten] at kept
  exact absurd kept (by decide)

end LightOS.Descriptor
