import LightOS.Lib.Word32
import Mathlib.Data.Nat.Init
import Mathlib.Logic.Function.Basic

/-! # Process control blocks

`pcb_t` with the descriptor array it starts with.  The descriptor code indexes that array
with numbers it computes, so a store through it is a store at a byte offset from the
start of the block, and `Pcb.storeWord` is where the layout of `pcb_t` decides what such a
store reaches.
-/

namespace LightOS

open Lib

def MAX_NUM_FILES : Nat := 8
def MAX_ARG_LENGTH : Nat := 33

/-- The `terminal_t` objects of syscall.c, as the values of the pointers to them. -/
inductive TerminalId
  | terminal1 | terminal2 | terminal3
  deriving DecidableEq, Repr

/-- The tables of driver functions; a `file_ops_t` pointer is one of these or NULL. -/
inductive FileOps
  | terminalStdin | terminalStdout | file | dir | rtc
  deriving DecidableEq, Repr

/-- `file_descriptor_t`, 16 bytes. -/
structure FileDescriptor where
  fileOps : Option FileOps
  inode : Int
  filePos : Nat
  flags : Int
  deriving DecidableEq

/-- `pcb_t` -/
structure Pcb where
  fileDescriptorArray : Fin MAX_NUM_FILES → FileDescriptor
  currentPid : Nat
  parentPid : Nat
  currentEsp : Nat
  currentEbp : Nat
  currentEip : Nat
  argBuf : List UInt8
  vidmapFlag : Nat
  terminal : Option TerminalId

namespace Pcb

/-- The block with one descriptor replaced. -/
def setDescriptor (pcb : Pcb) (fd : Fin MAX_NUM_FILES) (descriptor : FileDescriptor) : Pcb :=
  { pcb with fileDescriptorArray := Function.update pcb.fileDescriptorArray fd descriptor }

/-- `&fd_table[fd].flags`, as an offset from the start of the block. -/
def flagsOffset (fd : Nat) : Nat := 16 * fd + 12

/-- A 32-bit store at a byte offset from the start of the block.  Past the eight descriptors
    come `current_pid`, `parent_pid`, `current_esp`, `current_ebp`, `current_eip`, 33 bytes of
    `arg_buf` with their padding, `vidmap_flag` and `terminal`; stores of pointers and of
    single bytes do not go through here. -/
def storeWord (pcb : Pcb) (offset value : Nat) : Pcb :=
  if inArray : offset / 16 < MAX_NUM_FILES then
    let descriptor := pcb.fileDescriptorArray ⟨offset / 16, inArray⟩
    match offset % 16 with
    | 4 => pcb.setDescriptor ⟨offset / 16, inArray⟩ { descriptor with inode := toInt32 value }
    | 8 => pcb.setDescriptor ⟨offset / 16, inArray⟩ { descriptor with filePos := wrap32 value }
    | 12 => pcb.setDescriptor ⟨offset / 16, inArray⟩ { descriptor with flags := toInt32 value }
    | _ => pcb
  else
    match offset with
    | 128 => { pcb with currentPid := wrap32 value }
    | 132 => { pcb with parentPid := wrap32 value }
    | 136 => { pcb with currentEsp := wrap32 value }
    | 140 => { pcb with currentEbp := wrap32 value }
    | 144 => { pcb with currentEip := wrap32 value }
    | 184 => { pcb with vidmapFlag := wrap32 value }
    | _ => pcb

/-- Every field after `file_descriptor_array` is the same. -/
structure SameTail (pcb other : Pcb) : Prop where
  currentPid : pcb.currentPid = other.currentPid
  parentPid : pcb.parentPid = other.parentPid
  currentEsp : pcb.currentEsp = other.currentEsp
  currentEbp : pcb.currentEbp = other.currentEbp
  currentEip : pcb.currentEip = other.currentEip
  argBuf : pcb.argBuf = other.argBuf
  vidmapFlag : pcb.vidmapFlag = other.vidmapFlag
  terminal : pcb.terminal = other.terminal

variable {pcb : Pcb}

@[simp] theorem setDescriptor_self (fd : Fin MAX_NUM_FILES) (descriptor : FileDescriptor) :
    (pcb.setDescriptor fd descriptor).fileDescriptorArray fd = descriptor := by
  simp [setDescriptor]

@[simp] theorem setDescriptor_other {fd other : Fin MAX_NUM_FILES} (ne : other ≠ fd)
    (descriptor : FileDescriptor) :
    (pcb.setDescriptor fd descriptor).fileDescriptorArray other =
      pcb.fileDescriptorArray other := by
  simp [setDescriptor, ne]

@[simp] theorem setDescriptor_twice (fd : Fin MAX_NUM_FILES) (first second : FileDescriptor) :
    (pcb.setDescriptor fd first).setDescriptor fd second = pcb.setDescriptor fd second := by
  simp [setDescriptor]

theorem SameTail.refl (pcb : Pcb) : SameTail pcb pcb :=
  ⟨rfl, rfl, rfl, rfl, rfl, rfl, rfl, rfl⟩

theorem SameTail.symm {pcb other : Pcb} (h : SameTail pcb other) : SameTail other pcb :=
  ⟨h.1.symm, h.2.symm, h.3.symm, h.4.symm, h.5.symm, h.6.symm, h.7.symm, h.8.symm⟩

theorem SameTail.trans {first second third : Pcb} (h : SameTail first second)
    (h' : SameTail second third) : SameTail first third where
  currentPid := h.currentPid.trans h'.currentPid
  parentPid := h.parentPid.trans h'.parentPid
  currentEsp := h.currentEsp.trans h'.currentEsp
  currentEbp := h.currentEbp.trans h'.currentEbp
  currentEip := h.currentEip.trans h'.currentEip
  argBuf := h.argBuf.trans h'.argBuf
  vidmapFlag := h.vidmapFlag.trans h'.vidmapFlag
  terminal := h.terminal.trans h'.terminal

theorem SameTail.setDescriptor (pcb : Pcb) (fd : Fin MAX_NUM_FILES) (descriptor : FileDescriptor) :
    SameTail (pcb.setDescriptor fd descriptor) pcb :=
  ⟨rfl, rfl, rfl, rfl, rfl, rfl, rfl, rfl⟩

variable (pcb)

/-- The flags of a descriptor that exists. -/
theorem storeWord_flags (fd : Fin MAX_NUM_FILES) :
    pcb.storeWord (flagsOffset fd) 1 =
      pcb.setDescriptor fd { pcb.fileDescriptorArray fd with flags := 1 } := by
  have number : flagsOffset fd / 16 = fd := by
    unfold flagsOffset
    omega
  have field : flagsOffset fd % 16 = 12 := by
    unfold flagsOffset
    omega
  simp only [storeWord, number, field, fd.isLt, dif_pos]
  rfl

/-- The descriptor behind the last one: its flags lie where `current_ebp` does. -/
theorem storeWord_flags_past : pcb.storeWord (flagsOffset MAX_NUM_FILES) 1 =
    { pcb with currentEbp := 1 } := rfl

end Pcb

end LightOS
