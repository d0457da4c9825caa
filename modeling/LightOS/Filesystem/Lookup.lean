import LightOS.Filesystem.Image
import LightOS.Lib.Word32

/-! # Looking a name up in the directory

`strlen` and `strncmp` of lib.c and the directory search that is built on them.  A
string is what a `char` pointer points at: a function from indices to bytes.
-/

namespace LightOS.Filesystem

open Lib

/-- The memory behind a `char` pointer. -/
abbrev CharPtr := Nat → UInt8

/-- A string constant or buffer, followed by NUL. -/
def charPtr (chars : List UInt8) : CharPtr := fun i => chars.getD i 0

def strlenFrom (s : CharPtr) : Nat → Nat → Nat
  | 0, len => len
  | fuel + 1, len => if s len = 0 then len else strlenFrom s fuel (len + 1)

/-- `strlen`.  The address space ends the search of a string without NUL. -/
def strlen (s : CharPtr) : Nat := strlenFrom s (2 ^ 32) 0

/-- A byte as the `char` it is on this machine. -/
def charValue (b : UInt8) : Int := if b.toNat < 128 then b.toNat else b.toNat - 256

def strncmpFrom (s1 s2 : CharPtr) (i : Nat) : Nat → Int
  | 0 => 0
  | n + 1 =>
      if s1 i ≠ s2 i ∨ s1 i = 0 then charValue (s1 i) - charValue (s2 i)
      else strncmpFrom s1 s2 (i + 1) n

def strncmp (s1 s2 : CharPtr) (n : Nat) : Int := strncmpFrom s1 s2 0 n

/-- The filename field of an entry, as the pointer the comparisons are given. -/
def Image.filenamePtr (img : Image) (index : Nat) : CharPtr :=
  fun i => img.byte (Image.direntryAddr index + i)

/-- The two comparisons of the search loop; `length` is the `int` taken from `strlen(fname)`. -/
def entryMatches (img : Image) (fname : CharPtr) (length : Int) (index : Nat) : Bool :=
  (length = FILENAME_LEN ∧ strncmp fname (img.filenamePtr index) FILENAME_LEN = 0) ∨
    (length = toInt32 (strlen (img.filenamePtr index)) ∧
      strncmp fname (img.filenamePtr index) (toUint32 length) = 0)

/-- `read_dentry_by_name`: `none` is the return value -1, `some` is 0 with the copy in
    `*dentry`.  The pointers are `none` where they are NULL. -/
def readDentryByName (bootBlock : Option Image) (fname : Option CharPtr) : Option DirEntry :=
  match fname, bootBlock with
  | none, _ => none
  | _, none => none
  | some fname, some img =>
      let length := toInt32 (strlen fname)
      if length = 0 then none
      else
        ((List.range MAX_DIRECTORY_NUMBER).find? (entryMatches img fname length)).map
          img.direntries

/-- What is found is an entry of the directory. -/
theorem readDentryByName_entry {img : Image} {fname dentry}
    (found : readDentryByName (some img) fname = some dentry) :
    ∃ index < MAX_DIRECTORY_NUMBER, dentry = img.direntries index := by
  cases fname with
  | none => simp [readDentryByName] at found
  | some fname =>
      simp only [readDentryByName] at found
      split at found
      · simp at found
      · obtain ⟨index, search, rfl⟩ := Option.map_eq_some_iff.mp found
        exact ⟨index, List.mem_range.mp (List.mem_of_find?_eq_some search), rfl⟩

end LightOS.Filesystem
