import LightOS.Filesystem.Strings
import Mathlib.Data.List.Find
import Mathlib.Data.List.TakeWhile

/-! # Exactness of the directory search

A name that fills its field has no NUL, so `strlen` and `strncmp` read on into the filetype
of the entry.  `DirEntry.nameRead` is the name they see; the search finds the texts that are
a name or a name as it is read.
-/

namespace LightOS.Filesystem

open Lib

def Image.dirCount (img : Image) : Nat := img.u32 0

/-- The name in an entry, without its padding. -/
def DirEntry.name (dirEntry : DirEntry) : List UInt8 := dirEntry.filename.takeWhile (· ≠ 0)

/-- The name in an entry, as `strlen` and `strncmp` read it. -/
def DirEntry.nameRead (dirEntry : DirEntry) : List UInt8 :=
  if dirEntry.name.length = FILENAME_LEN ∧ dirEntry.filetype ≠ 0 then
    dirEntry.name ++ [UInt8.ofNat dirEntry.filetype]
  else dirEntry.name

/-- A directory as an image builder writes it: names are padded with zeros, the filetypes are
    those there are, and what is past `dir_count` is zero. -/
structure Image.NamesPadded (img : Image) : Prop where
  padded : ∀ index < MAX_DIRECTORY_NUMBER, (img.direntries index).filename =
    (img.direntries index).name ++
      List.replicate (FILENAME_LEN - (img.direntries index).name.length) 0
  filetype : ∀ index < MAX_DIRECTORY_NUMBER, (img.direntries index).filetype = TYPE_RTC ∨
    (img.direntries index).filetype = TYPE_DIRECTORY ∨ (img.direntries index).filetype = TYPE_FILE
  unused : ∀ index < MAX_DIRECTORY_NUMBER, img.dirCount ≤ index →
    ∀ k < 64, img.byte (Image.direntryAddr index + k) = 0

/-- The entry has this name. -/
def Image.Names (img : Image) (text : List UInt8) (index : Nat) : Prop :=
  index < MAX_DIRECTORY_NUMBER ∧ index < img.dirCount ∧ (img.direntries index).name = text

/-- One of the entries of the boot block has this name. -/
def Image.HasName (img : Image) (text : List UInt8) (index : Nat) : Prop :=
  index < MAX_DIRECTORY_NUMBER ∧ (img.direntries index).name = text

/-- What an exact search answers for a text: the first entry of that name, and nothing for the
    empty text or where there is none. -/
structure ExactAnswer (img : Image) (text : List UInt8) (answer : Option DirEntry) : Prop where
  found : answer.isSome ↔ text ≠ [] ∧ ∃ index, img.Names text index
  first : ∀ index, text ≠ [] → img.Names text index →
    (∀ earlier < index, ¬ img.Names text earlier) → answer = some (img.direntries index)

section Entry

variable {img : Image} {index : Nat}

theorem filename_length : (img.direntries index).filename.length = FILENAME_LEN := by
  simp [Image.direntries, Image.bytes]

theorem name_length_le : (img.direntries index).name.length ≤ FILENAME_LEN := by
  rw [← @filename_length img index]
  exact (List.takeWhile_sublist _).length_le

theorem name_nonzero {dirEntry : DirEntry} {c : UInt8} (member : c ∈ dirEntry.name) : c ≠ 0 := by
  have passed := List.mem_takeWhile_imp member
  simpa using passed

theorem filename_getElem {k : Nat} (inside : k < FILENAME_LEN) :
    (img.direntries index).filename[k]? = some (img.filenamePtr index k) := by
  simp [Image.filenamePtr, Image.direntries, Image.bytes, inside]

/-- The byte behind the name field is the filetype, and a NUL comes after it. -/
theorem filetype_bytes (padded : img.NamesPadded) (inside : index < MAX_DIRECTORY_NUMBER) :
    img.filenamePtr index FILENAME_LEN = UInt8.ofNat (img.direntries index).filetype ∧
      img.filenamePtr index (FILENAME_LEN + 1) = 0 := by
  have types := padded.filetype index inside
  simp only [Image.direntries, Image.u32, TYPE_RTC, TYPE_DIRECTORY, TYPE_FILE] at types
  simp only [Image.filenamePtr, FILENAME_LEN, ← UInt8.toNat_inj, Image.direntries, Image.u32,
    UInt8.toNat_ofNat', UInt8.toNat_zero, Nat.add_assoc] at types ⊢
  omega

/-- The field is the name and what comes behind it. -/
theorem filename_eq_append : (img.direntries index).filename =
    (img.direntries index).name ++ (img.direntries index).filename.dropWhile (· ≠ 0) :=
  List.takeWhile_append_dropWhile.symm

theorem filenamePtr_name {k : Nat} (before : k < (img.direntries index).name.length) :
    img.filenamePtr index k = (img.direntries index).name[k] := by
  have char := @filename_getElem img index k (Nat.lt_of_lt_of_le before name_length_le)
  rw [filename_eq_append, List.getElem?_append_left before, List.getElem?_eq_getElem before] at char
  exact (Option.some.inj char).symm

/-- A name shorter than its field ends in a NUL. -/
theorem filenamePtr_nul (short : (img.direntries index).name.length < FILENAME_LEN) :
    img.filenamePtr index (img.direntries index).name.length = 0 := by
  have char := @filename_getElem img index _ short
  have length := @filename_length img index
  rw [filename_eq_append, List.length_append] at length
  have behind : 0 < ((img.direntries index).filename.dropWhile (· ≠ 0)).length := by omega
  have stopped := List.dropWhile_get_zero_not (p := (· ≠ 0)) (img.direntries index).filename behind
  rw [filename_eq_append, List.getElem?_append_right (Nat.le_refl _), Nat.sub_self,
    List.getElem?_eq_getElem behind] at char
  rw [← Option.some.inj char]
  simpa using stopped

/-- A text that fits the field is the name if the field begins with it, and goes on with a NUL. -/
theorem name_eq_iff {text : List UInt8} (nonzero : ∀ c ∈ text, c ≠ 0)
    (fits : text.length ≤ FILENAME_LEN) :
    (img.direntries index).name = text ↔
      (∀ k, ∀ inside : k < text.length, img.filenamePtr index k = text[k]) ∧
        (text.length < FILENAME_LEN → img.filenamePtr index text.length = 0) := by
  constructor
  · rintro rfl
    exact ⟨fun _ => filenamePtr_name, filenamePtr_nul⟩
  · rintro ⟨chars, ended⟩
    have sameLength : (img.direntries index).name.length = text.length := by
      rcases Nat.lt_trichotomy (img.direntries index).name.length text.length with
        less | same | more
      · have nul : img.filenamePtr index (img.direntries index).name.length = 0 :=
          filenamePtr_nul (Nat.lt_of_lt_of_le less fits)
        exact absurd ((chars _ less).symm.trans nul) (nonzero _ (List.getElem_mem less))
      · exact same
      · have nul := ended (Nat.lt_of_lt_of_le more name_length_le)
        exact absurd ((filenamePtr_name more).symm.trans nul) (name_nonzero (List.getElem_mem more))
    apply List.ext_getElem sameLength
    intro k inName inText
    rw [← filenamePtr_name inName, chars k inText]

theorem spells_entry (padded : img.NamesPadded) (inside : index < MAX_DIRECTORY_NUMBER) :
    Spells (img.filenamePtr index) 0 (img.direntries index).nameRead := by
  obtain ⟨behind, nul⟩ := filetype_bytes padded inside
  have inName : ∀ k, ∀ before : k < (img.direntries index).name.length,
      img.filenamePtr index (0 + k) = (img.direntries index).name[k] ∧
        (img.direntries index).name[k] ≠ 0 := by
    intro k before
    rw [Nat.zero_add]
    exact ⟨filenamePtr_name before, name_nonzero (List.getElem_mem before)⟩
  unfold DirEntry.nameRead
  split
  · rename_i full
    obtain ⟨full, typed⟩ := full
    have types := padded.filetype index inside
    constructor
    · intro k before
      rcases Nat.lt_or_ge k (img.direntries index).name.length with named | past
      · rw [List.getElem_append_left named]
        exact inName k named
      · have last : k = FILENAME_LEN := by
          rw [List.length_append, List.length_singleton] at before
          omega
        subst last
        rw [List.getElem_append_right past, List.getElem_singleton, Nat.zero_add, behind]
        refine ⟨rfl, ?_⟩
        rcases types with type | type | type
        · exact absurd type typed
        · rw [type]
          decide
        · rw [type]
          decide
    · rw [List.length_append, List.length_singleton, full, Nat.zero_add]
      exact nul
  · rename_i notFull
    refine ⟨inName, ?_⟩
    rw [Nat.zero_add]
    rcases Nat.lt_or_ge (img.direntries index).name.length FILENAME_LEN with short | filled
    · exact filenamePtr_nul short
    · have full : (img.direntries index).name.length = FILENAME_LEN :=
        Nat.le_antisymm name_length_le filled
      have untyped : (img.direntries index).filetype = 0 := by
        by_contra typed
        exact notFull ⟨full, typed⟩
      rw [full, behind, untyped]
      rfl

theorem nameRead_length_le {dirEntry : DirEntry} (fits : dirEntry.name.length ≤ FILENAME_LEN) :
    dirEntry.nameRead.length ≤ FILENAME_LEN + 1 := by
  unfold DirEntry.nameRead
  split
  · rw [List.length_append, List.length_singleton]
    omega
  · omega

/-- Cut down to the field, the name as it is read is the name. -/
theorem nameRead_take {dirEntry : DirEntry} (fits : dirEntry.name.length ≤ FILENAME_LEN) :
    dirEntry.nameRead.take FILENAME_LEN = dirEntry.name := by
  unfold DirEntry.nameRead
  split
  · rename_i full
    rw [List.take_append_of_le_length (Nat.le_of_eq full.1.symm),
      List.take_of_length_le (Nat.le_of_eq full.1)]
  · exact List.take_of_length_le fits

/-- Only a name that fills its field is read as something else. -/
theorem nameRead_eq_name {dirEntry : DirEntry} (short : dirEntry.name.length ≠ FILENAME_LEN) :
    dirEntry.nameRead = dirEntry.name := by
  unfold DirEntry.nameRead
  rw [if_neg]
  intro full
  exact short full.1

end Entry

section Search

variable {img : Image} {fname : CharPtr} {text : List UInt8}

/-- The two comparisons, on a text `int` can count: the text is the name or the name as it is
    read. -/
theorem entryMatches_iff (padded : img.NamesPadded) (spells : Spells fname 0 text)
    (counted : text.length < 2 ^ 32) {index : Nat} (inside : index < MAX_DIRECTORY_NUMBER) :
    entryMatches img fname (toInt32 (strlen fname)) index ↔
      text = (img.direntries index).name ∨ text = (img.direntries index).nameRead := by
  have entry := spells_entry padded inside
  have fits := @name_length_le img index
  have readFits := nameRead_length_le fits
  have length := spells.strlen_eq counted
  have entryLength : strlen (img.filenamePtr index) = (img.direntries index).nameRead.length := by
    apply entry.strlen_eq
    simp only [FILENAME_LEN] at readFits
    omega
  have thirtyTwo : toInt32 text.length = FILENAME_LEN ↔ text.length = FILENAME_LEN := by
    simp only [toInt32, FILENAME_LEN]
    omega
  have sameLength : toInt32 text.length = toInt32 (img.direntries index).nameRead.length ↔
      text.length = (img.direntries index).nameRead.length := by
    simp only [toInt32, FILENAME_LEN] at readFits ⊢
    omega
  have whole : text.length = (img.direntries index).nameRead.length →
      toUint32 (toInt32 text.length) = text.length := by
    intro same
    rw [toInt32_small (by simp only [FILENAME_LEN] at readFits; omega), toUint32_natCast counted]
  simp only [entryMatches, length, entryLength, strncmp_spells spells entry, thirtyTwo, sameLength,
    nameRead_take fits, Bool.decide_or, Bool.or_eq_true, decide_eq_true_eq]
  constructor
  · rintro (⟨filled, same⟩ | ⟨same, equal⟩)
    · rw [List.take_of_length_le (Nat.le_of_eq filled)] at same
      exact .inl same
    · rw [whole same, List.take_length, same, List.take_length] at equal
      exact .inr equal
  · rintro (named | read)
    · by_cases filled : text.length = FILENAME_LEN
      · refine .inl ⟨filled, ?_⟩
        rw [List.take_of_length_le (Nat.le_of_eq filled), named]
      · rw [named] at filled
        rw [nameRead_eq_name filled, named]
        exact .inr ⟨rfl, rfl⟩
    · rw [read]
      exact .inr ⟨rfl, rfl⟩

/-- On a text that fits the field the two comparisons are exact, whatever is behind the names. -/
theorem entryMatches_short (spells : Spells fname 0 text) (nonempty : text ≠ [])
    (fits : text.length ≤ FILENAME_LEN) (index : Nat) :
    entryMatches img fname (toInt32 (strlen fname)) index ↔ (img.direntries index).name = text := by
  have some_ : 0 < text.length := List.length_pos_iff.mpr nonempty
  simp only [FILENAME_LEN] at fits
  have length : toInt32 (strlen fname) = text.length := by
    rw [spells.strlen_eq (by omega), toInt32_small (by omega)]
  have fnameChar (k : Nat) (inside : k < text.length) : fname k = text[k] := by
    have char := (spells.char k inside).1
    rwa [Nat.zero_add] at char
  have nonzero : ∀ c ∈ text, c ≠ 0 := by
    intro c member
    obtain ⟨k, inside, rfl⟩ := List.getElem_of_mem member
    exact (spells.char k inside).2
  have compared : strncmp fname (img.filenamePtr index) text.length = 0 ↔
      ∀ k, ∀ inside : k < text.length, img.filenamePtr index k = text[k] := by
    rw [strncmp, strncmpFrom_chars]
    · refine forall₂_congr fun k inside => ?_
      rw [Nat.zero_add, fnameChar k inside]
    · intro k inside
      rw [(spells.char k inside).1]
      exact (spells.char k inside).2
  have counted : toUint32 (text.length : Int) = text.length := toUint32_natCast (by omega)
  have thirtyTwo : (text.length : Int) = FILENAME_LEN ↔ text.length = FILENAME_LEN :=
    Int.natCast_inj
  simp only [entryMatches, length, counted, thirtyTwo, Bool.decide_or, Bool.or_eq_true,
    decide_eq_true_eq]
  rw [name_eq_iff nonzero fits, ← compared]
  obtain ⟨entryNonzero, entryBound, entryNul⟩ := strlen_spec (img.filenamePtr index)
  constructor
  · rintro (⟨filled, same⟩ | ⟨sameLength, same⟩)
    · rw [← filled] at same
      exact ⟨same, fun short => absurd filled (Nat.ne_of_lt short)⟩
    · refine ⟨same, fun _ => ?_⟩
      have read : strlen (img.filenamePtr index) = text.length := by
        simp only [toInt32] at sameLength
        omega
      rw [← read]
      exact entryNul (by omega)
  · rintro ⟨same, ended⟩
    by_cases filled : text.length = FILENAME_LEN
    · rw [filled] at same
      exact .inl ⟨filled, same⟩
    · refine .inr ⟨?_, same⟩
      have spelled : Spells (img.filenamePtr index) 0 text := by
        refine ⟨fun k inside => ?_, ?_⟩
        · rw [Nat.zero_add]
          exact ⟨compared.mp same k inside, nonzero _ (List.getElem_mem inside)⟩
        · rw [Nat.zero_add]
          exact ended (Nat.lt_of_le_of_ne fits filled)
      rw [spelled.strlen_eq (by omega), toInt32_small (by omega)]

/-- The search for a text that fits the field: its answer is the first entry of that name. -/
theorem readDentryByName_short (spells : Spells fname 0 text) (nonempty : text ≠ [])
    (fits : text.length ≤ FILENAME_LEN) :
    readDentryByName (some img) (some fname) = ((List.range MAX_DIRECTORY_NUMBER).find? fun index =>
      (img.direntries index).name = text).map img.direntries := by
  have some_ : 0 < text.length := List.length_pos_iff.mpr nonempty
  have notEmpty : toInt32 (strlen fname) ≠ 0 := by
    simp only [FILENAME_LEN] at fits
    rw [spells.strlen_eq (by omega), toInt32_small (by omega)]
    omega
  simp only [readDentryByName, if_neg notEmpty]
  congr 1
  apply List.find?_congr
  intro index _
  rw [Bool.eq_iff_iff, entryMatches_short spells nonempty fits, decide_eq_true_eq]

/-- The search, for a text of any length. -/
theorem readDentryByName_search (padded : img.NamesPadded) (spells : Spells fname 0 text) :
    readDentryByName (some img) (some fname) =
      if text = [] then none
      else ((List.range MAX_DIRECTORY_NUMBER).find? fun index =>
        text = (img.direntries index).name ∨ text = (img.direntries index).nameRead).map
          img.direntries := by
  simp only [readDentryByName]
  rcases Nat.lt_or_ge text.length (2 ^ 32) with counted | long
  · have length := spells.strlen_eq counted
    have empty : toInt32 (strlen fname) = 0 ↔ text = [] := by
      rw [length, ← List.length_eq_zero_iff]
      simp only [toInt32]
      omega
    simp only [empty]
    split
    · rfl
    · congr 1
      apply List.find?_congr
      intro index member
      have matched := entryMatches_iff padded spells counted (List.mem_range.mp member)
      rw [Bool.eq_iff_iff, matched, decide_eq_true_eq]
  · rw [spells.strlen_long long, if_pos (by decide)]
    split
    · rfl
    · symm
      rw [Option.map_eq_none_iff, List.find?_eq_none]
      intro index _ matched
      have fits := @name_length_le img index
      have readFits := nameRead_length_le fits
      simp only [FILENAME_LEN, decide_eq_true_eq] at fits readFits matched
      rcases matched with same | same
      · rw [same] at long
        omega
      · rw [same] at long
        omega

/-- In a padded directory a name that is not empty belongs to an entry below `dir_count`. -/
theorem hasName_iff_names (padded : img.NamesPadded) (nonempty : text ≠ []) {index : Nat} :
    img.HasName text index ↔ img.Names text index := by
  constructor
  · rintro ⟨inside, named⟩
    refine ⟨inside, ?_, named⟩
    by_contra past
    have zero : img.filenamePtr index 0 = 0 := padded.unused index inside (by omega) 0 (by decide)
    have some_ : 0 < (img.direntries index).name.length := by
      rw [named]
      exact List.length_pos_iff.mpr nonempty
    have first := filenamePtr_name some_
    exact name_nonzero (List.getElem_mem some_) (first.symm.trans zero)
  · rintro ⟨inside, _, named⟩
    exact ⟨inside, named⟩

/-- A text that is a name as it is read is a name, or reads on into a filetype. -/
theorem eq_nameRead {dirEntry : DirEntry} (read : text = dirEntry.nameRead) :
    text = dirEntry.name ∨ dirEntry.name.length = FILENAME_LEN ∧ dirEntry.filetype ≠ 0 ∧
      text = dirEntry.name ++ [UInt8.ofNat dirEntry.filetype] := by
  unfold DirEntry.nameRead at read
  split at read
  · rename_i full
    exact .inr ⟨full.1, full.2, read⟩
  · exact .inl read

/-- The first entry of a name is the exact answer. -/
theorem exactAnswer_of_names (padded : img.NamesPadded) (nonempty : text ≠ []) :
    ExactAnswer img text (((List.range MAX_DIRECTORY_NUMBER).find? fun index =>
      text = (img.direntries index).name).map img.direntries) where
  found := by
    rw [Option.isSome_map, List.find?_isSome]
    simp only [List.mem_range, decide_eq_true_eq]
    constructor
    · rintro ⟨index, inside, named⟩
      exact ⟨nonempty, index, (hasName_iff_names padded nonempty).mp ⟨inside, named.symm⟩⟩
    · rintro ⟨_, index, inside, _, named⟩
      exact ⟨index, inside, named.symm⟩
  first := by
    rintro index _ ⟨inside, below, named⟩ firstOne
    rw [Option.map_eq_some_iff]
    refine ⟨index, ?_, rfl⟩
    rw [List.find?_range_eq_some]
    refine ⟨by simp [named], List.mem_range.mpr inside, ?_⟩
    intro earlier before
    rw [Bool.not_eq_true', decide_eq_false_iff_not]
    intro same
    have named' : img.HasName text earlier := ⟨Nat.lt_trans before inside, same.symm⟩
    exact firstOne earlier before ((hasName_iff_names padded nonempty).mp named')

/-- No entry is the exact answer for a text that is too long for a name. -/
theorem not_exactAnswer_of_long (long : FILENAME_LEN < text.length) {answer : Option DirEntry}
    (found : answer.isSome) : ¬ ExactAnswer img text answer := by
  intro exact
  obtain ⟨_, index, named⟩ := exact.found.mp found
  have fits := @name_length_le img index
  rw [named.2.2] at fits
  omega

end Search

/-- The search is exact for a text if and only if the text is not a name that fills its field,
    followed by the filetype of its entry as one more character. -/
theorem readDentryByName_exact_iff {img : Image} (padded : img.NamesPadded) {fname : CharPtr}
    {text : List UInt8} (spells : Spells fname 0 text) :
    ExactAnswer img text (readDentryByName (some img) (some fname)) ↔
      ¬ ∃ index < MAX_DIRECTORY_NUMBER,
        (img.direntries index).name.length = FILENAME_LEN ∧ (img.direntries index).filetype ≠ 0 ∧
          text = (img.direntries index).name ++ [UInt8.ofNat (img.direntries index).filetype] := by
  rw [readDentryByName_search padded spells]
  constructor
  · rintro exact ⟨index, inside, full, typed, read⟩
    have long : FILENAME_LEN < text.length := by
      rw [read, List.length_append, full, List.length_singleton]
      exact Nat.lt_succ_self _
    have nonempty : text ≠ [] := List.ne_nil_of_length_pos (Nat.zero_lt_of_lt long)
    rw [if_neg nonempty] at exact
    refine not_exactAnswer_of_long long ?_ exact
    rw [Option.isSome_map, List.find?_isSome]
    refine ⟨index, List.mem_range.mpr inside, ?_⟩
    rw [decide_eq_true_eq, DirEntry.nameRead, if_pos ⟨full, typed⟩]
    exact .inr read
  · intro noneRead
    by_cases empty : text = []
    · rw [if_pos empty]
      constructor
      · simp [empty]
      · intro _ nonempty
        exact absurd empty nonempty
    · rw [if_neg empty]
      have byName : ((List.range MAX_DIRECTORY_NUMBER).find? fun index =>
          text = (img.direntries index).name ∨ text = (img.direntries index).nameRead) =
          (List.range MAX_DIRECTORY_NUMBER).find? fun index =>
            text = (img.direntries index).name := by
        apply List.find?_congr
        intro index member
        rw [decide_eq_decide]
        constructor
        · rintro (named | read)
          · exact named
          · refine (eq_nameRead read).resolve_right fun readOn => ?_
            exact noneRead ⟨index, List.mem_range.mp member, readOn⟩
        · exact .inl
      rw [byName]
      exact exactAnswer_of_names padded empty

/-- A directory with one entry: a regular file under the name of 32 times `a`. -/
def longName : Image where
  byte addr :=
    if addr = 0 then 1 else if 64 ≤ addr ∧ addr < 96 then 0x61 else if addr = 96 then 2 else 0

theorem longName_namesPadded : longName.NamesPadded where
  padded := by decide +kernel
  filetype := by decide +kernel
  unused := by decide +kernel

/-- The name itself is looked up exactly. -/
theorem longName_exact_iff :
    ExactAnswer longName (List.replicate 32 0x61)
        (readDentryByName (some longName) (some (charPtr (List.replicate 32 0x61)))) ↔
      ¬ ∃ index < MAX_DIRECTORY_NUMBER,
        (longName.direntries index).name.length = FILENAME_LEN ∧
          (longName.direntries index).filetype ≠ 0 ∧
          List.replicate 32 0x61 = (longName.direntries index).name ++
            [UInt8.ofNat (longName.direntries index).filetype] :=
  readDentryByName_exact_iff longName_namesPadded (spells_charPtr (by decide +kernel))

/-- The name followed by the byte 2 is found as well, although no name has 33 characters. -/
theorem longName_not_exact :
    longName.NamesPadded ∧
      Spells (charPtr (List.replicate 32 0x61 ++ [2])) 0 (List.replicate 32 0x61 ++ [2]) ∧
      ¬ ExactAnswer longName (List.replicate 32 0x61 ++ [2])
        (readDentryByName (some longName) (some (charPtr (List.replicate 32 0x61 ++ [2])))) := by
  have spells : Spells (charPtr (List.replicate 32 0x61 ++ [2])) 0
      (List.replicate 32 0x61 ++ [2]) := spells_charPtr (by decide +kernel)
  refine ⟨longName_namesPadded, spells, ?_⟩
  intro exact
  rw [readDentryByName_search longName_namesPadded spells] at exact
  exact not_exactAnswer_of_long (by decide) (by decide +kernel) exact

end LightOS.Filesystem
