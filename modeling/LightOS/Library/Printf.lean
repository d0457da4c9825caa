import LightOS.Filesystem.Strings
import LightOS.Kernel.Screen
import LightOS.Lib.Rounds
import LightOS.Library.Format

/-! # `printf`

The scanner of `printf` in `lib.c`, with what it reads of its format, the argument words it
takes and the characters it passes to `putc`.  What it does is compared with what the format
means, and the two agree unless the format is cut off within a conversion.
-/

namespace LightOS.Library

open Lib Filesystem

/-- What a call of `printf` is made with.  `convBuf i` is what the `conv_buf` of the conversion
    whose specifier is at place `i` of the format holds before it is written. -/
structure Call where
  format : CharPtr
  words : Nat → UInt32
  mem : UInt32 → UInt8
  convBuf : Nat → CharPtr

/-- The string that an argument word points to. -/
def Call.string (call : Call) (word : UInt32) : CharPtr :=
  fun i => call.mem (word + UInt32.ofNat i)

/-- `buf` is counted from the start of the format and `esp` in argument words.  `reads` are the
    places of the format that have been read and `taken` the argument words that have been. -/
structure Scan where
  buf : Nat
  esp : Nat
  out : List UInt8
  reads : List Nat
  taken : List Nat
  deriving Repr, DecidableEq

namespace Scan

/-- A read of `*buf`. -/
def read (s : Scan) : Scan := { s with reads := s.reads ++ [s.buf] }

/-- `buf++` -/
def next (s : Scan) : Scan := { s with buf := s.buf + 1 }

def putc (s : Scan) (c : UInt8) : Scan := { s with out := s.out ++ [c] }

/-- What is printed for `*esp`, and `esp++`. -/
def take (s : Scan) (text : List UInt8) : Scan :=
  { s with out := s.out ++ text, esp := s.esp + 1, taken := s.taken ++ [s.esp] }

end Scan

/-- The cases of the inner `switch` but `'#'`. -/
def conversion (call : Call) (alternate : Bool) (c : UInt8) (s : Scan) (rounds : Nat) :
    Option Scan :=
  if c = ascii '%' then some (s.putc (ascii '%'))
  else if c = ascii 'x' then
    (convX rounds alternate (call.words s.esp) ⟨64, call.convBuf s.buf⟩).map s.take
  else if c = ascii 'u' then
    (convU rounds (call.words s.esp) ⟨36, call.convBuf s.buf⟩).map s.take
  else if c = ascii 'd' then
    (convD rounds (call.words s.esp) ⟨36, call.convBuf s.buf⟩).map s.take
  else if c = ascii 'c' then some (s.take [(call.words s.esp).toUInt8])
  else if c = ascii 's' then
    (puts (fun i => some (call.string (call.words s.esp) i)) 0 [] rounds).map fun printed =>
      s.take printed.1
  else some s

/-- From the label `format_char_switch` to the end of the inner `switch`. -/
def formatCharSwitch (call : Call) (alternate : Bool) (s : Scan) : Nat → Option Scan
  | 0 => none
  | rounds + 1 =>
      if call.format s.buf = ascii '#' then formatCharSwitch call true s.read.next rounds
      else conversion call alternate (call.format s.buf) s.read rounds

/-- The loop of `printf`. -/
def printfLoop (call : Call) (s : Scan) : Nat → Option Scan
  | 0 => none
  | rounds + 1 =>
      if call.format s.buf = 0 then some s.read
      else if call.format s.buf = ascii '%' then do
        let s ← formatCharSwitch call false s.read.read.next rounds
        printfLoop call s.next rounds
      else printfLoop call (s.read.read.read.putc (call.format s.buf)).next rounds

/-- `printf`: what it has done, and what it returns. -/
def printf (call : Call) (rounds : Nat) : Option (Scan × Int) := do
  let s ← printfLoop call ⟨0, 0, [], [], []⟩ rounds
  return (s, toInt32 s.buf)

/-- The arguments are of the right kind: those for `%s` point to texts. -/
def RightKind (call : Call) (strings : Nat → List UInt8) (format : List UInt8) : Prop :=
  ∀ k, (takers (items none format))[k]? = some (ascii 's') →
    Spells (call.string (call.words k)) 0 (strings k)

/-- What a run of `printf` is to have done and returned. -/
structure Prints (call : Call) (strings : Nat → List UInt8) (format : List UInt8)
    (s : Scan) (ret : Int) : Prop where
  reads : ∀ i ∈ s.reads, i ≤ format.length
  taken : s.taken = List.range (takers (items none format)).length
  out : s.out = rendering call.words strings 0 (items none format)
  ret : ret = toInt32 format.length

/-- What a conversion adds: the text, and the argument word if it is for one. -/
def Scan.convert (words : Nat → UInt32) (strings : Nat → List UInt8) (s : Scan)
    (alternate : Bool) (c : UInt8) : Scan :=
  if takes c then s.take (conversionText words strings s.esp alternate c)
  else { s with out := s.out ++ conversionText words strings s.esp alternate c }

section Conversion

variable {call : Call} {strings : Nat → List UInt8} {alternate : Bool} {c : UInt8} {s s' : Scan}
  {rounds : Nat}

theorem reads_of_spells {string : CharPtr} {i : Nat} {text : List UInt8}
    (spells : Spells string i text) : Reads (fun k => some (string k)) i text where
  char k inside := ⟨congrArg some (spells.char k inside).1, (spells.char k inside).2⟩
  nul := congrArg some spells.nul

/-- On a string in memory it is the `strlen` that names of files are measured with. -/
theorem strlen_string {string : CharPtr} {text : List UInt8} (spells : Spells string 0 text)
    (small : text.length < 2 ^ 32) :
    Yields (strlen (fun k => some (string k)) 0) (Filesystem.strlen string) := by
  refine ⟨text.length + 1, fun rounds enough => ?_⟩
  rw [strlen_reads (reads_of_spells spells) enough, spells.strlen_eq small, Nat.zero_add]

/-- Every case of the inner `switch` comes to its end. -/
theorem conversion_yields
    (kind : c = ascii 's' → Spells (call.string (call.words s.esp)) 0 (strings s.esp)) :
    Yields (conversion call alternate c s) (s.convert call.words strings alternate c) := by
  by_cases percent : c = ascii '%'
  · subst percent
    exact Yields.of_some _
  by_cases hex : c = ascii 'x'
  · subst hex
    refine ⟨33, fun rounds enough => ?_⟩
    cases alternate with
    | false => exact congrArg (Option.map s.take) (convX_plain enough rfl)
    | true => exact congrArg (Option.map s.take) (convX_alternate enough rfl)
  by_cases unsigned : c = ascii 'u'
  · subst unsigned
    exact ⟨33, fun rounds enough => congrArg (Option.map s.take) (convU_spec enough rfl)⟩
  by_cases signed : c = ascii 'd'
  · subst signed
    exact ⟨34, fun rounds enough => congrArg (Option.map s.take) (convD_spec enough rfl)⟩
  by_cases character : c = ascii 'c'
  · subst character
    exact Yields.of_some _
  by_cases string : c = ascii 's'
  · subst string
    refine ⟨(strings s.esp).length + 1, fun rounds enough => ?_⟩
    exact congrArg (Option.map fun printed => s.take printed.1)
      (puts_reads (reads_of_spells (kind rfl)) enough)
  · have none : takes c = false := by
      simp only [takes, List.mem_cons, List.not_mem_nil, hex, unsigned, signed, character, string,
        or_false, decide_false]
    have empty : conversionText call.words strings s.esp alternate c = [] := by
      simp only [conversionText, percent, hex, unsigned, signed, character, string, if_false]
    have unknown : s.convert call.words strings alternate c = s := by
      simp [Scan.convert, none, empty]
    have skipped (rounds : Nat) : conversion call alternate c s rounds = some s := by
      simp only [conversion, percent, hex, unsigned, signed, character, string, if_false]
    rw [unknown]
    exact ⟨0, fun rounds _ => skipped rounds⟩

/-- The inner `switch` at a specifier. -/
theorem formatCharSwitch_yields (here : call.format s.buf = c) (other : c ≠ ascii '#')
    (kind : c = ascii 's' → Spells (call.string (call.words s.esp)) 0 (strings s.esp)) :
    Yields (formatCharSwitch call alternate s)
      (s.read.convert call.words strings alternate c) := by
  have switched : Yields (conversion call alternate c s.read) _ := conversion_yields kind
  refine (yields_round_iff fun rounds => ?_).mpr switched
  rw [formatCharSwitch, here, if_neg other]

/-- Reading of the format goes on outside of the inner cases. -/
theorem conversion_reads (done : conversion call alternate c s rounds = some s') :
    s'.reads = s.reads := by
  unfold conversion at done
  split_ifs at done
  · cases done
    rfl
  · obtain ⟨text, -, rfl⟩ := Option.map_eq_some_iff.mp done
    rfl
  · obtain ⟨text, -, rfl⟩ := Option.map_eq_some_iff.mp done
    rfl
  · obtain ⟨text, -, rfl⟩ := Option.map_eq_some_iff.mp done
    rfl
  · cases done
    rfl
  · obtain ⟨text, -, rfl⟩ := Option.map_eq_some_iff.mp done
    rfl
  · cases done
    rfl

theorem formatCharSwitch_reads (done : formatCharSwitch call alternate s rounds = some s') :
    ∀ i ∈ s.reads, i ∈ s'.reads := by
  induction rounds generalizing alternate s with
  | zero => cases done
  | succ rounds ih =>
      intro i mem
      have kept : i ∈ s.read.reads := List.mem_append_left _ mem
      unfold formatCharSwitch at done
      split at done
      · exact ih done i kept
      · rw [conversion_reads done]
        exact kept

/-- What has been read stays read, and the loop reads where it is. -/
theorem printfLoop_reads (done : printfLoop call s rounds = some s') :
    s.buf ∈ s'.reads ∧ ∀ i ∈ s.reads, i ∈ s'.reads := by
  induction rounds generalizing s with
  | zero => cases done
  | succ rounds ih =>
      have here : s.buf ∈ s.read.reads := List.mem_append_right _ List.mem_cons_self
      have kept : ∀ i ∈ s.read.reads, i ∈ s'.reads := by
        intro i mem
        unfold printfLoop at done
        split_ifs at done
        · cases done
          exact mem
        · obtain ⟨middle, switched, later⟩ := Option.bind_eq_some_iff.mp done
          have before : i ∈ s.read.read.next.reads := List.mem_append_left _ mem
          exact (ih later).2 i (formatCharSwitch_reads switched i before)
        · exact (ih done).2 i (List.mem_append_left _ (List.mem_append_left _ mem))
      exact ⟨kept _ here, fun i mem => kept i (List.mem_append_left _ mem)⟩

end Conversion

/-- The invariant of the scanner, `rest` being what it has not passed yet of a format of `length`
    characters: the text `total` and the `count` argument words of the whole format are those
    it has had and those of the rest. -/
structure Owes (call : Call) (strings : Nat → List UInt8) (length : Nat) (total : List UInt8)
    (count : Nat) (mode : Option Bool) (rest : List UInt8) (s : Scan) : Prop where
  place : s.buf + rest.length = length
  spells : Spells call.format s.buf rest
  reads : ∀ i ∈ s.reads, i ≤ length
  taken : s.taken = List.range s.esp
  text : s.out ++ rendering call.words strings s.esp (items mode rest) = total
  number : s.esp + (takers (items mode rest)).length = count
  kind : ∀ k, (takers (items mode rest))[k]? = some (ascii 's') →
    Spells (call.string (call.words (s.esp + k))) 0 (strings (s.esp + k))

section Owes

variable {call : Call} {strings : Nat → List UInt8} {length : Nat} {total : List UInt8}
  {count : Nat} {mode : Option Bool} {rest : List UInt8} {alternate : Bool} {c : UInt8}
  {s : Scan}

/-- A read of what comes next. -/
theorem Owes.read (owes : Owes call strings length total count mode rest s) :
    Owes call strings length total count mode rest s.read :=
  { owes with
    reads := by
      intro i mem
      rcases List.mem_append.mp mem with before | here
      · exact owes.reads i before
      · rw [List.mem_singleton] at here
        have place := owes.place
        omega }

/-- A character that is not a piece by itself. -/
theorem Owes.skip {mode' : Option Bool}
    (owes : Owes call strings length total count mode (c :: rest) s)
    (same : items mode (c :: rest) = items mode' rest) :
    Owes call strings length total count mode' rest s.next where
  place := by
    have place := owes.place
    simp only [List.length_cons] at place
    simp only [Scan.next]
    omega
  spells := owes.spells.tail
  reads := owes.reads
  taken := owes.taken
  text := same ▸ owes.text
  number := same ▸ owes.number
  kind := same ▸ owes.kind

theorem Owes.literal (other : c ≠ ascii '%')
    (owes : Owes call strings length total count none (c :: rest) s) :
    Owes call strings length total count none rest (s.putc c).next where
  place := by
    have place := owes.place
    simp only [List.length_cons] at place
    simp only [Scan.next, Scan.putc]
    omega
  spells := owes.spells.tail
  reads := owes.reads
  taken := owes.taken
  text := by
    have text := owes.text
    rw [items_literal other] at text
    simpa [Scan.next, Scan.putc, rendering] using text
  number := by
    have number := owes.number
    rw [items_literal other] at number
    exact number
  kind := by
    have kind := owes.kind
    rw [items_literal other] at kind
    exact kind

theorem Owes.specifier (other : c ≠ ascii '#')
    (owes : Owes call strings length total count (some alternate) (c :: rest) s) :
    Owes call strings length total count none rest
      (s.convert call.words strings alternate c).next := by
  obtain ⟨place, spells, reads, taken, text, number, kind⟩ := owes
  rw [items_specifier other] at text number kind
  simp only [List.length_cons] at place
  unfold Scan.convert
  cases takesOne : takes c with
  | true =>
      simp only [rendering, takers, takesOne, if_true, List.length_cons] at text number kind ⊢
      refine ⟨?_, spells.tail, reads, ?_, ?_, ?_, ?_⟩
      · simp only [Scan.next, Scan.take]
        omega
      · simp only [Scan.next, Scan.take, taken, List.range_succ]
      · simpa [Scan.next, Scan.take] using text
      · simp only [Scan.next, Scan.take]
        omega
      · intro k string
        have later := kind (k + 1) string
        rwa [← Nat.add_assoc, Nat.add_right_comm] at later
  | false =>
      simp only [rendering, takers, takesOne, Bool.false_eq_true, if_false] at text number kind ⊢
      refine ⟨?_, spells.tail, reads, taken, ?_, number, kind⟩
      · simp only [Scan.next]
        omega
      · simpa [Scan.next] using text

/-- What the inner `switch` needs to know of the argument. -/
theorem Owes.string (owes : Owes call strings length total count (some alternate) (c :: rest) s)
    (string : c = ascii 's') :
    Spells (call.string (call.words s.esp)) 0 (strings s.esp) := by
  subst string
  exact owes.kind 0 rfl

/-- The inner `switch` comes to the specifier, or to the NUL of a format that is cut off. -/
theorem Owes.switch (owes : Owes call strings length total count (some alternate) rest s) :
    ∃ s', Yields (formatCharSwitch call alternate s) s' ∧
      ((∃ later, later.length < rest.length ∧
          Owes call strings length total count none later s'.next ∧
          (Item.cutOff ∈ items (some alternate) rest ↔ Item.cutOff ∈ items none later)) ∨
        s'.buf = length ∧ Item.cutOff ∈ items (some alternate) rest) := by
  induction rest generalizing alternate s with
  | nil =>
      have nul : call.format s.buf = 0 := owes.spells.nul
      have switched : Yields (formatCharSwitch call alternate s)
          (s.read.convert call.words strings alternate 0) :=
        formatCharSwitch_yields nul (by decide) (fun same => absurd same (by decide))
      exact ⟨_, switched, .inr ⟨owes.place, List.mem_cons_self⟩⟩
  | cons c rest ih =>
      obtain ⟨here, notNul⟩ := owes.spells.head
      by_cases sharp : c = ascii '#'
      · subst sharp
        obtain ⟨s', switched, outcome⟩ := ih (owes.read.skip items_sharp)
        refine ⟨s', (yields_round_iff fun rounds => ?_).mpr switched, ?_⟩
        · rw [formatCharSwitch, if_pos here]
        · rcases outcome with ⟨later, shorter, owes', same⟩ | cut
          · exact .inl ⟨later, Nat.lt_succ_of_lt shorter, owes', same⟩
          · exact .inr cut
      · have switched : Yields (formatCharSwitch call alternate s) _ :=
          formatCharSwitch_yields here sharp owes.string
        refine ⟨_, switched, .inl ⟨rest, Nat.lt_succ_self _, owes.read.specifier sharp, ?_⟩⟩
        rw [items_specifier sharp, cutOff_mem_conversion]

theorem printfLoop_percent (here : call.format s.buf = ascii '%') (rounds : Nat) :
    printfLoop call s (rounds + 1) =
      (formatCharSwitch call false s.read.read.next rounds).bind fun s =>
        printfLoop call s.next rounds := by
  rw [printfLoop, here, if_neg (by decide), if_pos rfl]
  rfl

theorem printfLoop_literal (here : call.format s.buf = c) (notNul : c ≠ 0)
    (other : c ≠ ascii '%') (rounds : Nat) :
    printfLoop call s (rounds + 1) =
      printfLoop call (s.read.read.read.putc c).next rounds := by
  rw [printfLoop, here, if_neg notNul, if_neg other]

/-- A format that is not cut off is scanned to its NUL, and no further. -/
theorem Owes.finishes (owes : Owes call strings length total count none rest s)
    (complete : Item.cutOff ∉ items none rest) :
    ∃ final, Yields (printfLoop call s) final ∧
      Owes call strings length total count none [] final := by
  -- a conversion takes several characters, so the induction is on what is left of them
  induction size : rest.length using Nat.strong_induction_on generalizing rest s with
  | _ n ih =>
      cases rest with
      | nil =>
          have nul : call.format s.buf = 0 := owes.spells.nul
          refine ⟨s.read, (yields_round_iff fun rounds => ?_).mpr (Yields.of_some s.read),
            owes.read⟩
          rw [printfLoop, if_pos nul]
      | cons c rest =>
          obtain ⟨here, notNul⟩ := owes.spells.head
          by_cases percent : c = ascii '%'
          · subst percent
            obtain ⟨s', switched, outcome⟩ := (owes.read.read.skip items_percent).switch
            rcases outcome with ⟨later, shorter, owes', same⟩ | ⟨_, cut⟩
            · have whole : Item.cutOff ∉ items none later := fun mem => complete (same.mpr mem)
              obtain ⟨final, finished, done⟩ := ih later.length
                (size ▸ Nat.lt_succ_of_lt shorter) owes' whole rfl
              exact ⟨final, (yields_round_iff (printfLoop_percent here)).mpr
                (switched.bind_iff.mpr finished), done⟩
            · exact absurd cut complete
          · rw [items_literal percent, cutOff_mem_literal] at complete
            obtain ⟨final, finished, done⟩ := ih rest.length (size ▸ Nat.lt_succ_self _)
              (owes.read.read.read.literal percent) complete rfl
            exact ⟨final,
              (yields_round_iff (printfLoop_literal here notNul percent)).mpr finished, done⟩

/-- Of a format that is cut off the scanner passes the NUL. -/
theorem Owes.overruns (owes : Owes call strings length total count none rest s)
    (cut : Item.cutOff ∈ items none rest) {final : Scan}
    (finished : Yields (printfLoop call s) final) : length + 1 ∈ final.reads := by
  induction size : rest.length using Nat.strong_induction_on generalizing rest s with
  | _ n ih =>
      cases rest with
      | nil => exact absurd cut List.not_mem_nil
      | cons c rest =>
          obtain ⟨here, notNul⟩ := owes.spells.head
          by_cases percent : c = ascii '%'
          · subst percent
            obtain ⟨s', switched, outcome⟩ := (owes.read.read.skip items_percent).switch
            have after := switched.bind_iff.mp
              ((yields_round_iff (printfLoop_percent here)).mp finished)
            rcases outcome with ⟨later, shorter, owes', same⟩ | ⟨atEnd, _⟩
            · exact ih later.length (size ▸ Nat.lt_succ_of_lt shorter) owes' (same.mp cut) after
                rfl
            -- the `buf++` behind the outer `switch` steps over the NUL, and the loop reads on
            · obtain ⟨enough, result⟩ := after
              have reached := (printfLoop_reads (result enough (Nat.le_refl _))).1
              simp only [Scan.next, atEnd] at reached
              exact reached
          · rw [items_literal percent, cutOff_mem_literal] at cut
            have later := (yields_round_iff (printfLoop_literal here notNul percent)).mp finished
            exact ih rest.length (size ▸ Nat.lt_succ_self _)
              (owes.read.read.read.literal percent) cut later rfl

end Owes

/-- At a conversion the inner `switch` comes to its end and prints such a text. -/
def PrintsNext (call : Call) (alternate : Bool) (s : Scan) (text : List UInt8 → Prop) : Prop :=
  ∃ s' printed, Yields (formatCharSwitch call alternate s) s' ∧ s'.out = s.out ++ printed ∧
    text printed

section Numbers

variable {call : Call} {alternate : Bool} {c : UInt8} {s : Scan} {text : List UInt8 → Prop}

theorem printsNext_of_takes (here : call.format s.buf = c) (takesOne : takes c = true)
    (number : c ≠ ascii 's')
    (holds : text (conversionText call.words (fun _ => []) s.esp alternate c)) :
    PrintsNext call alternate s text := by
  have other : c ≠ ascii '#' := by
    rintro rfl
    exact absurd takesOne (by decide)
  have yields : Yields (formatCharSwitch call alternate s)
      (s.read.convert call.words (fun _ => []) alternate c) :=
    formatCharSwitch_yields here other (fun string => absurd string number)
  refine ⟨_, _, yields, ?_, holds⟩
  rw [Scan.convert, takesOne, if_pos rfl]
  rfl

/-- The `goto` behind a `#`. -/
theorem printsNext_of_sharp (here : call.format s.buf = ascii '#')
    (prints : PrintsNext call true s.read.next text) : PrintsNext call alternate s text := by
  obtain ⟨s', printed, yields, out, holds⟩ := prints
  refine ⟨s', printed, (yields_round_iff fun rounds => ?_).mpr yields, out, holds⟩
  rw [formatCharSwitch, if_pos here]

/-- Every value in every radix from 2 to 36 comes out of `itoa` as a numeral of it, within 33
    bytes.  With that `%u` and `%x` print the unsigned value, `%d` the signed one and `%#x` eight
    digits, wherever they stand in a format, and nothing is stored or loaded outside of a
    `conv_buf`: there would be no result. -/
theorem printed_numbers_decode :
    (∀ (value radix : UInt32) (b : Buffer) (start : Nat), 2 ≤ radix.toNat → radix.toNat ≤ 36 →
      start + 33 ≤ b.size →
      ∃ text b', Yields (fun rounds => itoa rounds value b start radix) b' ∧
        Reads (b'.pointer start) 0 text ∧ IsNumeral radix.toNat text value.toNat ∧
        text.length + 1 ≤ 33 ∧
        ∀ k, k < start ∨ start + (text.length + 1) ≤ k → b'.bytes k = b.bytes k) ∧
    ∀ (call : Call) (s : Scan),
      (call.format s.buf = ascii 'u' → ∀ alternate, PrintsNext call alternate s fun text =>
        IsNumeral 10 text (call.words s.esp).toNat) ∧
      (call.format s.buf = ascii 'd' → ∀ alternate, PrintsNext call alternate s fun text =>
        IsSignedNumeral 10 text (toInt32 (call.words s.esp).toNat)) ∧
      (call.format s.buf = ascii 'x' → PrintsNext call false s fun text =>
        IsNumeral 16 text (call.words s.esp).toNat) ∧
      (call.format s.buf = ascii '#' → call.format (s.buf + 1) = ascii 'x' →
        ∀ alternate, PrintsNext call alternate s fun text =>
          text.length = 8 ∧ decode 16 text = some (call.words s.esp).toNat) := by
  constructor
  · intro value radix b start large small fits
    have short := numeral_short large value
    refine ⟨numeral radix.toNat value.toNat, _,
      ⟨33, fun rounds enough => itoa_spec large small value enough fits⟩,
      Buffer.reads_put (numeral_ne_nul large small) (by omega),
      isNumeral_numeral large small _, by omega, fun k outside => ?_⟩
    exact Buffer.put_outside (by simpa using outside)
  · intro call s
    refine ⟨fun here alternate => ?_, fun here alternate => ?_, fun here => ?_,
      fun sharp here alternate => ?_⟩
    · exact printsNext_of_takes here rfl (by decide)
        (isNumeral_numeral (by decide) (by decide) _)
    · exact printsNext_of_takes here rfl (by decide) (isSignedNumeral_signedNumeral _)
    · exact printsNext_of_takes here rfl (by decide)
        (isNumeral_numeral (by decide) (by decide) _)
    · exact printsNext_of_sharp sharp (printsNext_of_takes here rfl (by decide)
        ⟨hexDigits_length _, decode_hexDigits _⟩)

/-- 255 in binary at the end of a buffer, and the most negative number. -/
theorem printed_numbers_decode_extremes :
    (∃ text b', Yields (fun rounds => itoa rounds 255 ⟨40, fun _ => 7⟩ 7 2) b' ∧
      Reads (b'.pointer 7) 0 text ∧ IsNumeral 2 text 255 ∧ text.length + 1 ≤ 33 ∧
      ∀ k, k < 7 ∨ 7 + (text.length + 1) ≤ k → b'.bytes k = 7) ∧
    PrintsNext ⟨charPtr [37, 100], fun _ => 0x80000000, fun _ => 0, fun _ _ => 7⟩ false
      ⟨1, 0, [], [0, 0], []⟩ fun text => IsSignedNumeral 10 text (-2147483648) :=
  ⟨printed_numbers_decode.1 255 2 ⟨40, fun _ => 7⟩ 7 (by decide) (by decide) (by decide),
    (printed_numbers_decode.2 _ ⟨1, 0, [], [0, 0], []⟩).2.1 rfl false⟩

end Numbers

section Printf

variable {call : Call} {strings : Nat → List UInt8} {format : List UInt8}

theorem owes_start (spells : Spells call.format 0 format)
    (kind : RightKind call strings format) :
    Owes call strings format.length (rendering call.words strings 0 (items none format))
      (takers (items none format)).length none format ⟨0, 0, [], [], []⟩ where
  place := Nat.zero_add _
  spells := spells
  reads i mem := absurd mem List.not_mem_nil
  taken := rfl
  text := List.nil_append _
  number := Nat.zero_add _
  kind k string := by
    rw [Nat.zero_add]
    exact kind k string

theorem yields_printf_iff {s : Scan} {ret : Int} : Yields (printf call) (s, ret) ↔
    Yields (printfLoop call ⟨0, 0, [], [], []⟩) s ∧ ret = toInt32 s.buf := by
  constructor
  · rintro ⟨enough, result⟩
    have looped (rounds : Nat) (reached : enough ≤ rounds) :
        printfLoop call ⟨0, 0, [], [], []⟩ rounds = some s ∧ ret = toInt32 s.buf := by
      obtain ⟨s', loop, same⟩ := Option.bind_eq_some_iff.mp (result rounds reached)
      cases same
      exact ⟨loop, rfl⟩
    exact ⟨⟨enough, fun rounds reached => (looped rounds reached).1⟩,
      (looped enough (Nat.le_refl _)).2⟩
  · rintro ⟨looped, rfl⟩
    exact looped.bind (Yields.of_some _)

theorem prints_of_complete (spells : Spells call.format 0 format)
    (kind : RightKind call strings format) (complete : Complete format) :
    ∃ s ret, Yields (printf call) (s, ret) ∧ Prints call strings format s ret := by
  obtain ⟨s, finished, owes⟩ := (owes_start spells kind).finishes complete
  have place : s.buf = format.length := owes.place
  refine ⟨s, toInt32 s.buf, yields_printf_iff.mpr ⟨finished, rfl⟩, owes.reads, ?_, ?_, ?_⟩
  · rw [owes.taken, ← owes.number]
    rfl
  · exact (List.append_nil _).symm.trans owes.text
  · rw [place]

/-- A text without conversions leaves the display as `Display.printf` does. -/
theorem printf_plain (spells : Spells call.format 0 format) (plain : ascii '%' ∉ format)
    (active : TerminalId) (display : Kernel.Display) :
    ∃ s ret, Yields (printf call) (s, ret) ∧
      s.out.foldl (Kernel.Display.putc active) display = display.printf active format := by
  obtain ⟨complete, none, same⟩ := plain_format call.words (fun _ => []) plain
  have kind : RightKind call (fun _ => []) format := by
    intro k string
    rw [none] at string
    cases string
  obtain ⟨s, ret, yields, prints⟩ := prints_of_complete spells kind complete
  refine ⟨s, ret, yields, ?_⟩
  rw [prints.out, same, Kernel.Display.printf]

/-- With arguments of the right kind, `printf` reads no further than the NUL of its format,
    takes the argument words of its conversions, prints what the format means and returns the
    length of the format exactly if the format does not end within a conversion. -/
theorem printf_prints_iff_complete (call : Call) (strings : Nat → List UInt8)
    (format : List UInt8) (spells : Spells call.format 0 format)
    (kind : RightKind call strings format) :
    (∃ s ret, Yields (printf call) (s, ret) ∧ Prints call strings format s ret) ↔
      Complete format := by
  constructor
  · rintro ⟨s, ret, yields, prints⟩ cut
    have passed := (owes_start spells kind).overruns cut (yields_printf_iff.mp yields).1
    exact absurd (prints.reads _ passed) (Nat.not_succ_le_self _)
  · exact prints_of_complete spells kind

/-- `printf("%s=%#x%%", "ab", 255)` -/
theorem printf_prints_iff_complete_text :
    let call : Call := ⟨charPtr [37, 115, 61, 37, 35, 120, 37, 37],
      fun k => if k = 1 then 255 else 0, fun address => if address = 0 then 97 else
        if address = 1 then 98 else 0, fun _ _ => 7⟩
    ∃ s ret, Yields (printf call) (s, ret) ∧ s.taken = [0, 1] ∧ ret = 8 ∧
      s.out = [97, 98, 61, 48, 48, 48, 48, 48, 48, 70, 70, 37] := by
  intro call
  let strings : Nat → List UInt8 := fun _ => [97, 98]
  let format : List UInt8 := [37, 115, 61, 37, 35, 120, 37, 37]
  have spells : Spells call.format 0 format := spells_charPtr (by decide +kernel)
  have argument : Spells (call.string (call.words 0)) 0 [97, 98] :=
    { char := by decide, nul := rfl }
  have kind : RightKind call strings format := by
    intro k string
    match k, string with
    | 0, _ => exact argument
    | 1, string => exact absurd string (by decide)
    | k + 2, string => cases string
  obtain ⟨s, ret, yields, prints⟩ :=
    (printf_prints_iff_complete call strings format spells kind).mpr (by decide)
  refine ⟨s, ret, yields, prints.taken, prints.ret, prints.out.trans ?_⟩
  simp [format, call, strings, items, rendering, conversionText, takes, hexDigits, numeral,
    digitChar]

/-- `printf("%")` reads the byte behind its NUL, and where that is NUL as well it returns 2. -/
theorem printf_lone_percent :
    let call : Call := ⟨charPtr [ascii '%'], fun _ => 0, fun _ => 0, fun _ _ => 0⟩
    Spells call.format 0 [ascii '%'] ∧ RightKind call (fun _ => []) [ascii '%'] ∧
      Yields (printf call) (⟨2, 0, [], [0, 0, 1, 2], []⟩, 2) ∧
      ¬ ∃ s ret, Yields (printf call) (s, ret) ∧
        Prints call (fun _ => []) [ascii '%'] s ret := by
  intro call
  have yields : Yields (printf call) (⟨2, 0, [], [0, 0, 1, 2], []⟩, 2) := by
    refine ⟨3, fun rounds enough => ?_⟩
    obtain ⟨more, rfl⟩ := Nat.exists_eq_add_of_le' enough
    rfl
  refine ⟨spells_charPtr (by decide +kernel), fun k string => ?_, yields, ?_⟩
  · cases string
  · rintro ⟨s, ret, other, prints⟩
    cases yields.unique other
    exact absurd (prints.reads 2 (by decide)) (by decide)

end Printf

end LightOS.Library
