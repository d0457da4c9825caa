import LightOS.Lib.Buffer
import LightOS.Lib.Numeral
import LightOS.Lib.Word32

/-! # Numbers as texts

`itoa` with `strrev` and `strlen`, and the conversions `%x`, `%u` and `%d` of `printf` with
their buffers.  A loop is given the number of rounds it may take; there is no result if they
do not suffice, nor after an access outside of a buffer.
-/

namespace LightOS.Library

open Lib

/-- `lookup`, with its NUL. -/
def lookup : List UInt8 :=
  ("0123456789ABCDEFGHIJKLMNOPQRSTUVWXYZ".toList.map fun c => UInt8.ofNat c.toNat) ++ [0]

/-- `strlen`, from the length `len` on. -/
def strlen (s : Reader) (len : Nat) : Nat → Option Nat
  | 0 => none
  | rounds + 1 => do
      let c ← s len
      if c = 0 then some len else strlen s (len + 1) rounds

/-- `puts`, from `index` on: the characters it passes to `putc` and what it returns. -/
def puts (s : Reader) (index : Nat) (out : List UInt8) : Nat → Option (List UInt8 × Int)
  | 0 => none
  | rounds + 1 => do
      let c ← s index
      if c = 0 then some (out, toInt32 index) else puts s (index + 1) (out ++ [c]) rounds

/-- The loop of `strrev` on the string at `s`; `last` is its `end`. -/
def strrevLoop (s : Nat) (beg last : Int) (buf : Buffer) : Nat → Option Buffer
  | 0 => none
  | rounds + 1 =>
      if beg < last then do
        let tmp ← buf.load (s + last.toNat)
        let first ← buf.load (s + beg.toNat)
        let buf ← buf.store (s + last.toNat) first
        let buf ← buf.store (s + beg.toNat) tmp
        strrevLoop s (beg + 1) (last - 1) buf rounds
      else some buf

/-- `strrev` -/
def strrev (rounds : Nat) (buf : Buffer) (s : Nat) : Option Buffer := do
  let len ← strlen (buf.pointer s) 0 rounds
  -- `strlen(s) - 1` in 32 bits
  strrevLoop s 0 (toInt32 (len + 0xFFFFFFFF)) buf rounds

/-- The digits that `itoa` stores, and where it has stopped.  A radix of 0 is a division fault. -/
def itoaLoop (radix newval : UInt32) (newbuf : Nat) (buf : Buffer) : Nat → Option (Nat × Buffer)
  | 0 => none
  | rounds + 1 =>
      if newval = 0 then some (newbuf, buf)
      else if radix = 0 then none
      else do
        let c ← lookup[(newval % radix).toNat]?
        let buf ← buf.store newbuf c
        itoaLoop radix (newval / radix) (newbuf + 1) buf rounds

/-- `itoa(value, &buf[start], radix)` -/
def itoa (rounds : Nat) (value : UInt32) (buf : Buffer) (start : Nat) (radix : UInt32) :
    Option Buffer :=
  if value = 0 then do
    let buf ← buf.store start 48
    buf.store (start + 1) 0
  else do
    let (newbuf, buf) ← itoaLoop radix value start buf rounds
    let buf ← buf.store newbuf 0
    strrev rounds buf start

/-- `while (i < 8) { conv_buf[i] = '0'; i++; }` -/
def padLoop (i : Nat) (buf : Buffer) : Nat → Option Buffer
  | 0 => none
  | rounds + 1 =>
      if i < 8 then do
        let buf ← buf.store i 48
        padLoop (i + 1) buf rounds
      else some buf

/-- `%x` with its `conv_buf`: what it passes to `putc`. -/
def convX (rounds : Nat) (alternate : Bool) (word : UInt32) (convBuf : Buffer) :
    Option (List UInt8) :=
  if alternate = false then do
    let convBuf ← itoa rounds word convBuf 0 16
    let (out, _) ← puts (convBuf.pointer 0) 0 [] rounds
    return out
  else do
    let convBuf ← itoa rounds word convBuf 8 16
    let startingIndex ← strlen (convBuf.pointer 8) 0 rounds
    let convBuf ← padLoop startingIndex convBuf rounds
    let (out, _) ← puts (convBuf.pointer startingIndex) 0 [] rounds
    return out

/-- `%u` with its `conv_buf`. -/
def convU (rounds : Nat) (word : UInt32) (convBuf : Buffer) : Option (List UInt8) := do
  let convBuf ← itoa rounds word convBuf 0 10
  let (out, _) ← puts (convBuf.pointer 0) 0 [] rounds
  return out

/-- `conv_buf[0] = '-'` and `itoa(-value, &conv_buf[1], 10)`, or `itoa(value, conv_buf, 10)`. -/
def signedBuffer (rounds : Nat) (word : UInt32) (convBuf : Buffer) : Option Buffer :=
  if toInt32 word.toNat < 0 then do
    let convBuf ← convBuf.store 0 45
    itoa rounds (-word) convBuf 1 10
  else itoa rounds word convBuf 0 10

/-- `%d` with its `conv_buf`. -/
def convD (rounds : Nat) (word : UInt32) (convBuf : Buffer) : Option (List UInt8) := do
  let convBuf ← signedBuffer rounds word convBuf
  let (out, _) ← puts (convBuf.pointer 0) 0 [] rounds
  return out

section Loops

variable {read : Reader} {i : Nat} {text out : List UInt8} {b : Buffer}

theorem strlen_reads (reads : Reads read i text) {rounds : Nat} (enough : text.length < rounds) :
    strlen read i rounds = some (i + text.length) := by
  induction text generalizing i rounds with
  | nil =>
      obtain ⟨rounds, rfl⟩ := Nat.exists_eq_succ_of_ne_zero (Nat.pos_iff_ne_zero.mp enough)
      have nul : read i = some 0 := reads.nul
      simp [strlen, nul]
  | cons c text ih =>
      obtain ⟨rounds, rfl⟩ := Nat.exists_eq_succ_of_ne_zero (Nat.ne_zero_of_lt enough)
      obtain ⟨here, notNul⟩ := reads.head
      have later := ih reads.tail (Nat.lt_of_succ_lt_succ enough)
      rw [Nat.add_right_comm] at later
      simp [strlen, here, notNul, later, Nat.add_assoc]

theorem puts_reads (reads : Reads read i text) {rounds : Nat} (enough : text.length < rounds) :
    puts read i out rounds = some (out ++ text, toInt32 (i + text.length)) := by
  induction text generalizing i out rounds with
  | nil =>
      obtain ⟨rounds, rfl⟩ := Nat.exists_eq_succ_of_ne_zero (Nat.pos_iff_ne_zero.mp enough)
      have nul : read i = some 0 := reads.nul
      simp [puts, nul]
  | cons c text ih =>
      obtain ⟨rounds, rfl⟩ := Nat.exists_eq_succ_of_ne_zero (Nat.ne_zero_of_lt enough)
      obtain ⟨here, notNul⟩ := reads.head
      have later : puts read (i + 1) (out ++ [c]) rounds = some _ :=
        ih reads.tail (Nat.lt_of_succ_lt_succ enough)
      rw [Nat.add_right_comm] at later
      simp [puts, here, notNul, later, Nat.add_assoc]

/-- The two ends of a text, and then what is between them. -/
theorem put_ends (place : Nat) (first last : UInt8) (middle : List UInt8) :
    ((b.put place [first]).put (place + (middle.length + 1)) [last]).put (place + 1) middle =
      b.put place (first :: (middle ++ [last])) := by
  rw [Buffer.put_comm (by omega), show place + 1 = place + [first].length from rfl,
    Buffer.put_put, show place + (middle.length + 1) = place + ([first] ++ middle).length by simp,
    Buffer.put_put]
  rfl

/-- The two ends of a text, exchanged. -/
theorem put_exchange (place : Nat) (first last : UInt8) (middle : List UInt8) :
    ((b.put place (first :: (middle ++ [last]))).put (place + (middle.length + 1)) [first]).put
        place [last] =
      ((b.put place [last]).put (place + (middle.length + 1)) [first]).put (place + 1) middle := by
  have beforeMiddle : place + [last].length ≤ place + 1 := Nat.le_refl _
  have beforeEnd : place + [last].length ≤ place + (middle.length + 1) := by simp
  have middleBefore : place + 1 + middle.length ≤ place + (middle.length + 1) := by omega
  have firstOver : [last].length ≤ [first].length := Nat.le_refl 1
  have lastOver : [first].length ≤ [last].length := Nat.le_refl 1
  rw [← put_ends, Buffer.put_comm beforeEnd, Buffer.put_comm beforeMiddle,
    Buffer.put_comm beforeEnd, Buffer.put_over lastOver, ← Buffer.put_comm middleBefore,
    Buffer.put_over firstOver]

/-- The loop of `strrev` reverses what is between its two places. -/
theorem strrevLoop_spec (s beg : Nat) {rounds : Nat} (enough : text.length < rounds)
    (fits : s + beg + text.length ≤ b.size) :
    strrevLoop s beg (beg + text.length - 1) (b.put (s + beg) text) rounds =
      some (b.put (s + beg) text.reverse) := by
  induction text using List.bidirectionalRec generalizing b beg rounds with
  | nil =>
      obtain ⟨rounds, rfl⟩ := Nat.exists_eq_succ_of_ne_zero (Nat.pos_iff_ne_zero.mp enough)
      rw [strrevLoop, if_neg (by simp)]
      rfl
  | singleton c =>
      obtain ⟨rounds, rfl⟩ := Nat.exists_eq_succ_of_ne_zero (Nat.ne_zero_of_lt enough)
      rw [strrevLoop, if_neg (by simp)]
      rfl
  | cons_append first middle last ih =>
      obtain ⟨rounds, rfl⟩ := Nat.exists_eq_succ_of_ne_zero (Nat.ne_zero_of_lt enough)
      have size : (first :: (middle ++ [last])).length = middle.length + 2 := by simp
      rw [size] at enough fits ⊢
      have less : (beg : Int) < beg + (middle.length + 2 : Nat) - 1 := by omega
      have lastPlace : ((beg : Int) + (middle.length + 2 : Nat) - 1).toNat =
          beg + (middle.length + 1) := by omega
      have loadLast : (b.put (s + beg) (first :: (middle ++ [last]))).load
          (s + (beg + (middle.length + 1))) = some last := by
        rw [Buffer.load_eq (by simp; omega), ← Nat.add_assoc, Buffer.put_get (by simp)]
        simp
      have loadFirst : (b.put (s + beg) (first :: (middle ++ [last]))).load (s + beg) =
          some first := by
        rw [Buffer.load_eq (by simp; omega)]
        exact congrArg some (Buffer.put_get (b := b) (k := 0) (by simp))
      let ends := (b.put (s + beg) [last]).put (s + beg + (middle.length + 1)) [first]
      have inner : strrevLoop s (beg + 1 : Nat) ((beg + 1 : Nat) + middle.length - 1)
          (ends.put (s + (beg + 1)) middle) rounds =
            some (ends.put (s + (beg + 1)) middle.reverse) :=
        ih (beg + 1) (by omega) (by simp [ends]; omega)
      rw [strrevLoop, if_pos less, lastPlace, Int.toNat_natCast, loadLast, loadFirst]
      simp only [Option.bind_eq_bind, Option.bind_some]
      rw [Buffer.store_eq (by simp; omega), Option.bind_some, Buffer.store_eq (by simp; omega),
        Option.bind_some, ← Nat.add_assoc, put_exchange]
      have places : (beg : Int) + (middle.length + 2 : Nat) - 1 - 1 =
          (beg + 1 : Nat) + middle.length - 1 := by omega
      rw [places, List.reverse_cons, List.reverse_append, List.reverse_singleton]
      refine Eq.trans inner (congrArg some ?_)
      have joined := put_ends (b := b) (s + beg) last first middle.reverse
      rw [List.length_reverse] at joined
      exact joined

theorem put_nul (place : Nat) (text : List UInt8) :
    b.put place (text ++ [0]) = (b.put (place + text.length) [0]).put place text := by
  rw [Buffer.put_comm (Nat.le_refl _), Buffer.put_put]

/-- A text that ends in NUL is reversed in its place. -/
theorem strrev_spec (s : Nat) (nonzero : ∀ c ∈ text, c ≠ 0) (fits : s + text.length < b.size)
    (short : text.length < 2 ^ 31) {rounds : Nat} (enough : text.length < rounds) :
    strrev rounds (b.put s (text ++ [0])) s = some (b.put s (text.reverse ++ [0])) := by
  have length := strlen_reads (Buffer.reads_put nonzero fits) enough
  have last : toInt32 (0 + text.length + 0xFFFFFFFF) = ((0 : Nat) : Int) + text.length - 1 := by
    simp only [toInt32]
    omega
  have loop : strrevLoop s (0 : Nat) ((0 : Nat) + text.length - 1)
      ((b.put (s + text.length) [0]).put (s + 0) text) rounds =
        some ((b.put (s + text.length) [0]).put (s + 0) text.reverse) :=
    strrevLoop_spec s 0 enough (by simp; omega)
  have reversed := put_nul (b := b) s text.reverse
  rw [List.length_reverse] at reversed
  rw [strrev, length, Option.bind_eq_bind, Option.bind_some, last, put_nul, reversed]
  exact loop

theorem lookup_digit : ∀ d < 36, lookup[d]? = some (digitChar d) := by
  decide

section Itoa

variable {radix : UInt32}

/-- The digits of what is left, lowest place value first. -/
theorem itoaLoop_spec (large : 2 ≤ radix.toNat) (small : radix.toNat ≤ 36) {newval : UInt32}
    {newbuf rounds : Nat} (enough : (radix.toNat.digits newval.toNat).length < rounds)
    (fits : newbuf + (radix.toNat.digits newval.toNat).length ≤ b.size) :
    itoaLoop radix newval newbuf b rounds =
      some (newbuf + (radix.toNat.digits newval.toNat).length,
        b.put newbuf ((radix.toNat.digits newval.toNat).map digitChar)) := by
  induction rounds generalizing newval newbuf b with
  | zero => exact absurd enough (Nat.not_lt_zero _)
  | succ rounds ih =>
      by_cases zero : newval = 0
      · subst zero
        simp [itoaLoop]
      · have nonzero : newval.toNat ≠ 0 := fun same => zero (UInt32.toNat_inj.mp same)
        have radixNonzero : radix ≠ 0 := by
          intro same
          rw [same] at large
          exact absurd large (by decide)
        have digits : radix.toNat.digits newval.toNat = (newval % radix).toNat ::
            radix.toNat.digits (newval / radix).toNat := by
          rw [UInt32.toNat_mod, UInt32.toNat_div]
          exact Nat.digits_eq_cons_digits_div large nonzero
        have digit : (newval % radix).toNat < 36 := by
          rw [UInt32.toNat_mod]
          exact Nat.lt_of_lt_of_le (Nat.mod_lt _ (by omega)) small
        rw [digits, List.length_cons] at enough fits
        have later : itoaLoop radix (newval / radix) (newbuf + 1)
            (b.put newbuf [digitChar (newval % radix).toNat]) rounds = some _ :=
          ih (by omega) (by rw [Buffer.put_size]; omega)
        have joined := b.put_put newbuf [digitChar (newval % radix).toNat]
          ((radix.toNat.digits (newval / radix).toNat).map digitChar)
        rw [itoaLoop, if_neg zero, if_neg radixNonzero, lookup_digit _ digit]
        simp only [Option.bind_eq_bind, Option.bind_some]
        rw [Buffer.store_eq (by omega), Option.bind_some, later, digits, List.map_cons,
          List.length_cons]
        refine congrArg some (Prod.ext ?_ joined)
        exact Nat.add_right_comm newbuf 1 _

/-- `itoa` writes the numeral of its value, and uses no more than 33 bytes. -/
theorem itoa_spec (large : 2 ≤ radix.toNat) (small : radix.toNat ≤ 36) (value : UInt32)
    {start rounds : Nat} (enough : 33 ≤ rounds) (fits : start + 33 ≤ b.size) :
    itoa rounds value b start radix =
      some (b.put start (numeral radix.toNat value.toNat ++ [0])) := by
  by_cases zero : value = 0
  · subst zero
    rw [itoa, if_pos rfl, Buffer.store_eq (by omega), Option.bind_eq_bind, Option.bind_some,
      Buffer.store_eq (by simp; omega)]
    exact congrArg some (b.put_put start [48] [0])
  · have nonzero : value.toNat ≠ 0 := fun same => zero (UInt32.toNat_inj.mp same)
    have written : numeral radix.toNat value.toNat =
        ((radix.toNat.digits value.toNat).map digitChar).reverse := if_neg nonzero
    have few : (radix.toNat.digits value.toNat).length ≤ 32 :=
      (Nat.digits_length_le_iff large _).mpr
        (Nat.lt_of_lt_of_le value.toNat_lt (Nat.pow_le_pow_left large 32))
    have notNul : ∀ c ∈ (radix.toNat.digits value.toNat).map digitChar, c ≠ 0 := by
      intro c mem
      exact numeral_ne_nul (n := value.toNat) large small c (written ▸ List.mem_reverse.mpr mem)
    have nul := b.put_put start ((radix.toNat.digits value.toNat).map digitChar) [0]
    rw [List.length_map] at nul
    rw [itoa, if_neg zero, itoaLoop_spec large small (by omega) (by omega)]
    simp only [Option.bind_eq_bind, Option.bind_some]
    rw [Buffer.store_eq (by simp; omega), Option.bind_some, nul,
      strrev_spec start notNul (by simp; omega) (by simp; omega) (by simp; omega), written]

end Itoa

theorem puts_put (s : Nat) (nonzero : ∀ c ∈ text, c ≠ 0) (fits : s + text.length < b.size)
    {rounds : Nat} (enough : text.length < rounds) :
    puts ((b.put s (text ++ [0])).pointer s) 0 [] rounds =
      some (text, toInt32 (0 + text.length)) :=
  puts_reads (Buffer.reads_put nonzero fits) enough

/-- The zeros up to the eighth place. -/
theorem padLoop_spec {rounds : Nat} (enough : 8 - i < rounds) (fits : 8 ≤ b.size) :
    padLoop i b rounds = some (b.put i (List.replicate (8 - i) 48)) := by
  induction rounds generalizing i b with
  | zero => exact absurd enough (Nat.not_lt_zero _)
  | succ rounds ih =>
      by_cases less : i < 8
      · have later : padLoop (i + 1) (b.put i [48]) rounds = some _ := ih (by omega) fits
        have joined := b.put_put i [48] (List.replicate (8 - (i + 1)) 48)
        have zeros : List.replicate (8 - i) (48 : UInt8) =
            48 :: List.replicate (8 - (i + 1)) 48 := by
          rw [← List.replicate_succ]
          congr 1
          omega
        rw [padLoop, if_pos less, Buffer.store_eq (by omega), Option.bind_eq_bind,
          Option.bind_some, later, zeros]
        exact congrArg some joined
      · rw [padLoop, if_neg less, Nat.sub_eq_zero_of_le (by omega), List.replicate_zero,
          Buffer.put_nil]

section Conversions

variable {word : UInt32} {rounds : Nat}

theorem numeral_short {radix : Nat} (large : 2 ≤ radix) (word : UInt32) :
    (numeral radix word.toNat).length ≤ 32 :=
  numeral_length large (by decide)
    (Nat.lt_of_lt_of_le word.toNat_lt (Nat.pow_le_pow_left large 32))

/-- What `%#x` prints. -/
def hexDigits (word : UInt32) : List UInt8 :=
  List.replicate (8 - (numeral 16 word.toNat).length) 48 ++ numeral 16 word.toNat

/-- What `%d` prints. -/
def signedNumeral (word : UInt32) : List UInt8 :=
  if toInt32 word.toNat < 0 then 45 :: numeral 10 (-word).toNat else numeral 10 word.toNat

theorem numeral_hex_length (word : UInt32) : (numeral 16 word.toNat).length ≤ 8 :=
  numeral_length (by decide) (by decide) word.toNat_lt

/-- `itoa` at the start of a buffer, and `puts`. -/
theorem itoa_puts {radix : UInt32} (large : 2 ≤ radix.toNat) (small : radix.toNat ≤ 36)
    (enough : 33 ≤ rounds) (fits : 33 ≤ b.size) :
    ((itoa rounds word b 0 radix).bind fun convBuf =>
      (puts (convBuf.pointer 0) 0 [] rounds).bind fun printed => some printed.1) =
        some (numeral radix.toNat word.toNat) := by
  have short := numeral_short large word
  rw [itoa_spec large small word enough (by omega), Option.bind_some,
    puts_put 0 (numeral_ne_nul large small) (by omega) (by omega), Option.bind_some]

theorem convX_plain (enough : 33 ≤ rounds) (size : b.size = 64) :
    convX rounds false word b = some (numeral 16 word.toNat) := by
  rw [convX, if_pos rfl]
  exact itoa_puts (by decide) (by decide) enough (by omega)

theorem hexDigits_length (word : UInt32) : (hexDigits word).length = 8 := by
  have short := numeral_hex_length word
  simp [hexDigits]
  omega

theorem hexDigits_ne_nul (word : UInt32) : ∀ c ∈ hexDigits word, c ≠ 0 := by
  intro c mem
  rcases List.mem_append.mp mem with zero | digit
  · rw [List.eq_of_mem_replicate zero]
    decide
  · exact numeral_ne_nul (by decide) (by decide) c digit

/-- The zeros end where the digits begin. -/
theorem convX_alternate (enough : 33 ≤ rounds) (size : b.size = 64) :
    convX rounds true word b = some (hexDigits word) := by
  have short := numeral_hex_length word
  have notNul : ∀ c ∈ numeral 16 word.toNat, c ≠ 0 := numeral_ne_nul (by decide) (by decide)
  have length : strlen ((b.put 8 (numeral 16 word.toNat ++ [0])).pointer 8) 0 rounds =
      some (0 + (numeral 16 word.toNat).length) :=
    strlen_reads (Buffer.reads_put notNul (by omega)) (by omega)
  have zeros : (List.replicate (8 - (numeral 16 word.toNat).length) (48 : UInt8)).length =
      8 - (numeral 16 word.toNat).length := List.length_replicate
  have joined := b.put_put (numeral 16 word.toNat).length
    (List.replicate (8 - (numeral 16 word.toNat).length) 48) (numeral 16 word.toNat ++ [0])
  rw [zeros, Nat.add_sub_cancel' short, ← List.append_assoc] at joined
  rw [Nat.zero_add] at length
  rw [convX, if_neg (by decide), itoa_spec (by decide) (by decide) word enough (by omega)]
  simp only [Option.bind_eq_bind, Option.bind_some]
  rw [show (16 : UInt32).toNat = 16 from rfl, length, Option.bind_some,
    padLoop_spec (by omega) (by simp; omega), Option.bind_some,
    Buffer.put_comm (by rw [zeros]; omega), joined]
  have printed : puts ((b.put (numeral 16 word.toNat).length (hexDigits word ++ [0])).pointer
      (numeral 16 word.toNat).length) 0 [] rounds = some (hexDigits word, _) :=
    puts_put _ (hexDigits_ne_nul word) (by rw [hexDigits_length]; omega)
      (by rw [hexDigits_length]; omega)
  exact congrArg (Option.bind · fun result => some result.1) printed

theorem convU_spec (enough : 33 ≤ rounds) (size : b.size = 36) :
    convU rounds word b = some (numeral 10 word.toNat) :=
  itoa_puts (by decide) (by decide) enough (by omega)

theorem signedNumeral_ne_nul (word : UInt32) : ∀ c ∈ signedNumeral word, c ≠ 0 := by
  intro c mem
  unfold signedNumeral at mem
  split at mem
  · rcases List.mem_cons.mp mem with rfl | digit
    · decide
    · exact numeral_ne_nul (by decide) (by decide) c digit
  · exact numeral_ne_nul (by decide) (by decide) c mem

theorem signedNumeral_length (word : UInt32) : (signedNumeral word).length ≤ 33 := by
  unfold signedNumeral
  split
  · exact Nat.succ_le_succ (numeral_short (by decide) _)
  · exact Nat.le_succ_of_le (numeral_short (by decide) _)

theorem signedBuffer_spec (enough : 33 ≤ rounds) (size : b.size = 36) :
    signedBuffer rounds word b = some (b.put 0 (signedNumeral word ++ [0])) := by
  unfold signedBuffer signedNumeral
  split
  · have joined := b.put_put 0 [45] (numeral 10 (-word).toNat ++ [0])
    rw [Buffer.store_eq (by omega), Option.bind_eq_bind, Option.bind_some,
      itoa_spec (by decide) (by decide) _ enough (by simp; omega)]
    exact congrArg some joined
  · exact itoa_spec (by decide) (by decide) _ enough (by omega)

theorem convD_spec (enough : 34 ≤ rounds) (size : b.size = 36) :
    convD rounds word b = some (signedNumeral word) := by
  have short := signedNumeral_length word
  rw [convD, signedBuffer_spec (by omega) size, Option.bind_eq_bind, Option.bind_some,
    puts_put 0 (signedNumeral_ne_nul word) (by omega) (by omega)]
  rfl

/-- Eight digits, and the value of the word. -/
theorem decode_hexDigits (word : UInt32) : decode 16 (hexDigits word) = some word.toNat :=
  (decode_zeros (by decide) _).trans (decode_numeral (by decide) (by decide) _)

/-- A `-` stands in front of the magnitude, that of the most negative number included. -/
theorem isSignedNumeral_signedNumeral (word : UInt32) :
    IsSignedNumeral 10 (signedNumeral word) (toInt32 word.toNat) := by
  have bound := word.toNat_lt
  by_cases negative : toInt32 word.toNat < 0
  · have written : signedNumeral word = 45 :: numeral 10 (-word).toNat := if_pos negative
    have magnitude : (-toInt32 word.toNat).toNat = (-word).toNat := by
      have size : UInt32.size = 2 ^ 32 := rfl
      simp only [toInt32] at negative ⊢
      rw [UInt32.toNat_neg, size]
      omega
    rw [written]
    constructor
    · rw [decodeSigned, decode_numeral (by decide) (by decide), Option.map_some, ← magnitude,
        Int.toNat_of_nonneg (by omega), Int.neg_neg]
    · exact fun nonneg => absurd negative (Int.not_lt.mpr nonneg)
    · intro _
      rw [magnitude]
      exact ⟨_, rfl, isNumeral_numeral (by decide) (by decide) _⟩
  · have written : signedNumeral word = numeral 10 word.toNat := if_neg negative
    have value : toInt32 word.toNat = word.toNat := by
      simp only [toInt32] at negative ⊢
      omega
    rw [written, value]
    constructor
    · exact decodeSigned_numeral (by decide) (by decide) _
    · exact fun _ => isNumeral_numeral (by decide) (by decide) _
    · exact fun negative => absurd negative (by omega)

end Conversions

end Loops

end LightOS.Library
