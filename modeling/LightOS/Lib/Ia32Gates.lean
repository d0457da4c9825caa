import LightOS.Lib.Ia32
import Mathlib.Tactic.Common

/-! # IA-32 gates and saved registers

Entry to the kernel through a trap gate, `iret`, and the pair `pushal` and `popal`.  Memory is
read at the addresses of whole words.  What an entry pushes is a frame, and a frame whose words
are still in place is all that `iret` needs.
-/

namespace LightOS.Lib.Ia32

/-- What code that is interrupted expects to find again. -/
structure Context where
  reg : Reg → Word
  esp : Nat
  eflags : Word
  cs : Word
  ss : Word
  eip : Word

structure Core extends Context where
  mem : Nat → Word

/-- The privilege level in the selector of the code segment is 3. -/
def Context.user (c : Context) : Bool := c.cs.toNat % 4 == 3

/-- TF, NT, RF and VM, which an entry clears. -/
def CLEARED_FLAGS : Word := 0x34100

/-- The words that an entry pushes: the old stack as well, if the privilege level changes. -/
def Context.frameWords (c : Context) : List Word :=
  if c.user then [c.ss, BitVec.ofNat 32 c.esp, c.eflags, c.cs, c.eip] else [c.eflags, c.cs, c.eip]

/-- Where an entry starts to push, with `esp0` from the task segment. -/
def Context.frameTop (esp0 : Nat) (c : Context) : Nat := if c.user then esp0 else c.esp

/-- Where an entry leaves the stack pointer. -/
def Context.frameBase (esp0 : Nat) (c : Context) : Nat := c.frameTop esp0 - 4 * c.frameWords.length

/-- The registers in the order in which `pushal` saves them; ESP comes before EBP. -/
def Context.generalWords (c : Context) : List Word :=
  [c.reg .eax, c.reg .ecx, c.reg .edx, c.reg .ebx, BitVec.ofNat 32 c.esp, c.reg .ebp, c.reg .esi,
    c.reg .edi]

/-- How far below the stack pointer that it finds `pushal` saves a register. -/
def Reg.slot : Reg → Nat
  | .eax => 4 | .ecx => 8 | .edx => 12 | .ebx => 16 | .ebp => 24 | .esi => 28 | .edi => 32

namespace Core

def push (c : Core) (w : Word) : Core :=
  { c with esp := c.esp - 4, mem := Function.update c.mem (c.esp - 4) w }

def pushAll (c : Core) (ws : List Word) : Core := ws.foldl push c

/-- Discard the top word. -/
def drop (c : Core) : Core := { c with esp := c.esp + 4 }

/-- The `k`-th word of the stack, counted from the top. -/
def top (c : Core) (k : Nat) : Word := c.mem (c.esp + 4 * k)

/-- Entry at level 0 through a trap gate, with `esp0` and `ss0` from the task segment. -/
def enterGate (esp0 : Nat) (ss0 selector entry : Word) (c : Core) : Core :=
  { (pushAll { c with esp := c.frameTop esp0 } c.frameWords) with
    eflags := c.eflags &&& ~~~ CLEARED_FLAGS
    cs := selector
    ss := if c.user then ss0 else c.ss
    eip := entry }

def iret (c : Core) : Core :=
  let inner := { c with eip := c.top 0, cs := c.top 1, eflags := c.top 2, esp := c.esp + 12 }
  if inner.user && !c.user then { inner with esp := (c.top 3).toNat, ss := c.top 4 } else inner

def pushal (c : Core) : Core := c.pushAll c.generalWords

/-- The word of ESP is skipped. -/
def popal (c : Core) : Core :=
  { c with reg := fun r => c.mem (c.esp + 32 - r.slot), esp := c.esp + 32 }

end Core

/-- The words that an entry out of `saved` pushed are in place from `base` on. -/
structure Framed (saved : Context) (base : Nat) (mem : Nat → Word) : Prop where
  eip : mem base = saved.eip
  cs : mem (base + 4) = saved.cs
  eflags : mem (base + 8) = saved.eflags
  outer : saved.user → mem (base + 12) = BitVec.ofNat 32 saved.esp ∧ mem (base + 16) = saved.ss

/-- The words that `pushal` pushed are in place below `base`. -/
def SavedBelow (base : Nat) (reg : Reg → Word) (mem : Nat → Word) : Prop :=
  ∀ r : Reg, mem (base - r.slot) = reg r

section Frames

variable {c : Core} {saved : Context} {base esp0 : Nat} {mem mem' : Nat → Word}

@[simp] theorem Core.pushAll_esp (c : Core) (ws : List Word) :
    (c.pushAll ws).esp = c.esp - 4 * ws.length := by
  induction ws generalizing c with
  | nil => rfl
  | cons w ws ih =>
      rw [pushAll, List.foldl_cons, ← pushAll, ih, List.length_cons]
      simp only [push]
      omega

/-- Apart from the stack pointer and the memory, pushing changes nothing. -/
theorem Core.pushAll_eq (c : Core) (ws : List Word) :
    c.pushAll ws = { c with esp := c.esp - 4 * ws.length, mem := (c.pushAll ws).mem } := by
  induction ws generalizing c with
  | nil => rfl
  | cons w ws ih =>
      have rest := ih (c.push w)
      rw [pushAll, List.foldl_cons, ← pushAll, rest, List.length_cons]
      simp only [push, Core.mk.injEq, Context.mk.injEq, and_true, true_and]
      omega

/-- Pushing touches the words below the stack pointer that it fills, and no others. -/
theorem Core.pushAll_mem {ws : List Word} (room : 4 * ws.length ≤ c.esp) {p : Nat}
    (other : p < c.esp - 4 * ws.length ∨ c.esp ≤ p) : (c.pushAll ws).mem p = c.mem p := by
  induction ws generalizing c with
  | nil => rfl
  | cons w ws ih =>
      rw [List.length_cons] at room other
      have roomAfter : 4 * ws.length ≤ (c.push w).esp := by
        simp only [push]
        omega
      have apart : p ≠ c.esp - 4 := by omega
      rw [pushAll, List.foldl_cons, ← pushAll, ih roomAfter (by simp only [push]; omega)]
      exact Function.update_of_ne apart _ _

/-- The words lie below the stack pointer, the first one on top. -/
theorem Core.pushAll_word {ws : List Word} (room : 4 * ws.length ≤ c.esp) {i : Nat} {w : Word}
    (pushed : ws[i]? = some w) : (c.pushAll ws).mem (c.esp - 4 * (i + 1)) = w := by
  induction ws generalizing c i with
  | nil => exact absurd pushed (by simp)
  | cons first ws ih =>
      rw [List.length_cons] at room
      have roomAfter : 4 * ws.length ≤ (c.push first).esp := by
        simp only [push]
        omega
      rw [pushAll, List.foldl_cons, ← pushAll]
      cases i with
      | zero =>
          rw [pushAll_mem roomAfter (by simp only [push]; omega)]
          rw [List.getElem?_cons_zero, Option.some.injEq] at pushed
          simp only [push, pushed, Nat.zero_add, Nat.mul_one, Function.update_self]
      | succ i =>
          rw [← ih roomAfter (by simpa using pushed)]
          congr 1
          simp only [push]
          omega

theorem Core.push_mem (w : Word) {p : Nat} (other : p ≠ c.esp - 4) : (c.push w).mem p = c.mem p :=
  Function.update_of_ne other _ _

theorem Context.frameWords_length (c : Context) :
    c.frameWords.length = if c.user then 5 else 3 := by
  cases level : c.user <;> simp [frameWords, level]

theorem Core.enterGate_mem {ss0 selector entry : Word}
    (room : 4 * c.frameWords.length ≤ c.frameTop esp0) {p : Nat}
    (other : p < c.frameBase esp0 ∨ c.frameTop esp0 ≤ p) :
    (c.enterGate esp0 ss0 selector entry).mem p = c.mem p :=
  pushAll_mem (c := { c with esp := c.frameTop esp0 }) room other

theorem Core.enterGate_esp (c : Core) (esp0 : Nat) (ss0 selector entry : Word) :
    (c.enterGate esp0 ss0 selector entry).esp = c.frameBase esp0 :=
  pushAll_esp { c with esp := c.frameTop esp0 } c.frameWords

theorem Core.enterGate_reg (c : Core) (esp0 : Nat) (ss0 selector entry : Word) :
    (c.enterGate esp0 ss0 selector entry).reg = c.reg := by
  rw [enterGate, pushAll_eq]

theorem Core.enterGate_framed {ss0 selector entry : Word}
    (room : 4 * c.frameWords.length ≤ c.frameTop esp0) :
    Framed c.toContext (c.frameBase esp0) (c.enterGate esp0 ss0 selector entry).mem := by
  have word : ∀ i w, c.frameWords[i]? = some w →
      (c.enterGate esp0 ss0 selector entry).mem (c.frameTop esp0 - 4 * (i + 1)) = w :=
    fun i w pushed => pushAll_word (c := { c with esp := c.frameTop esp0 }) room pushed
  have length := c.frameWords_length
  cases level : c.user with
  | false =>
      have words : c.frameWords = [c.eflags, c.cs, c.eip] := by simp [Context.frameWords, level]
      simp only [words, Context.frameBase, List.length_cons, List.length_nil] at word room ⊢
      constructor
      · exact word 2 _ rfl
      · rw [← word 1 _ rfl]
        congr 1
        omega
      · rw [← word 0 _ rfl]
        congr 1
        omega
      · intro user
        exact absurd user (by simp [level])
  | true =>
      have words : c.frameWords = [c.ss, BitVec.ofNat 32 c.esp, c.eflags, c.cs, c.eip] := by
        simp [Context.frameWords, level]
      simp only [words, Context.frameBase, List.length_cons, List.length_nil] at word room ⊢
      constructor
      · exact word 4 _ rfl
      · rw [← word 3 _ rfl]
        congr 1
        omega
      · rw [← word 2 _ rfl]
        congr 1
        omega
      · intro _
        constructor
        · rw [← word 1 _ rfl]
          congr 1
          omega
        · rw [← word 0 _ rfl]
          congr 1
          omega

/-- A frame and the saved registers are where they were if their words are. -/
theorem Framed.of_same (framed : Framed saved base mem)
    (same : ∀ p, base ≤ p → p < base + 4 * saved.frameWords.length → mem' p = mem p) :
    Framed saved base mem' := by
  have length := saved.frameWords_length
  cases level : saved.user with
  | false =>
      rw [level, if_neg Bool.false_ne_true] at length
      rw [length] at same
      constructor
      · rw [same _ (by omega) (by omega), framed.eip]
      · rw [same _ (by omega) (by omega), framed.cs]
      · rw [same _ (by omega) (by omega), framed.eflags]
      · intro user
        exact absurd user (by simp [level])
  | true =>
      rw [level, if_pos rfl] at length
      rw [length] at same
      constructor
      · rw [same _ (by omega) (by omega), framed.eip]
      · rw [same _ (by omega) (by omega), framed.cs]
      · rw [same _ (by omega) (by omega), framed.eflags]
      · intro user
        rw [same _ (by omega) (by omega), same _ (by omega) (by omega)]
        exact framed.outer user

theorem Reg.slot_pos (r : Reg) : 4 ≤ r.slot ∧ r.slot ≤ 32 := by
  cases r <;> decide

theorem SavedBelow.of_same {reg : Reg → Word} (below : SavedBelow base reg mem)
    (same : ∀ p, base - 32 ≤ p → p < base → mem' p = mem p) (room : 32 ≤ base) :
    SavedBelow base reg mem' := by
  intro r
  have slot := r.slot_pos
  rw [same _ (by omega) (by omega)]
  exact below r

theorem Core.pushal_saved (room : 32 ≤ c.esp) : SavedBelow c.esp c.reg c.pushal.mem := by
  have roomForAll : 4 * c.generalWords.length ≤ c.esp := room
  have word : ∀ i w, c.generalWords[i]? = some w → c.pushal.mem (c.esp - 4 * (i + 1)) = w :=
    fun i w pushed => pushAll_word roomForAll pushed
  intro r
  cases r with
  | eax => exact word 0 _ rfl
  | ecx => exact word 1 _ rfl
  | edx => exact word 2 _ rfl
  | ebx => exact word 3 _ rfl
  | ebp => exact word 5 _ rfl
  | esi => exact word 6 _ rfl
  | edi => exact word 7 _ rfl

theorem Core.pushal_eq (c : Core) : c.pushal = { c with esp := c.esp - 32, mem := c.pushal.mem } :=
  c.pushAll_eq c.generalWords

theorem Core.pushal_mem (room : 32 ≤ c.esp) {p : Nat} (other : p < c.esp - 32 ∨ c.esp ≤ p) :
    c.pushal.mem p = c.mem p := by
  have roomForAll : 4 * c.generalWords.length ≤ c.esp := room
  exact pushAll_mem roomForAll other

/-- `popal` finds what `pushal` saved. -/
theorem Core.popal_reg {reg : Reg → Word} (below : SavedBelow (c.esp + 32) reg c.mem) :
    c.popal.reg = reg :=
  funext below

/-- `iret` on a frame goes back to the context that it was pushed for. -/
theorem Core.iret_framed (framed : Framed saved c.esp c.mem) (kernel : c.user = false)
    (small : saved.esp < 2 ^ 32) (reg : c.reg = saved.reg)
    (stack : saved.user = false → c.esp + 12 = saved.esp ∧ c.ss = saved.ss) :
    c.iret.toContext = saved := by
  have eip : c.top 0 = saved.eip := framed.eip
  have cs : c.top 1 = saved.cs := framed.cs
  have eflags : c.top 2 = saved.eflags := framed.eflags
  simp only [iret, eip, cs, eflags, kernel]
  cases level : saved.user with
  | false =>
      obtain ⟨esp, ss⟩ := stack level
      have inner : saved.cs.toNat % 4 ≠ 3 := by simpa [Context.user] using level
      simp [Context.user, inner, esp, ss, reg]
  | true =>
      obtain ⟨espWord, ssWord⟩ := framed.outer level
      have esp : c.top 3 = BitVec.ofNat 32 saved.esp := espWord
      have ss : c.top 4 = saved.ss := ssWord
      have inner : saved.cs.toNat % 4 = 3 := by simpa [Context.user] using level
      have fits : saved.esp % 4294967296 = saved.esp := Nat.mod_eq_of_lt small
      simp [Context.user, inner, esp, ss, reg, fits]

theorem Core.iret_mem (c : Core) : c.iret.mem = c.mem := by
  simp only [iret]
  split <;> rfl

end Frames

end LightOS.Lib.Ia32
