import LightOS.Library.Numbers

/-! # What a format means

The pieces of a format of `printf`, after the comment above it: characters that stand for
themselves, and conversions with or without `#`.  From the pieces and the arguments comes the
text to be printed.  Nothing here is taken from the code of `printf`.
-/

namespace LightOS.Library

open Lib

abbrev ascii (c : Char) : UInt8 := UInt8.ofNat c.toNat

inductive Item where
  | literal (c : UInt8)
  | conversion (alternate : Bool) (specifier : UInt8)
  /-- A conversion whose specifier is missing, because the format ends. -/
  | cutOff
  deriving Repr, DecidableEq

/-- The pieces of a format.  Within a conversion the first argument says whether there has
    been a `#`. -/
def items : Option Bool → List UInt8 → List Item
  | none, [] => []
  | some _, [] => [.cutOff]
  | none, c :: rest =>
      if c = ascii '%' then items (some false) rest else .literal c :: items none rest
  | some alternate, c :: rest =>
      if c = ascii '#' then items (some true) rest
      else .conversion alternate c :: items none rest

/-- No conversion is cut off by the end of the format. -/
def Complete (format : List UInt8) : Prop := Item.cutOff ∉ items none format

instance (format : List UInt8) : Decidable (Complete format) := inferInstanceAs (Decidable (¬ _))

/-- Whether a conversion is for an argument. -/
def takes (specifier : UInt8) : Bool :=
  specifier ∈ [ascii 'x', ascii 'u', ascii 'd', ascii 'c', ascii 's']

/-- The specifiers that the arguments are for, in order. -/
def takers : List Item → List UInt8
  | [] => []
  | .conversion _ specifier :: rest =>
      if takes specifier then specifier :: takers rest else takers rest
  | _ :: rest => takers rest

section Rendering

-- the argument words, and the texts that those for `%s` point to
variable (words : Nat → UInt32) (strings : Nat → List UInt8)

/-- The text of a conversion for which argument `k` is the next one. -/
def conversionText (k : Nat) (alternate : Bool) (specifier : UInt8) : List UInt8 :=
  if specifier = ascii '%' then [ascii '%']
  else if specifier = ascii 'x' then
    if alternate then hexDigits (words k) else numeral 16 (words k).toNat
  else if specifier = ascii 'u' then numeral 10 (words k).toNat
  else if specifier = ascii 'd' then signedNumeral (words k)
  else if specifier = ascii 'c' then [(words k).toUInt8]
  else if specifier = ascii 's' then strings k
  else []

/-- The text of the pieces, from argument `k` on. -/
def rendering : Nat → List Item → List UInt8
  | _, [] => []
  | k, .literal c :: rest => c :: rendering k rest
  | k, .conversion alternate specifier :: rest =>
      conversionText words strings k alternate specifier ++
        rendering (if takes specifier then k + 1 else k) rest
  | k, .cutOff :: rest => rendering k rest

end Rendering

section Items

variable {mode : Option Bool} {format rest : List UInt8} {c : UInt8} {alternate : Bool}

@[simp] theorem items_percent : items none (ascii '%' :: rest) = items (some false) rest := rfl

@[simp] theorem items_sharp :
    items (some alternate) (ascii '#' :: rest) = items (some true) rest := rfl

theorem items_literal (other : c ≠ ascii '%') :
    items none (c :: rest) = .literal c :: items none rest :=
  if_neg other

theorem items_specifier (other : c ≠ ascii '#') :
    items (some alternate) (c :: rest) = .conversion alternate c :: items none rest :=
  if_neg other

@[simp] theorem cutOff_mem_literal {l : List Item} :
    Item.cutOff ∈ Item.literal c :: l ↔ Item.cutOff ∈ l := by
  simp

@[simp] theorem cutOff_mem_conversion {l : List Item} :
    Item.cutOff ∈ Item.conversion alternate c :: l ↔ Item.cutOff ∈ l := by
  simp

theorem items_append (complete : Item.cutOff ∉ items mode format) :
    items mode (format ++ rest) = items mode format ++ items none rest := by
  induction format generalizing mode with
  | nil =>
      cases mode with
      | none => rfl
      | some alternate => exact absurd List.mem_cons_self complete
  | cons c format ih =>
      rw [List.cons_append]
      cases mode with
      | none =>
          by_cases percent : c = ascii '%'
          · subst percent
            exact ih complete
          · rw [items_literal percent, cutOff_mem_literal] at complete
            rw [items_literal percent, items_literal percent, List.cons_append, ih complete]
      | some alternate =>
          by_cases sharp : c = ascii '#'
          · subst sharp
            exact ih complete
          · rw [items_specifier sharp, cutOff_mem_conversion] at complete
            rw [items_specifier sharp, items_specifier sharp, List.cons_append, ih complete]

theorem items_sharps (m : Nat) :
    items (some alternate) (List.replicate m (ascii '#')) = [.cutOff] := by
  induction m generalizing alternate with
  | zero => rfl
  | succ m ih => exact ih

/-- Where a format is cut off: behind a complete part, or within the conversion that it
    starts in. -/
theorem cut_off (cut : Item.cutOff ∈ items mode format) :
    (∃ first m, Item.cutOff ∉ items mode first ∧
      format = first ++ ascii '%' :: List.replicate m (ascii '#')) ∨
    mode ≠ none ∧ ∃ m, format = List.replicate m (ascii '#') := by
  induction format generalizing mode with
  | nil =>
      cases mode with
      | none => exact absurd cut List.not_mem_nil
      | some alternate => exact .inr ⟨Option.some_ne_none _, 0, rfl⟩
  | cons c format ih =>
      cases mode with
      | none =>
          by_cases percent : c = ascii '%'
          · subst percent
            rcases ih cut with ⟨first, m, whole, rfl⟩ | ⟨_, m, rfl⟩
            · exact .inl ⟨ascii '%' :: first, m, whole, rfl⟩
            · exact .inl ⟨[], m, List.not_mem_nil, rfl⟩
          · rw [items_literal percent, cutOff_mem_literal] at cut
            rcases ih cut with ⟨first, m, whole, rfl⟩ | ⟨inside, _⟩
            · refine .inl ⟨c :: first, m, ?_, rfl⟩
              rwa [items_literal percent, cutOff_mem_literal]
            · exact absurd rfl inside
      | some alternate =>
          by_cases sharp : c = ascii '#'
          · subst sharp
            rcases ih cut with ⟨first, m, whole, rfl⟩ | ⟨_, m, rfl⟩
            · exact .inl ⟨ascii '#' :: first, m, whole, rfl⟩
            · exact .inr ⟨Option.some_ne_none _, m + 1, rfl⟩
          · rw [items_specifier sharp, cutOff_mem_conversion] at cut
            rcases ih cut with ⟨first, m, whole, rfl⟩ | ⟨inside, _⟩
            · refine .inl ⟨c :: first, m, ?_, rfl⟩
              rwa [items_specifier sharp, cutOff_mem_conversion]
            · exact absurd rfl inside

/-- A format is cut off where it ends in a `%`, with any number of `#` behind it, that begins a
    conversion. -/
theorem not_complete_iff : ¬ Complete format ↔
    ∃ first m, Complete first ∧
      format = first ++ ascii '%' :: List.replicate m (ascii '#') := by
  constructor
  · intro cut
    rcases cut_off (Decidable.not_not.mp cut) with behind | ⟨inside, _⟩
    · exact behind
    · exact absurd rfl inside
  · rintro ⟨first, m, complete, rfl⟩ whole
    apply whole
    rw [items_append complete, items_percent, items_sharps]
    exact List.mem_append_right _ List.mem_cons_self

theorem items_plain (plain : ascii '%' ∉ format) : items none format = format.map .literal := by
  induction format with
  | nil => rfl
  | cons c format ih =>
      rw [List.mem_cons, not_or] at plain
      rw [items_literal (Ne.symm plain.1), ih plain.2, List.map_cons]

/-- A text without `%` is complete, needs no arguments and is printed as it is. -/
theorem plain_format (words : Nat → UInt32) (strings : Nat → List UInt8)
    (plain : ascii '%' ∉ format) : Complete format ∧ takers (items none format) = [] ∧
      rendering words strings 0 (items none format) = format := by
  rw [Complete, items_plain plain]
  refine ⟨by simp, ?_, ?_⟩
  · induction format with
    | nil => rfl
    | cons c format ih => exact ih fun mem => plain (List.mem_cons_of_mem _ mem)
  · induction format with
    | nil => rfl
    | cons c format ih =>
        exact congrArg (c :: ·) (ih fun mem => plain (List.mem_cons_of_mem _ mem))

end Items

end LightOS.Library
