import Torlane.Text

/-!
# Hexadecimal text

The bytes that a text of hexadecimal digits stands for, two digits for each byte and in either
letter case (`SpellsBytes`). What the formatters print spells the bytes that they are given, and a
text spells one list of bytes at most.
-/

namespace Text

/-- The value of a hexadecimal digit, in either letter case. -/
def hexValue (c : Char) : Option ℕ :=
  if 48 ≤ c.toNat ∧ c.toNat ≤ 57 then some (c.toNat - 48)
  else if 97 ≤ c.toNat ∧ c.toNat ≤ 102 then some (c.toNat - 87)
  else if 65 ≤ c.toNat ∧ c.toNat ≤ 70 then some (c.toNat - 55)
  else none

/-- A character is a hexadecimal digit, in either letter case. -/
def isHexDigit (c : Char) : Bool := (hexValue c).isSome

/-- The text consists of two digits for each byte, the high one first. -/
inductive SpellsBytes : Text → List UInt8 → Prop
  | nil : SpellsBytes [] []
  | cons {high low : Char} {h l : ℕ} {text : Text} {bytes : List UInt8}
      (hhigh : hexValue high = some h) (hlow : hexValue low = some l)
      (hrest : SpellsBytes text bytes) :
      SpellsBytes (high :: low :: text) (UInt8.ofNat (16 * h + l) :: bytes)

variable {c : Char} {n : ℕ} {text : Text} {bytes bytes' : List UInt8}

/-- The value of a digit is below sixteen. -/
theorem hexValue_lt (h : hexValue c = some n) : n < 16 := by
  unfold hexValue at h
  split_ifs at h <;> obtain rfl := Option.some.inj h <;> omega

/-- A hexadecimal digit is an ASCII character. -/
theorem toNat_lt_of_isHexDigit (h : isHexDigit c = true) : c.toNat < 128 := by
  unfold isHexDigit hexValue at h
  split_ifs at h
  · omega
  · omega
  · omega
  · cases h

/-- A hexadecimal digit is not whitespace. -/
theorem isWhitespace_of_isHexDigit (h : isHexDigit c = true) : isWhitespace c = false := by
  unfold isHexDigit hexValue at h
  simp only [isWhitespace, decide_eq_false_iff_not]
  split_ifs at h
  · omega
  · omega
  · omega
  · cases h

/-- A text spells one list of bytes at most. -/
theorem SpellsBytes.unique (h : SpellsBytes text bytes) (h' : SpellsBytes text bytes') :
    bytes = bytes' := by
  induction h generalizing bytes' with
  | nil =>
    cases h'
    rfl
  | cons hhigh hlow hrest ih =>
    cases h' with
    | cons hhigh' hlow' hrest' =>
      obtain rfl := Option.some.inj (hhigh.symm.trans hhigh')
      obtain rfl := Option.some.inj (hlow.symm.trans hlow')
      rw [ih hrest']

/-- A text that spells bytes has two characters for each of them. -/
theorem SpellsBytes.length_eq (h : SpellsBytes text bytes) : text.length = 2 * bytes.length := by
  induction h with
  | nil => rfl
  | cons _ _ _ ih =>
    simp only [List.length_cons, ih]
    omega

/-- A text that spells bytes consists of digits. -/
theorem SpellsBytes.isHexDigit (h : SpellsBytes text bytes) :
    ∀ c ∈ text, isHexDigit c = true := by
  induction h with
  | nil => simp
  | cons hhigh hlow _ ih =>
    refine List.forall_mem_cons.mpr ⟨?_, List.forall_mem_cons.mpr ⟨?_, ih⟩⟩
    · unfold Text.isHexDigit
      rw [hhigh]
      rfl
    · unfold Text.isHexDigit
      rw [hlow]
      rfl

/-- Digits of an even number spell bytes. -/
theorem exists_spellsBytes {text : Text} (heven : text.length % 2 = 0)
    (hdigits : ∀ c ∈ text, isHexDigit c = true) : ∃ bytes, SpellsBytes text bytes := by
  match text with
  | [] => exact ⟨[], .nil⟩
  | [c] => cases heven
  | high :: low :: text =>
    obtain ⟨hhigh, hdigits⟩ := List.forall_mem_cons.mp hdigits
    obtain ⟨hlow, hdigits⟩ := List.forall_mem_cons.mp hdigits
    obtain ⟨h, hh⟩ := Option.isSome_iff_exists.mp hhigh
    obtain ⟨l, hl⟩ := Option.isSome_iff_exists.mp hlow
    have hrest : text.length % 2 = 0 := by
      simp only [List.length_cons] at heven
      omega
    obtain ⟨bytes, hbytes⟩ := exists_spellsBytes hrest hdigits
    exact ⟨_, .cons hh hl hbytes⟩

/-- The texts that spell bytes are those of an even number of digits. -/
theorem exists_spellsBytes_iff {text : Text} : (∃ bytes, SpellsBytes text bytes) ↔
    text.length % 2 = 0 ∧ ∀ c ∈ text, isHexDigit c = true := by
  constructor
  · rintro ⟨bytes, h⟩
    exact ⟨by rw [h.length_eq, Nat.mul_mod_right], h.isHexDigit⟩
  · rintro ⟨heven, hdigits⟩
    exact exists_spellsBytes heven hdigits

/-- A table of the sixteen digits, in one letter case or in the other. -/
def IsHexTable (digits : Text) : Prop := ∀ n < 16, hexValue (digits.getD n '0') = some n

/-- The lower-case digits. -/
theorem isHexTable_lower : IsHexTable "0123456789abcdef".toList := by
  unfold IsHexTable
  decide

/-- The upper-case digits. -/
theorem isHexTable_upper : IsHexTable "0123456789ABCDEF".toList := by
  unfold IsHexTable
  decide

/-- What is printed for bytes spells them. -/
theorem IsHexTable.spells {digits : Text} (h : IsHexTable digits) (bytes : List UInt8) :
    SpellsBytes (hexEncodeWith digits bytes) bytes := by
  induction bytes with
  | nil => exact .nil
  | cons byte bytes ih =>
    have hlt : byte.toNat < 256 := byte.toNat_lt
    have hbyte : UInt8.ofNat (16 * (byte.toNat / 16) + byte.toNat % 16) = byte := by
      rw [Nat.div_add_mod, UInt8.ofNat_toNat]
    have hspells := SpellsBytes.cons (h (byte.toNat / 16) (by omega))
      (h (byte.toNat % 16) (Nat.mod_lt _ (by decide))) ih
    rw [hbyte] at hspells
    exact hspells

/-- Different bytes are printed differently. -/
theorem IsHexTable.injective {digits : Text} (h : IsHexTable digits)
    (heq : hexEncodeWith digits bytes = hexEncodeWith digits bytes') : bytes = bytes' :=
  (heq ▸ h.spells bytes).unique (h.spells bytes')

end Text
