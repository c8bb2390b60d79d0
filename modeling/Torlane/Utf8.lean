import Mathlib.Tactic.SplitIfs
import Torlane.Text

/-!
# UTF-8

A text has an encoding, and it is the only text with that encoding. A byte below 128 in an
encoding is the whole encoding of one character, so that a byte stream may be cut at such a byte
before it is decoded. Texts are sliced at byte offsets, as the standard library slices them; an
offset that is not on the boundary of a character makes the slice panic, here `none`.
-/

namespace Text

/-- The UTF-8 encoding of a text. -/
def encodeUtf8 (text : Text) : List UInt8 := text.flatMap String.utf8EncodeChar

/-- The text with an encoding, if there is one. -/
def decodeUtf8 (bytes : List UInt8) : Option Text := bytes.toByteArray.utf8Decode?.map Array.toList

/-- A text is split at a byte offset, if the offset is on the boundary of a character. -/
def splitAtByte : ℕ → Text → Option (Text × Text)
  | 0, cs => some ([], cs)
  | _ + 1, [] => none
  | n + 1, c :: cs =>
    if c.utf8Size ≤ n + 1 then
      (splitAtByte (n + 1 - c.utf8Size) cs).map fun (pre, post) => (c :: pre, post)
    else none

/-- `str::is_char_boundary`. -/
def isCharBoundary (text : Text) (n : ℕ) : Bool := (splitAtByte n text).isSome

/-- `&text[..n]`. -/
def sliceTo (text : Text) (n : ℕ) : Option Text := (splitAtByte n text).map (·.1)

/-- `&text[n..]`. -/
def sliceFrom (text : Text) (n : ℕ) : Option Text := (splitAtByte n text).map (·.2)

@[simp] theorem encodeUtf8_nil : encodeUtf8 [] = [] := rfl

@[simp] theorem encodeUtf8_cons (c : Char) (cs : Text) :
    encodeUtf8 (c :: cs) = String.utf8EncodeChar c ++ encodeUtf8 cs := rfl

@[simp] theorem encodeUtf8_append (s t : Text) :
    encodeUtf8 (s ++ t) = encodeUtf8 s ++ encodeUtf8 t :=
  List.flatMap_append

/-- Decoding undoes encoding. -/
@[simp] theorem decodeUtf8_encodeUtf8 (text : Text) : decodeUtf8 (encodeUtf8 text) = some text := by
  have h : (encodeUtf8 text).toByteArray.utf8Decode? = some text.toArray :=
    List.utf8Decode?_utf8Encode
  rw [decodeUtf8, h, Option.map_some]

/-- Different texts have different encodings. -/
theorem encodeUtf8_inj {s t : Text} (h : encodeUtf8 s = encodeUtf8 t) : s = t := by
  have hdecode := decodeUtf8_encodeUtf8 s
  rw [h, decodeUtf8_encodeUtf8] at hdecode
  exact (Option.some.inj hdecode).symm

/-- Encoding undoes decoding. -/
theorem encodeUtf8_of_decodeUtf8 {bytes : List UInt8} {text : Text}
    (h : decodeUtf8 bytes = some text) :
    encodeUtf8 text = bytes := by
  obtain ⟨chars, hchars, rfl⟩ := Option.map_eq_some_iff.mp h
  have hsome : bytes.toByteArray.utf8Decode?.isSome := by rw [hchars]; rfl
  have hencode := ByteArray.utf8Encode_get_utf8Decode? (h := hsome)
  simp only [hchars, Option.get_some] at hencode
  exact List.toByteArray_inj.mp hencode

/-- A character with a code below 128 is encoded as one byte. -/
theorem utf8EncodeChar_ascii {c : Char} (h : c.toNat < 128) :
    String.utf8EncodeChar c = [UInt8.ofNat c.toNat] := by
  have hle : c.val.toNat ≤ 0x7f := Nat.le_of_lt_succ h
  unfold String.utf8EncodeChar
  exact if_pos hle

/-- A text of such characters has as many bytes as characters. -/
theorem length_encodeUtf8_ascii {text : Text} (h : ∀ c ∈ text, c.toNat < 128) :
    (encodeUtf8 text).length = text.length := by
  induction text with
  | nil => rfl
  | cons c cs ih =>
    rw [encodeUtf8_cons, utf8EncodeChar_ascii (h c List.mem_cons_self), List.length_append,
      ih fun d hd => h d (List.mem_cons_of_mem c hd)]
    exact Nat.add_comm 1 cs.length

/-- A byte below 128 in the encoding of a character is the whole encoding. -/
theorem toNat_of_mem_utf8EncodeChar {c : Char} {byte : UInt8}
    (hmem : byte ∈ String.utf8EncodeChar c)
    (hbyte : byte.toNat < 128) : c.toNat = byte.toNat := by
  simp only [String.utf8EncodeChar] at hmem
  split_ifs at hmem with h₁ h₂ h₃
  · obtain rfl := List.mem_singleton.mp hmem
    exact (Nat.mod_eq_of_lt (Nat.lt_of_le_of_lt h₁ (by decide))).symm
  -- The bytes of a longer encoding are at least 128.
  · simp only [List.mem_cons, List.not_mem_nil, or_false] at hmem
    rcases hmem with rfl | rfl <;> simp at hbyte <;> omega
  · simp only [List.mem_cons, List.not_mem_nil, or_false] at hmem
    rcases hmem with rfl | rfl | rfl <;> simp at hbyte <;> omega
  · simp only [List.mem_cons, List.not_mem_nil, or_false] at hmem
    rcases hmem with rfl | rfl | rfl | rfl <;> simp at hbyte <;> omega

/-- The first byte of a character's encoding, taken as a character, is a certain ASCII character
only where the character is. -/
theorem ofNat_head_eq_iff {c d : Char} {byte : UInt8} {bytes : List UInt8}
    (h : String.utf8EncodeChar c = byte :: bytes) (hd : d.toNat < 128) :
    Char.ofNat byte.toNat = d ↔ c = d := by
  have hbyte : (Char.ofNat byte.toNat).toNat = byte.toNat := by
    have hvalid : byte.toNat.isValidChar := Or.inl (Nat.lt_trans byte.toNat_lt (by decide))
    rw [Char.ofNat, dif_pos hvalid]
    rfl
  constructor
  · rintro rfl
    refine Char.toNat_inj.mp ?_
    rw [hbyte] at hd ⊢
    exact toNat_of_mem_utf8EncodeChar (by rw [h]; exact List.mem_cons_self) hd
  · rintro rfl
    rw [utf8EncodeChar_ascii hd] at h
    obtain ⟨rfl, -⟩ := List.cons.inj h
    rw [UInt8.toNat_ofNat', Nat.mod_eq_of_lt (by omega), Char.ofNat_toNat]

/-- A byte below 128 is in an encoding where its character is in the text. -/
theorem mem_encodeUtf8_iff {text : Text} {c : Char} (h : c.toNat < 128) :
    UInt8.ofNat c.toNat ∈ encodeUtf8 text ↔ c ∈ text := by
  have hbyte : (UInt8.ofNat c.toNat).toNat = c.toNat := Nat.mod_eq_of_lt (by omega)
  constructor
  -- A byte of an encoding belongs to one character.
  · intro hmem
    obtain ⟨d, hd, hmem⟩ := List.mem_flatMap.mp hmem
    have heq : d.toNat = c.toNat := (toNat_of_mem_utf8EncodeChar hmem (by omega)).trans hbyte
    rwa [← Char.toNat_inj.mp heq]
  · intro hmem
    refine List.mem_flatMap.mpr ⟨c, hmem, ?_⟩
    rw [utf8EncodeChar_ascii h]
    exact List.mem_singleton_self _

/-- An encoding is not a part of another one in the middle of a character: where the bytes of a text
come first in an encoding, the text comes first in the encoded one. -/
theorem prefix_of_encodeUtf8_prefix {s t : Text} (h : encodeUtf8 s <+: encodeUtf8 t) : s <+: t := by
  induction s generalizing t with
  | nil => exact List.nil_prefix
  | cons c s ih =>
    cases t with
    | nil =>
      have hnil : encodeUtf8 (c :: s) = [] := List.prefix_nil.mp h
      simp at hnil
    | cons d t =>
      obtain ⟨rest, hrest⟩ := h
      rw [encodeUtf8_cons, encodeUtf8_cons, List.append_assoc] at hrest
      -- The first character is determined by the bytes.
      have hfirst : ∀ (c : Char) (bytes : List UInt8),
          (String.utf8EncodeChar c ++ bytes).toByteArray.utf8DecodeChar? 0 = some c := by
        intro c bytes
        rw [List.toByteArray_append]
        exact ByteArray.utf8DecodeChar?_utf8EncodeChar_append
      obtain rfl : c = d := by
        have hc := hfirst c (encodeUtf8 s ++ rest)
        rw [hrest, hfirst d] at hc
        exact (Option.some.inj hc).symm
      have htail : encodeUtf8 s <+: encodeUtf8 t := ⟨rest, List.append_cancel_left hrest⟩
      exact List.prefix_cons_inj c |>.mpr (ih htail)

/-- A text that is split off has fewer bytes, unless it is the whole text. -/
theorem length_encodeUtf8_lt {s t : Text} (h : s <+: t) (hne : s ≠ t) :
    (encodeUtf8 s).length < (encodeUtf8 t).length := by
  obtain ⟨rest, rfl⟩ := h
  cases rest with
  | nil => simp at hne
  | cons c rest =>
    have hpos := c.utf8Size_pos
    simp only [encodeUtf8_append, encodeUtf8_cons, List.length_append, String.length_utf8EncodeChar]
    omega

/-- A text is split at a byte offset where its first part has that many bytes. -/
theorem splitAtByte_eq_some_iff {n : ℕ} {text pre post : Text} :
    splitAtByte n text = some (pre, post) ↔ text = pre ++ post ∧ (encodeUtf8 pre).length = n := by
  induction text generalizing n pre with
  | nil =>
    cases n with
    | zero => cases pre <;> simp [splitAtByte, eq_comm]
    | succ n => cases pre <;> simp [splitAtByte]
  | cons c cs ih =>
    have hpos := c.utf8Size_pos
    cases n with
    | zero =>
      cases pre with
      | nil => simp [splitAtByte, eq_comm]
      | cons d pre =>
        -- A first part with a character in it has at least one byte.
        have hpos := d.utf8Size_pos
        simp only [splitAtByte, Option.some.injEq, Prod.mk.injEq, reduceCtorEq, false_and,
          false_iff, encodeUtf8_cons, List.length_append, String.length_utf8EncodeChar]
        omega
    | succ n =>
      rw [splitAtByte]
      cases pre with
      | nil => split_ifs <;> simp
      | cons d pre =>
        split_ifs with hle
        · simp only [Option.map_eq_some_iff, Prod.mk.injEq, List.cons.injEq, Prod.exists,
            encodeUtf8_cons, List.length_append, String.length_utf8EncodeChar, List.cons_append]
          constructor
          · rintro ⟨pre', post', hsplit, ⟨rfl, rfl⟩, rfl⟩
            obtain ⟨heq, hlen⟩ := ih.mp hsplit
            exact ⟨⟨rfl, heq⟩, by omega⟩
          · rintro ⟨⟨rfl, heq⟩, hlen⟩
            exact ⟨pre, post, ih.mpr ⟨heq, by omega⟩, ⟨rfl, rfl⟩, rfl⟩
        · simp only [false_iff, not_and, List.cons_append, List.cons.injEq]
          rintro ⟨rfl, -⟩
          simp only [encodeUtf8_cons, List.length_append, String.length_utf8EncodeChar]
          omega

end Text
