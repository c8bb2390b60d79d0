import Torlane.Controller.Auth
import Torlane.Hex

/-!
# The challenge

What `parse_challenge` accepts. `decodeHex_eq_ok_iff` says which texts `decode_hex` takes for bytes,
multi-byte characters included, and `parseChallenge_eq_ok_iff` which lines are a challenge: the
first line that starts as one decides, and in it the first word of each name.
-/

namespace Torlane.Control

open Text

/-! ## Bytes in hexadecimal -/

/-- On ASCII characters, `hex_digit` gives the value of the digit. -/
theorem hexDigit_ofNat {c : Char} (h : c.toNat < 128) :
    hexDigit (UInt8.ofNat c.toNat) = (hexValue c).map UInt8.ofNat := by
  have hall : ∀ n < 128,
      hexDigit (UInt8.ofNat n) = (hexValue (Char.ofNat n)).map UInt8.ofNat := by decide
  have hc := hall c.toNat h
  rwa [Char.ofNat_toNat] at hc

/-- No byte of a multi-byte character is a digit. -/
theorem toNat_lt_of_hexDigit {byte value : UInt8} (h : hexDigit byte = some value) :
    byte.toNat < 128 := by
  unfold hexDigit at h
  simp only [UInt8.le_iff_toNat_le, UInt8.reduceToNat] at h
  split_ifs at h <;> omega

/-- The high and the low digit are put together to a byte. -/
theorem shiftLeft_or_ofNat {h l : ℕ} (hh : h < 16) (hl : l < 16) :
    (UInt8.ofNat h <<< 4) ||| UInt8.ofNat l = UInt8.ofNat (16 * h + l) := by
  have hall : ∀ h < 16, ∀ l < 16,
      (UInt8.ofNat h <<< 4) ||| UInt8.ofNat l = UInt8.ofNat (16 * h + l) := by decide
  exact hall h hh l hl

/-- The bytes that a text spells are decoded. -/
theorem hexPairs_of_spells {error : ClientError} {text : Text} {bytes : List UInt8}
    (h : SpellsBytes text bytes) : hexPairs error (encodeUtf8 text) = .ok bytes := by
  induction h with
  | nil => rfl
  | @cons high low h l text bytes hhigh hlow hrest ih =>
    have hascii {c : Char} {n : ℕ} (h : hexValue c = some n) : c.toNat < 128 :=
      toNat_lt_of_isHexDigit (Option.isSome_iff_exists.mpr ⟨n, h⟩)
    rw [encodeUtf8_cons, encodeUtf8_cons, utf8EncodeChar_ascii (hascii hhigh),
      utf8EncodeChar_ascii (hascii hlow), List.singleton_append, List.singleton_append, hexPairs,
      hexDigit_ofNat (hascii hhigh), hexDigit_ofNat (hascii hlow), hhigh, hlow, ih]
    show Except.ok (((UInt8.ofNat h <<< 4) ||| UInt8.ofNat l) :: bytes) = _
    rw [shiftLeft_or_ofNat (hexValue_lt hhigh) (hexValue_lt hlow)]

/-- The loop over pairs of bytes fails only with its error, and where it does not, every byte of a
pair is a digit. -/
theorem hexPairs_cases (error : ClientError) (input : List UInt8) :
    hexPairs error input = .error error ∨
      ((∃ bytes, hexPairs error input = .ok bytes) ∧
        (input.length % 2 = 0 → ∀ byte ∈ input, (hexDigit byte).isSome)) := by
  match input with
  | [] => exact .inr ⟨⟨[], rfl⟩, by simp⟩
  | [byte] => exact .inr ⟨⟨[], rfl⟩, by simp⟩
  | high :: low :: rest =>
    cases hhigh : hexDigit high with
    | none => exact .inl (by simp [hexPairs, hhigh])
    | some h =>
      cases hlow : hexDigit low with
      | none => exact .inl (by simp [hexPairs, hhigh, hlow])
      | some l =>
        have hstep : hexPairs error (high :: low :: rest) =
            (hexPairs error rest).map (((h <<< 4) ||| l) :: ·) := by
          simp [hexPairs, hhigh, hlow]
        rw [hstep]
        rcases hexPairs_cases error rest with hrest | ⟨⟨bytes, hrest⟩, hdigits⟩
        · exact .inl (by rw [hrest]; rfl)
        · refine .inr ⟨⟨_, by rw [hrest]; rfl⟩, fun heven => ?_⟩
          have hlength : rest.length % 2 = 0 := by
            simp only [List.length_cons] at heven
            omega
          simpa [hhigh, hlow] using hdigits hlength

/-- A text whose bytes are digits consists of digits. -/
theorem isHexDigit_of_bytes {text : Text}
    (h : ∀ byte ∈ encodeUtf8 text, (hexDigit byte).isSome) : ∀ c ∈ text, isHexDigit c = true := by
  intro c hc
  have hbytes : ∀ byte ∈ String.utf8EncodeChar c, (hexDigit byte).isSome := fun byte hbyte =>
    h byte (List.mem_flatMap.mpr ⟨c, hc, hbyte⟩)
  -- The first byte is a digit, so that it is the only one.
  obtain ⟨byte, hmem⟩ := List.exists_mem_of_ne_nil _ (String.utf8EncodeChar_ne_nil (c := c))
  obtain ⟨value, hvalue⟩ := Option.isSome_iff_exists.mp (hbytes byte hmem)
  have hascii : c.toNat < 128 := by
    have hbyte := toNat_lt_of_hexDigit hvalue
    rw [toNat_of_mem_utf8EncodeChar hmem hbyte]
    exact hbyte
  have hdigit := hbytes (UInt8.ofNat c.toNat) (by simp [utf8EncodeChar_ascii hascii])
  rw [hexDigit_ofNat hascii, Option.isSome_map] at hdigit
  exact hdigit

/-- `decode_hex` gives the bytes that a text spells, and an error for a text that spells none. -/
theorem decodeHex_cases (name value : Text) :
    (∃ bytes, SpellsBytes value bytes ∧ decodeHex name value = .ok bytes) ∨
      ((¬ ∃ bytes, SpellsBytes value bytes) ∧
        decodeHex name value = .error (.invalidHex name value)) := by
  have hlength (h : ∀ c ∈ value, isHexDigit c = true) : (encodeUtf8 value).length = value.length :=
    length_encodeUtf8_ascii fun c hc => toNat_lt_of_isHexDigit (h c hc)
  unfold decodeHex
  by_cases hodd : (encodeUtf8 value).length % 2 ≠ 0
  · rw [if_pos hodd]
    refine .inr ⟨fun ⟨bytes, h⟩ => hodd ?_, rfl⟩
    rw [hlength h.isHexDigit, h.length_eq, Nat.mul_mod_right]
  · rw [if_neg hodd]
    rcases hexPairs_cases (.invalidHex name value) (encodeUtf8 value) with herror | ⟨-, hdigits⟩
    · refine .inr ⟨fun ⟨bytes, h⟩ => ?_, herror⟩
      rw [hexPairs_of_spells h] at herror
      cases herror
    · have heven := not_not.mp hodd
      have hvalue := isHexDigit_of_bytes (hdigits heven)
      obtain ⟨bytes, h⟩ := exists_spellsBytes (hlength hvalue ▸ heven) hvalue
      exact .inl ⟨bytes, h, hexPairs_of_spells h⟩

/-- `decode_hex` takes a text for bytes if and only if it spells them. -/
theorem decodeHex_eq_ok_iff {name value : Text} {bytes : List UInt8} :
    decodeHex name value = .ok bytes ↔ SpellsBytes value bytes := by
  rcases decodeHex_cases name value with ⟨bytes', h, hok⟩ | ⟨hnone, herror⟩
  · rw [hok, Except.ok.injEq]
    exact ⟨fun heq => heq ▸ h, h.unique⟩
  · rw [herror]
    exact ⟨nofun, fun h => absurd ⟨bytes, h⟩ hnone⟩

/-- `decode_hex` undoes `encode_hex`. -/
theorem decodeHex_encodeHex (name : Text) (bytes : List UInt8) :
    decodeHex name (encodeHex bytes) = .ok bytes :=
  decodeHex_eq_ok_iff.mpr (isHexTable_upper.spells bytes)

/-! ## The challenge's line -/

/-- A field that must be there is the one that is found. -/
theorem required_eq_ok_iff {words : List Text} {name value : Text} :
    required words name = .ok value ↔ field words name = some value := by
  unfold required
  cases field words name <;> simp

/-- The steps of `parse_challenge` that succeed. -/
theorem parseChallenge_eq_ok {lines : List ControlLine} {serverHash serverNonce : List UInt8} :
    parseChallenge lines = .ok (serverHash, serverNonce) ↔
      ∃ words hashText nonceText, lines.findSome? challengeWords = some words ∧
        field words "SERVERHASH".toList = some hashText ∧
        field words "SERVERNONCE".toList = some nonceText ∧
        SpellsBytes hashText serverHash ∧ SpellsBytes nonceText serverNonce ∧
        serverHash.length = 32 ∧ serverNonce.length = 32 := by
  constructor
  · intro h
    obtain ⟨hhash, hnonce⟩ := length_of_parseChallenge h
    unfold parseChallenge at h
    cases hwords : lines.findSome? challengeWords with
    | none =>
      rw [hwords] at h
      cases h
    | some words =>
      rw [hwords] at h
      obtain ⟨hashText, hhashText, h⟩ := exists_ok_of_bind h
      obtain ⟨nonceText, hnonceText, h⟩ := exists_ok_of_bind h
      obtain ⟨hash, hhashBytes, h⟩ := exists_ok_of_bind h
      obtain ⟨nonce, hnonceBytes, h⟩ := exists_ok_of_bind h
      simp only [ne_eq] at h
      split_ifs at h
      obtain ⟨rfl, rfl⟩ := Prod.mk.inj (Except.ok.inj h)
      exact ⟨words, hashText, nonceText, rfl, required_eq_ok_iff.mp hhashText,
        required_eq_ok_iff.mp hnonceText, decodeHex_eq_ok_iff.mp hhashBytes,
        decodeHex_eq_ok_iff.mp hnonceBytes, hhash, hnonce⟩
  · rintro ⟨words, hashText, nonceText, hwords, hhashText, hnonceText, hhashBytes, hnonceBytes,
      hhash, hnonce⟩
    unfold parseChallenge
    rw [hwords]
    show (required words _ >>= _) = _
    rw [required_eq_ok_iff.mpr hhashText]
    show (required words _ >>= _) = _
    rw [required_eq_ok_iff.mpr hnonceText]
    show (decodeHex _ hashText >>= _) = _
    rw [decodeHex_eq_ok_iff.mpr hhashBytes]
    show (decodeHex _ nonceText >>= _) = _
    rw [decodeHex_eq_ok_iff.mpr hnonceBytes]
    show (if _ then _ else _) = _
    rw [if_neg (not_not.mpr hhash), if_neg (not_not.mpr hnonce)]

/-- A line that starts as a challenge. -/
def IsChallenge : ControlLine → Prop
  | .text value => "AUTHCHALLENGE ".toList <+: value
  | _ => False

/-- A list is split at its first element with a property. -/
def SplitsAt {α : Type} (p : α → Prop) (list : List α) (a : α) : Prop :=
  ∃ before after, list = before ++ a :: after ∧ p a ∧ ∀ b ∈ before, ¬ p b

/-- The first word of a name has 64 digits that spell the bytes. -/
def HasDigits (words : List Text) (name : Text) (bytes : List UInt8) : Prop :=
  ∃ digits, SplitsAt (name ++ ['='] <+: ·) words (name ++ '=' :: digits) ∧
    digits.length = 64 ∧ SpellsBytes digits bytes

/-- A search finds what the first element gives that gives something. -/
theorem findSome?_eq_some_iff_splitsAt {α β : Type} {f : α → Option β} {p : α → Prop}
    (hp : ∀ a, p a ↔ f a ≠ none) {list : List α} {b : β} :
    list.findSome? f = some b ↔ ∃ a, SplitsAt p list a ∧ f a = some b := by
  rw [List.findSome?_eq_some_iff]
  constructor
  · rintro ⟨before, a, after, hlist, hb, hbefore⟩
    have ha : p a := (hp a).mpr (by simp [hb])
    exact ⟨a, ⟨before, after, hlist, ha, fun c hc => by simp [hp, hbefore c hc]⟩, hb⟩
  · rintro ⟨a, ⟨before, after, hlist, -, hbefore⟩, hb⟩
    exact ⟨before, a, after, hlist, hb, fun c hc => by simpa [hp] using hbefore c hc⟩

/-- Only a challenge has words that are read. -/
theorem challengeWords_eq_some_iff {line : ControlLine} {words : List Text} :
    challengeWords line = some words ↔
      ∃ value, line = .text value ∧ IsChallenge line ∧ controlWords value = words := by
  constructor
  · intro h
    unfold challengeWords at h
    split at h
    · next value =>
      split_ifs at h with hstart
      exact ⟨value, rfl, List.isPrefixOf_iff_prefix.mp hstart, Option.some.inj h⟩
    · cases h
  · rintro ⟨value, rfl, hstart, rfl⟩
    exact if_pos (List.isPrefixOf_iff_prefix.mpr hstart)

/-- The words that are read are those of the first challenge. -/
theorem findSome?_challengeWords {lines : List ControlLine} {words : List Text} :
    lines.findSome? challengeWords = some words ↔
      ∃ value, SplitsAt IsChallenge lines (.text value) ∧ controlWords value = words := by
  have hsome (line : ControlLine) : IsChallenge line ↔ challengeWords line ≠ none := by
    rw [Option.ne_none_iff_exists']
    constructor
    · intro h
      cases line with
      | text value => exact ⟨_, challengeWords_eq_some_iff.mpr ⟨value, rfl, h, rfl⟩⟩
      | _ => cases h
    · rintro ⟨words, hwords⟩
      obtain ⟨value, -, h, -⟩ := challengeWords_eq_some_iff.mp hwords
      exact h
  rw [findSome?_eq_some_iff_splitsAt hsome]
  constructor
  · rintro ⟨line, hsplit, hwords⟩
    obtain ⟨value, rfl, -, hvalue⟩ := challengeWords_eq_some_iff.mp hwords
    exact ⟨value, hsplit, hvalue⟩
  · rintro ⟨value, hsplit, hvalue⟩
    obtain ⟨-, -, -, hstart, -⟩ := id hsplit
    exact ⟨_, hsplit, challengeWords_eq_some_iff.mpr ⟨value, rfl, hstart, hvalue⟩⟩

/-- The value of a field is behind the first word of its name. -/
theorem field_eq_some_iff {words : List Text} {name value : Text} :
    field words name = some value ↔
      SplitsAt (name ++ ['='] <+: ·) words (name ++ '=' :: value) := by
  have hsome (word : Text) : name ++ ['='] <+: word ↔
      (stripPrefix name word).bind (stripPrefix ['=']) ≠ none := by
    simp only [Option.ne_none_iff_exists', stripPrefix_bind_eq_some_iff]
    constructor
    · rintro ⟨value, rfl⟩
      exact ⟨value, by simp⟩
    · rintro ⟨value, rfl⟩
      exact ⟨value, by simp⟩
  unfold field
  rw [findSome?_eq_some_iff_splitsAt hsome]
  constructor
  · rintro ⟨word, hsplit, hword⟩
    obtain rfl := stripPrefix_bind_eq_some_iff.mp hword
    exact hsplit
  · intro hsplit
    exact ⟨_, hsplit, stripPrefix_bind_eq_some_iff.mpr rfl⟩

/-- `parse_challenge` succeeds if and only if there is a challenge, and the first one has the two
fields with 64 digits each. It returns the bytes that these digits spell. -/
theorem parseChallenge_eq_ok_iff {lines : List ControlLine} {serverHash serverNonce : List UInt8} :
    parseChallenge lines = .ok (serverHash, serverNonce) ↔
      ∃ value, SplitsAt IsChallenge lines (.text value) ∧
        HasDigits (controlWords value) "SERVERHASH".toList serverHash ∧
        HasDigits (controlWords value) "SERVERNONCE".toList serverNonce := by
  have hlength {digits : Text} {bytes : List UInt8} (h : SpellsBytes digits bytes) :
      digits.length = 64 ↔ bytes.length = 32 := by
    rw [h.length_eq]
    omega
  rw [parseChallenge_eq_ok]
  constructor
  · rintro ⟨words, hashText, nonceText, hwords, hhashText, hnonceText, hhash, hnonce, hhashLength,
      hnonceLength⟩
    obtain ⟨value, hsplit, rfl⟩ := findSome?_challengeWords.mp hwords
    exact ⟨value, hsplit,
      ⟨hashText, field_eq_some_iff.mp hhashText, (hlength hhash).mpr hhashLength, hhash⟩,
      ⟨nonceText, field_eq_some_iff.mp hnonceText, (hlength hnonce).mpr hnonceLength, hnonce⟩⟩
  · rintro ⟨value, hsplit, ⟨hashText, hhashText, hhashLength, hhash⟩,
      ⟨nonceText, hnonceText, hnonceLength, hnonce⟩⟩
    exact ⟨controlWords value, hashText, nonceText,
      findSome?_challengeWords.mpr ⟨value, hsplit, rfl⟩, field_eq_some_iff.mpr hhashText,
      field_eq_some_iff.mpr hnonceText, hhash, hnonce, (hlength hhash).mp hhashLength,
      (hlength hnonce).mp hnonceLength⟩

/-- Digits are bare. -/
theorem isBare_encodeHex (bytes : List UInt8) : IsBare (encodeHex bytes) := by
  intro c hc
  have hdigit := (isHexTable_upper.spells bytes).isHexDigit c hc
  refine ⟨isWhitespace_of_isHexDigit hdigit, ?_⟩
  rintro rfl
  cases hdigit

/-- The fields of the server's line. -/
def challengeFields (serverHash serverNonce : Vector UInt8 32) : List Field :=
  [⟨"SERVERHASH".toList, encodeHex serverHash.toList, false⟩,
    ⟨"SERVERNONCE".toList, encodeHex serverNonce.toList, false⟩]

/-- The server's line with a hash and a nonce: each field is `<name>=<digits>` after a space. -/
def challengeLine (serverHash serverNonce : Vector UInt8 32) : Text :=
  "AUTHCHALLENGE".toList ++ (challengeFields serverHash serverNonce).flatMap fun f => ' ' :: f.text

/-- The words of the server's line. -/
theorem controlWords_challengeLine (serverHash serverNonce : Vector UInt8 32) :
    controlWords (challengeLine serverHash serverNonce) =
      ["AUTHCHALLENGE".toList, "SERVERHASH".toList ++ '=' :: encodeHex serverHash.toList,
        "SERVERNONCE".toList ++ '=' :: encodeHex serverNonce.toList] := by
  have hhash : IsBare "SERVERHASH".toList := by decide
  have hnonce : IsBare "SERVERNONCE".toList := by decide
  have hfields : ∀ f ∈ challengeFields serverHash serverNonce, f.WellFormed :=
    List.forall_mem_cons.mpr ⟨⟨hhash, fun _ => isBare_encodeHex _⟩,
      List.forall_mem_singleton.mpr ⟨hnonce, fun _ => isBare_encodeHex _⟩⟩
  unfold challengeLine
  rw [controlWords_keyword (by decide) (by decide) hfields]
  rfl

/-- The server's line is read back. -/
theorem parseChallenge_challengeLine (serverHash serverNonce : Vector UInt8 32) :
    parseChallenge [.text (challengeLine serverHash serverNonce)] =
      .ok (serverHash.toList, serverNonce.toList) := by
  have hdigits (bytes : Vector UInt8 32) : (encodeHex bytes.toList).length = 64 ∧
      SpellsBytes (encodeHex bytes.toList) bytes.toList := by
    have hspells := isHexTable_upper.spells bytes.toList
    refine ⟨?_, hspells⟩
    rw [encodeHex, hspells.length_eq, Vector.length_toList]
  have hstart : IsChallenge (.text (challengeLine serverHash serverNonce)) := by
    have hspace : "AUTHCHALLENGE ".toList = "AUTHCHALLENGE".toList ++ [' '] := by decide
    show "AUTHCHALLENGE ".toList <+: _
    rw [hspace]
    exact (List.prefix_append_right_inj _).mpr ⟨_, rfl⟩
  have hskip (value : Text) :
      ¬ "SERVERNONCE".toList ++ ['='] <+: "SERVERHASH".toList ++ '=' :: value := by
    -- The two names differ in their seventh letter.
    intro h
    have hnonce : "SERVERN".toList <+: "SERVERNONCE".toList ++ ['='] := by decide
    have hhash : "SERVERH".toList <+: "SERVERHASH".toList ++ '=' :: value :=
      List.IsPrefix.trans (by decide) (List.prefix_append _ _)
    exact absurd (List.prefix_of_prefix_length_le (hnonce.trans h) hhash (by decide)) (by decide)
  refine parseChallenge_eq_ok_iff.mpr ⟨_, ⟨[], [], rfl, hstart, by simp⟩, ?_, ?_⟩
  · rw [controlWords_challengeLine]
    refine ⟨_, ⟨["AUTHCHALLENGE".toList], _, rfl, by simp, ?_⟩, hdigits serverHash⟩
    exact List.forall_mem_singleton.mpr (by decide)
  · rw [controlWords_challengeLine]
    refine ⟨_, ⟨["AUTHCHALLENGE".toList, _], _, rfl, by simp, ?_⟩, hdigits serverNonce⟩
    exact List.forall_mem_cons.mpr ⟨by decide, List.forall_mem_singleton.mpr (hskip _)⟩

/-- Parsing a challenge is exact. It succeeds if and only if the first challenge among the lines has
the two fields with 64 digits each, and returns the bytes that they spell, so that what the server
writes for a hash and a nonce is read back. Underneath, `decode_hex` undoes `encode_hex`, and an
even number of digits is all that it accepts. -/
theorem parseChallenge_exact :
    (∀ (lines : List ControlLine) (serverHash serverNonce : List UInt8),
      parseChallenge lines = .ok (serverHash, serverNonce) ↔
        ∃ value, SplitsAt IsChallenge lines (.text value) ∧
          HasDigits (controlWords value) "SERVERHASH".toList serverHash ∧
          HasDigits (controlWords value) "SERVERNONCE".toList serverNonce) ∧
    (∀ serverHash serverNonce : Vector UInt8 32,
      parseChallenge [.text (challengeLine serverHash serverNonce)] =
        .ok (serverHash.toList, serverNonce.toList)) ∧
    (∀ (name : Text) (bytes : List UInt8), decodeHex name (encodeHex bytes) = .ok bytes) ∧
    (∀ name value : Text, ((∃ bytes, decodeHex name value = .ok bytes) ↔
        value.length % 2 = 0 ∧ ∀ c ∈ value, isHexDigit c = true) ∧
      ((¬ ∃ bytes, decodeHex name value = .ok bytes) →
        decodeHex name value = .error (.invalidHex name value))) := by
  refine ⟨fun _ _ _ => parseChallenge_eq_ok_iff, parseChallenge_challengeLine,
    decodeHex_encodeHex, fun name value => ⟨?_, fun h => ?_⟩⟩
  · simp only [decodeHex_eq_ok_iff, exists_spellsBytes_iff]
  · rcases decodeHex_cases name value with ⟨bytes, -, hok⟩ | ⟨-, herror⟩
    · exact absurd ⟨bytes, hok⟩ h
    · exact herror

end Torlane.Control
