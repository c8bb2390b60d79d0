import Mathlib.Data.List.DropRight
import Mathlib.Order.Basic
import Torlane.Utf8

/-!
# Control replies

`read_reply` of `src/tor/controller/codec.rs` over a stream of bytes. A reader is the bytes that
will still arrive and what ends them, so that every function returns the reader that it leaves
behind. A slice of a string at a byte offset may panic: `parseStatusLine` is `none` there, and
`parseStatusLine_isSome` says that it never is.

`Protocol`'s message is kept as its parts, since it prints the offending line in its escaped form.
-/

namespace Torlane

open Text

/-- `std::io::Error`: what the operating system reported, or text that is not UTF-8. -/
inductive IoError where
  | os (code : ℕ)
  | invalidData
  deriving DecidableEq, Repr

/-- The message of `TorControlError::Protocol`. -/
inductive ProtocolError where
  | malformedStatusLine (line : Text)
  | invalidStatusCode (line : Text)
  | invalidStatusSeparator (line : Text)
  | statusChanged (code lineCode : ℕ)
  | eofInReply
  | eofInDataReply
  deriving DecidableEq, Repr

/-- `TorControlError`, as far as one command can meet it. -/
inductive TorControlError where
  | io (error : IoError)
  | protocol (error : ProtocolError)
  | channelClosed
  | invalidCommand
  deriving DecidableEq, Repr

/-- One line within a reply. -/
inductive ControlLine where
  | text (text : Text)
  | keyValue (key value : Text)
  | data (key value : Text)
  deriving DecidableEq, Repr

/-- One complete reply: a status code and its lines. -/
structure ControlReply where
  code : ℕ
  lines : List ControlLine
  deriving DecidableEq, Repr

/-- What comes after the last byte of a stream. -/
inductive StreamEnd where
  | eof
  | failed (error : IoError)
  deriving DecidableEq, Repr

/-- The bytes that a stream will still deliver, and its end. -/
structure Reader where
  bytes : List UInt8
  ending : StreamEnd
  deriving DecidableEq, Repr

/-! ## Lines -/

/-- The bytes up to the first newline and with it, and the bytes after it. -/
def splitLine : List UInt8 → Option (List UInt8 × List UInt8)
  | [] => none
  | byte :: bytes =>
    if byte = 10 then some ([byte], bytes)
    else (splitLine bytes).map fun (line, rest) => (byte :: line, rest)

/-- The text of a line's bytes. -/
def decodeLine (bytes : List UInt8) : Except IoError Text :=
  match decodeUtf8 bytes with
  | some text => .ok text
  | none => .error .invalidData

/-- `read_line`: the text up to the next newline and with it, or up to the end of the stream. -/
def Reader.readLine (r : Reader) : Except IoError Text × Reader :=
  match splitLine r.bytes, r.ending with
  | some (line, rest), ending => (decodeLine line, ⟨rest, ending⟩)
  -- The last line of a stream may lack its newline.
  | none, .eof => (decodeLine r.bytes, ⟨[], .eof⟩)
  | none, .failed error => (.error error, ⟨[], .failed error⟩)

/-- A line feed or a carriage return. -/
def isLineEnd (c : Char) : Bool := c = '\n' ∨ c = '\r'

/-- The text has no line break. -/
def IsLine (text : Text) : Prop := ∀ c ∈ text, isLineEnd c = false

instance (text : Text) : Decidable (IsLine text) :=
  List.decidableBAll (fun c => isLineEnd c = false) text

/-- A text without a line break. -/
abbrev Line := { text : Text // IsLine text }

/-- `read_protocol_line`: the next line without its line end, or `none` at the end of the stream. -/
def readProtocolLine (r : Reader) : Except TorControlError (Option Text) × Reader :=
  match r.readLine with
  | (.error error, r) => (.error (.io error), r)
  -- `read_line` read no byte: the end of the stream.
  | (.ok [], r) => (.ok none, r)
  | (.ok line, r) => (.ok (some (line.rdropWhile isLineEnd)), r)

/-- `parse_status_line`: the code, the separator, and the payload. -/
def parseStatusLine (line : Text) : Option (Except TorControlError (ℕ × Char × Text)) :=
  if (encodeUtf8 line).length < 4 ∨ ¬ isCharBoundary line 3 then
    some (.error (.protocol (.malformedStatusLine line)))
  else do
    match parseUnsigned 65535 (← sliceTo line 3) with
    | none => some (.error (.protocol (.invalidStatusCode line)))
    | some code =>
      -- The separator is one byte of the line, read as a character.
      let separator := Char.ofNat (← (encodeUtf8 line)[3]?).toNat
      if separator ∉ [' ', '-', '+'] then
        some (.error (.protocol (.invalidStatusSeparator line)))
      else some (.ok (code, separator, ← sliceFrom line 4))

/-- `parse_payload`. -/
def parsePayload (payload : Text) : ControlLine :=
  match splitOnce '=' payload with
  | some (key, value) =>
    if key ≠ [] ∧ ¬ key.any isWhitespace then .keyValue key value else .text payload
  | none => .text payload

/-! ## Slices -/

/-- A line that is cut behind its third byte, which is followed by another character. -/
theorem exists_of_not_malformed {line : Text}
    (h : ¬ ((encodeUtf8 line).length < 4 ∨ ¬ isCharBoundary line 3)) :
    ∃ pre c post, line = pre ++ c :: post ∧ (encodeUtf8 pre).length = 3 := by
  rw [not_or, not_not] at h
  obtain ⟨⟨pre, post⟩, hsplit⟩ := Option.isSome_iff_exists.mp h.2
  obtain ⟨rfl, hlen⟩ := splitAtByte_eq_some_iff.mp hsplit
  cases post with
  | nil => simp [hlen] at h
  | cons c post => exact ⟨pre, c, post, rfl, hlen⟩

/-- A slice up to a boundary. -/
theorem sliceTo_append {pre post : Text} {n : ℕ} (h : (encodeUtf8 pre).length = n) :
    sliceTo (pre ++ post) n = some pre := by
  rw [sliceTo, splitAtByte_eq_some_iff.mpr ⟨rfl, h⟩, Option.map_some]

/-- A slice from a boundary on. -/
theorem sliceFrom_append {pre post : Text} {n : ℕ} (h : (encodeUtf8 pre).length = n) :
    sliceFrom (pre ++ post) n = some post := by
  rw [sliceFrom, splitAtByte_eq_some_iff.mpr ⟨rfl, h⟩, Option.map_some]

/-- What `parse_status_line` returns for a line that is cut behind its third byte. -/
theorem parseStatusLine_append {pre post : Text} {c : Char} (h : (encodeUtf8 pre).length = 3) :
    parseStatusLine (pre ++ c :: post) = some (
      match parseUnsigned 65535 pre with
      | none => .error (.protocol (.invalidStatusCode (pre ++ c :: post)))
      | some code =>
        if c ∈ [' ', '-', '+'] then .ok (code, c, post)
        else .error (.protocol (.invalidStatusSeparator (pre ++ c :: post)))) := by
  obtain ⟨byte, bytes, hbytes⟩ := List.exists_cons_of_ne_nil (String.utf8EncodeChar_ne_nil (c := c))
  have hwell : ¬ ((encodeUtf8 (pre ++ c :: post)).length < 4 ∨
      ¬ isCharBoundary (pre ++ c :: post) 3) := by
    rw [not_or, not_not, isCharBoundary, splitAtByte_eq_some_iff.mpr ⟨rfl, h⟩]
    refine ⟨?_, rfl⟩
    simp only [encodeUtf8_append, encodeUtf8_cons, hbytes, List.length_append, List.length_cons, h]
    omega
  have hbyte : (encodeUtf8 (pre ++ c :: post))[3]? = some byte := by
    rw [encodeUtf8_append, encodeUtf8_cons, hbytes, List.getElem?_append_right (by omega), h]
    rfl
  have hseparator : Char.ofNat byte.toNat ∈ [' ', '-', '+'] ↔ c ∈ [' ', '-', '+'] := by
    simp only [List.mem_cons, List.not_mem_nil, or_false,
      ofNat_head_eq_iff hbytes (show ' '.toNat < 128 by decide),
      ofNat_head_eq_iff hbytes (show '-'.toNat < 128 by decide),
      ofNat_head_eq_iff hbytes (show '+'.toNat < 128 by decide)]
  unfold parseStatusLine
  rw [if_neg hwell, sliceTo_append h, hbyte]
  simp only [Option.bind_eq_bind, Option.bind_some]
  cases parseUnsigned 65535 pre with
  | none => rfl
  | some code =>
    simp only [hseparator]
    by_cases hc : c ∈ [' ', '-', '+']
    · have hascii : c.toNat < 128 := by
        simp only [List.mem_cons, List.not_mem_nil, or_false] at hc
        rcases hc with rfl | rfl | rfl <;> decide
      -- The separator is one byte, so that the payload starts at the fourth.
      have hslice : sliceFrom (pre ++ c :: post) 4 = some post := by
        rw [← List.singleton_append, ← List.append_assoc]
        refine sliceFrom_append ?_
        simp [h, utf8EncodeChar_ascii hascii]
      have heq : Char.ofNat byte.toNat = c := (ofNat_head_eq_iff hbytes hascii).mpr rfl
      simp [hc, hslice, heq]
    · simp [hc]

/-- `parse_status_line` does not panic. -/
theorem parseStatusLine_isSome (line : Text) : (parseStatusLine line).isSome := by
  by_cases h : (encodeUtf8 line).length < 4 ∨ ¬ isCharBoundary line 3
  · rw [parseStatusLine, if_pos h]
    rfl
  · obtain ⟨pre, c, post, rfl, hlen⟩ := exists_of_not_malformed h
    rw [parseStatusLine_append hlen]
    rfl

/-- What `parse_status_line` returns. -/
def statusLine (line : Text) : Except TorControlError (ℕ × Char × Text) :=
  (parseStatusLine line).get (parseStatusLine_isSome line)

/-! ## Replies -/

/-- What is left after the first newline is shorter. -/
theorem splitLine_length {bytes line rest : List UInt8} (h : splitLine bytes = some (line, rest)) :
    rest.length < bytes.length := by
  induction bytes generalizing line with
  | nil => simp [splitLine] at h
  | cons byte bytes ih =>
    rw [splitLine] at h
    split_ifs at h
    · obtain ⟨-, rfl⟩ := by simpa using h
      simp
    · obtain ⟨⟨line', rest'⟩, hsplit, heq⟩ := Option.map_eq_some_iff.mp h
      obtain ⟨-, rfl⟩ := Prod.mk.inj heq
      exact Nat.lt_succ_of_lt (ih hsplit)

/-- Text that is read makes the stream shorter. -/
theorem Reader.readLine_length {r r' : Reader} {text : Text} (h : r.readLine = (.ok text, r'))
    (hne : text ≠ []) : r'.bytes.length < r.bytes.length := by
  unfold readLine at h
  split at h
  · next line rest ending hsplit =>
    obtain ⟨-, rfl⟩ := Prod.mk.inj h
    exact splitLine_length hsplit
  · obtain ⟨hdecode, rfl⟩ := Prod.mk.inj h
    refine List.length_pos_iff.mpr fun hnil => hne ?_
    simpa [decodeLine, hnil, show decodeUtf8 [] = some [] from decodeUtf8_encodeUtf8 [], eq_comm]
      using hdecode
  · simp at h

/-- Reading a line makes the stream no longer. -/
theorem readProtocolLine_length_le (r : Reader) :
    (readProtocolLine r).2.bytes.length ≤ r.bytes.length := by
  have hread : r.readLine.2.bytes.length ≤ r.bytes.length := by
    unfold Reader.readLine
    split
    · next hsplit => exact (splitLine_length hsplit).le
    · exact Nat.zero_le _
    · exact Nat.zero_le _
  unfold readProtocolLine
  split <;> simp_all

/-- A line that is read makes the stream shorter. -/
theorem readProtocolLine_length {r r' : Reader} {line : Text}
    (h : readProtocolLine r = (.ok (some line), r')) : r'.bytes.length < r.bytes.length := by
  unfold readProtocolLine at h
  split at h
  · simp at h
  · simp at h
  · next text r'' hne hread =>
    obtain ⟨-, rfl⟩ := Prod.mk.inj h
    exact Reader.readLine_length hread hne

/-- A line of a data block, without the dot that was put before a leading dot. -/
def unstuff (line : Text) : Text := ((stripPrefix ['.', '.'] line).map ('.' :: ·)).getD line

/-- The loop of `consume_line` over the lines of a data block. -/
def readData (r : Reader) (data : List Text) : Except TorControlError (List Text) × Reader :=
  match _h : readProtocolLine r with
  | (.error error, r) => (.error error, r)
  | (.ok none, r) => (.error (.protocol .eofInDataReply), r)
  | (.ok (some line), r) =>
    if line = ['.'] then (.ok data, r)
    else readData r (data ++ [unstuff line])
termination_by r.bytes.length
decreasing_by exact readProtocolLine_length _h

/-- `consume_line`: the reply's lines with the one that the payload starts. -/
def consumeLine (r : Reader) (separator : Char) (payload : Text) (lines : List ControlLine) :
    Except TorControlError (List ControlLine) × Reader :=
  if separator = '+' then
    -- A data block: the payload is `key=`, and its lines follow up to the one that is a dot.
    let key := (stripSuffix ['='] payload).getD payload
    match readData r [] with
    | (.error error, r) => (.error error, r)
    | (.ok data, r) => (.ok (lines ++ [.data key (['\n'].intercalate data)]), r)
  else (.ok (lines ++ [parsePayload payload]), r)

/-- A data block makes the stream no longer. -/
theorem readData_length (r : Reader) (data : List Text) :
    (readData r data).2.bytes.length ≤ r.bytes.length := by
  fun_induction readData r data with
  | case1 r data error r' h => simpa [h] using readProtocolLine_length_le r
  | case2 r data r' h => simpa [h] using readProtocolLine_length_le r
  | case3 r data r' h => simpa [h] using readProtocolLine_length_le r
  | case4 r data line r' h hne ih => exact ih.trans (readProtocolLine_length h).le

/-- The line of a payload makes the stream no longer. -/
theorem consumeLine_length {r r' : Reader} {separator : Char} {payload : Text}
    {lines lines' : List ControlLine}
    (h : consumeLine r separator payload lines = (.ok lines', r')) :
    r'.bytes.length ≤ r.bytes.length := by
  have hdata := readData_length r []
  unfold consumeLine at h
  split_ifs at h
  · split at h
    · simp at h
    · next data r'' hread =>
      obtain ⟨-, rfl⟩ := Prod.mk.inj h
      simpa [hread] using hdata
  · obtain ⟨-, rfl⟩ := Prod.mk.inj h
    exact Nat.le_refl _

/-- The loop of `read_reply` over the lines after the first. -/
def readLines (r : Reader) (code : ℕ) (lines : List ControlLine) :
    Except TorControlError ControlReply × Reader :=
  match _h : readProtocolLine r with
  | (.error error, r) => (.error error, r)
  | (.ok none, r) => (.error (.protocol .eofInReply), r)
  | (.ok (some line), r) =>
    match statusLine line with
    | .error error => (.error error, r)
    -- Every line of a reply repeats its code.
    | .ok (lineCode, separator, payload) =>
      if lineCode ≠ code then (.error (.protocol (.statusChanged code lineCode)), r)
      else
        match _h' : consumeLine r separator payload lines with
        | (.error error, r) => (.error error, r)
        | (.ok lines, r) =>
          if separator = ' ' then (.ok ⟨code, lines⟩, r) else readLines r code lines
termination_by r.bytes.length
decreasing_by exact (consumeLine_length _h').trans_lt (readProtocolLine_length _h)

/-- `read_reply`: the next reply, or `none` where the stream ends before it. -/
def readReply (r : Reader) : Except TorControlError (Option ControlReply) × Reader :=
  match readProtocolLine r with
  | (.error error, r) => (.error error, r)
  | (.ok none, r) => (.ok none, r)
  | (.ok (some first), r) =>
    match statusLine first with
    | .error error => (.error error, r)
    | .ok (code, separator, payload) =>
      match consumeLine r separator payload [] with
      | (.error error, r) => (.error error, r)
      | (.ok lines, r) =>
        if separator = ' ' then (.ok (some ⟨code, lines⟩), r)
        else
          match readLines r code lines with
          | (.error error, r) => (.error error, r)
          | (.ok reply, r) => (.ok (some reply), r)

end Torlane
