import Mathlib.Data.List.Forall2
import Torlane.Controller.Codec

/-!
# Replies are read back

The encoding of a reply by the control protocol, and `readReply_encode`: whatever follows the
encoding in the stream, `read_reply` returns the reply and leaves the rest unread. The text of a
reply is free of line breaks, which the types say, so that the theorem has no side condition.
-/

namespace Torlane

open Text

/-- One item of a reply before its last line: a line, or a data block. -/
inductive ReplyItem where
  | line (payload : Line)
  | data (key : Line) (content : List Line)

/-- A reply, as the control protocol sends it. -/
structure WireReply where
  code : Fin 1000
  items : List ReplyItem
  final : Line

/-- The status of success. -/
def successCode : Fin 1000 := 250

/-- The text of a reply that says no more than that. -/
def okText : Line := ⟨"OK".toList, by decide⟩

/-- A line with its line end. -/
def encodeLine (text : Text) : List UInt8 := encodeUtf8 text ++ [13, 10]

/-- A line of a data block: a dot is put before a leading dot. -/
def stuff (line : Text) : Text := if line.head? = some '.' then '.' :: line else line

/-- The lines of a data block. -/
def encodeData (content : List Line) : List UInt8 :=
  content.flatMap (fun line => encodeLine (stuff line.val)) ++ encodeLine ['.']

/-- A status line with its line end. -/
def encodeStatus (code : Fin 1000) (separator : Char) (payload : Text) : List UInt8 :=
  encodeLine (zeroPadded 3 code ++ separator :: payload)

/-- The lines of an item. -/
def ReplyItem.encode (code : Fin 1000) : ReplyItem → List UInt8
  | .line payload => encodeStatus code '-' payload
  | .data key content => encodeStatus code '+' (key.val ++ ['=']) ++ encodeData content

/-- The lines of a reply. -/
def WireReply.encode (reply : WireReply) : List UInt8 :=
  reply.items.flatMap (·.encode reply.code) ++ encodeStatus reply.code ' ' reply.final

/-! ## What a reply says -/

/-- The payload is a key and a value: the key is not empty, has no whitespace, and ends at the first
`=`. -/
def IsKeyValue (payload key value : Text) : Prop :=
  payload = key ++ '=' :: value ∧ '=' ∉ key ∧ key ≠ [] ∧ ∀ c ∈ key, isWhitespace c = false

/-- The line that a payload stands for. -/
inductive PayloadLine (payload : Text) : ControlLine → Prop
  | keyValue {key value} (h : IsKeyValue payload key value) :
    PayloadLine payload (.keyValue key value)
  | text (h : ∀ key value, ¬ IsKeyValue payload key value) : PayloadLine payload (.text payload)

/-- The line that an item stands for. -/
inductive ItemLine : ReplyItem → ControlLine → Prop
  | line {payload : Line} {line} (h : PayloadLine payload line) : ItemLine (.line payload) line
  | data {key : Line} {content : List Line} :
      ItemLine (.data key content) (.data key (['\n'].intercalate (content.map (·.val))))

/-- The reply that the server has sent: its code, one line for each item, and one for the last
line. -/
def IsReply (sent : WireReply) (reply : ControlReply) : Prop :=
  reply.code = sent.code ∧ List.Forall₂ ItemLine (sent.items ++ [.line sent.final]) reply.lines

/-- `parse_payload` returns the line that the payload stands for. -/
theorem payloadLine_parsePayload (payload : Text) : PayloadLine payload (parsePayload payload) := by
  unfold parsePayload
  cases hsplit : splitOnce '=' payload with
  | none =>
    refine .text fun key value ⟨heq, hkey, _⟩ => ?_
    simp [splitOnce_eq_some_iff.mpr ⟨heq, hkey⟩] at hsplit
  | some pair =>
    obtain ⟨key, value⟩ := pair
    obtain ⟨heq, hkey⟩ := splitOnce_eq_some_iff.mp hsplit
    simp only
    split_ifs with h
    · exact .keyValue ⟨heq, hkey, h.1, by simpa using h.2⟩
    · refine .text fun key' value' ⟨heq', hkey', hne, hspace⟩ => ?_
      -- A text is split at its first `=` in one way only.
      obtain ⟨rfl, rfl⟩ : key = key' ∧ value = value' := by
        simpa [splitOnce_eq_some_iff.mpr ⟨heq', hkey'⟩, eq_comm] using hsplit
      exact h ⟨hne, by simpa using hspace⟩

/-- A payload with a key before its first `=`. -/
theorem parsePayload_keyValue {key value : Text} (hkey : '=' ∉ key)
    (h : key ≠ [] ∧ ¬ key.any isWhitespace) :
    parsePayload (key ++ '=' :: value) = .keyValue key value := by
  have hsplit : splitOnce '=' (key ++ '=' :: value) = some (key, value) :=
    splitOnce_eq_some_iff.mpr ⟨rfl, hkey⟩
  unfold parsePayload
  rw [hsplit]
  exact if_pos h

/-- A payload with whitespace before its first `=` is a text. -/
theorem parsePayload_text {key value : Text} (hkey : '=' ∉ key) (hspace : ' ' ∈ key) :
    parsePayload (key ++ '=' :: value) = .text (key ++ '=' :: value) := by
  have hsplit : splitOnce '=' (key ++ '=' :: value) = some (key, value) :=
    splitOnce_eq_some_iff.mpr ⟨rfl, hkey⟩
  have hany : key.any isWhitespace = true := List.any_eq_true.mpr ⟨' ', hspace, by decide⟩
  unfold parsePayload
  rw [hsplit]
  exact if_neg fun h => h.2 hany

/-! ## Reading an encoded line -/

/-- A line is split off at the first newline. -/
theorem splitLine_append {line : List UInt8} (h : 10 ∉ line) (rest : List UInt8) :
    splitLine (line ++ 10 :: rest) = some (line ++ [10], rest) := by
  induction line with
  | nil => rfl
  | cons byte line ih =>
    rw [List.mem_cons, not_or] at h
    rw [List.cons_append, splitLine, if_neg (Ne.symm h.1), ih h.2]
    rfl

/-- A line has no line end to trim. -/
theorem IsLine.rdropWhile {line : Text} (h : IsLine line) : line.rdropWhile isLineEnd = line :=
  List.rdropWhile_eq_self_iff.mpr fun hne => by simp [h _ (List.getLast_mem hne)]

/-- An encoded line is read back. -/
theorem readProtocolLine_encodeLine {line : Text} (hline : IsLine line) (rest : List UInt8)
    (ending : StreamEnd) :
    readProtocolLine ⟨encodeLine line ++ rest, ending⟩ = (.ok (some line), ⟨rest, ending⟩) := by
  have hencode : encodeUtf8 line ++ [13, 10] = encodeUtf8 (line ++ ['\r', '\n']) := by
    rw [encodeUtf8_append]
    rfl
  -- The only newline of the encoded line is its last byte.
  have hnewline : 10 ∉ encodeUtf8 line ++ [13] := by
    have hnot : '\n' ∉ line := fun hmem => by simpa [isLineEnd] using hline _ hmem
    have hbyte : (10 : UInt8) ∉ encodeUtf8 line :=
      fun hmem => hnot ((mem_encodeUtf8_iff (c := '\n') (by decide)).mp hmem)
    simpa using hbyte
  have hsplit : splitLine (encodeLine line ++ rest) = some (encodeLine line, rest) := by
    have h := splitLine_append hnewline rest
    simpa [encodeLine] using h
  have hread : Reader.readLine ⟨encodeLine line ++ rest, ending⟩ =
      (.ok (line ++ ['\r', '\n']), ⟨rest, ending⟩) := by
    have hdecode : decodeLine (encodeLine line) = .ok (line ++ ['\r', '\n']) := by
      rw [decodeLine, encodeLine, hencode, decodeUtf8_encodeUtf8]
    simp only [Reader.readLine, hsplit, hdecode]
  -- Only the line end is trimmed, since the line itself ends in neither of its characters.
  have htrim : (line ++ ['\r', '\n']).rdropWhile isLineEnd = line := by
    rw [← List.singleton_append, ← List.append_assoc, List.rdropWhile_concat_pos _ _ _ (by decide),
      List.rdropWhile_concat_pos _ _ _ (by decide), hline.rdropWhile]
  unfold readProtocolLine
  rw [hread]
  split
  · simp_all
  · simp_all
  · simp_all

/-! ## Reading an encoded reply -/

/-- The characters of a status code are digits, and there are three of them. -/
theorem length_encodeUtf8_code (code : Fin 1000) :
    (encodeUtf8 (zeroPadded 3 code.val)).length = 3 := by
  rw [length_encodeUtf8_ascii, length_zeroPadded (by decide) code.isLt]
  intro c hmem
  have hdigit := isDigit_of_mem_zeroPadded hmem
  simp only [Char.isDigit, Bool.and_eq_true, decide_eq_true_eq] at hdigit
  exact Nat.lt_of_le_of_lt hdigit.2 (by decide)

/-- An encoded status line is read back. -/
theorem statusLine_encode (code : Fin 1000) {separator : Char} (hsep : separator ∈ [' ', '-', '+'])
    (payload : Text) :
    statusLine (zeroPadded 3 code ++ separator :: payload) =
      .ok (code.val, separator, payload) := by
  have hcode : parseUnsigned 65535 (zeroPadded 3 code.val) = some code.val :=
    parseUnsigned_zeroPadded (by omega)
  simp only [statusLine, parseStatusLine_append (length_encodeUtf8_code code), hcode, hsep, if_true,
    Option.get_some]

/-- A status line has no line break. -/
theorem isLine_status (code : Fin 1000) {separator : Char} (hsep : separator ∈ [' ', '-', '+'])
    {payload : Text} (hpayload : IsLine payload) :
    IsLine (zeroPadded 3 code ++ separator :: payload) := by
  intro c hmem
  rcases List.mem_append.mp hmem with hmem | hmem
  · have hdigit := isDigit_of_mem_zeroPadded hmem
    have hend : c ≠ '\n' ∧ c ≠ '\r' := by constructor <;> rintro rfl <;> revert hdigit <;> decide
    simpa [isLineEnd] using hend
  · rcases List.mem_cons.mp hmem with rfl | hmem
    · simp only [List.mem_cons, List.not_mem_nil, or_false] at hsep
      rcases hsep with rfl | rfl | rfl <;> decide
    · exact hpayload c hmem

/-- The next line decides how the loop over a data block goes on. -/
theorem readData_of_line {r r' : Reader} {line : Text}
    (h : readProtocolLine r = (.ok (some line), r'))
    (data : List Text) :
    readData r data =
      if line = ['.'] then (.ok data, r') else readData r' (data ++ [unstuff line]) := by
  rw [readData]
  split <;> simp_all

/-- The next line decides how the loop over a reply goes on. -/
theorem readLines_line {r r' : Reader} {line : Text}
    (h : readProtocolLine r = (.ok (some line), r')) (code : ℕ) (lines : List ControlLine) :
    readLines r code lines =
      match statusLine line with
      | .error error => (.error error, r')
      | .ok (lineCode, separator, payload) =>
        if lineCode ≠ code then (.error (.protocol (.statusChanged code lineCode)), r')
        else
          match consumeLine r' separator payload lines with
          | (.error error, r) => (.error error, r)
          | (.ok lines, r) =>
            if separator = ' ' then (.ok ⟨code, lines⟩, r) else readLines r code lines := by
  rw [readLines]
  split
  · simp_all
  · simp_all
  · next line' r'' hread =>
    obtain ⟨rfl, rfl⟩ : line' = line ∧ r'' = r' := by simpa [hread] using h
    cases statusLine line' with
    | error error => rfl
    | ok status =>
      obtain ⟨lineCode, separator, payload⟩ := status
      by_cases hcode : lineCode ≠ code
      · simp only [if_pos hcode]
      · simp only [if_neg hcode]
        split <;> simp_all

/-- A status line with the reply's code is consumed. -/
theorem readLines_of_line {r r' : Reader} {line payload : Text} {code : ℕ} {separator : Char}
    (h : readProtocolLine r = (.ok (some line), r'))
    (hstatus : statusLine line = .ok (code, separator, payload)) (lines : List ControlLine) :
    readLines r code lines =
      match consumeLine r' separator payload lines with
      | (.error error, r) => (.error error, r)
      | (.ok lines, r) =>
        if separator = ' ' then (.ok ⟨code, lines⟩, r) else readLines r code lines := by
  simp only [readLines_line h, hstatus, ne_eq, not_true_eq_false, if_false]

/-- A reply is read as its lines are, with the code of the first one. -/
theorem readReply_of_line {r r' : Reader} {line payload : Text} {code : ℕ} {separator : Char}
    (h : readProtocolLine r = (.ok (some line), r'))
    (hstatus : statusLine line = .ok (code, separator, payload)) :
    readReply r = ((readLines r code []).1.map some, (readLines r code []).2) := by
  simp only [readReply, readLines_of_line h hstatus, h, hstatus]
  rcases consumeLine r' separator payload [] with ⟨error | lines, r''⟩
  · rfl
  · by_cases hsep : separator = ' '
    · simp [hsep, Except.map]
    · simp only [hsep, if_false]
      rcases readLines r'' code lines with ⟨error | reply, r'''⟩ <;> rfl

/-- The next line is a status line. -/
def Reads (r : Reader) (code : ℕ) (separator : Char) (payload : Text) (r' : Reader) : Prop :=
  ∃ line, readProtocolLine r = (.ok (some line), r') ∧
    statusLine line = .ok (code, separator, payload)

/-- The next line cannot be read, or is not a status line. -/
def Fails (r : Reader) : Prop :=
  (∃ error r', readProtocolLine r = (.error error, r')) ∨
    ∃ line r' error, readProtocolLine r = (.ok (some line), r') ∧ statusLine line = .error error

/-- Without a status line, there is no reply, neither at its first line nor at a later one. -/
theorem Fails.error {r : Reader} (h : Fails r) :
    (∃ error, (readReply r).1 = .error error) ∧
      ∀ code lines, ∃ error, (readLines r code lines).1 = .error error := by
  rcases h with ⟨error, r', hread⟩ | ⟨line, r', error, hread, hstatus⟩
  · refine ⟨⟨error, by simp only [readReply, hread]⟩, fun code lines => ⟨error, ?_⟩⟩
    rw [readLines]
    split <;> simp_all
  · refine ⟨⟨error, by simp only [readReply, hread, hstatus]⟩, fun code lines => ⟨error, ?_⟩⟩
    simp only [readLines_line hread, hstatus]

/-- A line of a data block stays a line, is not the last one, and is read back. -/
theorem stuff_spec {line : Text} (hline : IsLine line) :
    IsLine (stuff line) ∧ stuff line ≠ ['.'] ∧ unstuff (stuff line) = line := by
  cases line with
  | nil => exact ⟨hline, by decide, rfl⟩
  | cons c cs =>
    -- Only a leading dot is doubled.
    by_cases hc : c = '.'
    · subst hc
      refine ⟨?_, by simp [stuff], by simp [stuff, unstuff, stripPrefix]⟩
      intro d hmem
      rcases List.mem_cons.mp hmem with rfl | hmem
      · decide
      · exact hline d hmem
    · have hstuff : stuff (c :: cs) = c :: cs := if_neg (by simpa using hc)
      rw [hstuff]
      refine ⟨hline, by simp [hc], ?_⟩
      simp [unstuff, stripPrefix, Ne.symm hc]

/-- An encoded data block is read back. -/
theorem readData_encode (content : List Line) (rest : List UInt8) (ending : StreamEnd)
    (data : List Text) :
    readData ⟨encodeData content ++ rest, ending⟩ data =
      (.ok (data ++ content.map (·.val)), ⟨rest, ending⟩) := by
  induction content generalizing data with
  | nil =>
    -- The line with the dot alone ends the block.
    have hdot := readProtocolLine_encodeLine (show IsLine ['.'] by decide) rest ending
    simpa [encodeData] using readData_of_line hdot data
  | cons line content ih =>
    obtain ⟨hline, hne, hunstuff⟩ := stuff_spec line.property
    have hcons : encodeData (line :: content) ++ rest =
        encodeLine (stuff line.val) ++ (encodeData content ++ rest) := by
      simp [encodeData]
    rw [hcons, readData_of_line (readProtocolLine_encodeLine hline _ _), if_neg hne, hunstuff, ih]
    simp

/-- The separator of an item's status line. -/
def ReplyItem.separator : ReplyItem → Char
  | .line _ => '-'
  | .data _ _ => '+'

/-- The payload of an item's status line. -/
def ReplyItem.payload : ReplyItem → Text
  | .line payload => payload
  | .data key _ => key.val ++ ['=']

/-- What follows an item's status line. -/
def ReplyItem.body : ReplyItem → List UInt8
  | .line _ => []
  | .data _ content => encodeData content

/-- The line that `read_reply` makes of an item. -/
def ReplyItem.read : ReplyItem → ControlLine
  | .line payload => parsePayload payload
  | .data key content => .data key (['\n'].intercalate (content.map (·.val)))

/-- An item is a status line and what follows it. -/
theorem ReplyItem.encode_eq (code : Fin 1000) (item : ReplyItem) :
    item.encode code = encodeStatus code item.separator item.payload ++ item.body := by
  cases item with
  | line => exact (List.append_nil _).symm
  | data => rfl

/-- The separator of an item is one that a status line can have. -/
theorem ReplyItem.separator_mem (item : ReplyItem) : item.separator ∈ [' ', '-', '+'] := by
  cases item <;> simp [separator]

/-- The payload of an item has no line break. -/
theorem ReplyItem.isLine_payload (item : ReplyItem) : IsLine item.payload := by
  cases item with
  | line payload => exact payload.property
  | data key content =>
    intro c hmem
    rcases List.mem_append.mp hmem with hmem | hmem
    · exact key.property c hmem
    · obtain rfl := List.mem_singleton.mp hmem
      decide

/-- What follows an item's status line is read into the item's line. -/
theorem consumeLine_item (item : ReplyItem) (rest : List UInt8) (ending : StreamEnd)
    (lines : List ControlLine) :
    consumeLine ⟨item.body ++ rest, ending⟩ item.separator item.payload lines =
      (.ok (lines ++ [item.read]), ⟨rest, ending⟩) := by
  cases item with
  | line payload => rfl
  | data key content =>
    have hkey : stripSuffix ['='] (key.val ++ ['=']) = some key.val := by simp [stripSuffix]
    simp only [consumeLine, ReplyItem.separator, ReplyItem.payload, ReplyItem.body, ReplyItem.read,
      readData_encode, hkey, if_true, Option.getD_some, List.nil_append]

/-- The line of an item is the one that it stands for. -/
theorem ReplyItem.itemLine_read (item : ReplyItem) : ItemLine item item.read := by
  cases item with
  | line payload => exact .line (payloadLine_parsePayload payload)
  | data => exact .data

/-- An encoded status line is read back, with what follows it left. -/
theorem readProtocolLine_encodeStatus (code : Fin 1000) {separator : Char}
    (hsep : separator ∈ [' ', '-', '+']) {payload : Text} (hpayload : IsLine payload)
    (rest : List UInt8) (ending : StreamEnd) :
    readProtocolLine ⟨encodeStatus code separator payload ++ rest, ending⟩ =
      (.ok (some (zeroPadded 3 code ++ separator :: payload)), ⟨rest, ending⟩) :=
  readProtocolLine_encodeLine (isLine_status code hsep hpayload) rest ending

/-- An item is read, and the loop over the lines goes on after it. -/
theorem readLines_item (code : Fin 1000) (item : ReplyItem) (rest : List UInt8)
    (ending : StreamEnd) (lines : List ControlLine) :
    readLines ⟨item.encode code ++ rest, ending⟩ code lines =
      readLines ⟨rest, ending⟩ code (lines ++ [item.read]) := by
  have hsep := item.separator_mem
  -- An item is not the last line.
  have hne : item.separator ≠ ' ' := by cases item <;> simp [ReplyItem.separator]
  rw [item.encode_eq, List.append_assoc,
    readLines_of_line (readProtocolLine_encodeStatus code hsep item.isLine_payload _ _)
      (statusLine_encode code hsep _),
    consumeLine_item]
  simp only [hne, if_false]

/-- The lines of an encoded reply are read back, one for each item and one for the last line. -/
theorem readLines_encode (code : Fin 1000) (items : List ReplyItem) (final : Line)
    (rest : List UInt8) (ending : StreamEnd) (lines : List ControlLine) :
    readLines ⟨items.flatMap (·.encode code) ++ encodeStatus code ' ' final ++ rest, ending⟩ code
        lines =
      (.ok ⟨code, lines ++ items.map (·.read) ++ [parsePayload final]⟩, ⟨rest, ending⟩) := by
  induction items generalizing lines with
  | nil =>
    have hspace : ' ' ∈ [' ', '-', '+'] := by decide
    have hline := readProtocolLine_encodeStatus code hspace final.property rest ending
    rw [List.flatMap_nil, List.nil_append,
      readLines_of_line hline (statusLine_encode code (by decide) _)]
    simp [consumeLine]
  | cons item items ih =>
    rw [List.flatMap_cons, List.append_assoc, List.append_assoc, readLines_item,
      ← List.append_assoc, ih]
    simp

/-- An encoded reply starts with a status line with its code. -/
theorem WireReply.encode_eq (reply : WireReply) :
    ∃ separator ∈ [' ', '-', '+'], ∃ payload rest, IsLine payload ∧
      reply.encode = encodeStatus reply.code separator payload ++ rest := by
  obtain ⟨code, items, final⟩ := reply
  cases items with
  | nil => exact ⟨' ', by decide, final, [], final.property, by simp [encode]⟩
  | cons item items =>
    refine ⟨item.separator, item.separator_mem, item.payload,
      item.body ++ (items.flatMap (·.encode code) ++ encodeStatus code ' ' final),
      item.isLine_payload, ?_⟩
    rw [encode, List.flatMap_cons, item.encode_eq, List.append_assoc, List.append_assoc]

/-- The reply that `read_reply` makes of what the server has sent. -/
def WireReply.read (sent : WireReply) : ControlReply :=
  ⟨sent.code, sent.items.map (·.read) ++ [parsePayload sent.final]⟩

/-- The reply is the one that the server has sent. -/
theorem WireReply.isReply_read (sent : WireReply) : IsReply sent sent.read := by
  refine ⟨rfl, List.rel_append ?_ (.cons (.line (payloadLine_parsePayload _)) .nil)⟩
  exact List.forall₂_map_right_iff.mpr (List.forall₂_same.mpr fun item _ => item.itemLine_read)

/-- An encoded reply is read back, with what follows it left. -/
theorem readReply_of_encode (sent : WireReply) (rest : List UInt8) (ending : StreamEnd) :
    readReply ⟨sent.encode ++ rest, ending⟩ = (.ok (some sent.read), ⟨rest, ending⟩) := by
  obtain ⟨separator, hsep, payload, rest', hpayload, hencode⟩ := sent.encode_eq
  have hline := readProtocolLine_encodeStatus sent.code hsep hpayload (rest' ++ rest) ending
  have hlines := readLines_encode sent.code sent.items sent.final rest ending []
  rw [← List.append_assoc, ← hencode] at hline
  rw [readReply_of_line hline (statusLine_encode sent.code hsep payload), WireReply.encode, hlines]
  rfl

/-- Whatever follows an encoded reply in the stream, `read_reply` returns its code and one line for
each of its items and for its last line, and leaves exactly what follows. -/
theorem readReply_encode (sent : WireReply) (rest : List UInt8) (ending : StreamEnd) :
    ∃ reply,
      readReply ⟨sent.encode ++ rest, ending⟩ = (.ok (some reply), ⟨rest, ending⟩) ∧
        IsReply sent reply :=
  ⟨sent.read, readReply_of_encode sent rest ending, sent.isReply_read⟩

end Torlane
