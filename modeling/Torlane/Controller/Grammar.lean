import Torlane.Controller.RoundTrip

/-!
# The grammar of replies

What `read_reply` accepts on a stream of whole lines. `StartsReply` says what the lines of a reply
look like, with the code of each status line as it is written. The protocol writes a code with three
digits. The number parser that `parse_status_line` uses takes a plus sign, too, so that a code may
also be written with a plus sign and two digits: `readReply_iff` is what is accepted, and
`acceptsGrammar_iff` says when that is the grammar. Where it is not, there is such a sign.
-/

namespace Torlane

open Text

/-! ## Lines and codes -/

/-- A text without a newline. -/
abbrev RawLine := { text : Text // '\n' ∉ text }

/-- The line without the line ends that it ends in. -/
def RawLine.trimmed (line : RawLine) : Text := line.val.rdropWhile isLineEnd

/-- The lines, each with a newline. -/
def streamLines (lines : List RawLine) : List UInt8 :=
  lines.flatMap fun line => encodeUtf8 (line.val ++ ['\n'])

/-- The number, written with three digits. -/
def IsCode (n : ℕ) (written : Text) : Prop :=
  written.length = 3 ∧ (∀ c ∈ written, c.isDigit = true) ∧ Nat.ofDigitChars 10 written 0 = n

/-- The number, written with a plus sign and two digits. -/
def IsSignedCode (n : ℕ) (written : Text) : Prop :=
  ∃ digits, written = '+' :: digits ∧ digits.length = 2 ∧ (∀ c ∈ digits, c.isDigit = true) ∧
    Nat.ofDigitChars 10 digits 0 = n

/-- The number, written in a way that is read as it. -/
def Spells (n : ℕ) (written : Text) : Prop := IsCode n written ∨ IsSignedCode n written

/-- The lines start with a reply whose status lines have these codes: lines with a hyphen after the
code, lines with a plus sign, each of which a data block follows, and one line with a space. -/
inductive StartsReply : List Text → List Text → Prop
  | final {code payload rest} (hcode : (encodeUtf8 code).length = 3) :
      StartsReply ((code ++ ' ' :: payload) :: rest) [code]
  | line {code payload lines codes} (hcode : (encodeUtf8 code).length = 3)
      (h : StartsReply lines codes) :
      StartsReply ((code ++ '-' :: payload) :: lines) (code :: codes)
  | data {code payload content lines codes} (hcode : (encodeUtf8 code).length = 3)
      (hcontent : ['.'] ∉ content) (h : StartsReply lines codes) :
      StartsReply ((code ++ '+' :: payload) :: (content ++ ['.'] :: lines)) (code :: codes)

/-- The lines start with a reply of the grammar, with the number as its code and as many status
lines. -/
def Grammar (lines : List Text) (n count : ℕ) : Prop :=
  ∃ codes, StartsReply lines codes ∧ codes.length = count ∧ ∀ written ∈ codes, IsCode n written

/-- A digit is encoded as one byte. -/
theorem toNat_lt_of_isDigit {c : Char} (h : c.isDigit = true) : c.toNat < 128 := by
  simp only [Char.isDigit, Bool.and_eq_true, decide_eq_true_eq] at h
  exact Nat.lt_of_le_of_lt h.2 (by decide)

/-- A text of three bytes is read as a number if it is written in one of the two ways. -/
theorem parseUnsigned_code_iff {n : ℕ} {written : Text} (hlen : (encodeUtf8 written).length = 3) :
    parseUnsigned 65535 written = some n ↔ Spells n written := by
  unfold Spells
  have hascii {digits : Text} (hdigits : ∀ c ∈ digits, c.isDigit = true) :
      (encodeUtf8 digits).length = digits.length :=
    length_encodeUtf8_ascii fun c hc => toNat_lt_of_isDigit (hdigits c hc)
  have hplus : (String.utf8EncodeChar '+').length = 1 := by decide
  rw [parseUnsigned_eq_some_iff]
  constructor
  · rintro ⟨-, digits, -, rfl | rfl, hdigits, hvalue⟩
    · left
      exact ⟨by rw [← hascii hdigits, hlen], hdigits, hvalue⟩
    · right
      rw [encodeUtf8_cons, List.length_append, hplus, hascii hdigits] at hlen
      exact ⟨digits, rfl, by omega, hdigits, hvalue⟩
  · have hmax {digits : Text} (hshort : digits.length ≤ 3)
        (hdigits : ∀ c ∈ digits, c.isDigit = true) : Nat.ofDigitChars 10 digits 0 ≤ 65535 := by
      have hlt : Nat.ofDigitChars 10 digits 0 < (0 + 1) * 10 ^ digits.length :=
        ofDigitChars_lt hdigits
      have hpow : 10 ^ digits.length ≤ 10 ^ 3 := Nat.pow_le_pow_right (by decide) hshort
      omega
    rintro (⟨hthree, hdigits, rfl⟩ | ⟨digits, rfl, htwo, hdigits, rfl⟩)
    · refine ⟨hmax (by omega) hdigits, written, ?_, .inl rfl, hdigits, rfl⟩
      rintro rfl
      cases hthree
    · refine ⟨hmax (by omega) hdigits, digits, ?_, .inr rfl, hdigits, rfl⟩
      rintro rfl
      cases htwo

/-- `parse_status_line` accepts a code that is read as a number, and one of the three separators
behind it. -/
theorem statusLine_eq_ok_iff {line payload : Text} {code : ℕ} {separator : Char} :
    statusLine line = .ok (code, separator, payload) ↔
      ∃ written, line = written ++ separator :: payload ∧ (encodeUtf8 written).length = 3 ∧
        Spells code written ∧ separator ∈ [' ', '-', '+'] := by
  constructor
  · intro h
    by_cases hmalformed : (encodeUtf8 line).length < 4 ∨ ¬ isCharBoundary line 3
    · have hparse : parseStatusLine line =
          some (.error (.protocol (.malformedStatusLine line))) := by
        rw [parseStatusLine, if_pos hmalformed]
      simp only [statusLine, hparse, Option.get_some] at h
      cases h
    · obtain ⟨written, c, post, rfl, hlen⟩ := exists_of_not_malformed hmalformed
      simp only [statusLine, parseStatusLine_append hlen, Option.get_some] at h
      cases hcode : parseUnsigned 65535 written with
      | none => simp [hcode] at h
      | some n =>
        simp only [hcode] at h
        split at h
        · next hsep =>
          cases h
          exact ⟨written, rfl, hlen, (parseUnsigned_code_iff hlen).mp hcode, hsep⟩
        · cases h
  · rintro ⟨written, rfl, hlen, hcode, hsep⟩
    simp only [statusLine, parseStatusLine_append hlen, (parseUnsigned_code_iff hlen).mpr hcode,
      hsep, if_true, Option.get_some]

/-! ## Whole lines -/

/-- A whole line is read without its line end. -/
theorem readProtocolLine_stream (line : RawLine) (lines : List RawLine) (ending : StreamEnd) :
    readProtocolLine ⟨streamLines (line :: lines), ending⟩ =
      (.ok (some line.trimmed), ⟨streamLines lines, ending⟩) := by
  have hnewline : (10 : UInt8) ∉ encodeUtf8 line.val :=
    fun hmem => line.property ((mem_encodeUtf8_iff (c := '\n') (by decide)).mp hmem)
  have hencode : encodeUtf8 (line.val ++ ['\n']) = encodeUtf8 line.val ++ [10] := by
    rw [encodeUtf8_append]
    rfl
  have hcons : streamLines (line :: lines) = encodeUtf8 line.val ++ 10 :: streamLines lines := by
    rw [streamLines, List.flatMap_cons, hencode, List.append_assoc]
    rfl
  have hsplit : splitLine (streamLines (line :: lines)) =
      some (encodeUtf8 (line.val ++ ['\n']), streamLines lines) := by
    rw [hcons, hencode]
    exact splitLine_append hnewline (streamLines lines)
  have htrim : (line.val ++ ['\n']).rdropWhile isLineEnd = line.trimmed :=
    List.rdropWhile_concat_pos _ _ _ (by decide)
  unfold readProtocolLine
  simp only [Reader.readLine, hsplit, decodeLine, decodeUtf8_encodeUtf8]
  split <;> simp_all

/-- Without a further line, a data block and a reply are not complete. -/
theorem read_end (ending : StreamEnd) :
    (∀ data, ∃ error r, readData ⟨streamLines [], ending⟩ data = (.error error, r)) ∧
      ∀ code lines, ∃ error, (readLines ⟨streamLines [], ending⟩ code lines).1 = .error error := by
  have hline : (∃ r, readProtocolLine ⟨streamLines [], ending⟩ = (.ok none, r)) ∨
      ∃ error r, readProtocolLine ⟨streamLines [], ending⟩ = (.error error, r) := by
    cases ending with
    | eof =>
      have hdecode : decodeUtf8 [] = some [] := decodeUtf8_encodeUtf8 []
      exact .inl ⟨⟨[], .eof⟩, by
        simp [streamLines, readProtocolLine, Reader.readLine, splitLine, decodeLine, hdecode]⟩
    | failed error => exact .inr ⟨.io error, ⟨[], .failed error⟩, rfl⟩
  constructor
  · intro data
    rw [readData]
    rcases hline with ⟨r, hline⟩ | ⟨error, r, hline⟩
    · split <;> simp_all
    · split <;> simp_all
  · intro code lines
    rw [readLines]
    rcases hline with ⟨r, hline⟩ | ⟨error, r, hline⟩
    · split <;> simp_all
    · split <;> simp_all

/-- A data block ends at the first line that is a dot. -/
theorem readData_block (content : List RawLine) {dot : RawLine} (rest : List RawLine)
    (ending : StreamEnd) (hcontent : ['.'] ∉ content.map (·.trimmed)) (hdot : dot.trimmed = ['.'])
    (data : List Text) :
    ∃ data', readData ⟨streamLines (content ++ dot :: rest), ending⟩ data =
      (.ok data', ⟨streamLines rest, ending⟩) := by
  induction content generalizing data with
  | nil =>
    refine ⟨data, ?_⟩
    rw [List.nil_append, readData_of_line (readProtocolLine_stream dot rest ending), if_pos hdot]
  | cons line content ih =>
    rw [List.map_cons, List.mem_cons, not_or] at hcontent
    rw [List.cons_append, readData_of_line (readProtocolLine_stream line _ ending),
      if_neg (Ne.symm hcontent.1)]
    exact ih hcontent.2 _

/-- A data block without such a line does not end. -/
theorem readData_endless (content : List RawLine) (ending : StreamEnd)
    (hcontent : ['.'] ∉ content.map (·.trimmed)) (data : List Text) :
    ∃ error r, readData ⟨streamLines content, ending⟩ data = (.error error, r) := by
  induction content generalizing data with
  | nil => exact (read_end ending).1 data
  | cons line content ih =>
    rw [List.map_cons, List.mem_cons, not_or] at hcontent
    rw [readData_of_line (readProtocolLine_stream line content ending),
      if_neg (Ne.symm hcontent.1)]
    exact ih hcontent.2 _

/-- The lines contain the end of a data block, and it is the first one, or they do not. -/
theorem exists_block {lines : List RawLine} (h : ['.'] ∈ lines.map (·.trimmed)) :
    ∃ content dot rest, lines = content ++ dot :: rest ∧ ['.'] ∉ content.map (·.trimmed) ∧
      dot.trimmed = ['.'] := by
  obtain ⟨content, rest, heq, hcontent⟩ := List.eq_append_cons_of_mem h
  obtain ⟨content', rest', rfl, rfl, hrest⟩ := List.map_eq_append_iff.mp heq
  obtain ⟨dot, rest'', rfl, hdot, -⟩ := List.map_eq_cons_iff.mp hrest
  exact ⟨content', dot, rest'', rfl, hcontent, hdot⟩

/-! ## Replies -/

/-- A status line with another code than the reply's is an error. -/
theorem readLines_changed {r r' : Reader} {line payload : Text} {code lineCode : ℕ}
    {separator : Char} (hread : readProtocolLine r = (.ok (some line), r'))
    (hstatus : statusLine line = .ok (lineCode, separator, payload)) (hne : lineCode ≠ code)
    (lines : List ControlLine) : ∃ error, (readLines r code lines).1 = .error error := by
  exact ⟨.protocol (.statusChanged code lineCode), by
    simp only [readLines_line hread, hstatus, if_pos hne]⟩

/-- What follows a status line: a data block behind a plus sign, and nothing else. -/
def Follows (separator : Char) (lines rest : List RawLine) : Prop :=
  if separator = '+' then ∃ content dot, lines = content ++ dot :: rest ∧
    ['.'] ∉ content.map (·.trimmed) ∧ dot.trimmed = ['.']
  else lines = rest

/-- A status line is consumed with what follows it. -/
theorem consumeLine_stream {separator : Char} {payload : Text} {lines rest : List RawLine}
    (hfollows : Follows separator lines rest) (ending : StreamEnd) (acc : List ControlLine) :
    ∃ line, consumeLine ⟨streamLines lines, ending⟩ separator payload acc =
      (.ok (acc ++ [line]), ⟨streamLines rest, ending⟩) := by
  unfold Follows at hfollows
  unfold consumeLine
  split_ifs at hfollows ⊢
  · obtain ⟨content, dot, rfl, hcontent, hdot⟩ := hfollows
    obtain ⟨data, hdata⟩ := readData_block content rest ending hcontent hdot []
    simp only [hdata]
    exact ⟨_, rfl⟩
  · exact ⟨_, by rw [hfollows]⟩

/-- Where nothing is left of a status line, something must follow it. -/
theorem follows_of_consumeLine {separator : Char} {payload : Text} {lines : List RawLine}
    {ending : StreamEnd} {acc acc' : List ControlLine} {r : Reader}
    (h : consumeLine ⟨streamLines lines, ending⟩ separator payload acc = (.ok acc', r)) :
    ∃ rest, Follows separator lines rest := by
  unfold Follows
  unfold consumeLine at h
  split_ifs at h ⊢
  · by_cases hdot : ['.'] ∈ lines.map (·.trimmed)
    · obtain ⟨content, dot, rest, hlines⟩ := exists_block hdot
      exact ⟨rest, content, dot, hlines⟩
    · obtain ⟨error, r', hdata⟩ := readData_endless lines ending hdot []
      simp [hdata] at h
  · exact ⟨lines, rfl⟩

/-- The rest of the lines is no longer than the lines. -/
theorem Follows.length_le {separator : Char} {lines rest : List RawLine}
    (h : Follows separator lines rest) : rest.length ≤ lines.length := by
  unfold Follows at h
  split_ifs at h
  · obtain ⟨content, dot, rfl, -⟩ := h
    simp
    omega
  · rw [h]

/-- A status line, what follows it, and a reply make a reply. -/
theorem Follows.startsReply {separator : Char} {payload written : Text} {codes : List Text}
    {lines rest : List RawLine} (h : Follows separator lines rest)
    (hsep : separator ∈ [' ', '-', '+']) (hspace : separator ≠ ' ')
    (hlen : (encodeUtf8 written).length = 3) (hstarts : StartsReply (rest.map (·.trimmed)) codes) :
    StartsReply ((written ++ separator :: payload) :: lines.map (·.trimmed))
      (written :: codes) := by
  unfold Follows at h
  split_ifs at h with hplus
  · obtain ⟨content, dot, rfl, hcontent, hdot⟩ := h
    rw [hplus, List.map_append, List.map_cons, hdot]
    exact .data hlen hcontent hstarts
  · obtain rfl : separator = '-' := by simpa [hplus, hspace] using hsep
    rw [h]
    exact .line hlen hstarts

/-- The loop over the lines goes on behind what follows a status line that is not the last one. -/
theorem readLines_follows {line : RawLine} {lines rest : List RawLine} {code : ℕ}
    {separator : Char} {payload : Text}
    (hstatus : statusLine line.trimmed = .ok (code, separator, payload)) (hspace : separator ≠ ' ')
    (hfollows : Follows separator lines rest) (ending : StreamEnd) (acc : List ControlLine) :
    ∃ read, readLines ⟨streamLines (line :: lines), ending⟩ code acc =
      readLines ⟨streamLines rest, ending⟩ code (acc ++ [read]) := by
  obtain ⟨read, hconsume⟩ : ∃ read, consumeLine ⟨streamLines lines, ending⟩ separator payload acc =
      (.ok (acc ++ [read]), ⟨streamLines rest, ending⟩) := consumeLine_stream hfollows ending acc
  refine ⟨read, ?_⟩
  rw [readLines_of_line (readProtocolLine_stream line lines ending) hstatus, hconsume]
  simp only [if_neg hspace]

/-- What the loop over the lines accepts starts with a reply. -/
theorem startsReply_of_readLines {code : ℕ} {ending : StreamEnd} {lines : List RawLine}
    {acc : List ControlLine} {reply : ControlReply}
    (h : (readLines ⟨streamLines lines, ending⟩ code acc).1 = .ok reply) :
    ∃ codes, StartsReply (lines.map (·.trimmed)) codes ∧
      ∀ written ∈ codes, Spells code written := by
  induction hk : lines.length using Nat.strong_induction_on generalizing lines acc with
  | _ k ih =>
    subst hk
    cases lines with
    | nil =>
      obtain ⟨error, herror⟩ := (read_end ending).2 code acc
      rw [h] at herror
      cases herror
    | cons line lines =>
      have hread := readProtocolLine_stream line lines ending
      cases hstatus : statusLine line.trimmed with
      | error error =>
        have hfails : Fails ⟨streamLines (line :: lines), ending⟩ :=
          .inr ⟨_, _, error, hread, hstatus⟩
        obtain ⟨error, herror⟩ := hfails.error.2 code acc
        rw [h] at herror
        cases herror
      | ok status =>
        obtain ⟨lineCode, separator, payload⟩ := status
        obtain rfl : lineCode = code := by
          by_contra hne
          obtain ⟨error, herror⟩ := readLines_changed hread hstatus hne acc
          rw [h] at herror
          cases herror
        obtain ⟨written, hline, hlen, hspells, hsep⟩ := statusLine_eq_ok_iff.mp hstatus
        rw [List.map_cons, hline]
        by_cases hspace : separator = ' '
        · subst hspace
          exact ⟨[written], .final hlen, by simpa using hspells⟩
        · -- The loop goes on behind what follows the line.
          obtain ⟨rest, hfollows⟩ : ∃ rest, Follows separator lines rest := by
            rcases hconsume : consumeLine ⟨streamLines lines, ending⟩ separator payload acc with
              ⟨error | acc', r⟩
            · simp [readLines_of_line hread hstatus, hconsume] at h
            · exact follows_of_consumeLine hconsume
          obtain ⟨read, hnext⟩ := readLines_follows hstatus hspace hfollows ending acc
          rw [hnext] at h
          have hlt : rest.length < (line :: lines).length := by
            have hle := hfollows.length_le
            simp only [List.length_cons]
            omega
          obtain ⟨codes, hstarts, hcodes⟩ := ih rest.length hlt h rfl
          refine ⟨written :: codes, hfollows.startsReply hsep hspace hlen hstarts, ?_⟩
          simpa using ⟨hspells, hcodes⟩

/-- The loop over the lines accepts every reply, with one line for each status line. -/
theorem readLines_of_startsReply {n : ℕ} {texts codes : List Text} (h : StartsReply texts codes)
    (hcodes : ∀ written ∈ codes, Spells n written) (lines : List RawLine)
    (hlines : lines.map (·.trimmed) = texts) (ending : StreamEnd) (acc : List ControlLine) :
    ∃ reply, (readLines ⟨streamLines lines, ending⟩ n acc).1 = .ok reply ∧ reply.code = n ∧
      reply.lines.length = acc.length + codes.length := by
  -- A line that is not the last one is accepted with the reply behind what follows it.
  have hnext {code payload : Text} {codes : List Text} {separator : Char} {line : RawLine}
      {lines rest : List RawLine} {acc : List ControlLine}
      (hline : line.trimmed = code ++ separator :: payload)
      (hlen : (encodeUtf8 code).length = 3) (hspells : Spells n code)
      (hsep : separator ∈ [' ', '-', '+']) (hspace : separator ≠ ' ')
      (hfollows : Follows separator lines rest)
      (ih : ∀ acc, ∃ reply, (readLines ⟨streamLines rest, ending⟩ n acc).1 = .ok reply ∧
        reply.code = n ∧ reply.lines.length = acc.length + codes.length) :
      ∃ reply, (readLines ⟨streamLines (line :: lines), ending⟩ n acc).1 = .ok reply ∧
        reply.code = n ∧ reply.lines.length = acc.length + (code :: codes).length := by
    have hstatus : statusLine line.trimmed = .ok (n, separator, payload) :=
      statusLine_eq_ok_iff.mpr ⟨code, hline, hlen, hspells, hsep⟩
    obtain ⟨read, hread⟩ := readLines_follows hstatus hspace hfollows ending acc
    obtain ⟨reply, hreply, hcode, hcount⟩ := ih (acc ++ [read])
    refine ⟨reply, by rw [hread, hreply], hcode, ?_⟩
    have hlength : (acc ++ [read]).length = acc.length + 1 := List.length_append
    simp only [List.length_cons]
    omega
  induction h generalizing lines acc with
  | @final code payload rest hlen =>
    obtain ⟨line, lines, rfl, hline, -⟩ := List.map_eq_cons_iff.mp hlines
    have hstatus : statusLine line.trimmed = .ok (n, ' ', payload) :=
      statusLine_eq_ok_iff.mpr ⟨code, hline, hlen, hcodes code List.mem_cons_self, by decide⟩
    refine ⟨⟨n, acc ++ [parsePayload payload]⟩, ?_, rfl, by simp⟩
    rw [readLines_of_line (readProtocolLine_stream line lines ending) hstatus]
    simp [consumeLine]
  | @line code payload texts codes hlen _ ih =>
    obtain ⟨line, lines, rfl, hline, hrest⟩ := List.map_eq_cons_iff.mp hlines
    have hfollows : Follows '-' lines lines := by
      unfold Follows
      rw [if_neg (by decide)]
    refine hnext hline hlen (hcodes code List.mem_cons_self) (by decide) (by decide) hfollows
      (ih (fun written hmem => hcodes written (List.mem_cons_of_mem code hmem)) lines hrest)
  | @data code payload content texts codes hlen hcontent _ ih =>
    obtain ⟨line, lines, rfl, hline, hrest⟩ := List.map_eq_cons_iff.mp hlines
    obtain ⟨content', tail, rfl, rfl, htail⟩ := List.map_eq_append_iff.mp hrest
    obtain ⟨dot, rest, rfl, hdot, hrest'⟩ := List.map_eq_cons_iff.mp htail
    have hfollows : Follows '+' (content' ++ dot :: rest) rest := by
      unfold Follows
      exact ⟨content', dot, rfl, hcontent, hdot⟩
    refine hnext hline hlen (hcodes code List.mem_cons_self) (by decide) (by decide) hfollows
      (ih (fun written hmem => hcodes written (List.mem_cons_of_mem code hmem)) rest hrest')

/-! ## Acceptance -/

/-- `read_reply` accepts the lines, with the number as the reply's code and as many lines in it. -/
def Accepts (lines : List RawLine) (ending : StreamEnd) (n count : ℕ) : Prop :=
  ∃ reply, (readReply ⟨streamLines lines, ending⟩).1 = .ok (some reply) ∧ reply.code = n ∧
    reply.lines.length = count

/-- The first line is read, and it is a status line or the reply is an error. -/
theorem readReply_first (line : RawLine) (lines : List RawLine) (ending : StreamEnd) :
    Fails ⟨streamLines (line :: lines), ending⟩ ∨
      ∃ code separator payload, statusLine line.trimmed = .ok (code, separator, payload) ∧
        (readReply ⟨streamLines (line :: lines), ending⟩).1 =
          (readLines ⟨streamLines (line :: lines), ending⟩ code []).1.map some := by
  have hread := readProtocolLine_stream line lines ending
  cases hstatus : statusLine line.trimmed with
  | error error => exact .inl (.inr ⟨_, _, error, hread, hstatus⟩)
  | ok status =>
    obtain ⟨code, separator, payload⟩ := status
    exact .inr ⟨code, separator, payload, rfl, by rw [readReply_of_line hread hstatus]⟩

/-- `read_reply` accepts the lines that start with a reply in which every code is read as the same
number. -/
theorem readReply_iff {lines : List RawLine} (hlines : lines ≠ []) (ending : StreamEnd)
    (n count : ℕ) :
    Accepts lines ending n count ↔ ∃ codes, StartsReply (lines.map (·.trimmed)) codes ∧
      codes.length = count ∧ ∀ written ∈ codes, Spells n written := by
  obtain ⟨line, lines, rfl⟩ := List.exists_cons_of_ne_nil hlines
  unfold Accepts
  rcases readReply_first line lines ending with hfails | ⟨code, separator, payload, hstatus, hreply⟩
  · obtain ⟨⟨error, herror⟩, hloop⟩ := hfails.error
    rw [herror]
    refine iff_of_false (by simp) ?_
    rintro ⟨codes, hstarts, -, hcodes⟩
    obtain ⟨reply, hok, -⟩ := readLines_of_startsReply hstarts hcodes _ rfl ending []
    obtain ⟨error', herror'⟩ := hloop n []
    rw [hok] at herror'
    cases herror'
  · rw [hreply]
    constructor
    · rintro ⟨reply, hok, rfl, rfl⟩
      cases hloop : (readLines ⟨streamLines (line :: lines), ending⟩ code []).1 with
      | error error => simp [hloop, Except.map] at hok
      | ok reply' =>
        obtain rfl : reply' = reply := by simpa [hloop, Except.map] using hok
        obtain ⟨codes, hstarts, hcodes⟩ := startsReply_of_readLines hloop
        obtain ⟨reply'', hok', hcode, hcount⟩ :=
          readLines_of_startsReply hstarts hcodes _ rfl ending []
        obtain rfl : reply' = reply'' := by simpa [hloop] using hok'
        refine ⟨codes, hstarts, ?_, hcode ▸ hcodes⟩
        simpa using hcount.symm
    · rintro ⟨codes, hstarts, rfl, hcodes⟩
      obtain ⟨reply, hok, hcode, hcount⟩ :=
        readLines_of_startsReply hstarts hcodes _ rfl ending []
      -- The first line has the code of the reply.
      obtain rfl : code = n := by
        by_contra hne
        obtain ⟨error, herror⟩ :=
          readLines_changed (readProtocolLine_stream line lines ending) hstatus hne []
        rw [hok] at herror
        cases herror
      refine ⟨reply, ?_, hcode, ?_⟩
      · rw [hok]
        rfl
      · simpa using hcount

/-- What is not accepted is an error. -/
theorem error_of_not_accepts {lines : List RawLine} (hlines : lines ≠ []) {ending : StreamEnd}
    (h : ∀ n count, ¬ Accepts lines ending n count) :
    ∃ error, (readReply ⟨streamLines lines, ending⟩).1 = .error error := by
  obtain ⟨line, lines, rfl⟩ := List.exists_cons_of_ne_nil hlines
  rcases readReply_first line lines ending with hfails | ⟨code, separator, payload, -, hreply⟩
  · exact hfails.error.1
  · cases hloop : (readLines ⟨streamLines (line :: lines), ending⟩ code []).1 with
    | error error =>
      rw [hreply, hloop]
      exact ⟨error, rfl⟩
    | ok reply =>
      rw [hloop] at hreply
      exact absurd ⟨reply, hreply, rfl, rfl⟩ (h reply.code reply.lines.length)

/-! ## Signs -/

/-- The first line of a reply, and what is behind it. -/
theorem StartsReply.exists_cons {lines codes : List Text} (h : StartsReply lines codes) :
    ∃ code separator payload rest, lines = (code ++ separator :: payload) :: rest ∧
      (encodeUtf8 code).length = 3 ∧
      ((separator = ' ' ∧ codes = [code]) ∨
        (separator = '-' ∧ ∃ codes', StartsReply rest codes' ∧ codes = code :: codes') ∨
        (separator = '+' ∧ ∃ content rest' codes', rest = content ++ ['.'] :: rest' ∧
          ['.'] ∉ content ∧ StartsReply rest' codes' ∧ codes = code :: codes')) := by
  cases h with
  | final hcode => exact ⟨_, _, _, _, rfl, hcode, .inl ⟨rfl, rfl⟩⟩
  | line hcode h => exact ⟨_, _, _, _, rfl, hcode, .inr (.inl ⟨rfl, _, h, rfl⟩)⟩
  | data hcode hcontent h =>
    exact ⟨_, _, _, _, rfl, hcode, .inr (.inr ⟨rfl, _, _, _, rfl, hcontent, h, rfl⟩)⟩

/-- A status line is split in one way. -/
theorem status_inj {code code' payload payload' : Text} {separator separator' : Char}
    (h : code ++ separator :: payload = code' ++ separator' :: payload')
    (hlen : (encodeUtf8 code).length = 3) (hlen' : (encodeUtf8 code').length = 3) :
    code = code' ∧ separator = separator' := by
  have hsplit : splitAtByte 3 (code ++ separator :: payload) = some (code, separator :: payload) :=
    splitAtByte_eq_some_iff.mpr ⟨rfl, hlen⟩
  have hsplit' := splitAtByte_eq_some_iff.mpr ⟨h, hlen'⟩
  simp only [hsplit, Option.some.injEq, Prod.mk.injEq, List.cons.injEq] at hsplit'
  exact ⟨hsplit'.1, hsplit'.2.1⟩

/-- A data block ends at its first dot. -/
theorem block_inj {content content' lines lines' : List Text}
    (h : content ++ ['.'] :: lines = content' ++ ['.'] :: lines') (hcontent : ['.'] ∉ content)
    (hcontent' : ['.'] ∉ content') : lines = lines' := by
  rcases List.append_eq_append_iff.mp h with ⟨mid, rfl, hmid⟩ | ⟨mid, rfl, hmid⟩
  · cases mid with
    | nil => exact (List.cons.inj hmid).2
    | cons line mid =>
      obtain rfl := (List.cons.inj hmid).1
      simp at hcontent'
  · cases mid with
    | nil => exact (List.cons.inj hmid).2.symm
    | cons line mid =>
      obtain rfl := (List.cons.inj hmid).1
      simp at hcontent

/-- The codes of a reply are determined by its lines. -/
theorem StartsReply.unique {lines codes codes' : List Text} (h : StartsReply lines codes)
    (h' : StartsReply lines codes') : codes = codes' := by
  induction h generalizing codes' with
  | final hcode =>
    obtain ⟨code', separator', payload', rest', heq, hcode', hcases⟩ := h'.exists_cons
    obtain ⟨rfl, rfl⟩ := status_inj (List.cons.inj heq).1 hcode hcode'
    simpa [eq_comm] using hcases
  | line hcode _ ih =>
    obtain ⟨code', separator', payload', rest', heq, hcode', hcases⟩ := h'.exists_cons
    obtain ⟨hline, rfl⟩ := List.cons.inj heq
    obtain ⟨rfl, rfl⟩ := status_inj hline hcode hcode'
    obtain ⟨codes'', hstarts, rfl⟩ := by simpa using hcases
    rw [ih hstarts]
  | @data code payload content lines codes hcode hcontent _ ih =>
    obtain ⟨code', separator', payload', rest', heq, hcode', hcases⟩ := h'.exists_cons
    obtain ⟨hline, hrest⟩ := List.cons.inj heq
    obtain ⟨rfl, rfl⟩ := status_inj hline hcode hcode'
    obtain ⟨content', rest'', codes'', hrest', hcontent', hstarts, rfl⟩ :
        ∃ content' rest'' codes'', rest' = content' ++ ['.'] :: rest'' ∧ ['.'] ∉ content' ∧
          StartsReply rest'' codes'' ∧ codes' = code :: codes'' := by
      simpa using hcases
    obtain rfl := block_inj (hrest.trans hrest') hcontent hcontent'
    rw [ih hstarts]

/-- The lines start with a reply in which a code is written with a plus sign and two digits. -/
def SignedReply (lines : List Text) : Prop :=
  ∃ codes n, StartsReply lines codes ∧ (∀ written ∈ codes, Spells n written) ∧
    ∃ written ∈ codes, IsSignedCode n written

/-- `read_reply` accepts the grammar and nothing else: what is not a reply of the grammar is an
error. -/
def AcceptsGrammar (lines : List RawLine) (ending : StreamEnd) : Prop :=
  (∀ n count, Accepts lines ending n count ↔ Grammar (lines.map (·.trimmed)) n count) ∧
    ((∀ n count, ¬ Grammar (lines.map (·.trimmed)) n count) →
      ∃ error, (readReply ⟨streamLines lines, ending⟩).1 = .error error)

/-- A code with a sign is not written with three digits. -/
theorem IsSignedCode.not_isCode {m n : ℕ} {written : Text} (h : IsSignedCode n written) :
    ¬ IsCode m written := by
  obtain ⟨digits, rfl, -⟩ := h
  rintro ⟨-, hdigits, -⟩
  have hplus := hdigits '+' List.mem_cons_self
  revert hplus
  decide

/-- No slice of a line panics, and `read_reply` accepts the grammar and nothing else if and only if
the lines do not start with a reply in which a code has a sign. -/
theorem acceptsGrammar_iff {lines : List RawLine} (hlines : lines ≠ []) (ending : StreamEnd) :
    (∀ line ∈ lines, (parseStatusLine line.trimmed).isSome) ∧
      (AcceptsGrammar lines ending ↔ ¬ SignedReply (lines.map (·.trimmed))) := by
  refine ⟨fun line _ => parseStatusLine_isSome line.trimmed, ?_, ?_⟩
  · rintro ⟨haccepts, -⟩ ⟨codes, n, hstarts, hcodes, written, hmem, hsigned⟩
    obtain ⟨codes', hstarts', -, hcodes'⟩ :=
      (haccepts n codes.length).mp
        ((readReply_iff hlines ending n _).mpr ⟨codes, hstarts, rfl, hcodes⟩)
    obtain rfl := hstarts.unique hstarts'
    exact hsigned.not_isCode (hcodes' written hmem)
  · intro hsigned
    have haccepts : ∀ n count,
        Accepts lines ending n count ↔ Grammar (lines.map (·.trimmed)) n count := by
      intro n count
      rw [readReply_iff hlines ending n count]
      constructor
      · rintro ⟨codes, hstarts, hcount, hcodes⟩
        refine ⟨codes, hstarts, hcount, fun written hmem => ?_⟩
        rcases hcodes written hmem with hcode | hcode
        · exact hcode
        · exact absurd ⟨codes, n, hstarts, hcodes, written, hmem, hcode⟩ hsigned
      · rintro ⟨codes, hstarts, hcount, hcodes⟩
        exact ⟨codes, hstarts, hcount, fun written hmem => .inl (hcodes written hmem)⟩
    refine ⟨haccepts, fun hnone => error_of_not_accepts hlines fun n count h => ?_⟩
    exact hnone n count ((haccepts n count).mp h)

/-- The line `250 OK`. -/
def okLine : RawLine := ⟨"250 OK".toList, by decide⟩

/-- The line `250 OK` is read by the grammar. -/
theorem acceptsGrammar_iff_okLine :
    (∀ line ∈ [okLine], (parseStatusLine line.trimmed).isSome) ∧ AcceptsGrammar [okLine] .eof := by
  have hlines : [okLine] ≠ [] := by decide
  obtain ⟨hslices, hiff⟩ := acceptsGrammar_iff hlines .eof
  refine ⟨hslices, hiff.mpr ?_⟩
  rintro ⟨codes, n, hstarts, -, written, hmem, hsigned⟩
  have hok : StartsReply ["250".toList ++ ' ' :: "OK".toList] ["250".toList] := .final (by decide)
  obtain rfl := hstarts.unique hok
  obtain rfl := List.mem_singleton.mp hmem
  obtain ⟨digits, heq, -⟩ := hsigned
  revert heq
  simp

/-- The line `+25 OK`. -/
def signedLine : RawLine := ⟨"+25 OK".toList, by decide⟩

/-- The line `+25 OK` is no reply of the grammar, and is read as one with the code 25. -/
theorem signed_code_accepted :
    (readReply ⟨streamLines [signedLine], .eof⟩).1 = .ok (some ⟨25, [.text "OK".toList]⟩) ∧
      (∀ n count, ¬ Grammar ([signedLine].map (·.trimmed)) n count) ∧
      ¬ AcceptsGrammar [signedLine] .eof := by
  have hsigned : IsSignedCode 25 "+25".toList := ⟨"25".toList, rfl, rfl, by simp, by decide⟩
  have hstatus : statusLine signedLine.trimmed = .ok (25, ' ', "OK".toList) :=
    statusLine_eq_ok_iff.mpr ⟨"+25".toList, rfl, by decide, .inr hsigned, by decide⟩
  have hreply : (readReply ⟨streamLines [signedLine], .eof⟩).1 =
      .ok (some ⟨25, [.text "OK".toList]⟩) := by
    simp only [readReply, readProtocolLine_stream, hstatus]
    rfl
  have hnone : ∀ n count, ¬ Grammar ([signedLine].map (·.trimmed)) n count := by
    rintro n count ⟨codes, hstarts, -, hcodes⟩
    have hplus : StartsReply ["+25".toList ++ ' ' :: "OK".toList] ["+25".toList] :=
      .final (by decide)
    obtain rfl := hstarts.unique hplus
    exact hsigned.not_isCode (hcodes _ (List.mem_singleton.mpr rfl))
  refine ⟨hreply, hnone, fun h => ?_⟩
  obtain ⟨error, herror⟩ := h.2 hnone
  rw [hreply] at herror
  cases herror

end Torlane
