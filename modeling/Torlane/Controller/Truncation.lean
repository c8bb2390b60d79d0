import Torlane.Controller.Client
import Torlane.Controller.RoundTrip

/-!
# Truncated replies

What `read_reply` makes of a reply whose connection is lost before the last newline. Each of the
reader loops reports the end of the stream, but `read_protocol_line` returns the last line of a
stream whether or not it has its newline. A cut in any other line than the last status line is found
by the loop that asks for the next one. A cut in the last status line behind its separator is not
found, since no line is asked for after it: `readReply_cut_iff`.
-/

namespace Torlane

open Text

/-- A list that comes first in an append ends in the first part, or contains it. -/
theorem prefix_append_cases {α : Type*} {cut a b : List α} (h : cut <+: a ++ b) :
    (cut <+: a ∧ cut ≠ a) ∨ ∃ rest, cut = a ++ rest ∧ rest <+: b := by
  by_cases ha : a <+: cut
  · obtain ⟨rest, rfl⟩ := ha
    exact .inr ⟨rest, rfl, (List.prefix_append_right_inj a).mp h⟩
  · refine .inl ⟨?_, fun heq => ha (heq ▸ List.prefix_rfl)⟩
    exact (List.prefix_or_prefix_of_prefix h (List.prefix_append a b)).resolve_right ha

/-! ## The last line of a stream -/

/-- Without a newline, there is no line to split off. -/
theorem splitLine_eq_none {bytes : List UInt8} (h : 10 ∉ bytes) : splitLine bytes = none := by
  induction bytes with
  | nil => rfl
  | cons byte bytes ih =>
    rw [List.mem_cons, not_or] at h
    rw [splitLine, if_neg (Ne.symm h.1), ih h.2]
    rfl

/-- Nothing is read at the end of a stream. -/
theorem readProtocolLine_nil : readProtocolLine ⟨[], .eof⟩ = (.ok none, ⟨[], .eof⟩) := by
  have hdecode : decodeLine [] = .ok [] := by
    have h := decodeUtf8_encodeUtf8 []
    rw [encodeUtf8_nil] at h
    rw [decodeLine, h]
  simp only [readProtocolLine, Reader.readLine, splitLine, hdecode]

/-- The end of a stream in a data block is an error. -/
theorem readData_nil (data : List Text) :
    readData ⟨[], .eof⟩ data = (.error (.protocol .eofInDataReply), ⟨[], .eof⟩) := by
  rw [readData]
  split <;> simp_all [readProtocolLine_nil]

/-- The end of a stream in a reply is an error. -/
theorem readLines_nil (code : ℕ) (lines : List ControlLine) :
    readLines ⟨[], .eof⟩ code lines = (.error (.protocol .eofInReply), ⟨[], .eof⟩) := by
  rw [readLines]
  split <;> simp_all [readProtocolLine_nil]

/-- A line that is cut before its newline is read as far as it goes, if that is a text at all. -/
theorem readProtocolLine_cut {line : Text} (hline : IsLine line) {cut : List UInt8}
    (hcut : cut <+: encodeLine line) (hne : cut ≠ encodeLine line) (hnil : cut ≠ []) :
    ((∃ error, readProtocolLine ⟨cut, .eof⟩ = (.error error, ⟨[], .eof⟩)) ∧
        ∀ text, cut ≠ encodeUtf8 text) ∨
      ∃ read, readProtocolLine ⟨cut, .eof⟩ = (.ok (some read), ⟨[], .eof⟩) ∧ read <+: line ∧
        (cut = encodeUtf8 read ∨ (read = line ∧ cut = encodeUtf8 (line ++ ['\r']))) := by
  have hencode : encodeLine line = encodeUtf8 (line ++ ['\r']) ++ [10] := by
    rw [encodeUtf8_append, List.append_assoc]
    rfl
  have hshort : cut <+: encodeUtf8 (line ++ ['\r']) := by
    rw [hencode] at hcut hne
    exact (List.prefix_concat_iff.mp hcut).resolve_left hne
  have hnewline : (10 : UInt8) ∉ cut := by
    intro hmem
    have hchar : '\n' ∈ line ++ ['\r'] :=
      (mem_encodeUtf8_iff (c := '\n') (by decide)).mp (hshort.subset hmem)
    have hbreak : '\n' ∈ line := by simpa using hchar
    simpa [isLineEnd] using hline _ hbreak
  have hsplit := splitLine_eq_none hnewline
  cases hdecode : decodeUtf8 cut with
  | none =>
    refine .inl ⟨⟨.io .invalidData, ?_⟩, fun text htext => ?_⟩
    · simp only [readProtocolLine, Reader.readLine, hsplit, decodeLine, hdecode]
    · rw [htext, decodeUtf8_encodeUtf8] at hdecode
      cases hdecode
  | some text =>
    have htext : encodeUtf8 text = cut := encodeUtf8_of_decodeUtf8 hdecode
    have hchars : text <+: line ++ ['\r'] := prefix_of_encodeUtf8_prefix (htext.symm ▸ hshort)
    have hne' : text ≠ [] := by
      rintro rfl
      exact hnil htext.symm
    have hread : readProtocolLine ⟨cut, .eof⟩ =
        (.ok (some (text.rdropWhile isLineEnd)), ⟨[], .eof⟩) := by
      unfold readProtocolLine
      simp only [Reader.readLine, hsplit, decodeLine, hdecode]
    -- Only a carriage return can be trimmed.
    rcases List.prefix_concat_iff.mp hchars with rfl | hchars
    · rw [List.rdropWhile_concat_pos _ _ _ (by decide), hline.rdropWhile] at hread
      exact .inr ⟨line, hread, List.prefix_rfl, .inr ⟨rfl, htext.symm⟩⟩
    · have hself : IsLine text := fun c hmem => hline c (hchars.subset hmem)
      rw [hself.rdropWhile] at hread
      exact .inr ⟨text, hread, hchars, .inl htext.symm⟩

/-! ## Cuts in a status line -/

/-- A status line that is shorter than four bytes is malformed. -/
theorem statusLine_short {line : Text} (h : (encodeUtf8 line).length < 4) :
    statusLine line = .error (.protocol (.malformedStatusLine line)) := by
  have hparse : parseStatusLine line = some (.error (.protocol (.malformedStatusLine line))) := by
    rw [parseStatusLine, if_pos (.inl h)]
  simp only [statusLine, hparse, Option.get_some]

/-- What comes first in a status line is malformed, or it is a status line with the same code and
separator. -/
theorem statusLine_prefix (code : Fin 1000) {separator : Char}
    (hsep : separator ∈ [' ', '-', '+']) {payload line : Text}
    (h : line <+: zeroPadded 3 code ++ separator :: payload) :
    (∃ error, statusLine line = .error error) ∨
      ∃ tail, line = zeroPadded 3 code ++ separator :: tail ∧ tail <+: payload ∧
        statusLine line = .ok (code.val, separator, tail) := by
  have happend (tail : Text) : zeroPadded 3 code ++ separator :: tail =
      (zeroPadded 3 code ++ [separator]) ++ tail := by simp
  rw [happend payload] at h
  rcases prefix_append_cases h with ⟨hshort, hne⟩ | ⟨tail, rfl, htail⟩
  · refine .inl ⟨_, statusLine_short ?_⟩
    have hascii : separator.toNat < 128 := by
      simp only [List.mem_cons, List.not_mem_nil, or_false] at hsep
      rcases hsep with rfl | rfl | rfl <;> decide
    have hlength : (encodeUtf8 (zeroPadded 3 code ++ [separator])).length = 4 := by
      simp [length_encodeUtf8_code, utf8EncodeChar_ascii hascii]
    have hlt := length_encodeUtf8_lt hshort hne
    omega
  · refine .inr ⟨tail, (happend tail).symm, htail, ?_⟩
    rw [← happend tail]
    exact statusLine_encode code hsep tail

/-- An encoded status line is read, whatever follows it. -/
theorem reads_encodeStatus (code : Fin 1000) {separator : Char} (hsep : separator ∈ [' ', '-', '+'])
    {payload : Text} (hpayload : IsLine payload) (rest : List UInt8) (ending : StreamEnd) :
    Reads ⟨encodeStatus code separator payload ++ rest, ending⟩ code separator payload
      ⟨rest, ending⟩ :=
  ⟨_, readProtocolLine_encodeStatus code hsep hpayload rest ending, statusLine_encode code hsep _⟩

/-- A status line that is cut behind its separator is read as a status line with the rest of it
missing; elsewhere, the cut makes it no status line. -/
theorem reads_cut (code : Fin 1000) {separator : Char} (hsep : separator ∈ [' ', '-', '+'])
    {payload : Text} (hpayload : IsLine payload) {cut : List UInt8}
    (hcut : cut <+: encodeStatus code separator payload)
    (hne : cut ≠ encodeStatus code separator payload) (hnil : cut ≠ []) :
    (Fails ⟨cut, .eof⟩ ∧ ∀ tail, cut ≠ encodeUtf8 (zeroPadded 3 code ++ separator :: tail)) ∨
      ∃ tail read, Reads ⟨cut, .eof⟩ code separator read ⟨[], .eof⟩ ∧
        cut = encodeUtf8 (zeroPadded 3 code ++ separator :: tail) ∧ tail <+: payload ++ ['\r'] := by
  have hline := isLine_status code hsep hpayload
  rcases readProtocolLine_cut hline hcut hne hnil with
    ⟨⟨error, hread⟩, hnot⟩ | ⟨read, hread, hpart, hbytes⟩
  · exact .inl ⟨.inl ⟨error, _, hread⟩, fun tail => hnot _⟩
  · rcases statusLine_prefix code hsep hpart with ⟨error, herror⟩ | ⟨tail, rfl, htail, hstatus⟩
    · refine .inl ⟨.inr ⟨read, _, error, hread, herror⟩, fun tail heq => ?_⟩
      -- The bytes of a status line are read as one.
      have hstatus : ∃ payload, statusLine read = .ok (code.val, separator, payload) := by
        rcases hbytes with hbytes | ⟨rfl, -⟩
        · rw [encodeUtf8_inj (hbytes.symm.trans heq)]
          exact ⟨tail, statusLine_encode code hsep tail⟩
        · exact ⟨payload, statusLine_encode code hsep payload⟩
      obtain ⟨payload', hstatus⟩ := hstatus
      rw [herror] at hstatus
      cases hstatus
    · refine .inr ?_
      rcases hbytes with hbytes | ⟨hwhole, hbytes⟩
      · exact ⟨tail, tail, ⟨_, hread, hstatus⟩, hbytes, htail.trans (List.prefix_append ..)⟩
      · refine ⟨payload ++ ['\r'], tail, ⟨_, hread, hstatus⟩, ?_, List.prefix_rfl⟩
        rw [hbytes, List.append_assoc, List.cons_append]

/-! ## Cuts in an item -/

/-- A cut in a line of a data block ends the block, or the block ends in an error; in both cases
nothing is left of the stream. -/
theorem readData_cut_line {line : Text} (hline : IsLine line) {cut : List UInt8}
    (hcut : cut <+: encodeLine line) (hne : cut ≠ encodeLine line) (data : List Text) :
    (∃ error r, readData ⟨cut, .eof⟩ data = (.error error, r)) ∨
      ∃ data', readData ⟨cut, .eof⟩ data = (.ok data', ⟨[], .eof⟩) := by
  by_cases hnil : cut = []
  · rw [hnil, readData_nil]
    exact .inl ⟨_, _, rfl⟩
  rcases readProtocolLine_cut hline hcut hne hnil with
    ⟨⟨error, hread⟩, -⟩ | ⟨text, hread, -, -⟩
  · refine .inl ⟨error, ⟨[], .eof⟩, ?_⟩
    rw [readData]
    split <;> simp_all
  · rw [readData_of_line hread]
    split_ifs
    -- A line that was cut behind its dot looks like the end of the block.
    · exact .inr ⟨data, rfl⟩
    · rw [readData_nil]
      exact .inl ⟨_, _, rfl⟩

/-- The same for a cut anywhere in a data block. -/
theorem readData_cut (content : List Line) {cut : List UInt8} (hcut : cut <+: encodeData content)
    (hne : cut ≠ encodeData content) (data : List Text) :
    (∃ error r, readData ⟨cut, .eof⟩ data = (.error error, r)) ∨
      ∃ data', readData ⟨cut, .eof⟩ data = (.ok data', ⟨[], .eof⟩) := by
  induction content generalizing cut data with
  | nil => exact readData_cut_line (by decide) hcut hne data
  | cons line content ih =>
    obtain ⟨hline, hdot, -⟩ := stuff_spec line.property
    have hcons : encodeData (line :: content) =
        encodeLine (stuff line.val) ++ encodeData content := by
      simp [encodeData]
    rw [hcons] at hcut hne
    rcases prefix_append_cases hcut with ⟨hshort, hne'⟩ | ⟨rest, rfl, hrest⟩
    · exact readData_cut_line hline hshort hne' data
    · rw [readData_of_line (readProtocolLine_encodeLine hline rest .eof), if_neg hdot]
      exact ih hrest (fun heq => hne (heq ▸ rfl)) _

/-- A reply does not end with an item: where the stream ends after its status line, or ends its data
block, there is an error. -/
theorem readLines_of_reads {r r' : Reader} {code : ℕ} {separator : Char} {payload : Text}
    (h : Reads r code separator payload r') (hnext : separator ≠ ' ')
    (hdata : separator = '+' → (∃ error r'', readData r' [] = (.error error, r'')) ∨
      ∃ data, readData r' [] = (.ok data, ⟨[], .eof⟩))
    (hline : separator ≠ '+' → r' = ⟨[], .eof⟩) (lines : List ControlLine) :
    ∃ error, (readLines r code lines).1 = .error error := by
  obtain ⟨line, hread, hstatus⟩ := h
  rw [readLines_of_line hread hstatus, consumeLine]
  by_cases hplus : separator = '+'
  · rcases hdata hplus with ⟨error, r'', heq⟩ | ⟨data, heq⟩
    · simp only [hplus, if_true, heq]
      exact ⟨error, rfl⟩
    · simp only [hplus, if_true, heq]
      exact ⟨.protocol .eofInReply, by simp [readLines_nil]⟩
  · simp only [hplus, if_false, hnext, hline hplus, readLines_nil]
    exact ⟨_, rfl⟩

/-- A cut in an item is an error. -/
theorem readLines_cut_item (code : Fin 1000) (item : ReplyItem) {cut : List UInt8}
    (hcut : cut <+: item.encode code) (hne : cut ≠ item.encode code)
    (lines : List ControlLine) :
    ∃ error, (readLines ⟨cut, .eof⟩ code lines).1 = .error error := by
  have hsep := item.separator_mem
  have hnext : item.separator ≠ ' ' := by cases item <;> simp [ReplyItem.separator]
  rw [item.encode_eq] at hcut hne
  rcases prefix_append_cases hcut with ⟨hshort, hne'⟩ | ⟨rest, rfl, hrest⟩
  · by_cases hnil : cut = []
    · rw [hnil, readLines_nil]
      exact ⟨_, rfl⟩
    rcases reads_cut code hsep item.isLine_payload hshort hne' hnil with
      ⟨hfails, -⟩ | ⟨tail, read, hreads, -, -⟩
    · exact hfails.error.2 code lines
    · refine readLines_of_reads hreads hnext (fun _ => .inl ?_) (fun _ => rfl) lines
      exact ⟨_, _, readData_nil []⟩
  · have hreads := reads_encodeStatus code hsep item.isLine_payload rest .eof
    have hbody : rest ≠ item.body := fun heq => hne (heq ▸ rfl)
    cases item with
    | line payload => exact absurd (List.prefix_nil.mp hrest) hbody
    | data key content =>
      exact readLines_of_reads hreads hnext (fun _ => readData_cut content hrest hbody [])
        (fun hplus => absurd rfl hplus) lines

/-! ## Cuts in a reply -/

/-- The cut is in the last status line of a reply, behind the separator. -/
def CutBehindStatus (code : Fin 1000) (items : List ReplyItem) (final : Line) (cut : List UInt8) :
    Prop :=
  ∃ tail, tail <+: final.val ++ ['\r'] ∧
    cut = items.flatMap (·.encode code) ++ encodeUtf8 (zeroPadded 3 code ++ ' ' :: tail)

/-- The loop over the lines takes a cut reply for a whole one only where the cut is behind the last
status. -/
theorem readLines_cut_iff (code : Fin 1000) (items : List ReplyItem) (final : Line)
    {cut : List UInt8}
    (hcut : cut <+: items.flatMap (·.encode code) ++ encodeStatus code ' ' final)
    (hne : cut ≠ items.flatMap (·.encode code) ++ encodeStatus code ' ' final)
    (lines : List ControlLine) :
    (∃ reply, (readLines ⟨cut, .eof⟩ code lines).1 = .ok reply) ↔
      CutBehindStatus code items final cut := by
  unfold CutBehindStatus
  induction items generalizing cut lines with
  | nil =>
    simp only [List.flatMap_nil, List.nil_append] at hcut hne ⊢
    by_cases hnil : cut = []
    · rw [hnil, readLines_nil]
      refine iff_of_false (by simp) ?_
      rintro ⟨tail, -, heq⟩
      have hlen := congrArg List.length heq
      simp [length_encodeUtf8_code] at hlen
      omega
    rcases reads_cut code (by decide) final.property hcut hne hnil with
      ⟨hfails, hnot⟩ | ⟨tail, read, ⟨line, hread, hstatus⟩, heq, htail⟩
    · obtain ⟨error, herror⟩ := hfails.error.2 code lines
      refine iff_of_false (by simp [herror]) ?_
      rintro ⟨tail, -, heq⟩
      exact hnot tail heq
    · refine iff_of_true ?_ ⟨tail, htail, heq⟩
      rw [readLines_of_line hread hstatus]
      exact ⟨⟨code, lines ++ [parsePayload read]⟩, by simp [consumeLine]⟩
  | cons item items ih =>
    rw [List.flatMap_cons, List.append_assoc] at hcut hne
    rcases prefix_append_cases hcut with ⟨hshort, hne'⟩ | ⟨rest, rfl, hrest⟩
    · obtain ⟨error, herror⟩ := readLines_cut_item code item hshort hne' lines
      refine iff_of_false (by simp [herror]) ?_
      rintro ⟨tail, -, heq⟩
      -- The cut is shorter than the item.
      rw [List.flatMap_cons, List.append_assoc] at heq
      have hlong : item.encode code <+: cut := ⟨_, heq.symm⟩
      exact hne' (hshort.eq_of_length_le hlong.length_le)
    · have hne' : rest ≠ items.flatMap (·.encode code) ++ encodeStatus code ' ' final :=
        fun heq => hne (heq ▸ rfl)
      rw [readLines_item, ih hrest hne' (lines ++ [item.read])]
      simp only [List.flatMap_cons, List.append_assoc, List.append_cancel_left_eq]

/-- The first line of a cut reply is read as a line of the reply, or it is an error. -/
theorem reads_or_fails_cut (sent : WireReply) {cut : List UInt8} (hcut : cut <+: sent.encode)
    (hne : cut ≠ sent.encode) (hnil : cut ≠ []) :
    Fails ⟨cut, .eof⟩ ∨ ∃ separator payload r, Reads ⟨cut, .eof⟩ sent.code separator payload r := by
  obtain ⟨separator, hsep, payload, rest, hpayload, hencode⟩ := sent.encode_eq
  rw [hencode] at hcut
  rcases prefix_append_cases hcut with ⟨hshort, hne'⟩ | ⟨rest', rfl, -⟩
  · rcases reads_cut sent.code hsep hpayload hshort hne' hnil with
      ⟨hfails, -⟩ | ⟨tail, read, hreads, -, -⟩
    · exact .inl hfails
    · exact .inr ⟨separator, read, _, hreads⟩
  · exact .inr ⟨separator, payload, _, reads_encodeStatus sent.code hsep hpayload rest' .eof⟩

/-- An error in a reply is the actor's result. -/
theorem receiveReply_error {r : Reader} {error : TorControlError}
    (h : (readReply r).1 = .error error) : (Control.receiveReply r).1 = .error error := by
  unfold Control.receiveReply
  rcases hread : readReply r with ⟨_ | _ | _, r'⟩ <;> simp_all

/-- A cut reply is found out: nothing was sent, or there is an error; in both cases the actor has an
error to deliver, and closes the connection. -/
def FindsCut (cut : List UInt8) : Prop :=
  (if cut = [] then (readReply ⟨cut, .eof⟩).1 = .ok none
    else ∃ error, (readReply ⟨cut, .eof⟩).1 = .error error) ∧
  ∃ error, (Control.receiveReply ⟨cut, .eof⟩).1 = .error error

/-- A reply that is cut before its last newline is found out if and only if the cut is not in the
last status line behind the separator. -/
theorem readReply_cut_iff (sent : WireReply) {cut : List UInt8} (hcut : cut <+: sent.encode)
    (hne : cut ≠ sent.encode) :
    FindsCut cut ↔ ¬ CutBehindStatus sent.code sent.items sent.final cut := by
  by_cases hnil : cut = []
  · subst hnil
    have hread : readReply ⟨[], .eof⟩ = (.ok none, ⟨[], .eof⟩) := by
      simp only [readReply, readProtocolLine_nil]
    refine iff_of_true ⟨?_, ?_⟩ ?_
    · simp [hread]
    · exact ⟨.channelClosed, by simp only [Control.receiveReply, hread]⟩
    · rintro ⟨tail, -, heq⟩
      have hlen := congrArg List.length heq
      simp [length_encodeUtf8_code] at hlen
      omega
  · have hiff := readLines_cut_iff sent.code sent.items sent.final hcut hne []
    rcases reads_or_fails_cut sent hcut hne hnil with
      hfails | ⟨separator, payload, r, line, hread, hstatus⟩
    · obtain ⟨error, herror⟩ := hfails.error.2 sent.code []
      obtain ⟨error', herror'⟩ := hfails.error.1
      have hnot : ¬ CutBehindStatus sent.code sent.items sent.final cut := by
        rw [← hiff, herror]
        simp
      refine iff_of_true ⟨?_, error', receiveReply_error herror'⟩ hnot
      rw [if_neg hnil]
      exact ⟨error', herror'⟩
    · -- The reply is read as its lines are.
      have hreply := congrArg Prod.fst (readReply_of_line hread hstatus)
      cases hlines : (readLines ⟨cut, .eof⟩ sent.code []).1 with
      | error error =>
        rw [hlines] at hreply hiff
        have hnot : ¬ CutBehindStatus sent.code sent.items sent.final cut := by
          rw [← hiff]
          simp
        refine iff_of_true ⟨?_, error, receiveReply_error hreply⟩ hnot
        rw [if_neg hnil]
        exact ⟨error, hreply⟩
      | ok reply =>
        rw [hlines] at hreply hiff
        refine iff_of_false (fun hfinds => ?_) (not_not.mpr (hiff.mp ⟨reply, rfl⟩))
        obtain ⟨error, herror⟩ := by simpa only [if_neg hnil] using hfinds.1
        rw [hreply] at herror
        cases herror

/-- The reply `250 OK`. -/
def okReply : WireReply := ⟨successCode, [], okText⟩

/-- The reply is found out if it is cut before its separator. -/
theorem readReply_cut_iff_okReply : FindsCut (encodeUtf8 "250".toList) := by
  refine (readReply_cut_iff okReply (by decide) (by decide)).mpr ?_
  rintro ⟨tail, -, heq⟩
  have hlen : 3 = (encodeUtf8 (zeroPadded 3 250 ++ ' ' :: tail)).length := congrArg List.length heq
  have hcode : (encodeUtf8 (zeroPadded 3 250)).length = 3 := length_encodeUtf8_code 250
  have hspace : (String.utf8EncodeChar ' ').length = 1 := by decide
  rw [encodeUtf8_append, encodeUtf8_cons, List.length_append, List.length_append, hcode,
    hspace] at hlen
  omega

/-- The reply without its line end is taken for the whole reply. -/
theorem cut_reply_accepted :
    encodeUtf8 "250 OK".toList <+: okReply.encode ∧ encodeUtf8 "250 OK".toList ≠ okReply.encode ∧
      (readReply ⟨encodeUtf8 "250 OK".toList, .eof⟩).1 = .ok (some okReply.read) ∧
      ¬ FindsCut (encodeUtf8 "250 OK".toList) := by
  have hsplit : splitLine (encodeUtf8 "250 OK".toList) = none := by decide
  have hread : readProtocolLine ⟨encodeUtf8 "250 OK".toList, .eof⟩ =
      (.ok (some "250 OK".toList), ⟨[], .eof⟩) := by
    simp only [readProtocolLine, Reader.readLine, hsplit, decodeLine, decodeUtf8_encodeUtf8]
    rfl
  have hstatus : statusLine "250 OK".toList = .ok (250, ' ', "OK".toList) :=
    statusLine_encode 250 (by decide) "OK".toList
  have hreply : (readReply ⟨encodeUtf8 "250 OK".toList, .eof⟩).1 = .ok (some okReply.read) := by
    simp only [readReply, hread, hstatus]
    rfl
  refine ⟨by decide, by decide, hreply, fun hfinds => ?_⟩
  have hne : encodeUtf8 "250 OK".toList ≠ [] := by decide
  obtain ⟨error, herror⟩ := by simpa only [if_neg hne] using hfinds.1
  rw [hreply] at herror
  cases herror

end Torlane
