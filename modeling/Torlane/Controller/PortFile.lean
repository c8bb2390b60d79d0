import Torlane.Controller.Codec
import Torlane.Net.Shape

/-!
# Waiting for the file with the control port

`wait_control_port_file` and `parse_control_endpoint` of `src/tor/controller/mod.rs`. Tor writes one
line to the file, and a poll can read it before it is complete. The first poll that finds any text
decides: `waitControlPortFile_iff` says that it has to find the whole address.
-/

namespace Torlane.Control

open Text

/-! ## The source -/

/-- `TorControlError`, as far as the file with the control port can cause it. -/
inductive PortFileError where
  | io (error : IoError)
  | controlPortTimeout (path : Text)
  | invalidControlEndpoint (path value : Text)
  deriving DecidableEq, Repr

/-- `str::split_inclusive` at a character: each part but the last one ends in it. -/
def splitInclusive (c : Char) : Text → List Text
  | [] => []
  | d :: text =>
    if d = c then [d] :: splitInclusive c text
    else
      match splitInclusive c text with
      | [] => [[d]]
      | part :: parts => (d :: part) :: parts

/-- `str::lines`: a carriage return belongs to the end of the line only before a newline. -/
def lines (text : Text) : List Text :=
  (splitInclusive '\n' text).map fun line =>
    match stripSuffix ['\n'] line with
    | none => line
    | some line => (stripSuffix ['\r'] line).getD line

/-- `parse_control_endpoint`: what follows `PORT=` in the first line that starts with it, or the
whole content. -/
def parseControlEndpoint (path content : Text) : Except PortFileError SocketAddr :=
  let value := ((lines content).findSome? fun line =>
    stripPrefix "PORT=".toList (trim line)).getD (trim content)
  match parseSocketAddr value with
  | some addr => .ok addr
  | none => .error (.invalidControlEndpoint path value)

/-- The result of `read_to_string`. -/
inductive FileRead where
  | content (text : Text)
  | notFound
  | failed (error : IoError)
  deriving DecidableEq, Repr

/-- `wait_control_port_file`, where the list has the results of the polls until `wait_for` has
elapsed. -/
def waitControlPortFile (path : Text) : List FileRead → Except PortFileError SocketAddr
  | [] => .error (.controlPortTimeout path)
  | .content content :: reads =>
    if trim content ≠ [] then parseControlEndpoint path content else waitControlPortFile path reads
  | .notFound :: reads => waitControlPortFile path reads
  | .failed error :: _ => .error (.io error)

/-! ## The states of the file -/

/-- The content of the file when Tor has written it. -/
def portLine (addr : SocketAddr) : Text := "PORT=".toList ++ addr.display ++ ['\n']

/-- The file is missing, or has nothing but whitespace. -/
inductive IsBlank : FileRead → Prop
  | missing : IsBlank .notFound
  | blank {text : Text} (h : ∀ c ∈ text, isWhitespace c = true) : IsBlank (.content text)

/-- A state that the file can have while Tor writes the address to it. -/
inductive IsWritten (addr : SocketAddr) : FileRead → Prop
  | blank {read : FileRead} (h : IsBlank read) : IsWritten addr read
  | part {text : Text} (h : text <+: portLine addr) : IsWritten addr (.content text)

/-- The function returns the address, unless its timeout elapses. -/
def ReturnsOnly (path : Text) (addr : SocketAddr) (reads : List FileRead) : Prop :=
  waitControlPortFile path reads = .ok addr ∨
    waitControlPortFile path reads = .error (.controlPortTimeout path)

/-- The first poll that finds any text finds the whole address. -/
def FirstTextComplete (addr : SocketAddr) (reads : List FileRead) : Prop :=
  ∀ skipped text rest, reads = skipped ++ .content text :: rest → (∀ read ∈ skipped, IsBlank read) →
    ¬ IsBlank (.content text) → "PORT=".toList ++ addr.display <+: text

variable {path : Text} {addr : SocketAddr} {reads : List FileRead}

/-- Nothing is left of a blank text. -/
theorem trim_eq_nil_iff {text : Text} : trim text = [] ↔ IsBlank (.content text) := by
  have hwhole : trim text = [] ↔ ∀ c ∈ text, isWhitespace c = true := by
    unfold trim
    rw [List.rdropWhile_eq_nil_iff]
    refine ⟨fun h => List.dropWhile_eq_nil_iff.mp ?_, fun h c hc => ?_⟩
    · -- What is left would start with another character.
      refine Classical.byContradiction fun hne => ?_
      have hhead := List.head_dropWhile_not (p := isWhitespace) hne
      rw [h _ (List.head_mem hne)] at hhead
      cases hhead
    · exact h c ((List.dropWhile_suffix isWhitespace).subset hc)
  rw [hwhole]
  exact ⟨.blank, fun h => by cases h; assumption⟩

/-- A blank state is not acted on. -/
theorem waitControlPortFile_blank {read : FileRead} (h : IsBlank read) :
    waitControlPortFile path (read :: reads) = waitControlPortFile path reads := by
  cases h with
  | missing => rfl
  | blank htext =>
    have htrim := trim_eq_nil_iff.mpr (.blank htext)
    rw [waitControlPortFile, if_neg (not_not_intro htrim)]

/-- The first text that is found decides. -/
theorem waitControlPortFile_content {text : Text} (h : ¬ IsBlank (.content text)) :
    waitControlPortFile path (.content text :: reads) = parseControlEndpoint path text := by
  rw [waitControlPortFile, if_pos (mt trim_eq_nil_iff.mp h)]

/-! ## Parts of the line -/

/-- The line up to the newline has no whitespace. -/
theorem isWhitespace_of_mem_portLine {c : Char} (h : c ∈ "PORT=".toList ++ addr.display) :
    isWhitespace c = false := by
  rcases List.mem_append.mp h with h | h
  · have hword : ∀ c ∈ "PORT=".toList, isWhitespace c = false := by simp; decide
    exact hword c h
  · exact SocketAddr.isWhitespace_of_mem_display h

/-- A text without a newline is one line. -/
theorem lines_eq_singleton {text : Text} (hne : text ≠ []) (h : '\n' ∉ text) :
    lines text = [text] := by
  have hsplit : splitInclusive '\n' text = [text] := by
    induction text with
    | nil => exact absurd rfl hne
    | cons c text ih =>
      obtain ⟨hc, htext⟩ := not_or.mp (mt List.mem_cons.mpr h)
      rw [splitInclusive, if_neg (Ne.symm hc)]
      cases text with
      | nil => rfl
      | cons d text => rw [ih (List.cons_ne_nil d text) htext]
  have hnone : stripSuffix ['\n'] text = none := by
    refine if_neg fun hsuffix => h ?_
    exact (List.isSuffixOf_iff_suffix.mp hsuffix).subset List.mem_cons_self
  unfold lines
  rw [hsplit, List.map_singleton, hnone]

/-- A line without whitespace is found in front of a newline. -/
theorem lines_concat {text : Text} (h : ∀ c ∈ text, isWhitespace c = false) :
    lines (text ++ ['\n']) = [text] := by
  have hsplit : splitInclusive '\n' (text ++ ['\n']) = [text ++ ['\n']] := by
    induction text with
    | nil => rfl
    | cons c text ih =>
      have hc : c ≠ '\n' := by
        rintro rfl
        exact absurd (h '\n' List.mem_cons_self) (by decide)
      rw [List.cons_append, splitInclusive, if_neg hc,
        ih fun d hd => h d (List.mem_cons_of_mem c hd)]
  have hnewline : stripSuffix ['\n'] (text ++ ['\n']) = some text := by
    unfold stripSuffix
    simp
  have hreturn : stripSuffix ['\r'] text = none := by
    refine if_neg fun hsuffix => ?_
    have hmem : '\r' ∈ text := (List.isSuffixOf_iff_suffix.mp hsuffix).subset List.mem_cons_self
    exact absurd (h '\r' hmem) (by decide)
  unfold lines
  rw [hsplit, List.map_singleton, hnewline]
  show [(stripSuffix ['\r'] text).getD text] = [text]
  rw [hreturn, Option.getD_none]

/-- Text that starts with a letter of no address is none. -/
theorem parseSocketAddr_cons {c : Char} {text : Text} (h : isHexDigit c = false ∧ c ≠ '.')
    (hopen : c ≠ '[') : parseSocketAddr (c :: text) = none := by
  have hread : readSocketAddr (c :: text) = none := by
    have hbracket : readGivenChar '[' (c :: text) = none := if_neg hopen
    unfold readSocketAddr readSocketAddrV4 readSocketAddrV6
    rw [readIpv4Addr_of_noDigit (noDigit_cons h), hbracket]
    rfl
  unfold parseSocketAddr parseWith
  rw [hread]

/-- The complete line is parsed, and a part of it is if only the newline is missing. -/
theorem parseControlEndpoint_part {text : Text} (hpart : text <+: portLine addr) (hne : text ≠ []) :
    parseControlEndpoint path text = .ok addr ↔ "PORT=".toList ++ addr.display <+: text := by
  have hspace : ∀ c ∈ "PORT=".toList ++ addr.display, isWhitespace c = false :=
    fun _ => isWhitespace_of_mem_portLine
  have hvalue {value : Text} : (match parseSocketAddr value with
      | some addr => Except.ok addr
      | none => .error (PortFileError.invalidControlEndpoint path value)) = Except.ok addr ↔
        parseSocketAddr value = some addr := by
    cases parseSocketAddr value <;> simp
  unfold parseControlEndpoint
  dsimp only
  rw [hvalue]
  rcases List.prefix_concat_iff.mp hpart with rfl | hpart
  · -- The newline has been written as well.
    refine iff_of_true ?_ (List.prefix_append _ _)
    rw [lines_concat hspace, List.findSome?_singleton, trim_eq_self hspace,
      stripPrefix_append, Option.getD_some, parseSocketAddr_display]
  · have htext : ∀ c ∈ text, isWhitespace c = false := fun c hc => hspace c (hpart.subset hc)
    have hnewline : '\n' ∉ text := fun hmem => absurd (htext '\n' hmem) (by decide)
    rw [lines_eq_singleton hne hnewline, List.findSome?_singleton, trim_eq_self htext]
    by_cases h : "PORT=".toList <+: text
    · -- A part of the address is behind `PORT=`.
      obtain ⟨value, rfl⟩ := h
      rw [stripPrefix_append, Option.getD_some, List.prefix_append_right_inj]
      rw [List.prefix_append_right_inj] at hpart
      refine ⟨fun h => ?_, fun h => ?_⟩
      · refine Classical.byContradiction fun hcut => parseSocketAddr_prefix hpart ?_ h
        rintro rfl
        exact hcut (List.prefix_refl _)
      · rw [hpart.eq_of_length_le h.length_le, parseSocketAddr_display]
    · -- The text is a part of `PORT=`, and is parsed as a whole.
      rw [stripPrefix_eq_none h, Option.getD_none]
      refine iff_of_false ?_ fun hwhole => h ((List.prefix_append _ _).trans hwhole)
      cases text with
      | nil => exact absurd rfl hne
      | cons c text =>
        have hc : c = 'P' := (List.cons_prefix_cons.mp hpart).1
        rw [hc, parseSocketAddr_cons (by decide) (by decide)]
        exact nofun

/-- What is parsed is no timeout. -/
theorem parseControlEndpoint_ne_timeout {text : Text} :
    parseControlEndpoint path text ≠ .error (.controlPortTimeout path) := by
  unfold parseControlEndpoint
  dsimp only
  split <;> simp

/-- A blank state is passed over. -/
theorem firstTextComplete_blank {read : FileRead} (hblank : IsBlank read) :
    FirstTextComplete addr (read :: reads) ↔ FirstTextComplete addr reads := by
  constructor
  · intro h skipped text rest heq hskipped
    refine h (read :: skipped) text rest (by rw [heq]; rfl) ?_
    rintro r (_ | ⟨_, hr⟩)
    · exact hblank
    · exact hskipped r hr
  · rintro h (_ | ⟨first, skipped⟩) text rest heq hskipped htext
    · rw [List.nil_append, List.cons.injEq] at heq
      rw [heq.1] at hblank
      exact absurd hblank htext
    · rw [List.cons_append, List.cons.injEq] at heq
      refine h skipped text rest heq.2 (fun r hr => ?_) htext
      exact hskipped r (List.mem_cons_of_mem _ hr)

/-- The first text that is found has to be complete. -/
theorem firstTextComplete_content {text : Text} (hblank : ¬ IsBlank (.content text)) :
    FirstTextComplete addr (.content text :: reads) ↔
      "PORT=".toList ++ addr.display <+: text := by
  constructor
  · intro h
    exact h [] text reads rfl (by simp) hblank
  · rintro h (_ | ⟨first, skipped⟩) text' rest heq hskipped htext
    · rw [List.nil_append, List.cons.injEq, FileRead.content.injEq] at heq
      rwa [← heq.1]
    · rw [List.cons_append, List.cons.injEq] at heq
      exact absurd (heq.1 ▸ hskipped first List.mem_cons_self) hblank

/-- The function returns nothing but the address if and only if the first poll that finds any text
finds the whole address. -/
theorem waitControlPortFile_iff (hreads : ∀ read ∈ reads, IsWritten addr read) :
    ReturnsOnly path addr reads ↔ FirstTextComplete addr reads := by
  induction reads with
  | nil =>
    refine ⟨fun _ skipped text rest h => ?_, fun _ => .inr rfl⟩
    simp at h
  | cons read reads ih =>
    obtain ⟨hread, hreads⟩ := List.forall_mem_cons.mp hreads
    by_cases hblank : IsBlank read
    · unfold ReturnsOnly at ih ⊢
      rw [waitControlPortFile_blank hblank, firstTextComplete_blank hblank]
      exact ih hreads
    · obtain ⟨text, rfl, hpart⟩ : ∃ text, read = .content text ∧ text <+: portLine addr := by
        cases hread with
        | blank h => exact absurd h hblank
        | part h => exact ⟨_, rfl, h⟩
      have hne : text ≠ [] := by
        rintro rfl
        exact hblank (.blank (by simp))
      unfold ReturnsOnly
      rw [waitControlPortFile_content hblank, firstTextComplete_content hblank,
        parseControlEndpoint_part hpart hne, or_iff_left parseControlEndpoint_ne_timeout]

/-- A file may be missing, and then empty, and then have a part of the line. -/
theorem isWritten_reads {text : Text} (h : text <+: portLine addr) :
    ∀ read ∈ [.notFound, .content [], .content text], IsWritten addr read := by
  simp only [List.forall_mem_cons, List.not_mem_nil, false_implies, implies_true, and_true]
  exact ⟨.blank .missing, .part List.nil_prefix, .part h⟩

/-- The port has four digits, and two of them have been written when the file is read. -/
theorem waitControlPortFile_cutPort :
    (∀ read ∈ [.notFound, .content [], .content "PORT=127.0.0.1:90".toList],
      IsWritten (.v4 .localhost 9051) read) ∧
    waitControlPortFile "control.port".toList
      [.notFound, .content [], .content "PORT=127.0.0.1:90".toList] = .ok (.v4 .localhost 90) ∧
    ¬ ReturnsOnly "control.port".toList (.v4 .localhost 9051)
      [.notFound, .content [], .content "PORT=127.0.0.1:90".toList] := by
  have hresult : waitControlPortFile "control.port".toList
      [.notFound, .content [], .content "PORT=127.0.0.1:90".toList] = .ok (.v4 .localhost 90) := by
    decide
  refine ⟨isWritten_reads ⟨"51\n".toList, by decide⟩, hresult, ?_⟩
  · unfold ReturnsOnly
    rw [hresult]
    decide

/-- The file is read when it is missing, when it is empty, and when it is complete. -/
theorem waitControlPortFile_iff_complete :
    ReturnsOnly "control.port".toList (.v4 .localhost 9051)
      [.notFound, .content [], .content "PORT=127.0.0.1:9051\n".toList] := by
  have hpart : "PORT=127.0.0.1:9051\n".toList <+: portLine (.v4 .localhost 9051) := ⟨[], by decide⟩
  refine (waitControlPortFile_iff (isWritten_reads hpart)).mpr ?_
  -- The two blank states are passed over, and the text that decides has the whole address.
  have htext : ¬ IsBlank (.content "PORT=127.0.0.1:9051\n".toList) := by
    rintro ⟨⟩
    next h => exact absurd (h 'P' (by decide)) (by decide)
  rw [firstTextComplete_blank .missing, firstTextComplete_blank (.blank (by simp)),
    firstTextComplete_content htext]
  exact ⟨"\n".toList, by decide⟩

end Torlane.Control
