import Torlane.Controller.RoundTrip
import Torlane.Controller.Session
import Torlane.Controller.Words

/-!
# The protocol information is read back

`parse_protocol_info` of `src/tor/controller/client.rs`, and what a server reports by it: the
authentication methods, the path of the cookie file, and the version, on two lines of a reply that
may have other lines, too. `protocolInfo_encode` says that what is reported is what the client
learns, whatever characters the path and the version have.
-/

namespace Torlane.Control

open Text

/-- `ProtocolInfo`. -/
structure ProtocolInfo where
  authMethods : List AuthMethod
  cookieFile : Option Text
  torVersion : Option Text
  deriving DecidableEq, Repr

/-- The loop body of `parse_protocol_info`: what one line of the reply adds. -/
def ProtocolInfo.readLine (info : ProtocolInfo) : ControlLine → ProtocolInfo
  | .text content =>
    let words := controlWords content
    if words.head? = some "AUTH".toList then
      { info with
        authMethods :=
          match field words "METHODS".toList with
          | some methods => (methods.splitOn ',').map AuthMethod.parse
          | none => info.authMethods
        cookieFile := field words "COOKIEFILE".toList }
    else if words.head? = some "VERSION".toList then
      { info with torVersion := field words "Tor".toList }
    else info
  | _ => info

/-- `parse_protocol_info`. -/
def parseProtocolInfo (reply : ControlReply) : Except ClientError ProtocolInfo :=
  let info := reply.lines.foldl ProtocolInfo.readLine ⟨[], none, none⟩
  if info.authMethods = [] then
    .error (.protocol "PROTOCOLINFO reply did not contain AUTH methods".toList)
  else .ok info

/-- `ControlClient::protocol_info`. -/
def protocolInfo : Session ProtocolInfo := do
  let reply ← commandSuccess "PROTOCOLINFO 1".toList
  Session.ofExcept (parseProtocolInfo reply)

/-! ## What a server reports -/

/-- The text can stand in a list of methods. -/
def IsMethodName (name : Text) : Prop :=
  name ≠ [] ∧ ∀ c ∈ name, c ≠ ',' ∧ isWhitespace c = false ∧ c ≠ '"'

instance (name : Text) : Decidable (IsMethodName name) :=
  @instDecidableAnd _ _ _
    (List.decidableBAll (fun c => c ≠ ',' ∧ isWhitespace c = false ∧ c ≠ '"') name)

/-- The name of an authentication method. -/
abbrev MethodName := { name : Text // IsMethodName name }

/-- The method that a name stands for. -/
inductive Names : Text → AuthMethod → Prop
  | safeCookie : Names "SAFECOOKIE".toList .safeCookie
  | cookie : Names "COOKIE".toList .cookie
  | hashedPassword : Names "HASHEDPASSWORD".toList .hashedPassword
  | null : Names "NULL".toList .null
  | unknown {name : Text} (h : name ∉ ["SAFECOOKIE".toList, "COOKIE".toList,
      "HASHEDPASSWORD".toList, "NULL".toList]) : Names name (.unknown name)

/-- What the server reports. -/
structure InfoReport where
  methods : List MethodName
  methods_ne_nil : methods ≠ []
  cookieFile : Option Line
  version : Option Line

/-- A line that reports nothing: its first word is neither `AUTH` nor `VERSION`. -/
abbrev OtherLine :=
  { line : Line // (controlWords line.val).head? ≠ some "AUTH".toList ∧
      (controlWords line.val).head? ≠ some "VERSION".toList }

/-- One line of the report. -/
inductive InfoLine where
  | auth
  | version
  | other (line : OtherLine)
  deriving DecidableEq

namespace InfoReport

variable (report : InfoReport)

/-- The names with commas between them. -/
def methodList : Text := [','].intercalate (report.methods.map (·.val))

/-- The text of a line of the report. -/
def payload : InfoLine → Text
  | .auth =>
    "AUTH METHODS=".toList ++ report.methodList ++
      match report.cookieFile with
      | some path => " COOKIEFILE=".toList ++ quote path
      | none => []
  | .version =>
    "VERSION".toList ++
      match report.version with
      | some version => " Tor=".toList ++ quote version
      | none => []
  | .other line => line.val

/-! ## The text of the lines -/

/-- The characters of the list of names end no word and start no quotes. -/
theorem isBare_methodList : IsBare report.methodList := by
  intro c hmem
  rcases mem_intercalate hmem with hmem | ⟨name, hname, hmem⟩
  · obtain rfl := List.mem_singleton.mp hmem
    decide
  · obtain ⟨method, -, rfl⟩ := List.mem_map.mp hname
    exact (method.property.2 c hmem).2

/-- The text of a line has no line break. -/
theorem isLine_payload (line : InfoLine) : IsLine (report.payload line) := by
  cases line with
  | auth =>
    have hmethods : IsLine ("AUTH METHODS=".toList ++ report.methodList) :=
      IsLine.append (by decide) report.isBare_methodList.isLine
    show IsLine (_ ++ match report.cookieFile with | some path => _ | none => _)
    cases report.cookieFile with
    | none => exact hmethods.append (by decide)
    | some path => exact hmethods.append (IsLine.append (by decide) (isLine_quote path.property))
  | version =>
    show IsLine (_ ++ match report.version with | some version => _ | none => _)
    cases report.version with
    | none => exact IsLine.append (by decide) (by decide)
    | some version =>
      have hversion : IsLine (" Tor=".toList ++ quote version) :=
        IsLine.append (by decide) (isLine_quote version.property)
      exact IsLine.append (by decide) hversion
  | other line => exact line.val.property

/-- The fields of the line with the methods. -/
def authFields : List Field :=
  ⟨"METHODS".toList, report.methodList, false⟩ ::
    report.cookieFile.toList.map fun path => ⟨"COOKIEFILE".toList, path, true⟩

/-- The fields of the line with the version. -/
def versionFields : List Field :=
  report.version.toList.map fun version => ⟨"Tor".toList, version, true⟩

/-- The words of the line with the methods. -/
theorem controlWords_auth :
    controlWords (report.payload .auth) = "AUTH".toList :: report.authFields.map (·.word) := by
  have htext : report.payload .auth =
      "AUTH".toList ++ report.authFields.flatMap fun f => ' ' :: f.text := by
    unfold payload authFields
    cases report.cookieFile with
    | none => simp [Field.text]
    | some path => simp [Field.text]
  rw [htext]
  refine controlWords_keyword (by decide) (by decide) fun f hf => ?_
  rcases List.mem_cons.mp hf with rfl | hf
  · exact ⟨(by decide : IsBare "METHODS".toList), fun _ => report.isBare_methodList⟩
  · obtain ⟨path, -, rfl⟩ := List.mem_map.mp hf
    exact ⟨(by decide : IsBare "COOKIEFILE".toList), by simp⟩

/-- The words of the line with the version. -/
theorem controlWords_version :
    controlWords (report.payload .version) =
      "VERSION".toList :: report.versionFields.map (·.word) := by
  have htext : report.payload .version =
      "VERSION".toList ++ report.versionFields.flatMap fun f => ' ' :: f.text := by
    unfold payload versionFields
    cases report.version with
    | none => simp
    | some version => simp [Field.text]
  rw [htext]
  refine controlWords_keyword (by decide) (by decide) fun f hf => ?_
  obtain ⟨version, -, rfl⟩ := List.mem_map.mp hf
  exact ⟨(by decide : IsBare "Tor".toList), by simp⟩

/-! ## Reading the lines -/

/-- The line with the methods is read. -/
theorem readLine_auth (info : ProtocolInfo) :
    info.readLine (parsePayload (report.payload .auth)) =
      { info with
        authMethods := report.methods.map fun method => AuthMethod.parse method.val
        cookieFile := report.cookieFile.map (·.val) } := by
  have htext : parsePayload (report.payload .auth) = .text (report.payload .auth) := by
    have hpayload : ∃ value, report.payload .auth = "AUTH METHODS".toList ++ '=' :: value := by
      unfold payload
      exact ⟨_, by simp; rfl⟩
    obtain ⟨value, hvalue⟩ := hpayload
    rw [hvalue]
    exact parsePayload_text (by decide) (by decide)
  have hmethods : field ("AUTH".toList :: report.authFields.map (·.word)) "METHODS".toList =
      some report.methodList := by
    rw [field_skip (by decide)]
    exact field_found _ _ _
  have hcookie : field ("AUTH".toList :: report.authFields.map (·.word)) "COOKIEFILE".toList =
      report.cookieFile.map (·.val) := by
    rw [field_skip (by decide)]
    unfold authFields
    rw [List.map_cons, field_skip (by simp [Field.word])]
    cases report.cookieFile with
    | none => rfl
    | some path => exact field_found _ _ _
  have hsplit : report.methodList.splitOn ',' = report.methods.map (·.val) := by
    refine List.splitOn_intercalate ',' ?_ fun h => report.methods_ne_nil (List.map_eq_nil_iff.mp h)
    intro name hname hcomma
    obtain ⟨method, -, rfl⟩ := List.mem_map.mp hname
    exact (method.property.2 ',' hcomma).1 rfl
  rw [htext]
  simp only [ProtocolInfo.readLine, report.controlWords_auth, List.head?_cons, if_true, hmethods,
    hcookie, hsplit, List.map_map]
  rfl

/-- The line with the version is read. -/
theorem readLine_version (info : ProtocolInfo) :
    info.readLine (parsePayload (report.payload .version)) =
      { info with torVersion := report.version.map (·.val) } := by
  have htext : parsePayload (report.payload .version) = .text (report.payload .version) := by
    unfold payload
    cases report.version with
    | none => rfl
    | some version =>
      have hvalue : "VERSION".toList ++ (" Tor=".toList ++ quote version) =
          "VERSION Tor".toList ++ '=' :: quote version := by simp
      simp only [hvalue]
      exact parsePayload_text (by decide) (by decide)
  have hversion : field ("VERSION".toList :: report.versionFields.map (·.word)) "Tor".toList =
      report.version.map (·.val) := by
    rw [field_skip (by decide)]
    unfold versionFields
    cases report.version with
    | none => rfl
    | some version => exact field_found _ _ _
  have hne : some "VERSION".toList ≠ some "AUTH".toList := by decide
  rw [htext]
  simp only [ProtocolInfo.readLine, report.controlWords_version, List.head?_cons, hne, if_true,
    if_false, hversion]

/-- Another line is passed over. -/
theorem readLine_other (info : ProtocolInfo) (line : OtherLine) :
    info.readLine (parsePayload line.val) = info := by
  have htext : info.readLine (.text line.val) = info := by
    unfold ProtocolInfo.readLine
    simp only [if_neg line.property.1, if_neg line.property.2]
  unfold parsePayload
  split
  · split
    · rfl
    · exact htext
  · exact htext

/-- The lines are read in any order and number. -/
theorem foldl_readLine (lines : List InfoLine) (info : ProtocolInfo) :
    (lines.map fun line => parsePayload (report.payload line)).foldl ProtocolInfo.readLine info =
      { authMethods :=
          if InfoLine.auth ∈ lines then report.methods.map fun method => AuthMethod.parse method.val
          else info.authMethods
        cookieFile :=
          if InfoLine.auth ∈ lines then report.cookieFile.map (·.val) else info.cookieFile
        torVersion :=
          if InfoLine.version ∈ lines then report.version.map (·.val) else info.torVersion } := by
  induction lines generalizing info with
  | nil => simp
  | cons line lines ih =>
    rw [List.map_cons, List.foldl_cons, ih]
    cases line with
    | auth => simp [readLine_auth]
    | version => simp [readLine_version]
    | other line =>
      have hread : info.readLine (parsePayload (report.payload (.other line))) = info :=
        readLine_other info line
      simp [hread]

/-- The reply with the report, on these lines and a last one. -/
def reply (lines : List InfoLine) (final : OtherLine) : WireReply where
  code := successCode
  items := lines.map fun line => .line ⟨report.payload line, report.isLine_payload line⟩
  final := final.val

/-- What `parse_protocol_info` makes of the reply. -/
theorem parseProtocolInfo_read (lines : List InfoLine) (final : OtherLine) :
    parseProtocolInfo (report.reply lines final).read =
      if InfoLine.auth ∈ lines then
        .ok {
          authMethods := report.methods.map fun method => AuthMethod.parse method.val
          cookieFile := report.cookieFile.map (·.val)
          torVersion := if InfoLine.version ∈ lines then report.version.map (·.val) else none }
      else .error (.protocol "PROTOCOLINFO reply did not contain AUTH methods".toList) := by
  have hlines : (report.reply lines final).read.lines =
      (lines.map fun line => parsePayload (report.payload line)) ++ [parsePayload final.val] := by
    simp [WireReply.read, reply, ReplyItem.read]
  have hne : (report.methods.map fun method => AuthMethod.parse method.val) ≠ [] :=
    fun h => report.methods_ne_nil (List.map_eq_nil_iff.mp h)
  unfold parseProtocolInfo
  rw [hlines, List.foldl_append, foldl_readLine, List.foldl_cons, readLine_other, List.foldl_nil]
  by_cases hauth : InfoLine.auth ∈ lines
  · simp only [hauth, if_true, hne, if_false]
  · simp only [hauth, if_true, if_false]

end InfoReport

/-- The method that a name is parsed as is the one that it stands for. -/
theorem names_parse (name : Text) : Names name (AuthMethod.parse name) := by
  unfold AuthMethod.parse
  split_ifs with h h h h
  · exact h ▸ .safeCookie
  · exact h ▸ .cookie
  · exact h ▸ .hashedPassword
  · exact h ▸ .null
  · exact .unknown (by simp_all)

/-- Whatever follows the reply in the stream, and in whatever order its lines are, the client learns
the methods in their order, the path, and the version; without the line with the methods there is an
error. -/
theorem protocolInfo_encode (report : InfoReport) (lines : List InfoLine) (final : OtherLine)
    (rest : List UInt8) (ending : StreamEnd) :
    ∃ reply, readReply ⟨(report.reply lines final).encode ++ rest, ending⟩ =
        (.ok (some reply), ⟨rest, ending⟩) ∧
      (InfoLine.auth ∈ lines → ∃ info, parseProtocolInfo reply = .ok info ∧
        List.Forall₂ Names (report.methods.map (·.val)) info.authMethods ∧
        info.cookieFile = report.cookieFile.map (·.val) ∧
        info.torVersion =
          if InfoLine.version ∈ lines then report.version.map (·.val) else none) ∧
      (InfoLine.auth ∉ lines → ∃ error, parseProtocolInfo reply = .error error) := by
  refine ⟨_, readReply_of_encode _ rest ending, fun hauth => ?_, fun hauth => ?_⟩
  · rw [report.parseProtocolInfo_read, if_pos hauth]
    refine ⟨_, rfl, ?_, rfl, rfl⟩
    refine List.forall₂_map_left_iff.mpr (List.forall₂_map_right_iff.mpr ?_)
    exact List.forall₂_same.mpr fun method _ => names_parse method.val
  · rw [report.parseProtocolInfo_read, if_neg hauth]
    exact ⟨_, rfl⟩

/-- A report with a path that has spaces, quotes, and a backslash in it. -/
def quotedReport : InfoReport where
  methods := [⟨"COOKIE".toList, by decide⟩, ⟨"SAFECOOKIE".toList, by decide⟩]
  methods_ne_nil := by decide
  cookieFile := some ⟨"/srv/my \"tor\" COOKIEFILE=\\".toList, by decide⟩
  version := some ⟨"0.4.8.10".toList, by decide⟩

/-- The last line of the reply. -/
def lastLine : OtherLine := ⟨okText, by decide⟩

/-- The path is read back. -/
theorem protocolInfo_encode_quotedReport :
    ∃ reply info,
      readReply ⟨(quotedReport.reply [.version, .auth] lastLine).encode ++ [], .eof⟩ =
        (.ok (some reply), ⟨[], .eof⟩) ∧
      parseProtocolInfo reply = .ok info ∧
      List.Forall₂ Names ["COOKIE".toList, "SAFECOOKIE".toList] info.authMethods ∧
      info.cookieFile = some "/srv/my \"tor\" COOKIEFILE=\\".toList ∧
      info.torVersion = some "0.4.8.10".toList := by
  obtain ⟨reply, hread, hauth, -⟩ :=
    protocolInfo_encode quotedReport [.version, .auth] lastLine [] .eof
  obtain ⟨info, hinfo, hmethods, hcookie, hversion⟩ := hauth (by simp)
  exact ⟨reply, info, hread, hinfo, hmethods, hcookie, hversion.trans (if_pos (by simp))⟩

end Torlane.Control
