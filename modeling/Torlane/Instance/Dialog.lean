import Torlane.Controller.Server
import Torlane.Instance.Startup

/-!
# A startup and Tor

`finish_startup` against a Tor that keeps to the control protocol (`Control.Tor`), with all that can
happen on the way: the port file is not there yet or cannot be read, the connection is refused or
lost, an answer comes too late, and the cookie that the client reads may be another one. Every reply
goes through the codec.

`finishStartup_meets` says what the two sides then know of each other. Tor has authenticated no
client but one whose proof was right, and nothing is asked of it before it is owned. A startup that
succeeds has the address of the one listener that Tor has, and Tor has told it that it is ready. One
that fails does so for a reason that `Excused` lists, and none of these is a misunderstanding.
-/

namespace Torlane.Host

open Text Control

/-! ## What a startup finds -/

/-- A Tor that has been started: where its control port is, and what each look at the file for the
port finds. -/
structure StartedTor extends Tor where
  controlAddr : SocketAddr
  portFile : ℕ → FileRead
  portFile_eq : ∀ k, IsBlank (portFile k) ∨ portFile k = .content (portLine controlAddr)

/-- How far a startup has come. -/
structure Scene where
  connection : Connection
  /-- How often the file has been looked at. -/
  polled : ℕ
  /-- How many looks at the file there are until the timeout for it elapses. -/
  portRounds : ℕ
  /-- How many questions for the phase there are until the timeout for the bootstrap elapses. -/
  phaseRounds : ℕ
  /-- The system has failed it, or an answer has come too late. -/
  failed : Bool

/-- Nothing has been done yet. -/
def Scene.start (portRounds phaseRounds : ℕ) : Scene := ⟨.new, 0, portRounds, phaseRounds, false⟩

/-- A timeout begins. The one for the bootstrap begins when the ownership has been taken. -/
def Scene.grant (s : Scene) (rounds : ℕ) : Scene :=
  if s.connection.ownerReset then { s with phaseRounds := rounds }
  else { s with portRounds := rounds }

namespace StartedTor

variable (tor : StartedTor)

/-- The scene after a command that has reached Tor. -/
def after (s : Scene) (text : Text) : Scene :=
  { s with connection := (tor.answer s.connection text).2 }

/-- A command is answered, or the connection is lost before or after it has reached Tor. -/
def Answers (s : Scene) (text : Text) (result : CommandResult) (t : Scene) : Prop :=
  (t = tor.after s text ∧ ∃ rest ending,
    result = (receiveReply ⟨(tor.answer s.connection text).1.encode ++ rest, ending⟩).1) ∨
  ((t = { s with failed := true } ∨ t = { tor.after s text with failed := true }) ∧
    ∃ error, result = .error error)

/-- What the calls of a startup find, and what they do. -/
def effect : Calls.Effect SysCall SysCall.Answer Scene
  | .readToString _, s, read, t =>
    (t = { s with polled := s.polled + 1 } ∧ seenFile read = tor.portFile s.polled) ∨
      (t = { s with failed := true } ∧ ∃ error, seenFile read = .failed error)
  | .rounds _, s, rounds, t => t = s.grant rounds
  | .connect _, s, .ok (), t => t = s
  | .connect _, s, .error _, t => t = { s with failed := true }
  | .command text, s, result, t => tor.Answers s text result t
  | .commandWithin text, s, some result, t => tor.Answers s text result t
  | .commandWithin text, s, none, t =>
    t = { s with failed := true } ∨ t = { tor.after s text with failed := true }
  | _, s, _, t => t = s

end StartedTor

/-! ## What the two sides know -/

/-- The hashes over the nonces are the same for the cookie that the client has read and for Tor's.
Without SAFECOOKIE, the client's cookie is Tor's, or none is needed. -/
def Proven (env : AuthEnv) (tor : Tor) : Prop :=
  if .safeCookie ∈ tor.methods then
    ∃ path cookie nonce, tor.report.cookieFile = some path ∧ readCookie env path = .ok cookie ∧
      env.random = .ok nonce ∧ ∀ key ∈ [serverHashKey, clientHashKey],
        safecookieHash env key cookie nonce tor.serverNonce.toList = tor.hash key nonce.toList
  else .null ∈ tor.methods ∨ ∃ path, tor.report.cookieFile = some path ∧
    readCookie env path = .ok tor.cookie

/-- Each step has the one before it: the proof, the ownership, the questions. -/
structure InOrder (env : AuthEnv) (tor : Tor) (s : Connection) : Prop where
  proven : s.authenticated = true → Proven env tor
  authenticated : s.owned = true → s.authenticated = true
  owned : s.ownerReset = true → s.owned = true
  ownerReset : 0 < s.asked → s.ownerReset = true

/-- The client chooses a method for which it reads the cookie. -/
def StartedTor.NeedsCookie (tor : StartedTor) : Prop :=
  .safeCookie ∈ tor.methods ∨ .cookie ∈ tor.methods

/-- The reasons for which a startup may fail. -/
inductive Excused (env : AuthEnv) (tor : StartedTor) (s : Scene) : ControlError → Prop
  -- The system, or the time.
  | portTimeout {path} (h : ∀ k < s.portRounds, IsBlank (tor.portFile k)) :
      Excused env tor s (.portFile (.controlPortTimeout path))
  | portUnread {error} (h : s.failed = true) : Excused env tor s (.portFile (.io error))
  | connect {error} (h : s.failed = true) : Excused env tor s (.connect error)
  | lost {error} (h : s.failed = true) : Excused env tor s (.client (.command error))
  | random {error} (hsafe : .safeCookie ∈ tor.methods) (h : env.random = .error error) :
      Excused env tor s (.client (.random error))
  | bootstrap (h : s.failed = true ∨ ∀ k < s.phaseRounds, (tor.phases k).progress ≠ 100) :
      Excused env tor s (.client .bootstrapTimeout)
  -- The configuration of Tor.
  | noMethod (h : .safeCookie ∉ tor.methods ∧ .cookie ∉ tor.methods ∧ .null ∉ tor.methods) :
      Excused env tor s (.client (.unsupportedAuthentication tor.methods))
  | noCookieFile (hcookie : tor.NeedsCookie) (h : tor.report.cookieFile = none) :
      Excused env tor s (.client .missingCookieFile)
  | listeners (h : (tcpAddrs tor.listeners).length ≠ 1) :
      Excused env tor s (.client (.socksListenerCount (tcpAddrs tor.listeners).length))
  -- The cookie.
  | cookieUnread {path error} (hcookie : tor.NeedsCookie)
      (hpath : tor.report.cookieFile = some path) (hread : env.readFile path = .error error) :
      Excused env tor s (.client (.command (.io error)))
  | cookieLength {path bytes} (hcookie : tor.NeedsCookie)
      (hpath : tor.report.cookieFile = some path) (hread : env.readFile path = .ok bytes)
      (h : bytes.length ≠ 32) :
      Excused env tor s (.client (.invalidCookieLength bytes.length))
  | serverHash (hsafe : .safeCookie ∈ tor.methods) (h : ¬ Proven env tor.toTor) :
      Excused env tor s (.client .invalidServerHash)
  | refused {message} (h : ¬ Proven env tor.toTor) :
      Excused env tor s (.client (.commandFailed 515 message))

/-! ## Sessions as programs -/

/-- Sequencing is kept. -/
theorem session_bind {α β : Type} (p : Session α) (f : α → Session β) :
    session (p >>= f) = session p >>= fun value => session (f value) := by
  have hrest : (fun result => Calls.interpret (fun text => Sys.call (.command text))
        (ExceptT.bindCont f result)) =
      ExceptT.bindCont fun value => session (f value) := by
    funext result
    cases result <;> rfl
  show ExceptT.mk (Calls.interpret _ (p.run >>= ExceptT.bindCont f)) = _
  rw [Calls.interpret_bind, hrest]
  rfl

/-- A command is a call, and its result is judged. -/
theorem session_commandSuccess {text : Text} (h : IsLine text) :
    session (commandSuccess text) =
      ExceptT.mk (Sys.call (.command text) >>= fun result => pure (accepted result)) := by
  unfold session
  rw [commandSuccess_run h]
  rfl

/-! ## Rules -/

section

variable (env : AuthEnv) (tor : StartedTor) {ε α β : Type} {s : Scene}

/-- What a part of a startup has done. -/
def Justified (wrap : ε → ControlError) (mid : α → Scene → Prop) : Except ε α → Scene → Prop
  | .ok value, t => InOrder env tor.toTor t.connection ∧ mid value t
  | .error error, t => InOrder env tor.toTor t.connection ∧ Excused env tor t (wrap error)

/-- A part of a startup keeps the order, and fails for a reason only. -/
def Keeps (wrap : ε → ControlError) (program : ExceptT ε Sys α) (mid : α → Scene → Prop)
    (s : Scene) : Prop :=
  program.run.Meets tor.effect (fun t _ => InOrder env tor.toTor t.connection)
    (Justified env tor wrap mid) s

end

section

variable {env : AuthEnv} {tor : StartedTor} {ε ε' α β : Type} {s t : Scene}
  {wrap : ε → ControlError} {mid : α → Scene → Prop} {mid' : β → Scene → Prop}

/-- Sequencing. -/
theorem Keeps.bind (mid : α → Scene → Prop) {program : ExceptT ε Sys α}
    {f : α → ExceptT ε Sys β} (h : Keeps env tor wrap program mid s)
    (hf : ∀ value t, InOrder env tor.toTor t.connection → mid value t →
      Keeps env tor wrap (f value) mid' t) :
    Keeps env tor wrap (program >>= f) mid' s := by
  refine Calls.Meets.bind_except (fun value t => InOrder env tor.toTor t.connection ∧ mid value t)
    (fun error t => InOrder env tor.toTor t.connection ∧ Excused env tor t (wrap error))
    (h.imp ?_) (fun value t ht => hf value t ht.1 ht.2) fun error t => id
  rintro (error | value) t ht <;> exact ht

/-- An error in another type. -/
theorem Keeps.wrapError {wrap' : ε' → ε} {program : ExceptT ε' Sys α}
    (h : Keeps env tor (fun error => wrap (wrap' error)) program mid s) :
    Keeps env tor wrap (Sys.wrapError wrap' program) mid s := by
  refine Sys.meets_wrapError.mpr (h.imp ?_)
  rintro (error | value) t ht <;> exact ht

/-- A known result. -/
theorem keeps_ofExcept {result : Except ε α} (hs : InOrder env tor.toTor s.connection)
    (hok : ∀ value, result = .ok value → mid value s)
    (herror : ∀ error, result = .error error → Excused env tor s (wrap error)) :
    Keeps env tor wrap (Sys.ofExcept result) mid s := by
  cases result with
  | ok value => exact ⟨hs, hok value rfl⟩
  | error error => exact ⟨hs, herror error rfl⟩

/-- A known value. -/
theorem keeps_pure {value : α} (hs : InOrder env tor.toTor s.connection) (h : mid value s) :
    Keeps env tor wrap (pure value) mid s := ⟨hs, h⟩

/-- A reply is read as it was sent. -/
theorem receiveReply_fst (sent : WireReply) (rest : List UInt8) (ending : StreamEnd) :
    (receiveReply ⟨sent.encode ++ rest, ending⟩).1 = .ok sent.read := by
  rw [receiveReply_encode]

/-- A reply with status 250 is accepted. -/
theorem accepted_success {sent : WireReply} (h : sent.code = successCode) :
    accepted (.ok sent.read) = .ok sent.read :=
  accepted_eq_ok_iff.mpr ⟨rfl, by rw [WireReply.read, h]; rfl⟩

/-- A command that Tor carries out. -/
theorem keeps_command {text : Text} (h : IsLine text) (hs : InOrder env tor.toTor s.connection)
    {reply : WireReply} {after : Connection}
    (hanswer : tor.answer s.connection text = (reply, after))
    (hafter : InOrder env tor.toTor after) (hcode : reply.code = successCode) :
    Keeps env tor .client (session (commandSuccess text))
      (fun result t => result = reply.read ∧ t = { s with connection := after }) s := by
  have hscene : tor.after s text = { s with connection := after } := by
    rw [StartedTor.after, hanswer]
  rw [session_commandSuccess h]
  refine Calls.meets_bind.mpr ⟨hs, fun result t ht => ?_⟩
  rw [StartedTor.effect, StartedTor.Answers, hscene, hanswer] at ht
  rcases ht with ⟨rfl, rest, ending, rfl⟩ | ⟨ht, error, rfl⟩
  · rw [receiveReply_fst]
    show Justified env tor .client _ (accepted (.ok _)) _
    rw [accepted_success hcode]
    exact ⟨hafter, rfl, rfl⟩
  · rcases ht with rfl | rfl
    · exact ⟨hs, .lost rfl⟩
    · exact ⟨hafter, .lost rfl⟩

/-- A command that Tor refuses. -/
theorem keeps_refused {text : Text} (h : IsLine text) (hs : InOrder env tor.toTor s.connection)
    (hanswer : tor.answer s.connection text = (refusal, s.connection))
    (hproven : ¬ Proven env tor.toTor) {mid : ControlReply → Scene → Prop} :
    Keeps env tor .client (session (commandSuccess text)) mid s := by
  have hafter : tor.after s text = s := by
    unfold StartedTor.after
    rw [hanswer]
  rw [session_commandSuccess h]
  refine Calls.meets_bind.mpr ⟨hs, fun result t ht => ?_⟩
  rw [StartedTor.effect, StartedTor.Answers, hafter, or_self, hanswer] at ht
  rcases ht with ⟨rfl, rest, ending, rfl⟩ | ⟨rfl, error, rfl⟩
  · rw [receiveReply_fst]
    exact ⟨hs, .refused hproven⟩
  · exact ⟨hs, .lost rfl⟩

/-! ## The steps of a startup -/

/-- Nothing has happened yet. -/
theorem inOrder_new {connection : Connection} {nonce : Option (List UInt8)}
    (h : connection = ⟨nonce, false, false, false, 0⟩) : InOrder env tor.toTor connection := by
  rw [h]
  constructor <;> simp

/-- The client has proved what it knows. -/
theorem inOrder_proven (h : Proven env tor.toTor) {nonce : Option (List UInt8)} {owned reset : Bool}
    {asked : ℕ} (howned : reset = true → owned = true) (hreset : 0 < asked → reset = true) :
    InOrder env tor.toTor ⟨nonce, true, owned, reset, asked⟩ :=
  ⟨fun _ => h, fun _ => rfl, howned, hreset⟩

/-- The connection has only been authenticated. -/
def Admitted (env : AuthEnv) (tor : StartedTor) (t : Scene) : Prop :=
  Proven env tor.toTor ∧ ∃ nonce, t.connection = ⟨nonce, true, false, false, 0⟩

/-- A proof is admitted if it is right. -/
theorem keeps_authenticate {nonce : Option (List UInt8)} {bytes : Vector UInt8 32}
    (hs : s.connection = ⟨nonce, false, false, false, 0⟩)
    (hadmits : tor.admits s.connection bytes.toList = true ↔ Proven env tor.toTor) :
    Keeps env tor .client
      (session (commandSuccess (authenticateCommand bytes) >>= fun _ => (pure () : Session Unit)))
      (fun _ t => Admitted env tor t) s := by
  have hnew : InOrder env tor.toTor s.connection := inOrder_new hs
  have hanswer := tor.answer_authenticate s.connection bytes
  rw [session_bind]
  by_cases hproven : Proven env tor.toTor
  · rw [if_pos (hadmits.mpr hproven)] at hanswer
    have hafter : InOrder env tor.toTor { s.connection with authenticated := true } := by
      rw [hs]
      exact inOrder_proven hproven nofun nofun
    refine Keeps.bind _ (keeps_command (isLine_authenticateCommand bytes) hnew hanswer hafter rfl)
      fun _ t ht ⟨_, hscene⟩ => keeps_pure ht ⟨hproven, nonce, ?_⟩
    rw [hscene, hs]
  · rw [if_neg (mt hadmits.mp hproven)] at hanswer
    exact Keeps.bind (fun _ _ => False)
      (keeps_refused (isLine_authenticateCommand bytes) hnew hanswer hproven) fun _ t _ h => h.elim

/-- The client's cookie, where it has one. -/
theorem readCookie_cases (env : AuthEnv) (path : Text) :
    (∃ cookie, readCookie env path = .ok cookie) ∨
      (∃ error, env.readFile path = .error error ∧
        readCookie env path = .error (.command (.io error))) ∨
      ∃ bytes, env.readFile path = .ok bytes ∧ bytes.length ≠ 32 ∧
        readCookie env path = .error (.invalidCookieLength bytes.length) := by
  unfold readCookie
  cases hread : env.readFile path with
  | error error => exact .inr (.inl ⟨error, rfl, rfl⟩)
  | ok bytes =>
    by_cases hlength : bytes.length = 32
    · exact .inl ⟨_, dif_pos hlength⟩
    · exact .inr (.inr ⟨bytes, rfl, hlength, dif_neg hlength⟩)

/-- The client reads the cookie, or is excused. -/
theorem keeps_readCookie {path : Line} (hneeds : tor.NeedsCookie)
    (hpath : tor.report.cookieFile = some path) (hs : InOrder env tor.toTor s.connection) :
    Keeps env tor .client (session (Session.ofExcept (readCookie env path.val)))
      (fun cookie t => t = s ∧ readCookie env path.val = .ok cookie) s := by
  refine keeps_ofExcept hs (fun cookie hcookie => ⟨rfl, hcookie⟩) fun error herror => ?_
  rcases readCookie_cases env path.val with
    ⟨cookie, h⟩ | ⟨error', hread, h⟩ | ⟨bytes, hread, hlength, h⟩
  · rw [h] at herror
    cases herror
  · rw [h] at herror
    cases herror
    exact .cookieUnread hneeds hpath hread
  · rw [h] at herror
    cases herror
    exact .cookieLength hneeds hpath hread hlength

/-- What the two sides have proved, where the client has the cookie and the nonce. -/
theorem proven_iff {path : Line} {cookie nonce : Vector UInt8 32}
    (hsafe : .safeCookie ∈ tor.methods) (hpath : tor.report.cookieFile = some path)
    (hcookie : readCookie env path.val = .ok cookie) (hnonce : env.random = .ok nonce) :
    Proven env tor.toTor ↔ ∀ key ∈ [serverHashKey, clientHashKey],
      safecookieHash env key cookie nonce tor.serverNonce.toList = tor.hash key nonce.toList := by
  unfold Proven
  rw [if_pos hsafe]
  constructor
  · rintro ⟨path', cookie', nonce', hpath', hcookie', hnonce', hkeys⟩
    obtain rfl : path' = path := Option.some.inj (hpath'.symm.trans hpath)
    obtain rfl : cookie' = cookie := Except.ok.inj (hcookie'.symm.trans hcookie)
    obtain rfl : nonce' = nonce := Except.ok.inj (hnonce'.symm.trans hnonce)
    exact hkeys
  · exact fun hkeys => ⟨path, cookie, nonce, hpath, hcookie, hnonce, hkeys⟩

/-- With SAFECOOKIE, the client authenticates if both sides know the cookie. -/
theorem keeps_authenticateSafecookie {path : Line} (hsafe : .safeCookie ∈ tor.methods)
    (hpath : tor.report.cookieFile = some path) (hs : s.connection = .new) :
    Keeps env tor .client (session (authenticateSafecookie env path.val))
      (fun _ t => Admitted env tor t) s := by
  have hnew : InOrder env tor.toTor s.connection := inOrder_new hs
  unfold authenticateSafecookie
  rw [session_bind]
  refine Keeps.bind _ (keeps_readCookie (.inl hsafe) hpath hnew) fun cookie t _ ⟨ht, hcookie⟩ => ?_
  subst ht
  rw [session_bind]
  refine Keeps.bind (fun nonce u => u = t ∧ env.random = .ok nonce)
    (keeps_ofExcept hnew (fun nonce hnonce => ⟨rfl, ?_⟩) fun error herror => ?_)
    fun nonce u _ ⟨hu, hnonce⟩ => ?_
  · cases hrandom : env.random with
    | error error => simp [hrandom, Except.mapError] at hnonce
    | ok nonce' => simpa [hrandom, Except.mapError] using hnonce
  · cases hrandom : env.random with
    | error error' =>
      obtain rfl : ClientError.random error' = error := by
        simpa [hrandom, Except.mapError] using herror
      exact .random hsafe hrandom
    | ok nonce => simp [hrandom, Except.mapError] at herror
  subst hu
  have hproven := proven_iff hsafe hpath hcookie hnonce
  have hanswer := tor.answer_challenge hsafe u.connection nonce
  have hafter : InOrder env tor.toTor { u.connection with clientNonce := some nonce.toList } := by
    rw [hs]
    exact inOrder_new rfl
  rw [session_bind]
  refine Keeps.bind _ (keeps_command (isLine_challengeCommand nonce) hnew hanswer hafter rfl)
    fun reply v hv ⟨hreply, hscene⟩ => ?_
  have hchallenged : v.connection = ⟨some nonce.toList, false, false, false, 0⟩ := by
    rw [hscene, hs]
    rfl
  rw [hreply, tor.parseChallenge_answer, ofExcept_ok_bind]
  dsimp only
  split_ifs with hverify
  · -- The server's hash is not the one that the client computes.
    refine ⟨hv, .serverHash hsafe fun h => ?_⟩
    have hhash := hproven.mp h serverHashKey List.mem_cons_self
    unfold verifySafecookieHash at hverify
    rw [hhash] at hverify
    simp at hverify
  · refine keeps_authenticate hchallenged ?_
    have hserver : (tor.hash serverHashKey nonce.toList).toList =
        (safecookieHash env serverHashKey cookie nonce tor.serverNonce.toList).toList := by
      simpa [verifySafecookieHash] using hverify
    have hadmits : tor.admits v.connection (safecookieHash env clientHashKey cookie nonce
          tor.serverNonce.toList).toList = true ↔
        safecookieHash env clientHashKey cookie nonce tor.serverNonce.toList =
          tor.hash clientHashKey nonce.toList := by
      unfold Tor.admits
      rw [hchallenged]
      simp only [decide_eq_true_eq, Vector.toList_inj]
    have hsame := (Vector.toList_inj.mp hserver).symm
    rw [hadmits, hproven, List.forall_mem_cons, List.forall_mem_singleton]
    exact ⟨fun h => ⟨hsame, h⟩, fun h => h.2⟩

/-- With COOKIE alone, the client authenticates if it has Tor's cookie, or needs none. -/
theorem keeps_authenticateCookie {path : Line} (hsafe : .safeCookie ∉ tor.methods)
    (hmethod : .cookie ∈ tor.methods) (hpath : tor.report.cookieFile = some path)
    (hs : s.connection = .new) :
    Keeps env tor .client (session (authenticateCookie env path.val))
      (fun _ t => Admitted env tor t) s := by
  have hnew : InOrder env tor.toTor s.connection := inOrder_new hs
  unfold authenticateCookie
  rw [session_bind]
  refine Keeps.bind _ (keeps_readCookie (.inr hmethod) hpath hnew)
    fun cookie t _ ⟨ht, hcookie⟩ => ?_
  subst ht
  refine keeps_authenticate hs ?_
  have hsame : cookie = tor.cookie ↔ ∃ path, tor.report.cookieFile = some path ∧
      readCookie env path = .ok tor.cookie := by
    constructor
    · rintro rfl
      exact ⟨path, hpath, hcookie⟩
    · rintro ⟨path', hpath', hcookie'⟩
      obtain rfl : path' = path := Option.some.inj (hpath'.symm.trans hpath)
      exact Except.ok.inj (hcookie.symm.trans hcookie')
  unfold Tor.admits Proven
  rw [hs, if_neg hsafe, ← hsame]
  simp only [Connection.new, decide_eq_true_eq, Vector.toList_inj, hmethod, true_and]

/-- Where NULL is a method, the client needs no cookie. -/
theorem keeps_authenticateNull (hsafe : .safeCookie ∉ tor.methods) (hmethod : .null ∈ tor.methods)
    (hs : s.connection = .new) :
    Keeps env tor .client
      (session (commandSuccess "AUTHENTICATE".toList >>= fun _ => (pure () : Session Unit)))
      (fun _ t => Admitted env tor t) s := by
  have hnew : InOrder env tor.toTor s.connection := inOrder_new hs
  have hproven : Proven env tor.toTor := by
    unfold Proven
    rw [if_neg hsafe]
    exact .inl hmethod
  have hanswer : tor.answer s.connection "AUTHENTICATE".toList =
      (doneReply, { s.connection with authenticated := true }) :=
    tor.answer_null hmethod (by rw [hs]; rfl)
  have hafter : InOrder env tor.toTor { s.connection with authenticated := true } := by
    rw [hs]
    exact inOrder_proven hproven nofun nofun
  rw [session_bind]
  refine Keeps.bind _ (keeps_command (by decide) hnew hanswer hafter rfl)
    fun _ t ht ⟨_, hscene⟩ => keeps_pure ht ⟨hproven, none, ?_⟩
  rw [hscene, hs]
  rfl

/-- The path of the cookie file is the reported one. -/
theorem keeps_cookiePath {version : Option Text} (hneeds : tor.NeedsCookie)
    (hs : InOrder env tor.toTor s.connection) {f : Text → Session Unit}
    (hf : ∀ path : Line, tor.report.cookieFile = some path →
      Keeps env tor .client (session (f path.val)) (fun _ t => Admitted env tor t) s) :
    Keeps env tor .client
      (session (Session.ofExcept
        (cookiePath ⟨tor.methods, tor.report.cookieFile.map (·.val), version⟩) >>= f))
      (fun _ t => Admitted env tor t) s := by
  rw [session_bind]
  unfold cookiePath
  cases hfile : tor.report.cookieFile with
  | none => exact ⟨hs, .noCookieFile hneeds hfile⟩
  | some path => exact hf path hfile

/-- The client authenticates by the strongest method. -/
theorem keeps_authenticateBy {version : Option Text} (hs : s.connection = .new) :
    Keeps env tor .client
      (session (authenticate env ⟨tor.methods, tor.report.cookieFile.map (·.val), version⟩))
      (fun _ t => Admitted env tor t) s := by
  have hnew : InOrder env tor.toTor s.connection := inOrder_new hs
  unfold authenticate
  dsimp only
  split_ifs with hsafe hcookie hnull
  · exact keeps_cookiePath (.inl hsafe) hnew fun path hpath =>
      keeps_authenticateSafecookie hsafe hpath hs
  · exact keeps_cookiePath (.inr hcookie) hnew fun path hpath =>
      keeps_authenticateCookie hsafe hcookie hpath hs
  · exact keeps_authenticateNull hsafe hnull hs
  · exact ⟨hnew, .noMethod ⟨hsafe, hcookie, hnull⟩⟩

/-- Tor belongs to the connection, and to no other process. -/
def Owned (env : AuthEnv) (tor : StartedTor) (asked : ℕ) (t : Scene) : Prop :=
  Proven env tor.toTor ∧ ∃ nonce, t.connection = ⟨nonce, true, true, true, asked⟩

/-- The ownership is taken. -/
theorem keeps_takeOwnership (h : Admitted env tor s) :
    Keeps env tor .client (session takeOwnership) (fun _ t => Owned env tor 0 t) s := by
  obtain ⟨hproven, nonce, hs⟩ := h
  have hadmitted : InOrder env tor.toTor s.connection := by
    rw [hs]
    exact inOrder_proven hproven nofun nofun
  have htake := tor.answer_takeOwnership (s := s.connection) (by rw [hs])
  have htaken : InOrder env tor.toTor { s.connection with owned := true } := by
    rw [hs]
    exact inOrder_proven hproven nofun nofun
  unfold takeOwnership
  rw [session_bind]
  refine Keeps.bind _ (keeps_command (by decide) hadmitted htake htaken rfl)
    fun _ t _ ⟨_, ht⟩ => ?_
  have hs' : t.connection = ⟨nonce, true, true, false, 0⟩ := by
    rw [ht, hs]
  have hreset := tor.answer_resetOwner (s := t.connection) (by rw [hs'])
  have howned : InOrder env tor.toTor { t.connection with ownerReset := true } := by
    rw [hs']
    exact inOrder_proven hproven (fun _ => rfl) nofun
  have horder : InOrder env tor.toTor t.connection := by
    rw [hs']
    exact inOrder_proven hproven nofun nofun
  rw [session_bind]
  refine Keeps.bind _ (keeps_command (by decide) horder hreset howned rfl)
    fun _ u hu ⟨_, hscene⟩ => keeps_pure hu ⟨hproven, nonce, ?_⟩
  rw [hscene, hs']

/-- The handshake. -/
theorem keeps_handshake (hs : s.connection = .new) :
    Keeps env tor .client (session (authenticateAndTakeOwnership env))
      (fun _ t => Owned env tor 0 t) s := by
  have hnew : InOrder env tor.toTor s.connection := inOrder_new hs
  obtain ⟨version, hinfo⟩ := tor.parseProtocolInfo_answer
  unfold authenticateAndTakeOwnership protocolInfo
  rw [bind_assoc, session_bind]
  refine Keeps.bind _ (keeps_command (by decide) hnew
    (tor.answer_protocolInfo s.connection) hnew rfl) fun reply t _ ⟨hreply, ht⟩ => ?_
  rw [hreply, hinfo, ofExcept_ok_bind, session_bind]
  refine Keeps.bind _ (keeps_authenticateBy (by rw [ht]; exact hs)) fun _ u _ hadmitted => ?_
  rw [session_bind]
  exact Keeps.bind _ (keeps_takeOwnership hadmitted) fun _ v hv howned => keeps_pure hv howned

/-- The owned connection is in order. -/
theorem Owned.inOrder {asked : ℕ} (h : Owned env tor asked s) :
    InOrder env tor.toTor s.connection := by
  obtain ⟨hproven, nonce, hs⟩ := h
  rw [hs]
  exact inOrder_proven hproven (fun _ => rfl) fun _ => rfl

/-- A question for the phase changes the number of the questions only. -/
theorem Owned.after_phase {asked : ℕ} (h : Owned env tor asked s) :
    tor.answer s.connection phaseCommand =
        ((tor.phases asked).reply, (tor.after s phaseCommand).connection) ∧
      Owned env tor (asked + 1) (tor.after s phaseCommand) := by
  obtain ⟨hproven, nonce, hs⟩ := h
  have hanswer : tor.answer s.connection phaseCommand =
      ((tor.phases asked).reply, ⟨nonce, true, true, true, asked + 1⟩) := by
    rw [hs]
    exact tor.answer_phase rfl
  have hconnection : (tor.after s phaseCommand).connection =
      ⟨nonce, true, true, true, asked + 1⟩ := by
    rw [StartedTor.after, hanswer]
  exact ⟨by rw [hanswer, hconnection], hproven, nonce, hconnection⟩

/-- The wait is over when Tor has reported that it is ready, which it has not before. -/
theorem keeps_pollBootstrap {rounds asked : ℕ} (h : Owned env tor asked s)
    (hrounds : asked + rounds = s.phaseRounds)
    (hbefore : ∀ k < asked, (tor.phases k).progress ≠ 100) :
    Keeps env tor .client (pollBootstrap rounds)
      (fun _ t => ∃ n, Owned env tor (n + 1) t ∧ (tor.phases n).progress = 100) s := by
  induction rounds generalizing asked s with
  | zero =>
    refine ⟨h.inOrder, .bootstrap (.inr ?_)⟩
    rwa [← hrounds]
  | succ rounds ih =>
    obtain ⟨hanswer, hafter⟩ := h.after_phase
    refine Sys.always_bind (tor.effect (.commandWithin phaseCommand) s)
      ⟨h.inOrder, fun _ _ ht => ht⟩ fun answer t ht => ?_
    cases answer with
    | none =>
      rcases ht with rfl | rfl
      · exact ⟨h.inOrder, .bootstrap (.inl rfl)⟩
      · exact ⟨hafter.inOrder, .bootstrap (.inl rfl)⟩
    | some result =>
      rcases ht with ⟨rfl, rest, ending, rfl⟩ | ⟨ht, error, rfl⟩
      · have hprogress := (tor.phases asked).bootstrapProgress_read
        rw [receiveReply_fst, hanswer]
        dsimp only
        rw [accepted_success rfl]
        show Keeps env tor .client
          (if bootstrapProgress (tor.phases asked).reply.read = some 100 then _ else _) _ _
        rw [hprogress]
        by_cases hready : (tor.phases asked).progress = 100
        · rw [if_pos (by rw [hready]; rfl)]
          exact keeps_pure hafter.inOrder ⟨asked, hafter, hready⟩
        · have hother : some (tor.phases asked).progress.toNat ≠ some 100 := by
            intro heq
            exact hready (UInt8.toNat_inj.mp (Option.some.inj heq))
          rw [if_neg hother]
          refine ih hafter ?_ fun k hk => ?_
          · show asked + 1 + rounds = s.phaseRounds
            omega
          · rcases Nat.lt_succ_iff_lt_or_eq.mp hk with hk | rfl
            · exact hbefore k hk
            · exact hready
      · rcases ht with rfl | rfl
        · exact ⟨h.inOrder, .lost rfl⟩
        · exact ⟨hafter.inOrder, .lost rfl⟩

/-- The wait for the bootstrap. -/
theorem keeps_awaitBootstrap {waitFor : ℕ} (h : Owned env tor 0 s) :
    Keeps env tor .client (awaitBootstrap waitFor)
      (fun _ t => ∃ n, Owned env tor (n + 1) t ∧ (tor.phases n).progress = 100) s := by
  refine Sys.always_bind (tor.effect (.rounds waitFor) s) ⟨h.inOrder, fun _ _ ht => ht⟩
    fun rounds t ht => ?_
  have hreset : s.connection.ownerReset = true := by
    obtain ⟨-, nonce, hs⟩ := h
    rw [hs]
  have ht : t = s.grant rounds := ht
  rw [Scene.grant, if_pos hreset] at ht
  subst ht
  exact keeps_pollBootstrap h (Nat.zero_add rounds) fun k hk => absurd hk (Nat.not_lt_zero k)

/-- The one listener is found. -/
theorem keeps_socksListener {asked : ℕ} (h : Owned env tor asked s) :
    Keeps env tor .client (session (socksListener parseSocketAddr))
      (fun addr t => t = s ∧ tcpAddrs tor.listeners = [addr]) s := by
  have hauthenticated : s.connection.authenticated = true := by
    obtain ⟨-, nonce, hs⟩ := h
    rw [hs]
  have hunix : ∀ path : Line, .unix path ∈ tor.listeners →
      parseSocketAddr ("unix:".toList ++ path.val) = none := fun path _ =>
    parseSocketAddr_cons (by decide) (by decide)
  have hfound : (listenersValue (listenersReply tor.listeners).read).map
      (fun value => (controlWords value).filterMap parseSocketAddr) =
      some (tcpAddrs tor.listeners) := by
    rw [listenersValue_read (reports_listenersReply tor.listeners), Option.map_some,
      controlWords_reportedValue,
      filterMap_parse (fun addr _ => parseSocketAddr_display addr) hunix]
  unfold socksListener socksListeners
  rw [bind_assoc, session_bind]
  refine Keeps.bind _ (keeps_command isLine_getListeners h.inOrder
    (tor.answer_listeners hauthenticated) h.inOrder rfl) fun reply t ht ⟨hreply, hscene⟩ => ?_
  obtain rfl : t = s := hscene
  obtain ⟨value, hvalue, haddrs⟩ := Option.map_eq_some_iff.mp hfound
  rw [hreply, pure_bind]
  simp only [hvalue, haddrs]
  split_ifs with hone
  · obtain ⟨addr, haddr⟩ := List.length_eq_one_iff.mp hone
    refine keeps_pure ht ⟨rfl, ?_⟩
    simp only [haddr, List.getElem_cons_zero]
  · exact ⟨ht, .listeners hone⟩

/-- The first text in the file is the whole line. -/
theorem keeps_pollPortFile {path : Path} {rounds : ℕ} (hs : s.connection = .new)
    (hrounds : s.polled + rounds = s.portRounds)
    (hbefore : ∀ k < s.polled, IsBlank (tor.portFile k)) :
    Keeps env tor .portFile (pollPortFile path rounds)
      (fun addr t => addr = tor.controlAddr ∧ t.connection = .new) s := by
  have hnew : InOrder env tor.toTor s.connection := inOrder_new hs
  induction rounds generalizing s with
  | zero =>
    refine ⟨hnew, .portTimeout ?_⟩
    rwa [← hrounds]
  | succ rounds ih =>
    refine Sys.always_bind (tor.effect (.readToString path) s) ⟨hnew, fun _ _ ht => ht⟩
      fun read t ht => ?_
    rcases ht with ⟨rfl, hseen⟩ | ⟨rfl, error, hseen⟩
    · have hrest (hblank : IsBlank (tor.portFile s.polled)) :
          Keeps env tor .portFile (pollPortFile path rounds)
            (fun addr t => addr = tor.controlAddr ∧ t.connection = .new)
            { s with polled := s.polled + 1 } := by
        refine ih hs ?_ (fun k hk => ?_) hnew
        · show s.polled + 1 + rounds = s.portRounds
          omega
        · rcases Nat.lt_succ_iff_lt_or_eq.mp hk with hk | rfl
          · exact hbefore k hk
          · exact hblank
      rw [hseen]
      rcases tor.portFile_eq s.polled with hblank | hfile
      · cases hfound : tor.portFile s.polled with
        | failed error =>
          rw [hfound] at hblank
          cases hblank
        | notFound => exact hrest hblank
        | content text =>
          have htrim := trim_eq_nil_iff.mpr (hfound ▸ hblank)
          dsimp only
          rw [if_neg (not_not_intro htrim)]
          exact hrest hblank
      · have hletter : 'P' ∈ portLine tor.controlAddr :=
          List.mem_append_left _ (List.mem_append_left _ List.mem_cons_self)
        have htext : trim (portLine tor.controlAddr) ≠ [] := by
          intro hnil
          have hblank := trim_eq_nil_iff.mp hnil
          cases hblank with
          | blank h => exact absurd (h 'P' hletter) (by decide)
        have hparse : parseControlEndpoint path (portLine tor.controlAddr) =
            .ok tor.controlAddr :=
          (parseControlEndpoint_part (List.prefix_refl _) (List.ne_nil_of_mem hletter)).mpr
            (List.prefix_append _ _)
        rw [hfile]
        dsimp only
        rw [if_pos htext, hparse]
        exact ⟨hnew, rfl, hs⟩
    · rw [hseen]
      exact ⟨hnew, .portUnread rfl⟩

/-- What a successful startup has. -/
structure Ready (tor : StartedTor) (controlAddr socksAddr : SocketAddr) (t : Scene) : Prop where
  controlAddr : controlAddr = tor.controlAddr
  ownerReset : t.connection.ownerReset = true
  bootstrapped : ∃ n < t.connection.asked, (tor.phases n).progress = 100
  socksAddr : tcpAddrs tor.listeners = [socksAddr]

/-- Against a Tor that keeps to the protocol: Tor authenticates no client but one that has proved
what it knows, it belongs to no client before that, and it is asked nothing before it belongs to the
client. A startup that succeeds is `Ready`, and one that fails is `Excused`. -/
theorem finishStartup_meets (env : AuthEnv) (tor : StartedTor) (config : InstanceConfig)
    (layout : InstanceLayout) (portRounds phaseRounds : ℕ) :
    (finishStartup env config layout).run.Meets tor.effect
      (fun t _ => InOrder env tor.toTor t.connection)
      (fun result t => InOrder env tor.toTor t.connection ∧
        match result with
        | .ok (controlAddr, socksAddr) => Ready tor controlAddr socksAddr t
        | .error error => Excused env tor t error) (Scene.start portRounds phaseRounds) := by
  have hnew {t : Scene} (ht : t.connection = .new) : InOrder env tor.toTor t.connection :=
    inOrder_new ht
  have hkeeps : Keeps env tor id (finishStartup env config layout)
      (fun addrs t => Ready tor addrs.1 addrs.2 t) (Scene.start portRounds phaseRounds) := by
    unfold finishStartup waitPortFile
    refine Keeps.bind (fun addr t => addr = tor.controlAddr ∧ t.connection = .new)
      (Keeps.wrapError ?_) fun addr t _ ⟨haddr, ht⟩ => ?_
    · refine Sys.always_bind (tor.effect (.rounds _) (Scene.start portRounds phaseRounds))
        ⟨hnew rfl, fun _ _ ht => ht⟩ fun rounds t ht => ?_
      obtain rfl : t = Scene.start rounds phaseRounds := ht
      exact keeps_pollPortFile rfl (Nat.zero_add rounds) fun k hk => absurd hk (Nat.not_lt_zero k)
    refine Sys.io_bind (fun _ u => u = t) ⟨hnew ht, ?_⟩ fun _ u hu => ?_
    · rintro (error | ⟨⟩) u hu
      · obtain rfl : u = { t with failed := true } := hu
        exact ⟨hnew ht, .connect rfl⟩
      · exact hu
    subst hu
    refine Keeps.bind _ (Keeps.wrapError (keeps_handshake ht)) fun _ v _ howned => ?_
    refine Keeps.bind _ (Keeps.wrapError (keeps_awaitBootstrap howned))
      fun _ w _ ⟨n, howned, hready⟩ => ?_
    refine Keeps.bind _ (Keeps.wrapError (keeps_socksListener howned))
      fun socksAddr x hx ⟨hsame, hlisteners⟩ => keeps_pure hx ?_
    obtain ⟨-, nonce, hconnection⟩ := howned
    subst hsame
    exact ⟨haddr, by rw [hconnection], ⟨n, by rw [hconnection]; exact Nat.lt_succ_self n, hready⟩,
      hlisteners⟩
  refine hkeeps.imp ?_
  rintro (error | addrs) t ht
  · exact ht
  · exact ht

/-! ## A startup that succeeds -/

/-- Nothing fails, and there are this many rounds until each of the two timeouts elapses. -/
def StartedTor.promptEffect (tor : StartedTor) (portRounds phaseRounds : ℕ) :
    Calls.Effect SysCall SysCall.Answer Scene := fun q s r t =>
  tor.effect q s r t ∧ (s.failed = false → t.failed = false) ∧
    (s.portRounds = portRounds → t.portRounds = portRounds) ∧
    (s.phaseRounds = phaseRounds → t.phaseRounds = phaseRounds)

/-- The client can authenticate, with a cookie where the method needs one, and both sides have what
the startup needs within so many rounds. -/
structure Friendly (env : AuthEnv) (tor : StartedTor) (portRounds phaseRounds : ℕ)
    (socksAddr : SocketAddr) : Prop where
  proven : Proven env tor.toTor
  method : .safeCookie ∈ tor.methods ∨ .cookie ∈ tor.methods ∨ .null ∈ tor.methods
  cookie : tor.NeedsCookie → ∃ path cookie, tor.report.cookieFile = some path ∧
    readCookie env path = .ok cookie
  random : .safeCookie ∈ tor.methods → ∃ nonce, env.random = .ok nonce
  published : ∃ k < portRounds, ¬ IsBlank (tor.portFile k)
  bootstrapped : ∃ k < phaseRounds, (tor.phases k).progress = 100
  listener : tcpAddrs tor.listeners = [socksAddr]

/-- There is no excuse. -/
theorem Friendly.not_excused {portRounds phaseRounds : ℕ} {socksAddr : SocketAddr}
    (h : Friendly env tor portRounds phaseRounds socksAddr) (ht : t.failed = false)
    (hport : t.portRounds = portRounds) (hphase : t.phaseRounds = phaseRounds)
    (error : ControlError) : ¬ Excused env tor t error := by
  obtain ⟨k, hk, hpublished⟩ := h.published
  obtain ⟨n, hn, hready⟩ := h.bootstrapped
  intro hexcused
  cases hexcused with
  | portTimeout hblank => exact hpublished (hblank k (hport ▸ hk))
  | portUnread hfailed => simp [ht] at hfailed
  | connect hfailed => simp [ht] at hfailed
  | lost hfailed => simp [ht] at hfailed
  | random hsafe hrandom =>
    obtain ⟨nonce, hnonce⟩ := h.random hsafe
    simp [hnonce] at hrandom
  | bootstrap hlate =>
    rcases hlate with hfailed | hnever
    · simp [ht] at hfailed
    · exact hnever n (hphase ▸ hn) hready
  | noMethod hnone =>
    obtain ⟨hsafe, hmethod, hnull⟩ := hnone
    exact h.method.elim hsafe fun hrest => hrest.elim hmethod hnull
  | noCookieFile hneeds hnone =>
    obtain ⟨path, cookie, hpath, hcookie⟩ := h.cookie hneeds
    simp [hpath] at hnone
  | listeners hcount => simp [h.listener] at hcount
  | cookieUnread hneeds hpath' hread =>
    obtain ⟨path, cookie, hpath, hcookie⟩ := h.cookie hneeds
    obtain rfl := Option.some.inj (hpath.symm.trans hpath')
    simp [readCookie, hread] at hcookie
  | cookieLength hneeds hpath' hread hlength =>
    obtain ⟨path, cookie, hpath, hcookie⟩ := h.cookie hneeds
    obtain rfl := Option.some.inj (hpath.symm.trans hpath')
    simp [readCookie, hread, hlength] at hcookie
  | serverHash _ hproven => exact hproven h.proven
  | refused hproven => exact hproven h.proven

/-- Where nothing fails and Tor is ready in time, a client that can authenticate starts up: it has
the two addresses, and Tor belongs to it. -/
theorem finishStartup_succeeds {portRounds phaseRounds : ℕ} {socksAddr : SocketAddr}
    (h : Friendly env tor portRounds phaseRounds socksAddr) (config : InstanceConfig)
    (layout : InstanceLayout) :
    (finishStartup env config layout).run.Meets (tor.promptEffect portRounds phaseRounds)
      (fun _ _ => True)
      (fun result t => result = .ok (tor.controlAddr, socksAddr) ∧
        t.connection.authenticated = true ∧ t.connection.owned = true ∧
        t.connection.ownerReset = true) (Scene.start portRounds phaseRounds) := by
  have hmeets := (finishStartup_meets env tor config layout portRounds phaseRounds).of_effect
    (fun q s r t (ht : tor.promptEffect portRounds phaseRounds q s r t) => ht.1)
  have hprompt : (finishStartup env config layout).run.Meets
      (tor.promptEffect portRounds phaseRounds)
      (fun t _ => t.failed = false ∧ t.portRounds = portRounds ∧ t.phaseRounds = phaseRounds)
      (fun _ t => t.failed = false ∧ t.portRounds = portRounds ∧ t.phaseRounds = phaseRounds)
      (Scene.start portRounds phaseRounds) := by
    refine Calls.meets_invariant ?_ _ ⟨rfl, rfl, rfl⟩
    rintro q s r t ⟨hfailed, hport, hphase⟩ ⟨-, hkeep, hkeepPort, hkeepPhase⟩
    exact ⟨hkeep hfailed, hkeepPort hport, hkeepPhase hphase⟩
  refine (hmeets.and hprompt).mono (fun _ _ _ => trivial) ?_
  rintro (error | ⟨controlAddr, addr⟩) t ⟨⟨horder, hresult⟩, ht, hport, hphase⟩
  · exact absurd hresult (h.not_excused ht hport hphase error)
  · have haddr : socksAddr = addr := by
      have hlist := hresult.socksAddr
      rw [h.listener] at hlist
      exact List.singleton_inj.mp hlist
    have howned := horder.owned hresult.ownerReset
    refine ⟨by rw [hresult.controlAddr, haddr], horder.authenticated howned, howned,
      hresult.ownerReset⟩

/-- Every call has an answer that is no failure. -/
theorem promptEffect_total (portRounds phaseRounds : ℕ) (q : SysCall) (s : Scene) :
    ∃ r t, tor.promptEffect portRounds phaseRounds q s r t := by
  have hanswers (text : Text) : tor.Answers s text
      (.ok (tor.answer s.connection text).1.read) (tor.after s text) :=
    .inl ⟨rfl, [], .eof, (receiveReply_fst _ [] .eof).symm⟩
  have hidle (r : q.Answer) (h : tor.effect q s r s) :
      ∃ r t, tor.promptEffect portRounds phaseRounds q s r t := ⟨r, s, h, id, id, id⟩
  cases q with
  | readToString path =>
    have hread : ∃ read, seenFile read = tor.portFile s.polled := by
      rcases tor.portFile_eq s.polled with hblank | hfile
      · cases hfound : tor.portFile s.polled with
        | failed error =>
          rw [hfound] at hblank
          cases hblank
        | notFound => exact ⟨.error (.os 2), rfl⟩
        | content text => exact ⟨.ok text, rfl⟩
      · exact ⟨.ok (portLine tor.controlAddr), by rw [hfile]; rfl⟩
    obtain ⟨read, hread⟩ := hread
    exact ⟨read, { s with polled := s.polled + 1 }, .inl ⟨rfl, hread⟩, id, id, id⟩
  | rounds limit =>
    by_cases hreset : s.connection.ownerReset = true
    · refine ⟨phaseRounds, { s with phaseRounds }, ?_, id, id, fun _ => rfl⟩
      show _ = s.grant phaseRounds
      rw [Scene.grant, if_pos hreset]
    · refine ⟨portRounds, { s with portRounds }, ?_, id, fun _ => rfl, id⟩
      show _ = s.grant portRounds
      rw [Scene.grant, if_neg hreset]
  | connect addr => exact hidle (.ok ()) rfl
  | command text => exact ⟨_, _, hanswers text, id, id, id⟩
  | commandWithin text => exact ⟨some _, _, hanswers text, id, id, id⟩
  | metadata => exact hidle (.ok 0) rfl
  | processId => exact hidle 0 rfl
  | clock => exact hidle 0 rfl
  | spawnBlocking => exact hidle true rfl
  | takeStdin => exact hidle true rfl
  | childId => exact hidle none rfl
  | sigterm => exact hidle (.ok ()) rfl
  | waitTimeout => exact hidle none rfl
  | output => exact hidle (.error .invalidData) rfl
  | spawn => exact hidle (.error .invalidData) rfl
  | waitWithOutput => exact hidle (.error .invalidData) rfl
  | tryWait => exact hidle (.ok none) rfl
  | wait => exact hidle (.error .invalidData) rfl
  | _ => exact hidle (.ok ()) rfl

end

/-- A word without a `B` is no marker. -/
theorem not_infix_bootstrap {word : Text} (h : 'B' ∉ word) : ¬ "BOOTSTRAP".toList <:+: word :=
  fun hpart => h (hpart.subset List.mem_cons_self)

/-- A phase of a bootstrap. -/
def localPhase (progress : UInt8) : BootstrapPhase where
  severity := ⟨"NOTICE".toList, by decide, not_infix_bootstrap (by decide)⟩
  progress := progress
  tag := ⟨"loading".toList, by decide, not_infix_bootstrap (by decide)⟩
  values := []

/-- A Tor that writes its port file late, and is ready at the second question. -/
def localTor : StartedTor where
  report := quotedReport
  infoLines := [.auth, .version]
  infoEnd := lastLine
  auth_mem := List.mem_cons_self
  cookie := Vector.replicate 32 17
  serverNonce := Vector.replicate 32 51
  hmac := (equalBytes 17).hmac
  phases n := localPhase (if n = 0 then 50 else 100)
  listeners := mixedListeners
  controlAddr := .v4 .localhost 9051
  portFile k := if k = 0 then .notFound else .content (portLine (.v4 .localhost 9051))
  portFile_eq k := by
    split_ifs
    · exact .inl .missing
    · exact .inr rfl

/-- A configuration with the default policy. -/
def localConfig : InstanceConfig where
  id := ⟨0⟩
  torBinary := "tor".toList
  root := "/srv".toList
  policy := .default
  configSource := .stdin
  controlPortTimeout := 10000
  bootstrapTimeout := 90000

/-- A client with the same cookie starts up within two looks at the file and three questions. -/
theorem finishStartup_succeeds_localTor :
    ∃ result t, Calls.Reaches (localTor.promptEffect 2 3)
        (finishStartup (equalBytes 17) localConfig (layoutOf localConfig.root)).run
        (.start 2 3) (.ret result) t ∧
      result = .ok (.v4 .localhost 9051, localListener) ∧ t.connection.authenticated = true ∧
      t.connection.owned = true ∧ t.connection.ownerReset = true := by
  have hsafe : .safeCookie ∈ localTor.methods := by decide
  have hfriendly : Friendly (equalBytes 17) localTor 2 3 localListener := by
    refine ⟨?_, .inl hsafe, fun _ => ?_, fun _ => ⟨_, rfl⟩, ⟨1, by decide, ?_⟩,
      ⟨1, by decide, rfl⟩, rfl⟩
    · unfold Proven
      rw [if_pos hsafe]
      exact ⟨_, Vector.replicate 32 17, _, rfl, rfl, rfl, fun _ _ => rfl⟩
    · exact ⟨_, Vector.replicate 32 17, rfl, rfl⟩
    · rintro ⟨⟩
      next h => exact absurd (h 'P' (by decide)) (by decide)
  exact (finishStartup_succeeds hfriendly localConfig (layoutOf localConfig.root)).exists_run
    (promptEffect_total 2 3)

end Torlane.Host
