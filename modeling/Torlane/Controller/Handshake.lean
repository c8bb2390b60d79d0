import Torlane.Controller.Auth

/-!
# The handshake

`ControlClient::authenticate_and_take_ownership` of `src/tor/controller/client.rs` against any
server. The server's side is the list of the results that the commands get, whatever they are, so
that a statement about every list is about every server, also one that has seen the commands.
`Handshake` lists what can have been sent, with what the client knew when it sent it, and
`handshake_safe` says that nothing else is ever sent. What the server has advertised is what
`parse_protocol_info` reads from its reply.
-/

namespace Torlane.Control

open Text
open Dialogue (Careful)

/-- The command that starts the handshake. -/
def protocolInfoCommand : Text := "PROTOCOLINFO 1".toList

/-- The commands that take the ownership. -/
def ownershipCommands : List Text :=
  ["TAKEOWNERSHIP".toList, "RESETCONF __OwningControllerProcess".toList]

/-- `ControlClient::take_ownership`. -/
def takeOwnership : Session Unit := do
  let _ ← commandSuccess "TAKEOWNERSHIP".toList
  let _ ← commandSuccess "RESETCONF __OwningControllerProcess".toList
  pure ()

/-- `ControlClient::authenticate_and_take_ownership`. -/
def authenticateAndTakeOwnership (env : AuthEnv) : Session ProtocolInfo := do
  let protocol ← protocolInfo
  authenticate env protocol
  takeOwnership
  pure protocol

/-! ## What is sent -/

/-- The server has advertised this, with status 250. -/
def Advertised (results : List CommandResult) (protocol : ProtocolInfo) : Prop :=
  ∃ reply, results[0]? = some (.ok reply) ∧ reply.code = 250 ∧
    parseProtocolInfo reply = .ok protocol

/-- The server has answered the challenge with this hash and this nonce, with status 250. -/
def Challenged (results : List CommandResult) (serverHash serverNonce : List UInt8) : Prop :=
  ∃ reply, results[1]? = some (.ok reply) ∧ reply.code = 250 ∧
    parseChallenge reply.lines = .ok (serverHash, serverNonce)

/-- What can have been sent, with these results of the commands. -/
inductive Handshake (env : AuthEnv) (results : List CommandResult) : List Text → Prop
  /-- Nothing is known of the server. -/
  | start : Handshake env results [protocolInfoCommand]
  /-- The client has challenged a server that advertises SAFECOOKIE. -/
  | challenge {protocol clientNonce} (hprotocol : Advertised results protocol)
      (hsafe : .safeCookie ∈ protocol.authMethods) (hnonce : env.random = .ok clientNonce) :
      Handshake env results [protocolInfoCommand, challengeCommand clientNonce]
  /-- The server's hash has 32 bytes, and proves that it knows the cookie. -/
  | safecookie {protocol path cookie clientNonce serverHash serverNonce rest}
      (hprotocol : Advertised results protocol) (hsafe : .safeCookie ∈ protocol.authMethods)
      (hpath : protocol.cookieFile = some path) (hcookie : readCookie env path = .ok cookie)
      (hnonce : env.random = .ok clientNonce) (hserver : Challenged results serverHash serverNonce)
      (hlength : serverHash.length = 32)
      (hhash : serverHash =
        (env.hmac serverHashKey (cookie.toList ++ clientNonce.toList ++ serverNonce)).toList)
      (hrest : rest <+: ownershipCommands) :
      Handshake env results (protocolInfoCommand :: challengeCommand clientNonce ::
        authenticateCommand
          (env.hmac clientHashKey (cookie.toList ++ clientNonce.toList ++ serverNonce)) :: rest)
  /-- The cookie is sent to a server that does not advertise SAFECOOKIE. -/
  | cookie {protocol path cookie rest} (hprotocol : Advertised results protocol)
      (hsafe : .safeCookie ∉ protocol.authMethods) (hmethod : .cookie ∈ protocol.authMethods)
      (hpath : protocol.cookieFile = some path) (hcookie : readCookie env path = .ok cookie)
      (hrest : rest <+: ownershipCommands) :
      Handshake env results (protocolInfoCommand :: authenticateCommand cookie :: rest)
  /-- The server advertises neither of the two, and wants no proof. -/
  | null {protocol rest} (hprotocol : Advertised results protocol)
      (hsafe : .safeCookie ∉ protocol.authMethods) (hcookie : .cookie ∉ protocol.authMethods)
      (hmethod : .null ∈ protocol.authMethods) (hrest : rest <+: ownershipCommands) :
      Handshake env results (protocolInfoCommand :: "AUTHENTICATE".toList :: rest)

/-! ## Each command needs the one before it -/

/-- The commands of the authentication are sent one after the other. -/
theorem careful_authenticate (env : AuthEnv) (protocol : ProtocolInfo) :
    Careful Succeeded (authenticate env protocol).run := by
  have hcommand (text : Text) :
      Careful Succeeded (commandSuccess text >>= fun _ => (pure () : Session Unit)).run :=
    (careful_commandSuccess text).bind fun _ => .ret _
  have hpath (f : Text → Session Unit) (hf : ∀ path, Careful Succeeded (f path).run) :
      Careful Succeeded (Session.ofExcept (cookiePath protocol) >>= f).run :=
    Careful.bind (.ret _) hf
  unfold authenticate
  split_ifs
  · refine hpath _ fun path => ?_
    unfold authenticateSafecookie
    refine Careful.bind (.ret _) fun cookie => Careful.bind (.ret _) fun clientNonce => ?_
    refine (careful_commandSuccess _).bind fun challenge => Careful.bind (.ret _) fun server => ?_
    split_ifs
    · exact .ret _
    · exact hcommand _
  · refine hpath _ fun path => ?_
    unfold authenticateCookie
    exact Careful.bind (.ret _) fun cookie => hcommand _
  · exact hcommand _
  · exact .ret _

/-- The commands of the handshake are sent one after the other. -/
theorem careful_handshake (env : AuthEnv) :
    Careful Succeeded (authenticateAndTakeOwnership env).run := by
  have hinfo : Careful Succeeded protocolInfo.run :=
    (careful_commandSuccess _).bind fun reply => .ret _
  have howner : Careful Succeeded takeOwnership.run :=
    (careful_commandSuccess _).bind fun _ => (careful_commandSuccess _).bind fun _ => .ret _
  exact hinfo.bind fun protocol => (careful_authenticate env protocol).bind fun _ =>
    howner.bind fun _ => .ret _

/-! ## Nothing else is sent -/

/-- After the last command of the authentication, only the ownership is taken. -/
theorem sent_ownership {text : Text} (h : IsLine text) (protocol : ProtocolInfo)
    (results : List CommandResult) :
    ∃ rest, rest <+: ownershipCommands ∧
      (commandSuccess text >>= fun _ => takeOwnership >>= fun _ =>
        (pure protocol : Session ProtocolInfo)).sent results = text :: rest := by
  have htake : IsLine "TAKEOWNERSHIP".toList := by decide
  have hreset : IsLine "RESETCONF __OwningControllerProcess".toList := by decide
  refine sent_commandSuccess_prefix h (fun _ results => ?_) results
  simp only [takeOwnership, bind_assoc, pure_bind]
  have hlast (results : List CommandResult) :
      (commandSuccess "RESETCONF __OwningControllerProcess".toList >>= fun _ =>
        (pure protocol : Session ProtocolInfo)).sent results <+:
      ["RESETCONF __OwningControllerProcess".toList] := by
    have hpure (results : List CommandResult) :
        (pure protocol : Session ProtocolInfo).sent results <+: [] := List.prefix_refl []
    obtain ⟨rest, hrest, hsent⟩ := sent_commandSuccess_prefix hreset (fun _ => hpure) results
    rw [hsent]
    exact (List.prefix_cons_inj _).mpr hrest
  obtain ⟨rest, hrest, hsent⟩ := sent_commandSuccess_prefix htake (fun _ => hlast) results
  rw [hsent]
  exact (List.prefix_cons_inj _).mpr hrest

/-- With SAFECOOKIE, the client challenges the server, and authenticates by the hash if the server's
hash is right. -/
theorem handshake_safecookie {env : AuthEnv} {reply : ControlReply} {results : List CommandResult}
    {protocol : ProtocolInfo} (hprotocol : Advertised (.ok reply :: results) protocol)
    (hsafe : .safeCookie ∈ protocol.authMethods) {path : Text}
    (hpath : protocol.cookieFile = some path) :
    Handshake env (.ok reply :: results) (protocolInfoCommand ::
      (authenticateSafecookie env path >>= fun _ => takeOwnership >>= fun _ =>
        (pure protocol : Session ProtocolInfo)).sent results) := by
  simp only [authenticateSafecookie, bind_assoc]
  rcases sent_ofExcept_cases (readCookie env path) _ results with hsent | ⟨cookie, hcookie, hsent⟩
  · rw [hsent]
    exact .start
  rw [hsent]
  rcases sent_ofExcept_cases (env.random.mapError .random) _ results with
    hsent | ⟨clientNonce, hrandom, hsent⟩
  · rw [hsent]
    exact .start
  rw [hsent]
  have hnonce : env.random = .ok clientNonce := by
    cases hcase : env.random with
    | error error => simp [hcase, Except.mapError] at hrandom
    | ok nonce =>
      have heq : nonce = clientNonce := by simpa [hcase, Except.mapError] using hrandom
      rw [heq]
  have hchallenge : Handshake env (.ok reply :: results)
      [protocolInfoCommand, challengeCommand clientNonce] := .challenge hprotocol hsafe hnonce
  rcases sent_commandSuccess_cases (isLine_challengeCommand clientNonce) _ results with
    hsent | ⟨answer, results', rfl, hcode, hsent⟩
  · rw [hsent]
    exact hchallenge
  rw [hsent]
  rcases sent_ofExcept_cases (parseChallenge answer.lines) _ results' with
    hsent | ⟨⟨serverHash, serverNonce⟩, hparse, hsent⟩
  · rw [hsent]
    exact hchallenge
  rw [hsent]
  by_cases hverify : verifySafecookieHash env serverHashKey cookie clientNonce serverNonce
      serverHash = false
  · simp only [if_pos hverify]
    exact hchallenge
  · simp only [if_neg hverify, bind_assoc, pure_bind]
    obtain ⟨rest, hrest, hsent⟩ := sent_ownership (isLine_authenticateCommand
      (safecookieHash env clientHashKey cookie clientNonce serverNonce)) protocol results'
    rw [hsent]
    have hserver : Challenged (.ok reply :: .ok answer :: results') serverHash serverNonce :=
      ⟨answer, rfl, hcode, hparse⟩
    have hhash : serverHash =
        (env.hmac serverHashKey (cookie.toList ++ clientNonce.toList ++ serverNonce)).toList := by
      simpa [verifySafecookieHash, safecookieHash] using hverify
    exact .safecookie hprotocol hsafe hpath hcookie hnonce hserver
      (length_of_parseChallenge hparse).1 hhash hrest

/-- With every method, and without one, nothing else is sent. -/
theorem handshake_authenticate {env : AuthEnv} {reply : ControlReply} {results : List CommandResult}
    {protocol : ProtocolInfo} (hprotocol : Advertised (.ok reply :: results) protocol) :
    Handshake env (.ok reply :: results) (protocolInfoCommand ::
      (authenticate env protocol >>= fun _ => takeOwnership >>= fun _ =>
        (pure protocol : Session ProtocolInfo)).sent results) := by
  have hpath {path : Text} (h : cookiePath protocol = .ok path) :
      protocol.cookieFile = some path := by
    unfold cookiePath at h
    split at h
    · next hfile => rw [hfile, Except.ok.inj h]
    · cases h
  unfold authenticate
  split_ifs with hsafe hmethod hmethod'
  · rw [bind_assoc]
    rcases sent_ofExcept_cases (cookiePath protocol) _ results with hsent | ⟨path, hfile, hsent⟩
    · rw [hsent]
      exact .start
    · rw [hsent]
      exact handshake_safecookie hprotocol hsafe (hpath hfile)
  · rw [bind_assoc]
    rcases sent_ofExcept_cases (cookiePath protocol) _ results with hsent | ⟨path, hfile, hsent⟩
    · rw [hsent]
      exact .start
    rw [hsent]
    simp only [authenticateCookie, bind_assoc, pure_bind]
    rcases sent_ofExcept_cases (readCookie env path) _ results with hsent | ⟨cookie, hcookie, hsent⟩
    · rw [hsent]
      exact .start
    rw [hsent]
    obtain ⟨rest, hrest, hsent⟩ :=
      sent_ownership (isLine_authenticateCommand cookie) protocol results
    rw [hsent]
    exact .cookie hprotocol hsafe hmethod (hpath hfile) hcookie hrest
  · simp only [bind_assoc, pure_bind]
    have hline : IsLine "AUTHENTICATE".toList := by decide
    obtain ⟨rest, hrest, hsent⟩ := sent_ownership hline protocol results
    rw [hsent]
    exact .null hprotocol hsafe hmethod hmethod' hrest
  · exact .start

/-- Nothing else is sent in the handshake. -/
theorem handshake_sent (env : AuthEnv) (results : List CommandResult) :
    Handshake env results ((authenticateAndTakeOwnership env).sent results) := by
  have hline : IsLine "PROTOCOLINFO 1".toList := by decide
  simp only [authenticateAndTakeOwnership, protocolInfo, bind_assoc]
  rcases sent_commandSuccess_cases hline _ results with hsent | ⟨reply, results', rfl, hcode, hsent⟩
  · rw [hsent]
    exact .start
  rw [hsent]
  rcases sent_ofExcept_cases (parseProtocolInfo reply) _ results' with
    hsent | ⟨protocol, hparse, hsent⟩
  · rw [hsent]
    exact .start
  rw [hsent]
  exact handshake_authenticate ⟨reply, rfl, hcode, hparse⟩

/-! ## The cookie stays hidden -/

/-- The environments look alike to a client that uses the cookie for hashes only. -/
def AuthEnv.Alike (env env' : AuthEnv) : Prop :=
  env.random = env'.random ∧ ∀ path,
    (∃ error error', readCookie env path = .error error ∧ readCookie env' path = .error error') ∨
      ∃ cookie cookie', readCookie env path = .ok cookie ∧ readCookie env' path = .ok cookie' ∧
        ∀ key message, env.hmac key (cookie.toList ++ message) =
          env'.hmac key (cookie'.toList ++ message)

/-- With SAFECOOKIE, the same is sent in environments that look alike. -/
theorem sent_safecookie_alike {env env' : AuthEnv} (h : env.Alike env') (path : Text) {β : Type}
    (f : Unit → Session β) (results : List CommandResult) :
    (authenticateSafecookie env' path >>= f).sent results =
      (authenticateSafecookie env path >>= f).sent results := by
  obtain ⟨hrandom, hcookies⟩ := h
  rcases hcookies path with ⟨error, error', herror, herror'⟩ |
    ⟨cookie, cookie', hcookie, hcookie', hhmac⟩
  · -- Without a cookie, nothing is sent.
    unfold authenticateSafecookie
    rw [herror, herror', bind_assoc, bind_assoc, sent_ofExcept_error, sent_ofExcept_error]
  · have hhash (key : List UInt8) (clientNonce : Vector UInt8 32) (serverNonce : List UInt8) :
        safecookieHash env' key cookie' clientNonce serverNonce =
          safecookieHash env key cookie clientNonce serverNonce := by
      unfold safecookieHash
      rw [List.append_assoc, List.append_assoc, hhmac]
    have hverify (key : List UInt8) (clientNonce : Vector UInt8 32)
        (serverNonce hash : List UInt8) :
        verifySafecookieHash env' key cookie' clientNonce serverNonce hash =
          verifySafecookieHash env key cookie clientNonce serverNonce hash := by
      unfold verifySafecookieHash
      rw [hhash]
    unfold authenticateSafecookie
    rw [hcookie, hcookie', ofExcept_ok_bind, ofExcept_ok_bind, hrandom]
    simp only [hverify, hhash]

/-- The same is sent in the whole handshake with a server that advertises SAFECOOKIE. -/
theorem sent_alike {env env' : AuthEnv} (h : env.Alike env') {results : List CommandResult}
    {protocol : ProtocolInfo} (hprotocol : Advertised results protocol)
    (hsafe : .safeCookie ∈ protocol.authMethods) :
    (authenticateAndTakeOwnership env').sent results =
      (authenticateAndTakeOwnership env).sent results := by
  have hline : IsLine "PROTOCOLINFO 1".toList := by decide
  obtain ⟨reply, hreply, hcode, hparse⟩ := hprotocol
  cases results with
  | nil => cases hreply
  | cons result results =>
    obtain rfl : result = .ok reply := by simpa using hreply
    simp only [authenticateAndTakeOwnership, protocolInfo, bind_assoc]
    rw [sent_commandSuccess hline _ hcode, sent_commandSuccess hline _ hcode, hparse]
    rw [ofExcept_ok_bind, ofExcept_ok_bind]
    unfold authenticate
    rw [if_pos hsafe, if_pos hsafe, bind_assoc, bind_assoc]
    cases cookiePath protocol with
    | error error => rw [sent_ofExcept_error, sent_ofExcept_error]
    | ok path => rw [ofExcept_ok_bind, ofExcept_ok_bind, sent_safecookie_alike h]

/-- Whatever the server does: a command is sent only after the one before it was answered with
status 250, and nothing is sent that `Handshake` does not list. What is sent to a server that
advertises SAFECOOKIE depends on the cookie only by its hashes. -/
theorem handshake_safe (env : AuthEnv) (results : List CommandResult) :
    (∀ i, i + 1 < ((authenticateAndTakeOwnership env).sent results).length →
      ∃ result, results[i]? = some result ∧ Succeeded result) ∧
    Handshake env results ((authenticateAndTakeOwnership env).sent results) ∧
    ∀ protocol, Advertised results protocol → .safeCookie ∈ protocol.authMethods →
      ∀ env', env.Alike env' → (authenticateAndTakeOwnership env').sent results =
        (authenticateAndTakeOwnership env).sent results :=
  ⟨fun _ hi => (careful_handshake env).good_of_sent hi, handshake_sent env results,
    fun _ hprotocol hsafe _ h => sent_alike h hprotocol hsafe⟩

/-- A cookie of equal bytes, and a hash function that tells the two keys apart. -/
def equalBytes (byte : UInt8) : AuthEnv where
  readFile := fun _ => .ok (List.replicate 32 byte)
  random := .ok (Vector.replicate 32 34)
  hmac := fun key _ => Vector.replicate 32 (if key = serverHashKey then 170 else 187)

/-- A server that advertises COOKIE and SAFECOOKIE, and knows the hash. -/
def honestServer : List CommandResult :=
  [.ok ⟨250, [.text "AUTH METHODS=COOKIE,SAFECOOKIE COOKIEFILE=\"/cookie\"".toList]⟩,
   .ok ⟨250, [.text ("AUTHCHALLENGE SERVERHASH=".toList ++ encodeHex (List.replicate 32 170) ++
      " SERVERNONCE=".toList ++ encodeHex (List.replicate 32 51))]⟩,
   .ok ⟨250, [.text "OK".toList]⟩, .ok ⟨250, [.text "OK".toList]⟩, .ok ⟨250, [.text "OK".toList]⟩]

/-- The whole handshake is sent, the same with another cookie. -/
theorem handshake_safe_honestServer :
    (authenticateAndTakeOwnership (equalBytes 17)).sent honestServer =
        [protocolInfoCommand, challengeCommand (Vector.replicate 32 34),
          authenticateCommand (Vector.replicate 32 187)] ++ ownershipCommands ∧
      (∀ i < 4, ∃ result, honestServer[i]? = some result ∧ Succeeded result) ∧
      (authenticateAndTakeOwnership (equalBytes 18)).sent honestServer =
        (authenticateAndTakeOwnership (equalBytes 17)).sent honestServer := by
  obtain ⟨hsucceeded, -, halike⟩ := handshake_safe (equalBytes 17) honestServer
  have hsent : (authenticateAndTakeOwnership (equalBytes 17)).sent honestServer =
      [protocolInfoCommand, challengeCommand (Vector.replicate 32 34),
        authenticateCommand (Vector.replicate 32 187)] ++ ownershipCommands := by decide +kernel
  have hadvertised : Advertised honestServer
      ⟨[.cookie, .safeCookie], some "/cookie".toList, none⟩ := ⟨_, rfl, rfl, by decide +kernel⟩
  refine ⟨hsent, fun i hi => hsucceeded i ?_,
    halike _ hadvertised (by simp) _ ⟨rfl, fun path => ?_⟩⟩
  · rw [hsent]
    show i + 1 < 5
    omega
  · exact .inr ⟨Vector.replicate 32 17, Vector.replicate 32 18, rfl, rfl, fun _ _ => rfl⟩

end Torlane.Control
