import Torlane.Controller.ProtocolInfo

/-!
# Authentication

`ControlClient::authenticate` and what it needs of `src/tor/controller/auth.rs`: the cookie, the
challenge, and the hashes. What comes from outside of the client is a parameter: the files, the
random source, and the keyed hash function, of which nothing is assumed.
-/

namespace Torlane.Control

open Text

/-- What the client finds outside of the connection. -/
structure AuthEnv where
  /-- `tokio::fs::read`. -/
  readFile : Text → Except IoError (List UInt8)
  /-- The draw of the random bytes for one nonce. -/
  random : Except SysError (Vector UInt8 32)
  /-- `Hmac<Sha256>`, of a key and a message. -/
  hmac : List UInt8 → List UInt8 → Vector UInt8 32

/-- `SERVER_HASH_KEY`. -/
def serverHashKey : List UInt8 :=
  encodeUtf8 "Tor safe cookie authentication server-to-controller hash".toList

/-- `CLIENT_HASH_KEY`. -/
def clientHashKey : List UInt8 :=
  encodeUtf8 "Tor safe cookie authentication controller-to-server hash".toList

/-! ## Hexadecimal -/

/-- The upper-case `encode_hex` of `auth.rs`. -/
def encodeHex (bytes : List UInt8) : Text := hexEncodeWith "0123456789ABCDEF".toList bytes

/-- `hex_digit`. -/
def hexDigit (value : UInt8) : Option UInt8 :=
  if 48 ≤ value ∧ value ≤ 57 then some (value - 48)
  else if 97 ≤ value ∧ value ≤ 102 then some (value - 97 + 10)
  else if 65 ≤ value ∧ value ≤ 70 then some (value - 65 + 10)
  else none

/-- The loop of `decode_hex` over pairs of bytes. -/
def hexPairs (error : ClientError) : List UInt8 → Except ClientError (List UInt8)
  | high :: low :: rest =>
    match hexDigit high, hexDigit low with
    | some high, some low => (hexPairs error rest).map (((high <<< 4) ||| low) :: ·)
    | _, _ => .error error
  | _ => .ok []

/-- `decode_hex`. -/
def decodeHex (name value : Text) : Except ClientError (List UInt8) :=
  if (encodeUtf8 value).length % 2 ≠ 0 then .error (.invalidHex name value)
  else hexPairs (.invalidHex name value) (encodeUtf8 value)

/-! ## The cookie and the challenge -/

/-- `read_cookie`. -/
def readCookie (env : AuthEnv) (path : Text) : Except ClientError (Vector UInt8 32) :=
  match env.readFile path with
  | .error error => .error (.command (.io error))
  | .ok bytes =>
    if h : bytes.length = 32 then .ok ⟨bytes.toArray, h⟩
    else .error (.invalidCookieLength bytes.length)

/-- The words of a line that answers a challenge. -/
def challengeWords : ControlLine → Option (List Text)
  | .text value =>
    if "AUTHCHALLENGE ".toList.isPrefixOf value then some (controlWords value) else none
  | _ => none

/-- A field that must be there. -/
def required (words : List Text) (name : Text) : Except ClientError Text :=
  match field words name with
  | some value => .ok value
  | none => .error (.missingChallengeField name)

/-- `parse_challenge`: the server's hash and nonce. -/
def parseChallenge (lines : List ControlLine) : Except ClientError (List UInt8 × List UInt8) :=
  match lines.findSome? challengeWords with
  | none => .error (.missingChallengeField "AUTHCHALLENGE".toList)
  | some words => do
    let serverHash ← required words "SERVERHASH".toList
    let serverNonce ← required words "SERVERNONCE".toList
    let serverHash ← decodeHex "SERVERHASH".toList serverHash
    let serverNonce ← decodeHex "SERVERNONCE".toList serverNonce
    if serverHash.length ≠ 32 then
      .error (.invalidHex "SERVERHASH".toList (encodeHex serverHash))
    else if serverNonce.length ≠ 32 then
      .error (.invalidHex "SERVERNONCE".toList (encodeHex serverNonce))
    else .ok (serverHash, serverNonce)

/-- `safecookie_hash`: the hash over the cookie and both nonces. -/
def safecookieHash (env : AuthEnv) (key : List UInt8) (cookie clientNonce : Vector UInt8 32)
    (serverNonce : List UInt8) : Vector UInt8 32 :=
  env.hmac key (cookie.toList ++ clientNonce.toList ++ serverNonce)

/-- `verify_safecookie_hash`. -/
def verifySafecookieHash (env : AuthEnv) (key : List UInt8) (cookie clientNonce : Vector UInt8 32)
    (serverNonce hash : List UInt8) : Bool :=
  hash = (safecookieHash env key cookie clientNonce serverNonce).toList

/-! ## The methods -/

/-- The command that starts the exchange of nonces. -/
def challengeCommand (clientNonce : Vector UInt8 32) : Text :=
  "AUTHCHALLENGE SAFECOOKIE ".toList ++ encodeHex clientNonce.toList

/-- The command that authenticates by some bytes. -/
def authenticateCommand (bytes : Vector UInt8 32) : Text :=
  "AUTHENTICATE ".toList ++ encodeHex bytes.toList

/-- `ControlClient::authenticate_safecookie`. -/
def authenticateSafecookie (env : AuthEnv) (cookieFile : Text) : Session Unit := do
  let cookie ← Session.ofExcept (readCookie env cookieFile)
  let clientNonce ← Session.ofExcept (env.random.mapError .random)
  let challenge ← commandSuccess (challengeCommand clientNonce)
  let server ← Session.ofExcept (parseChallenge challenge.lines)
  if verifySafecookieHash env serverHashKey cookie clientNonce server.2 server.1 = false then
    throw .invalidServerHash
  else
    let _ ← commandSuccess
      (authenticateCommand (safecookieHash env clientHashKey cookie clientNonce server.2))
    pure ()

/-- `ControlClient::authenticate_cookie`. -/
def authenticateCookie (env : AuthEnv) (cookieFile : Text) : Session Unit := do
  let cookie ← Session.ofExcept (readCookie env cookieFile)
  let _ ← commandSuccess (authenticateCommand cookie)
  pure ()

/-- The path of the cookie file, which must be advertised. -/
def cookiePath (protocol : ProtocolInfo) : Except ClientError Text :=
  match protocol.cookieFile with
  | some path => .ok path
  | none => .error .missingCookieFile

/-- `ControlClient::authenticate`: with the strongest method that is advertised. -/
def authenticate (env : AuthEnv) (protocol : ProtocolInfo) : Session Unit :=
  if .safeCookie ∈ protocol.authMethods then do
    let path ← Session.ofExcept (cookiePath protocol)
    authenticateSafecookie env path
  else if .cookie ∈ protocol.authMethods then do
    let path ← Session.ofExcept (cookiePath protocol)
    authenticateCookie env path
  else if .null ∈ protocol.authMethods then do
    let _ ← commandSuccess "AUTHENTICATE".toList
    pure ()
  else throw (.unsupportedAuthentication protocol.authMethods)

/-! ## What the parts do -/

/-- What succeeds has succeeded in each of its steps. -/
theorem exists_ok_of_bind {α β : Type} {x : Except ClientError α} {f : α → Except ClientError β}
    {b : β} (h : x >>= f = .ok b) : ∃ a, x = .ok a ∧ f a = .ok b := by
  cases x with
  | error error => cases h
  | ok a => exact ⟨a, rfl, h⟩

/-- The hash and the nonce of the server have 32 bytes. -/
theorem length_of_parseChallenge {lines : List ControlLine} {serverHash serverNonce : List UInt8}
    (h : parseChallenge lines = .ok (serverHash, serverNonce)) :
    serverHash.length = 32 ∧ serverNonce.length = 32 := by
  unfold parseChallenge at h
  cases hwords : lines.findSome? challengeWords with
  | none =>
    rw [hwords] at h
    cases h
  | some words =>
    rw [hwords] at h
    obtain ⟨_, -, h⟩ := exists_ok_of_bind h
    obtain ⟨_, -, h⟩ := exists_ok_of_bind h
    obtain ⟨serverHash', -, h⟩ := exists_ok_of_bind h
    obtain ⟨serverNonce', -, h⟩ := exists_ok_of_bind h
    simp only [ne_eq] at h
    split_ifs at h with hhash hnonce
    obtain ⟨rfl, rfl⟩ := Prod.mk.inj (Except.ok.inj h)
    exact ⟨hhash, hnonce⟩

/-- Hexadecimal digits have no line break. -/
theorem isLine_encodeHex (bytes : List UInt8) : IsLine (encodeHex bytes) := by
  have hdigits : IsLine ('0' :: "0123456789ABCDEF".toList) := by decide
  have hmem (k : ℕ) : "0123456789ABCDEF".toList.getD k '0' ∈ '0' :: "0123456789ABCDEF".toList := by
    rw [List.getD_eq_getElem?_getD]
    cases hk : "0123456789ABCDEF".toList[k]? with
    | none => exact List.mem_cons_self
    | some c => exact List.mem_cons_of_mem _ (List.mem_of_getElem? hk)
  intro c hc
  obtain ⟨byte, -, hc⟩ := List.mem_flatMap.mp hc
  simp only [List.mem_cons, List.not_mem_nil, or_false] at hc
  rcases hc with rfl | rfl
  · exact hdigits _ (hmem _)
  · exact hdigits _ (hmem _)

/-- The challenge has no line break. -/
theorem isLine_challengeCommand (clientNonce : Vector UInt8 32) :
    IsLine (challengeCommand clientNonce) :=
  IsLine.append (by decide) (isLine_encodeHex _)

/-- The authentication has no line break. -/
theorem isLine_authenticateCommand (bytes : Vector UInt8 32) : IsLine (authenticateCommand bytes) :=
  IsLine.append (by decide) (isLine_encodeHex _)

end Torlane.Control
