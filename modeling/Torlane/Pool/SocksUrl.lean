import Torlane.Net.Shape
import Torlane.Pool.Identity

/-!
# The URL of a lane

`Proxy` and `Proxy::socks5h_url` of `src/pool/select.rs`. The URL has the credentials and the
address as they are, with no escape for a character at which a URL is split. `socks5hUrl_split` says
that none is needed, and that what is found in the URL is the identity of one lane epoch.
-/

namespace Torlane

open Text

/-! ## The source -/

/-- A `socks5h://` URL with the credentials of a lane. -/
structure SocksUrl where
  url : Text
  deriving DecidableEq, Repr

namespace SocksUrl

/-- `SocksUrl::expose`. -/
def expose (url : SocksUrl) : Text := url.url

end SocksUrl

namespace Proxy

variable (proxy : Proxy)

/-- `Proxy::addr`. -/
def addr : SocketAddr := proxy.inner.addr

/-- `Proxy::username`. -/
def username : Text := proxy.inner.auth.username

/-- `Proxy::expose_password`. -/
def exposePassword : Text := proxy.inner.auth.password

/-- `Proxy::socks5h_url`. -/
def socks5hUrl : SocksUrl :=
  ⟨"socks5h://".toList ++ proxy.inner.auth.username ++ [':'] ++
    proxy.inner.auth.password ++ ['@'] ++ proxy.inner.addr.display⟩

end Proxy

/-! ## The parts of the URL -/

/-- A username has no colon. -/
theorem colon_notMem_laneUsername (id : LaneId) (epoch : ℕ) : ':' ∉ laneUsername id epoch := by
  have hdigits (width n : ℕ) : ':' ∉ zeroPadded width n :=
    fun hmem => absurd (isDigit_of_mem_zeroPadded hmem) (by decide)
  unfold laneUsername
  simp [hdigits]

/-- The parts of a URL with generated credentials have no character at which the URL is split. -/
theorem wellFormed_socks5hUrl {id : LaneId} {epoch : ℕ} {password : Text} {addr : SocketAddr} :
    Url.WellFormed ⟨"socks5h".toList, laneUsername id epoch, password, addr.displayHost,
      decimal addr.port.toNat⟩ := by
  have hat : '@' ∉ addr.displayHost ++ ':' :: decimal addr.port.toNat := by
    rw [← addr.display_eq]
    exact addr.notMem_display (by decide)
  obtain ⟨hhost, hport⟩ := not_or.mp (mt List.mem_append.mpr hat)
  exact ⟨by simp, colon_notMem_laneUsername id epoch, isHost_displayHost addr, hhost,
    fun hmem => hport (List.mem_cons_of_mem _ hmem)⟩

/-- What is found in the URL of a lane epoch, without decoding: the username, the password, and the
host and the port, which are read as the address. The username is the one of this lane epoch only,
and the password the one of the bytes that were drawn. -/
theorem socks5hUrl_split {id : LaneId} {epoch : ℕ} {bytes : RandomBytes} {proxy : Proxy}
    (hauth : generateLaneAuth id epoch (.ok bytes) = .ok proxy.inner.auth) :
    splitUrl proxy.socks5hUrl.expose = some
        ⟨"socks5h".toList, proxy.username, proxy.exposePassword, proxy.addr.displayHost,
          decimal proxy.addr.port.toNat⟩ ∧
      parseSocketAddr (proxy.addr.displayHost ++ ':' :: decimal proxy.addr.port.toNat) =
        some proxy.addr ∧
      ∀ id' epoch' bytes' auth', generateLaneAuth id' epoch' (.ok bytes') = .ok auth' →
        (auth'.username = proxy.username → id' = id ∧ epoch' = epoch) ∧
          (auth'.password = proxy.exposePassword → bytes' = bytes) := by
  have hpassword {id : LaneId} {epoch : ℕ} {bytes : RandomBytes} {auth : SocksAuth}
      (h : generateLaneAuth id epoch (.ok bytes) = .ok auth) :
      auth.password = hexEncode bytes.toList := by
    obtain rfl := Except.ok.inj h
    rfl
  have husername : proxy.username = laneUsername id epoch := generateLaneAuth_username hauth
  refine ⟨?_, ?_, fun id' epoch' bytes' auth' hauth' => ⟨fun heq => ?_, fun heq => ?_⟩⟩
  · have hurl : proxy.socks5hUrl.expose = Url.text ⟨"socks5h".toList, proxy.username,
        proxy.exposePassword, proxy.addr.displayHost, decimal proxy.addr.port.toNat⟩ := by
      unfold SocksUrl.expose Proxy.socks5hUrl Url.text
      rw [proxy.inner.addr.display_eq]
      simp [Proxy.username, Proxy.exposePassword, Proxy.addr]
    rw [hurl, husername]
    exact splitUrl_text wellFormed_socks5hUrl
  · rw [← proxy.addr.display_eq, parseSocketAddr_display]
  · exact generateLaneAuth_inj hauth' hauth heq
  · have hdigits : hexEncode bytes'.toList = hexEncode bytes.toList := by
      rw [← hpassword hauth', ← hpassword hauth]
      exact heq
    exact Vector.toList_inj.mp (isHexTable_lower.injective hdigits)

/-- The URL of the first epoch of lane 3 at `[::1]:19050`. -/
theorem socks5hUrl_split_lane3 : ∃ auth,
    generateLaneAuth ⟨3⟩ 1 (.ok (.replicate 32 0)) = .ok auth ∧
      (splitUrl (Proxy.mk ⟨⟨3⟩, 1, ⟨0⟩, .new (.v6 ⟨#v[0, 0, 0, 0, 0, 0, 0, 1]⟩) 19050,
        auth⟩).socks5hUrl.expose).map (·.host) = some "[::1]".toList := by
  refine ⟨_, rfl, ?_⟩
  rw [(@socks5hUrl_split ⟨3⟩ 1 (.replicate 32 0) ⟨⟨3⟩, 1, ⟨0⟩, _, _⟩ rfl).1]
  decide

end Torlane
