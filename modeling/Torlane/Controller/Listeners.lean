import Torlane.Controller.RoundTrip
import Torlane.Controller.Session
import Torlane.Controller.Words
import Torlane.Net.Shape

/-!
# Listener discovery

`ControlClient::socks_listeners` and `socks_listener` of `src/tor/controller/client.rs`. The parser
of socket addresses is a parameter. A server reports its listeners as quoted texts, TCP addresses
and Unix paths alike, and `socksListeners_encode` says that the client finds exactly the TCP
addresses, whatever the paths contain.
-/

namespace Torlane.Control

open Text

/-- The key under which the listeners are reported. -/
def listenersKey : Text := "net/listeners/socks".toList

/-- The value under the key in the first line that has one. -/
def listenersValue (reply : ControlReply) : Option Text :=
  reply.lines.findSome? fun
    | .keyValue key value => if key = listenersKey then some value else none
    | _ => none

/-- `ControlClient::socks_listeners`: the words that are socket addresses. -/
def socksListeners (parse : Text → Option SocketAddr) : Session (List SocketAddr) := do
  let reply ← commandSuccess ("GETINFO ".toList ++ listenersKey)
  pure <|
    match listenersValue reply with
    | some value => (controlWords value).filterMap parse
    | none => []

/-- `ControlClient::socks_listener`. -/
def socksListener (parse : Text → Option SocketAddr) : Session SocketAddr := do
  let listeners ← socksListeners parse
  if h : listeners.length = 1 then pure listeners[0]
  else throw (.socksListenerCount listeners.length)

/-! ## What a server reports -/

/-- A listener of the server. -/
inductive Listener where
  | tcp (addr : SocketAddr)
  | unix (path : Line)

/-- The text of a listener. -/
def Listener.text : Listener → Text
  | .tcp addr => addr.display
  | .unix path => "unix:".toList ++ path

/-- The TCP address of a listener. -/
def Listener.addr? : Listener → Option SocketAddr
  | .tcp addr => some addr
  | .unix _ => none

/-- The TCP addresses of the listeners, in their order. -/
def tcpAddrs (listeners : List Listener) : List SocketAddr := listeners.filterMap (·.addr?)

/-- The listeners in quotes, with spaces between them. -/
def reportedValue (listeners : List Listener) : Text :=
  [' '].intercalate (listeners.map fun listener => quote listener.text)

/-- A reply with status 250 that reports the listeners on one of its lines, the first one with the
key. -/
def Reports (sent : WireReply) (listeners : List Listener) : Prop :=
  sent.code = successCode ∧ ∃ before line after,
    sent.items ++ [.line sent.final] = before ++ .line line :: after ∧
      line.val = listenersKey ++ '=' :: reportedValue listeners ∧
      ∀ item ∈ before, ∀ value, item.read ≠ .keyValue listenersKey value

/-- A TCP address has a text. -/
theorem display_ne_nil (addr : SocketAddr) : addr.display ≠ [] := by
  cases addr <;> simp [SocketAddr.display]

/-- The words of the report are the texts of the listeners. -/
theorem controlWords_reportedValue (listeners : List Listener) :
    controlWords (reportedValue listeners) = listeners.map (·.text) := by
  have hword {gap : Text} (hgap : ∀ c ∈ gap, isWhitespace c = true) (listener : Listener) :
      Word.WellFormed ⟨gap, quote listener.text, listener.text⟩ := by
    refine ⟨hgap, adds_quote _, ?_, '"' :: escape listener.text, '"', rfl, by decide⟩
    cases listener with
    | tcp addr => exact display_ne_nil addr
    | unix path => exact List.append_ne_nil_of_left_ne_nil (by decide) path.val
  cases listeners with
  | nil => rfl
  | cons listener listeners =>
    have htext : reportedValue (listener :: listeners) =
        quote listener.text ++ listeners.flatMap fun other => ' ' :: quote other.text := by
      rw [reportedValue, List.map_cons, intercalate_cons, List.flatMap_map]
    rw [htext, List.map_cons]
    exact controlWords_spaces (hword (List.forall_mem_nil _) listener) fun other _ =>
      hword isWhitespace_space other

/-- The TCP addresses are parsed, and the paths are passed over. -/
theorem filterMap_parse {parse : Text → Option SocketAddr} {listeners : List Listener}
    (htcp : ∀ addr, .tcp addr ∈ listeners → parse addr.display = some addr)
    (hunix : ∀ path, .unix path ∈ listeners → parse ("unix:".toList ++ path.val) = none) :
    (listeners.map (·.text)).filterMap parse = tcpAddrs listeners := by
  rw [List.filterMap_map]
  refine List.filterMap_congr fun listener hmem => ?_
  cases listener with
  | tcp addr => exact htcp addr hmem
  | unix path => exact hunix path hmem

/-- The value under the key is the reported one. -/
theorem listenersValue_read {sent : WireReply} {listeners : List Listener}
    (h : Reports sent listeners) : listenersValue sent.read = some (reportedValue listeners) := by
  obtain ⟨-, before, line, after, hitems, hline, hbefore⟩ := h
  have hlines : sent.read.lines =
      before.map (·.read) ++ parsePayload line.val :: after.map (·.read) := by
    have hread : sent.read.lines =
        (sent.items ++ [ReplyItem.line sent.final]).map ReplyItem.read := by
      rw [List.map_append]
      rfl
    rw [hread, hitems, List.map_append, List.map_cons]
    rfl
  have hpayload : parsePayload line.val = .keyValue listenersKey (reportedValue listeners) := by
    rw [hline]
    exact parsePayload_keyValue (by decide) (by decide)
  unfold listenersValue
  rw [hlines, hpayload, List.findSome?_append, List.findSome?_eq_none_iff.mpr ?_, Option.none_or]
  · simp
  · intro controlLine hmem
    obtain ⟨item, hitem, rfl⟩ := List.mem_map.mp hmem
    cases hread : item.read with
    | keyValue key value =>
      have hkey : key ≠ listenersKey := by
        rintro rfl
        exact hbefore item hitem value hread
      simp [hkey]
    | text => rfl
    | data => rfl

/-- The command has no line break. -/
theorem isLine_getListeners : IsLine ("GETINFO ".toList ++ listenersKey) := by decide

/-- With a report as the result of the command, `socks_listeners` returns the TCP addresses. -/
theorem socksListeners_outcome {parse : Text → Option SocketAddr} {listeners : List Listener}
    (htcp : ∀ addr, .tcp addr ∈ listeners → parse addr.display = some addr)
    (hunix : ∀ path, .unix path ∈ listeners → parse ("unix:".toList ++ path.val) = none)
    {sent : WireReply} (hsent : Reports sent listeners) :
    (socksListeners parse).outcome [.ok sent.read] = some (.ok (tcpAddrs listeners)) := by
  have haccepted : accepted (.ok sent.read) = .ok sent.read :=
    accepted_eq_ok_iff.mpr ⟨rfl, by rw [WireReply.read, hsent.1]; rfl⟩
  unfold socksListeners
  rw [outcome_commandSuccess isLine_getListeners, haccepted]
  simp only [listenersValue_read hsent, controlWords_reportedValue, filterMap_parse htcp hunix]
  rfl

/-- With a report as the result of the command, `socks_listener` returns the only TCP address. -/
theorem socksListener_outcome {parse : Text → Option SocketAddr} {listeners : List Listener}
    (htcp : ∀ addr, .tcp addr ∈ listeners → parse addr.display = some addr)
    (hunix : ∀ path, .unix path ∈ listeners → parse ("unix:".toList ++ path.val) = none)
    {sent : WireReply} (hsent : Reports sent listeners) :
    (socksListener parse).outcome [.ok sent.read] =
      some (match tcpAddrs listeners with
        | [addr] => .ok addr
        | addrs => .error (.socksListenerCount addrs.length)) := by
  have haccepted : accepted (.ok sent.read) = .ok sent.read :=
    accepted_eq_ok_iff.mpr ⟨rfl, by rw [WireReply.read, hsent.1]; rfl⟩
  unfold socksListener socksListeners
  rw [bind_assoc, outcome_commandSuccess isLine_getListeners, haccepted]
  simp only [pure_bind, listenersValue_read hsent, controlWords_reportedValue,
    filterMap_parse htcp hunix]
  generalize tcpAddrs listeners = addrs
  rcases addrs with _ | ⟨addr, _ | ⟨other, addrs⟩⟩
  · rfl
  · rfl
  · have hlen : (addr :: other :: addrs).length ≠ 1 := by simp
    simp only [dif_neg hlen]
    rfl

/-- The client finds exactly the TCP addresses that the server reports, in their order, and takes
the only one for its address, whatever follows the reply in the stream. -/
theorem socksListeners_encode {parse : Text → Option SocketAddr} {listeners : List Listener}
    (htcp : ∀ addr, .tcp addr ∈ listeners → parse addr.display = some addr)
    (hunix : ∀ path, .unix path ∈ listeners → parse ("unix:".toList ++ path.val) = none)
    {sent : WireReply} (hsent : Reports sent listeners) (rest : List UInt8) (ending : StreamEnd) :
    ∃ result, receiveReply ⟨sent.encode ++ rest, ending⟩ = (result, ⟨rest, ending⟩) ∧
      (socksListeners parse).outcome [result] = some (.ok (tcpAddrs listeners)) ∧
      (∀ addr, (socksListener parse).outcome [result] = some (.ok addr) ↔
        tcpAddrs listeners = [addr]) ∧
      ((∀ addr, tcpAddrs listeners ≠ [addr]) →
        (socksListener parse).outcome [result] =
          some (.error (.socksListenerCount (tcpAddrs listeners).length))) := by
  refine ⟨.ok sent.read, receiveReply_encode sent rest ending,
    socksListeners_outcome htcp hunix hsent, fun addr => ?_, fun hcount => ?_⟩
  · rw [socksListener_outcome htcp hunix hsent]
    generalize tcpAddrs listeners = addrs
    rcases addrs with _ | ⟨addr', _ | ⟨other, addrs⟩⟩ <;> simp
  · rw [socksListener_outcome htcp hunix hsent]
    generalize tcpAddrs listeners = addrs at hcount ⊢
    rcases addrs with _ | ⟨addr', _ | ⟨other, addrs⟩⟩
    · rfl
    · exact absurd rfl (hcount addr')
    · rfl

/-! ## Every list of listeners is reported -/

/-- Joined lines have no line break. -/
theorem isLine_intercalate {separator : Text} {texts : List Text} (hseparator : IsLine separator)
    (htexts : ∀ text ∈ texts, IsLine text) : IsLine (separator.intercalate texts) := by
  intro c hmem
  rcases mem_intercalate hmem with hmem | ⟨text, htext, hmem⟩
  · exact hseparator c hmem
  · exact htexts text htext c hmem

/-- The report has no line break. -/
theorem isLine_reported (listeners : List Listener) :
    IsLine (listenersKey ++ '=' :: reportedValue listeners) := by
  have hvalue : IsLine (reportedValue listeners) := by
    refine isLine_intercalate (by decide) fun text htext => ?_
    obtain ⟨listener, -, rfl⟩ := List.mem_map.mp htext
    refine isLine_quote ?_
    cases listener with
    | tcp addr => exact isLine_of_isWhitespace fun _ => SocketAddr.isWhitespace_of_mem_display
    | unix path => exact IsLine.append (by decide) path.property
  have hkey : IsLine (listenersKey ++ ['=']) := by decide
  have hsplit : listenersKey ++ '=' :: reportedValue listeners =
      (listenersKey ++ ['=']) ++ reportedValue listeners := by simp
  rw [hsplit]
  exact hkey.append hvalue

/-- The reply with the report on its first line. -/
def listenersReply (listeners : List Listener) : WireReply where
  code := successCode
  items := [.line ⟨listenersKey ++ '=' :: reportedValue listeners, isLine_reported listeners⟩]
  final := okText

/-- Every list of listeners can be reported. -/
theorem reports_listenersReply (listeners : List Listener) :
    Reports (listenersReply listeners) listeners :=
  ⟨rfl, [], _, _, rfl, rfl, by simp⟩

/-- A TCP address on the loopback interface. -/
def localListener : SocketAddr := .v4 .localhost 19050

/-- The address, and a path that looks like the end of a quoted text and another address. -/
def mixedListeners : List Listener :=
  [.unix ⟨"/run/tor\" \"127.0.0.1:9050\\".toList, by decide⟩, .tcp localListener]

/-- What the parser of socket addresses does on the texts of these listeners. -/
def parseLocal (text : Text) : Option SocketAddr :=
  if text = "127.0.0.1:19050".toList then some localListener else none

/-- The address is found, and the path is not. -/
theorem socksListeners_encode_mixedListeners :
    ∃ result, receiveReply ⟨(listenersReply mixedListeners).encode, .eof⟩ = (result, ⟨[], .eof⟩) ∧
      (socksListeners parseLocal).outcome [result] = some (.ok [localListener]) ∧
      (socksListener parseLocal).outcome [result] = some (.ok localListener) := by
  have htcp : ∀ addr, .tcp addr ∈ mixedListeners → parseLocal addr.display = some addr := by
    intro addr hmem
    obtain rfl : addr = localListener := by simpa [mixedListeners] using hmem
    decide
  have hunix : ∀ path, .unix path ∈ mixedListeners →
      parseLocal ("unix:".toList ++ path.val) = none := by
    intro path hmem
    obtain rfl : path = _ := by simpa [mixedListeners] using hmem
    decide
  have h := socksListeners_encode htcp hunix (reports_listenersReply mixedListeners) [] .eof
  rw [List.append_nil] at h
  obtain ⟨result, hread, hlist, honly, -⟩ := h
  exact ⟨result, hread, hlist, (honly localListener).mpr rfl⟩

end Torlane.Control
