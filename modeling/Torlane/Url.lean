import Torlane.Text

/-!
# URLs

The generic syntax of a URL with a user, a password, a host, and a port, and how it is split into
them. No part is decoded: a part that has none of the characters at which the URL is split is found
as it was written (`splitUrl_text`).
-/

namespace Text

/-- The parts of a URL. -/
structure Url where
  scheme : Text
  user : Text
  password : Text
  host : Text
  port : Text
  deriving DecidableEq, Repr

/-- The URL that is made of the parts. -/
def Url.text (url : Url) : Text :=
  url.scheme ++ "://".toList ++ url.user ++ [':'] ++ url.password ++ ['@'] ++ url.host ++ [':'] ++
    url.port

/-- The text before the first occurrence of a pattern, and the text after it. -/
def splitAtFirst (pattern : Text) : Text → Option (Text × Text)
  | [] => (stripPrefix pattern []).map fun post => ([], post)
  | c :: text =>
    match stripPrefix pattern (c :: text) with
    | some post => some ([], post)
    | none => (splitAtFirst pattern text).map fun (pre, post) => (c :: pre, post)

/-- The text before the last occurrence of a character, and the text after it. -/
def splitAtLast (c : Char) (text : Text) : Option (Text × Text) :=
  (splitOnce c text.reverse).map fun (post, pre) => (pre.reverse, post.reverse)

/-- The host and the port. A host in brackets ends with the bracket, and may have colons. -/
def splitHost : Text → Option (Text × Text)
  | '[' :: text => do
    let (literal, behind) ← splitOnce ']' text
    let port ← stripPrefix [':'] behind
    return ('[' :: (literal ++ [']']), port)
  | text => splitOnce ':' text

/-- The parts of a URL: the scheme up to `://`, the user and the password up to the last `@` with a
colon between them, and the host and the port. -/
def splitUrl (text : Text) : Option Url := do
  let (scheme, authority) ← splitAtFirst "://".toList text
  let (userinfo, address) ← splitAtLast '@' authority
  let (user, password) ← splitOnce ':' userinfo
  let (host, port) ← splitHost address
  return ⟨scheme, user, password, host, port⟩

/-- A host: a name, or a literal in brackets. -/
inductive IsHost : Text → Prop
  | name {c : Char} {text : Text} (hopen : c ≠ '[') (h : ':' ∉ c :: text) : IsHost (c :: text)
  | literal {text : Text} (h : ']' ∉ text) : IsHost ('[' :: (text ++ [']']))

/-- No part has a character that ends it. -/
structure Url.WellFormed (url : Url) : Prop where
  scheme : ':' ∉ url.scheme
  user : ':' ∉ url.user
  host : IsHost url.host
  notMem_host : '@' ∉ url.host
  notMem_port : '@' ∉ url.port

variable {pre post host port : Text}

/-- A pattern is found behind a text that does not have its first character. -/
theorem splitAtFirst_append {c : Char} (h : c ∉ pre) (pattern : Text) :
    splitAtFirst (c :: pattern) (pre ++ (c :: pattern ++ post)) = some (pre, post) := by
  induction pre with
  | nil =>
    have hstrip := stripPrefix_append (c :: pattern) post
    rw [List.cons_append] at hstrip
    rw [List.nil_append, List.cons_append, splitAtFirst, hstrip]
  | cons d pre ih =>
    obtain ⟨hd, hpre⟩ := not_or.mp (mt List.mem_cons.mpr h)
    have hstrip : stripPrefix (c :: pattern) (d :: (pre ++ (c :: pattern ++ post))) = none :=
      stripPrefix_eq_none fun hpart => hd (List.cons_prefix_cons.mp hpart).1
    rw [List.cons_append, splitAtFirst, hstrip, ih hpre]
    rfl

/-- A character is found in front of a text that does not have it. -/
theorem splitAtLast_append {c : Char} (h : c ∉ post) :
    splitAtLast c (pre ++ c :: post) = some (pre, post) := by
  have hreverse : (pre ++ c :: post).reverse = post.reverse ++ c :: pre.reverse := by simp
  have hsplit := (@splitOnce_eq_some_iff c _ post.reverse pre.reverse).mpr
    ⟨hreverse, by simpa using h⟩
  unfold splitAtLast
  rw [hsplit, Option.map_some]
  simp only [List.reverse_reverse]

/-- A host is found in front of its port. -/
theorem splitHost_append (h : IsHost host) :
    splitHost (host ++ ':' :: port) = some (host, port) := by
  cases h with
  | @name c text hopen hcolon =>
    have hsplit := (@splitOnce_eq_some_iff ':' _ (c :: text) port).mpr ⟨rfl, hcolon⟩
    unfold splitHost
    split
    · next heq => exact absurd (List.cons.inj heq).1 hopen
    · exact hsplit
  | @literal text hclose =>
    have hsplit := (@splitOnce_eq_some_iff ']' (text ++ ']' :: ':' :: port) text _).mpr
      ⟨rfl, hclose⟩
    have htext : '[' :: (text ++ [']']) ++ ':' :: port = '[' :: (text ++ ']' :: ':' :: port) := by
      simp
    have hcolon : stripPrefix [':'] (':' :: port) = some port := stripPrefix_append [':'] port
    rw [htext]
    simp only [splitHost, hsplit, hcolon, Option.bind_eq_bind, Option.bind_some]
    rfl

/-- The parts of a URL are found as they were written. -/
theorem splitUrl_text {url : Url} (h : url.WellFormed) : splitUrl url.text = some url := by
  have htext : url.text = url.scheme ++ (':' :: "//".toList ++
      ((url.user ++ ':' :: url.password) ++ '@' :: (url.host ++ ':' :: url.port))) := by
    unfold Url.text
    simp
  have hat : '@' ∉ url.host ++ ':' :: url.port := by
    simp [h.notMem_host, h.notMem_port]
  have hscheme := @splitAtFirst_append url.scheme ((url.user ++ ':' :: url.password) ++
    '@' :: (url.host ++ ':' :: url.port)) ':' h.scheme "//".toList
  have hpattern : "://".toList = ':' :: "//".toList := rfl
  have huser := (@splitOnce_eq_some_iff ':' _ url.user url.password).mpr ⟨rfl, h.user⟩
  unfold splitUrl
  rw [htext, hpattern, hscheme]
  simp only [Option.bind_eq_bind, Option.bind_some, splitAtLast_append hat, huser,
    splitHost_append h.host]
  rfl

end Text
