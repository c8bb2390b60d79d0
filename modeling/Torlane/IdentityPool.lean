import Mathlib.Data.List.Nodup
import Torlane.Hex
import Torlane.Pool.Lane

/-!
# Identity pools

`TorIdentityPool::generate` of `src/tor/identity.rs`. The outcomes of its reads of random bytes are
given as a list, and a call that would read more of them than there are has not returned: it gives
`none`. Whatever is read, the identities of a pool have different names and different passwords
(`generate_cases`).
-/

namespace Torlane

open Text

/-- A pool of identities could not be generated. -/
inductive TorIdentityError where
  | emptyIdentityPool
  | random (error : SysError)
  deriving DecidableEq, Repr

/-- The outcome of one read of random bytes. -/
abbrev RandomOutcome := Except SysError RandomBytes

/-- `TorIdentity`. -/
structure TorIdentity where
  id : ℕ
  proxyAddr : SocketAddr
  auth : SocksAuth
  deriving DecidableEq, Repr

/-- `TorIdentityPool`. -/
structure TorIdentityPool where
  identities : List TorIdentity
  deriving DecidableEq, Repr

namespace TorIdentityPool

/-- The text of one block of random bytes, by the `hex_encode` of `src/tor/identity.rs`. -/
def hexText (bytes : RandomBytes) : Text := hexEncodeWith "0123456789abcdef".toList bytes.toList

/-- The inner loop of `generate`: blocks are read until the text of one is not among the passwords
that have been given out. -/
def drawPassword (passwords : List Text) :
    List RandomOutcome → Option (Except TorIdentityError Text × List RandomOutcome)
  | [] => none
  | .error error :: outcomes => some (.error (.random error), outcomes)
  | .ok bytes :: outcomes =>
    if passwords.contains (hexText bytes) then drawPassword passwords outcomes
    else some (.ok (hexText bytes), outcomes)

/-- The identity with a number and a password. -/
def identity (proxyAddr : SocketAddr) (id : ℕ) (password : Text) : TorIdentity :=
  ⟨id, proxyAddr, ⟨"worker-".toList ++ zeroPadded 6 id, password⟩⟩

/-- The outer loop of `generate` over the numbers that are left, with the passwords and the
identities so far. -/
def generateFrom (proxyAddr : SocketAddr) :
    List ℕ → List Text → List TorIdentity → List RandomOutcome →
      Option (Except TorIdentityError TorIdentityPool × List RandomOutcome)
  | [], _, identities, outcomes => some (.ok ⟨identities⟩, outcomes)
  | id :: ids, passwords, identities, outcomes =>
    match drawPassword passwords outcomes with
    | none => none
    | some (.error error, outcomes) => some (.error error, outcomes)
    | some (.ok password, outcomes) =>
      generateFrom proxyAddr ids (password :: passwords)
        (identities ++ [identity proxyAddr id password]) outcomes

/-- `TorIdentityPool::generate`: its result, and the outcomes that it has not read. -/
def generate (proxyAddr : SocketAddr) (count : ℕ) (outcomes : List RandomOutcome) :
    Option (Except TorIdentityError TorIdentityPool × List RandomOutcome) :=
  if count = 0 then some (.error .emptyIdentityPool, outcomes)
  else generateFrom proxyAddr (List.range count) [] [] outcomes

/-! ## One password -/

/-- Different blocks have different texts. -/
theorem hexText_inj {bytes bytes' : RandomBytes} (h : hexText bytes = hexText bytes') :
    bytes = bytes' :=
  Vector.toList_inj.mp (isHexTable_lower.injective h)

/-- What is skipped has been given out before, and what is taken has not. A failed read is the last
one. -/
theorem drawPassword_cases {used : List RandomBytes} {outcomes rest : List RandomOutcome}
    {result : Except TorIdentityError Text}
    (h : drawPassword (used.map hexText) outcomes = some (result, rest)) :
    (∃ (skipped : List RandomBytes) (block : RandomBytes),
        outcomes = skipped.map .ok ++ .ok block :: rest ∧ (∀ b ∈ skipped, b ∈ used) ∧
          block ∉ used ∧ result = .ok (hexText block)) ∨
      ∃ (skipped : List RandomBytes) (error : SysError),
        outcomes = skipped.map .ok ++ .error error :: rest ∧ result = .error (.random error) := by
  induction outcomes with
  | nil => cases h
  | cons outcome outcomes ih =>
    cases outcome with
    | error error =>
      obtain ⟨rfl, rfl⟩ := Prod.mk.inj (Option.some.inj h)
      exact .inr ⟨[], error, rfl, rfl⟩
    | ok bytes =>
      have hused : (used.map hexText).contains (hexText bytes) ↔ bytes ∈ used := by
        rw [List.contains_iff_mem]
        constructor
        · intro hmem
          obtain ⟨b, hb, heq⟩ := List.mem_map.mp hmem
          exact hexText_inj heq ▸ hb
        · exact List.mem_map_of_mem
      rw [drawPassword] at h
      split_ifs at h with hseen
      · rcases ih h with ⟨skipped, block, hsplit, hskipped, hnew, hresult⟩ |
          ⟨skipped, error, hsplit, hresult⟩
        · refine .inl ⟨bytes :: skipped, block, by rw [hsplit]; rfl, ?_, hnew, hresult⟩
          exact List.forall_mem_cons.mpr ⟨hused.mp hseen, hskipped⟩
        · exact .inr ⟨bytes :: skipped, error, by rw [hsplit]; rfl, hresult⟩
      · obtain ⟨rfl, rfl⟩ := Prod.mk.inj (Option.some.inj h)
        exact .inl ⟨[], bytes, rfl, by simp, fun hmem => hseen (hused.mpr hmem), rfl⟩

/-! ## All passwords -/

/-- Blocks that have been read before add nothing new, and one that has not adds itself. -/
theorem eraseDups_append_skipped {read skipped : List RandomBytes} {block : RandomBytes}
    (hskipped : ∀ b ∈ skipped, b ∈ read) (hnew : block ∉ read) :
    (read ++ (skipped ++ [block])).eraseDups = read.eraseDups ++ [block] := by
  have hremove : (skipped ++ [block]).removeAll read = [block] := by
    have hnone : skipped.filter (fun b => !read.elem b) = [] :=
      List.filter_eq_nil_iff.mpr fun b hb => by simp [hskipped b hb]
    unfold List.removeAll
    rw [List.filter_append, hnone]
    simp [hnew]
  rw [List.eraseDups_append, hremove]
  simp [List.eraseDups_cons]

/-- What the outer loop does with the blocks that it reads. `read` are the blocks that have been
read before, and `used` those of them that have been taken, the last one first. -/
theorem generateFrom_cases {proxyAddr : SocketAddr} {ids : List ℕ} {read used : List RandomBytes}
    {identities : List TorIdentity} {outcomes rest : List RandomOutcome}
    {result : Except TorIdentityError TorIdentityPool} (hused : used.reverse = read.eraseDups)
    (h : generateFrom proxyAddr ids (used.map hexText) identities outcomes = some (result, rest)) :
    (∃ blocks taken : List RandomBytes, outcomes = blocks.map .ok ++ rest ∧
        (read ++ blocks).eraseDups = read.eraseDups ++ taken ∧ taken.length = ids.length ∧
        taken.Nodup ∧ (∀ b ∈ taken, b ∉ used) ∧
        result = .ok ⟨identities ++ List.zipWith (identity proxyAddr) ids (taken.map hexText)⟩) ∨
      ∃ (blocks : List RandomBytes) (error : SysError),
        outcomes = blocks.map .ok ++ .error error :: rest ∧ result = .error (.random error) := by
  induction ids generalizing read used identities outcomes with
  | nil =>
    obtain ⟨rfl, rfl⟩ := Prod.mk.inj (Option.some.inj h)
    exact .inl ⟨[], [], rfl, by simp, rfl, List.nodup_nil, by simp, by simp⟩
  | cons id ids ih =>
    have hread (b : RandomBytes) : b ∈ read ↔ b ∈ used := by
      rw [← List.mem_eraseDups, ← hused, List.mem_reverse]
    rw [generateFrom] at h
    cases hdraw : drawPassword (used.map hexText) outcomes with
    | none => simp [hdraw] at h
    | some drawn =>
      obtain ⟨drawn, outcomes'⟩ := drawn
      rw [hdraw] at h
      rcases drawPassword_cases hdraw with ⟨skipped, block, hsplit, hskipped, hnew, rfl⟩ |
        ⟨skipped, error, hsplit, rfl⟩
      swap
      · obtain ⟨rfl, rfl⟩ := Prod.mk.inj (Option.some.inj h)
        exact .inr ⟨skipped, error, hsplit, rfl⟩
      have hdups : (read ++ (skipped ++ [block])).eraseDups = read.eraseDups ++ [block] :=
        eraseDups_append_skipped (fun b hb => (hread b).mpr (hskipped b hb))
          fun hmem => hnew ((hread block).mp hmem)
      have hused' : (block :: used).reverse = (read ++ (skipped ++ [block])).eraseDups := by
        rw [List.reverse_cons, hused, hdups]
      rcases ih hused' h with ⟨blocks, taken, hrest, htaken, hlength, hnodup, hfresh, hresult⟩ |
        ⟨blocks, error, hrest, hresult⟩
      · refine .inl ⟨skipped ++ block :: blocks, block :: taken, ?_, ?_, ?_, ?_, ?_, ?_⟩
        · rw [hsplit, hrest]
          simp
        · rw [hdups] at htaken
          simpa using htaken
        · simp [hlength]
        · exact List.nodup_cons.mpr ⟨fun hmem => hfresh block hmem List.mem_cons_self, hnodup⟩
        · refine List.forall_mem_cons.mpr ⟨hnew, fun b hb hmem => ?_⟩
          exact hfresh b hb (List.mem_cons_of_mem block hmem)
        · rw [hresult]
          simp
      · refine .inr ⟨skipped ++ block :: blocks, error, ?_, hresult⟩
        rw [hsplit, hrest]
        simp

/-! ## The pool -/

/-- A pool of `count` identities from the blocks that were read: they are numbered, they share the
address, and their names are different. Their passwords are different too, and are the texts of the
blocks in order, without those that are there already. -/
structure Generated (proxyAddr : SocketAddr) (count : ℕ) (blocks : List RandomBytes)
    (pool : TorIdentityPool) : Prop where
  ids : pool.identities.map (·.id) = List.range count
  proxyAddr : ∀ identity ∈ pool.identities, identity.proxyAddr = proxyAddr
  usernames : (pool.identities.map (·.auth.username)).Nodup
  passwords : pool.identities.map (·.auth.password) = blocks.eraseDups.map hexText
  nodup_passwords : (pool.identities.map (·.auth.password)).Nodup

/-- The names of identities with different numbers are different. -/
theorem username_inj {proxyAddr : SocketAddr} {id id' : ℕ} {password password' : Text}
    (h : (identity proxyAddr id password).auth.username =
      (identity proxyAddr id' password').auth.username) : id = id' :=
  zeroPadded_inj (List.append_cancel_left h)

/-- What is made of numbers and passwords. -/
theorem generated_zipWith {proxyAddr : SocketAddr} {count : ℕ} {blocks : List RandomBytes}
    (hlength : blocks.eraseDups.length = count) (hnodup : blocks.eraseDups.Nodup) :
    Generated proxyAddr count blocks
      ⟨List.zipWith (identity proxyAddr) (List.range count) (blocks.eraseDups.map hexText)⟩ := by
  have hlength' : (List.range count).length = (blocks.eraseDups.map hexText).length := by
    rw [List.length_range, List.length_map, hlength]
  have hzip : List.zipWith (identity proxyAddr) (List.range count) (blocks.eraseDups.map hexText) =
      ((List.range count).zip (blocks.eraseDups.map hexText)).map
        fun p => identity proxyAddr p.1 p.2 := by
    rw [List.map_zip_eq_zipWith]
    rfl
  have hids : ((List.range count).zip (blocks.eraseDups.map hexText)).map Prod.fst =
      List.range count := List.map_fst_zip hlength'.le
  have hpasswords : ((List.range count).zip (blocks.eraseDups.map hexText)).map Prod.snd =
      blocks.eraseDups.map hexText := List.map_snd_zip hlength'.ge
  have htexts : (blocks.eraseDups.map hexText).Nodup := hnodup.map fun _ _ => hexText_inj
  rw [hzip]
  refine ⟨?_, ?_, ?_, ?_, ?_⟩
  · rw [List.map_map]
    exact hids
  · intro identity hmem
    obtain ⟨p, -, rfl⟩ := List.mem_map.mp hmem
    rfl
  · have hnumbers : (((List.range count).zip (blocks.eraseDups.map hexText)).map
        Prod.fst).Nodup := by
      rw [hids]
      exact List.nodup_range
    rw [List.map_map]
    exact List.pairwise_map.mpr ((List.pairwise_map.mp hnumbers).imp fun hne h =>
      hne (username_inj h))
  · rw [List.map_map]
    exact hpasswords
  · rw [List.map_map]
    show (((List.range count).zip (blocks.eraseDups.map hexText)).map Prod.snd).Nodup
    rw [hpasswords]
    exact htexts

/-- What `generate` returns for any outcomes on which it returns. If no read of it fails, it has
read some blocks, and returns a pool that is generated from them; if a read fails, it returns the
error. An empty pool is refused before anything is read. -/
theorem generate_cases :
    (∀ (proxyAddr : SocketAddr) (count : ℕ) (outcomes rest : List RandomOutcome)
        (result : Except TorIdentityError TorIdentityPool), 0 < count →
      generate proxyAddr count outcomes = some (result, rest) →
        (∃ (blocks : List RandomBytes) (pool : TorIdentityPool),
          outcomes = blocks.map .ok ++ rest ∧ result = .ok pool ∧
            Generated proxyAddr count blocks pool) ∨
        ∃ (blocks : List RandomBytes) (error : SysError),
          outcomes = blocks.map .ok ++ .error error :: rest ∧ result = .error (.random error)) ∧
    ∀ (proxyAddr : SocketAddr) (outcomes : List RandomOutcome),
      generate proxyAddr 0 outcomes = some (.error .emptyIdentityPool, outcomes) := by
  refine ⟨fun proxyAddr count outcomes rest result hcount h => ?_, fun _ _ => rfl⟩
  have hfrom : generateFrom proxyAddr (List.range count) (([] : List RandomBytes).map hexText) []
      outcomes = some (result, rest) := by
    rw [← h, generate, if_neg (Nat.pos_iff_ne_zero.mp hcount)]
    rfl
  have hcases := @generateFrom_cases proxyAddr (List.range count) [] [] [] outcomes rest result rfl
    hfrom
  rcases hcases with
    ⟨blocks, taken, hsplit, htaken, hlength, hnodup, -, hresult⟩ | herror
  · have htaken' : blocks.eraseDups = taken := by simpa using htaken
    refine .inl ⟨blocks, _, hsplit, hresult, ?_⟩
    rw [List.length_range] at hlength
    rw [← htaken'] at hlength hnodup ⊢
    exact generated_zipWith hlength hnodup
  · exact .inr herror

/-- Two identities from three blocks, the second of which is the first one again. The failure behind
them is not read. -/
theorem generate_cases_two :
    ∃ pool, generate (.v4 .localhost 20300) 2 [.ok (Vector.replicate 32 7),
        .ok (Vector.replicate 32 7), .ok (Vector.replicate 32 9), .error .unavailable] =
      some (.ok pool, [.error .unavailable]) ∧
    (pool.identities.map (·.auth.password)).Nodup := by
  have hrun : generate (.v4 .localhost 20300) 2 [.ok (Vector.replicate 32 7),
      .ok (Vector.replicate 32 7), .ok (Vector.replicate 32 9), .error .unavailable] =
        some (.ok _, [.error .unavailable]) := rfl
  refine ⟨_, hrun, ?_⟩
  rcases generate_cases.1 _ _ _ _ _ (by decide) hrun with ⟨blocks, pool, -, hpool, hgenerated⟩ |
    ⟨blocks, error, -, herror⟩
  · rw [Except.ok.inj hpool]
    exact hgenerated.nodup_passwords
  · cases herror

end TorIdentityPool

end Torlane
