import Torlane.Text

/-!
# The version of Tor

`parse_tor_version` of `src/tor/version.rs`, and the line that `tor --version` prints. A release is
read in full. A status tag sticks to the last of the four numbers, which is then not a number any
more and is dropped without an error (`parseTorVersion_text_eq_full_iff`).
-/

namespace Torlane

open Text

/-- `TorVersion`. -/
structure TorVersion where
  major : UInt32
  minor : UInt32
  patch : UInt32
  /-- The fourth component, if there is one. -/
  revision : Option UInt32
  deriving DecidableEq, Repr

/-- `str::parse::<u32>`. -/
def parseU32 (text : Text) : Option UInt32 := (parseUnsigned (2^32 - 1) text).map UInt32.ofNat

/-- `parse_tor_version`. -/
def parseTorVersion (output : Text) : Option TorVersion := do
  let version ← (splitWhitespace output).find? fun part => part.head?.any Char.isDigit
  let parts := (trimEndMatches '.' version).splitOn '.'
  let major ← parts[0]?.bind parseU32
  let minor ← parts[1]?.bind parseU32
  let patch ← parts[2]?.bind parseU32
  -- Only here a failure to parse is no failure of the function.
  return ⟨major, minor, patch, parts[3]?.bind parseU32⟩

/-! ## What Tor prints -/

/-- A status tag such as `alpha` or `rc`. -/
structure StatusTag where
  text : Text
  text_ne_nil : text ≠ []
  /-- A tag has no whitespace. -/
  isWhitespace_eq_false : ∀ c ∈ text, isWhitespace c = false

/-- The parts of the output of `tor --version`. -/
structure VersionOutput where
  major : UInt32
  minor : UInt32
  micro : UInt32
  patchlevel : UInt32
  statusTag : Option StatusTag
  /-- The commit, in hexadecimal. -/
  git : Option Text
  /-- The lines after the first one. -/
  further : Option Text

namespace VersionOutput

/-- The four numbers. -/
def numbers (output : VersionOutput) : Text :=
  decimal output.major.toNat ++ '.' :: decimal output.minor.toNat ++
    '.' :: decimal output.micro.toNat ++ '.' :: decimal output.patchlevel.toNat

/-- The status tag behind the numbers. -/
def tag (output : VersionOutput) : Text :=
  match output.statusTag with
  | some tag => '-' :: tag.text
  | none => []

/-- The commit behind the tag. -/
def suffix (output : VersionOutput) : Text :=
  match output.git with
  | some commit => " (git-".toList ++ commit ++ [')']
  | none => []

/-- What is behind the first line. -/
def rest (output : VersionOutput) : Text :=
  match output.further with
  | some lines => '\n' :: lines
  | none => []

/-- The output of `tor --version`. -/
def text (output : VersionOutput) : Text :=
  "Tor version ".toList ++ output.numbers ++ output.tag ++ output.suffix ++ ['.'] ++ output.rest

end VersionOutput

/-! ## Numbers -/

/-- A decimal number is read back. -/
@[simp] theorem parseU32_decimal (n : UInt32) : parseU32 (decimal n.toNat) = some n := by
  have hmax : n.toNat ≤ 2^32 - 1 := Nat.le_sub_one_of_lt n.toNat_lt
  unfold parseU32
  rw [parseUnsigned_decimal hmax, Option.map_some, UInt32.ofNat_toNat]

/-- A text with a hyphen in it is not a number. -/
theorem parseU32_eq_none {text : Text} (h : '-' ∈ text) : parseU32 text = none := by
  unfold parseU32
  rw [Option.map_eq_none_iff, Option.eq_none_iff_forall_ne_some]
  intro n hn
  obtain ⟨-, digits, -, htext, hdigits, -⟩ := parseUnsigned_eq_some_iff.mp hn
  have hmem : '-' ∈ digits := by
    rcases htext with rfl | rfl
    · exact h
    · exact (List.mem_cons.mp h).resolve_left (by decide)
  exact absurd (hdigits '-' hmem) (by decide)

/-! ## The word of the version -/

/-- The word of the version is the first one that starts with a digit. -/
theorem find_version {word rest : Text} (hdigit : word.head?.any Char.isDigit = true)
    (hword : ∀ c ∈ word, isWhitespace c = false) (hrest : ∀ c ∈ rest.head?, isWhitespace c = true) :
    (splitWhitespace ("Tor version ".toList ++ word ++ rest)).find?
      (fun part => part.head?.any Char.isDigit) = some word := by
  have hne : word ≠ [] := by
    rintro rfl
    cases hdigit
  have hwords : ∃ after, splitWhitespace (word ++ rest) = word :: after := by
    cases rest with
    | nil => exact ⟨[], by rw [List.append_nil, splitWhitespace_eq_singleton hne hword]⟩
    | cons c rest =>
      have hc : isWhitespace c = true := hrest c rfl
      exact ⟨splitWhitespace rest, by
        rw [splitWhitespace_append hc, splitWhitespace_eq_singleton hne hword]
        rfl⟩
  obtain ⟨after, hafter⟩ := hwords
  have hsplit : "Tor version ".toList ++ word ++ rest =
      "Tor".toList ++ ' ' :: ("version".toList ++ ' ' :: (word ++ rest)) := by
    simp
  have htor : splitWhitespace "Tor".toList = ["Tor".toList] := by decide
  have hversion : splitWhitespace "version".toList = ["version".toList] := by decide
  rw [hsplit, splitWhitespace_append rfl, splitWhitespace_append rfl, htor, hversion, hafter]
  simp [hdigit]

/-- The parts of a version: three numbers, and what is behind them. -/
theorem splitOn_numbers (major minor micro : UInt32) (rest : Text) :
    (decimal major.toNat ++ '.' :: decimal minor.toNat ++ '.' :: decimal micro.toNat ++
      '.' :: rest).splitOn '.' =
        decimal major.toNat :: decimal minor.toNat :: decimal micro.toNat :: rest.splitOn '.' := by
  have hdot (n : ℕ) : '.' ∉ decimal n := notMem_decimal rfl n
  simp only [List.append_assoc, List.cons_append]
  rw [splitOn_append_cons (hdot _), splitOn_append_cons (hdot _), splitOn_append_cons (hdot _)]

namespace VersionOutput

variable (output : VersionOutput)

/-- The first line up to the end of the version's word: without a commit, the full stop of the
sentence belongs to the word. -/
def word : Text :=
  output.numbers ++ output.tag ++ if output.git = none then ['.'] else []

/-- What is behind the version's word. -/
def afterWord : Text :=
  if output.git = none then output.rest else output.suffix ++ ['.'] ++ output.rest

/-- The text is split at the end of the version's word. -/
theorem text_eq : output.text = "Tor version ".toList ++ output.word ++ output.afterWord := by
  unfold text word afterWord suffix
  cases output.git with
  | none => simp
  | some commit => simp

/-- The word starts with a digit. -/
theorem isDigit_head?_word : output.word.head?.any Char.isDigit = true := by
  unfold word numbers
  cases hmajor : decimal output.major.toNat with
  | nil => exact absurd hmajor (decimal_ne_nil _)
  | cons c cs =>
    have hc : c ∈ decimal output.major.toNat := by rw [hmajor]; exact List.mem_cons_self
    simpa using isDigit_of_mem_decimal hc

/-- The word has no whitespace. -/
theorem isWhitespace_of_mem_word : ∀ c ∈ output.word, isWhitespace c = false := by
  have hdigits {n : ℕ} {c : Char} (h : c ∈ decimal n) : isWhitespace c = false :=
    isWhitespace_of_isDigit (isDigit_of_mem_decimal h)
  have htag : ∀ c ∈ output.tag, isWhitespace c = false := by
    unfold tag
    cases output.statusTag with
    | none => simp
    | some tag => exact List.forall_mem_cons.mpr ⟨by decide, tag.isWhitespace_eq_false⟩
  intro c hc
  unfold word numbers at hc
  simp only [List.mem_append, List.mem_cons] at hc
  rcases hc with (((((h | rfl | h) | rfl | h) | rfl | h) | h) | h)
  · exact hdigits h
  · decide
  · exact hdigits h
  · decide
  · exact hdigits h
  · decide
  · exact hdigits h
  · exact htag c h
  · split_ifs at h
    · obtain rfl := List.mem_singleton.mp h
      decide
    · cases h

/-- The word ends where whitespace starts, or with the text. -/
theorem isWhitespace_head?_afterWord : ∀ c ∈ output.afterWord.head?, isWhitespace c = true := by
  unfold afterWord suffix rest
  cases output.git with
  | some commit => simp; decide
  | none =>
    cases output.further with
    | none => simp
    | some lines => simp; decide

/-- What is left of the word without the full stop: the numbers, and what is left of the tag. -/
theorem trimEndMatches_word : ∃ kept, trimEndMatches '.' output.word = output.numbers ++ kept ∧
    (output.statusTag = none ∧ kept = [] ∨ output.statusTag ≠ none ∧ '-' ∈ kept.head?) := by
  have hstop : trimEndMatches '.' output.word =
      trimEndMatches '.' (output.numbers ++ output.tag) := by
    unfold word
    split_ifs
    · rw [trimEndMatches_concat, if_pos rfl]
    · rw [List.append_nil]
  rw [hstop]
  unfold tag
  cases output.statusTag with
  | none =>
    have hlast : output.numbers = decimal output.major.toNat ++ '.' :: decimal output.minor.toNat ++
        '.' :: decimal output.micro.toNat ++ ['.'] ++ decimal output.patchlevel.toNat := by
      simp [numbers]
    refine ⟨[], ?_, .inl ⟨rfl, rfl⟩⟩
    rw [List.append_nil, hlast]
    exact trimEndMatches_append (decimal_ne_nil _) (notMem_decimal rfl _) _
  | some tag =>
    exact ⟨'-' :: trimEndMatches '.' tag.text, trimEndMatches_append_cons (by decide) _ _,
      .inr ⟨by simp, by simp⟩⟩

/-- The fourth part of the version's word: the last number alone, or not a number. -/
theorem parseU32_patchlevel {kept : Text} (h : kept = [] ∨ '-' ∈ kept.head?) :
    (((decimal output.patchlevel.toNat ++ kept).splitOn '.')[0]?).bind parseU32 =
      if kept = [] then some output.patchlevel else none := by
  have hdot : '.' ∉ decimal output.patchlevel.toNat := notMem_decimal rfl _
  rcases h with rfl | h
  · rw [List.append_nil, List.splitOn_eq_singleton hdot]
    simp
  · cases kept with
    | nil => cases h
    | cons c kept =>
      obtain rfl : c = '-' := by simpa using h
      rw [splitOn_append_of_notMem hdot, List.splitOn_cons_eq_if_modifyHead]
      cases hparts : kept.splitOn '.' with
      | nil => exact absurd hparts (List.splitOn_ne_nil _ _)
      | cons part parts => simp [parseU32_eq_none]

/-- What is read of the output of `tor --version`: all numbers, except the last one of a version
with a status tag. -/
theorem parseTorVersion_text : parseTorVersion output.text =
    some ⟨output.major, output.minor, output.micro,
      if output.statusTag.isNone then some output.patchlevel else none⟩ := by
  obtain ⟨kept, hkept, htag⟩ := output.trimEndMatches_word
  have hfind := find_version output.isDigit_head?_word output.isWhitespace_of_mem_word
    output.isWhitespace_head?_afterWord
  have hsplit : (output.numbers ++ kept).splitOn '.' = decimal output.major.toNat ::
      decimal output.minor.toNat :: decimal output.micro.toNat ::
        (decimal output.patchlevel.toNat ++ kept).splitOn '.' := by
    rw [← splitOn_numbers, numbers]
    simp
  have hlast := output.parseU32_patchlevel (htag.imp And.right And.right)
  have hnone : kept = [] ↔ output.statusTag.isNone := by
    rcases htag with ⟨hnone, rfl⟩ | ⟨hsome, hhead⟩
    · simp [hnone]
    · have hne : kept ≠ [] := by
        rintro rfl
        cases hhead
      simpa [hne] using hsome
  unfold parseTorVersion
  rw [text_eq, hfind]
  simp only [Option.bind_eq_bind, Option.bind_some, hkept, hsplit]
  simp only [List.getElem?_cons_zero, List.getElem?_cons_succ, Option.bind_some, parseU32_decimal]
  rw [hlast, if_congr hnone rfl rfl]
  rfl

/-- A version is read in full if and only if it has no status tag. -/
theorem parseTorVersion_text_eq_full_iff : parseTorVersion output.text =
    some ⟨output.major, output.minor, output.micro, some output.patchlevel⟩ ↔
      output.statusTag = none := by
  rw [parseTorVersion_text]
  cases output.statusTag <;> simp

end VersionOutput

/-- The output of an alpha release. -/
def alphaRelease : VersionOutput where
  major := 0
  minor := 4
  micro := 9
  patchlevel := 2
  statusTag := some ⟨"alpha".toList, by simp, by simp; decide⟩
  git := none
  further := none

/-- The last number of an alpha release is lost. -/
theorem parseTorVersion_alpha :
    alphaRelease.text = "Tor version 0.4.9.2-alpha.".toList ∧
      parseTorVersion alphaRelease.text = some ⟨0, 4, 9, none⟩ ∧
      parseTorVersion alphaRelease.text ≠ some ⟨0, 4, 9, some 2⟩ := by
  decide

end Torlane
