import Mathlib.Algebra.Group.Nat.Defs
import Mathlib.Data.Int.Notation
import Mathlib.Data.List.DropRight
import Mathlib.Data.Nat.Notation

/-!
# Text

Strings are lists of characters. This file has the parts of the standard library's formatting and
parsing that the crate uses: decimal and hexadecimal numbers, zero padding, and the parser of
unsigned integers, whose syntax is wider than the formatter's output (it takes a leading `+`).
-/

/-- A string, as the list of its characters. -/
abbrev Text := List Char

namespace Text

/-- The decimal digits of a number, as `{}` prints them. -/
def decimal (n : ℕ) : Text := Nat.toDigits 10 n

/-- The decimal text of a signed number. -/
def decimalInt : ℤ → Text
  | .ofNat n => decimal n
  | .negSucc n => '-' :: decimal (n + 1)

/-- The lower-case hexadecimal digits of a number, as `{:x}` prints them. -/
def hexadecimal (n : ℕ) : Text := Nat.toDigits 16 n

/-- The decimal digits of a number, with zeros before them up to the width, as `{:0width}` prints
them. -/
def zeroPadded (width n : ℕ) : Text :=
  List.replicate (width - (decimal n).length) '0' ++ decimal n

/-- Two hexadecimal digits for each byte, taken from the given table of sixteen digits. -/
def hexEncodeWith (digits : Text) (bytes : List UInt8) : Text :=
  bytes.flatMap fun byte => [digits.getD (byte.toNat / 16) '0', digits.getD (byte.toNat % 16) '0']

/-- The value of an ASCII decimal digit. -/
def digitValue (c : Char) : Option ℕ :=
  if '0' ≤ c ∧ c ≤ '9' then some (c.toNat - '0'.toNat) else none

/-- The value of a run of ASCII decimal digits that does not exceed `max`, read from left to right
after the digits with value `acc`. -/
def digitsValue (max : ℕ) : ℕ → Text → Option ℕ
  | acc, [] => some acc
  | acc, c :: cs =>
    match digitValue c with
    | none => none
    | some d => if acc * 10 + d ≤ max then digitsValue max (acc * 10 + d) cs else none

/-- The standard library's parser of an unsigned integer type whose largest value is `max`: an
optional `+`, and at least one decimal digit. -/
def parseUnsigned (max : ℕ) : Text → Option ℕ
  | [] => none
  | ['+'] => none
  | '+' :: cs => digitsValue max 0 cs
  | cs => digitsValue max 0 cs

/-- `char::is_whitespace`: the property `White_Space` of Unicode. -/
def isWhitespace (c : Char) : Bool :=
  let n := c.toNat
  (0x09 ≤ n ∧ n ≤ 0x0D) ∨ n = 0x20 ∨ n = 0x85 ∨ n = 0xA0 ∨ n = 0x1680 ∨ (0x2000 ≤ n ∧ n ≤ 0x200A) ∨
    n = 0x2028 ∨ n = 0x2029 ∨ n = 0x202F ∨ n = 0x205F ∨ n = 0x3000

/-- `str::split_once` at a character: the text before its first occurrence, and the text after. -/
def splitOnce (c : Char) : Text → Option (Text × Text)
  | [] => none
  | d :: cs =>
    if d = c then some ([], cs)
    else (splitOnce c cs).map fun (pre, post) => (d :: pre, post)

/-- `str::strip_prefix`. -/
def stripPrefix (start s : Text) : Option Text :=
  if start.isPrefixOf s then some (s.drop start.length) else none

/-- `str::strip_suffix`. -/
def stripSuffix (ending s : Text) : Option Text :=
  if ending.isSuffixOf s then some (s.take (s.length - ending.length)) else none

/-- `str::trim`. -/
def trim (text : Text) : Text := (text.dropWhile isWhitespace).rdropWhile isWhitespace

/-- `str::trim_end_matches` of a character. -/
def trimEndMatches (c : Char) (text : Text) : Text := text.rdropWhile (· == c)

/-- `str::split_whitespace`. -/
def splitWhitespace (text : Text) : List Text :=
  (text.splitOnP isWhitespace).filter fun word => ¬ word.isEmpty

/-- `str::find` and the slice behind what it has found: the text after the first occurrence of a
pattern. -/
def afterFirst (pattern : Text) : Text → Option Text
  | [] => stripPrefix pattern []
  | c :: cs => (stripPrefix pattern (c :: cs)).or (afterFirst pattern cs)

/-! ## Prefixes -/

/-- A prefix is stripped. -/
@[simp] theorem stripPrefix_append (start rest : Text) :
    stripPrefix start (start ++ rest) = some rest := by
  unfold stripPrefix
  rw [if_pos (by simp), List.drop_left]

/-- What is stripped is a prefix. -/
theorem stripPrefix_eq_none {start s : Text} (h : ¬ start <+: s) : stripPrefix start s = none := by
  unfold stripPrefix
  rw [if_neg (by simpa using h)]

/-- What is stripped stood before the rest. -/
theorem eq_append_of_stripPrefix {start s rest : Text} (h : stripPrefix start s = some rest) :
    s = start ++ rest := by
  by_cases hstart : start <+: s
  · obtain ⟨rest', rfl⟩ := hstart
    rw [stripPrefix_append, Option.some.injEq] at h
    rw [h]
  · rw [stripPrefix_eq_none hstart] at h
    cases h

/-- A pattern is not found before a character that it does not have. -/
theorem afterFirst_append {pattern pre rest : Text} {c : Char} (hc : c ∉ pattern)
    (hpre : ¬ pattern <:+: pre) :
    afterFirst pattern (pre ++ c :: rest) = afterFirst pattern rest := by
  -- An occurrence that starts before the character would lie before it, or contain it.
  have hnot {pre : Text} (hpre : ¬ pattern <:+: pre) : ¬ pattern <+: pre ++ c :: rest := by
    intro hpart
    have hsplit : pre ++ c :: rest = (pre ++ [c]) ++ rest := by simp
    rw [hsplit] at hpart
    rcases List.prefix_or_prefix_of_prefix hpart (List.prefix_append (pre ++ [c]) rest) with
      h | h
    · rcases List.prefix_concat_iff.mp h with rfl | h
      · exact hc (by simp)
      · exact hpre h.isInfix
    · exact hc (h.subset (by simp))
  induction pre with
  | nil =>
    show (stripPrefix pattern ([] ++ c :: rest)).or (afterFirst pattern rest) =
      afterFirst pattern rest
    rw [stripPrefix_eq_none (hnot hpre), Option.none_or]
  | cons d pre ih =>
    show (stripPrefix pattern (d :: pre ++ c :: rest)).or (afterFirst pattern (pre ++ c :: rest)) =
      afterFirst pattern rest
    rw [stripPrefix_eq_none (hnot hpre), Option.none_or]
    exact ih fun h => hpre (h.trans (List.suffix_cons d pre).isInfix)

/-- A pattern is found where the text starts with it. -/
theorem afterFirst_self (pattern rest : Text) :
    afterFirst pattern (pattern ++ rest) = some rest := by
  cases h : pattern ++ rest with
  | nil =>
    have hnil : pattern = [] ∧ rest = [] := List.append_eq_nil_iff.mp h
    rw [hnil.1, hnil.2]
    rfl
  | cons c cs =>
    show (stripPrefix pattern (c :: cs)).or (afterFirst pattern cs) = some rest
    rw [← h, stripPrefix_append, Option.some_or]

/-! ## Joining -/

/-- A character of joined texts is one of a text or one of the separator. -/
theorem mem_intercalate {separator : Text} {texts : List Text} {c : Char}
    (h : c ∈ separator.intercalate texts) : c ∈ separator ∨ ∃ text ∈ texts, c ∈ text := by
  induction texts with
  | nil => cases h
  | cons text texts ih =>
    cases texts with
    | nil => exact .inr ⟨text, List.mem_cons_self, by simpa using h⟩
    | cons next texts =>
      rw [List.intercalate_cons_cons, List.append_assoc, List.mem_append, List.mem_append] at h
      rcases h with h | h | h
      · exact .inr ⟨text, List.mem_cons_self, h⟩
      · exact .inl h
      · rcases ih h with h | ⟨other, hmem, h⟩
        · exact .inl h
        · exact .inr ⟨other, List.mem_cons_of_mem text hmem, h⟩

/-- Joined texts are the first one, and the others with a separator before each. -/
theorem intercalate_cons (c : Char) (text : Text) (texts : List Text) :
    [c].intercalate (text :: texts) = text ++ texts.flatMap (c :: ·) := by
  induction texts generalizing text with
  | nil => simp
  | cons next texts ih =>
    rw [List.intercalate_cons_cons, ih, List.append_assoc, List.flatMap_cons]
    rfl

/-! ## Trimming -/

/-- Where a text does not end in whitespace, only its start is trimmed, and whitespace behind it. -/
theorem trim_append {text ending : Text}
    (htext : ∀ h : text ≠ [], isWhitespace (text.getLast h) = false)
    (hending : ∀ c ∈ ending, isWhitespace c = true) :
    trim (text ++ ending) = text.dropWhile isWhitespace := by
  have htrimmed {s : Text} : (s ++ ending).rdropWhile isWhitespace = s.rdropWhile isWhitespace := by
    have hreverse : ∀ c ∈ ending.reverse, isWhitespace c = true := by simpa using hending
    unfold List.rdropWhile
    rw [List.reverse_append, List.dropWhile_append_of_pos hreverse]
  have hkept : (text.dropWhile isWhitespace).rdropWhile isWhitespace =
      text.dropWhile isWhitespace := by
    refine List.rdropWhile_eq_self_iff.mpr fun hne => ?_
    rw [(List.dropWhile_suffix isWhitespace).getLast hne, htext]
    decide
  have hstart : (text ++ ending).dropWhile isWhitespace =
      if (text.dropWhile isWhitespace).isEmpty then ending.dropWhile isWhitespace
      else text.dropWhile isWhitespace ++ ending := List.dropWhile_append
  unfold trim
  rw [hstart]
  split_ifs with hempty
  · have hnil : text.dropWhile isWhitespace = [] := by simpa using hempty
    have hspace : ending.dropWhile isWhitespace = [] := List.dropWhile_eq_nil_iff.mpr hending
    rw [hnil, hspace]
    rfl
  · rw [htrimmed, hkept]

/-- A text without whitespace is not trimmed. -/
theorem trim_eq_self {text : Text} (h : ∀ c ∈ text, isWhitespace c = false) : trim text = text := by
  have hlast : ∀ hne : text ≠ [], isWhitespace (text.getLast hne) = false :=
    fun hne => h _ (List.getLast_mem hne)
  have hwhole := @trim_append text [] hlast (by simp)
  rw [List.append_nil] at hwhole
  rw [hwhole]
  exact List.dropWhile_eq_self_iff.mpr fun hpos => by simp [h _ (List.getElem_mem hpos)]

/-- The last character is trimmed, or nothing is. -/
theorem trimEndMatches_concat (c d : Char) (text : Text) :
    trimEndMatches c (text ++ [d]) = if d = c then trimEndMatches c text else text ++ [d] := by
  unfold trimEndMatches
  simp [List.rdropWhile_concat]

/-- A character that is not trimmed keeps what is before it. -/
theorem trimEndMatches_append_cons {c d : Char} (h : d ≠ c) (pre post : Text) :
    trimEndMatches c (pre ++ d :: post) = pre ++ d :: trimEndMatches c post := by
  induction post using List.reverseRecOn with
  | nil =>
    rw [trimEndMatches_concat, if_neg h]
    rfl
  | append_singleton post e ih =>
    have hassoc : pre ++ d :: (post ++ [e]) = (pre ++ d :: post) ++ [e] := by simp
    rw [hassoc, trimEndMatches_concat, trimEndMatches_concat, ih]
    split_ifs
    · rfl
    · exact hassoc.symm

/-- Nothing is trimmed where a text ends without the character. -/
theorem trimEndMatches_append {c : Char} {text : Text} (hne : text ≠ []) (h : c ∉ text)
    (pre : Text) : trimEndMatches c (pre ++ text) = pre ++ text := by
  obtain ⟨start, last, rfl⟩ := (List.eq_nil_or_concat' text).resolve_left hne
  have hlast : last ≠ c := by
    rintro rfl
    exact h (by simp)
  rw [← List.append_assoc, trimEndMatches_concat, if_neg hlast]

/-! ## Splitting -/

/-- Text before the first separator of another one goes to the start of its first part. -/
theorem splitOn_append_of_notMem {c : Char} {start : Text} (h : c ∉ start) (text : Text) :
    (start ++ text).splitOn c = (text.splitOn c).modifyHead (start ++ ·) := by
  induction start with
  | nil =>
    rw [List.nil_append]
    cases text.splitOn c <;> rfl
  | cons d start ih =>
    obtain ⟨hd, hstart⟩ := not_or.mp (mt List.mem_cons.mpr h)
    rw [List.cons_append, List.splitOn_cons_eq_if_modifyHead, if_neg (by simpa using Ne.symm hd),
      ih hstart, List.modifyHead_modifyHead]
    rfl

/-- A part without a separator is split from what follows the separator. -/
theorem splitOn_append_cons {c : Char} {part : Text} (h : c ∉ part) (rest : Text) :
    (part ++ c :: rest).splitOn c = part :: rest.splitOn c := by
  rw [List.splitOn_append_cons_self, List.splitOn_eq_singleton h, List.singleton_append]

/-- A text is split at the first occurrence of a character. -/
theorem splitOnce_eq_some_iff {c : Char} {text pre post : Text} :
    splitOnce c text = some (pre, post) ↔ text = pre ++ c :: post ∧ c ∉ pre := by
  induction text generalizing pre with
  | nil => simp [splitOnce]
  | cons d cs ih =>
    rw [splitOnce]
    split_ifs with hd
    · subst hd
      cases pre with
      | nil => simp [eq_comm]
      | cons e pre =>
        simp only [Option.some.injEq, Prod.mk.injEq, reduceCtorEq, false_and, false_iff, not_and,
          not_not, List.cons_append, List.cons.injEq]
        rintro ⟨rfl, -⟩
        exact List.mem_cons_self
    · cases pre with
      | nil => simp [hd]
      | cons e pre =>
        simp only [Option.map_eq_some_iff, Prod.exists, Prod.mk.injEq, List.cons.injEq,
          List.cons_append]
        constructor
        · rintro ⟨pre', post', hsplit, ⟨rfl, rfl⟩, rfl⟩
          obtain ⟨heq, hnot⟩ := ih.mp hsplit
          exact ⟨⟨rfl, heq⟩, by simpa [Ne.symm hd] using hnot⟩
        · rintro ⟨⟨rfl, heq⟩, hnot⟩
          have hnot' : c ∉ pre := fun hmem => hnot (List.mem_cons_of_mem d hmem)
          exact ⟨pre, post, ih.mpr ⟨heq, hnot'⟩, ⟨rfl, rfl⟩, rfl⟩

/-- Where a text has a character for the first time, it is split in one way. -/
theorem append_cons_inj_of_notMem {c : Char} {pre pre' post post' : Text} (h : c ∉ pre)
    (h' : c ∉ pre') (heq : pre ++ c :: post = pre' ++ c :: post') : pre = pre' ∧ post = post' := by
  have hsplit := splitOnce_eq_some_iff.mpr ⟨heq, h'⟩
  rw [splitOnce_eq_some_iff.mpr ⟨rfl, h⟩] at hsplit
  exact Prod.mk.inj (Option.some.inj hsplit)

/-- Where a text has a character for the last time, it is split in one way. -/
theorem append_cons_inj_of_notMem_right {c : Char} {pre pre' post post' : Text} (h : c ∉ post)
    (h' : c ∉ post') (heq : pre ++ c :: post = pre' ++ c :: post') : pre = pre' ∧ post = post' := by
  have hreverse : post.reverse ++ c :: pre.reverse = post'.reverse ++ c :: pre'.reverse := by
    simpa using congrArg List.reverse heq
  have hparts := append_cons_inj_of_notMem (by simpa using h) (by simpa using h') hreverse
  exact ⟨List.reverse_inj.mp hparts.2, List.reverse_inj.mp hparts.1⟩

/-- Words are split at whitespace. -/
theorem splitWhitespace_append {c : Char} (h : isWhitespace c = true) (pre post : Text) :
    splitWhitespace (pre ++ c :: post) = splitWhitespace pre ++ splitWhitespace post := by
  unfold splitWhitespace
  rw [List.splitOnP_append_cons pre post h, List.filter_append]

/-- The words of a text without whitespace: itself, unless it is empty. -/
theorem splitWhitespace_of_forall {word : Text} (h : ∀ c ∈ word, isWhitespace c = false) :
    splitWhitespace word = [word].filter fun word => ¬ word.isEmpty := by
  unfold splitWhitespace
  rw [List.splitOnP_eq_singleton h]

/-- A text without whitespace is one word. -/
theorem splitWhitespace_eq_singleton {word : Text} (hne : word ≠ [])
    (h : ∀ c ∈ word, isWhitespace c = false) : splitWhitespace word = [word] := by
  rw [splitWhitespace_of_forall h]
  simpa using hne

/-- The words of texts that are joined with spaces: those that are not empty. -/
theorem splitWhitespace_intercalate {words : List Text}
    (h : ∀ word ∈ words, ∀ c ∈ word, isWhitespace c = false) :
    splitWhitespace ([' '].intercalate words) = words.filter fun word => ¬ word.isEmpty := by
  induction words with
  | nil => rfl
  | cons word words ih =>
    obtain ⟨hword, hwords⟩ := List.forall_mem_cons.mp h
    have hfirst := splitWhitespace_of_forall hword
    cases words with
    | nil => rw [List.intercalate_singleton, hfirst]
    | cons next words =>
      rw [List.intercalate_cons_cons, List.append_assoc, List.singleton_append,
        splitWhitespace_append (by decide), hfirst, ih hwords, ← List.filter_append,
        List.singleton_append]

/-! ## Reading back -/

/-- A digit has a value. -/
theorem digitValue_of_isDigit {c : Char} (h : c.isDigit = true) :
    digitValue c = some (c.toNat - '0'.toNat) := by
  have hle : '0' ≤ c ∧ c ≤ '9' := by simpa [Char.isDigit, Char.le_def] using h
  exact if_pos hle

/-- Digits are read as the number that they spell, if it is in the range. -/
theorem digitsValue_of_isDigit {max acc : ℕ} {cs : Text} (h : ∀ c ∈ cs, c.isDigit = true)
    (hmax : Nat.ofDigitChars 10 cs acc ≤ max) :
    digitsValue max acc cs = some (Nat.ofDigitChars 10 cs acc) := by
  induction cs generalizing acc with
  | nil => rfl
  | cons c cs ih =>
    rw [Nat.ofDigitChars_cons, Nat.mul_comm] at hmax ⊢
    -- What has been read so far is a part of the whole number, and does not exceed it.
    have hle : acc * 10 + (c.toNat - '0'.toNat) ≤ max := by
      refine Nat.le_trans ?_ hmax
      rw [Nat.ofDigitChars_eq_ofDigitChars_zero]
      exact Nat.le_trans (Nat.le_mul_of_pos_left _ (Nat.pow_pos (by decide))) (Nat.le_add_right ..)
    rw [digitsValue, digitValue_of_isDigit (h c List.mem_cons_self)]
    simp only [hle, if_true]
    exact ih (fun d hd => h d (List.mem_cons_of_mem c hd)) hmax

/-- Only a digit has a value. -/
theorem digitValue_eq_some {c : Char} {d : ℕ} (h : digitValue c = some d) :
    c.isDigit = true ∧ d = c.toNat - '0'.toNat := by
  unfold digitValue at h
  split at h
  · next hle =>
    refine ⟨?_, (Option.some.inj h).symm⟩
    simpa [Char.isDigit, Char.le_def] using hle
  · cases h

/-- What is read as a number consists of digits, spells the number, and does not exceed the
maximum. -/
theorem digitsValue_eq_some {max acc n : ℕ} {cs : Text} (hacc : acc ≤ max)
    (h : digitsValue max acc cs = some n) :
    (∀ c ∈ cs, c.isDigit = true) ∧ Nat.ofDigitChars 10 cs acc = n ∧ n ≤ max := by
  induction cs generalizing acc with
  | nil =>
    obtain rfl := Option.some.inj h
    exact ⟨by simp, rfl, hacc⟩
  | cons c cs ih =>
    unfold digitsValue at h
    cases hc : digitValue c with
    | none => simp [hc] at h
    | some d =>
      simp only [hc] at h
      split at h
      · next hle =>
        obtain ⟨hdigit, hd⟩ := digitValue_eq_some hc
        obtain ⟨hdigits, hvalue, hmax⟩ := ih hle h
        refine ⟨?_, ?_, hmax⟩
        · intro e he
          rcases List.mem_cons.mp he with rfl | he
          · exact hdigit
          · exact hdigits e he
        · rw [Nat.ofDigitChars_cons, Nat.mul_comm, ← hd]
          exact hvalue
      · cases h

/-- Digits spell a number with as many digits at most. -/
theorem ofDigitChars_lt {acc : ℕ} {cs : Text} (h : ∀ c ∈ cs, c.isDigit = true) :
    Nat.ofDigitChars 10 cs acc < (acc + 1) * 10 ^ cs.length := by
  induction cs generalizing acc with
  | nil => simp
  | cons c cs ih =>
    have hd : c.toNat - '0'.toNat ≤ 9 := by
      have hdigit := h c List.mem_cons_self
      have hle : c.toNat ≤ 57 := by
        simp only [Char.isDigit, Bool.and_eq_true, decide_eq_true_eq] at hdigit
        exact hdigit.2
      have hzero : '0'.toNat = 48 := rfl
      omega
    rw [Nat.ofDigitChars_cons, List.length_cons]
    calc Nat.ofDigitChars 10 cs (10 * acc + (c.toNat - '0'.toNat))
        < (10 * acc + (c.toNat - '0'.toNat) + 1) * 10 ^ cs.length :=
          ih fun d hd => h d (List.mem_cons_of_mem c hd)
      _ ≤ (10 * acc + 10) * 10 ^ cs.length := Nat.mul_le_mul_right _ (by omega)
      _ = (acc + 1) * 10 ^ (cs.length + 1) := by
          have hten : 10 * acc + 10 = (acc + 1) * 10 := by omega
          rw [hten, Nat.pow_succ, Nat.mul_comm (10 ^ cs.length), Nat.mul_assoc]

/-- What the parser of unsigned integers accepts: digits that spell a number in the range, and a
plus sign before them or none. -/
theorem parseUnsigned_eq_some_iff {max n : ℕ} {cs : Text} :
    parseUnsigned max cs = some n ↔ n ≤ max ∧ ∃ digits, digits ≠ [] ∧
      (cs = digits ∨ cs = '+' :: digits) ∧ (∀ c ∈ digits, c.isDigit = true) ∧
        Nat.ofDigitChars 10 digits 0 = n := by
  constructor
  · intro h
    unfold parseUnsigned at h
    split at h
    · cases h
    · cases h
    · next cs hne =>
      obtain ⟨hdigits, hvalue, hmax⟩ := digitsValue_eq_some (Nat.zero_le max) h
      exact ⟨hmax, cs, by simpa using hne, .inr rfl, hdigits, hvalue⟩
    · next hne _ _ =>
      obtain ⟨hdigits, hvalue, hmax⟩ := digitsValue_eq_some (Nat.zero_le max) h
      exact ⟨hmax, _, hne, .inl rfl, hdigits, hvalue⟩
  · rintro ⟨hmax, digits, hne, hcs, hdigits, rfl⟩
    have hread : digitsValue max 0 digits = some _ := digitsValue_of_isDigit hdigits hmax
    rcases hcs with rfl | rfl
    · cases cs with
      | nil => exact absurd rfl hne
      | cons c cs =>
        -- The first character is a digit, so that no sign is skipped.
        have hplus : c ≠ '+' := by
          rintro rfl
          simpa using hdigits '+' List.mem_cons_self
        unfold parseUnsigned
        split <;> simp_all
    · unfold parseUnsigned
      split <;> simp_all

/-- The characters of a decimal number are digits. -/
theorem isDigit_of_mem_decimal {n : ℕ} {c : Char} (h : c ∈ decimal n) : c.isDigit = true :=
  Nat.isDigit_of_mem_toDigits (by decide) (by decide) h

/-- Only digits are in a decimal number. -/
theorem notMem_decimal {c : Char} (h : c.isDigit = false) (n : ℕ) : c ∉ decimal n := by
  intro hmem
  rw [isDigit_of_mem_decimal hmem] at h
  cases h

/-- A digit is not whitespace. -/
theorem isWhitespace_of_isDigit {c : Char} (h : c.isDigit = true) : isWhitespace c = false := by
  simp only [Char.isDigit, Bool.and_eq_true, decide_eq_true_eq] at h
  have hle : 48 ≤ c.toNat ∧ c.toNat ≤ 57 := ⟨h.1, h.2⟩
  simp only [isWhitespace, decide_eq_false_iff_not]
  omega

/-- A decimal number has a digit. -/
theorem decimal_ne_nil (n : ℕ) : decimal n ≠ [] := Nat.toDigits_ne_nil

/-- The characters of a zero-padded number are digits. -/
theorem isDigit_of_mem_zeroPadded {width n : ℕ} {c : Char} (h : c ∈ zeroPadded width n) :
    c.isDigit = true := by
  rcases List.mem_append.mp h with h | h
  · rw [List.eq_of_mem_replicate h]
    rfl
  · exact isDigit_of_mem_decimal h

/-- A number that fits is padded to the width. -/
theorem length_zeroPadded {width n : ℕ} (hwidth : 0 < width) (hn : n < 10 ^ width) :
    (zeroPadded width n).length = width := by
  have hlen : (decimal n).length ≤ width := (Nat.length_toDigits_le_iff (by decide) hwidth).mpr hn
  rw [zeroPadded, List.length_append, List.length_replicate]
  omega

/-- A zero-padded number in the range is read back. -/
theorem parseUnsigned_zeroPadded {max width n : ℕ} (h : n ≤ max) :
    parseUnsigned max (zeroPadded width n) = some n := by
  refine parseUnsigned_eq_some_iff.mpr ⟨h, zeroPadded width n, ?_, .inl rfl,
    fun _ => isDigit_of_mem_zeroPadded, ?_⟩
  · simp [zeroPadded, decimal]
  · rw [zeroPadded, Nat.ofDigitChars_append, Nat.ofDigitChars_replicate_zero, decimal, Nat.mul_zero,
      Nat.ofDigitChars_ten_toDigits]

/-- Zero-padded numbers of one width are different if the numbers are, also where they are longer
than the width. -/
theorem zeroPadded_inj {width n n' : ℕ} (h : zeroPadded width n = zeroPadded width n') :
    n = n' := by
  have hread : parseUnsigned (max n n') (zeroPadded width n) = some n :=
    parseUnsigned_zeroPadded (Nat.le_max_left n n')
  have hread' : parseUnsigned (max n n') (zeroPadded width n') = some n' :=
    parseUnsigned_zeroPadded (Nat.le_max_right n n')
  rw [h, hread'] at hread
  exact (Option.some.inj hread).symm

/-- A decimal number is read back. -/
theorem parseUnsigned_decimal {max n : ℕ} (h : n ≤ max) :
    parseUnsigned max (decimal n) = some n := by
  have hpadded : zeroPadded 0 n = decimal n := by simp [zeroPadded]
  rw [← hpadded]
  exact parseUnsigned_zeroPadded h

end Text
