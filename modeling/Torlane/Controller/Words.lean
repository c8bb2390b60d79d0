import Torlane.Controller.Codec

/-!
# Control words

`control_words` and `field` of `src/tor/controller/client.rs`, and texts that they are read from. A
word is written bare, or in quotes with a backslash before every quote and every backslash, or in
such parts one after the other. `Adds` says of a text that it is a part of a word, whatever stands
before and behind it, and `controlWords_layout` reads the words back from a text that has them with
whitespace between them. `controlWords_spacedFields` is the case of words that are keys with values,
where `field` looks a name up among the keys.
-/

namespace Torlane

open Text

/-- The word that ends here, unless it is empty. -/
def flushed (current : Text) : List Text := if current = [] then [] else [current]

/-- The loop of `control_words`, inside of quotes or outside, with the current word. -/
def splitWords (quoted : Bool) (current : Text) : Text → List Text
  | [] => flushed current
  | c :: cs =>
    if c = '"' then splitWords (!quoted) current cs
    else if c = '\\' ∧ quoted = true then
      -- A backslash in quotes takes the next character as it is, if there is one.
      match cs with
      | [] => flushed current
      | escaped :: cs => splitWords quoted (current ++ [escaped]) cs
    else if isWhitespace c = true ∧ quoted = false then flushed current ++ splitWords quoted [] cs
    else splitWords quoted (current ++ [c]) cs

/-- `control_words`. -/
def controlWords (input : Text) : List Text := splitWords false [] input.trim

/-- `field`: what stands behind the name and `=` in the first word that starts so. -/
def field (words : List Text) (name : Text) : Option Text :=
  words.findSome? fun word => (stripPrefix name word).bind (stripPrefix ['='])

/-! ## One character -/

/-- A quote starts or ends quotes. -/
theorem splitWords_quote (quoted : Bool) (current cs : Text) :
    splitWords quoted current ('"' :: cs) = splitWords (!quoted) current cs := by
  rw [splitWords.eq_def]
  rfl

/-- In quotes, a character behind a backslash belongs to the word. -/
theorem splitWords_escaped (current : Text) (c : Char) (cs : Text) :
    splitWords true current ('\\' :: c :: cs) = splitWords true (current ++ [c]) cs := by
  rw [splitWords.eq_def]
  rfl

/-- Outside of quotes, whitespace ends the word. -/
theorem splitWords_space {c : Char} (hspace : isWhitespace c = true) (current cs : Text) :
    splitWords false current (c :: cs) = flushed current ++ splitWords false [] cs := by
  have hquote : c ≠ '"' := by
    rintro rfl
    revert hspace
    decide
  rw [splitWords.eq_def]
  simp [hquote, hspace]

/-- Every other character belongs to the word. -/
theorem splitWords_push {quoted : Bool} {c : Char} (hquote : c ≠ '"')
    (hescape : quoted = true → c ≠ '\\') (hspace : quoted = false → isWhitespace c = false)
    (current cs : Text) :
    splitWords quoted current (c :: cs) = splitWords quoted (current ++ [c]) cs := by
  rw [splitWords.eq_def]
  cases quoted with
  | true => simp [hquote, hescape rfl]
  | false => simp [hquote, hspace rfl]

/-! ## Parts of words -/

/-- Outside of quotes, the text adds a part to the current word. -/
def Adds (text part : Text) : Prop :=
  ∀ current rest, splitWords false current (text ++ rest) = splitWords false (current ++ part) rest

/-- One part after the other. -/
theorem Adds.append {text text' part part' : Text} (h : Adds text part) (h' : Adds text' part') :
    Adds (text ++ text') (part ++ part') := by
  intro current rest
  rw [List.append_assoc, h, h', List.append_assoc]

/-- No character of the text ends a word or starts quotes. -/
def IsBare (text : Text) : Prop := ∀ c ∈ text, isWhitespace c = false ∧ c ≠ '"'

instance (text : Text) : Decidable (IsBare text) :=
  List.decidableBAll (fun c => isWhitespace c = false ∧ c ≠ '"') text

/-- Bare texts one after the other are bare. -/
theorem IsBare.append {text text' : Text} (h : IsBare text) (h' : IsBare text') :
    IsBare (text ++ text') := by
  intro c hmem
  rcases List.mem_append.mp hmem with hmem | hmem
  · exact h c hmem
  · exact h' c hmem

/-- A bare text is a part of a word as it is. -/
theorem adds_bare {text : Text} (h : IsBare text) : Adds text text := by
  induction text with
  | nil =>
    intro current rest
    rw [List.nil_append, List.append_nil]
  | cons c cs ih =>
    intro current rest
    obtain ⟨hspace, hquote⟩ := h c List.mem_cons_self
    have hrest : IsBare cs := fun d hd => h d (List.mem_cons_of_mem c hd)
    rw [List.cons_append, splitWords_push hquote (by simp) (fun _ => hspace), ih hrest,
      List.append_assoc, List.singleton_append]

/-- A backslash before every quote and every backslash. -/
def escape (text : Text) : Text :=
  text.flatMap fun c => if c = '"' ∨ c = '\\' then ['\\', c] else [c]

/-- A text in quotes. -/
def quote (text : Text) : Text := '"' :: escape text ++ ['"']

/-- In quotes, an escaped text is a part of a word, whatever its characters are. -/
theorem splitWords_escape (text current rest : Text) :
    splitWords true current (escape text ++ rest) = splitWords true (current ++ text) rest := by
  induction text generalizing current with
  | nil => rw [List.append_nil]; rfl
  | cons c cs ih =>
    have hcons : escape (c :: cs) ++ rest =
        (if c = '"' ∨ c = '\\' then ['\\', c] else [c]) ++ (escape cs ++ rest) := by
      simp [escape]
    have hpush : splitWords true current (escape (c :: cs) ++ rest) =
        splitWords true (current ++ [c]) (escape cs ++ rest) := by
      rw [hcons]
      split_ifs with hc
      · exact splitWords_escaped current c (escape cs ++ rest)
      · rw [not_or] at hc
        exact splitWords_push hc.1 (fun _ => hc.2) (by simp) current (escape cs ++ rest)
    rw [hpush, ih, List.append_assoc, List.singleton_append]

/-- A text in quotes is a part of a word, whatever its characters are. -/
theorem adds_quote (text : Text) : Adds (quote text) text := by
  intro current rest
  have hopen : splitWords false current (quote text ++ rest) =
      splitWords true current (escape text ++ '"' :: rest) := by
    show splitWords false current ('"' :: (escape text ++ ['"'] ++ rest)) = _
    rw [List.append_assoc, List.singleton_append, splitWords_quote]
    rfl
  rw [hopen, splitWords_escape, splitWords_quote]
  rfl

/-! ## Words -/

/-- A space is whitespace. -/
theorem isWhitespace_space : ∀ c ∈ [' '], isWhitespace c = true :=
  List.forall_mem_singleton.mpr (by decide)

/-- A word with the whitespace before it, as it is written and as it is read. -/
structure Word where
  gap : Text
  text : Text
  word : Text

/-- The text is one word, and does not end in whitespace. -/
structure Word.WellFormed (w : Word) : Prop where
  gap : ∀ c ∈ w.gap, isWhitespace c = true
  adds : Adds w.text w.word
  word : w.word ≠ []
  last : ∃ pre c, w.text = pre ++ [c] ∧ isWhitespace c = false

/-- A bare text is a word. -/
theorem Word.wellFormed_bare {gap text : Text} (hgap : ∀ c ∈ gap, isWhitespace c = true)
    (hne : text ≠ []) (hbare : IsBare text) : Word.WellFormed ⟨gap, text, text⟩ := by
  refine ⟨hgap, adds_bare hbare, hne, ?_⟩
  have hlast := hbare _ (List.getLast_mem hne)
  exact ⟨text.dropLast, text.getLast hne, (List.dropLast_append_getLast hne).symm, hlast.1⟩

/-- Words one after the other. -/
def layout (words : List Word) : Text := words.flatMap fun w => w.gap ++ w.text

/-- The first word, and the words behind it. -/
theorem layout_cons (w : Word) (words : List Word) :
    layout (w :: words) = w.gap ++ (w.text ++ layout words) := by
  simp [layout]

/-- The last word ends in a character other than whitespace. -/
theorem exists_last_layout {w : Word} {words : List Word}
    (hwords : ∀ w' ∈ w :: words, w'.WellFormed) :
    ∃ pre c, layout (w :: words) = pre ++ [c] ∧ isWhitespace c = false := by
  induction words generalizing w with
  | nil =>
    obtain ⟨pre, c, htext, hc⟩ := (hwords w List.mem_cons_self).last
    exact ⟨w.gap ++ pre, c, by simp [layout, htext], hc⟩
  | cons w' words ih =>
    obtain ⟨pre, c, htext, hc⟩ := ih fun v hv => hwords v (List.mem_cons_of_mem w hv)
    exact ⟨w.gap ++ (w.text ++ pre), c, by simp [layout_cons w, htext], hc⟩

/-- Whitespace ends the current word. -/
theorem splitWords_gap {gap : Text} (hgap : ∀ c ∈ gap, isWhitespace c = true) {current : Text}
    (hne : current = [] ∨ gap ≠ []) (rest : Text) :
    splitWords false current (gap ++ rest) = flushed current ++ splitWords false [] rest := by
  induction gap generalizing current with
  | nil =>
    obtain rfl : current = [] := by simpa using hne
    rfl
  | cons c cs ih =>
    have hrest := ih (fun d hd => hgap d (List.mem_cons_of_mem c hd)) (.inl rfl)
    rw [List.cons_append, splitWords_space (hgap c List.mem_cons_self), hrest]
    rfl

/-- The loop reads the words, after the current word. -/
theorem splitWords_layout {words : List Word} (hwords : ∀ w ∈ words, w.WellFormed) {current : Text}
    (hgaps : ∀ w ∈ words, w.gap ≠ []) :
    splitWords false current (layout words) = flushed current ++ words.map (·.word) := by
  induction words generalizing current with
  | nil => exact (List.append_nil _).symm
  | cons w words ih =>
    have hw := hwords w List.mem_cons_self
    have hflush : flushed w.word = [w.word] := if_neg hw.word
    rw [layout_cons, splitWords_gap hw.gap (.inr (hgaps w List.mem_cons_self)), hw.adds,
      List.nil_append,
      ih (fun w' h => hwords w' (List.mem_cons_of_mem w h))
        (fun w' h => hgaps w' (List.mem_cons_of_mem w h)), hflush]
    rfl

/-- Trimming the start changes nothing. -/
theorem splitWords_dropWhile (text : Text) :
    splitWords false [] (text.dropWhile isWhitespace) = splitWords false [] text := by
  have hsplit : text.takeWhile isWhitespace ++ text.dropWhile isWhitespace = text :=
    List.takeWhile_append_dropWhile
  have hspace : ∀ c ∈ text.takeWhile isWhitespace, isWhitespace c = true :=
    fun c hc => List.mem_takeWhile_imp hc
  calc splitWords false [] (text.dropWhile isWhitespace)
      = splitWords false [] (text.takeWhile isWhitespace ++ text.dropWhile isWhitespace) :=
        (splitWords_gap hspace (.inl rfl) _).symm
    _ = splitWords false [] text := by rw [hsplit]

/-- The words are read back, if there is whitespace between them, with any whitespace around. -/
theorem controlWords_layout {words : List Word} (hwords : ∀ w ∈ words, w.WellFormed)
    (hgaps : ∀ w ∈ words.tail, w.gap ≠ []) {ending : Text}
    (hending : ∀ c ∈ ending, isWhitespace c = true) :
    controlWords (layout words ++ ending) = words.map (·.word) := by
  have htrim : ∀ hne : layout words ≠ [],
      isWhitespace ((layout words).getLast hne) = false := by
    cases words with
    | nil => exact fun hne => (hne rfl).elim
    | cons w words =>
      obtain ⟨pre, c, htext, hc⟩ := exists_last_layout hwords
      simp [htext, hc]
  have htrimmed : controlWords (layout words ++ ending) = splitWords false [] (layout words) := by
    unfold controlWords
    rw [trim_append htrim hending, splitWords_dropWhile]
  rw [htrimmed]
  cases words with
  | nil => rfl
  | cons w words =>
    have hw := hwords w List.mem_cons_self
    have hflush : flushed w.word = [w.word] := if_neg hw.word
    calc splitWords false [] (layout (w :: words))
        = splitWords false w.word (layout words) := by
          rw [layout_cons, splitWords_gap hw.gap (.inl rfl), hw.adds]
          rfl
      _ = (w :: words).map (·.word) := by
          rw [splitWords_layout (fun w' h => hwords w' (List.mem_cons_of_mem w h)) hgaps, hflush]
          rfl

/-- The words are read back, if there is one space before each but the first. -/
theorem controlWords_spaces {α : Type} {text word : α → Text} {first : Word}
    (hfirst : first.WellFormed) {xs : List α}
    (hxs : ∀ x ∈ xs, Word.WellFormed ⟨[' '], text x, word x⟩) :
    controlWords (first.gap ++ (first.text ++ xs.flatMap fun x => ' ' :: text x)) =
      first.word :: xs.map word := by
  have htext : first.gap ++ (first.text ++ xs.flatMap fun x => ' ' :: text x) =
      layout (first :: xs.map fun x => ⟨[' '], text x, word x⟩) ++ [] := by
    rw [List.append_nil, layout_cons, layout, List.flatMap_map]
    rfl
  have hwords : ∀ w ∈ first :: xs.map fun x => ⟨[' '], text x, word x⟩, w.WellFormed := by
    intro w hw
    rcases List.mem_cons.mp hw with rfl | hw
    · exact hfirst
    · obtain ⟨x, hx, rfl⟩ := List.mem_map.mp hw
      exact hxs x hx
  rw [htext, controlWords_layout hwords (by simp) (by simp), List.map_cons, List.map_map]
  rfl

/-! ## Keys with values -/

/-- A key and its value, which is written bare or in quotes. -/
structure Field where
  key : Text
  value : Text
  quoted : Bool

namespace Field

/-- The field as it is written. -/
def text (f : Field) : Text := f.key ++ '=' :: if f.quoted then quote f.value else f.value

/-- The word that it is read as. -/
def word (f : Field) : Text := f.key ++ '=' :: f.value

/-- The key is bare, and so is a value that is not in quotes. -/
structure WellFormed (f : Field) : Prop where
  key : IsBare f.key
  value : f.quoted = false → IsBare f.value

/-- A field with whitespace before it is a word. -/
theorem WellFormed.wellFormed {f : Field} (h : f.WellFormed) {gap : Text}
    (hgap : ∀ c ∈ gap, isWhitespace c = true) : Word.WellFormed ⟨gap, f.text, f.word⟩ := by
  have hequals : IsBare ['='] := by decide
  have hkey : IsBare (f.key ++ ['=']) := h.key.append hequals
  have hword : f.word = f.key ++ ['='] ++ f.value := by simp [word]
  cases hquoted : f.quoted with
  | false =>
    have htext : f.text = f.word := by simp [text, word, hquoted]
    rw [htext]
    refine Word.wellFormed_bare hgap (by simp [word]) ?_
    rw [hword]
    exact hkey.append (h.value hquoted)
  | true =>
    have htext : f.text = f.key ++ ['='] ++ quote f.value := by simp [text, hquoted]
    refine ⟨hgap, ?_, by simp [word], ?_⟩
    · show Adds f.text f.word
      rw [htext, hword]
      exact (adds_bare hkey).append (adds_quote f.value)
    · exact ⟨f.key ++ ['='] ++ '"' :: escape f.value, '"', by simp [htext, quote], by decide⟩

end Field

/-- The words of fields, each after one space. -/
theorem controlWords_fields {f : Field} {fields : List Field}
    (hfields : ∀ f' ∈ f :: fields, f'.WellFormed) :
    controlWords ((f :: fields).flatMap fun f => ' ' :: f.text) = (f :: fields).map (·.word) := by
  have hspaced : ∀ f' ∈ f :: fields, Word.WellFormed ⟨[' '], f'.text, f'.word⟩ :=
    fun f' hf => (hfields f' hf).wellFormed isWhitespace_space
  exact controlWords_spaces (hspaced f List.mem_cons_self)
    fun f' hf => hspaced f' (List.mem_cons_of_mem f hf)

/-- The words of a keyword with fields behind it, each after one space. -/
theorem controlWords_keyword {keyword : Text} (hne : keyword ≠ []) (hbare : IsBare keyword)
    {fields : List Field} (hfields : ∀ f ∈ fields, f.WellFormed) :
    controlWords (keyword ++ fields.flatMap fun f => ' ' :: f.text) =
      keyword :: fields.map (·.word) := by
  have hkeyword : Word.WellFormed ⟨[], keyword, keyword⟩ :=
    Word.wellFormed_bare (List.forall_mem_nil _) hne hbare
  exact controlWords_spaces hkeyword fun f hf => (hfields f hf).wellFormed isWhitespace_space

/-! ## Line breaks -/

/-- Lines one after the other have no line break. -/
theorem IsLine.append {text text' : Text} (h : IsLine text) (h' : IsLine text') :
    IsLine (text ++ text') := by
  intro c hmem
  rcases List.mem_append.mp hmem with hmem | hmem
  · exact h c hmem
  · exact h' c hmem

/-- A text without whitespace has no line break. -/
theorem isLine_of_isWhitespace {text : Text} (h : ∀ c ∈ text, isWhitespace c = false) :
    IsLine text := by
  intro c hmem
  have hspace := h c hmem
  have hend : c ≠ '\n' ∧ c ≠ '\r' := by
    constructor <;> rintro rfl <;> revert hspace <;> decide
  simpa [isLineEnd] using hend

/-- A bare text has no line break. -/
theorem IsBare.isLine {text : Text} (h : IsBare text) : IsLine text :=
  isLine_of_isWhitespace fun c hmem => (h c hmem).1

/-- A line in quotes has no line break. -/
theorem isLine_quote {text : Text} (h : IsLine text) : IsLine (quote text) := by
  have hescape : IsLine (escape text) := by
    intro c hmem
    obtain ⟨d, hd, hc⟩ := List.mem_flatMap.mp hmem
    have hcases : c = '\\' ∨ c = d := by
      split_ifs at hc
      · simpa using hc
      · exact .inr (by simpa using hc)
    rcases hcases with rfl | rfl
    · decide
    · exact h c hd
  have hquote : IsLine ['"'] := by decide
  exact hquote.append (hescape.append hquote)

/-! ## Fields -/

/-- What is left of a word without the name and `=`. -/
theorem stripPrefix_bind_eq_some_iff {name word value : Text} :
    (stripPrefix name word).bind (stripPrefix ['=']) = some value ↔
      word = name ++ '=' :: value := by
  constructor
  · intro h
    obtain ⟨rest, hrest, hvalue⟩ := Option.bind_eq_some_iff.mp h
    rw [eq_append_of_stripPrefix hrest, eq_append_of_stripPrefix hvalue]
    rfl
  · rintro rfl
    have hequals : stripPrefix ['='] ('=' :: value) = some value := stripPrefix_append ['='] value
    rw [stripPrefix_append, Option.bind_some, hequals]

/-- The word with the name is found. -/
theorem field_found (name value : Text) (words : List Text) :
    field ((name ++ '=' :: value) :: words) name = some value := by
  unfold field
  rw [List.findSome?_cons, stripPrefix_bind_eq_some_iff.mpr rfl]

/-- A word that does not start with the name and `=` is passed over. -/
theorem field_skip {name word : Text} (h : ¬ name ++ ['='] <+: word) (words : List Text) :
    field (word :: words) name = field words name := by
  have hnone : (stripPrefix name word).bind (stripPrefix ['=']) = none := by
    refine Option.eq_none_iff_forall_ne_some.mpr fun value hvalue => h ⟨value, ?_⟩
    rw [stripPrefix_bind_eq_some_iff.mp hvalue, List.append_assoc, List.singleton_append]
  unfold field
  rw [List.findSome?_cons, hnone]

/-- Where neither the key nor the name has an `=`, the word starts with the name and `=` only if the
name is the key. -/
theorem Field.key_eq {f : Field} {name : Text} (hkey : '=' ∉ f.key) (hname : '=' ∉ name)
    (h : name ++ ['='] <+: f.word) : f.key = name := by
  obtain ⟨rest, hrest⟩ := h
  rw [List.append_assoc, List.singleton_append] at hrest
  exact (append_cons_inj_of_notMem hname hkey hrest).1.symm

/-- A name is looked up among the keys: the first field with it has the value. -/
theorem field_words {fields : List Field} (hkeys : ∀ f ∈ fields, '=' ∉ f.key) {name : Text}
    (hname : '=' ∉ name) :
    field (fields.map (·.word)) name = (fields.find? (·.key = name)).map (·.value) := by
  induction fields with
  | nil => rfl
  | cons f fields ih =>
    rw [List.map_cons]
    by_cases hkey : f.key = name
    · rw [List.find?_cons_of_pos (by simpa using hkey), ← hkey]
      exact field_found f.key f.value _
    · rw [List.find?_cons_of_neg (by simpa using hkey),
        field_skip fun h => hkey (f.key_eq (hkeys f List.mem_cons_self) hname h)]
      exact ih fun f' hf => hkeys f' (List.mem_cons_of_mem f hf)

/-! ## Fields with whitespace between them -/

/-- A field with the whitespace before it. -/
structure SpacedField extends Field where
  gap : Text

/-- The gap is whitespace, and the key has no `=`. A key may be empty, and it may have backslashes:
outside of quotes, a backslash is a character like any other. -/
structure SpacedField.WellFormed (f : SpacedField) : Prop where
  gap : ∀ c ∈ f.gap, isWhitespace c = true
  field : f.toField.WellFormed
  equals : '=' ∉ f.key

/-- The fields as they are written, each after its whitespace. -/
def spacedText (fields : List SpacedField) : Text := fields.flatMap fun f => f.gap ++ f.text

/-- The words of the fields, if there is whitespace between them, with any whitespace around. -/
theorem controlWords_spacedText {fields : List SpacedField} (hfields : ∀ f ∈ fields, f.WellFormed)
    (hgaps : ∀ f ∈ fields.tail, f.gap ≠ []) {ending : Text}
    (hending : ∀ c ∈ ending, isWhitespace c = true) :
    controlWords (spacedText fields ++ ending) = fields.map (·.word) := by
  have htext : spacedText fields = layout (fields.map fun f => ⟨f.gap, f.text, f.word⟩) := by
    rw [layout, List.flatMap_map]
    rfl
  have hwords : ∀ w ∈ fields.map fun f => (⟨f.gap, f.text, f.word⟩ : Word), w.WellFormed := by
    intro w hw
    obtain ⟨f, hf, rfl⟩ := List.mem_map.mp hw
    exact (hfields f hf).field.wellFormed (hfields f hf).gap
  have hbetween : ∀ w ∈ (fields.map fun f => (⟨f.gap, f.text, f.word⟩ : Word)).tail,
      w.gap ≠ [] := by
    rw [← List.map_tail]
    intro w hw
    obtain ⟨f, hf, rfl⟩ := List.mem_map.mp hw
    exact hgaps f hf
  rw [htext, controlWords_layout hwords hbetween hending, List.map_map]
  rfl

/-- The fields are read back, if there is whitespace between them, with any whitespace around. Then
a name is looked up among the keys. -/
theorem controlWords_spacedFields {fields : List SpacedField} (hfields : ∀ f ∈ fields, f.WellFormed)
    (hgaps : ∀ f ∈ fields.tail, f.gap ≠ []) {ending : Text}
    (hending : ∀ c ∈ ending, isWhitespace c = true) :
    controlWords (spacedText fields ++ ending) = fields.map (·.word) ∧
      ∀ name, '=' ∉ name →
        field (controlWords (spacedText fields ++ ending)) name =
          (fields.find? (·.key = name)).map (·.value) := by
  have hwords := controlWords_spacedText hfields hgaps hending
  refine ⟨hwords, fun name hname => ?_⟩
  have hkeys : ∀ f ∈ fields.map (·.toField), '=' ∉ f.key := by
    intro f hf
    obtain ⟨f', hf', rfl⟩ := List.mem_map.mp hf
    exact (hfields f' hf').equals
  have hlookup := field_words hkeys hname
  rw [List.map_map, List.find?_map, Option.map_map] at hlookup
  rw [hwords]
  exact hlookup

/-- A key that begins with another one, and values with spaces, quotes and backslashes. -/
def escapedFields : List SpacedField :=
  [⟨⟨"AB".toList, "A=1".toList, true⟩, "  ".toList⟩,
    ⟨⟨"A".toList, "a \"b\" \\".toList, true⟩, " \t".toList⟩,
    ⟨⟨"A".toList, "C:\\x".toList, false⟩, " ".toList⟩]

/-- The values are read back, and the first one with the key is found. -/
theorem controlWords_spacedFields_escapedFields :
    controlWords "  AB=\"A=1\" \tA=\"a \\\"b\\\" \\\\\" A=C:\\x\n".toList =
        ["AB=A=1".toList, "A=a \"b\" \\".toList, "A=C:\\x".toList] ∧
      field (controlWords (spacedText escapedFields ++ ['\n'])) "A".toList =
        some "a \"b\" \\".toList ∧
      field (controlWords (spacedText escapedFields ++ ['\n'])) "B".toList = none := by
  have hspace {gap : Text} (h : gap.all isWhitespace = true) : ∀ c ∈ gap, isWhitespace c = true :=
    List.all_eq_true.mp h
  have hfields : ∀ f ∈ escapedFields, f.WellFormed :=
    List.forall_mem_cons.mpr ⟨⟨hspace (by decide), ⟨by decide, by decide⟩, by decide⟩,
      List.forall_mem_cons.mpr ⟨⟨hspace (by decide), ⟨by decide, by decide⟩, by decide⟩,
        List.forall_mem_singleton.mpr ⟨hspace (by decide), ⟨by decide, by decide⟩, by decide⟩⟩⟩
  have hgaps : ∀ f ∈ escapedFields.tail, f.gap ≠ [] := by decide
  have htext : spacedText escapedFields ++ ['\n'] =
      "  AB=\"A=1\" \tA=\"a \\\"b\\\" \\\\\" A=C:\\x\n".toList := by decide
  have hending : ∀ c ∈ ['\n'], isWhitespace c = true := hspace (by decide)
  obtain ⟨hwords, hfield⟩ := controlWords_spacedFields hfields hgaps hending
  rw [← htext]
  exact ⟨hwords, hfield "A".toList (by decide), hfield "B".toList (by decide)⟩

end Torlane
