import Mathlib.Data.List.Basic
import Torlane.Torc.Render

/-!
# The lines of a torrc text

A torrc text is read line by line. Blank lines and comments are dropped, and the first word of any
other line is the name of the option that it sets. `optionLines_render` says which lines a rendered
configuration has: those of its sections, each cut at the line breaks in it.
-/

namespace Torlane

open Text

/-- A line sets an option: it is not blank, and it is not a comment. -/
def isOptionLine (line : Text) : Bool :=
  match line.dropWhile isWhitespace with
  | [] => false
  | c :: _ => c ≠ '#'

/-- The option lines of a text. -/
def optionLines (text : Text) : List Text := (text.splitOn '\n').filter isOptionLine

/-- The first word of a line. -/
def keyword (line : Text) : Text :=
  (line.dropWhile isWhitespace).takeWhile fun c => ¬ isWhitespace c

/-- The option lines of a text with the given name. -/
def linesNamed (name : String) (text : Text) : List Text :=
  (optionLines text).filter (keyword · = name.toList)

/-- What comes after the first line break of a value, line by line. -/
def extraLines (value : Text) : List Text := (value.splitOn '\n').tail

/-- The lines of two texts with a line break between them. -/
theorem optionLines_append (a b : Text) :
    optionLines (a ++ '\n' :: b) = optionLines a ++ optionLines b := by
  rw [optionLines, List.splitOn_append_cons_self, List.filter_append, optionLines, optionLines]

@[simp] theorem optionLines_nil : optionLines [] = [] := rfl

/-- A line without a line break is one option line. -/
theorem optionLines_eq_singleton {line : Text} (h : '\n' ∉ line) (hline : isOptionLine line) :
    optionLines line = [line] := by
  rw [optionLines, List.splitOn_eq_singleton h, List.filter_singleton, hline, cond_true]

/-- The lines of several texts, each with a line break after it. -/
theorem optionLines_flatMap (lines : List Text) :
    optionLines (lines.flatMap (· ++ ['\n'])) = lines.flatMap optionLines := by
  induction lines with
  | nil => rfl
  | cons line lines ih =>
    rw [List.flatMap_cons, List.flatMap_cons, List.append_assoc, List.singleton_append,
      optionLines_append, ih]

/-! ## Rendering -/

/-- A section's first line. -/
def header (name : String) : Text := ("# *** " ++ name ++ " ***").toList

/-- The option lines of a section: those of its lines, its name being a comment. -/
theorem optionLines_renderSection {name : String} (hname : optionLines (header name) = [])
    (out : Text) (lines : List Text) :
    optionLines (renderSection out name lines) = optionLines out ++ lines.flatMap optionLines := by
  have hheader (rest : Text) :
      ("# *** " ++ name ++ " ***\n").toList ++ rest = header name ++ '\n' :: rest := by
    simp [header, String.toList_append]
  unfold renderSection
  -- A section without lines adds nothing, and only the first one has no empty line before it.
  split_ifs with hlines hout
  · simp [hlines]
  · rw [hout, List.nil_append, hheader, optionLines_append, hname, optionLines_flatMap]
    rfl
  · rw [List.append_assoc, hheader, List.append_assoc, List.singleton_append, optionLines_append,
      optionLines_append, hname, optionLines_flatMap, List.nil_append]

/-- The option lines of sections whose names are comments. -/
theorem optionLines_foldl_renderSection {sections : List (String × List Text)}
    (hnames : ∀ s ∈ sections, optionLines (header s.1) = []) (out : Text) :
    optionLines (sections.foldl (fun out (name, lines) => renderSection out name lines) out) =
      optionLines out ++ sections.flatMap fun s => s.2.flatMap optionLines := by
  induction sections generalizing out with
  | nil => simp
  | cons s sections ih =>
    rw [List.foldl_cons, ih (fun t ht => hnames t (List.mem_cons_of_mem s ht)),
      optionLines_renderSection (hnames s List.mem_cons_self), List.flatMap_cons, List.append_assoc]

/-- The option lines of a configuration are those of its sections' lines, in order. -/
theorem optionLines_render (config : TorConfig) :
    optionLines config.render = (sections config).flatMap fun s => s.2.flatMap optionLines := by
  have hnames : ∀ s ∈ sections config, optionLines (header s.1) = [] := by
    simp only [sections, List.forall_mem_cons]
    decide
  rw [TorConfig.render, optionLines_foldl_renderSection hnames, optionLines_nil, List.nil_append]

/-! ## Breaking a line -/

/-- A text without a line break has no further lines. -/
theorem extraLines_of_notMem {value : Text} (h : '\n' ∉ value) : extraLines value = [] := by
  rw [extraLines, List.splitOn_eq_singleton h, List.tail_cons]

/-- The further lines of a value do not depend on what is put before it on its first line. -/
theorem extraLines_append {start : Text} (h : '\n' ∉ start) (value : Text) :
    extraLines (start ++ value) = extraLines value := by
  rw [extraLines, splitOn_append_of_notMem h, extraLines, List.tail_modifyHead]

/-- A word: it is not empty, and has no whitespace. -/
def isWord (name : Text) : Bool := ¬ name.isEmpty ∧ name.all fun c => ¬ isWhitespace c

/-- A word has no line break in it. -/
theorem isWord.notMem_newline {name : Text} (h : isWord name) : '\n' ∉ name := by
  intro hmem
  obtain ⟨-, hspace⟩ := of_decide_eq_true h
  have hnewline := List.all_eq_true.mp hspace _ hmem
  exact absurd hnewline (by decide)

/-- The first word of an option's line is the option's name. -/
theorem keyword_append {name : Text} (h : isWord name) (value : Text) :
    keyword (name ++ ' ' :: value) = name := by
  obtain ⟨hne, hall⟩ := of_decide_eq_true h
  -- The line starts with the word, and the space after it ends the word.
  have hspace : ∀ c ∈ name, ¬ isWhitespace c := by simpa using hall
  cases name with
  | nil => exact absurd rfl hne
  | cons c name =>
    have hc := hspace c List.mem_cons_self
    rw [keyword, List.cons_append, List.dropWhile_cons_of_neg hc, ← List.cons_append,
      List.takeWhile_append_of_pos (by simpa using hspace)]
    simp [isWhitespace]

/-- A line whose first word is no comment sets an option. -/
theorem isOptionLine_of_keyword {line : Text} (hne : keyword line ≠ [])
    (hhead : (keyword line).head? ≠ some '#') : isOptionLine line := by
  unfold isOptionLine
  unfold keyword at hne hhead
  split
  · next hnil => simp [hnil] at hne
  · next c rest hcons =>
    rw [hcons] at hhead
    by_contra hc
    rw [decide_eq_true_eq, not_not] at hc
    rw [hc] at hhead
    exact hhead rfl

/-- A bridge's line has its parts after the name. -/
theorem renderBridge_eq (bridge : Bridge) :
    renderBridge bridge = optionLine "Bridge" ([' '].intercalate (bridgeParts bridge)) := by
  have hne : bridgeParts bridge ≠ [] := by simp [bridgeParts]
  obtain ⟨part, parts, hparts⟩ := List.exists_cons_of_ne_nil hne
  rw [renderBridge, hparts, List.intercalate_cons_cons]
  rfl

/-- The lines that are there. -/
theorem flatMap_present {β : Type} (f : Text → List β) (items : List (Option Text)) :
    (present items).flatMap f = items.flatMap fun item => item.toList.flatMap f := by
  induction items with
  | nil => rfl
  | cons item items ih =>
    rw [List.flatMap_cons, ← ih]
    cases item <;> simp [present]

end Torlane
