import Torlane.Torc.Settings

/-!
# Raw options

Tor reads a torrc text in entries: a line that ends in a backslash goes on with the next line. The
check of a raw option in `TorOption::new` of `src/tor/torc/option.rs` is compared with this reading
of the text that `render_config` of `src/tor/torc/render.rs` writes. `separate_iff` says which raw
options disturb the others.
-/

namespace Torlane

open Text

/-! ## Entries -/

/-- A line goes on with the next one. -/
def isContinued (line : Text) : Bool := line.getLast? = some '\\'

/-- The entries of lines, behind an entry that goes on or at the start of one. Blank lines and
comments are skipped where an entry can start. -/
def readEntries : Option Text → List Text → List Text
  | none, [] => []
  | some entry, [] => [entry]
  | none, line :: lines =>
    if ¬ isOptionLine line then readEntries none lines
    else if isContinued line then readEntries (some line.dropLast) lines
    else line :: readEntries none lines
  | some entry, line :: lines =>
    if isContinued line then readEntries (some (entry ++ line.dropLast)) lines
    else (entry ++ line) :: readEntries none lines

/-- The entries of a text. -/
def entries (text : Text) : List Text := readEntries none (text.splitOn '\n')

/-- The line of a raw option. -/
def TorOption.line (option : TorOption) : Text := option.key ++ ' ' :: option.value

/-- A raw option whose line is a comment. -/
def TorOption.isComment (option : TorOption) : Bool := option.key.head? = some '#'

/-- Each raw option adds its own line to the entries, or nothing, and leaves the others as they are
without it. -/
def Separate (config : TorConfig) : Prop :=
  ∀ pre option post, config.rawOptions = pre ++ option :: post → ∃ before added after,
    entries config.render = before ++ added ++ after ∧
      entries { config with rawOptions := pre ++ post }.render = before ++ after ∧
        (added = [] ∨ added = [option.line])

/-- Lines that do not go on are entries of their own. -/
theorem readEntries_append {lines : List Text}
    (h : ∀ line ∈ lines, isOptionLine line → ¬ isContinued line) (rest : List Text) :
    readEntries none (lines ++ rest) = lines.filter isOptionLine ++ readEntries none rest := by
  induction lines with
  | nil => rfl
  | cons line lines ih =>
    obtain ⟨hline, hlines⟩ := List.forall_mem_cons.mp h
    rw [List.cons_append, readEntries, ih hlines]
    by_cases hoption : isOptionLine line
    · rw [if_neg (not_not_intro hoption), if_neg (hline hoption), List.filter_cons_of_pos hoption]
      rfl
    · rw [if_pos hoption, List.filter_cons_of_neg hoption]

/-- What an entry that goes on takes from the lines behind it, and what is left of them: all other
entries, where the first one may have been longer than what was taken from it. -/
theorem readEntries_some {lines : List Text} (h : ∀ line ∈ lines, line = [] ∨ ' ' ∈ line) :
    ∃ taken rest, (∀ entry, readEntries (some entry) lines = (entry ++ taken) :: rest) ∧
      (readEntries none lines = rest ∨
        ∃ first, readEntries none lines = first :: rest ∧ first.length ≤ taken.length) ∧
      (taken = [] ∨ ' ' ∈ taken) := by
  induction lines with
  | nil => exact ⟨[], [], fun entry => by simp [readEntries], .inl rfl, .inl rfl⟩
  | cons line lines ih =>
    obtain ⟨hline, hlines⟩ := List.forall_mem_cons.mp h
    obtain ⟨taken, rest, hsome, hnone, hspace⟩ := ih hlines
    by_cases hcontinued : isContinued line
    · -- The line without its backslash, and what is taken behind it.
      obtain ⟨start, rfl⟩ := List.getLast?_eq_some_iff.mp (of_decide_eq_true hcontinued)
      have hstart : ' ' ∈ start := by
        rcases hline with h | h
        · simp at h
        · simpa using h
      refine ⟨start ++ taken, rest, fun entry => ?_, ?_, .inr (List.mem_append_left _ hstart)⟩
      · rw [readEntries, if_pos hcontinued, List.dropLast_concat, hsome, List.append_assoc]
      · rw [readEntries, if_pos hcontinued, List.dropLast_concat, hsome]
        split_ifs
        · exact .inr ⟨start ++ taken, rfl, le_refl _⟩
        · rcases hnone with h | ⟨first, h, hle⟩
          · exact .inl h
          · refine .inr ⟨first, h, ?_⟩
            rw [List.length_append]
            omega
    · -- The entry ends with the line.
      refine ⟨line, readEntries none lines, fun entry => ?_, ?_, hline⟩
      · rw [readEntries, if_neg hcontinued]
      · rw [readEntries, if_neg hcontinued]
        split_ifs
        · exact .inr ⟨line, rfl, le_refl _⟩
        · exact .inl rfl

/-! ## The lines of a configuration -/

/-- A text without line breaks that does not end in a backslash. -/
def IsUnbroken (text : Text) : Prop := '\n' ∉ text ∧ text.getLast? ≠ some '\\'

/-- Texts that are put together have no line break and no backslash at the end. -/
theorem isUnbroken : IsValueProperty IsUnbroken where
  plain h := ⟨fun hmem => (h '\n' hmem).1 rfl,
    fun hlast => (h '\\' (List.mem_of_getLast? hlast)).2 rfl⟩
  append ha hb := by
    refine ⟨fun hmem => (List.mem_append.mp hmem).elim ha.1 hb.1, fun hlast => ?_⟩
    rw [List.getLast?_append, Option.or_eq_some_iff] at hlast
    exact hlast.elim hb.2 fun h => ha.2 h.2

/-- Lines, each with a line break. -/
def unlines (lines : List Text) : Text := lines.flatMap (· ++ ['\n'])

/-- The lines after a section has been added. -/
def addSection (out : List Text) (name : String) (lines : List Text) : List Text :=
  if lines = [] then out else (if out = [] then [] else out ++ [[]]) ++ [header name] ++ lines

/-- Lines are found again, and an empty one behind the last line break. -/
theorem splitOn_unlines {lines : List Text} (h : ∀ line ∈ lines, '\n' ∉ line) :
    (unlines lines).splitOn '\n' = lines ++ [[]] := by
  induction lines with
  | nil => rfl
  | cons line lines ih =>
    obtain ⟨hline, hlines⟩ := List.forall_mem_cons.mp h
    have htext : unlines (line :: lines) = line ++ '\n' :: unlines lines := by simp [unlines]
    rw [htext, splitOn_append_cons hline, ih hlines]
    rfl

/-- A section adds lines to a text. -/
theorem renderSection_unlines (out : List Text) (name : String) (lines : List Text) :
    renderSection (unlines out) name lines = unlines (addSection out name lines) := by
  have hheader : ("# *** " ++ name ++ " ***\n").toList = header name ++ ['\n'] := by
    simp [header, String.toList_append]
  have happend (lines lines' : List Text) : unlines (lines ++ lines') =
      unlines lines ++ unlines lines' := List.flatMap_append
  have hempty : unlines out = [] ↔ out = [] := by
    constructor
    · intro h
      cases out with
      | nil => rfl
      | cons line out => simp [unlines] at h
    · rintro rfl
      rfl
  have hsingle (line : Text) : unlines [line] = line ++ ['\n'] := List.flatMap_singleton ..
  unfold renderSection addSection
  simp only [hempty, hheader]
  split_ifs
  · rfl
  · rw [happend, happend, hsingle]
    rfl
  · rw [happend, happend, happend, hsingle, hsingle]
    rfl

/-- The lines of a rendered configuration. -/
theorem render_eq_unlines (config : TorConfig) : config.render =
    unlines ((sections config).foldl (fun out (name, lines) => addSection out name lines) []) := by
  have hfold (sections : List (String × List Text)) (out : List Text) :
      sections.foldl (fun out (name, lines) => renderSection out name lines) (unlines out) =
        unlines (sections.foldl (fun out (name, lines) => addSection out name lines) out) := by
    induction sections generalizing out with
    | nil => rfl
    | cons s sections ih =>
      obtain ⟨name, lines⟩ := s
      rw [List.foldl_cons, List.foldl_cons]
      dsimp only
      rw [renderSection_unlines, ih]
  exact hfold (sections config) []

/-- The lines of the sections that are not raw. -/
def settingLines (config : TorConfig) : List Text :=
  (sections config).dropLast.foldl (fun out (name, lines) => addSection out name lines) []

/-- A line of sections is blank, a name, or one of their lines. -/
theorem mem_foldl_addSection {sections : List (String × List Text)} {out : List Text} {line : Text}
    (h : line ∈ sections.foldl (fun out (name, lines) => addSection out name lines) out) :
    line ∈ out ∨ line = [] ∨ (∃ s ∈ sections, line = header s.1) ∨ ∃ s ∈ sections, line ∈ s.2 := by
  induction sections generalizing out with
  | nil => exact .inl h
  | cons s sections ih =>
    obtain ⟨name, lines⟩ := s
    have hadded : line ∈ addSection out name lines →
        line ∈ out ∨ line = [] ∨ line = header name ∨ line ∈ lines := by
      intro h
      unfold addSection at h
      split_ifs at h
      · exact .inl h
      · simpa [or_assoc] using Or.inr (Or.inr h)
      · simpa [or_assoc] using h
    rcases ih h with h | h | ⟨s, hs, h⟩ | ⟨s, hs, h⟩
    · rcases hadded h with h | h | h | h
      · exact .inl h
      · exact .inr (.inl h)
      · exact .inr (.inr (.inl ⟨_, List.mem_cons_self, h⟩))
      · exact .inr (.inr (.inr ⟨_, List.mem_cons_self, h⟩))
    · exact .inr (.inl h)
    · exact .inr (.inr (.inl ⟨s, List.mem_cons_of_mem _ hs, h⟩))
    · exact .inr (.inr (.inr ⟨s, List.mem_cons_of_mem _ hs, h⟩))

/-- The raw options stand behind the other lines, in a section of their own. -/
theorem render_eq (config : TorConfig) : config.render = unlines
    (addSection (settingLines config) "Raw" (config.rawOptions.map (·.line))) := by
  rw [render_eq_unlines, sections_eq_concat, List.foldl_append]
  rfl

/-- The lines that are not raw have no line break, and those that set an option do not go on. -/
theorem settingLines_unbroken {config : TorConfig} (h : ∀ text ∈ config.strings, IsUnbroken text) :
    ∀ line ∈ settingLines config, '\n' ∉ line ∧ ¬ isContinued line := by
  have hnames : ∀ s ∈ (sections config).dropLast,
      '\n' ∉ header s.1 ∧ ¬ isContinued (header s.1) := by
    simp only [sections, List.dropLast_cons_cons, List.dropLast_singleton, List.forall_mem_cons]
    decide
  intro line hline
  rcases mem_foldl_addSection hline with h | rfl | ⟨s, hs, rfl⟩ | ⟨s, hs, hmem⟩
  · cases h
  · decide
  · exact hnames s hs
  · have hlines : line ∈ earlierLines config ++ laterLines config := by
      rw [← flatMap_dropLast_sections]
      exact List.mem_flatMap.mpr ⟨s, hs, hmem⟩
    obtain ⟨hnewline, hlast⟩ :=
      (sets_lines isUnbroken h line hlines).value isUnbroken (List.Subset.refl _)
    exact ⟨hnewline, by simpa [isContinued] using hlast⟩

/-- The line of a raw option has no line break, goes on if its value does, and is skipped if it is a
comment. -/
theorem TorOption.line_spec (option : TorOption) : '\n' ∉ option.line ∧ ' ' ∈ option.line ∧
    isContinued option.line = isContinued option.value ∧
      isOptionLine option.line = !option.isComment := by
  obtain ⟨key, value, hkey, hvalue⟩ := option
  obtain ⟨hne, hkey⟩ : key ≠ [] ∧ ∀ c ∈ key, isWhitespace c = false := by
    simp only [validKey, not_or, decide_eq_true_eq, List.any_eq_true, not_exists, not_and] at hkey
    refine ⟨by simpa using hkey.1, fun c hc => ?_⟩
    have hchar := hkey.2 c hc
    simp at hchar
    exact hchar.1
  have hvalue : '\n' ∉ value := by
    intro hmem
    have hany : value.any corruptsLine = true := List.any_eq_true.mpr ⟨'\n', hmem, by decide⟩
    simp [validValue, hany] at hvalue
  unfold TorOption.line TorOption.isComment
  refine ⟨?_, List.mem_append_right _ List.mem_cons_self, ?_, ?_⟩
  · intro hmem
    rcases List.mem_append.mp hmem with h | h
    · exact absurd (hkey '\n' h) (by decide)
    · rcases List.mem_cons.mp h with h | h
      · exact absurd h (by decide)
      · exact hvalue h
  · unfold isContinued
    cases value with
    | nil => simp
    | cons c value => simp [List.getLast?_append]
  · cases key with
    | nil => exact absurd rfl hne
    | cons c key =>
      have hc := hkey c List.mem_cons_self
      unfold isOptionLine
      rw [List.cons_append, List.dropWhile_cons_of_neg (by simpa using hc)]
      simp

/-- The entries of a configuration: those of its settings, and those of its raw options. -/
theorem entries_render {config : TorConfig} (h : ∀ text ∈ config.strings, IsUnbroken text) :
    entries config.render = (settingLines config).filter isOptionLine ++
      readEntries none (config.rawOptions.map (·.line) ++ [[]]) := by
  have hsettings := settingLines_unbroken h
  have hraw : ∀ line ∈ config.rawOptions.map (·.line), '\n' ∉ line := by
    simp only [List.forall_mem_map]
    exact fun option _ => option.line_spec.1
  have hheader : '\n' ∉ header "Raw" ∧ ¬ isContinued (header "Raw") ∧
      isOptionLine (header "Raw") = false := by
    decide
  unfold entries
  rw [render_eq]
  unfold addSection
  split_ifs with hempty hout
  · have hnone : config.rawOptions.map (·.line) = [] := hempty
    rw [splitOn_unlines fun line hline => (hsettings line hline).1,
      readEntries_append fun line hline _ => (hsettings line hline).2, hnone]
    rfl
  · have hlines : ∀ line ∈ [header "Raw"] ++ config.rawOptions.map (·.line), '\n' ∉ line := by
      simp only [List.forall_mem_append, List.forall_mem_singleton]
      exact ⟨hheader.1, hraw⟩
    have hfirst : ∀ line ∈ [header "Raw"], isOptionLine line → ¬ isContinued line := by
      simp only [List.forall_mem_singleton]
      exact fun _ => hheader.2.1
    rw [hout, List.nil_append, splitOn_unlines hlines, List.append_assoc, readEntries_append hfirst,
      List.filter_singleton, hheader.2.2]
    rfl
  · have hlines : ∀ line ∈ settingLines config ++ [[]] ++ [header "Raw"] ++
        config.rawOptions.map (·.line), '\n' ∉ line := by
      simp only [List.forall_mem_append, List.forall_mem_singleton]
      exact ⟨⟨⟨fun line hline => (hsettings line hline).1, by simp⟩, hheader.1⟩, hraw⟩
    have hfirst : ∀ line ∈ settingLines config ++ [[]] ++ [header "Raw"],
        isOptionLine line → ¬ isContinued line := by
      simp only [List.forall_mem_append, List.forall_mem_singleton]
      exact ⟨⟨fun line hline _ => (hsettings line hline).2, fun _ => by decide⟩,
        fun _ => hheader.2.1⟩
    have hblank : isOptionLine [] = false := rfl
    rw [splitOn_unlines hlines, List.append_assoc, readEntries_append hfirst, List.filter_append,
      List.filter_append, List.filter_singleton, List.filter_singleton, hheader.2.2, hblank]
    simp

/-- Raw options that do not go on, and comments, have entries of their own. -/
theorem readEntries_rawOptions {options : List TorOption}
    (h : ∀ option ∈ options, option.isComment ∨ ¬ isContinued option.value) (rest : List Text) :
    readEntries none (options.map (·.line) ++ rest) =
      (options.map (·.line)).filter isOptionLine ++ readEntries none rest := by
  refine readEntries_append ?_ rest
  simp only [List.forall_mem_map]
  intro option hmem hline
  obtain ⟨-, -, hcontinued, hoption⟩ := option.line_spec
  rw [hcontinued]
  rw [hoption] at hline
  exact (h option hmem).resolve_left (by simpa using hline)

/-- What is inserted into a list, if it makes the list longer by one. -/
theorem eq_of_inserted {α : Type} [DecidableEq α] {start rest before added after : List α} {a b : α}
    (h : start ++ a :: rest = before ++ added ++ after) (h' : start ++ rest = before ++ after)
    (hadded : added = [] ∨ added = [b]) : a = b := by
  have hlength := congrArg List.length h
  have hlength' := congrArg List.length h'
  simp only [List.length_append, List.length_cons] at hlength hlength'
  rcases hadded with rfl | rfl
  · simp only [List.length_nil] at hlength
    omega
  · have hcount := congrArg (List.count a) h
    have hcount' := congrArg (List.count a) h'
    simp only [List.count_append, List.count_cons_self] at hcount hcount'
    refine Classical.byContradiction fun hne => ?_
    rw [List.count_singleton, if_neg (by simpa using Ne.symm hne)] at hcount
    omega

/-- The first option that goes on and is no comment. -/
theorem exists_continued {options : List TorOption}
    (h : ¬ ∀ option ∈ options, option.isComment ∨ ¬ isContinued option.value) :
    ∃ pre first post, options = pre ++ first :: post ∧
      (∀ option ∈ pre, option.isComment ∨ ¬ isContinued option.value) ∧
        first.isComment = false ∧ isContinued first.value = true := by
  have hgoes (option : TorOption) : (!option.isComment && isContinued option.value) = true ↔
      ¬ (option.isComment ∨ ¬ isContinued option.value) := by
    cases option.isComment <;> simp
  have hsome : (options.find? fun option =>
      !option.isComment && isContinued option.value).isSome := by
    by_contra hnone
    refine h fun option hmem => not_not.mp fun hbad => hnone ?_
    exact List.find?_isSome.mpr ⟨option, hmem, (hgoes option).mpr hbad⟩
  obtain ⟨first, hfirst⟩ := Option.isSome_iff_exists.mp hsome
  obtain ⟨hcontinued, pre, post, hoptions, hpre⟩ := List.find?_eq_some_iff_append.mp hfirst
  refine ⟨pre, first, post, hoptions, fun option hmem => ?_, by simpa using hcontinued⟩
  refine not_not.mp fun hbad => ?_
  have hplain := hpre option hmem
  rw [(hgoes option).mpr hbad] at hplain
  cases hplain

section Separate

variable {config : TorConfig} (h : ∀ text ∈ config.strings, IsUnbroken text)

include h

/-- The entries with other raw options. -/
theorem entries_withRaw (options : List TorOption) :
    entries { config with rawOptions := options }.render =
      (settingLines config).filter isOptionLine ++
        readEntries none (options.map (·.line) ++ [[]]) :=
  @entries_render { config with rawOptions := options } h

/-- The entries with an option that goes on and without it: its entry has lost a backslash, and may
have taken the place of the next one. -/
theorem entries_continued {pre post : List TorOption} {first : TorOption}
    (hpre : ∀ option ∈ pre, option.isComment ∨ ¬ isContinued option.value)
    (hcomment : first.isComment = false) (hcontinued : isContinued first.value = true) :
    ∃ before start taken after, first.line = start ++ ['\\'] ∧ start ≠ [] ∧
      (taken = [] ∨ ' ' ∈ taken) ∧
      entries { config with rawOptions := pre ++ first :: post }.render =
        before ++ (start ++ taken) :: after ∧
      (entries { config with rawOptions := pre ++ post }.render = before ++ after ∨
        ∃ next, entries { config with rawOptions := pre ++ post }.render = before ++ next :: after ∧
          next.length ≤ taken.length) := by
  obtain ⟨-, hspace, hline, hoption⟩ := first.line_spec
  rw [hcontinued] at hline
  rw [hcomment] at hoption
  obtain ⟨start, hstart⟩ := List.getLast?_eq_some_iff.mp (of_decide_eq_true hline)
  have hne : ' ' ∈ start := by
    rw [hstart] at hspace
    simpa using hspace
  have hlines : ∀ line ∈ post.map (·.line) ++ [[]], line = [] ∨ ' ' ∈ line := by
    simp only [List.forall_mem_append, List.forall_mem_map, List.forall_mem_singleton]
    exact ⟨fun option _ => .inr option.line_spec.2.1, .inl trivial⟩
  obtain ⟨taken, after, hsome, hnone, htaken⟩ := readEntries_some hlines
  have hfirst : readEntries none (first.line :: (post.map (·.line) ++ [[]])) =
      (start ++ taken) :: after := by
    rw [readEntries, if_neg (by simp [hoption]), if_pos hline, hstart, List.dropLast_concat, hsome]
  refine ⟨(settingLines config).filter isOptionLine ++ (pre.map (·.line)).filter isOptionLine,
    start, taken, after, hstart, List.ne_nil_of_mem hne, htaken, ?_, ?_⟩
  · rw [entries_withRaw h, List.map_append, List.map_cons, List.append_assoc,
      readEntries_rawOptions hpre, List.cons_append, hfirst, ← List.append_assoc]
  · rw [entries_withRaw h, List.map_append, List.append_assoc, readEntries_rawOptions hpre,
      ← List.append_assoc]
    refine hnone.imp (fun heq => by rw [heq]) ?_
    rintro ⟨next, heq, hlength⟩
    exact ⟨next, by rw [heq], hlength⟩

/-- An option that goes on disturbs the entries. -/
theorem not_separate_of_continued {pre post : List TorOption} {first : TorOption}
    (hoptions : config.rawOptions = pre ++ first :: post)
    (hpre : ∀ option ∈ pre, option.isComment ∨ ¬ isContinued option.value)
    (hcomment : first.isComment = false) (hcontinued : isContinued first.value = true) :
    ¬ Separate config := by
  intro hseparate
  obtain ⟨before, start, taken, after, hstart, hne, htaken, hfull, hpart⟩ :=
    @entries_continued config h pre post first hpre hcomment hcontinued
  rw [← hoptions] at hfull
  obtain ⟨before', added, after', hwith, hwithout, hadded⟩ := hseparate pre first post hoptions
  have hwith' := hfull.symm.trans hwith
  rcases hpart with hpart | ⟨next, hpart, hlength⟩
  · -- The option's entry has lost its backslash.
    have hentry := eq_of_inserted hwith' (hpart.symm.trans hwithout) hadded
    rw [hstart] at hentry
    rw [List.append_cancel_left hentry] at htaken
    simp at htaken
  · -- The option's entry has taken the place of the next one.
    have hwithout' := hpart.symm.trans hwithout
    have hnothing : added = [] := by
      have hlong := congrArg List.length hwith'
      have hshort := congrArg List.length hwithout'
      rcases hadded with h | h
      · exact h
      · rw [h] at hlong
        simp only [List.length_append, List.length_cons, List.length_nil] at hlong hshort
        omega
    rw [hnothing, List.append_nil] at hwith'
    have hsame := List.append_cancel_left (hwith'.trans hwithout'.symm)
    have hentry := congrArg List.length (List.cons.inj hsame).1
    have hpos : 0 < start.length := List.length_pos_of_ne_nil hne
    rw [List.length_append] at hentry
    omega

/-- Options that do not go on, and comments, leave the entries as they are. -/
theorem separate_of_plain
    (hplain : ∀ option ∈ config.rawOptions, option.isComment ∨ ¬ isContinued option.value) :
    Separate config := by
  intro pre option post hoptions
  have hall (options : List TorOption) (hmem : ∀ o ∈ options, o ∈ config.rawOptions) :
      entries { config with rawOptions := options }.render =
        (settingLines config).filter isOptionLine ++
          (options.map (·.line)).filter isOptionLine := by
    rw [entries_withRaw h, readEntries_rawOptions fun o ho => hplain o (hmem o ho)]
    exact congrArg _ (List.append_nil _)
  have hfull : entries config.render = (settingLines config).filter isOptionLine ++
      (config.rawOptions.map (·.line)).filter isOptionLine :=
    hall config.rawOptions fun _ ho => ho
  have hpart := hall (pre ++ post) fun o ho => by
    rw [hoptions]
    simp only [List.mem_append, List.mem_cons] at ho ⊢
    tauto
  refine ⟨(settingLines config).filter isOptionLine ++ (pre.map (·.line)).filter isOptionLine,
    [option.line].filter isOptionLine, (post.map (·.line)).filter isOptionLine, ?_, ?_, ?_⟩
  · have hline : option.line :: post.map (·.line) = [option.line] ++ post.map (·.line) := rfl
    rw [hoptions, List.map_append, List.map_cons, hline, List.filter_append, List.filter_append,
      ← List.append_assoc, ← List.append_assoc] at hfull
    exact hfull
  · rw [hpart, List.map_append, List.filter_append, List.append_assoc]
  · rw [List.filter_singleton]
    cases isOptionLine option.line
    · exact .inl rfl
    · exact .inr rfl

end Separate

/-- The raw options disturb no other entry if and only if none of them goes on, except for
comments. -/
theorem separate_iff {config : TorConfig} (h : ∀ text ∈ config.strings, IsUnbroken text) :
    Separate config ↔
      ∀ option ∈ config.rawOptions, option.isComment ∨ ¬ isContinued option.value := by
  refine ⟨fun hseparate => ?_, separate_of_plain h⟩
  by_contra hbad
  obtain ⟨pre, first, post, hoptions, hpre, hcomment, hcontinued⟩ := exists_continued hbad
  exact not_separate_of_continued h hoptions hpre hcomment hcontinued hseparate

/-- A builder with raw options and no other setting than a SOCKS port. -/
def rawBuilder (options : List TorOption) : TorConfigBuilder :=
  { TorConfigBuilder.new "/tmp/tor/data".toList with
    socks := .isolatedAuth (.num 20300)
    rawOptions := options }

/-- A raw option whose value ends in a backslash. -/
def continuedOption : TorOption := ⟨"ContactInfo".toList, "C:\\".toList, by decide, by decide⟩

/-- A raw option. -/
def plainOption : TorOption := ⟨"DormantTimeoutEnabled".toList, ['0'], by decide, by decide⟩

/-- Two options with plain values. -/
theorem separate_iff_plain : ∃ config, (rawBuilder [plainOption, plainOption]).build = .ok config ∧
    Separate config := by
  refine ⟨_, rfl, (separate_iff ?_).mpr ?_⟩
  · unfold IsUnbroken
    decide
  · decide

/-- An option that ends in a backslash swallows the next one. -/
theorem separate_continued : ∃ config,
    (rawBuilder [continuedOption, plainOption]).build = .ok config ∧
      (∀ text ∈ config.strings, IsUnbroken text) ∧ ¬ Separate config := by
  refine ⟨_, rfl, by unfold IsUnbroken; decide, fun h => ?_⟩
  obtain ⟨before, added, after, hwith, hwithout, hadded⟩ := h [] continuedOption [plainOption] rfl
  have hnothing : added = [] := by
    have hlength := congrArg List.length hwith
    have hlength' := congrArg List.length hwithout
    change 3 = _ at hlength
    change 3 = _ at hlength'
    rcases hadded with h | h
    · exact h
    · rw [h] at hlength
      simp only [List.length_append, List.length_cons, List.length_nil] at hlength hlength'
      omega
  rw [hnothing, List.append_nil, ← hwithout] at hwith
  exact absurd hwith (by decide)

end Torlane
