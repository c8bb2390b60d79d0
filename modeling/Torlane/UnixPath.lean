import Torlane.Text

/-!
# Paths

The paths of `std::path` on Unix, as texts: their components, the parent, the file name, and `join`.
Repeated separators and `.` mean nothing to the file system, so `location` says what a path names,
up to links and `..`. `location_parent` and `location_join` say that a parent has one component
less, and that a joined name is one more.
-/

namespace UnixPath

/-- One component of a path. -/
inductive Component where
  | rootDir
  | curDir
  | parentDir
  | normal (name : Text)
  deriving DecidableEq, Repr

/-- A part between two separators that adds nothing. -/
def isTrivial (part : Text) : Bool := part = [] ∨ part = ['.']

/-- The component of a part that is not the first one. -/
def ofPart (part : Text) : Option Component :=
  if isTrivial part then none
  else if part = ['.', '.'] then some .parentDir
  else some (.normal part)

/-- The components of the parts of a path. -/
def ofParts : List Text → List Component
  | [] => []
  | [[]] => []
  | [] :: rest => .rootDir :: rest.filterMap ofPart
  | ['.'] :: rest => .curDir :: rest.filterMap ofPart
  | first :: rest => (first :: rest).filterMap ofPart

/-- `Path::components`. -/
def components (path : Text) : List Component := ofParts (path.splitOn '/')

/-- `Path::file_name`. -/
def fileName (path : Text) : Option Text :=
  match (components path).getLast? with
  | some (.normal name) => some name
  | _ => none

/-- `Path::parent`: what is left without the last component. Only the root and the empty path have
no parent. -/
def parent (path : Text) : Option Text :=
  match path.splitOn '/' with
  | [] => none
  | first :: rest =>
    match rest.rdropWhile isTrivial with
    | [] => if first = [] then none else some []
    | part :: parts =>
      let kept := (part :: parts).dropLast.rdropWhile isTrivial
      -- The separator of the root stays.
      if first = [] ∧ kept = [] then some ['/'] else some (['/'].intercalate (first :: kept))

/-- `Path::join`. -/
def join (path name : Text) : Text :=
  if name.head? = some '/' then name
  else if path = [] ∨ path.getLast? = some '/' then path ++ name
  else path ++ '/' :: name

/-- What a path names: its components, without those that mean the place itself. -/
def location (path : Text) : List Component := (components path).filter (· ≠ .curDir)

/-- A name of a file: a single part that names no directory by itself. -/
def IsName (name : Text) : Prop := '/' ∉ name ∧ isTrivial name = false ∧ name ≠ ['.', '.']

/-- A part is the component itself. -/
theorem ofPart_name {name : Text} (h : IsName name) : ofPart name = some (.normal name) := by
  unfold ofPart
  rw [if_neg (by simp [h.2.1]), if_neg h.2.2]

/-- No part but the first one means the place itself. -/
theorem ofPart_ne_curDir {part : Text} {component : Component} (h : ofPart part = some component) :
    component ≠ .curDir := by
  unfold ofPart at h
  split_ifs at h <;> cases h <;> simp

/-- A part that is no name adds nothing to the location. -/
theorem ofPart_of_isTrivial {part : Text} (h : isTrivial part = true) : ofPart part = none :=
  if_pos h

/-- An empty part is no component. -/
theorem ofPart_nil : ofPart [] = none :=
  ofPart_of_isTrivial (by decide)

/-- Nor is a single dot. -/
theorem ofPart_dot : ofPart ['.'] = none :=
  ofPart_of_isTrivial (by decide)

/-- A part that adds nothing is the only one with no component. -/
theorem ofPart_isSome {part : Text} (h : isTrivial part = false) : (ofPart part).isSome := by
  unfold ofPart
  rw [if_neg (by simp [h])]
  split_ifs <;> rfl

/-- The location of the parts of a path: the first one may be the root. -/
theorem filter_ofParts {first : Text} {rest : List Text} (h : first ≠ [] ∨ rest ≠ []) :
    (ofParts (first :: rest)).filter (· ≠ .curDir) =
      (if first = [] then [.rootDir] else (ofPart first).toList) ++ rest.filterMap ofPart := by
  have hkeep (parts : List Text) : (parts.filterMap ofPart).filter (· ≠ .curDir) =
      parts.filterMap ofPart := by
    refine List.filter_eq_self.mpr fun component hmem => ?_
    obtain ⟨part, -, hpart⟩ := List.mem_filterMap.mp hmem
    simpa using ofPart_ne_curDir hpart
  rcases first with _ | ⟨c, first⟩
  · obtain ⟨part, rest, rfl⟩ := List.exists_cons_of_ne_nil (h.resolve_left (by simp))
    show (Component.rootDir :: _).filter _ = _
    rw [List.filter_cons_of_pos (by decide), hkeep]
    rfl
  · by_cases hdot : c :: first = ['.']
    · rw [hdot]
      show (Component.curDir :: _).filter _ = _
      rw [List.filter_cons_of_neg (by decide), hkeep]
      rfl
    · have hparts : ofParts ((c :: first) :: rest) = ((c :: first) :: rest).filterMap ofPart := by
        unfold ofParts
        split
        · simp_all
        · simp_all
        · simp_all
        · simp_all
        · next heq =>
          obtain ⟨rfl, rfl⟩ := List.cons.inj heq
          rfl
      rw [hparts, hkeep, if_neg (List.cons_ne_nil c first), List.filterMap_cons]
      cases ofPart (c :: first) <;> rfl

/-- Parts that add nothing may be left out at the end. -/
theorem filterMap_rdropWhile (parts : List Text) :
    (parts.rdropWhile isTrivial).filterMap ofPart = parts.filterMap ofPart := by
  have htake : (parts.rtakeWhile isTrivial).filterMap ofPart = [] :=
    List.filterMap_eq_nil_iff.mpr fun part hmem =>
      ofPart_of_isTrivial (List.mem_rtakeWhile_imp hmem)
  conv_rhs => rw [← List.rdropWhile_append_rtakeWhile (p := isTrivial) (l := parts)]
  rw [List.filterMap_append, htake, List.append_nil]

/-- The last part adds its component, if it has one. -/
theorem filterMap_concat (parts : List Text) (part : Text) :
    (parts ++ [part]).filterMap ofPart = parts.filterMap ofPart ++ (ofPart part).toList := by
  rw [List.filterMap_append]
  rfl

/-- A part has no separator. -/
theorem notMem_of_mem_splitOn {path part : Text} (h : part ∈ path.splitOn '/') : '/' ∉ part := by
  induction path generalizing part with
  | nil =>
    obtain rfl : part = [] := by simpa using h
    exact List.not_mem_nil
  | cons c path ih =>
    rw [List.splitOn_cons_eq_if_modifyHead] at h
    split_ifs at h with hc
    · rcases List.mem_cons.mp h with rfl | h
      · exact List.not_mem_nil
      · exact ih h
    · cases hsplit : path.splitOn '/' with
      | nil => exact absurd hsplit (List.splitOn_ne_nil _ _)
      | cons first rest =>
        rw [hsplit, List.modifyHead_cons] at h
        rcases List.mem_cons.mp h with rfl | h
        · have hfirst : '/' ∉ first := ih (by rw [hsplit]; exact List.mem_cons_self)
          refine fun hmem => (List.mem_cons.mp hmem).elim (fun heq => ?_) hfirst
          simp [← heq] at hc
        · exact ih (by rw [hsplit]; exact List.mem_cons_of_mem _ h)

/-- The location of a path, by its parts. -/
theorem location_eq {path first : Text} {rest : List Text} (h : path.splitOn '/' = first :: rest)
    (hne : first ≠ [] ∨ rest ≠ []) : location path =
      (if first = [] then [.rootDir] else (ofPart first).toList) ++ rest.filterMap ofPart := by
  unfold location components
  rw [h, filter_ofParts hne]

/-- A parent has the components of the path but the last one. -/
theorem location_parent {path dir : Text} (h : parent path = some dir) :
    location dir = (location path).dropLast := by
  obtain ⟨first, rest, hsplit⟩ := List.exists_cons_of_ne_nil (List.splitOn_ne_nil '/' path)
  have hfirst : '/' ∉ first := notMem_of_mem_splitOn (by rw [hsplit]; exact List.mem_cons_self)
  have hrest : ∀ part ∈ rest, '/' ∉ part := fun part hmem =>
    notMem_of_mem_splitOn (by rw [hsplit]; exact List.mem_cons_of_mem _ hmem)
  unfold parent at h
  simp only [hsplit] at h
  have hdrop := filterMap_rdropWhile rest
  cases hkept : rest.rdropWhile isTrivial with
  | nil =>
    -- The first part is the only component.
    simp only [hkept] at h
    rw [hkept] at hdrop
    split_ifs at h with hne
    obtain rfl := Option.some.inj h
    rw [location_eq hsplit (.inl hne), if_neg hne, ← hdrop, List.filterMap_nil, List.append_nil]
    cases ofPart first <;> rfl
  | cons part parts =>
    simp only [hkept] at h
    -- The last part that counts is dropped, and its component with it.
    have hlast : isTrivial ((part :: parts).getLast (List.cons_ne_nil _ _)) = false := by
      have hne : rest.rdropWhile isTrivial ≠ [] := by
        rw [hkept]
        exact List.cons_ne_nil _ _
      have hnot := List.rdropWhile_last_not isTrivial rest hne
      simpa [hkept] using hnot
    have hparts : rest.filterMap ofPart = (part :: parts).dropLast.filterMap ofPart ++
        (ofPart ((part :: parts).getLast (List.cons_ne_nil _ _))).toList := by
      rw [← filterMap_concat, List.dropLast_append_getLast, ← hkept, hdrop]
    obtain ⟨component, hcomponent⟩ := Option.isSome_iff_exists.mp (ofPart_isSome hlast)
    have hpath : (location path).dropLast =
        (if first = [] then [.rootDir] else (ofPart first).toList) ++
          (part :: parts).dropLast.filterMap ofPart := by
      have hne : rest ≠ [] := by
        rintro rfl
        simp at hkept
      rw [location_eq hsplit (.inr hne), hparts, hcomponent, ← List.append_assoc]
      exact List.dropLast_concat
    rw [hpath, ← filterMap_rdropWhile (part :: parts).dropLast]
    have hsub : ∀ p ∈ (part :: parts).dropLast.rdropWhile isTrivial, '/' ∉ p := by
      intro p hmem
      have hmem := List.dropLast_subset _ ((List.rdropWhile_prefix _ _).subset hmem)
      rw [← hkept] at hmem
      exact hrest p ((List.rdropWhile_prefix _ _).subset hmem)
    generalize (part :: parts).dropLast.rdropWhile isTrivial = kept at h hsub ⊢
    split_ifs at h with hroot
    · obtain ⟨rfl, rfl⟩ := hroot
      obtain rfl := Option.some.inj h
      rfl
    · obtain rfl := Option.some.inj h
      have hback : (['/'].intercalate (first :: kept)).splitOn '/' = first :: kept :=
        List.splitOn_intercalate '/'
          (fun p hmem => (List.mem_cons.mp hmem).elim (fun heq => heq ▸ hfirst) (hsub p))
          (List.cons_ne_nil _ _)
      exact location_eq hback (not_and_or.mp hroot)

/-- A joined name is one more component. -/
theorem location_join {name : Text} (hname : IsName name) (path : Text) :
    location (join path name) = location path ++ [.normal name] := by
  have hne : name ≠ [] := by
    rintro rfl
    exact absurd hname.2.1 (by decide)
  have hhead : name.head? ≠ some '/' := fun h => hname.1 (List.mem_of_mem_head? h)
  have hsplit : name.splitOn '/' = [name] := List.splitOn_eq_singleton hname.1
  have hadd (parts : List Text) (hparts : parts ≠ []) (path : Text)
      (hpath : path.splitOn '/' = parts ++ [name]) :
      location path = (ofParts (parts ++ [[]])).filter (· ≠ .curDir) ++ [.normal name] := by
    obtain ⟨first, rest, rfl⟩ := List.exists_cons_of_ne_nil hparts
    rw [List.cons_append] at hpath ⊢
    rw [location_eq hpath (.inr (by simp)), filter_ofParts (.inr (by simp))]
    simp [ofPart_name hname, ofPart_nil]
  unfold join
  rw [if_neg hhead]
  split_ifs with hend
  · rcases hend with rfl | hslash
    · rw [List.nil_append, location_eq hsplit (.inl hne), if_neg hne, ofPart_name hname]
      rfl
    · -- The separator is there already.
      obtain ⟨start, rfl⟩ := List.getLast?_eq_some_iff.mp hslash
      have hstart : (start ++ ['/']).splitOn '/' = start.splitOn '/' ++ [[]] := by
        rw [List.splitOn_append_cons_self]
        rfl
      rw [hadd (start.splitOn '/') (List.splitOn_ne_nil _ _), location, components, hstart]
      rw [List.append_assoc, List.singleton_append, List.splitOn_append_cons_self, hsplit]
  · obtain ⟨hpath, hslash⟩ := not_or.mp hend
    have hsame : location path = (ofParts (path.splitOn '/' ++ [[]])).filter (· ≠ .curDir) := by
      obtain ⟨first, rest, hparts⟩ := List.exists_cons_of_ne_nil (List.splitOn_ne_nil '/' path)
      have hne' : first ≠ [] ∨ rest ≠ [] := by
        by_contra hboth
        obtain ⟨rfl, rfl⟩ := not_or.mp hboth |>.imp not_not.mp not_not.mp
        have hback : ['/'].intercalate (path.splitOn '/') = path := List.intercalate_splitOn '/'
        rw [hparts] at hback
        exact hpath (by simpa using hback.symm)
      rw [location_eq hparts hne', hparts, List.cons_append, filter_ofParts (.inr (by simp))]
      simp [ofPart_nil]
    rw [hadd (path.splitOn '/') (List.splitOn_ne_nil _ _), hsame]
    rw [List.splitOn_append_cons_self, hsplit]

/-! ## File names -/

/-- Only the first component can mean the place itself. -/
theorem curDir_notMem_tail (path : Text) : .curDir ∉ (components path).tail := by
  have hrest (rest : List Text) : .curDir ∉ rest.filterMap ofPart := by
    intro hmem
    obtain ⟨part, -, hpart⟩ := List.mem_filterMap.mp hmem
    exact ofPart_ne_curDir hpart rfl
  unfold components ofParts
  split
  · exact List.not_mem_nil
  · exact List.not_mem_nil
  · exact hrest _
  · exact hrest _
  · exact fun hmem => hrest _ (List.mem_of_mem_tail hmem)

/-- The last component of a location is that of the path. -/
theorem fileName_of_location {path name : Text} {dir : List Component}
    (h : location path = dir ++ [.normal name]) : fileName path = some name := by
  have htail := curDir_notMem_tail path
  unfold location at h
  unfold fileName
  cases hpath : components path with
  | nil => simp [hpath] at h
  | cons head rest =>
    rw [hpath, List.tail_cons] at htail
    have hkeep : rest.filter (· ≠ .curDir) = rest :=
      List.filter_eq_self.mpr fun component hmem => by
        simpa using fun heq : component = .curDir => htail (heq ▸ hmem)
    rw [hpath, List.filter_cons, hkeep] at h
    have hlast := congrArg List.getLast? h
    rw [List.getLast?_concat] at hlast
    cases rest with
    | nil =>
      split_ifs at hlast
      · rw [hlast]
      · simp at hlast
    | cons second rest =>
      have hsame : (head :: second :: rest).getLast? = some (.normal name) := by
        split_ifs at hlast
        · exact hlast
        · rwa [List.getLast?_cons_cons]
      rw [hsame]

/-- A name among the components is one of the parts. -/
theorem mem_of_normal_mem {parts : List Text} {name : Text} (h : .normal name ∈ ofParts parts) :
    name ∈ parts := by
  have hpart : .normal name ∈ parts.filterMap ofPart := by
    unfold ofParts at h
    split at h
    · cases h
    · cases h
    · simpa [ofPart_nil] using h
    · simpa [ofPart_dot] using h
    · exact h
  obtain ⟨part, hmem, hof⟩ := List.mem_filterMap.mp hpart
  unfold ofPart at hof
  split_ifs at hof
  · cases hof
  · obtain rfl := Component.normal.inj (Option.some.inj hof)
    exact hmem

/-- A file name has no separator. -/
theorem notMem_fileName {path name : Text} (h : fileName path = some name) : '/' ∉ name := by
  have hlast : (components path).getLast? = some (.normal name) := by
    unfold fileName at h
    split at h
    · next heq => rw [heq, Option.some.inj h]
    · cases h
  exact notMem_of_mem_splitOn (mem_of_normal_mem (List.mem_of_getLast? hlast))

/-- Only the root and the empty path have no parent. -/
theorem location_of_parent_eq_none {path : Text} (h : parent path = none) :
    (location path).dropLast = [] := by
  obtain ⟨first, rest, hsplit⟩ := List.exists_cons_of_ne_nil (List.splitOn_ne_nil '/' path)
  unfold parent at h
  simp only [hsplit] at h
  have hdrop := filterMap_rdropWhile rest
  cases hkept : rest.rdropWhile isTrivial with
  | nil =>
    rw [hkept] at hdrop
    simp only [hkept, ite_eq_left_iff, reduceCtorEq, imp_false, not_not] at h
    by_cases hrest : rest = []
    · unfold location components
      rw [hsplit, h, hrest]
      rfl
    · rw [location_eq hsplit (.inr hrest), if_pos h, ← hdrop]
      rfl
  | cons part parts =>
    simp only [hkept] at h
    split_ifs at h

end UnixPath
