import SecurityProfiles.Library.Text

namespace FilePath

open List

/-- The next element of a path, given the elements before it from the last to the first. -/
def cleanStep (rooted : Bool) (before : List (List Char)) (element : List Char) : List (List Char) :=
  if element = [] ∨ element = ['.'] then before
  else if element = ['.', '.'] then
    match before with
    | [] => if rooted then [] else [element]
    | last :: others => if last = ['.', '.'] then element :: before else others
  else element :: before

def cleanElements (rooted : Bool) (path : List Char) : List (List Char) :=
  ((path.splitOn '/').foldl (cleanStep rooted) []).reverse

/-- The shortest path for the same file by its text alone. -/
def clean (path : List Char) : List Char :=
  if path.head? = some '/' then '/' :: ['/'].intercalate (cleanElements true path)
  else if cleanElements false path = [] then ['.'] else ['/'].intercalate (cleanElements false path)

def dir (path : List Char) : List Char := clean (path.rdropWhile (· ≠ '/'))

def join (elements : List (List Char)) : List Char :=
  match elements.dropWhile (· = []) with
  | [] => []
  | elements => clean (['/'].intercalate elements)

variable {rooted : Bool} {element other path : List Char} {elements : List (List Char)}

theorem mem_cleanStep {before : List (List Char)}
    (member : other ∈ cleanStep rooted before element) : other = element ∨ other ∈ before := by
  unfold cleanStep at member
  split at member
  · exact Or.inr member
  split at member
  · cases before with
    | nil =>
      cases rooted with
      | true => cases member
      | false => exact Or.inl (mem_singleton.mp member)
    | cons last others =>
      dsimp only at member
      split at member
      · exact mem_cons.mp member
      · exact Or.inr (mem_cons_of_mem _ member)
  · exact mem_cons.mp member

theorem mem_cleanElements (member : element ∈ cleanElements rooted path) :
    element ∈ path.splitOn '/' := by
  have kept : ∀ (elements before : List (List Char)), element ∈ elements.foldl (cleanStep rooted) before →
      element ∈ elements ∨ element ∈ before := by
    intro elements
    induction elements with
    | nil => exact fun before found => Or.inr found
    | cons first rest ih =>
      intro before found
      rcases ih _ found with later | earlier
      · exact Or.inl (mem_cons_of_mem _ later)
      · rcases mem_cleanStep earlier with rfl | earlier
        · exact Or.inl mem_cons_self
        · exact Or.inr earlier
  rcases kept _ [] (mem_reverse.mp member) with found | none
  · exact found
  · cases none

/-- An element of a shortest path. -/
structure Proper (element : List Char) : Prop where
  named : element ≠ []
  notDot : element ≠ ['.']
  notDots : element ≠ ['.', '.']
  single : '/' ∉ element

theorem foldl_cleanStep (proper : ∀ element ∈ elements, Proper element)
    (before : List (List Char)) : elements.foldl (cleanStep true) before = elements.reverse ++ before := by
  induction elements generalizing before with
  | nil => rfl
  | cons first rest ih =>
    obtain ⟨properFirst, properRest⟩ := forall_mem_cons.mp proper
    have step : cleanStep true before first = first :: before := by
      simp [cleanStep, properFirst.named, properFirst.notDot, properFirst.notDots]
    rw [foldl_cons, step, ih properRest]
    simp

theorem notMem_of_mem_splitOn {separator : Char} (member : element ∈ path.splitOn separator) :
    separator ∉ element := by
  induction path generalizing element with
  | nil =>
    rw [splitOn_nil, mem_singleton] at member
    simp [member]
  | cons char rest ih =>
    rw [splitOn_cons_eq_if_modifyHead] at member
    split at member
    · rcases mem_cons.mp member with rfl | member
      · simp
      · exact ih member
    · next other =>
        cases shape : rest.splitOn separator with
        | nil => exact absurd shape (splitOn_ne_nil _ _)
        | cons first others =>
          rw [shape, modifyHead_cons] at member
          rcases mem_cons.mp member with rfl | member
          · rw [mem_cons, not_or]
            exact ⟨fun same => other (beq_iff_eq.mpr same.symm), ih (shape ▸ mem_cons_self)⟩
          · exact ih (shape ▸ mem_cons_of_mem _ member)

section shortest

variable {rooted : Bool} {element : List Char} {elements before : List (List Char)}

/-- The elements of a shortest path, from the last to the first: those that lead up are the first ones of a relative
path. -/
inductive Shortest (rooted : Bool) : List (List Char) → Prop
  | nil : Shortest rooted []
  | up {before : List (List Char)} (relative : rooted = false) (ups : ∀ element ∈ before, element = ['.', '.']) :
      Shortest rooted (['.', '.'] :: before)
  | down {element : List Char} {before : List (List Char)} (proper : Proper element)
    (shortest : Shortest rooted before) :
      Shortest rooted (element :: before)

theorem Shortest.tail (shortest : Shortest rooted (element :: before)) : Shortest rooted before := by
  cases shortest with
  | up relative ups =>
    cases before with
    | nil => exact .nil
    | cons last others =>
      obtain ⟨rfl, upsOthers⟩ := forall_mem_cons.mp ups
      exact .up relative upsOthers
  | down _ shortest => exact shortest

theorem Shortest.single (shortest : Shortest rooted elements) :
    ∀ element ∈ elements, element ≠ [] ∧ '/' ∉ element := by
  induction shortest with
  | nil => simp
  | up relative ups =>
    refine forall_mem_cons.mpr ⟨by decide, fun element member => ?_⟩
    rw [ups element member]
    decide
  | down proper _ ih => exact forall_mem_cons.mpr ⟨⟨proper.named, proper.single⟩, ih⟩

theorem Shortest.step (shortest : Shortest rooted before) (single : '/' ∉ element) :
    Shortest rooted (cleanStep rooted before element) := by
  unfold cleanStep
  split
  · exact shortest
  next notDot =>
  obtain ⟨named, notDot⟩ := not_or.mp notDot
  split
  · next isUp =>
      subst isUp
      cases shortest with
      | nil =>
        cases rooted with
        | true => exact .nil
        | false => exact .up rfl (by simp)
      | up relative ups => exact .up relative (forall_mem_cons.mpr ⟨rfl, ups⟩)
      | down proper shortest =>
        dsimp only
        rw [if_neg proper.notDots]
        exact shortest
  · next notUp => exact .down ⟨named, notDot, notUp, single⟩ shortest

theorem Shortest.steps (single : ∀ element ∈ elements, '/' ∉ element) (shortest : Shortest rooted before) :
    Shortest rooted (elements.foldl (cleanStep rooted) before) := by
  induction elements generalizing before with
  | nil => exact shortest
  | cons first rest ih =>
    obtain ⟨singleFirst, singleRest⟩ := forall_mem_cons.mp single
    exact ih singleRest (shortest.step singleFirst)

theorem Shortest.foldl (shortest : Shortest rooted elements) :
    elements.reverse.foldl (cleanStep rooted) [] = elements := by
  induction elements with
  | nil => rfl
  | cons element before ih =>
    rw [reverse_cons, foldl_append, ih shortest.tail, foldl_cons, foldl_nil]
    cases shortest with
    | up relative ups =>
      cases before with
      | nil => simp [cleanStep, relative]
      | cons last others => simp [cleanStep, (forall_mem_cons.mp ups).1]
    | down proper _ => simp [cleanStep, proper.named, proper.notDot, proper.notDots]

theorem shortest_cleanElements (rooted : Bool) (path : List Char) :
    Shortest rooted (cleanElements rooted path).reverse := by
  rw [cleanElements, reverse_reverse]
  exact .steps (fun _ => notMem_of_mem_splitOn) .nil

theorem Shortest.proper (shortest : Shortest true elements) : ∀ element ∈ elements, Proper element := by
  induction elements with
  | nil => simp
  | cons element before ih =>
    refine forall_mem_cons.mpr ⟨?_, ih shortest.tail⟩
    cases shortest with
    | up relative _ => cases relative
    | down proper _ => exact proper

end shortest

theorem proper_cleanElements (member : element ∈ cleanElements true path) : Proper element :=
  (shortest_cleanElements true path).proper element (mem_reverse.mpr member)

/-- The directory and the elements of a path in parts. -/
theorem cleanElements_intercalate {elements : List (List Char)} (some' : elements ≠ [])
    (single : ∀ element ∈ elements, '/' ∉ element) :
    cleanElements true ('/' :: ['/'].intercalate elements) = (elements.foldl (cleanStep true) []).reverse := by
  have split : ('/' :: ['/'].intercalate elements).splitOn '/' = [] :: elements := by
    have joined : '/' :: ['/'].intercalate elements = ['/'].intercalate ([] :: elements) := by
      obtain ⟨first, rest, rfl⟩ := exists_cons_of_ne_nil some'
      rw [intercalate_cons_cons]
      rfl
    rw [joined]
    exact splitOn_intercalate '/' (forall_mem_cons.mpr ⟨by simp, single⟩) (by simp)
  simp [cleanElements, split, cleanStep]

theorem clean_intercalate (some' : elements ≠ [])
    (single : ∀ element ∈ elements, '/' ∉ element) : clean ('/' :: ['/'].intercalate elements) =
      '/' :: ['/'].intercalate (elements.foldl (cleanStep true) []).reverse := by
  have rooted : clean ('/' :: ['/'].intercalate elements) =
      '/' :: ['/'].intercalate (cleanElements true ('/' :: ['/'].intercalate elements)) := if_pos rfl
  rw [rooted, cleanElements_intercalate some' single]

/-- A path whose last element is still to come. -/
def folder (elements : List (List Char)) : List Char := '/' :: elements.flatMap (· ++ ['/'])

theorem folder_append (elements : List (List Char)) (element : List Char) :
    folder elements ++ element = '/' :: ['/'].intercalate (elements ++ [element]) := by
  unfold folder
  rw [cons_append]
  congr 1
  induction elements with
  | nil => simp [List.intercalate]
  | cons first rest ih =>
    obtain ⟨second, others, shape⟩ : ∃ second others, rest ++ [element] = second :: others :=
      exists_cons_of_ne_nil (by simp)
    rw [cons_append, shape, intercalate_cons_cons, ← shape, ← ih]
    simp

theorem folder_eq (elements : List (List Char)) : ∃ before, folder elements = before ++ ['/'] := by
  induction elements using List.reverseRecOn with
  | nil => exact ⟨[], rfl⟩
  | append_singleton elements last _ => exact ⟨folder elements ++ last, by simp [folder]⟩

theorem dir_append {before name : List Char} (single : '/' ∉ name) :
    dir (before ++ '/' :: name) = clean (before ++ ['/']) := by
  have noSlash : ∀ char ∈ name.reverse, decide (char ≠ '/') = true := by
    intro char member
    simp only [decide_eq_true_eq]
    rintro rfl
    exact single (mem_reverse.mp member)
  have dropped : (before ++ '/' :: name).rdropWhile (· ≠ '/') = before ++ ['/'] := by
    rw [append_cons, List.rdropWhile, reverse_append, dropWhile_append_of_pos noSlash]
    simp
  rw [dir, dropped]

theorem dir_folder (proper : ∀ element ∈ elements, Proper element)
    (single : '/' ∉ element) : dir (folder elements ++ element) = '/' :: ['/'].intercalate elements := by
  obtain ⟨before, isFolder⟩ := folder_eq elements
  have shape := folder_append elements []
  rw [append_nil] at shape
  rw [isFolder, append_assoc, singleton_append, dir_append single, ← isFolder, shape, clean_intercalate (by simp),
    foldl_append, foldl_cleanStep proper]
  · simp [cleanStep]
  · simpa [or_imp, forall_and] using fun element member => (proper element member).single

/-- The directory of a path in its shortest form, put together with another element. -/
theorem join_dir (proper : ∀ element ∈ elements, Proper element) (single : '/' ∉ element)
    (properOther : Proper other) : join [dir (folder elements ++ element), other] = folder elements ++ other := by
  have slashless : ∀ element ∈ elements, '/' ∉ element := fun element member => (proper element member).single
  have whole : ∀ start : List (List Char), start.foldl (cleanStep true) [] = elements.reverse →
      (∀ element ∈ start, '/' ∉ element) →
      clean ('/' :: ['/'].intercalate (start ++ [other])) = folder elements ++ other := by
    intro start folded startSlashless
    rw [folder_append, clean_intercalate (by simp), foldl_append, folded]
    · simp [cleanStep, properOther.named, properOther.notDot, properOther.notDots]
    · simpa [or_imp, forall_and] using ⟨startSlashless, properOther.single⟩
  have joined : join ['/' :: ['/'].intercalate elements, other] =
      clean ('/' :: (['/'].intercalate elements ++ '/' :: other)) := by
    simp [join, List.intercalate]
  rw [dir_folder proper single, joined]
  rcases eq_nil_or_concat' elements with rfl | ⟨init, last, rfl⟩
  · have ended : '/' :: (['/'].intercalate [] ++ '/' :: other) = '/' :: ['/'].intercalate ([[]] ++ [other]) := by
      simp [List.intercalate]
    rw [ended]
    exact whole [[]] rfl (by simp)
  · have ended : '/' :: (['/'].intercalate (init ++ [last]) ++ '/' :: other) =
        '/' :: ['/'].intercalate (init ++ [last] ++ [other]) := by
      rw [← folder_append, ← cons_append, ← folder_append]
      simp [folder]
    rw [ended]
    exact whole (init ++ [last]) (by simpa using foldl_cleanStep proper []) slashless

/-- A path in its shortest form and below the root keeps its text when an element is put behind it. -/
theorem join_clean (rooted : path.head? = some '/') (isClean : clean path = path)
    (below : path ≠ ['/']) (properOther : Proper other) : join [path, other] = path ++ '/' :: other := by
  have shape : path = '/' :: ['/'].intercalate (cleanElements true path) := by
    conv_lhs => rw [← isClean, clean, if_pos rooted]
  have some' : cleanElements true path ≠ [] := by
    intro none
    rw [none] at shape
    exact below shape
  have proper : ∀ element ∈ cleanElements true path ++ [other], Proper element := by
    intro element member
    rcases mem_append.mp member with inside | last
    · exact proper_cleanElements inside
    · exact mem_singleton.mp last ▸ properOther
  have whole : path ++ '/' :: other = '/' :: ['/'].intercalate (cleanElements true path ++ [other]) := by
    conv_lhs => rw [shape]
    rw [Text.intercalate_concat some']
    simp
  have joined : join [path, other] = clean (path ++ '/' :: other) := by
    have present : path ≠ [] := by
      rintro rfl
      cases rooted
    simp [join, present, List.intercalate]
  rw [joined, whole, clean_intercalate (by simp) fun element member => (proper element member).single,
    foldl_cleanStep proper]
  simp

example : dir "/var/./log/../lib//x".toList = "/var/lib".toList := by decide

example : join ["/".toList, "*".toList] = "/*".toList := by decide

/-- The last element of a path, without slashes at its end. -/
def base (path : List Char) : List Char :=
  if path = [] then ['.']
  else
    let last := (path.rdropWhile (· = '/')).rtakeWhile (· ≠ '/')
    if last = [] then ['/'] else last

theorem base_of_notMem (some' : path ≠ []) (absent : '/' ∉ path) : base path = path := by
  have noSlash : ∀ char ∈ path, char ≠ '/' := fun char member same => absent (same ▸ member)
  have kept : path.rdropWhile (· = '/') = path := by
    rw [rdropWhile_eq_self_iff]
    intro nonempty
    simpa using noSlash _ (getLast_mem nonempty)
  have whole : path.rtakeWhile (· ≠ '/') = path := by
    rw [rtakeWhile_eq_self_iff]
    simpa using noSlash
  rw [base, if_neg some', kept, whole, if_neg some']

theorem single_base (path : List Char) : base path = ['/'] ∨ base path ≠ [] ∧ '/' ∉ base path := by
  unfold base
  split
  · exact Or.inr ⟨by decide, by decide⟩
  dsimp only
  split
  · exact Or.inl rfl
  · next some' =>
      refine Or.inr ⟨some', fun member => ?_⟩
      rw [List.rtakeWhile, mem_reverse] at member
      simpa using mem_takeWhile_imp member

section text

variable {rooted : Bool} {elements : List (List Char)}

def text (rooted : Bool) (elements : List (List Char)) : List Char :=
  if rooted then '/' :: ['/'].intercalate elements else if elements = [] then ['.'] else ['/'].intercalate elements

theorem clean_eq (path : List Char) :
    clean path = text (path.head? = some '/') (cleanElements (path.head? = some '/') path) := by
  unfold clean text
  by_cases rooted : path.head? = some '/' <;> simp [rooted]

/-- A path in its shortest form stays as it is. -/
theorem clean_text (shortest : Shortest rooted elements.reverse) :
    clean (text rooted elements) = text rooted elements := by
  have single := shortest.single
  simp only [mem_reverse] at single
  have kept := shortest.foldl
  rw [reverse_reverse] at kept
  rw [clean_eq]
  cases rooted with
  | true =>
    cases elements with
    | nil => decide
    | cons first rest =>
      have whole := @cleanElements_intercalate (first :: rest) (by simp) fun element member =>
        (single element member).2
      rw [kept, reverse_reverse] at whole
      simp [text, whole]
  | false =>
    cases elements with
    | nil => decide
    | cons first rest =>
      obtain ⟨char, more, rfl⟩ := exists_cons_of_ne_nil (single first mem_cons_self).1
      have notSlash : char ≠ '/' := fun same => (single _ mem_cons_self).2 (same ▸ mem_cons_self)
      have relative : (text false ((char :: more) :: rest)).head? = some char := by
        cases rest <;> simp [text, List.intercalate]
      have split := splitOn_intercalate '/' (fun element member => (single element member).2) (cons_ne_nil _ rest)
      have same : cleanElements false (text false ((char :: more) :: rest)) = (char :: more) :: rest := by
        have whole : text false ((char :: more) :: rest) = ['/'].intercalate ((char :: more) :: rest) := by
          simp [text]
        rw [cleanElements, whole, split, kept, reverse_reverse]
      rw [relative, decide_eq_false (by simpa using notSlash), same]

theorem cleanElements_append (path other : List Char) : cleanElements rooted (path ++ '/' :: other) =
    ((other.splitOn '/').foldl (cleanStep rooted) (cleanElements rooted path).reverse).reverse := by
  rw [cleanElements, splitOn_append_cons_self, foldl_append, cleanElements, reverse_reverse]

theorem intercalate_append (some' : elements ≠ []) (more : List (List Char)) :
    ['/'].intercalate (elements ++ more) = ['/'].intercalate elements ++ more.flatMap ('/' :: ·) := by
  induction more generalizing elements with
  | nil => simp
  | cons first rest ih =>
    rw [append_cons, ih (by simp), Text.intercalate_concat some']
    simp

theorem clean_clean (path : List Char) : clean (clean path) = clean path := by
  rw [clean_eq path]
  exact clean_text (shortest_cleanElements _ path)

/-- What a path has more elements when another one is put behind it. -/
theorem clean_append {path other : List Char} {below : List (List Char)} (present : path ≠ [])
    (some' : cleanElements (path.head? = some '/') path ≠ [])
    (added : cleanElements (path.head? = some '/') (path ++ '/' :: other) = cleanElements (path.head? = some '/')
      path ++ below) :
    clean (path ++ '/' :: other) = clean path ++ below.flatMap ('/' :: ·) := by
  have head : (path ++ '/' :: other).head? = path.head? := by
    obtain ⟨char, rest, rfl⟩ := exists_cons_of_ne_nil present
    rfl
  rw [clean_eq, clean_eq path, head, added]
  simp only [text, intercalate_append some', append_eq_nil_iff, some', false_and, if_false]
  split <;> rfl

end text

end FilePath
