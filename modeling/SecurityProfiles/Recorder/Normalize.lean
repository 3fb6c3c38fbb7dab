import SecurityProfiles.AppArmor.Pattern
import SecurityProfiles.Library.Replace

namespace SecurityProfiles

open Replace List

/-- The mark that the kernel appends to the path of a removed file. -/
def deletedSuffix : Str := " (deleted)".toList

def isPlainPathByte (c : Char) : Bool := c.isAlphanum || c ∈ ['/', '.', '_', '-', '+', ' ']

def sanitizeByte (c : Char) : Char := if isPlainPathByte c then c else '?'

/-- A path without the mark of a removed file, and the mark. A directory gets a slash behind it. -/
def splitDeleted (filePath : Str) : Str × Str :=
  [deletedSuffix, deletedSuffix ++ ['/']].foldl (fun parts marker =>
    match Text.cutSuffix marker filePath with
    | some trimmed => (trimmed, marker)
    | none => parts) (filePath, [])

/-- `sanitizeFilePath` replaces every byte that the profile cannot carry by a wildcard. -/
def sanitizeFilePath (filePath : Str) : Str :=
  (splitDeleted filePath).1.map sanitizeByte ++ (splitDeleted filePath).2

/-- A number after the given start of the path and before a slash is replaced by a variable. -/
def replaceNumber (before replacement filePath : Str) : Str :=
  match Text.cutPrefix before filePath with
  | none => filePath
  | some rest =>
    if rest.takeWhile Char.isDigit ≠ [] ∧ (rest.dropWhile Char.isDigit).head? = some '/' then
      before ++ replacement ++ rest.dropWhile Char.isDigit
    else filePath

def reDirectPathWithPid : Str → Str := replaceNumber ['/'] "@\x7bpid\x7d".toList

def reDirectPathWithTid : Str → Str := replaceNumber "/@\x7bpid\x7d/task/".toList "@\x7btid\x7d".toList

def rePathWithPid : Str → Str := replaceNumber "/proc/".toList "@\x7bpid\x7d".toList

def rePathWithTid : Str → Str := replaceNumber "/proc/@\x7bpid\x7d/task/".toList "@\x7btid\x7d".toList

def isHexDigit (c : Char) : Bool := c.isDigit || ('a' ≤ c && c ≤ 'f') || ('A' ≤ c && c ≤ 'F')

def rePathWithCid : Finder Char := enclosed "/var/lib/containers/storage/overlay/".toList isNameChar '/'

def uuidClasses : List (Char → Bool) :=
  let hex := List.replicate 4 isHexDigit
  let dash := [fun c => decide (c = '-')]
  hex ++ hex ++ dash ++ hex ++ dash ++ hex ++ dash ++ hex ++ dash ++ hex ++ hex ++ hex

def reUUID : Finder Char := sequence uuidClasses (by simp [uuidClasses])

def reHash : Finder Char := run isHexDigit 32 (by decide)

def reDigitSequence : Finder Char := run Char.isDigit 6 (by decide)

/-- The steps of `replaceVarianceInFilePath` in their order. -/
def varianceSteps (filePath : Str) : Str :=
  let numbered := rePathWithTid (rePathWithPid (reDirectPathWithTid (reDirectPathWithPid filePath)))
  let named := rePathWithCid.replaceAll "/var/lib/containers/storage/overlay/*/".toList numbered
  reDigitSequence.replaceAll ['*'] (reHash.replaceAll ['*'] (reUUID.replaceAll ['*'] named))

def replaceVarianceInFilePath (filePath : Str) : Str :=
  if "/sys/devices/".toList.isPrefixOf (varianceSteps filePath) then "/sys/devices/**".toList
  else varianceSteps filePath

def excludedFilePrefixes : List Str :=
  ["/run/containerd/io.containerd.runtime.v2.task/k8s.io".toList, "/usr/bin/runc".toList]

def shouldExcludeFile (filePath : Str) : Bool := excludedFilePrefixes.any (·.isPrefixOf filePath)

/-- The file was removed: its path ends with the mark. -/
def isDeleted (fileName : Str) : Bool :=
  deletedSuffix.isSuffixOf fileName || (deletedSuffix ++ ['/']).isSuffixOf fileName

/-- Pieces of recorded paths: the variables are those for processes and threads. -/
def Atom.isTidy : Atom → Bool
  | .char c => isPathChar c && c ≠ '@'
  | .var name => name = ['p', 'i', 'd'] || name = ['t', 'i', 'd']

/-- A text that may stand in a path of a profile. -/
def Tidy (text : Str) : Prop := ∃ atoms : List Atom, atoms.all Atom.isTidy = true ∧ text = writeAtoms atoms

def Rooted (text : Str) : Prop := text.head? = some '/'

namespace Tidy

variable {first second text : Str}

theorem append (left : Tidy first) (right : Tidy second) : Tidy (first ++ second) := by
  obtain ⟨atoms, tidy, rfl⟩ := left
  obtain ⟨others, tidyOthers, rfl⟩ := right
  exact ⟨atoms ++ others, by rw [all_append, tidy, tidyOthers, Bool.and_self],
    (writeAtoms_append atoms others).symm⟩

theorem single {atom : Atom} (tidy : atom.isTidy = true) : Tidy atom.text :=
  ⟨[atom], by rw [all_cons, tidy]; rfl, by simp [writeAtoms]⟩

theorem of_chars (chars : ∀ c ∈ text, (Atom.char c).isTidy = true) : Tidy text := by
  refine ⟨text.map .char, ?_, ?_⟩
  · rw [all_map]
    exact all_eq_true.mpr chars
  · simp [writeAtoms, flatMap_map, Atom.text]

theorem strict_atoms {atoms : List Atom} (allTidy : atoms.all Atom.isTidy = true) :
    atoms.all Atom.isStrict = true := by
  refine all_eq_true.mpr fun atom member => ?_
  have tidyAtom := all_eq_true.mp allTidy atom member
  cases atom with
  | char c => exact (Bool.and_eq_true_iff.mp tidyAtom).1
  | var name =>
    rcases Bool.or_eq_true_iff.mp tidyAtom with same | same
    · rw [of_decide_eq_true same]
      decide
    · rw [of_decide_eq_true same]
      decide

theorem strict (tidy : Tidy text) (rooted : Rooted text) : strictPathRegex text = true := by
  obtain ⟨atoms, allTidy, rfl⟩ := tidy
  exact strictPathRegex_iff.mpr ⟨rooted, atoms, strict_atoms allTidy, rfl⟩

/-- Texts of two variables are as long as each other. -/
theorem var_text {name : Str} (tidy : (Atom.var name).isTidy = true) :
    ∃ a b c, (Atom.var name).text = ['@', '\x7b', a, b, c, '\x7d'] := by
  rcases Bool.or_eq_true_iff.mp tidy with same | same
  · exact ⟨_, _, _, by rw [of_decide_eq_true same]; rfl⟩
  · exact ⟨_, _, _, by rw [of_decide_eq_true same]; rfl⟩

/-- What is left behind a tidy start. -/
theorem of_append (tidyFirst : Tidy first) (tidy : Tidy (first ++ second)) : Tidy second := by
  obtain ⟨start, tidyStart, rfl⟩ := tidyFirst
  obtain ⟨atoms, allTidy, same⟩ := tidy
  induction start generalizing atoms with
  | nil => exact ⟨atoms, allTidy, same⟩
  | cons atom start ih =>
    obtain ⟨tidyAtom, tidyRest⟩ := Bool.and_eq_true_iff.mp (all_cons ▸ tidyStart)
    cases atoms with
    | nil => cases atom <;> cases same
    | cons other atoms =>
      obtain ⟨tidyOther, tidyOthers⟩ := Bool.and_eq_true_iff.mp (all_cons ▸ allTidy)
      rw [writeAtoms_cons, writeAtoms_cons, append_assoc] at same
      apply ih tidyRest atoms tidyOthers
      cases atom with
      | char c =>
        cases other with
        | char d => exact (List.cons.inj same).2
        | var name =>
          have isAt : c = '@' := (List.cons.inj same).1
          simp [Atom.isTidy, isAt] at tidyAtom
      | var name =>
        cases other with
        | char d =>
          have isAt : '@' = d := (List.cons.inj same).1
          simp [Atom.isTidy, ← isAt] at tidyOther
        | var other =>
          obtain ⟨_, _, _, text⟩ := var_text tidyAtom
          obtain ⟨_, _, _, otherText⟩ := var_text tidyOther
          rw [text, otherText] at same
          simp only [cons_append, nil_append, List.cons.injEq] at same
          exact same.2.2.2.2.2.2

end Tidy

/-- Characters that are not part of the text of a variable's braces. -/
def isBare (c : Char) : Bool := c ∉ ['@', '\x7b', '\x7d']

/-- A pattern that does not see variables: its matches have no brace and are longer than their names. -/
structure Blind (finder : Finder Char) : Prop where
  bare : finder.Consists isBare
  long : ∀ {text length}, finder.find text = some length → 4 ≤ length

variable {finder : Finder Char} {text replacement before filePath : Str} {isIn : Char → Bool} {least : Nat}
  {positive : 0 < least}

theorem Blind.find_eq_none (blind : Blind finder) {c : Char}
    (near : c ∈ text.take 4) (brace : isBare c = false) : finder.find text = none := by
  by_contra found
  obtain ⟨length, found⟩ := Option.ne_none_iff_exists'.mp found
  have inMatch : c ∈ text.take length := (take_subset_take_left text (blind.long found)) near
  have bare := blind.bare found c inMatch
  rw [brace] at bare
  cases bare

/-- Plain characters at the start of a text are pieces of their own. -/
theorem drop_writeAtoms {atoms : List Atom} {length : Nat}
    (bare : ∀ c ∈ (writeAtoms atoms).take length, isBare c = true) :
    (writeAtoms atoms).drop length = writeAtoms (atoms.drop length) := by
  induction atoms generalizing length with
  | nil => simp
  | cons atom rest ih =>
    cases length with
    | zero => rfl
    | succ length =>
      cases atom with
      | char c =>
        rw [writeAtoms_cons] at bare ⊢
        exact ih fun c member => bare c (mem_cons_of_mem _ member)
      | var name =>
        have brace : isBare '@' = true := by
          apply bare
          rw [writeAtoms_cons]
          exact mem_cons_self
        cases brace

/-- Variables stay where they are. -/
theorem Blind.replaceAll_var (blind : Blind finder) (replacement : Str) {name : Str}
    (tidy : (Atom.var name).isTidy = true) (rest : Str) :
    finder.replaceAll replacement ((Atom.var name).text ++ rest) =
      (Atom.var name).text ++ finder.replaceAll replacement rest := by
  have three : ∀ a b c : Char, finder.replaceAll replacement ('@' :: '\x7b' :: a :: b :: c :: '\x7d' :: rest) =
      '@' :: '\x7b' :: a :: b :: c :: '\x7d' :: finder.replaceAll replacement rest := by
    intro a b c
    have opened : isBare '@' = false ∧ isBare '\x7b' = false ∧ isBare '\x7d' = false := by decide
    rw [Finder.replaceAll_keep replacement (blind.find_eq_none (c := '@') (by simp) opened.1),
      Finder.replaceAll_keep replacement (blind.find_eq_none (c := '\x7b') (by simp) opened.2.1),
      Finder.replaceAll_keep replacement (blind.find_eq_none (c := '\x7d') (by simp) opened.2.2),
      Finder.replaceAll_keep replacement (blind.find_eq_none (c := '\x7d') (by simp) opened.2.2),
      Finder.replaceAll_keep replacement (blind.find_eq_none (c := '\x7d') (by simp) opened.2.2),
      Finder.replaceAll_keep replacement (blind.find_eq_none (c := '\x7d') (by simp) opened.2.2)]
  rcases Bool.or_eq_true_iff.mp tidy with same | same
  · rw [of_decide_eq_true same]
    exact three _ _ _
  · rw [of_decide_eq_true same]
    exact three _ _ _

/-- A pattern that does not see variables is replaced without breaking one, so that the path stays tidy. -/
theorem Tidy.replaceAll (blind : Blind finder)
    (tidyReplacement : Tidy replacement) (tidy : Tidy text) : Tidy (finder.replaceAll replacement text) := by
  obtain ⟨atoms, allTidy, rfl⟩ := tidy
  induction size : atoms.length using Nat.strong_induction_on generalizing atoms with
  | _ size ih =>
    subst size
    cases found : finder.find (writeAtoms atoms) with
    | some length =>
      have positive := finder.positive found
      have shorter : (atoms.drop length).length < atoms.length := by
        have bounded := finder.bounded found
        cases atoms with
        | nil => simp at bounded; omega
        | cons atom rest => rw [length_drop, length_cons]; omega
      rw [Finder.replaceAll_match replacement found, drop_writeAtoms (blind.bare found)]
      exact tidyReplacement.append (ih _ shorter _ (all_eq_true.mpr fun atom member =>
        all_eq_true.mp allTidy atom (mem_of_mem_drop member)) rfl)
    | none =>
      cases atoms with
      | nil => exact ⟨[], rfl, rfl⟩
      | cons atom rest =>
        obtain ⟨tidyAtom, tidyRest⟩ := Bool.and_eq_true_iff.mp (all_cons ▸ allTidy)
        have others := ih _ (by simp) rest tidyRest rfl
        rw [writeAtoms_cons] at found ⊢
        cases atom with
        | char c =>
          have kept : finder.replaceAll replacement (c :: writeAtoms rest) = _ :=
            Finder.replaceAll_keep replacement found
          exact kept ▸ (Tidy.single tidyAtom).append others
        | var name =>
          rw [blind.replaceAll_var replacement tidyAtom]
          exact (Tidy.single tidyAtom).append others

/-- A class without the characters of braces. -/
theorem isBare_of_class {isIn : Char → Bool} (outside : ['@', '\x7b', '\x7d'].all (!isIn ·) = true) {c : Char}
    (inClass : isIn c = true) : isBare c = true := by
  simp only [isBare, decide_eq_true_eq]
  intro brace
  have isOut := all_eq_true.mp outside c brace
  rw [inClass] at isOut
  cases isOut

theorem blind_rePathWithCid : Blind rePathWithCid where
  bare := enclosed_consists (all_eq_true.mp (by decide)) (fun _ => isBare_of_class (by decide)) (by decide)
  long := by
    intro text length found
    obtain ⟨rest, _, inRest⟩ := Option.bind_eq_some_iff.mp found
    simp only [Option.ite_none_right_eq_some, Option.some.injEq] at inRest
    have start : 4 ≤ "/var/lib/containers/storage/overlay/".toList.length := by decide
    omega

theorem blind_reUUID : Blind reUUID where
  bare := by
    apply sequence_consists
    intro narrow member element
    have classes : narrow = isHexDigit ∨ narrow = fun c => decide (c = '-') := by
      simp only [uuidClasses, mem_append, mem_replicate, mem_singleton] at member
      tauto
    rcases classes with rfl | rfl
    · exact isBare_of_class (by decide)
    · exact @isBare_of_class (fun c => decide (c = '-')) (by decide) element
  long := by
    intro text length found
    simp only [reUUID, Replace.sequence, Option.ite_none_right_eq_some, Option.some.injEq] at found
    rw [← found.2]
    decide

theorem blind_run (outside : ['@', '\x7b', '\x7d'].all (!isIn ·) = true) (long : 4 ≤ least) :
    Blind (run isIn least positive) where
  bare := fun found c member => isBare_of_class outside (run_consists isIn least positive found c member)
  long := by
    intro text length found
    simp only [run, Option.ite_none_right_eq_some, Option.some.injEq] at found
    omega

theorem Tidy.replaceNumber (tidyBefore : Tidy before)
    (tidyReplacement : Tidy replacement) (tidy : Tidy text) : Tidy (replaceNumber before replacement text) := by
  unfold SecurityProfiles.replaceNumber
  cases cut : Text.cutPrefix before text with
  | none => exact tidy
  | some rest =>
    dsimp only
    split
    · have digits : Tidy (rest.takeWhile Char.isDigit) := Tidy.of_chars fun c member => by
        have digit := mem_takeWhile_imp member
        have different : c ≠ '@' := by
          rintro rfl
          cases digit
        simp [Atom.isTidy, isPathChar, Char.isAlphanum, digit, different]
      have shape : text = (before ++ rest.takeWhile Char.isDigit) ++ rest.dropWhile Char.isDigit := by
        rw [append_assoc, takeWhile_append_dropWhile]
        exact Text.cutPrefix_eq_some.mp cut
      exact (tidyBefore.append tidyReplacement).append (Tidy.of_append (tidyBefore.append digits) (shape ▸ tidy))
    · exact tidy

theorem Rooted.replaceNumber (rootedBefore : Rooted before) (rooted : Rooted text) :
    Rooted (replaceNumber before replacement text) := by
  obtain ⟨tail, rfl⟩ := head?_eq_some_iff.mp rootedBefore
  unfold SecurityProfiles.replaceNumber
  split
  · exact rooted
  split
  · rfl
  · exact rooted

theorem Rooted.replaceAll (kept : Rooted replacement ∨ ∀ rest, finder.find ('/' :: rest) = none)
    (rooted : Rooted text) : Rooted (finder.replaceAll replacement text) := by
  obtain ⟨tail, rfl⟩ := head?_eq_some_iff.mp rooted
  cases found : finder.find ('/' :: tail) with
  | none =>
    rw [Finder.replaceAll_keep replacement found]
    rfl
  | some length =>
    rcases kept with rootedReplacement | never
    · obtain ⟨others, rfl⟩ := head?_eq_some_iff.mp rootedReplacement
      rw [Finder.replaceAll_match _ found]
      rfl
    · rw [never] at found
      cases found

theorem find_run_slash (outside : isIn '/' = false)
    (rest : Str) : (run isIn least positive).find ('/' :: rest) = none := by
  simp only [run, takeWhile_cons, outside]
  exact if_neg (by simp; omega)

theorem tidy_variables : Tidy "@\x7bpid\x7d".toList ∧ Tidy "@\x7btid\x7d".toList ∧
    Tidy "/@\x7bpid\x7d/task/".toList ∧
    Tidy "/proc/".toList ∧ Tidy "/proc/@\x7bpid\x7d/task/".toList := by
  have pid : Tidy "@\x7bpid\x7d".toList := ⟨[.var ['p', 'i', 'd']], rfl, rfl⟩
  have tid : Tidy "@\x7btid\x7d".toList := ⟨[.var ['t', 'i', 'd']], rfl, rfl⟩
  have task : Tidy "/task/".toList := .of_chars (all_eq_true.mp (by decide))
  have proc : Tidy "/proc/".toList := .of_chars (all_eq_true.mp (by decide))
  have slash : Tidy ['/'] := .of_chars (all_eq_true.mp (by decide))
  exact ⟨pid, tid, (slash.append pid).append task, proc, (proc.append pid).append task⟩

theorem Tidy.varianceSteps (tidy : Tidy text) : Tidy (varianceSteps text) := by
  obtain ⟨pid, tid, directTask, proc, procTask⟩ := tidy_variables
  have slash : Tidy ['/'] := .of_chars (all_eq_true.mp (by decide))
  have star : Tidy ['*'] := .of_chars (all_eq_true.mp (by decide))
  have overlay : Tidy "/var/lib/containers/storage/overlay/*/".toList := .of_chars (all_eq_true.mp (by decide))
  have numbered : Tidy (rePathWithTid (rePathWithPid (reDirectPathWithTid (reDirectPathWithPid text)))) :=
    .replaceNumber procTask tid
      (.replaceNumber proc pid (.replaceNumber directTask tid (.replaceNumber slash pid tidy)))
  exact .replaceAll (blind_run (by decide) (by decide)) star (.replaceAll (blind_run (by decide) (by decide)) star
    (.replaceAll blind_reUUID star (.replaceAll blind_rePathWithCid overlay numbered)))

theorem Rooted.varianceSteps (rooted : Rooted text) : Rooted (varianceSteps text) := by
  have numbered : Rooted (rePathWithTid (rePathWithPid (reDirectPathWithTid (reDirectPathWithPid text)))) :=
    .replaceNumber rfl (.replaceNumber rfl (.replaceNumber rfl (.replaceNumber rfl rooted)))
  have uuid : ∀ rest, reUUID.find ('/' :: rest) = none := by
    intro rest
    rfl
  exact .replaceAll (Or.inr (find_run_slash (by decide))) (.replaceAll (Or.inr (find_run_slash (by decide)))
    (.replaceAll (Or.inr uuid) (.replaceAll (Or.inl rfl) numbered)))

theorem replaceNumber_append_stop (absent : ' ' ∉ before) (replacement text tail : Str) :
    replaceNumber before replacement (text ++ ' ' :: tail) = replaceNumber before replacement text ++
      ' ' :: tail := by
  have space : Char.isDigit ' ' = false := by decide
  unfold replaceNumber
  rw [cutPrefix_append_stop absent]
  cases Text.cutPrefix before text with
  | none => rfl
  | some rest =>
    simp only [Option.map_some, takeWhile_append_stop space, dropWhile_append_stop space]
    have head : (rest.dropWhile Char.isDigit ++ ' ' :: tail).head? = some '/' ↔
        (rest.dropWhile Char.isDigit).head? = some '/' := by
      cases rest.dropWhile Char.isDigit <;> simp
    simp only [head]
    split
    · simp
    · rfl

/-- The mark of a removed file is no part of any match. -/
theorem varianceSteps_append_stop {tail : Str} (text : Str)
    (cid : rePathWithCid.replaceAll "/var/lib/containers/storage/overlay/*/".toList (' ' :: tail) = ' ' :: tail)
    (uuid : reUUID.replaceAll ['*'] (' ' :: tail) = ' ' :: tail)
    (hash : reHash.replaceAll ['*'] (' ' :: tail) = ' ' :: tail)
    (digits : reDigitSequence.replaceAll ['*'] (' ' :: tail) = ' ' :: tail) :
    varianceSteps (text ++ ' ' :: tail) = varianceSteps text ++ ' ' :: tail := by
  have cidStops : rePathWithCid.StopsAt ' ' := enclosed_stopsAt (by decide) (by decide) (by decide)
  have uuidStops : reUUID.StopsAt ' ' := sequence_stopsAt (by decide)
  have hashStops : reHash.StopsAt ' ' := run_stopsAt (by decide)
  have digitsStop : reDigitSequence.StopsAt ' ' := run_stopsAt (by decide)
  unfold varianceSteps reDirectPathWithPid reDirectPathWithTid rePathWithPid rePathWithTid
  simp only [replaceNumber_append_stop (show ' ' ∉ ['/'] by decide),
    replaceNumber_append_stop (show ' ' ∉ "/@\x7bpid\x7d/task/".toList by decide),
    replaceNumber_append_stop (show ' ' ∉ "/proc/".toList by decide),
    replaceNumber_append_stop (show ' ' ∉ "/proc/@\x7bpid\x7d/task/".toList by decide),
    cidStops.replaceAll_append, cid, uuidStops.replaceAll_append, uuid, hashStops.replaceAll_append, hash,
    digitsStop.replaceAll_append, digits]

theorem varianceSteps_deleted (text : Str) :
    varianceSteps (text ++ deletedSuffix) = varianceSteps text ++ deletedSuffix ∧
      varianceSteps (text ++ (deletedSuffix ++ ['/'])) = varianceSteps text ++ (deletedSuffix ++ ['/']) :=
  ⟨varianceSteps_append_stop text (by decide) (by decide) (by decide) (by decide),
    varianceSteps_append_stop text (by decide) (by decide) (by decide) (by decide)⟩

/-- What `splitDeleted` can return. -/
theorem splitDeleted_cases (filePath : Str) : filePath = (splitDeleted filePath).1 ++ (splitDeleted filePath).2 ∧
    ((splitDeleted filePath).2 = [] ∨ (splitDeleted filePath).2 = deletedSuffix ∨
      (splitDeleted filePath).2 = deletedSuffix ++ ['/']) := by
  simp only [splitDeleted, foldl_cons, foldl_nil]
  cases directory : Text.cutSuffix (deletedSuffix ++ ['/']) filePath with
  | some trimmed => exact ⟨Text.cutSuffix_eq_some.mp directory, Or.inr (Or.inr rfl)⟩
  | none =>
    cases plain : Text.cutSuffix deletedSuffix filePath with
    | some trimmed => exact ⟨Text.cutSuffix_eq_some.mp plain, Or.inr (Or.inl rfl)⟩
    | none => exact ⟨(append_nil filePath).symm, Or.inl rfl⟩

theorem tidy_sanitizeByte (c : Char) : (Atom.char (sanitizeByte c)).isTidy = true := by
  unfold sanitizeByte
  split
  · next plain =>
      have different : c ≠ '@' := by
        rintro rfl
        revert plain
        decide
      simp only [isPlainPathByte, Bool.or_eq_true, decide_eq_true_eq] at plain
      simp only [Atom.isTidy, isPathChar, Bool.and_eq_true, Bool.or_eq_true, decide_eq_true_eq]
      refine ⟨plain.imp id fun member => ?_, by simpa using different⟩
      revert member
      simp
      tauto
  · decide

theorem Rooted.append (rooted : Rooted text) (tail : Str) : Rooted (text ++ tail) := by
  obtain ⟨rest, rfl⟩ := head?_eq_some_iff.mp rooted
  rfl

/-- The text in front of the mark of a removed file. -/
theorem rooted_splitDeleted (rooted : Rooted filePath) :
    Rooted ((splitDeleted filePath).1.map sanitizeByte) := by
  obtain ⟨shape, marks⟩ := splitDeleted_cases filePath
  cases base : (splitDeleted filePath).1 with
  | nil =>
    rw [base, nil_append] at shape
    rcases marks with mark | mark | mark <;>
      · rw [shape, mark] at rooted
        cases rooted
  | cons first rest =>
    rw [base] at shape
    obtain rfl : first = '/' := by
      rw [shape] at rooted
      exact Option.some.inj rooted
    rfl

theorem isDeleted_append (text : Str) :
    isDeleted (text ++ deletedSuffix) = true ∧ isDeleted (text ++ (deletedSuffix ++ ['/'])) = true := by
  constructor
  · exact Bool.or_eq_true_iff.mpr (Or.inl (isSuffixOf_iff_suffix.mpr ⟨text, rfl⟩))
  · exact Bool.or_eq_true_iff.mpr (Or.inr (isSuffixOf_iff_suffix.mpr ⟨text, rfl⟩))

/-- A path as it was recorded: it may stand in a profile, unless it is marked as removed. -/
structure Normalized (fileName : Str) : Prop where
  rooted : Rooted fileName
  tidy : isDeleted fileName = false → Tidy fileName

theorem normalized_of_rooted (rooted : Rooted filePath) :
    Normalized (replaceVarianceInFilePath (sanitizeFilePath filePath)) := by
  have rootedBase := rooted_splitDeleted rooted
  have tidyBase : Tidy ((splitDeleted filePath).1.map sanitizeByte) :=
    Tidy.of_chars (forall_mem_map.mpr fun c _ => tidy_sanitizeByte c)
  obtain ⟨_, marks⟩ := splitDeleted_cases filePath
  unfold replaceVarianceInFilePath sanitizeFilePath
  split
  · exact ⟨rfl, fun _ => .of_chars (all_eq_true.mp (by decide))⟩
  · rcases marks with mark | mark | mark
    · rw [mark, append_nil]
      exact ⟨rootedBase.varianceSteps, fun _ => tidyBase.varianceSteps⟩
    · rw [mark, (varianceSteps_deleted _).1]
      refine ⟨rootedBase.varianceSteps.append _, fun kept => ?_⟩
      rw [(isDeleted_append _).1] at kept
      cases kept
    · rw [mark, (varianceSteps_deleted _).2]
      refine ⟨rootedBase.varianceSteps.append _, fun kept => ?_⟩
      rw [(isDeleted_append _).2] at kept
      cases kept

end SecurityProfiles
