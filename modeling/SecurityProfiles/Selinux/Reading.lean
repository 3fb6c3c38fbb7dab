import SecurityProfiles.Library.Sexp
import SecurityProfiles.Selinux.Cil

namespace SecurityProfiles.Selinux

open List hiding set

structure AllowStatement where
  source : Str
  target : Str
  tclass : Str
  perms : List Sexp

def allowStatement : Sexp → Option AllowStatement
  | .list [.word keyword, .word source, .word target, .list [.word tclass, .list perms]] =>
    if keyword = "allow".toList then some ⟨source, target, tclass, perms⟩ else none
  | _ => none

def blockItems : Sexp → List Sexp
  | .list (.word keyword :: .word _ :: items) => if keyword = "block".toList then items else []
  | _ => []

/-- The allow statements of a policy, in and outside of blocks. -/
def allowStatements (text : Str) : List AllowStatement :=
  ((Sexp.read text).getD []).flatMap fun item =>
    (allowStatement item).toList ++ (blockItems item).filterMap allowStatement

inductive Operator where
  | all
  | and
  | or
  | xor
  | not
deriving DecidableEq

def operator (word : Str) : Option Operator :=
  if word = "all".toList then some .all
  else if word = "and".toList then some .and
  else if word = "or".toList then some .or
  else if word = "xor".toList then some .xor
  else if word = "not".toList then some .not
  else none

/-- The operator that an expression starts with. -/
def headOperator : Sexp → Option Operator
  | .word word => operator word
  | .list _ => none

/-- What an operator makes of the sets it is applied to. It has to be given as many as it takes. -/
def applyOperator (available : Set Str) : Operator → List (Set Str) → Option (Set Str)
  | .all, [] => some available
  | .not, [set] => some (available \ set)
  | .and, [left, right] => some (left ∩ right)
  | .or, [left, right] => some (left ∪ right)
  | .xor, [left, right] => some ((left \ right) ∪ (right \ left))
  | _, _ => none

mutual

/-- The set that a word or an expression in parentheses stands for. Operators stand for nothing by themselves. -/
def operand (available : Set Str) : Sexp → Option (Set Str)
  | .word word => if operator word = none then some {perm | perm = word ∧ perm ∈ available} else none
  | .list items => expression available items

def operands (available : Set Str) : List Sexp → Option (List (Set Str))
  | [] => some []
  | item :: items => (operand available item).bind fun set => (operands available items).map (set :: ·)

/-- The permissions that an expression stands for, out of those that the class has. Without an operator it is a list
of permissions. What is no expression is refused, and so is an empty list. -/
def expression (available : Set Str) : List Sexp → Option (Set Str)
  | [] => none
  | first :: rest =>
    match headOperator first with
    | some operator => (operands available rest).bind (applyOperator available operator)
    | none =>
      (operand available first).bind fun set =>
        (operands available rest).map fun sets => {perm | perm ∈ set ∨ ∃ other ∈ sets, perm ∈ other}

end

/-- The statement grants the permission if the class has the given ones. -/
def AllowStatement.Grants (statement : AllowStatement) (available : Set Str) (perm : Str) : Prop :=
  ∃ granted, expression available statement.perms = some granted ∧ perm ∈ granted

section words

variable {available : Set Str} {words : List Str} {perm : Str}

/-- The words are permissions and not operators. -/
def Plain (words : List Str) : Prop := ∀ word ∈ words, operator word = none

theorem operands_words (available : Set Str) (words : List Str) :
    (Plain words → operands available (words.map .word) =
      some (words.map fun word => {perm | perm = word ∧ perm ∈ available})) ∧
      (¬Plain words → operands available (words.map .word) = none) := by
  induction words with
  | nil =>
    refine ⟨fun _ => by simp [operands], fun notPlain => absurd ?_ notPlain⟩
    simp [Plain]
  | cons word words ih =>
    rw [map_cons, operands, operand]
    constructor
    · intro plain
      obtain ⟨plainWord, plainWords⟩ := forall_mem_cons.mp plain
      rw [if_pos plainWord, ih.1 plainWords]
      rfl
    · intro notPlain
      by_cases plainWord : operator word = none
      · have notPlainWords : ¬Plain words := fun plain => notPlain (forall_mem_cons.mpr ⟨plainWord, plain⟩)
        rw [if_pos plainWord, ih.2 notPlainWords]
        rfl
      · rw [if_neg plainWord]
        rfl

theorem expression_plain (plain : Plain words) (some' : words ≠ []) :
    expression available (words.map .word) = some {perm | perm ∈ words ∧ perm ∈ available} := by
  cases words with
  | nil => exact absurd rfl some'
  | cons word words =>
    obtain ⟨plainWord, plainWords⟩ := forall_mem_cons.mp plain
    rw [map_cons, expression, headOperator, plainWord, operand, if_pos plainWord, (operands_words _ _).1 plainWords]
    simp only [Option.bind_some, Option.map_some, Option.some_inj]
    ext perm
    simp only [Set.mem_ofPred_eq, mem_map, mem_cons]
    constructor
    · rintro (⟨same, has⟩ | ⟨_, ⟨other, member, rfl⟩, same, has⟩)
      · exact ⟨Or.inl same, has⟩
      · exact ⟨Or.inr (same ▸ member), has⟩
    · rintro ⟨same | member, has⟩
      · exact Or.inl ⟨same, has⟩
      · exact Or.inr ⟨_, ⟨perm, member, rfl⟩, rfl, has⟩

end words

end SecurityProfiles.Selinux
