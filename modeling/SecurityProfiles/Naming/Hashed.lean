import SecurityProfiles.AppArmor.Abstract

namespace SecurityProfiles.Naming

/-- The hash of a text in hexadecimal. -/
structure Sha256 where
  hex : Str → Str
  length : ∀ text, (hex text).length = 64

/-- No two of the texts agree on the given number of characters of their hashes. -/
def Sha256.CollisionFree (sha256 : Sha256) (count : Nat) (texts : Str → Prop) : Prop :=
  ∀ first second, texts first → texts second → (sha256.hex first).take count = (sha256.hex second).take count →
    first = second

/-- A hash that tells short texts apart. -/
def plainHash : Sha256 where
  hex text := (text ++ List.replicate 64 '0').take 64
  length text := by simp

def maxLabelLength : Nat := 63

section

variable (sha256 : Sha256)

/-- The start, a dash and as much of the hash of the name as fits. -/
def hashedName (maxLen : Nat) (hashPrefix name : Str) : Option Str :=
  if hashPrefix.length + 1 < maxLen then
    some (hashPrefix ++ '-' :: (sha256.hex name).take (maxLen - hashPrefix.length - 1))
  else none

/-- A name that fits is returned as it is. -/
def lengthName (maxLen : Nat) (hashPrefix friendlyName : Str) : Option Str :=
  if friendlyName.length < maxLen then some friendlyName else hashedName sha256 maxLen hashPrefix friendlyName

def dnsLengthName (hashPrefix friendlyName : Str) : Str :=
  (lengthName sha256 maxLabelLength hashPrefix friendlyName).getD []

end

variable {sha256 : Sha256}

/-- Two joined names are equal if their parts are, or if a part with a dash moved from one to the other. -/
theorem append_dash_eq_iff {first second first' second' : Str} :
    first ++ '-' :: second = first' ++ '-' :: second' ↔
      (first = first' ∧ second = second') ∨
      (∃ part, first' = first ++ '-' :: part ∧ second = part ++ '-' :: second') ∨
      ∃ part, first = first' ++ '-' :: part ∧ second' = part ++ '-' :: second := by
  constructor
  · intro same
    rcases List.append_eq_append_iff.mp same with ⟨middle, longer, rest⟩ | ⟨middle, longer, rest⟩
    · cases middle with
      | nil =>
        refine Or.inl ⟨by simpa using longer.symm, ?_⟩
        simpa using rest
      | cons char part =>
        obtain ⟨rfl, tail⟩ := List.cons.inj rest
        exact Or.inr (Or.inl ⟨part, longer, tail⟩)
    · cases middle with
      | nil =>
        refine Or.inl ⟨by simpa using longer, ?_⟩
        simpa using rest.symm
      | cons char part =>
        obtain ⟨rfl, tail⟩ := List.cons.inj rest
        exact Or.inr (Or.inr ⟨part, longer, tail⟩)
  · rintro (⟨rfl, rfl⟩ | ⟨part, rfl, rfl⟩ | ⟨part, rfl, rfl⟩) <;> simp

end SecurityProfiles.Naming
