import Mathlib.Order.Fin.Basic
import Mathlib.Data.List.TakeWhile

namespace SecurityProfiles.Enricher

open List

abbrev Bytes := List (Fin 256)

def byteOf (char : Char) : Fin 256 := Fin.ofNat 256 char.toNat

def space : Fin 256 := byteOf ' '
def equals : Fin 256 := byteOf '='
def quote : Fin 256 := byteOf '"'

def untrustedFields : List Bytes :=
  ["comm", "exe", "name", "path", "profile", "target", "peer"].map fun key => key.toList.map byteOf

structure AuditField where
  key : Bytes
  value : Bytes
  raw : Bytes

section hex

def fromHexDigit (digit : Fin 256) : Option Nat :=
  if 48 ≤ digit.val ∧ digit.val ≤ 57 then some (digit.val - 48)
  else if 97 ≤ digit.val ∧ digit.val ≤ 102 then some (digit.val - 87)
  else if 65 ≤ digit.val ∧ digit.val ≤ 70 then some (digit.val - 55)
  else none

def decodeString : Bytes → Option Bytes
  | high :: low :: rest => do
      let byte := Fin.ofNat 256 ((← fromHexDigit high) * 16 + (← fromHexDigit low))
      return byte :: (← decodeString rest)
  | [] => some []
  | [_] => none

def decodeUntrusted (raw : Bytes) : Bytes :=
  if raw = [] ∨ raw = "(null)".toList.map byteOf ∨ raw.length % 2 ≠ 0 then raw else (decodeString raw).getD raw

end hex

/-- The value at the start of the text as it was logged, the value itself, and what is behind it. -/
def readValue (key text : Bytes) : Bytes × Bytes × Bytes :=
  if text.head? = some quote then
    match text.tail.dropWhile (· ≠ quote) with
    | [] => (text, text.tail, [])
    | closing :: after =>
      (quote :: text.tail.takeWhile (· ≠ quote) ++ [closing], text.tail.takeWhile (· ≠ quote), after)
  else
    let raw := text.takeWhile (· ≠ space)
    (raw, if key ∈ untrustedFields then decodeUntrusted raw else raw, text.dropWhile (· ≠ space))

def inKey (byte : Fin 256) : Bool := byte ≠ space ∧ byte ≠ equals

theorem length_readValue (key text : Bytes) : (readValue key text).2.2.length ≤ text.length := by
  unfold readValue
  split
  · have shorter := length_dropWhile_le (· ≠ quote) text.tail
    split
    · exact Nat.zero_le _
    · next closing after dropped =>
        rw [dropped, length_cons, length_tail] at shorter
        dsimp only
        omega
  · exact length_dropWhile_le _ _

/-- A token ends behind its start, unless it starts with what ends it. -/
theorem length_dropWhile_inKey {first stop : Fin 256} {rest after : Bytes} (token : first ≠ space)
    (dropped : (first :: rest).dropWhile inKey = stop :: after) : after.length < (first :: rest).length ∧
      (stop ≠ equals → (stop :: after).length < (first :: rest).length) := by
  have shorter := length_dropWhile_le inKey (first :: rest)
  rw [dropped, length_cons] at shorter
  refine ⟨shorter, fun other => ?_⟩
  cases isKey : inKey first with
  | true =>
    rw [dropWhile_cons_of_pos isKey] at dropped
    have behind := length_dropWhile_le inKey rest
    rw [dropped] at behind
    exact Nat.lt_succ_of_le behind
  | false =>
    rw [dropWhile_cons_of_neg (by simp [isKey])] at dropped
    cases dropped
    simp [inKey, token, other] at isKey

/-- `parseAuditFields` skips tokens without a value. -/
def parseAuditFields (record : Bytes) : List AuditField :=
  match record with
  | [] => []
  | first :: rest =>
    if first = space then parseAuditFields rest
    else
      match _dropped : (first :: rest).dropWhile inKey with
      | [] => []
      | stop :: after =>
        if stop = equals then
          let key := (first :: rest).takeWhile inKey
          let found := readValue key after
          ⟨key, found.2.1, found.1⟩ :: parseAuditFields found.2.2
        else parseAuditFields (stop :: after)
termination_by record.length
decreasing_by
  · exact Nat.lt_succ_self _
  · rename_i token _
    exact Nat.lt_of_le_of_lt (length_readValue _ _) (length_dropWhile_inKey token _dropped).1
  · rename_i token isOther
    exact (length_dropWhile_inKey token _dropped).2 isOther

def AuditField.get (fields : List AuditField) (key : Bytes) : Option Bytes :=
  (fields.find? (·.key = key)).map AuditField.value

section logged

/-- What the kernel puts into quotes. -/
def plain (byte : Fin 256) : Bool := 0x21 ≤ byte.val ∧ byte.val ≤ 0x7e ∧ byte ≠ quote

def hexDigit (digit : Nat) : Fin 256 := Fin.ofNat 256 (if digit < 10 then 48 + digit else 55 + digit)

def encodeHex (value : Bytes) : Bytes :=
  value.flatMap fun byte => [hexDigit (byte.val / 16), hexDigit (byte.val % 16)]

/-- A field of a record. Only the value of an untrusted field is arbitrary. -/
structure LoggedField where
  key : Bytes
  value : Bytes
  named : key ≠ []
  plainKey : space ∉ key ∧ equals ∉ key
  plainValue : key ∉ untrustedFields → space ∉ value ∧ value.head? ≠ some quote

def LoggedField.shown (field : LoggedField) : Bytes :=
  if field.key ∈ untrustedFields then
    if field.value.all plain then quote :: field.value ++ [quote] else encodeHex field.value
  else field.value

def LoggedField.text (field : LoggedField) : Bytes := field.key ++ equals :: field.shown

/-- The record of the fields, as the kernel logs it. -/
def logRecord (fields : List LoggedField) : Bytes := [space].intercalate (fields.map LoggedField.text)

variable {field : LoggedField} {rest value : Bytes}

theorem hexDigit_spec : ∀ digit < 16, fromHexDigit (hexDigit digit) = some digit ∧ hexDigit digit ≠ space ∧
    hexDigit digit ≠ quote ∧ hexDigit digit ≠ byteOf '(' := by
  decide

theorem nibbles (byte : Fin 256) : byte.val / 16 < 16 ∧ byte.val % 16 < 16 := by omega

theorem decodeString_encodeHex (value : Bytes) : decodeString (encodeHex value) = some value := by
  induction value with
  | nil => rfl
  | cons byte rest ih =>
    have high := (hexDigit_spec _ (nibbles byte).1).1
    have low := (hexDigit_spec _ (nibbles byte).2).1
    have whole : Fin.ofNat 256 (byte.val / 16 * 16 + byte.val % 16) = byte := by
      rw [Nat.div_add_mod', Fin.ofNat_val_eq_self]
    rw [encodeHex, flatMap_cons]
    change (do
      let byte := Fin.ofNat 256
        ((← fromHexDigit (hexDigit (byte.val / 16))) * 16 + (← fromHexDigit (hexDigit (byte.val % 16))))
      return byte :: (← decodeString (encodeHex rest))) = _
    rw [high, low, ih]
    exact congrArg (fun byte => some (byte :: rest)) whole

theorem mem_encodeHex {byte : Fin 256} (member : byte ∈ encodeHex value) :
    byte ≠ space ∧ byte ≠ quote ∧ byte ≠ byteOf '(' := by
  obtain ⟨original, -, isDigit⟩ := mem_flatMap.mp member
  simp only [mem_cons, not_mem_nil, or_false] at isDigit
  rcases isDigit with rfl | rfl
  · exact (hexDigit_spec _ (nibbles original).1).2
  · exact (hexDigit_spec _ (nibbles original).2).2

theorem decodeUntrusted_encodeHex (value : Bytes) : decodeUntrusted (encodeHex value) = value := by
  have even : (encodeHex value).length % 2 = 0 := by
    unfold encodeHex
    induction value with
    | nil => rfl
    | cons byte rest ih =>
      rw [flatMap_cons, length_append]
      exact (Nat.add_mod_left 2 _).trans ih
  unfold decodeUntrusted
  rw [decodeString_encodeHex]
  split
  · next special =>
      rcases special with empty | null | odd
      · cases value with
        | nil => rfl
        | cons byte rest => cases empty
      · have first : byteOf '(' ∈ encodeHex value := null ▸ mem_cons_self ..
        exact absurd rfl (mem_encodeHex first).2.2
      · exact absurd even odd
  · rfl

/-- A value without quotes goes on to the next space. -/
theorem readValue_raw {key raw : Bytes} (noSpace : space ∉ raw) (noQuote : raw.head? ≠ some quote)
    (ends : rest.head?.all (· = space)) : readValue key (raw ++ rest) =
      (raw, if key ∈ untrustedFields then decodeUntrusted raw else raw, rest) := by
  have notQuoted : (raw ++ rest).head? ≠ some quote := by
    cases raw with
    | nil =>
      intro isQuote
      rw [nil_append] at isQuote
      rw [isQuote] at ends
      exact absurd ends (by decide)
    | cons first others => exact noQuote
  have inside : ∀ byte ∈ raw, decide (byte ≠ space) = true := by
    intro byte member
    exact decide_eq_true fun same => noSpace (same ▸ member)
  have stops : rest.takeWhile (· ≠ space) = [] ∧ rest.dropWhile (· ≠ space) = rest := by
    cases rest with
    | nil => exact ⟨rfl, rfl⟩
    | cons first others =>
      have isSpace : first = space := of_decide_eq_true ends
      simp [isSpace]
  rw [readValue, if_neg notQuoted, takeWhile_append_of_pos inside, dropWhile_append_of_pos inside, stops.1,
    stops.2, append_nil]

theorem readValue_quoted {key : Bytes} (noQuote : quote ∉ value) :
    readValue key (quote :: value ++ [quote] ++ rest) = (quote :: value ++ [quote], value, rest) := by
  have inside : ∀ byte ∈ value, decide (byte ≠ quote) = true := by
    intro byte member
    exact decide_eq_true fun same => noQuote (same ▸ member)
  have found : (value ++ quote :: rest).dropWhile (· ≠ quote) = quote :: rest := by
    rw [dropWhile_append_of_pos inside]
    simp
  have taken : (value ++ quote :: rest).takeWhile (· ≠ quote) = value := by
    rw [takeWhile_append_of_pos inside]
    simp
  have tail : (quote :: value ++ [quote] ++ rest).tail = value ++ quote :: rest := by simp
  rw [readValue, if_pos (by simp), tail, found, taken]

theorem readValue_shown (field : LoggedField) (ends : rest.head?.all (· = space)) :
    readValue field.key (field.shown ++ rest) = (field.shown, field.value, rest) := by
  unfold LoggedField.shown
  split
  · next untrusted =>
      split
      · next isPlain =>
          refine readValue_quoted fun member => ?_
          exact absurd (all_eq_true.mp isPlain quote member) (by decide)
      · have noQuote : (encodeHex field.value).head? ≠ some quote := fun isFirst =>
          (mem_encodeHex (mem_of_head? isFirst)).2.1 rfl
        rw [readValue_raw (fun member => (mem_encodeHex member).1 rfl) noQuote ends, if_pos untrusted,
          decodeUntrusted_encodeHex]
  · next trusted =>
      obtain ⟨noSpace, noQuote⟩ := field.plainValue trusted
      rw [readValue_raw noSpace noQuote ends, if_neg trusted]

theorem parseAuditFields_text (field : LoggedField) (ends : rest.head?.all (· = space)) :
    parseAuditFields (field.text ++ rest) = ⟨field.key, field.value, field.shown⟩ :: parseAuditFields rest := by
  obtain ⟨noSpace, noEquals⟩ := field.plainKey
  have inside : ∀ byte ∈ field.key, inKey byte = true := by
    intro byte member
    refine decide_eq_true ⟨?_, ?_⟩
    · exact fun same => noSpace (same ▸ member)
    · exact fun same => noEquals (same ▸ member)
  have joined : field.text ++ rest = field.key ++ equals :: (field.shown ++ rest) := by simp [LoggedField.text]
  have stops : inKey equals = false := by decide
  have dropped : (field.text ++ rest).dropWhile inKey = equals :: (field.shown ++ rest) := by
    rw [joined, dropWhile_append_of_pos inside, dropWhile_cons_of_neg (by simp [stops])]
  have taken : (field.text ++ rest).takeWhile inKey = field.key := by
    rw [joined, takeWhile_append_of_pos inside, takeWhile_cons_of_neg (by simp [stops]), append_nil]
  obtain ⟨first, others, isKey⟩ := exists_cons_of_ne_nil field.named
  have token : first ≠ space := fun same => noSpace (isKey ▸ same ▸ mem_cons_self ..)
  have read := readValue_shown field ends
  rw [isKey] at read
  rw [joined, isKey, cons_append] at dropped taken ⊢
  rw [parseAuditFields, if_neg token]
  split
  · next nothing => cases dropped.symm.trans nothing
  · next stop after found =>
      obtain ⟨rfl, rfl⟩ := List.cons.inj (dropped.symm.trans found)
      rw [if_pos rfl, taken]
      dsimp only
      rw [read]

theorem parseAuditFields_space (rest : Bytes) : parseAuditFields (space :: rest) = parseAuditFields rest := by
  rw [parseAuditFields, if_pos rfl]

theorem parseAuditFields_eq (fields : List LoggedField) :
    parseAuditFields (logRecord fields) = fields.map fun field => ⟨field.key, field.value, field.shown⟩ := by
  induction fields with
  | nil => rw [logRecord, map_nil, intercalate_nil, parseAuditFields, map_nil]
  | cons field rest ih =>
    cases rest with
    | nil =>
      have alone := @parseAuditFields_text [] field rfl
      rw [append_nil, parseAuditFields] at alone
      rwa [logRecord, map_singleton, intercalate_singleton]
    | cons next rest =>
      have joined : logRecord (field :: next :: rest) = field.text ++ space :: logRecord (next :: rest) := by
        simp [logRecord, intercalate_cons_cons]
      rw [joined, parseAuditFields_text field (by simp), parseAuditFields_space, ih]
      rfl

/-- The fields that are read are those that were logged, with their values, and each of them is found by its key. -/
theorem parseAuditFields_logRecord (fields : List LoggedField) :
    (parseAuditFields (logRecord fields)).map (fun field => (field.key, field.value)) =
        fields.map (fun field => (field.key, field.value)) ∧
      ∀ key, AuditField.get (parseAuditFields (logRecord fields)) key =
        (fields.find? (·.key = key)).map LoggedField.value := by
  rw [parseAuditFields_eq]
  refine ⟨by rw [map_map]; rfl, fun key => ?_⟩
  rw [AuditField.get, find?_map, Option.map_map]
  rfl

end logged

end SecurityProfiles.Enricher
