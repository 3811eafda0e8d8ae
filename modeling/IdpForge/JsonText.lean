import Mathlib.Data.List.Basic

/-!
# Flat JSON Objects as Text

The text of JSON objects whose members are strings and booleans, as Go's `encoding/json` writes
it: without white space, and with the escapes that make it safe to embed in HTML. The reader
takes these texts back; it knows no white space, no other values and no surrogate pairs, none of
which the writer produces.

## Main results

* `readString_writeString`, `readObject_writeObject`: reading inverts writing.
-/

namespace JsonText

/-- The quotation mark. -/
def quoteMark : Char := '\x22'

/-- The character that begins an escape. -/
def backslash : Char := '\x5c'

/-- The brace that opens an object. -/
def leftBrace : Char := '\x7b'

/-- The brace that closes an object. -/
def rightBrace : Char := '\x7d'

/-! ### Strings -/

/-- The escapes of one letter, each with the character it stands for. -/
def shortEscapes : List (Char × Char) :=
  [('b', '\x08'), ('f', '\x0c'), ('n', '\x0a'), ('r', '\x0d'), ('t', '\x09'),
    (quoteMark, quoteMark), (backslash, backslash)]

/-- The characters that are written by their numbers. -/
def numbered (c : Char) : Bool :=
  c.toNat < 32 || c = '<' || c = '>' || c = '&' || c.toNat = 0x2028 || c.toNat = 0x2029

/-- The hexadecimal digits. -/
def hexDigits : List Char := "0123456789abcdef".toList

/-- The digit of a number below 16. -/
def hexDigit (n : Nat) : Char := hexDigits.getD n '0'

/-- The number of a digit. -/
def hexValue (c : Char) : Option Nat := hexDigits.idxOf? c

/-- How a character is written in a string. -/
def escape (c : Char) : List Char :=
  match shortEscapes.find? fun p => p.2 = c with
  | some (letter, _) => [backslash, letter]
  | none =>
      if numbered c then
        [backslash, 'u', hexDigit (c.toNat / 4096), hexDigit (c.toNat / 256 % 16),
          hexDigit (c.toNat / 16 % 16), hexDigit (c.toNat % 16)]
      else [c]

/-- The character of four digits. -/
def readHex (a b c d : Char) : Option Char :=
  (hexValue a).bind fun a => (hexValue b).bind fun b => (hexValue c).bind fun c =>
    (hexValue d).bind fun d =>
      let n := a * 4096 + b * 256 + c * 16 + d
      if 0xd800 ≤ n ∧ n < 0xe000 then none else some (Char.ofNat n)

/-- One more character has been read. -/
def push (c : Char) (result : Option (List Char × List Char)) : Option (List Char × List Char) :=
  result.map fun (cs, rest) => (c :: cs, rest)

/-- Reads a string from behind its opening quotation mark. -/
def readString : List Char → Option (List Char × List Char)
  | [] => none
  | c :: rest =>
      if c = quoteMark then some ([], rest)
      else if c ≠ backslash then
        if c.toNat < 32 then none else push c (readString rest)
      else
        match rest with
        | [] => none
        | letter :: rest =>
            if letter ≠ 'u' then
              (shortEscapes.find? fun p => p.1 = letter).bind fun p => push p.2 (readString rest)
            else
              match rest with
              | a :: b :: c :: d :: rest => (readHex a b c d).bind fun c => push c (readString rest)
              | _ => none

/-- The text of a string. -/
def writeString (s : String) : List Char :=
  quoteMark :: (s.toList.flatMap escape ++ [quoteMark])

/-- The digits have their numbers. -/
theorem hexValue_hexDigit {n : Nat} (h : n < 16) : hexValue (hexDigit n) = some n := by
  have hall : ∀ n : Fin 16, hexValue (hexDigit n) = some n.val := by decide +kernel
  exact hall ⟨n, h⟩

/-- A character is read back from its digits. -/
theorem readHex_hexDigit {c : Char} (h : c.toNat < 0xd800) :
    readHex (hexDigit (c.toNat / 4096)) (hexDigit (c.toNat / 256 % 16))
      (hexDigit (c.toNat / 16 % 16)) (hexDigit (c.toNat % 16)) = some c := by
  have hnumber : c.toNat / 4096 * 4096 + c.toNat / 256 % 16 * 256 + c.toNat / 16 % 16 * 16 +
      c.toNat % 16 = c.toNat := by
    omega
  rw [readHex, hexValue_hexDigit (by omega), hexValue_hexDigit (by omega),
    hexValue_hexDigit (by omega), hexValue_hexDigit (by omega)]
  simp only [Option.bind_some, hnumber, Char.ofNat_toNat]
  exact if_neg (by omega)

/-- The letters of the short escapes are told apart, and from the one of the long escapes. -/
theorem shortEscapes_letters : ∀ p ∈ shortEscapes, p.1 ≠ 'u' ∧
    (shortEscapes.find? fun q => q.1 = p.1) = some p := by
  decide +kernel

/-- The numbered characters are below the surrogates. -/
theorem toNat_lt_of_numbered {c : Char} (h : numbered c = true) : c.toNat < 0xd800 := by
  simp only [numbered, Bool.or_eq_true, decide_eq_true_eq] at h
  rcases h with ((((h | rfl) | rfl) | rfl) | h) | h
  · omega
  · decide
  · decide
  · decide
  · omega
  · omega

/-- An escaped character is read back. -/
theorem readString_escape (c : Char) (text : List Char) :
    readString (escape c ++ text) = push c (readString text) := by
  rw [escape]
  split
  · next letter c' hfind =>
      obtain rfl : c' = c := by simpa using List.find?_some hfind
      obtain ⟨hletter, hback⟩ := shortEscapes_letters _ (List.mem_of_find?_eq_some hfind)
      dsimp only at hletter hback
      rw [List.cons_append, List.cons_append, List.nil_append, readString.eq_def]
      dsimp only
      rw [if_neg (by decide), if_neg (by decide), if_pos hletter, hback, Option.bind_some]
  · next hfind =>
      have hplain : ∀ p ∈ shortEscapes, p.2 ≠ c := by
        simpa using hfind
      split
      · next hnumbered =>
          simp only [List.cons_append, List.nil_append]
          rw [readString.eq_def]
          dsimp only
          rw [if_neg (by decide), if_neg (by decide), if_neg (by decide),
            readHex_hexDigit (toNat_lt_of_numbered hnumbered), Option.bind_some]
      · next hnumbered =>
          have hquote : c ≠ quoteMark := fun h => hplain (quoteMark, quoteMark) (by decide) h.symm
          have hback : c ≠ backslash := fun h => hplain (backslash, backslash) (by decide) h.symm
          have hprintable : ¬ c.toNat < 32 := by
            intro hlt
            simp [numbered, hlt] at hnumbered
          rw [List.cons_append, List.nil_append, readString.eq_def]
          dsimp only
          rw [if_neg hquote, if_pos hback, if_neg hprintable]

/-- A string is read back up to its closing quotation mark. -/
theorem readString_flatMap_escape (cs text : List Char) :
    readString (cs.flatMap escape ++ quoteMark :: text) = some (cs, text) := by
  induction cs with
  | nil =>
      rw [List.flatMap_nil, List.nil_append, readString.eq_def]
      exact if_pos rfl
  | cons c cs ih =>
      rw [List.flatMap_cons, List.append_assoc, readString_escape, ih]
      rfl

/-! ### Objects -/

/-- The value of a member. -/
inductive Value where
  | bool (b : Bool)
  | str (s : String)
  deriving DecidableEq, Repr

/-- The text of a value. -/
def writeValue : Value → List Char
  | .bool true => ['t', 'r', 'u', 'e']
  | .bool false => ['f', 'a', 'l', 's', 'e']
  | .str s => writeString s

/-- The text of a member. -/
def writeMember (m : String × Value) : List Char :=
  writeString m.1 ++ ':' :: writeValue m.2

/-- The text of the members, separated by commas. -/
def writeMembers : List (String × Value) → List Char
  | [] => []
  | [m] => writeMember m
  | m :: ms => writeMember m ++ ',' :: writeMembers ms

/-- The text of an object. -/
def writeObject (ms : List (String × Value)) : List Char :=
  leftBrace :: (writeMembers ms ++ [rightBrace])

/-- Reads a string with its quotation marks. -/
def readQuoted : List Char → Option (String × List Char)
  | [] => none
  | c :: rest =>
      if c = quoteMark then (readString rest).map fun (cs, rest) => (String.ofList cs, rest)
      else none

/-- Reads a value. -/
def readValue : List Char → Option (Value × List Char)
  | 't' :: 'r' :: 'u' :: 'e' :: rest => some (.bool true, rest)
  | 'f' :: 'a' :: 'l' :: 's' :: 'e' :: rest => some (.bool false, rest)
  | text => (readQuoted text).map fun (s, rest) => (.str s, rest)

/-- Reads a member. -/
def readMember (text : List Char) : Option ((String × Value) × List Char) :=
  (readQuoted text).bind fun (key, rest) =>
    match rest with
    | ':' :: rest => (readValue rest).map fun (v, rest) => ((key, v), rest)
    | _ => none

/-- Reads at most so many members, up to the brace that ends the text. -/
def readMembers : Nat → List Char → Option (List (String × Value))
  | 0, _ => none
  | n + 1, text =>
      (readMember text).bind fun (m, rest) =>
        match rest with
        | [] => none
        | c :: rest =>
            if c = ',' then (readMembers n rest).map fun ms => m :: ms
            else if c = rightBrace ∧ rest = [] then some [m]
            else none

/-- Reads an object. -/
def readObject : List Char → Option (List (String × Value))
  | [] => none
  | c :: rest =>
      if c ≠ leftBrace then none
      else if rest = [rightBrace] then some []
      else readMembers rest.length rest

/-- A string with its quotation marks is read back. -/
theorem readString_writeString (s : String) (text : List Char) :
    readQuoted (writeString s ++ text) = some (s, text) := by
  rw [writeString, List.cons_append, List.append_assoc, List.cons_append, List.nil_append,
    readQuoted, if_pos rfl, readString_flatMap_escape]
  simp

/-- A value is read back. -/
theorem readValue_writeValue (v : Value) (text : List Char) :
    readValue (writeValue v ++ text) = some (v, text) := by
  cases v with
  | bool b => cases b <;> rfl
  | str s =>
      have hread := readString_writeString s text
      rw [writeString, List.cons_append] at hread
      rw [writeValue, writeString, List.cons_append, readValue, hread]
      · rfl
      · simp [quoteMark]
      · simp [quoteMark]

/-- A member is read back. -/
theorem readMember_writeMember (m : String × Value) (text : List Char) :
    readMember (writeMember m ++ text) = some (m, text) := by
  rw [writeMember, List.append_assoc, List.cons_append, readMember, readString_writeString]
  simp only [Option.bind_some]
  rw [readValue_writeValue]
  rfl

/-- Members are read back. -/
theorem readMembers_writeMembers {ms : List (String × Value)} {n : Nat} (hne : ms ≠ [])
    (hn : ms.length ≤ n) : readMembers n (writeMembers ms ++ [rightBrace]) = some ms := by
  fun_induction writeMembers ms generalizing n with
  | case1 => exact absurd rfl hne
  | case2 m =>
      obtain ⟨n, rfl⟩ : ∃ k, n = k + 1 := ⟨n - 1, by simp at hn; omega⟩
      rw [readMembers, readMember_writeMember]
      simp [rightBrace]
  | case3 m ms hms ih =>
      obtain ⟨n, rfl⟩ : ∃ k, n = k + 1 := ⟨n - 1, by simp at hn; omega⟩
      rw [readMembers, List.append_assoc, readMember_writeMember]
      have hrest : ms ≠ [] := by
        rintro rfl
        exact hms rfl
      simp [ih hrest (by simpa using hn)]

/-- Each member takes some text. -/
theorem length_le_writeMembers (ms : List (String × Value)) :
    ms.length ≤ (writeMembers ms).length := by
  fun_induction writeMembers ms with
  | case1 => exact Nat.le_refl _
  | case2 m => simp [writeMember, writeString]
  | case3 m ms hms ih =>
      simp only [List.length_cons, List.length_append]
      omega

/-- **The round trip.** -/
theorem readObject_writeObject (ms : List (String × Value)) :
    readObject (writeObject ms) = some ms := by
  rw [writeObject, readObject, if_neg (by simp)]
  cases ms with
  | nil => exact if_pos rfl
  | cons m ms =>
      have hlength := length_le_writeMembers (m :: ms)
      rw [if_neg]
      · refine readMembers_writeMembers (by simp) ?_
        rw [List.length_append]
        omega
      · intro hempty
        have htext : (writeMembers (m :: ms)).length + 1 = 1 := by
          rw [← List.length_singleton (a := rightBrace), ← List.length_append, hempty]
        rw [List.length_cons] at hlength
        omega

end JsonText
