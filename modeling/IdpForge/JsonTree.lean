import IdpForge.JsonText

/-!
# JSON Values as Text

Nested JSON values, with the text that Go's `encoding/json` writes for them, and a reader for such
texts that also takes white space between the tokens. Numbers are left out, and so are the surrogate
pairs that no written text has. A value is stored in Go strings, booleans, slices and structures
as `Unmarshal` does it; a member belongs to the field of its name.

## Main results

* `readJson_writeJson`, `parse_writeJson`: reading inverts writing.
* `writeJson_injective`: different values have different texts.
* `unmarshal_marshal`, `decodeSlice_encodeSlice`: a value is decoded from its text, and a slice is read
  back, whether it is nil or not.
-/

open JsonText

namespace JsonTree

/-- A JSON value. -/
inductive Json where
  | null
  | bool (b : Bool)
  | str (s : String)
  | arr (vs : List Json)
  | obj (ms : List (String × Json))

/-! ### Writing -/

mutual

/-- The text of a value. -/
def writeJson : Json → List Char
  | .null => ['n', 'u', 'l', 'l']
  | .bool true => ['t', 'r', 'u', 'e']
  | .bool false => ['f', 'a', 'l', 's', 'e']
  | .str s => writeString s
  | .arr vs => '[' :: (writeElems vs ++ [']'])
  | .obj ms => leftBrace :: (writeFields ms ++ [rightBrace])

/-- The text of the elements of an array. -/
def writeElems : List Json → List Char
  | [] => []
  | [v] => writeJson v
  | v :: vs => writeJson v ++ ',' :: writeElems vs

/-- The text of the members of an object. -/
def writeFields : List (String × Json) → List Char
  | [] => []
  | [(key, v)] => writeString key ++ ':' :: writeJson v
  | (key, v) :: ms => writeString key ++ ':' :: (writeJson v ++ ',' :: writeFields ms)

end

/-! ### Reading -/

/-- White space between tokens. -/
def isSpace (c : Char) : Bool := c = ' ' || c = '\t' || c = '\n' || c = '\r'

/-- The text behind the white space that it begins with. -/
def skipSpace (text : List Char) : List Char := text.dropWhile isSpace

/-- The text behind a token of one character. -/
def token (c : Char) (text : List Char) : Option (List Char) :=
  match skipSpace text with
  | [] => none
  | c' :: rest => if c' = c then some rest else none

/-- Reads a value without parts. -/
def readAtom : List Char → Option (Json × List Char)
  | 'n' :: 'u' :: 'l' :: 'l' :: rest => some (.null, rest)
  | 't' :: 'r' :: 'u' :: 'e' :: rest => some (.bool true, rest)
  | 'f' :: 'a' :: 'l' :: 's' :: 'e' :: rest => some (.bool false, rest)
  | text => (readQuoted text).map fun (s, rest) => (.str s, rest)

mutual

/-- Reads a value, with so many steps down or along. -/
def readJson : Nat → List Char → Option (Json × List Char)
  | 0, _ => none
  | n + 1, text =>
      match token '[' text with
      | some rest =>
          match token ']' rest with
          | some rest => some (.arr [], rest)
          | none => (readElems n rest).map fun (vs, rest) => (.arr vs, rest)
      | none =>
          match token leftBrace text with
          | some rest =>
              match token rightBrace rest with
              | some rest => some (.obj [], rest)
              | none => (readFields n rest).map fun (ms, rest) => (.obj ms, rest)
          | none => readAtom (skipSpace text)

/-- Reads the elements of an array that has some, with the bracket that ends them. -/
def readElems : Nat → List Char → Option (List Json × List Char)
  | 0, _ => none
  | n + 1, text =>
      (readJson n text).bind fun (v, rest) =>
        match token ',' rest with
        | some rest => (readElems n rest).map fun (vs, rest) => (v :: vs, rest)
        | none => (token ']' rest).map fun rest => ([v], rest)

/-- Reads the members of an object that has some, with the brace that ends them. -/
def readFields : Nat → List Char → Option (List (String × Json) × List Char)
  | 0, _ => none
  | n + 1, text =>
      (readQuoted (skipSpace text)).bind fun (key, rest) =>
        (token ':' rest).bind fun rest =>
          (readJson n rest).bind fun (v, rest) =>
            match token ',' rest with
            | some rest => (readFields n rest).map fun (ms, rest) => ((key, v) :: ms, rest)
            | none => (token rightBrace rest).map fun rest => ([(key, v)], rest)

end

/-- Reads a text that is one value. -/
def parse (text : List Char) : Option Json :=
  (readJson text.length text).bind fun (v, rest) =>
    if skipSpace rest = [] then some v else none

/-! ### Tokens of a written text -/

/-- A character that is no white space is not skipped. -/
theorem skipSpace_cons {c : Char} (h : isSpace c = false) (text : List Char) :
    skipSpace (c :: text) = c :: text :=
  List.dropWhile_cons_of_neg (by simp [h])

/-- A token at the front is taken. -/
theorem token_self {c : Char} (h : isSpace c = false) (text : List Char) :
    token c (c :: text) = some text := by
  rw [token, skipSpace_cons h]
  exact if_pos rfl

/-- Another character at the front is no such token. -/
theorem token_of_ne {c c' : Char} (h : isSpace c' = false) (hne : c' ≠ c) (text : List Char) :
    token c (c' :: text) = none := by
  rw [token, skipSpace_cons h]
  exact if_neg hne

/-- What a value begins with. -/
def initials : List Char := ['n', 't', 'f', quoteMark, '[', leftBrace]

/-- A value begins with one of those. -/
theorem writeJson_eq_cons (v : Json) :
    ∃ c rest, writeJson v = c :: rest ∧ c ∈ initials := by
  cases v with
  | null => exact ⟨_, _, rfl, by simp [initials]⟩
  | bool b => cases b <;> exact ⟨_, _, rfl, by simp [initials]⟩
  | str s => exact ⟨_, _, rfl, by simp [initials]⟩
  | arr vs => exact ⟨_, _, rfl, by simp [initials]⟩
  | obj ms => exact ⟨_, _, rfl, by simp [initials]⟩

/-- None of them is white space or ends a list of elements or members. -/
theorem initials_spec {c : Char} (h : c ∈ initials) :
    isSpace c = false ∧ c ≠ ']' ∧ c ≠ rightBrace := by
  simp only [initials, List.mem_cons, List.not_mem_nil, or_false] at h
  rcases h with rfl | rfl | rfl | rfl | rfl | rfl <;> decide

/-- A text that begins with a value has no bracket at its front. -/
theorem token_bracket_writeJson (v : Json) (text : List Char) :
    token ']' (writeJson v ++ text) = none := by
  obtain ⟨c, rest, hv, hc⟩ := writeJson_eq_cons v
  obtain ⟨hspace, hbracket, -⟩ := initials_spec hc
  rw [hv, List.cons_append, token_of_ne hspace hbracket]

/-- Elements are separated by commas. -/
theorem writeElems_cons_cons (v v' : Json) (vs : List Json) :
    writeElems (v :: v' :: vs) = writeJson v ++ ',' :: writeElems (v' :: vs) :=
  writeElems.eq_3 v (v' :: vs) (by simp)

/-- Members are separated by commas. -/
theorem writeFields_cons_cons (key : String) (v : Json) (m : String × Json)
    (ms : List (String × Json)) :
    writeFields ((key, v) :: m :: ms) =
      writeString key ++ ':' :: (writeJson v ++ ',' :: writeFields (m :: ms)) :=
  writeFields.eq_3 key v (m :: ms) (by simp)

/-- The elements of an array that has some begin with the first. -/
theorem writeElems_cons (v : Json) (vs : List Json) :
    ∃ rest, writeElems (v :: vs) = writeJson v ++ rest := by
  cases vs with
  | nil => exact ⟨[], by rw [writeElems, List.append_nil]⟩
  | cons v' vs => exact ⟨_, writeElems_cons_cons v v' vs⟩

/-- The members of an object that has some begin with a quotation mark. -/
theorem writeFields_cons (m : String × Json) (ms : List (String × Json)) :
    ∃ rest, writeFields (m :: ms) = quoteMark :: rest := by
  obtain ⟨key, v⟩ := m
  cases ms with
  | nil => exact ⟨_, by rw [writeFields, writeString, List.cons_append]⟩
  | cons m' ms => exact ⟨_, by rw [writeFields_cons_cons, writeString, List.cons_append]⟩

/-- A value without parts is read as an atom. -/
theorem readJson_succ {n : Nat} {c : Char} {text : List Char} (hspace : isSpace c = false)
    (hbracket : c ≠ '[') (hbrace : c ≠ leftBrace) :
    readJson (n + 1) (c :: text) = readAtom (c :: text) := by
  rw [readJson, token_of_ne hspace hbracket, token_of_ne hspace hbrace, skipSpace_cons hspace]

/-- A string is read as an atom. -/
theorem readAtom_writeString (s : String) (text : List Char) :
    readAtom (writeString s ++ text) = some (.str s, text) := by
  have hread := readString_writeString s text
  rw [writeString, List.cons_append] at hread ⊢
  rw [readAtom, hread]
  · rfl
  · simp [quoteMark]
  · simp [quoteMark]
  · simp [quoteMark]

/-! ### The round trip -/

/-- What so many steps read. -/
structure Reads (n : Nat) : Prop where
  value : ∀ v text, (writeJson v).length ≤ n → readJson n (writeJson v ++ text) = some (v, text)
  elems : ∀ v vs text, (writeElems (v :: vs)).length < n →
    readElems n (writeElems (v :: vs) ++ ']' :: text) = some (v :: vs, text)
  fields : ∀ m ms text, (writeFields (m :: ms)).length < n →
    readFields n (writeFields (m :: ms) ++ rightBrace :: text) = some (m :: ms, text)

/-- One step more reads a value whose parts are read. -/
theorem Reads.readJson_succ {n : Nat} (h : Reads n) (v : Json) (text : List Char)
    (hn : (writeJson v).length ≤ n + 1) :
    readJson (n + 1) (writeJson v ++ text) = some (v, text) := by
  cases v with
  | null => rfl
  | bool b => cases b <;> rfl
  | str s =>
      have hread := readAtom_writeString s text
      rw [writeJson, writeString, List.cons_append] at *
      rw [JsonTree.readJson_succ (by decide) (by decide) (by decide), hread]
  | arr vs =>
      rw [writeJson, List.cons_append, List.append_assoc, readJson, token_self (by decide)]
      dsimp only
      cases vs with
      | nil => rfl
      | cons v vs =>
          obtain ⟨rest, hrest⟩ := writeElems_cons v vs
          have hread := h.elems v vs text (by simp [writeJson] at hn; omega)
          rw [List.cons_append, List.nil_append]
          rw [hread, hrest, List.append_assoc, token_bracket_writeJson]
          rfl
  | obj ms =>
      rw [writeJson, List.cons_append, List.append_assoc, readJson,
        token_of_ne (by decide) (by decide), token_self (by decide)]
      dsimp only
      cases ms with
      | nil => rfl
      | cons m ms =>
          obtain ⟨rest, hrest⟩ := writeFields_cons m ms
          have hread := h.fields m ms text (by simp [writeJson] at hn; omega)
          rw [List.cons_append, List.nil_append]
          rw [hread, hrest, List.cons_append, token_of_ne (by decide) (by decide)]
          rfl

/-- One step more reads elements whose first is read, and whose others are. -/
theorem Reads.readElems_succ {n : Nat} (h : Reads n) (v : Json) (vs : List Json)
    (text : List Char) (hn : (writeElems (v :: vs)).length < n + 1) :
    readElems (n + 1) (writeElems (v :: vs) ++ ']' :: text) = some (v :: vs, text) := by
  rw [readElems]
  cases vs with
  | nil =>
      rw [writeElems] at hn ⊢
      simp only [h.value v _ (Nat.le_of_lt_succ hn), Option.bind_some]
      rw [token_of_ne (by decide) (by decide), token_self (by decide)]
      rfl
  | cons v' vs =>
      rw [writeElems_cons_cons, List.length_append, List.length_cons] at hn
      rw [writeElems_cons_cons, List.append_assoc, List.cons_append]
      simp only [h.value v _ (show _ ≤ n by omega), Option.bind_some]
      rw [token_self (by decide)]
      simp only [h.elems v' vs text (by omega), Option.map_some]

/-- One step more reads members whose first value is read, and whose others are. -/
theorem Reads.readFields_succ {n : Nat} (h : Reads n) (m : String × Json)
    (ms : List (String × Json)) (text : List Char)
    (hn : (writeFields (m :: ms)).length < n + 1) :
    readFields (n + 1) (writeFields (m :: ms) ++ rightBrace :: text) = some (m :: ms, text) := by
  obtain ⟨key, v⟩ := m
  have hkey (text : List Char) :
      readQuoted (skipSpace (writeString key ++ text)) = some (key, text) := by
    rw [writeString, List.cons_append, skipSpace_cons (by decide), ← List.cons_append]
    exact readString_writeString key text
  rw [readFields]
  cases ms with
  | nil =>
      rw [writeFields, List.length_append, List.length_cons] at hn
      rw [writeFields, List.append_assoc, List.cons_append]
      simp only [hkey, Option.bind_some]
      rw [token_self (by decide)]
      simp only [h.value v _ (show _ ≤ n by omega), Option.bind_some]
      rw [token_of_ne (by decide) (by decide), token_self (by decide)]
      rfl
  | cons m ms =>
      rw [writeFields_cons_cons, List.length_append, List.length_cons, List.length_append,
        List.length_cons] at hn
      rw [writeFields_cons_cons, List.append_assoc, List.cons_append, List.append_assoc,
        List.cons_append]
      simp only [hkey, Option.bind_some]
      rw [token_self (by decide)]
      simp only [h.value v _ (show _ ≤ n by omega), Option.bind_some]
      rw [token_self (by decide)]
      simp only [h.fields m ms text (by omega), Option.map_some]

/-- Enough steps read everything: a step for each character. -/
theorem reads (n : Nat) : Reads n := by
  induction n with
  | zero =>
      refine ⟨fun v text h => ?_, fun _ _ _ h => absurd h (Nat.not_lt_zero _),
        fun _ _ _ h => absurd h (Nat.not_lt_zero _)⟩
      obtain ⟨c, rest, hv, -⟩ := writeJson_eq_cons v
      rw [hv] at h
      exact absurd h (by simp)
  | succ n ih => exact ⟨ih.readJson_succ, ih.readElems_succ, ih.readFields_succ⟩

/-- A value is read back from the front of a text. -/
theorem readJson_writeJson {n : Nat} (v : Json) (text : List Char)
    (h : (writeJson v).length ≤ n) : readJson n (writeJson v ++ text) = some (v, text) :=
  (reads n).value v text h

/-- **The round trip.** -/
theorem parse_writeJson (v : Json) : parse (writeJson v) = some v := by
  have hread := readJson_writeJson v [] (Nat.le_refl _)
  rw [List.append_nil] at hread
  rw [parse, hread]
  rfl

/-- Different values have different texts. -/
theorem writeJson_injective : Function.Injective writeJson := by
  intro v v' h
  have hparse := congrArg parse h
  rw [parse_writeJson, parse_writeJson] at hparse
  exact Option.some.inj hparse

/-! ### Go values -/

/-- What a value leaves in a string. -/
def decodeString (old : String) : Json → Option String
  | .null => some old
  | .str s => some s
  | _ => none

/-- What a value leaves in a boolean. -/
def decodeBool (old : Bool) : Json → Option Bool
  | .null => some old
  | .bool b => some b
  | _ => none

/-- The slice of a value. -/
def decodeSlice {α : Type*} (decode : Json → Option α) : Json → Option (List α)
  | .null => some []
  | .arr vs => vs.mapM decode
  | _ => none

/-- The value of a slice; it is nil until something is appended to it. -/
def encodeSlice {α : Type*} (encode : α → Json) : List α → Json
  | [] => .null
  | x :: xs => .arr ((x :: xs).map encode)

/-- What a value leaves in a structure, whose fields are given with what a value leaves in
them. -/
def decodeStruct {α : Type*} (fields : List (String × (α → Json → Option α))) (old : α) :
    Json → Option α
  | .null => some old
  | .obj ms =>
      ms.foldlM (fun old (name, v) =>
        match fields.lookup name with
        | some store => store old v
        | none => some old) old
  | _ => none

/-- `json.Marshal`, of a value that is given as JSON. -/
def marshal (v : Json) : String := String.ofList (writeJson v)

/-- `json.Unmarshal`, into what a JSON value is decoded to. -/
def unmarshal {α : Type*} (decode : Json → Option α) (text : String) : Option α :=
  (parse text.toList).bind decode

/-- What was marshalled is decoded. -/
theorem unmarshal_marshal {α : Type*} (decode : Json → Option α) (v : Json) :
    unmarshal decode (marshal v) = decode v := by
  rw [unmarshal, marshal, String.toList_ofList, parse_writeJson, Option.bind_some]

/-- A slice is read back. -/
theorem decodeSlice_encodeSlice {α : Type*} {encode : α → Json} {decode : Json → Option α}
    (h : ∀ x, decode (encode x) = some x) (xs : List α) :
    decodeSlice decode (encodeSlice encode xs) = some xs := by
  have hall : ∀ xs : List α, (xs.map encode).mapM decode = some xs := by
    intro xs
    induction xs with
    | nil => rfl
    | cons x xs ih => rw [List.map_cons, List.mapM_cons, h, ih]; rfl
  cases xs with
  | nil => rfl
  | cons x xs => exact hall (x :: xs)

end JsonTree
