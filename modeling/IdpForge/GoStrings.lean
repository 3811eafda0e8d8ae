import Mathlib.Data.List.DropRight
import Mathlib.Data.List.TakeDrop
import Mathlib.Data.List.TakeWhile

/-!
# String Splitting in the Style of Go's `strings` Package

`hasPrefix`, `cutSuffix` and `cut` follow the functions of those names in Go's standard
library (the separator of `cut` is a single character), and `cutLast` splits at the last
occurrence of a character instead of the first. Each of them is characterised by the
concatenations it inverts, so later proofs never look at the characters.

## Main results

* `hasPrefix_iff`, `cutSuffix_eq_some_iff`: the two ends of a string.
* `cut_eq_some_iff`, `cutLast_eq_some_iff`: the split at the first and at the last
  separator.
* `trimSpace_eq`, `trimSpace_surround`: a string between white space.
* `split_eq_iff`: the pieces between all the separators.
* `mem_fields_intercalate`: the pieces of a joined list.
* `toString_natCast_inj`: a number is told by its digits.
-/

namespace GoStrings

/-- `strings.HasPrefix`. -/
def hasPrefix (s pre : String) : Bool :=
  pre.toList.isPrefixOf s.toList

/-- `strings.TrimPrefix`. -/
def trimPrefix (s pre : String) : String :=
  if hasPrefix s pre then String.ofList (s.toList.drop pre.toList.length) else s

/-- `strings.HasSuffix`. -/
def hasSuffix (s suffix : String) : Bool :=
  suffix.toList.isSuffixOf s.toList

/-- `unicode.IsSpace`. -/
def isSpace (c : Char) : Bool :=
  let n := c.toNat
  (9 ≤ n && n ≤ 13) || n = 32 || n = 0x85 || n = 0xa0 || n = 0x1680 ||
    (0x2000 ≤ n && n ≤ 0x200a) || n = 0x2028 || n = 0x2029 || n = 0x202f || n = 0x205f || n = 0x3000

/-- `strings.TrimSpace`. -/
def trimSpace (s : String) : String :=
  String.ofList ((s.toList.dropWhile isSpace).rdropWhile isSpace)

/-- `strings.ContainsAny`. -/
def containsAny (s chars : String) : Bool := s.toList.any fun c => c ∈ chars.toList

/-- `strings.Split` at a separator of one character. -/
def split (s : String) (sep : Char) : List String := (s.toList.splitOn sep).map String.ofList

/-- `strings.TrimSpace` leaves nothing. -/
def isBlank (s : String) : Bool := s.toList.all isSpace

/-- The characters between the occurrences of a separator of two characters. -/
def splitPairChars (fst snd : Char) : List Char → List (List Char)
  | [] => [[]]
  | [c] => [[c]]
  | c :: d :: rest =>
      if c = fst ∧ d = snd then [] :: splitPairChars fst snd rest
      else (splitPairChars fst snd (d :: rest)).modifyHead (c :: ·)

/-- `strings.Split` at a separator of two characters. -/
def splitPair (s : String) (fst snd : Char) : List String :=
  (splitPairChars fst snd s.toList).map String.ofList

/-- `strings.CutSuffix`: `s` without the suffix, or `none` when `s` does not end in it. -/
def cutSuffix (s suffix : String) : Option String :=
  if suffix.toList.isSuffixOf s.toList then
    some (String.ofList (s.toList.take (s.toList.length - suffix.toList.length)))
  else
    none

/-- `strings.Cut` at a one-character separator: the text before and after its first
occurrence. -/
def cut (s : String) (sep : Char) : Option (String × String) :=
  match s.toList.span (· ≠ sep) with
  | (before, _ :: after) => some (String.ofList before, String.ofList after)
  | (_, []) => none

/-- The text before and after the last occurrence of a character. -/
def cutLast (s : String) (sep : Char) : Option (String × String) :=
  match s.toList.reverse.span (· ≠ sep) with
  | (after, _ :: before) => some (String.ofList before.reverse, String.ofList after.reverse)
  | (_, []) => none

/-- The non-empty pieces between the separators, the values of a separated list. -/
def fields (s : String) (sep : Char) : List String :=
  ((s.toList.splitOn sep).filter (· ≠ [])).map String.ofList

/-- A prefix is what can be extended to the whole string. -/
theorem hasPrefix_iff {s pre : String} : hasPrefix s pre = true ↔ ∃ t, s = pre ++ t := by
  rw [hasPrefix, List.isPrefixOf_iff_prefix]
  constructor
  · rintro ⟨t, ht⟩
    refine ⟨String.ofList t, ?_⟩
    rw [← String.toList_inj, String.toList_append, String.toList_ofList, ht]
  · rintro ⟨t, rfl⟩
    exact ⟨t.toList, by rw [String.toList_append]⟩

/-- Trimming a prefix inverts putting it in front. -/
theorem trimPrefix_append (pre t : String) : trimPrefix (pre ++ t) pre = t := by
  rw [trimPrefix, if_pos (hasPrefix_iff.mpr ⟨t, rfl⟩), ← String.toList_inj, String.toList_ofList,
    String.toList_append, List.drop_left]

/-- A string is its prefix and what is left, or it is left as it is. -/
theorem eq_trimPrefix_or (s pre : String) :
    s = trimPrefix s pre ∨ s = pre ++ trimPrefix s pre := by
  by_cases hpre : hasPrefix s pre = true
  · obtain ⟨t, rfl⟩ := hasPrefix_iff.mp hpre
    exact .inr (by rw [trimPrefix_append])
  · exact .inl (by rw [trimPrefix, if_neg hpre])

/-- Cutting a suffix inverts appending it. -/
theorem cutSuffix_eq_some_iff {s suffix t : String} :
    cutSuffix s suffix = some t ↔ s = t ++ suffix := by
  rw [cutSuffix]
  constructor
  · intro h
    split at h
    · next hsuf =>
        obtain ⟨u, hu⟩ := List.isSuffixOf_iff_suffix.mp hsuf
        obtain rfl := Option.some.inj h
        rw [← String.toList_inj, String.toList_append, String.toList_ofList, ← hu]
        simp
    · simp at h
  · rintro rfl
    have hsuf : suffix.toList.isSuffixOf (t ++ suffix).toList = true := by
      rw [List.isSuffixOf_iff_suffix, String.toList_append]
      exact List.suffix_append _ _
    rw [if_pos hsuf, Option.some.injEq, ← String.toList_inj, String.toList_ofList]
    simp

/-- Splitting a list at the first element that fails a test. -/
theorem span_eq_iff {α : Type*} (p : α → Bool) (l before after : List α) (x : α) :
    l.span p = (before, x :: after) ↔
      l = before ++ x :: after ∧ (∀ y ∈ before, p y = true) ∧ p x = false := by
  rw [List.span_eq_takeWhile_dropWhile, Prod.mk.injEq]
  constructor
  · rintro ⟨hb, ha⟩
    refine ⟨?_, ?_, ?_⟩
    · rw [← hb, ← ha, List.takeWhile_append_dropWhile]
    · intro y hy
      exact List.mem_takeWhile_imp (hb ▸ hy)
    · have hne : l.dropWhile p ≠ [] := by rw [ha]; exact List.cons_ne_nil _ _
      have := List.head_dropWhile_not p hne
      simpa [ha] using this
  · rintro ⟨rfl, hb, hx⟩
    constructor
    · rw [List.takeWhile_append_of_pos hb, List.takeWhile_cons_of_neg (by simp [hx])]
      simp
    · rw [List.dropWhile_append_of_pos hb, List.dropWhile_cons_of_neg (by simp [hx])]

/-- `cut` finds exactly the split whose first part does not contain the separator. -/
theorem cut_eq_some_iff {s before after : String} {sep : Char} :
    cut s sep = some (before, after) ↔
      s = before ++ String.singleton sep ++ after ∧ sep ∉ before.toList := by
  rw [cut]
  constructor
  · intro h
    split at h
    · next b x a hspan =>
        obtain ⟨rfl, rfl⟩ := Prod.mk.inj (Option.some.inj h)
        obtain ⟨hl, hb, hx⟩ := (span_eq_iff _ _ _ _ _).mp hspan
        obtain rfl : x = sep := by simpa using hx
        refine ⟨?_, ?_⟩
        · rw [← String.toList_inj, hl]
          simp
        · intro hmem
          have := hb x (by simpa using hmem)
          simp at this
    · simp at h
  · rintro ⟨rfl, hb⟩
    have hspan : (before ++ String.singleton sep ++ after).toList.span (fun x => decide (x ≠ sep))
        = (before.toList, sep :: after.toList) := by
      rw [span_eq_iff]
      refine ⟨by simp, ?_, by simp⟩
      intro y hy
      simpa using fun h : y = sep => hb (h ▸ hy)
    rw [hspan]
    simp

/-- `cutLast` finds exactly the split whose second part does not contain the
separator. -/
theorem cutLast_eq_some_iff {s before after : String} {sep : Char} :
    cutLast s sep = some (before, after) ↔
      s = before ++ String.singleton sep ++ after ∧ sep ∉ after.toList := by
  rw [cutLast]
  constructor
  · intro h
    split at h
    · next a x b hspan =>
        obtain ⟨rfl, rfl⟩ := Prod.mk.inj (Option.some.inj h)
        obtain ⟨hl, ha, hx⟩ := (span_eq_iff _ _ _ _ _).mp hspan
        obtain rfl : x = sep := by simpa using hx
        refine ⟨?_, ?_⟩
        · rw [← String.toList_inj, ← List.reverse_inj, hl]
          simp
        · intro hmem
          have := ha x (by simpa using hmem)
          simp at this
    · simp at h
  · rintro ⟨rfl, ha⟩
    have hspan : (before ++ String.singleton sep ++ after).toList.reverse.span
        (fun x => decide (x ≠ sep)) = (after.toList.reverse, sep :: before.toList.reverse) := by
      rw [span_eq_iff]
      refine ⟨by simp, ?_, by simp⟩
      intro y hy
      simpa using fun h : y = sep => ha (h ▸ List.mem_reverse.mp hy)
    rw [hspan]
    simp

/-- No piece of a list contains the separator. -/
theorem notMem_of_mem_splitOn {α : Type*} [BEq α] [LawfulBEq α] {sep : α} {l piece : List α}
    (h : piece ∈ l.splitOn sep) : sep ∉ piece := by
  induction l generalizing piece with
  | nil =>
      obtain rfl : piece = [] := by simpa using h
      exact List.not_mem_nil
  | cons x rest ih =>
      rw [List.splitOn_cons_eq_if_modifyHead] at h
      split at h
      · rcases List.mem_cons.mp h with rfl | h
        · exact List.not_mem_nil
        · exact ih h
      · next hx =>
          obtain ⟨first, more, hsplit⟩ := List.exists_cons_of_ne_nil (List.splitOn_ne_nil sep rest)
          rw [hsplit] at h ih
          rcases List.mem_cons.mp h with rfl | h
          · rw [List.mem_cons, not_or]
            exact ⟨fun heq => hx (beq_iff_eq.mpr heq.symm), ih List.mem_cons_self⟩
          · exact ih (List.mem_cons_of_mem _ h)

/-- Trimming removes white space at the two ends. -/
theorem trimSpace_eq (s : String) :
    ∃ lead trail, s = lead ++ trimSpace s ++ trail ∧
      isBlank lead = true ∧ isBlank trail = true := by
  set body := s.toList.dropWhile isSpace with hbody
  refine ⟨String.ofList (s.toList.takeWhile isSpace), String.ofList (body.rtakeWhile isSpace),
    ?_, ?_, ?_⟩
  · rw [← String.toList_inj, String.toList_append, String.toList_append, trimSpace,
      String.toList_ofList, String.toList_ofList, String.toList_ofList, List.append_assoc,
      List.rdropWhile_append_rtakeWhile, List.takeWhile_append_dropWhile]
  · rw [isBlank, String.toList_ofList, List.all_eq_true]
    exact fun c hc => List.mem_takeWhile_imp hc
  · rw [isBlank, String.toList_ofList, List.all_eq_true]
    exact fun c hc => List.mem_rtakeWhile_imp hc

/-- White space around a string that neither begins nor ends with any is trimmed. -/
theorem trimSpace_surround {lead trail : String} {fst last : Char} {s : String}
    (hlead : isBlank lead = true) (htrail : isBlank trail = true)
    (hfst : s.toList.head? = some fst) (hlast : s.toList.getLast? = some last)
    (hf : isSpace fst = false) (hl : isSpace last = false) :
    trimSpace (lead ++ s ++ trail) = s := by
  obtain ⟨rest, hrest⟩ := List.head?_eq_some_iff.mp hfst
  obtain ⟨init, hinit⟩ := List.getLast?_eq_some_iff.mp hlast
  have htext : (lead ++ s ++ trail).toList = lead.toList ++ (s.toList ++ trail.toList) := by
    rw [String.toList_append, String.toList_append, List.append_assoc]
  have hdrop : (lead ++ s ++ trail).toList.dropWhile isSpace = s.toList ++ trail.toList := by
    rw [htext, List.dropWhile_append_of_pos (List.all_eq_true.mp hlead), hrest,
      List.cons_append, List.dropWhile_cons_of_neg (by rw [hf]; exact Bool.false_ne_true)]
  have hback : (s.toList ++ trail.toList).rdropWhile isSpace = s.toList := by
    have hall : ∀ c ∈ trail.toList.reverse, isSpace c = true :=
      fun c hc => List.all_eq_true.mp htrail c (List.mem_reverse.mp hc)
    rw [List.rdropWhile, List.reverse_append, List.dropWhile_append_of_pos hall, hinit,
      List.reverse_append, List.reverse_singleton, List.singleton_append,
      List.dropWhile_cons_of_neg (by rw [hl]; exact Bool.false_ne_true)]
    simp
  rw [trimSpace, hdrop, hback, String.ofList_toList]

/-- The pieces of a string are those that the separators join again. -/
theorem split_eq_iff {s : String} {sep : Char} {pieces : List String} :
    split s sep = pieces ↔
      pieces ≠ [] ∧ s.toList = [sep].intercalate (pieces.map String.toList) ∧
        ∀ p ∈ pieces, sep ∉ p.toList := by
  rw [split]
  constructor
  · rintro rfl
    refine ⟨?_, ?_, ?_⟩
    · rw [Ne, List.map_eq_nil_iff]
      exact List.splitOn_ne_nil sep s.toList
    · rw [List.map_map, Function.comp_def]
      simp only [String.toList_ofList, List.map_id']
      exact (List.intercalate_splitOn sep).symm
    · intro p hp
      obtain ⟨l, hl, rfl⟩ := List.mem_map.mp hp
      rw [String.toList_ofList]
      exact notMem_of_mem_splitOn hl
  · rintro ⟨hne, hs, hsep⟩
    have hpieces : s.toList.splitOn sep = pieces.map String.toList := by
      rw [hs]
      refine List.splitOn_intercalate sep ?_ (by rwa [Ne, List.map_eq_nil_iff])
      intro l hl
      obtain ⟨p, hp, rfl⟩ := List.mem_map.mp hl
      exact hsep p hp
    rw [hpieces, List.map_map, Function.comp_def]
    simp only [String.ofList_toList, List.map_id']

/-- The pieces of two strings joined by the separator are the pieces of the two. -/
theorem fields_append_sep (s t : String) (sep : Char) :
    fields (s ++ String.singleton sep ++ t) sep = fields s sep ++ fields t sep := by
  have htext : (s ++ String.singleton sep ++ t).toList = s.toList ++ sep :: t.toList := by simp
  rw [fields, htext, List.splitOn_append_cons_self, List.filter_append, List.map_append]
  rfl

/-- The pieces of a joined list are the pieces of its members. -/
theorem mem_fields_intercalate {v : String} {sep : Char} (l : List String) :
    v ∈ fields ((String.singleton sep).intercalate l) sep ↔ ∃ s ∈ l, v ∈ fields s sep := by
  induction l with
  | nil => simp [fields]
  | cons s rest ih =>
      by_cases hrest : rest = []
      · simp [hrest]
      · rw [String.intercalate_cons_of_ne_nil hrest, fields_append_sep, List.mem_append, ih]
        simp

/-- Two naturals of one spelling are the same. -/
theorem toString_natCast_inj {m n : Nat} : toString (m : Int) = toString (n : Int) ↔ m = n := by
  refine ⟨fun h => ?_, fun h => by rw [h]⟩
  have hdigits : Nat.toDigits 10 m = Nat.toDigits 10 n := by
    rw [← Nat.toList_repr, ← Nat.toList_repr]
    exact congrArg String.toList h
  rw [← Nat.ofDigitChars_ten_toDigits (n := m), hdigits, Nat.ofDigitChars_ten_toDigits]

end GoStrings
