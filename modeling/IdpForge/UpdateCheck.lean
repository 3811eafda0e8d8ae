import Mathlib.Data.Prod.Lex
import IdpForge.GoStrconv
import IdpForge.GoStrings

/-!
# Release Comparison

The running build compares its version with the tag of the latest release. A version is three
numbers with points between them, after a `v` that may be left out and between white space; a text
that is anything else is neither newer nor older than another.

## Main results

* `parseSemver_eq_some_iff`: the texts that are read as versions, and what they are read as.
* `isNewer_iff`: one version is newer than another if its numbers come later.
* `release_comparison`: the grammar and the order.
-/

open GoStrings GoStrconv

namespace IdpForge

/-- The numbers of a version. -/
abbrev Semver := Int × Int × Int

/-- `parseSemver`, after the white space and the `v` are cut off. -/
def parseTrimmed (v : String) : Option Semver :=
  if v = "" || containsAny v "-+ " then none
  else
    match split v '.' with
    | [major, minor, patch] => do
        let major ← atoi major
        let minor ← atoi minor
        let patch ← atoi patch
        return (major, minor, patch)
    | _ => none

/-- `parseSemver`. -/
def parseSemver (v : String) : Option Semver := parseTrimmed (trimPrefix (trimSpace v) "v")

/-- The loop of `IsNewer`: the first numbers that differ decide. -/
def newerIn : List (Int × Int) → Bool
  | [] => false
  | (cur, lat) :: rest => if lat ≠ cur then lat > cur else newerIn rest

/-- `IsNewer`. -/
def isNewer (current latest : String) : Bool :=
  match parseSemver current with
  | none => false
  | some cur =>
      match parseSemver latest with
      | none => false
      | some lat => newerIn [(cur.1, lat.1), (cur.2.1, lat.2.1), (cur.2.2, lat.2.2)]

/-! ### The grammar -/

/-- The text of a number that fits 64 bits. -/
def Number (s : String) (x : Int) : Prop := ∃ n : Nat, Spells s n ∧ n ≤ maxInt ∧ x = n

/-- The text of three numbers with points between them. -/
def Numbers (s : String) (v : Semver) : Prop :=
  ∃ major minor patch : String,
    s = major ++ "." ++ minor ++ "." ++ patch ∧
      Number major v.1 ∧ Number minor v.2.1 ∧ Number patch v.2.2

/-- The text of a version. -/
def Version (s : String) (v : Semver) : Prop :=
  ∃ lead numbers trail : String,
    (s = lead ++ numbers ++ trail ∨ s = lead ++ ("v" ++ numbers) ++ trail) ∧
      isBlank lead = true ∧ isBlank trail = true ∧ Numbers numbers v

/-- A character that is no digit does not stand in a number. -/
theorem Number.notMem {s : String} {x : Int} (h : Number s x) {c : Char}
    (hc : c.isDigit = false) : c ∉ s.toList := by
  obtain ⟨n, hspells, -, -⟩ := h
  exact hspells.notMem hc

/-- Three numbers have no other characters than digits and points. -/
theorem Numbers.notMem {s : String} {v : Semver} (h : Numbers s v) {c : Char}
    (hc : c.isDigit = false) (hpoint : c ≠ '.') : c ∉ s.toList := by
  obtain ⟨major, minor, patch, rfl, hmajor, hminor, hpatch⟩ := h
  simp [hmajor.notMem hc, hminor.notMem hc, hpatch.notMem hc, hpoint]

/-- Three numbers are split at the points. -/
theorem split_eq_three_iff {s major minor patch : String} :
    split s '.' = [major, minor, patch] ↔
      s = major ++ "." ++ minor ++ "." ++ patch ∧
        '.' ∉ major.toList ∧ '.' ∉ minor.toList ∧ '.' ∉ patch.toList := by
  rw [split_eq_iff, ← String.toList_inj]
  simp [List.intercalate]

/-- What the scan for signs and spaces lets through. -/
theorem containsAny_eq_false_iff {s : String} :
    containsAny s "-+ " = false ↔ '-' ∉ s.toList ∧ '+' ∉ s.toList ∧ ' ' ∉ s.toList := by
  rw [containsAny, List.any_eq_false]
  constructor
  · intro h
    exact ⟨fun hc => h _ hc (by decide), fun hc => h _ hc (by decide), fun hc => h _ hc (by decide)⟩
  · rintro ⟨hminus, hplus, hspace⟩ c hc hmem
    have hcases : c = '-' ∨ c = '+' ∨ c = ' ' := by simpa using hmem
    rcases hcases with rfl | rfl | rfl <;> contradiction

/-- The text that is left after the white space and the `v` are cut off is accepted if it is three
numbers. -/
theorem parseTrimmed_eq_some_iff {s : String} {v : Semver} :
    parseTrimmed s = some v ↔ Numbers s v := by
  constructor
  · intro h
    rw [parseTrimmed, Option.ite_none_left_eq_some, Bool.or_eq_true, not_or,
      Bool.not_eq_true (containsAny _ _)] at h
    obtain ⟨⟨-, hscan⟩, h⟩ := h
    obtain ⟨hminus, hplus, -⟩ := containsAny_eq_false_iff.mp hscan
    split at h
    · next major minor patch hsplit =>
        obtain ⟨hs, -⟩ := split_eq_three_iff.mp hsplit
        obtain ⟨x, hx, h⟩ := Option.bind_eq_some_iff.mp h
        obtain ⟨y, hy, h⟩ := Option.bind_eq_some_iff.mp h
        obtain ⟨z, hz, h⟩ := Option.bind_eq_some_iff.mp h
        obtain rfl := Option.some.inj h
        rw [hs] at hminus hplus
        simp only [String.toList_append, List.mem_append, not_or] at hminus hplus
        refine ⟨major, minor, patch, hs, ?_, ?_, ?_⟩
        · exact (atoi_eq_some_iff_of_unsigned (by tauto) (by tauto)).mp hx
        · exact (atoi_eq_some_iff_of_unsigned (by tauto) (by tauto)).mp hy
        · exact (atoi_eq_some_iff_of_unsigned (by tauto) (by tauto)).mp hz
    · exact absurd h (Option.some_ne_none v).symm
  · intro h
    have hscan : containsAny s "-+ " = false :=
      containsAny_eq_false_iff.mpr ⟨h.notMem rfl (by decide), h.notMem rfl (by decide),
        h.notMem rfl (by decide)⟩
    obtain ⟨major, minor, patch, hs, hmajor, hminor, hpatch⟩ := h
    have hne : s ≠ "" := by
      rintro rfl
      have hlen := congrArg String.length hs
      simp only [String.length_append] at hlen
      have hpoint : ".".length = 1 := rfl
      rw [String.length_empty] at hlen
      omega
    have hread : ∀ {t : String} {x : Int}, Number t x → atoi t = some x := fun ht =>
      (atoi_eq_some_iff_of_unsigned (ht.notMem rfl) (ht.notMem rfl)).mpr ht
    have hsplit : split s '.' = [major, minor, patch] :=
      split_eq_three_iff.mpr ⟨hs, hmajor.notMem rfl, hminor.notMem rfl, hpatch.notMem rfl⟩
    rw [parseTrimmed, if_neg (by simp [hne, hscan]), hsplit]
    simp only [hread hmajor, hread hminor, hread hpatch]
    rfl

/-- No digit is white space. -/
theorem isSpace_of_isDigit {c : Char} (h : c.isDigit = true) : isSpace c = false := by
  obtain ⟨hle, hge⟩ := Char.isDigit_iff_toNat.mp h
  have hzero : '0'.toNat = 48 := rfl
  have hnine : '9'.toNat = 57 := rfl
  simp only [isSpace, Bool.or_eq_false_iff, Bool.and_eq_false_iff, decide_eq_false_iff_not]
  omega

/-- Three numbers begin and end with a digit. -/
theorem Numbers.ends {s : String} {v : Semver} (h : Numbers s v) :
    ∃ fst last : Char, s.toList.head? = some fst ∧ s.toList.getLast? = some last ∧
      fst.isDigit = true ∧ last.isDigit = true := by
  obtain ⟨major, minor, patch, rfl, ⟨_, hmajor, -, -⟩, -, ⟨_, hpatch, -, -⟩⟩ := h
  obtain ⟨fst, rest, hfst⟩ := List.exists_cons_of_ne_nil
    (fun h => hmajor.nonempty (String.toList_eq_nil_iff.mp h))
  have hne : patch.toList ≠ [] := fun h => hpatch.nonempty (String.toList_eq_nil_iff.mp h)
  refine ⟨fst, patch.toList.getLast hne, ?_, ?_, hmajor.digits fst ?_, hpatch.digits _ ?_⟩
  · simp [hfst]
  · rw [String.toList_append, List.getLast?_append_of_ne_nil _ hne, List.getLast?_eq_some_getLast]
  · rw [hfst]
    exact List.mem_cons_self
  · exact List.getLast_mem hne

/-- The texts that are read as versions, and what they are read as. -/
theorem parseSemver_eq_some_iff {s : String} {v : Semver} :
    parseSemver s = some v ↔ Version s v := by
  rw [parseSemver, parseTrimmed_eq_some_iff]
  constructor
  · intro h
    obtain ⟨lead, trail, hs, hlead, htrail⟩ := trimSpace_eq s
    refine ⟨lead, trimPrefix (trimSpace s) "v", trail, ?_, hlead, htrail, h⟩
    rcases eq_trimPrefix_or (trimSpace s) "v" with htrim | htrim
    · exact .inl (htrim ▸ hs)
    · exact .inr (htrim ▸ hs)
  · rintro ⟨lead, numbers, trail, hs, hlead, htrail, hnumbers⟩
    obtain ⟨fst, last, hfst, hlast, hf, hl⟩ := hnumbers.ends
    rcases hs with rfl | rfl
    · have hv : ¬ hasPrefix numbers "v" = true := by
        intro hv
        obtain ⟨rest, rfl⟩ := hasPrefix_iff.mp hv
        obtain rfl : 'v' = fst := by simpa using hfst
        exact absurd hf (by decide)
      rw [trimSpace_surround hlead htrail hfst hlast (isSpace_of_isDigit hf)
        (isSpace_of_isDigit hl), trimPrefix, if_neg hv]
      exact hnumbers
    · have hne : numbers.toList ≠ [] := fun h => by rw [h] at hfst; simp at hfst
      have hlast' : ("v" ++ numbers).toList.getLast? = some last := by
        rw [String.toList_append, List.getLast?_append_of_ne_nil _ hne, hlast]
      rw [trimSpace_surround hlead htrail
        (by rw [String.toList_append]; rfl) hlast' (by decide : isSpace 'v' = false)
        (isSpace_of_isDigit hl), trimPrefix_append]
      exact hnumbers

/-! ### The order -/

/-- The numbers of a version, in the order in which versions follow each other. -/
def Semver.key (v : Semver) : Int ×ₗ Int ×ₗ Int := toLex (v.1, toLex v.2)

/-- Versions are told apart by their numbers. -/
theorem Semver.key_injective : Function.Injective Semver.key := by
  intro v w h
  obtain ⟨hmajor, hrest⟩ := Prod.mk.inj (toLex_inj.mp h)
  exact Prod.ext hmajor (toLex_inj.mp hrest)

/-- The loop compares the numbers lexicographically. -/
theorem newerIn_iff (cur lat : Semver) :
    newerIn [(cur.1, lat.1), (cur.2.1, lat.2.1), (cur.2.2, lat.2.2)] = true ↔
      cur.key < lat.key := by
  obtain ⟨a, b, c⟩ := cur
  obtain ⟨x, y, z⟩ := lat
  simp only [newerIn, Semver.key, Prod.Lex.toLex_lt_toLex]
  split_ifs with hmajor hminor hpatch
  · rw [decide_eq_true_iff]
    omega
  · rw [decide_eq_true_iff]
    omega
  · rw [decide_eq_true_iff]
    omega
  · refine iff_of_false not_false ?_
    omega

/-- One version is newer than another if its numbers come later. -/
theorem isNewer_iff {current latest : String} :
    isNewer current latest = true ↔
      ∃ cur lat, Version current cur ∧ Version latest lat ∧ cur.key < lat.key := by
  -- not by its equation, whose proof would evaluate the reader
  delta isNewer
  constructor
  · intro h
    split at h
    · exact absurd h Bool.false_ne_true
    · next cur hcur =>
        split at h
        · exact absurd h Bool.false_ne_true
        · next lat hlat =>
            exact ⟨cur, lat, parseSemver_eq_some_iff.mp hcur, parseSemver_eq_some_iff.mp hlat,
              (newerIn_iff cur lat).mp h⟩
  · rintro ⟨cur, lat, hcur, hlat, hlt⟩
    rw [parseSemver_eq_some_iff.mpr hcur, parseSemver_eq_some_iff.mpr hlat]
    exact (newerIn_iff cur lat).mpr hlt

/-- A text is one version at most. -/
theorem Version.unique {s : String} {v w : Semver} (hv : Version s v) (hw : Version s w) :
    v = w :=
  Option.some.inj ((parseSemver_eq_some_iff.mpr hv).symm.trans (parseSemver_eq_some_iff.mpr hw))

/-- A release that follows one that follows a third one follows that. -/
theorem isNewer_trans {a b c : String} (hab : isNewer a b = true) (hbc : isNewer b c = true) :
    isNewer a c = true := by
  obtain ⟨u, v, hu, hv, huv⟩ := isNewer_iff.mp hab
  obtain ⟨v', w, hv', hw, hvw⟩ := isNewer_iff.mp hbc
  obtain rfl := hv.unique hv'
  exact isNewer_iff.mpr ⟨u, w, hu, hw, huv.trans hvw⟩

/-- No release follows itself. -/
theorem isNewer_irrefl (a : String) : isNewer a a = false := by
  rw [← Bool.not_eq_true, isNewer_iff]
  rintro ⟨u, v, hu, hv, huv⟩
  obtain rfl := hu.unique hv
  exact lt_irrefl _ huv

/-- No release follows one that follows it. -/
theorem isNewer_asymm {a b : String} (h : isNewer a b = true) : isNewer b a = false := by
  rw [← Bool.not_eq_true]
  intro hback
  have hself := isNewer_trans h hback
  rw [isNewer_irrefl] at hself
  exact Bool.false_ne_true hself

/-- Of two versions with different numbers, one is newer. -/
theorem isNewer_total {a b : String} {v w : Semver} (hv : Version a v) (hw : Version b w)
    (hne : v ≠ w) : isNewer a b = true ∨ isNewer b a = true := by
  rcases lt_or_gt_of_ne (Semver.key_injective.ne hne) with hlt | hgt
  · exact .inl (isNewer_iff.mpr ⟨v, w, hv, hw, hlt⟩)
  · exact .inr (isNewer_iff.mpr ⟨w, v, hw, hv, hgt⟩)

/-- A text is accepted if it is three runs of digits with points between them, up to the largest
integer, after a `v` that may be left out and between white space; a release is newer than another
if both are accepted and its numbers are the later ones in the lexicographic order. This is a strict
order, in which any two versions with different numbers follow each other one way. -/
theorem release_comparison :
    (∀ s v, parseSemver s = some v ↔ Version s v) ∧
      (∀ a b, isNewer a b = true ↔
        ∃ v w, Version a v ∧ Version b w ∧ v.key < w.key) ∧
      (∀ a, isNewer a a = false) ∧
      (∀ a b, isNewer a b = true → isNewer b a = false) ∧
      (∀ a b c, isNewer a b = true → isNewer b c = true → isNewer a c = true) ∧
      ∀ a b v w, Version a v → Version b w → v ≠ w → isNewer a b = !isNewer b a := by
  refine ⟨fun s v => parseSemver_eq_some_iff, fun a b => isNewer_iff, isNewer_irrefl,
    fun a b => isNewer_asymm, fun a b c => isNewer_trans, fun a b v w hv hw hne => ?_⟩
  rcases isNewer_total hv hw hne with hab | hba
  · rw [hab, isNewer_asymm hab, Bool.not_false]
  · rw [hba, isNewer_asymm hba, Bool.not_true]

end IdpForge
