import Mathlib.Data.List.Basic
import Mathlib.Data.List.TakeWhile

/-!
# URLs and their Query Parameters

A URL reference is split at its delimiters: the fragment follows the first `#`, the query the
first `?` before it, and what is left is a scheme, an authority and a path. A query is a list of
parameters, escaped by `QueryEscape` and joined by `&` and `=`; a piece that is empty, has a
semicolon or does not unescape is left out when it is read. A text is its bytes.

## Main results

* `parseQuery_encode`: encoded parameters are read back.
* `parse_append_query`: a query goes onto a URL that has neither query nor fragment.
* `mem_parseQuery_append`: what becomes of a query onto which another is put after a `?`.
-/

namespace UrlQuery

/-- A text. -/
abbrev Bytes := List UInt8

/-- The byte of `#`. -/
def hash : UInt8 := '#'.toUInt8

/-- The byte of `?`. -/
def question : UInt8 := '?'.toUInt8

/-- The byte of `&`. -/
def ampersand : UInt8 := '&'.toUInt8

/-- The byte of `=`. -/
def equals : UInt8 := '='.toUInt8

/-- The byte of `;`. -/
def semicolon : UInt8 := ';'.toUInt8

/-- The byte of `%`. -/
def percent : UInt8 := '%'.toUInt8

/-- The byte of `+`. -/
def plus : UInt8 := '+'.toUInt8

/-- The byte of a space. -/
def space : UInt8 := ' '.toUInt8

/-- The byte of `:`. -/
def colon : UInt8 := ':'.toUInt8

/-- The byte of `/`. -/
def slash : UInt8 := '/'.toUInt8

/-! ### Cutting at a delimiter -/

/-- The text before the first delimiter. -/
def before (sep : UInt8) (s : Bytes) : Bytes := s.takeWhile (· ≠ sep)

/-- The text after the first delimiter, if there is one. -/
def after (sep : UInt8) (s : Bytes) : Option Bytes := (s.dropWhile (· ≠ sep)).tail?

section Cut

variable {sep : UInt8} {a b : Bytes}

/-- No byte of a text without the delimiter is one. -/
theorem ne_of_notMem (h : sep ∉ a) : ∀ x ∈ a, decide (x ≠ sep) = true := by
  intro x hx
  rw [decide_eq_true_iff]
  rintro rfl
  exact h hx

/-- The text without the delimiter is not cut. -/
theorem before_of_notMem (h : sep ∉ a) : before sep a = a :=
  List.takeWhile_eq_self_iff.mpr (ne_of_notMem h)

/-- Nothing follows a delimiter that is not there. -/
theorem after_of_notMem (h : sep ∉ a) : after sep a = none := by
  have hdrop : a.dropWhile (· ≠ sep) = [] := List.dropWhile_eq_nil_iff.mpr (ne_of_notMem h)
  rw [after, hdrop, List.tail?_nil]

/-- What stands before the first delimiter. -/
theorem before_append (h : sep ∉ a) : before sep (a ++ sep :: b) = a := by
  rw [before, List.takeWhile_append_of_pos (ne_of_notMem h), List.takeWhile_cons_of_neg (by simp),
    List.append_nil]

/-- What stands after the first delimiter. -/
theorem after_append (h : sep ∉ a) : after sep (a ++ sep :: b) = some b := by
  rw [after, List.dropWhile_append_of_pos (ne_of_notMem h), List.dropWhile_cons_of_neg (by simp),
    List.tail?_cons]

end Cut

/-! ### Escaping -/

/-- The bytes that stand for themselves. -/
def unreserved (b : UInt8) : Bool :=
  (48 ≤ b && b ≤ 57) || (65 ≤ b && b ≤ 90) || (97 ≤ b && b ≤ 122) ||
    b = '-'.toUInt8 || b = '_'.toUInt8 || b = '.'.toUInt8 || b = '~'.toUInt8

/-- The digit of a number below 16. -/
def upperhex (n : Nat) : UInt8 := UInt8.ofNat (if n < 10 then 48 + n else 55 + n)

/-- The number of a digit, in upper or lower case. -/
def unhex (b : UInt8) : Option Nat :=
  if 48 ≤ b && b ≤ 57 then some (b.toNat - 48)
  else if 65 ≤ b && b ≤ 70 then some (b.toNat - 55)
  else if 97 ≤ b && b ≤ 102 then some (b.toNat - 87)
  else none

/-- The escape of a byte. -/
def escapeByte (b : UInt8) : Bytes :=
  if unreserved b then [b]
  else if b = space then [plus]
  else [percent, upperhex (b.toNat / 16), upperhex (b.toNat % 16)]

/-- `QueryEscape`. -/
def queryEscape (s : Bytes) : Bytes := s.flatMap escapeByte

/-- `QueryUnescape`, which fails at a percent sign without two digits after it. -/
def queryUnescape : Bytes → Option Bytes
  | [] => some []
  | b :: rest =>
      if b = percent then
        match rest with
        | x :: y :: more =>
            match unhex x, unhex y with
            | some h, some l => (queryUnescape more).map (UInt8.ofNat (h * 16 + l) :: ·)
            | _, _ => none
        | _ => none
      else (queryUnescape rest).map ((if b = plus then space else b) :: ·)

/-- The digits are read back. -/
theorem unhex_upperhex {n : Nat} (h : n < 16) : unhex (upperhex n) = some n := by
  have hall : ∀ n : Fin 16, unhex (upperhex n) = some n.val := by decide +kernel
  exact hall ⟨n, h⟩

/-- A byte that is neither an escape nor a plus sign stands for itself. -/
theorem queryUnescape_cons {b : UInt8} {rest : Bytes} (hpercent : b ≠ percent) (hplus : b ≠ plus) :
    queryUnescape (b :: rest) = (queryUnescape rest).map (b :: ·) := by
  rw [queryUnescape.eq_def]
  simp only [hpercent, if_false, hplus]

/-- The escape of a byte is read back. -/
theorem queryUnescape_escapeByte (b : UInt8) (rest : Bytes) :
    queryUnescape (escapeByte b ++ rest) = (queryUnescape rest).map (b :: ·) := by
  rw [escapeByte]
  split_ifs with hplain hspace
  · refine queryUnescape_cons ?_ ?_
    · rintro rfl
      revert hplain
      decide
    · rintro rfl
      revert hplain
      decide
  · subst hspace
    rw [List.cons_append, List.nil_append, queryUnescape.eq_def]
    rfl
  · have hb : b.toNat < 256 := b.toNat_lt
    have hdigits : b.toNat / 16 * 16 + b.toNat % 16 = b.toNat := by omega
    simp only [List.cons_append, List.nil_append]
    rw [queryUnescape.eq_def]
    simp only [if_true, unhex_upperhex (show b.toNat / 16 < 16 by omega),
      unhex_upperhex (show b.toNat % 16 < 16 by omega), hdigits, UInt8.ofNat_toNat]

/-- An escaped text is read back before whatever follows it. -/
theorem queryUnescape_queryEscape_append (s rest : Bytes) :
    queryUnescape (queryEscape s ++ rest) = (queryUnescape rest).map (s ++ ·) := by
  induction s with
  | nil => simp [queryEscape]
  | cons b s ih =>
      rw [queryEscape, List.flatMap_cons, List.append_assoc, queryUnescape_escapeByte,
        ← queryEscape, ih, Option.map_map]
      rfl

/-- **An escaped text is read back.** -/
theorem queryUnescape_queryEscape (s : Bytes) : queryUnescape (queryEscape s) = some s := by
  have h := queryUnescape_queryEscape_append s []
  rwa [List.append_nil, queryUnescape, Option.map_some, List.append_nil] at h

/-- The bytes of an escaped text. -/
def escaped (b : UInt8) : Bool := unreserved b || b = plus || b = percent

/-- An escaped text has no others. -/
theorem escaped_of_mem {b : UInt8} {s : Bytes} (h : b ∈ queryEscape s) : escaped b = true := by
  have hdigit : ∀ n : Fin 16, escaped (upperhex n) = true := by decide +kernel
  obtain ⟨c, -, hb⟩ := List.mem_flatMap.mp h
  have hc : c.toNat < 256 := c.toNat_lt
  rw [escapeByte] at hb
  split_ifs at hb with hplain hspace
  · obtain rfl := List.mem_singleton.mp hb
    simp [escaped, hplain]
  · obtain rfl := List.mem_singleton.mp hb
    rfl
  · simp only [List.mem_cons, List.not_mem_nil, or_false] at hb
    rcases hb with rfl | rfl | rfl
    · rfl
    · exact hdigit ⟨c.toNat / 16, by omega⟩
    · exact hdigit ⟨c.toNat % 16, by omega⟩

/-- A delimiter does not stand in an escaped text. -/
theorem notMem_queryEscape {sep : UInt8} (hsep : escaped sep = false) (s : Bytes) :
    sep ∉ queryEscape s :=
  fun h => Bool.false_ne_true (hsep.symm.trans (escaped_of_mem h))

/-- Two digits follow a percent sign in what is unescaped. -/
theorem digits_of_queryUnescape {rest v : Bytes} (h : queryUnescape (percent :: rest) = some v) :
    ∃ x y more n l, rest = x :: y :: more ∧ unhex x = some n ∧ unhex y = some l := by
  rw [queryUnescape.eq_def] at h
  simp only [if_true] at h
  split at h
  · next x y more =>
      split at h
      · next n l hx hy => exact ⟨x, y, more, n, l, rfl, hx, hy⟩
      · simp at h
  · simp at h

/-- A byte that is no digit ends the escape before it, so the texts on its sides are unescaped
one by one. -/
theorem queryUnescape_append_cons {d : UInt8} (hd : unhex d = none) (hpercent : d ≠ percent)
    (hplus : d ≠ plus) {a b v : Bytes} (h : queryUnescape (a ++ d :: b) = some v) :
    ∃ u w, queryUnescape a = some u ∧ queryUnescape b = some w ∧ v = u ++ d :: w := by
  fun_induction queryUnescape a generalizing v with
  | case1 =>
      rw [List.nil_append, queryUnescape_cons hpercent hplus] at h
      obtain ⟨w, hw, rfl⟩ := Option.map_eq_some_iff.mp h
      exact ⟨[], w, rfl, hw, rfl⟩
  | case2 x y more n l hx hy ih =>
      rw [List.cons_append, List.cons_append, List.cons_append, queryUnescape.eq_def] at h
      simp only [if_true, hx, hy] at h
      obtain ⟨v, hv, rfl⟩ := Option.map_eq_some_iff.mp h
      obtain ⟨u, w, hu, hw, rfl⟩ := ih hv
      exact ⟨_ :: u, w, by rw [hu, Option.map_some], hw, rfl⟩
  | case3 x y more hdigits =>
      obtain ⟨x', y', more', n, l, hrest, hx, hy⟩ := digits_of_queryUnescape h
      obtain ⟨rfl, rfl, -⟩ : x = x' ∧ y = y' ∧ more ++ d :: b = more' := by simpa using hrest
      exact (hdigits n l hx hy).elim
  | case4 rest hshort =>
      -- the escape is cut short by the byte, which is no digit
      obtain ⟨x, y, more, n, l, hrest, hx, hy⟩ := digits_of_queryUnescape h
      rcases rest with _ | ⟨z, _ | ⟨z', rest⟩⟩
      · obtain ⟨rfl, -⟩ : d = x ∧ b = y :: more := by simpa using hrest
        simp [hd] at hx
      · obtain ⟨-, rfl, -⟩ : z = x ∧ d = y ∧ b = more := by simpa using hrest
        simp [hd] at hy
      · exact (hshort z z' rest rfl).elim
  | case5 c rest hc ih =>
      rw [List.cons_append, queryUnescape.eq_def] at h
      simp only [hc, if_false] at h
      obtain ⟨v, hv, rfl⟩ := Option.map_eq_some_iff.mp h
      obtain ⟨u, w, hu, hw, rfl⟩ := ih hv
      exact ⟨_ :: u, w, by rw [hu, Option.map_some], hw, rfl⟩

/-! ### Parameters -/

/-- A parameter and its value. -/
abbrev Param := Bytes × Bytes

/-- A parameter in a query. -/
def encodePair (p : Param) : Bytes := queryEscape p.1 ++ equals :: queryEscape p.2

/-- `Values.Encode`, on parameters in the order of their names. -/
def encode : List Param → Bytes
  | [] => []
  | [p] => encodePair p
  | p :: ps => encodePair p ++ ampersand :: encode ps

/-- The parameter of a piece between two `&`. -/
def parsePair (piece : Bytes) : Option Param :=
  if semicolon ∈ piece ∨ piece = [] then none
  else
    (queryUnescape (before equals piece)).bind fun key =>
      (queryUnescape ((after equals piece).getD [])).map fun value => (key, value)

/-- `Query`: the parameters of the pieces that have one. -/
def parseQuery (query : Bytes) : List Param :=
  (query.splitOn ampersand).filterMap parsePair

section Parameters

variable {p : Param} {ps : List Param}

/-- An encoded parameter has no `&`, `;`, `#` or `?`. -/
theorem notMem_encodePair {sep : UInt8} (hsep : escaped sep = false) (hne : sep ≠ equals) :
    sep ∉ encodePair p := by
  simp only [encodePair, List.mem_append, List.mem_cons, not_or]
  exact ⟨notMem_queryEscape hsep _, hne, notMem_queryEscape hsep _⟩

/-- Encoded parameters have no `;`, `#` or `?`. -/
theorem notMem_encode {sep : UInt8} (hsep : escaped sep = false) (hne : sep ≠ equals)
    (hamp : sep ≠ ampersand) : sep ∉ encode ps := by
  fun_induction encode ps with
  | case1 => simp
  | case2 p => exact notMem_encodePair hsep hne
  | case3 p ps hps ih =>
      simp only [List.mem_append, List.mem_cons, not_or]
      exact ⟨notMem_encodePair hsep hne, hamp, ih⟩

/-- An encoded parameter is read back. -/
theorem parsePair_encodePair (p : Param) : parsePair (encodePair p) = some p := by
  have hsemicolon : semicolon ∉ encodePair p := notMem_encodePair (by decide) (by decide)
  have hname : equals ∉ queryEscape p.1 := notMem_queryEscape (by decide) _
  have hnonempty : encodePair p ≠ [] := by simp [encodePair]
  rw [parsePair, if_neg (not_or.mpr ⟨hsemicolon, hnonempty⟩), encodePair, before_append hname,
    after_append hname, Option.getD_some, queryUnescape_queryEscape, queryUnescape_queryEscape]
  rfl

/-- The pieces of encoded parameters. -/
theorem splitOn_encode_cons (p : Param) (ps : List Param) :
    (encode (p :: ps)).splitOn ampersand = (p :: ps).map encodePair := by
  have hpiece : ∀ p, ampersand ∉ encodePair p :=
    fun p => notMem_encodePair (by decide) (by decide)
  induction ps generalizing p with
  | nil => exact List.splitOn_eq_singleton (hpiece p)
  | cons q ps ih =>
      rw [encode, List.splitOn_append_cons_self, ih, List.splitOn_eq_singleton (hpiece p)]
      · rfl
      · simp

/-- **Encoded parameters are read back.** -/
theorem parseQuery_encode (ps : List Param) : parseQuery (encode ps) = ps := by
  cases ps with
  | nil => rfl
  | cons p ps =>
      rw [parseQuery, splitOn_encode_cons, List.filterMap_map]
      simp [parsePair_encodePair]

/-- The last piece of a query takes up what is put after it. -/
theorem splitOn_append_of_notMem {q t : Bytes} (ht : ampersand ∉ t) :
    ∃ init last, q.splitOn ampersand = init ++ [last] ∧
      (q ++ t).splitOn ampersand = init ++ [last ++ t] := by
  induction q with
  | nil => exact ⟨[], [], rfl, List.splitOn_eq_singleton ht⟩
  | cons b q ih =>
      obtain ⟨init, last, hq, hqt⟩ := ih
      rw [List.cons_append, List.splitOn_cons_eq_if_modifyHead,
        List.splitOn_cons_eq_if_modifyHead, hq, hqt]
      split_ifs
      · exact ⟨[] :: init, last, rfl, rfl⟩
      · cases init with
        | nil => exact ⟨[], b :: last, rfl, rfl⟩
        | cons piece init => exact ⟨(b :: piece) :: init, last, rfl, rfl⟩

/-- A piece that takes up a `?` and a parameter loses that parameter: its name becomes part of a
name, or all of it part of a value. -/
theorem parsePair_append {piece : Bytes} {p r : Param}
    (h : parsePair (piece ++ question :: encodePair p) = some r) :
    (∃ u, r = (u ++ question :: p.1, p.2)) ∨
      ∃ key u, r = (key, u ++ question :: (p.1 ++ equals :: p.2)) := by
  have hname : equals ∉ queryEscape p.1 := notMem_queryEscape (by decide) _
  have hquestion : unhex question = none := rfl
  have hvalue : queryUnescape (encodePair p) = some (p.1 ++ equals :: p.2) := by
    rw [encodePair, queryUnescape_queryEscape_append,
      queryUnescape_cons (by decide) (by decide), queryUnescape_queryEscape]
    rfl
  rw [parsePair] at h
  split_ifs at h
  by_cases hequals : equals ∈ piece
  · -- the value of the piece goes on
    obtain ⟨a, b, rfl, ha⟩ := List.eq_append_cons_of_mem hequals
    rw [List.append_assoc, List.cons_append, before_append ha, after_append ha,
      Option.getD_some] at h
    obtain ⟨key, hkey, h⟩ := Option.bind_eq_some_iff.mp h
    obtain ⟨value, hval, rfl⟩ := Option.map_eq_some_iff.mp h
    obtain ⟨u, w, -, hw, rfl⟩ :=
      queryUnescape_append_cons hquestion (by decide) (by decide) hval
    rw [hvalue, Option.some.injEq] at hw
    exact Or.inr ⟨key, u, by rw [hw]⟩
  · -- the name of the piece goes on up to the sign of the parameter
    have hfront : equals ∉ piece ++ question :: queryEscape p.1 := by
      simp only [List.mem_append, List.mem_cons, not_or]
      exact ⟨hequals, by decide, hname⟩
    have hpiece : piece ++ question :: encodePair p =
        (piece ++ question :: queryEscape p.1) ++ equals :: queryEscape p.2 := by
      simp [encodePair]
    rw [hpiece, before_append hfront, after_append hfront, Option.getD_some,
      queryUnescape_queryEscape] at h
    obtain ⟨key, hkey, h⟩ := Option.bind_eq_some_iff.mp h
    obtain ⟨u, w, -, hw, rfl⟩ :=
      queryUnescape_append_cons hquestion (by decide) (by decide) hkey
    rw [queryUnescape_queryEscape, Option.some.injEq] at hw
    exact Or.inl ⟨u, by simpa [hw] using h.symm⟩

/-- **A query after a query**: put after a `?`, encoded parameters are read back but for the
first, which the last piece of the query takes up. -/
theorem mem_parseQuery_append {q : Bytes} {p r : Param}
    (h : r ∈ parseQuery (q ++ question :: encode (p :: ps))) :
    r ∈ parseQuery q ∨ r ∈ ps ∨ (∃ u, r = (u ++ question :: p.1, p.2)) ∨
      ∃ key u, r = (key, u ++ question :: (p.1 ++ equals :: p.2)) := by
  have hfirst : ampersand ∉ question :: encodePair p := by
    rw [List.mem_cons, not_or]
    exact ⟨by decide, notMem_encodePair (by decide) (by decide)⟩
  obtain ⟨init, last, hq, hqt⟩ := splitOn_append_of_notMem (q := q) hfirst
  have hpieces : (q ++ question :: encode (p :: ps)).splitOn ampersand =
      init ++ (last ++ question :: encodePair p) :: ps.map encodePair := by
    cases ps with
    | nil => simpa [encode] using hqt
    | cons p' ps =>
        have htext : q ++ question :: encode (p :: p' :: ps) =
            (q ++ question :: encodePair p) ++ ampersand :: encode (p' :: ps) := by
          simp [encode]
        rw [htext, List.splitOn_append_cons_self, hqt, splitOn_encode_cons]
        simp
  rw [parseQuery, hpieces] at h
  obtain ⟨piece, hpiece, hr⟩ := List.mem_filterMap.mp h
  simp only [List.mem_append, List.mem_cons, List.mem_map] at hpiece
  rcases hpiece with hinit | rfl | ⟨p', hp', rfl⟩
  · exact Or.inl (List.mem_filterMap.mpr ⟨piece, by simp [hq, hinit], hr⟩)
  · exact Or.inr (Or.inr (parsePair_append hr))
  · rw [parsePair_encodePair, Option.some.injEq] at hr
    exact Or.inr (Or.inl (hr ▸ hp'))

end Parameters

/-! ### URLs -/

/-- The components of a URL reference. -/
structure Url where
  scheme : Option Bytes
  authority : Option Bytes
  path : Bytes
  query : Option Bytes
  fragment : Option Bytes
  deriving DecidableEq, Repr

/-- The scheme, and what follows it: it is not empty and stands before any slash. -/
def splitScheme (s : Bytes) : Option Bytes × Bytes :=
  match after colon s with
  | some rest =>
      if before colon s ≠ [] ∧ slash ∉ before colon s then (some (before colon s), rest)
      else (none, s)
  | none => (none, s)

/-- The authority after two slashes, and the path. -/
def splitAuthority (s : Bytes) : Option Bytes × Bytes :=
  if [slash, slash].isPrefixOf s then
    (some (before slash (s.drop 2)), (s.drop 2).dropWhile (· ≠ slash))
  else (none, s)

/-- The components of a text. -/
def parse (s : Bytes) : Url :=
  let reference := before hash s
  let hierarchy := splitScheme (before question reference)
  let location := splitAuthority hierarchy.2
  { scheme := hierarchy.1
    authority := location.1
    path := location.2
    query := after question reference
    fragment := after hash s }

/-- The query parameters of a URL. -/
def Url.params (u : Url) : List Param := parseQuery (u.query.getD [])

/-- `Get`: the first value of a parameter. -/
def Url.get (u : Url) (key : Bytes) : Option Bytes :=
  (u.params.find? fun p => p.1 = key).map (·.2)

section Url

variable {s t : Bytes}

/-- The value of a parameter stands in the query. -/
theorem Url.mem_params_of_get {u : Url} {key value : Bytes} (h : u.get key = some value) :
    (key, value) ∈ u.params := by
  obtain ⟨p, hfind, rfl⟩ := Option.map_eq_some_iff.mp h
  obtain rfl : p.1 = key := by simpa using List.find?_some hfind
  exact List.mem_of_find?_eq_some hfind

/-- A URL without query and fragment has no parameters. -/
theorem params_parse_of_notMem (hquestion : question ∉ s) (hhash : hash ∉ s) :
    (parse s).params = [] := by
  rw [Url.params, parse, before_of_notMem hhash, after_of_notMem hquestion]
  rfl

/-- **A query on a URL** that has neither query nor fragment. -/
theorem parse_append_query (hquestion : question ∉ s) (hhash : hash ∉ s) (ht : hash ∉ t) :
    parse (s ++ question :: t) = { parse s with query := some t } := by
  have htext : hash ∉ s ++ question :: t := by
    simp only [List.mem_append, List.mem_cons, not_or]
    exact ⟨hhash, by decide, ht⟩
  simp only [parse, before_of_notMem htext, before_of_notMem hhash, before_append hquestion,
    before_of_notMem hquestion, after_append hquestion, after_of_notMem htext,
    after_of_notMem hhash]

/-- What is put after a fragment stays in it. -/
theorem params_append_of_hash (hhash : hash ∈ s) : (parse (s ++ t)).params = (parse s).params := by
  obtain ⟨a, b, rfl, ha⟩ := List.eq_append_cons_of_mem hhash
  simp only [Url.params, parse, List.append_assoc, List.cons_append, before_append ha]

/-- What is put after a question mark goes into the query. -/
theorem query_append_of_question (hquestion : question ∈ s) (hhash : hash ∉ s) (ht : hash ∉ t) :
    ∃ q, (parse s).query = some q ∧ (parse (s ++ t)).query = some (q ++ t) := by
  have htext : hash ∉ s ++ t := by
    rw [List.mem_append, not_or]
    exact ⟨hhash, ht⟩
  obtain ⟨a, b, rfl, ha⟩ := List.eq_append_cons_of_mem hquestion
  refine ⟨b, ?_, ?_⟩
  · simp only [parse, before_of_notMem hhash, after_append ha]
  · simp only [parse, before_of_notMem htext]
    rw [List.append_assoc, List.cons_append, after_append ha]

/-- **Parameters on a URL that cannot take them**: put after a `?` onto a URL with a query or a
fragment, they are not there but for those after the first. -/
theorem mem_params_append {p r : Param} {ps : List Param} (hs : question ∈ s ∨ hash ∈ s)
    (h : r ∈ (parse (s ++ question :: encode (p :: ps))).params) :
    r ∈ (parse s).params ∨ r ∈ ps ∨ (∃ u, r = (u ++ question :: p.1, p.2)) ∨
      ∃ key u, r = (key, u ++ question :: (p.1 ++ equals :: p.2)) := by
  by_cases hhash : hash ∈ s
  · rw [params_append_of_hash hhash] at h
    exact Or.inl h
  · have ht : hash ∉ question :: encode (p :: ps) := by
      rw [List.mem_cons, not_or]
      exact ⟨by decide, notMem_encode (by decide) (by decide) (by decide)⟩
    obtain ⟨q, hq, hqt⟩ := query_append_of_question (hs.resolve_right hhash) hhash ht
    rw [Url.params, hqt, Option.getD_some] at h
    rw [Url.params, hq, Option.getD_some]
    exact mem_parseQuery_append h

end Url

end UrlQuery
