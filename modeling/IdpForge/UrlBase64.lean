import Mathlib.Data.Nat.Digits.Defs
import IdpForge.Base64

/-!
# Base64 Without Padding, in Two Alphabets

Groups of six bits written in any alphabet of 64 characters, the last group without padding. In
the alphabet that is safe in URLs this is Go's `base64.RawURLEncoding`. The browser has the
standard encoding only, `btoa` and `atob`, from which the other one is made by replacing two
characters and by taking the padding off or putting it back. Numbers are bytes with the most
significant one first.

## Main results

* `ungroup_group`: an alphabet that can be read is read back.
* `ungroup_map`: texts in two alphabets are read as the same bytes.
* `encode_eq`: the standard encoding is the one without padding and what it lacks to a multiple
  of four.
* `bytesNat_natBytes`: a number is read back from its bytes.
-/

namespace UrlBase64

/-! ### Any alphabet -/

section Groups

variable (digit : Nat → Char) (value : Char → Option Nat)

/-- Four characters for every three bytes, two or three for the bytes left over. -/
def group : List UInt8 → List Char
  | [] => []
  | [a] => [digit (a.toNat / 4), digit (a.toNat % 4 * 16)]
  | [a, b] =>
      [digit (a.toNat / 4), digit (a.toNat % 4 * 16 + b.toNat / 16), digit (b.toNat % 16 * 4)]
  | a :: b :: c :: rest =>
      digit (a.toNat / 4) :: digit (a.toNat % 4 * 16 + b.toNat / 16) ::
        digit (b.toNat % 16 * 4 + c.toNat / 64) :: digit (c.toNat % 64) :: group rest

/-- The bytes of a text; a single character at the end is none. Bits left over are ignored. -/
def ungroup : List Char → Option (List UInt8)
  | [] => some []
  | [_] => none
  | [w, x] => (value w).bind fun w => (value x).map fun x => [Base64.first w x]
  | [w, x, y] =>
      (value w).bind fun w => (value x).bind fun x => (value y).map fun y =>
        [Base64.first w x, Base64.second x y]
  | w :: x :: y :: z :: rest =>
      (value w).bind fun w => (value x).bind fun x => (value y).bind fun y =>
        (value z).bind fun z => (ungroup rest).map fun more =>
          Base64.first w x :: Base64.second x y :: Base64.third y z :: more

variable {digit value}

/-- **The round trip** in an alphabet that can be read. -/
theorem ungroup_group (h : ∀ n < 64, value (digit n) = some n) (bytes : List UInt8) :
    ungroup value (group digit bytes) = some bytes := by
  fun_induction group digit bytes with
  | case1 => rfl
  | case2 a =>
      have ha : a.toNat < 256 := a.toNat_lt
      have hfirst : Base64.first (a.toNat / 4) (a.toNat % 4 * 16) = a :=
        Base64.first_eq (show 0 < 16 by decide)
      rw [ungroup, h _ (by omega), h _ (by omega)]
      simp [hfirst]
  | case3 a b =>
      have ha : a.toNat < 256 := a.toNat_lt
      have hb : b.toNat < 256 := b.toNat_lt
      have hsecond :
          Base64.second (a.toNat % 4 * 16 + b.toNat / 16) (b.toNat % 16 * 4) = b :=
        Base64.second_eq (show 0 < 4 by decide)
      rw [ungroup, h _ (by omega), h _ (by omega), h _ (by omega)]
      simp [Base64.first_eq (show b.toNat / 16 < 16 by omega), hsecond]
  | case4 a b c rest ih =>
      have ha : a.toNat < 256 := a.toNat_lt
      have hb : b.toNat < 256 := b.toNat_lt
      have hc : c.toNat < 256 := c.toNat_lt
      rw [ungroup, h _ (by omega), h _ (by omega), h _ (by omega), h _ (by omega), ih]
      simp [Base64.first_eq (show b.toNat / 16 < 16 by omega),
        Base64.second_eq (show c.toNat / 64 < 4 by omega), Base64.third_eq]

/-- The characters of a text are digits. -/
theorem mem_group {bytes : List UInt8} {c : Char} (h : c ∈ group digit bytes) :
    ∃ n < 64, c = digit n := by
  fun_induction group digit bytes with
  | case1 => simp at h
  | case2 a =>
      have ha : a.toNat < 256 := a.toNat_lt
      rcases List.mem_pair.mp h with rfl | rfl
      · exact ⟨_, by omega, rfl⟩
      · exact ⟨_, by omega, rfl⟩
  | case3 a b =>
      have ha : a.toNat < 256 := a.toNat_lt
      have hb : b.toNat < 256 := b.toNat_lt
      simp only [List.mem_cons, List.not_mem_nil, or_false] at h
      rcases h with rfl | rfl | rfl
      · exact ⟨_, by omega, rfl⟩
      · exact ⟨_, by omega, rfl⟩
      · exact ⟨_, by omega, rfl⟩
  | case4 a b c rest ih =>
      have ha : a.toNat < 256 := a.toNat_lt
      have hb : b.toNat < 256 := b.toNat_lt
      have hc : c.toNat < 256 := c.toNat_lt
      simp only [List.mem_cons] at h
      rcases h with rfl | rfl | rfl | rfl | h
      · exact ⟨_, by omega, rfl⟩
      · exact ⟨_, by omega, rfl⟩
      · exact ⟨_, by omega, rfl⟩
      · exact ⟨_, by omega, rfl⟩
      · exact ih h

/-- Another alphabet gives the same text in other characters. -/
theorem map_group {f : Char → Char} {digit' : Nat → Char}
    (h : ∀ n < 64, f (digit n) = digit' n) (bytes : List UInt8) :
    (group digit bytes).map f = group digit' bytes := by
  fun_induction group digit bytes with
  | case1 => rfl
  | case2 a =>
      have ha : a.toNat < 256 := a.toNat_lt
      simp only [List.map_cons, List.map_nil, group]
      rw [h _ (by omega), h _ (by omega)]
  | case3 a b =>
      have ha : a.toNat < 256 := a.toNat_lt
      have hb : b.toNat < 256 := b.toNat_lt
      simp only [List.map_cons, List.map_nil, group]
      rw [h _ (by omega), h _ (by omega), h _ (by omega)]
  | case4 a b c rest ih =>
      have ha : a.toNat < 256 := a.toNat_lt
      have hb : b.toNat < 256 := b.toNat_lt
      have hc : c.toNat < 256 := c.toNat_lt
      simp only [List.map_cons, group]
      rw [h _ (by omega), h _ (by omega), h _ (by omega), h _ (by omega), ih]

/-- Characters with the same numbers are read as the same bytes. -/
theorem ungroup_map {value' : Char → Option Nat} {f : Char → Char} {text : List Char}
    (h : ∀ c ∈ text, value (f c) = value' c) :
    ungroup value (text.map f) = ungroup value' text := by
  fun_induction ungroup value' text with
  | case1 => rfl
  | case2 w => rfl
  | case3 w x =>
      simp only [List.map_cons, List.map_nil, ungroup]
      rw [h w (by simp), h x (by simp)]
  | case4 w x y =>
      simp only [List.map_cons, List.map_nil, ungroup]
      rw [h w (by simp), h x (by simp), h y (by simp)]
  | case5 w x y z rest ih =>
      simp only [List.map_cons, ungroup]
      rw [h w (by simp), h x (by simp), h y (by simp), h z (by simp),
        ih fun c hc => h c (by simp [hc])]

/-- A text with a character that has no number is not read. -/
theorem ungroup_append_eq_none {c : Char} (hc : value c = none)
    {text : List Char} (h : text.length % 4 ≠ 0) :
    ungroup value (text ++ [c]) = none := by
  fun_induction ungroup value text with
  | case1 => simp at h
  | case2 w => cases hw : value w <;> simp [ungroup, hc]
  | case3 w x => cases hw : value w <;> cases hx : value x <;> simp [ungroup, hc]
  | case4 w x y =>
      cases hw : value w <;> cases hx : value x <;> cases hy : value y <;> simp [ungroup, hc]
  | case5 w x y z rest ih =>
      have hrest : rest.length % 4 ≠ 0 := by
        simp only [List.length_cons] at h
        omega
      simp only [List.cons_append, ungroup, ih hrest]
      cases value w <;> cases value x <;> cases value y <;> cases value z <;> rfl

/-- A text whose last group has one character is not read. -/
theorem ungroup_eq_none {text : List Char}
    (h : text.length % 4 = 1) : ungroup value text = none := by
  fun_induction ungroup value text with
  | case1 => simp at h
  | case2 w => rfl
  | case3 w x => simp at h
  | case4 w x y => simp at h
  | case5 w x y z rest ih =>
      rw [ih (by simp only [List.length_cons] at h; omega)]
      cases value w <;> cases value x <;> cases value y <;> cases value z <;> rfl

end Groups

/-! ### The standard alphabet and the one for URLs -/

/-- The replacements of `bufferToBase64url`, on one character. -/
def toUrl (c : Char) : Char := if c = '+' then '-' else if c = '/' then '_' else c

/-- The replacements of `base64urlToBuffer`, on one character. -/
def ofUrl (c : Char) : Char := if c = '-' then '+' else if c = '_' then '/' else c

/-- The alphabet of `base64.RawURLEncoding`. -/
def urlAlphabet : List Char :=
  "ABCDEFGHIJKLMNOPQRSTUVWXYZabcdefghijklmnopqrstuvwxyz0123456789-_".toList

/-- The character of a number below 64. -/
def urlDigit (n : Nat) : Char := urlAlphabet.getD n Base64.padding

/-- The number of a character of the alphabet. -/
def urlValue (c : Char) : Option Nat := urlAlphabet.idxOf? c

/-- `base64.RawURLEncoding.EncodeToString`. -/
def rawURLEncode (bytes : List UInt8) : String := String.ofList (group urlDigit bytes)

/-- `base64.RawURLEncoding.DecodeString`, which does not mind line breaks. -/
def rawURLDecode (s : String) : Option (List UInt8) :=
  ungroup urlValue (s.toList.filter fun c => c ≠ '\r' ∧ c ≠ '\n')

/-- The characters of the alphabet have their numbers. -/
theorem urlValue_urlDigit : ∀ n < 64, urlValue (urlDigit n) = some n := by
  have hall : ∀ n : Fin 64, urlValue (urlDigit n) = some n.val := by decide +kernel
  exact fun n h => hall ⟨n, h⟩

/-- The digits for URLs are the standard ones with two replaced. -/
theorem urlDigit_eq {n : Nat} (h : n < 64) :
    urlDigit n = toUrl (Base64.digit n) ∧ ofUrl (urlDigit n) = Base64.digit n ∧
      urlDigit n ≠ '\r' ∧ urlDigit n ≠ '\n' := by
  have hall : ∀ n : Fin 64, urlDigit n = toUrl (Base64.digit n) ∧
      ofUrl (urlDigit n) = Base64.digit n ∧ urlDigit n ≠ '\r' ∧ urlDigit n ≠ '\n' := by
    decide +kernel
  exact hall ⟨n, h⟩

/-- What Go encodes, Go decodes. -/
theorem rawURLDecode_rawURLEncode (bytes : List UInt8) :
    rawURLDecode (rawURLEncode bytes) = some bytes := by
  have hkept : ∀ c ∈ group urlDigit bytes, decide (c ≠ '\r' ∧ c ≠ '\n') = true := by
    intro c hc
    obtain ⟨n, hn, rfl⟩ := mem_group hc
    simpa using (urlDigit_eq hn).2.2
  rw [rawURLDecode, rawURLEncode, String.toList_ofList, List.filter_eq_self.mpr hkept]
  exact ungroup_group urlValue_urlDigit bytes

/-- Different bytes are encoded differently. -/
theorem rawURLEncode_injective : Function.Injective rawURLEncode := by
  intro a b h
  have hdecoded := congrArg rawURLDecode h
  rw [rawURLDecode_rawURLEncode, rawURLDecode_rawURLEncode] at hdecoded
  exact Option.some.inj hdecoded

/-- **The standard encoding** is the one without padding, padded. -/
theorem encode_eq (bytes : List UInt8) :
    Base64.encode bytes = group Base64.digit bytes ++
      List.replicate ((3 - bytes.length % 3) % 3) Base64.padding := by
  fun_induction Base64.encode bytes with
  | case1 => rfl
  | case2 a => rfl
  | case3 a b => rfl
  | case4 a b c rest ih =>
      have hleft : (rest.length + 3) % 3 = rest.length % 3 := by omega
      simp only [List.length_cons, hleft, group, List.cons_append, ih]

/-! ### Numbers -/

/-- `big.Int.Bytes`: the bytes of a number, without leading zeros. -/
def natBytes (n : Nat) : List UInt8 := (Nat.digits 256 n).reverse.map UInt8.ofNat

/-- The number of bytes that come with the most significant one first. -/
def bytesNat (bytes : List UInt8) : Nat :=
  bytes.foldl (fun n b => n * 256 + b.toNat) 0

/-- The number of digits, the least significant one last. -/
theorem foldl_reverse_digits (ds : List Nat) (h : ∀ d ∈ ds, d < 256) :
    (ds.reverse.map UInt8.ofNat).foldl (fun n b => n * 256 + b.toNat) 0 =
      Nat.ofDigits 256 ds := by
  induction ds with
  | nil => rfl
  | cons d ds ih =>
      rw [List.forall_mem_cons] at h
      have hd : (UInt8.ofNat d).toNat = d := UInt8.toNat_ofNat_of_lt h.1
      rw [List.reverse_cons, List.map_append, List.foldl_append, ih h.2, Nat.ofDigits_cons]
      simp only [List.map_cons, List.map_nil, List.foldl_cons, List.foldl_nil, hd]
      omega

/-- **A number is read back** from its bytes. -/
theorem bytesNat_natBytes (n : Nat) : bytesNat (natBytes n) = n := by
  rw [bytesNat, natBytes, foldl_reverse_digits _ fun d hd => Nat.digits_lt_base (by decide) hd,
    Nat.ofDigits_digits]

end UrlBase64
