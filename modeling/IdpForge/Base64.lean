import Mathlib.Data.List.Basic

/-!
# Base64

The standard encoding of bytes with padding, and a decoder. The decoder does not mind bits left
over in the last group, and takes no line breaks.

## Main results

* `decode_encode`: decoding inverts encoding.
-/

namespace Base64

/-- The alphabet of the standard encoding. -/
def alphabet : List Char :=
  "ABCDEFGHIJKLMNOPQRSTUVWXYZabcdefghijklmnopqrstuvwxyz0123456789+/".toList

/-- The character that pads the last group. -/
def padding : Char := '='

/-- The character of a number below 64. -/
def digit (n : Nat) : Char := alphabet.getD n padding

/-- The number of a character of the alphabet. -/
def value (c : Char) : Option Nat := alphabet.idxOf? c

/-- Four characters for every three bytes, the last group padded. -/
def encode : List UInt8 → List Char
  | [] => []
  | [a] => [digit (a.toNat / 4), digit (a.toNat % 4 * 16), padding, padding]
  | [a, b] =>
      [digit (a.toNat / 4), digit (a.toNat % 4 * 16 + b.toNat / 16), digit (b.toNat % 16 * 4),
        padding]
  | a :: b :: c :: rest =>
      digit (a.toNat / 4) :: digit (a.toNat % 4 * 16 + b.toNat / 16) ::
        digit (b.toNat % 16 * 4 + c.toNat / 64) :: digit (c.toNat % 64) :: encode rest

/-- The byte of two characters. -/
def first (w x : Nat) : UInt8 := UInt8.ofNat (w * 4 + x / 16)

/-- The second byte of a group. -/
def second (x y : Nat) : UInt8 := UInt8.ofNat (x % 16 * 16 + y / 4)

/-- The third byte of a group. -/
def third (y z : Nat) : UInt8 := UInt8.ofNat (y % 4 * 64 + z)

/-- Three bytes for every four characters, and one or two for a padded group at the end. -/
def decode : List Char → Option (List UInt8)
  | [] => some []
  | w :: x :: y :: z :: rest =>
      if z = padding then
        if rest ≠ [] then none
        else if y = padding then
          (value w).bind fun w => (value x).map fun x => [first w x]
        else
          (value w).bind fun w => (value x).bind fun x => (value y).map fun y =>
            [first w x, second x y]
      else
        (value w).bind fun w => (value x).bind fun x => (value y).bind fun y =>
          (value z).bind fun z => (decode rest).map fun more =>
            first w x :: second x y :: third y z :: more
  | _ => none

/-- The characters of the alphabet have their numbers. -/
theorem value_digit {n : Nat} (h : n < 64) : value (digit n) = some n := by
  have hall : ∀ n : Fin 64, value (digit n) = some n.val := by decide +kernel
  exact hall ⟨n, h⟩

/-- No number has the padding. -/
theorem digit_ne_padding {n : Nat} (h : n < 64) : digit n ≠ padding := by
  have hall : ∀ n : Fin 64, digit n ≠ padding := by decide +kernel
  exact hall ⟨n, h⟩

/-- The first byte of a group is put together again. -/
theorem first_eq {a : UInt8} {k : Nat} (hk : k < 16) :
    first (a.toNat / 4) (a.toNat % 4 * 16 + k) = a := by
  have hbyte : a.toNat / 4 * 4 + (a.toNat % 4 * 16 + k) / 16 = a.toNat := by omega
  rw [first, hbyte, UInt8.ofNat_toNat]

/-- The second byte of a group is put together again. -/
theorem second_eq {b : UInt8} {j k : Nat} (hk : k < 4) :
    second (j * 16 + b.toNat / 16) (b.toNat % 16 * 4 + k) = b := by
  have hb : b.toNat < 256 := b.toNat_lt
  have hbyte : (j * 16 + b.toNat / 16) % 16 * 16 + (b.toNat % 16 * 4 + k) / 4 = b.toNat := by
    omega
  rw [second, hbyte, UInt8.ofNat_toNat]

/-- The third byte of a group is put together again. -/
theorem third_eq {c : UInt8} {j : Nat} : third (j * 4 + c.toNat / 64) (c.toNat % 64) = c := by
  have hc : c.toNat < 256 := c.toNat_lt
  have hbyte : (j * 4 + c.toNat / 64) % 4 * 64 + c.toNat % 64 = c.toNat := by omega
  rw [third, hbyte, UInt8.ofNat_toNat]

/-- **The round trip.** -/
theorem decode_encode (bytes : List UInt8) : decode (encode bytes) = some bytes := by
  fun_induction encode bytes with
  | case1 => rfl
  | case2 a =>
      have ha : a.toNat < 256 := a.toNat_lt
      have hfirst : first (a.toNat / 4) (a.toNat % 4 * 16) = a :=
        first_eq (show 0 < 16 by decide)
      rw [decode, if_pos rfl, if_neg (by simp), if_pos rfl, value_digit (by omega),
        value_digit (by omega)]
      simp [hfirst]
  | case3 a b =>
      have ha : a.toNat < 256 := a.toNat_lt
      have hb : b.toNat < 256 := b.toNat_lt
      have hsecond : second (a.toNat % 4 * 16 + b.toNat / 16) (b.toNat % 16 * 4) = b :=
        second_eq (show 0 < 4 by decide)
      rw [decode, if_pos rfl, if_neg (by simp), if_neg (digit_ne_padding (by omega)),
        value_digit (by omega), value_digit (by omega), value_digit (by omega)]
      simp [first_eq (show b.toNat / 16 < 16 by omega), hsecond]
  | case4 a b c rest ih =>
      have ha : a.toNat < 256 := a.toNat_lt
      have hb : b.toNat < 256 := b.toNat_lt
      have hc : c.toNat < 256 := c.toNat_lt
      rw [decode, if_neg (digit_ne_padding (by omega)), value_digit (by omega),
        value_digit (by omega), value_digit (by omega), value_digit (by omega), ih]
      simp [first_eq (show b.toNat / 16 < 16 by omega),
        second_eq (show c.toNat / 64 < 4 by omega), third_eq]

end Base64
