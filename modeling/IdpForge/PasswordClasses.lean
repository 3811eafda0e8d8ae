import Mathlib
import IdpForge.Users

/-!
# The Password Policy, by Classes

`ValidatePassword` walks through a password once and notes for each character the first class of
its switch that the character is in. Whether a class occurs at all is another question, which has
the same answer when no character is in two classes. The length it looks at is that of the bytes,
and `SetPassword` hashes what it is given, if bcrypt does.

## Main results

* `scan_eq`: the flags at the end of the loop.
* `validatePassword_eq_ok_iff`: what the policy accepts.
* `password_policy_iff`: when that is what the policy says, and can be hashed.
-/

namespace IdpForge

/-- The flags of the loop. -/
structure SeenClasses where
  hasUpper : Bool
  hasLower : Bool
  hasNumber : Bool
  hasSpecial : Bool
  deriving DecidableEq, Repr

/-- No character is in two classes. The classes of the `unicode` package are general categories,
and the special characters are punctuation and symbols. -/
structure UnicodeClasses.Exclusive (unicode : UnicodeClasses) : Prop where
  lower : ∀ c, unicode.isLower c = true → unicode.isUpper c = false
  number : ∀ c, unicode.isNumber c = true →
    unicode.isUpper c = false ∧ unicode.isLower c = false
  special : ∀ c ∈ specialCharacters.toList,
    unicode.isUpper c = false ∧ unicode.isLower c = false ∧ unicode.isNumber c = false

variable (unicode : UnicodeClasses)

/-- One round of the loop. -/
def SeenClasses.note (seen : SeenClasses) (r : Char) : SeenClasses :=
  if unicode.isUpper r then { seen with hasUpper := true }
  else if unicode.isLower r then { seen with hasLower := true }
  else if unicode.isNumber r then { seen with hasNumber := true }
  else if specialCharacters.toList.contains r then { seen with hasSpecial := true }
  else seen

/-- The loop. -/
def scanClasses (cs : List Char) : SeenClasses :=
  cs.foldl (SeenClasses.note unicode) ⟨false, false, false, false⟩

/-- The flags after a loop that starts with some of them set. -/
theorem foldl_note (cs : List Char) (seen : SeenClasses) :
    cs.foldl (SeenClasses.note unicode) seen =
      { hasUpper := seen.hasUpper || cs.any unicode.isUpper
        hasLower := seen.hasLower || cs.any fun c => !unicode.isUpper c && unicode.isLower c
        hasNumber := seen.hasNumber ||
          cs.any fun c => !unicode.isUpper c && !unicode.isLower c && unicode.isNumber c
        hasSpecial := seen.hasSpecial || cs.any fun c =>
          !unicode.isUpper c && !unicode.isLower c && !unicode.isNumber c &&
            specialCharacters.toList.contains c } := by
  induction cs generalizing seen with
  | nil => simp
  | cons c cs ih =>
      rw [List.foldl_cons, ih, SeenClasses.note]
      split_ifs <;> simp_all

/-- The classes that occur in a password. -/
def occurringClasses (cs : List Char) : SeenClasses where
  hasUpper := cs.any unicode.isUpper
  hasLower := cs.any unicode.isLower
  hasNumber := cs.any unicode.isNumber
  hasSpecial := cs.any specialCharacters.toList.contains

/-- The flags at the end of the loop are those of the classes that occur. -/
theorem scan_eq (hexcl : unicode.Exclusive) (cs : List Char) :
    scanClasses unicode cs = occurringClasses unicode cs := by
  have hlower : ∀ c, (!unicode.isUpper c && unicode.isLower c) = unicode.isLower c := by
    intro c
    rw [Bool.and_eq_right_iff_imp, Bool.not_eq_true']
    exact hexcl.lower c
  have hnumber : ∀ c, (!unicode.isUpper c && !unicode.isLower c && unicode.isNumber c) =
      unicode.isNumber c := by
    intro c
    rw [Bool.and_eq_right_iff_imp, Bool.and_eq_true, Bool.not_eq_true', Bool.not_eq_true']
    exact hexcl.number c
  have hspecial : ∀ c, (!unicode.isUpper c && !unicode.isLower c && !unicode.isNumber c &&
      specialCharacters.toList.contains c) = specialCharacters.toList.contains c := by
    intro c
    rw [Bool.and_eq_right_iff_imp, Bool.and_eq_true, Bool.and_eq_true, Bool.not_eq_true',
      Bool.not_eq_true', Bool.not_eq_true', and_assoc]
    exact fun h => hexcl.special c (List.contains_iff_mem.mp h)
  rw [scanClasses, foldl_note]
  simp only [Bool.false_or, hlower, hnumber, hspecial]
  rfl

/-- What follows the loop. -/
def checkClasses (policy : PasswordPolicy) (seen : SeenClasses) : Except String Unit :=
  if policy.requireUppercase && !seen.hasUpper then
    .error "password must contain at least one uppercase letter"
  else if policy.requireLowercase && !seen.hasLower then
    .error "password must contain at least one lowercase letter"
  else if policy.requireNumber && !seen.hasNumber then
    .error "password must contain at least one number"
  else if policy.requireSpecial && !seen.hasSpecial then
    .error "password must contain at least one special character"
  else .ok ()

/-- `ValidatePassword` as a length, a loop and what follows it. -/
theorem validatePassword_eq_scan (policy : PasswordPolicy) (password : String) :
    validatePassword unicode policy password =
      if (password.utf8ByteSize : Int) < policy.minLength then
        .error ("password must be at least " ++ toString policy.minLength ++ " characters")
      else checkClasses policy (scanClasses unicode password.toList) := by
  rw [scanClasses, foldl_note]
  simp only [Bool.false_or]
  rfl

/-- Every required class occurs. -/
structure HasClasses (policy : PasswordPolicy) (password : String) : Prop where
  upper : policy.requireUppercase = true → ∃ c ∈ password.toList, unicode.isUpper c = true
  lower : policy.requireLowercase = true → ∃ c ∈ password.toList, unicode.isLower c = true
  number : policy.requireNumber = true → ∃ c ∈ password.toList, unicode.isNumber c = true
  special : policy.requireSpecial = true → ∃ c ∈ password.toList, c ∈ specialCharacters.toList

/-- A check lets through if the flag is set or not required. -/
theorem checkClasses_eq_ok_iff {policy : PasswordPolicy} {seen : SeenClasses} :
    checkClasses policy seen = .ok () ↔
      (policy.requireUppercase = true → seen.hasUpper = true) ∧
        (policy.requireLowercase = true → seen.hasLower = true) ∧
        (policy.requireNumber = true → seen.hasNumber = true) ∧
        (policy.requireSpecial = true → seen.hasSpecial = true) := by
  rw [checkClasses]
  split_ifs <;> simp_all

/-- What the policy accepts: a password with bytes enough and the required classes. -/
theorem validatePassword_eq_ok_iff (hexcl : unicode.Exclusive) (policy : PasswordPolicy)
    (password : String) :
    validatePassword unicode policy password = .ok () ↔
      policy.minLength ≤ password.utf8ByteSize ∧ HasClasses unicode policy password := by
  have hclasses : checkClasses policy (scanClasses unicode password.toList) = .ok () ↔
      HasClasses unicode policy password := by
    rw [scan_eq unicode hexcl, checkClasses_eq_ok_iff]
    simp only [occurringClasses, List.any_eq_true, List.contains_iff_mem]
    exact ⟨fun ⟨hu, hl, hn, hs⟩ => ⟨hu, hl, hn, hs⟩,
      fun h => ⟨h.upper, h.lower, h.number, h.special⟩⟩
  rw [validatePassword_eq_scan]
  split
  · next hlt => exact iff_of_false (by simp) fun h => absurd h.1 (Int.not_le.mpr hlt)
  · next hle => rw [hclasses, and_iff_right (Int.not_lt.mp hle)]

/-! ### Characters and bytes -/

/-- The longest password that bcrypt hashes, in bytes. -/
def maxBcryptBytes : Nat := 72

/-- `SetPassword` can hash the password. -/
def BcryptHashes (password : String) : Prop := password.utf8ByteSize ≤ maxBcryptBytes

/-- Whether it can is decided by counting. -/
instance BcryptHashes.decidable (password : String) : Decidable (BcryptHashes password) :=
  inferInstanceAs (Decidable (password.utf8ByteSize ≤ maxBcryptBytes))

/-- What the policy says of a password: characters enough, and the required classes. -/
def MeetsPolicy (policy : PasswordPolicy) (password : String) : Prop :=
  policy.minLength ≤ password.length ∧ HasClasses unicode policy password

/-- A password has no more characters than bytes. -/
theorem length_le_utf8ByteSize (s : String) : s.length ≤ s.utf8ByteSize := by
  induction s using String.push_induction with
  | empty => exact Nat.le_refl 0
  | push s c ih =>
      rw [String.length_push, String.utf8ByteSize_push]
      have hpos := c.utf8Size_pos
      omega

/-- A password is accepted exactly when it meets the policy and can be hashed, unless it has the
required classes and bytes enough, and either too few characters or too many bytes. -/
theorem password_policy_iff (hexcl : unicode.Exclusive) (policy : PasswordPolicy)
    (password : String) :
    (validatePassword unicode policy password = .ok () ↔
        MeetsPolicy unicode policy password ∧ BcryptHashes password) ↔
      (HasClasses unicode policy password → policy.minLength ≤ password.utf8ByteSize →
        policy.minLength ≤ password.length ∧ password.utf8ByteSize ≤ maxBcryptBytes) := by
  have hlength : policy.minLength ≤ password.length →
      policy.minLength ≤ password.utf8ByteSize := by
    have hle := length_le_utf8ByteSize password
    omega
  rw [validatePassword_eq_ok_iff unicode hexcl, MeetsPolicy, BcryptHashes]
  constructor
  · intro hiff hclasses hbytes
    obtain ⟨⟨hchars, -⟩, hshort⟩ := hiff.mp ⟨hbytes, hclasses⟩
    exact ⟨hchars, hshort⟩
  · intro h
    constructor
    · rintro ⟨hbytes, hclasses⟩
      obtain ⟨hchars, hshort⟩ := h hclasses hbytes
      exact ⟨⟨hchars, hclasses⟩, hshort⟩
    · rintro ⟨⟨hchars, hclasses⟩, -⟩
      exact ⟨hlength hchars, hclasses⟩

/-- The classes of the ASCII characters; the characters above them are in none. -/
def asciiClasses : UnicodeClasses := ⟨Char.isUpper, Char.isLower, Char.isDigit⟩

/-- The policy of a configuration that sets nothing. -/
def defaultPolicy : PasswordPolicy := ⟨8, true, true, true, true⟩

/-- No ASCII character is in two classes. -/
theorem asciiClasses_exclusive : asciiClasses.Exclusive where
  lower _ h := Bool.eq_false_iff.mpr (Char.not_isUpper_of_isLower h)
  number c h := by
    simp [asciiClasses, Char.isDigit, Char.isLower, Char.isUpper, UInt32.le_iff_toNat_le] at h ⊢
    omega
  special := List.all_iff_forall_prop.mp (by decide)

/-- A password of 73 bytes. -/
def exampleLongPassword : String := "Aa1!" ++ String.ofList (List.replicate 69 'a')

/-- Six characters of ten bytes are accepted where eight characters are required, and a password is
accepted that cannot be hashed. -/
theorem password_policy_counts_bytes :
    ¬ (validatePassword asciiClasses defaultPolicy "Aa1!€€" = .ok () ↔
        MeetsPolicy asciiClasses defaultPolicy "Aa1!€€" ∧ BcryptHashes "Aa1!€€") ∧
      ¬ (validatePassword asciiClasses defaultPolicy exampleLongPassword = .ok () ↔
        MeetsPolicy asciiClasses defaultPolicy exampleLongPassword ∧
          BcryptHashes exampleLongPassword) := by
  constructor
  · intro hiff
    obtain ⟨⟨hchars, -⟩, -⟩ := hiff.mp rfl
    exact absurd hchars (by decide)
  · intro hiff
    obtain ⟨-, hshort⟩ := hiff.mp rfl
    exact absurd hshort (by decide)

/-- The theorem applied to a password of eight characters. -/
theorem password_policy_iff_example :
    validatePassword asciiClasses defaultPolicy "Aa1!aaaa" = .ok () ↔
      MeetsPolicy asciiClasses defaultPolicy "Aa1!aaaa" ∧ BcryptHashes "Aa1!aaaa" :=
  (password_policy_iff asciiClasses asciiClasses_exclusive defaultPolicy "Aa1!aaaa").mpr
    fun _ _ => by decide

end IdpForge
