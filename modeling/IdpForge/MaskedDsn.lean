import IdpForge.FirstOccurrence
import IdpForge.ServerConfig

/-!
# Data Source Names without their Password

`MaskedDSN` looks for `://`, for the first `@` after it and for the first `:` before that, and
blanks what stands between the last two. What it returns is compared for two passwords, in the form
of a URL and in that of the MySQL driver, which has no `://` of its own.

## Main results

* `maskedText_eq_iff`: what the masked text tells of a data source name.
* `maskedText_url_iff`, `maskedText_driver_iff`: what it tells of the password in the two forms.
* `maskedDSN_eq_iff`: the same for the configuration.
-/

open FirstOccurrence

namespace IdpForge

/-- The separator of the scheme. -/
def schemeSep : List Char := [':', '/', '/']

/-- A data source name around what `MaskedDSN` takes for the password: the text before `://`, the
name before the first `:`, what is blanked, and what follows the first `@`. -/
structure DSNParts where
  front : List Char
  name : List Char
  hidden : List Char
  back : List Char
  deriving DecidableEq, Repr

/-- The parts, if the three separators are found. -/
def maskParts (dsn : List Char) : Option DSNParts := do
  let (front, rest) ← cutAt schemeSep dsn
  let (cred, back) ← cutAt ['@'] rest
  let (name, hidden) ← cutAt [':'] cred
  return ⟨front, name, hidden, back⟩

/-- The parts put together. -/
def DSNParts.text (p : DSNParts) : List Char :=
  p.front ++ (schemeSep ++ (p.name ++ ':' :: (p.hidden ++ '@' :: p.back)))

/-- What stands in for the password. -/
def mask : List Char := ['*', '*', '*']

/-- `MaskedDSN` of a text. -/
def maskedText (dsn : List Char) : List Char :=
  match maskParts dsn with
  | some p => { p with hidden := mask }.text
  | none => dsn

/-- `MaskedDSN`. -/
def DBConfig.maskedDSN (c : DBConfig) : String := String.ofList (maskedText c.dsn.toList)

/-! ### The parts -/

section Parts

variable {d d₁ d₂ : List Char} {p : DSNParts}

/-- When the parts are found. -/
theorem maskParts_eq_some_iff :
    maskParts d = some p ↔
      cutAt schemeSep d = some (p.front, p.name ++ ':' :: (p.hidden ++ '@' :: p.back)) ∧
        ':' ∉ p.name ∧ '@' ∉ p.name ∧ '@' ∉ p.hidden := by
  constructor
  · intro h
    obtain ⟨⟨front, rest⟩, hscheme, h⟩ := Option.bind_eq_some_iff.mp h
    obtain ⟨⟨cred, back⟩, hat, h⟩ := Option.bind_eq_some_iff.mp h
    obtain ⟨⟨name, hidden⟩, hcolon, h⟩ := Option.bind_eq_some_iff.mp h
    obtain rfl := Option.some.inj h
    obtain ⟨rfl, hcred⟩ := cutAt_singleton_iff.mp hat
    obtain ⟨rfl, hname⟩ := cutAt_singleton_iff.mp hcolon
    rw [List.mem_append, List.mem_cons, not_or, not_or] at hcred
    refine ⟨?_, hname, hcred.1, hcred.2.2⟩
    rw [hscheme, List.append_assoc, List.cons_append]
  · rintro ⟨hscheme, hcolon, hname, hhidden⟩
    have hcred : '@' ∉ p.name ++ ':' :: p.hidden := by
      rw [List.mem_append, List.mem_cons, not_or, not_or]
      exact ⟨hname, by decide, hhidden⟩
    have hat := cutAt_singleton hcred p.back
    rw [List.append_assoc, List.cons_append] at hat
    rw [maskParts, hscheme]
    simp only [Option.bind_eq_bind, Option.bind_some, hat, cutAt_singleton hcolon p.hidden]
    rfl

/-- Another text without an `@` in the place of the hidden one is found there. -/
theorem maskParts_hidden (h : maskParts d = some p) {hidden : List Char} (hat : '@' ∉ hidden) :
    maskParts { p with hidden := hidden }.text = some { p with hidden := hidden } := by
  obtain ⟨hscheme, hcolon, hname, -⟩ := maskParts_eq_some_iff.mp h
  exact maskParts_eq_some_iff.mpr ⟨cutAt_replace hscheme _, hcolon, hname, hat⟩

/-- **What the masked text tells.** It is the same for two texts if they are the same, or if they
differ in the hidden part alone. -/
theorem maskedText_eq_iff :
    maskedText d₁ = maskedText d₂ ↔
      d₁ = d₂ ∨ ∃ p hidden, maskParts d₁ = some p ∧
        maskParts d₂ = some { p with hidden := hidden } := by
  have hmask : '@' ∉ mask := by decide
  constructor
  · intro h
    rw [maskedText, maskedText] at h
    rcases h₁ : maskParts d₁ with _ | p₁ <;> rcases h₂ : maskParts d₂ with _ | p₂ <;>
      simp only [h₁, h₂] at h
    · exact .inl h
    · have hparts := maskParts_hidden h₂ hmask
      rw [← h, h₁] at hparts
      exact absurd hparts (Option.some_ne_none _).symm
    · have hparts := maskParts_hidden h₁ hmask
      rw [h, h₂] at hparts
      exact absurd hparts (Option.some_ne_none _).symm
    · have hparts := maskParts_hidden h₁ hmask
      rw [h, maskParts_hidden h₂ hmask, Option.some.injEq, DSNParts.mk.injEq] at hparts
      obtain ⟨hfront, hname, -, hback⟩ := hparts
      refine .inr ⟨p₁, p₂.hidden, rfl, ?_⟩
      rw [← hfront, ← hname, ← hback]
  · rintro (rfl | ⟨p, hidden, h₁, h₂⟩)
    · rfl
    · rw [maskedText, maskedText, h₁, h₂]

end Parts

/-! ### The form of a URL -/

/-- A URL with a user and a password, in characters. -/
def urlText (scheme user password rest : List Char) : List Char :=
  scheme ++ (schemeSep ++ (user ++ ':' :: (password ++ '@' :: rest)))

/-- The text of a password before its first `@`. -/
def beforeAt (password : List Char) : List Char :=
  match cutAt ['@'] password with
  | some (hidden, _) => hidden
  | none => password

/-- What a password has after its first `@`, if it has one. -/
def afterAt (password : List Char) : Option (List Char) := (cutAt ['@'] password).map Prod.snd

/-- What follows the first `@` of the password and the rest. -/
def backOf (rest : List Char) : Option (List Char) → List Char
  | none => rest
  | some tail => tail ++ '@' :: rest

/-- A password and the rest, with the first `@` of the two made out. -/
theorem cutAt_password (password rest : List Char) :
    cutAt ['@'] (password ++ '@' :: rest) =
      some (beforeAt password, backOf rest (afterAt password)) := by
  rw [beforeAt, afterAt]
  rcases hcut : cutAt ['@'] password with _ | ⟨hidden, tail⟩
  · exact cutAt_singleton (cutAt_singleton_eq_none_iff.mp hcut) rest
  · exact cutAt_append hcut ('@' :: rest)

/-- What follows has the rest at its end. -/
theorem length_le_backOf (rest : List Char) (after : Option (List Char)) :
    rest.length ≤ (backOf rest after).length := by
  cases after with
  | none => exact Nat.le_refl _
  | some tail =>
      rw [backOf, List.length_append, List.length_cons]
      omega

/-- What follows is told by what the password has. -/
theorem backOf_injective (rest : List Char) : Function.Injective (backOf rest) := by
  have hlonger : ∀ tail : List Char, rest ≠ tail ++ '@' :: rest := by
    intro tail h
    have hlen := congrArg List.length h
    rw [List.length_append, List.length_cons] at hlen
    omega
  rintro (_ | tail) (_ | tail') h
  · rfl
  · exact absurd h (hlonger tail')
  · exact absurd h.symm (hlonger tail)
  · exact congrArg some (List.append_cancel_right h)

section Url

variable {scheme user rest : List Char}

/-- The scheme of a URL is cut off. -/
theorem cutAt_urlText (hscheme : ':' ∉ scheme) (password : List Char) :
    cutAt schemeSep (urlText scheme user password rest) =
      some (scheme, user ++ ':' :: (password ++ '@' :: rest)) := by
  rw [urlText, schemeSep, cutAt_shift hscheme, ← schemeSep, cutAt_begins, Option.map_some,
    Prod.map_apply, List.append_nil, id]

/-- A URL whose user has an `@` is not masked. -/
theorem maskParts_urlText_of_mem (hscheme : ':' ∉ scheme) (huser : ':' ∉ user) (hat : '@' ∈ user)
    (password : List Char) : maskParts (urlText scheme user password rest) = none := by
  by_contra hsome
  obtain ⟨p, hp⟩ := Option.ne_none_iff_exists'.mp hsome
  obtain ⟨hcut, hcolon, hname, -⟩ := maskParts_eq_some_iff.mp hp
  rw [cutAt_urlText hscheme, Option.some.injEq, Prod.mk.injEq] at hcut
  have hcred := cutAt_singleton huser (password ++ '@' :: rest)
  rw [hcut.2, cutAt_singleton hcolon, Option.some.injEq, Prod.mk.injEq] at hcred
  exact hname (hcred.1 ▸ hat)

/-- Any other URL is masked up to the first `@` of its password. -/
theorem maskParts_urlText (hscheme : ':' ∉ scheme) (huser : ':' ∉ user) (hat : '@' ∉ user)
    (password rest : List Char) :
    maskParts (urlText scheme user password rest) =
      some ⟨scheme, user, beforeAt password, backOf rest (afterAt password)⟩ := by
  obtain ⟨htext, hhidden⟩ := cutAt_singleton_iff.mp (cutAt_password password rest)
  refine maskParts_eq_some_iff.mpr ⟨?_, huser, hat, hhidden⟩
  rw [cutAt_urlText hscheme, htext]

/-- The two passwords of a user have the same after their first `@`, and the user has none; or they
are the same. -/
def UrlAgree (user p₁ p₂ : List Char) : Prop := p₁ = p₂ ∨ ('@' ∉ user ∧ afterAt p₁ = afterAt p₂)

/-- **What a masked URL tells of the password.** -/
theorem maskedText_url_iff (hscheme : ':' ∉ scheme) (huser : ':' ∉ user) (p₁ p₂ : List Char) :
    maskedText (urlText scheme user p₁ rest) = maskedText (urlText scheme user p₂ rest) ↔
      UrlAgree user p₁ p₂ := by
  rw [maskedText_eq_iff, UrlAgree]
  refine or_congr ⟨fun h => ?_, fun h => by rw [h]⟩ ?_
  · have hrest := List.append_cancel_left (List.append_cancel_left h)
    exact List.append_cancel_right (List.cons.inj (List.append_cancel_left hrest)).2
  by_cases hat : '@' ∈ user
  · refine iff_of_false ?_ fun h => h.1 hat
    rintro ⟨p, hidden, h, -⟩
    rw [maskParts_urlText_of_mem hscheme huser hat] at h
    exact Option.some_ne_none _ h.symm
  · rw [maskParts_urlText hscheme huser hat, maskParts_urlText hscheme huser hat,
      and_iff_right hat]
    constructor
    · rintro ⟨p, hidden, hp₁, hp₂⟩
      obtain rfl := Option.some.inj hp₁
      rw [Option.some.injEq, DSNParts.mk.injEq] at hp₂
      exact (backOf_injective rest hp₂.2.2.2).symm
    · intro hafter
      exact ⟨_, beforeAt p₂, rfl, by rw [hafter]⟩

end Url

/-! ### The form of the MySQL driver -/

/-- A name of the MySQL driver, in characters. -/
def driverText (user password rest : List Char) : List Char :=
  user ++ ':' :: (password ++ '@' :: rest)

/-- What is hidden of a password that has a `://`, or begins with the slashes of one: the text
between the first `:` and the first `@` after it. -/
structure PasswordParts where
  front : List Char
  name : List Char
  hidden : List Char
  tail : Option (List Char)
  deriving DecidableEq, Repr

/-- The parts of a password, with the `:` in front of it, if there is something to hide. -/
def passwordParts (password : List Char) : Option PasswordParts := do
  let (front, rest) ← cutAt schemeSep (':' :: password)
  let (name, hidden) ← cutAt [':'] (beforeAt rest)
  return ⟨front, name, hidden, afterAt rest⟩

section Driver

variable {user : List Char}

/-- The user is passed over. -/
theorem cutAt_driverText (huser : ':' ∉ user) (password rest : List Char) :
    cutAt schemeSep (driverText user password rest) =
      (cutAt schemeSep (':' :: password ++ '@' :: rest)).map (Prod.map (user ++ ·) id) :=
  cutAt_shift huser _

/-- A password with a `://` gives the parts. -/
theorem maskParts_driverText (huser : ':' ∉ user) {password : List Char}
    {front after : List Char} (hcut : cutAt schemeSep (':' :: password) = some (front, after))
    (rest : List Char) :
    maskParts (driverText user password rest) = (passwordParts password).map fun q =>
      ⟨user ++ q.front, q.name, q.hidden, backOf rest q.tail⟩ := by
  have hscheme : cutAt schemeSep (driverText user password rest) =
      some (user ++ front, after ++ '@' :: rest) := by
    rw [cutAt_driverText huser, cutAt_append hcut]
    rfl
  rw [maskParts, passwordParts, hscheme, hcut]
  simp only [Option.bind_eq_bind, Option.bind_some, cutAt_password]
  cases cutAt [':'] (beforeAt after) <;> rfl

/-- A password without one stands in front of what is hidden, in the rest. -/
theorem maskParts_driverText_of_none (huser : ':' ∉ user) {password : List Char}
    (hcut : cutAt schemeSep (':' :: password) = none) {rest : List Char} {p : DSNParts}
    (h : maskParts (driverText user password rest) = some p) :
    ∃ before after, cutAt schemeSep rest = some (before, after) ∧
      p.front = driverText user password before ∧ p.back.length < rest.length := by
  obtain ⟨hscheme, -⟩ := maskParts_eq_some_iff.mp h
  rw [cutAt_driverText huser, cutAt_append_of_eq_none (by decide) (by decide) hcut,
    Option.map_map, Option.map_eq_some_iff] at hscheme
  obtain ⟨⟨before, after⟩, hrest, heq⟩ := hscheme
  obtain ⟨hfront, hback⟩ := Prod.mk.inj heq
  refine ⟨before, after, hrest, hfront.symm, ?_⟩
  have hlen := congrArg List.length (cutAt_eq_some hrest)
  have hafter := congrArg List.length hback
  simp only [id, List.length_append, List.length_cons] at hlen hafter
  omega

/-- The two passwords are the same, or differ only in what is hidden of them. -/
def DriverAgree (p₁ p₂ : List Char) : Prop :=
  p₁ = p₂ ∨ ∃ q hidden, passwordParts p₁ = some q ∧
    passwordParts p₂ = some { q with hidden := hidden }

/-- A password with parts has a `://`. -/
theorem cutAt_of_passwordParts {password : List Char} {q : PasswordParts}
    (h : passwordParts password = some q) :
    ∃ front after, cutAt schemeSep (':' :: password) = some (front, after) := by
  obtain ⟨⟨front, after⟩, hcut, -⟩ := Option.bind_eq_some_iff.mp h
  exact ⟨front, after, hcut⟩

/-- Two names of which one has its parts in the password and the other in the rest differ in what
follows. -/
theorem back_lt_of_none (huser : ':' ∉ user) {p₁ p₂ front after rest : List Char}
    {p p' : DSNParts} (hsome : cutAt schemeSep (':' :: p₁) = some (front, after))
    (hnone : cutAt schemeSep (':' :: p₂) = none)
    (h : maskParts (driverText user p₁ rest) = some p)
    (h' : maskParts (driverText user p₂ rest) = some p') : p'.back.length < p.back.length := by
  rw [maskParts_driverText huser hsome, Option.map_eq_some_iff] at h
  obtain ⟨q, -, rfl⟩ := h
  obtain ⟨-, -, -, -, hlt⟩ := maskParts_driverText_of_none huser hnone h'
  exact Nat.lt_of_lt_of_le hlt (length_le_backOf rest q.tail)

/-- **What a masked name of the MySQL driver tells of the password.** -/
theorem maskedText_driver_iff (huser : ':' ∉ user) (p₁ p₂ rest : List Char) :
    maskedText (driverText user p₁ rest) = maskedText (driverText user p₂ rest) ↔
      DriverAgree p₁ p₂ := by
  have hcancel : ∀ {r : List Char}, driverText user p₁ r = driverText user p₂ r → p₁ = p₂ :=
    fun h => List.append_cancel_right (List.cons.inj (List.append_cancel_left h)).2
  rw [maskedText_eq_iff]
  constructor
  · rintro (h | ⟨p, hidden, h₁, h₂⟩)
    · exact .inl (hcancel h)
    rcases hcut₁ : cutAt schemeSep (':' :: p₁) with _ | ⟨front₁, after₁⟩ <;>
      rcases hcut₂ : cutAt schemeSep (':' :: p₂) with _ | ⟨front₂, after₂⟩
    · -- both passwords stand in front of what is hidden
      obtain ⟨before, after, hrest, hfront, -⟩ := maskParts_driverText_of_none huser hcut₁ h₁
      obtain ⟨before', after', hrest', hfront', -⟩ := maskParts_driverText_of_none huser hcut₂ h₂
      obtain ⟨rfl, -⟩ := Prod.mk.inj (Option.some.inj (hrest.symm.trans hrest'))
      exact .inl (hcancel (hfront.symm.trans hfront'))
    · exact absurd (back_lt_of_none huser hcut₂ hcut₁ h₂ h₁) (Nat.lt_irrefl _)
    · exact absurd (back_lt_of_none huser hcut₁ hcut₂ h₁ h₂) (Nat.lt_irrefl _)
    · rw [maskParts_driverText huser hcut₁, Option.map_eq_some_iff] at h₁
      rw [maskParts_driverText huser hcut₂, Option.map_eq_some_iff] at h₂
      obtain ⟨q₁, hq₁, rfl⟩ := h₁
      obtain ⟨q₂, hq₂, heq⟩ := h₂
      simp only [DSNParts.mk.injEq] at heq
      obtain ⟨hfront, hname, -, hback⟩ := heq
      refine .inr ⟨q₁, q₂.hidden, hq₁, ?_⟩
      rw [hq₂, ← List.append_cancel_left hfront, ← hname, ← backOf_injective rest hback]
  · rintro (rfl | ⟨q, hidden, h₁, h₂⟩)
    · exact .inl rfl
    · obtain ⟨_, _, hcut₁⟩ := cutAt_of_passwordParts h₁
      obtain ⟨_, _, hcut₂⟩ := cutAt_of_passwordParts h₂
      rw [maskParts_driverText huser hcut₁, maskParts_driverText huser hcut₂, h₁, h₂]
      exact .inr ⟨_, hidden, rfl, rfl⟩

end Driver

/-! ### The configuration -/

/-- A URL with a user and a password. -/
def urlDSN (scheme user password rest : String) : String :=
  scheme ++ "://" ++ user ++ ":" ++ password ++ "@" ++ rest

/-- A name of the MySQL driver with a user and a password. -/
def driverDSN (user password rest : String) : String := user ++ ":" ++ password ++ "@" ++ rest

/-- The characters of a URL. -/
theorem toList_urlDSN (scheme user password rest : String) :
    (urlDSN scheme user password rest).toList =
      urlText scheme.toList user.toList password.toList rest.toList := by
  simp [urlDSN, urlText, schemeSep]

/-- The characters of a name of the MySQL driver. -/
theorem toList_driverDSN (user password rest : String) :
    (driverDSN user password rest).toList =
      driverText user.toList password.toList rest.toList := by
  simp [driverDSN, driverText]

/-- **What the masked name tells of the password**, in the form of a URL and in that of the MySQL
driver. Two passwords of one user, with one rest, give one text if and only if they agree in what is
not hidden. -/
theorem maskedDSN_eq_iff {scheme user : String} (hscheme : ':' ∉ scheme.toList)
    (huser : ':' ∉ user.toList) (c : DBConfig) (p₁ p₂ rest : String) :
    ({ c with dsn := urlDSN scheme user p₁ rest }.maskedDSN =
        { c with dsn := urlDSN scheme user p₂ rest }.maskedDSN ↔
      UrlAgree user.toList p₁.toList p₂.toList) ∧
    ({ c with dsn := driverDSN user p₁ rest }.maskedDSN =
        { c with dsn := driverDSN user p₂ rest }.maskedDSN ↔
      DriverAgree p₁.toList p₂.toList) := by
  constructor
  · rw [DBConfig.maskedDSN, DBConfig.maskedDSN, String.ofList_inj, toList_urlDSN, toList_urlDSN]
    exact maskedText_url_iff hscheme huser _ _
  · rw [DBConfig.maskedDSN, DBConfig.maskedDSN, String.ofList_inj, toList_driverDSN,
      toList_driverDSN]
    exact maskedText_driver_iff huser _ _ _

/-- A configuration with this data source. -/
def exampleDBConfig (driver : DBDriver) (dsn : String) : DBConfig :=
  ⟨driver, dsn, 25, 5, 30 * minute⟩

/-- A password with an `@` is shown from there on, and one of the MySQL driver is shown as it is. -/
theorem maskedDSN_shows_password :
    (exampleDBConfig .postgres (urlDSN "postgres" "app" "p@ss" "db:5432/idp")).maskedDSN =
        "postgres://app:***@ss@db:5432/idp" ∧
      (exampleDBConfig .postgres (urlDSN "postgres" "app" "p@ck" "db:5432/idp")).maskedDSN ≠
        (exampleDBConfig .postgres (urlDSN "postgres" "app" "p@ss" "db:5432/idp")).maskedDSN ∧
      (exampleDBConfig .mysql (driverDSN "app" "secret" "tcp(db:3306)/idp")).maskedDSN =
        "app:secret@tcp(db:3306)/idp" ∧
      (exampleDBConfig .mysql (driverDSN "app" "hunter2" "tcp(db:3306)/idp")).maskedDSN ≠
        (exampleDBConfig .mysql (driverDSN "app" "secret" "tcp(db:3306)/idp")).maskedDSN := by
  decide +kernel

/-- The theorem applied to two passwords of which nothing is shown in a URL. -/
theorem maskedDSN_eq_iff_example :
    (exampleDBConfig .postgres (urlDSN "postgres" "app" "secret" "db:5432/idp")).maskedDSN =
        (exampleDBConfig .postgres (urlDSN "postgres" "app" "hunter2" "db:5432/idp")).maskedDSN ↔
      UrlAgree "app".toList "secret".toList "hunter2".toList :=
  (maskedDSN_eq_iff (by decide) (by decide) (exampleDBConfig .postgres "") "secret" "hunter2"
    "db:5432/idp").1

end IdpForge
