import Mathlib
import IdpForge.HostPort
import IdpForge.Router

/-!
# Same Origin

The origin of a page is a scheme, a host and a port, and a browser spells it with the port left out
where the scheme implies it. `csrfOriginCheck` compares that spelling with the scheme and the host
of the base URL in lower case, and a port stands there as the configuration spells it. The origin of
a `Referer` is taken in the way of the base URL.

## Main results

* `serialize_eq_originOf_iff`: when the two texts are the same.
* `csrf_same_origin_iff`: when comparing them is comparing origins.
-/

open GoStrings GoStrconv HostPort

namespace IdpForge

/-- The schemes of pages. -/
inductive WebScheme where
  | http
  | https
  deriving DecidableEq, Repr

/-- The text of a scheme. -/
def WebScheme.text : WebScheme → String
  | .http => "http"
  | .https => "https"

/-- The port that a scheme implies. -/
def WebScheme.defaultPort : WebScheme → Nat
  | .http => 80
  | .https => 443

/-- The scheme of a text. -/
def WebScheme.ofText (s : String) : Option WebScheme :=
  if s = "http" then some .http else if s = "https" then some .https else none

/-- An origin. -/
structure WebOrigin where
  scheme : WebScheme
  host : String
  port : Nat
  deriving DecidableEq, Repr

/-- The port as a browser spells it. -/
def spelledPort (scheme : WebScheme) (port : Nat) : Option String :=
  if port = scheme.defaultPort then none else some (toString port)

/-- An origin as a browser spells it. -/
def WebOrigin.serialize (o : WebOrigin) : String :=
  o.scheme.text ++ "://" ++ joinPort o.host (spelledPort o.scheme o.port)

/-- The port that a URL means. -/
def portNumber (scheme : WebScheme) : Option String → Nat
  | none => scheme.defaultPort
  | some p => if p = "" then scheme.defaultPort else digitsValue p.toList

variable (env : Environment)

/-- The origin of a URL with this scheme and host. -/
def hostOrigin (scheme : WebScheme) (host : String) : WebOrigin :=
  ⟨scheme, env.toLower (splitPort host).1, portNumber scheme (splitPort host).2⟩

/-- The origin of a URL, if it is that of a page. -/
def urlOrigin (raw : String) : Option WebOrigin :=
  match env.parseURL raw with
  | none => none
  | some (scheme, host) =>
      match WebScheme.ofText scheme with
      | none => none
      | some scheme => if host = "" then none else some (hostOrigin env scheme host)

/-- The port as a URL spells it. -/
def urlPort (raw : String) : Option String :=
  match env.parseURL raw with
  | none => none
  | some (_, host) => (splitPort host).2

/-- The origin of a page. Its host is in lower case and comes without the port. -/
structure PageOrigin extends WebOrigin where
  lowerCase : env.toLower host = host
  noPort : (splitPort host).2 = none

/-- A URL that is read as one of a page. -/
structure HttpURL where
  raw : String
  scheme : WebScheme
  host : String
  parsed : env.parseURL raw = some (scheme.text, host)
  nonempty : host ≠ ""

/-- The origin of such a URL. -/
def HttpURL.origin {env : Environment} (u : HttpURL env) : WebOrigin :=
  hostOrigin env u.scheme u.host

/-- What the libraries do: `strings.ToLower` replaces the characters, and `url.Parse` returns the
scheme in lower case, as letters, digits and other ASCII characters that are no colon. -/
structure UrlLibrary (lower : Char → Char) : Prop where
  lower : LowerCases env.toLower lower
  scheme : ∀ raw scheme host, env.parseURL raw = some (scheme, host) →
    ∀ c ∈ scheme.toList, c.toNat < 128 ∧ c.toLower = c ∧ c ≠ ':'

/-! ### Spelling -/

/-- A number is written in digits. -/
theorem digits_toString (n : Nat) :
    isPort (toString n) = true ∧ toString n ≠ "" ∧ digitsValue (toString n).toList = n := by
  have htext : (toString n).toList = Nat.toDigits 10 n := Nat.toList_repr
  refine ⟨?_, ?_, ?_⟩
  · rw [isPort, htext, List.all_eq_true]
    exact fun c hc => Nat.isDigit_of_mem_toDigits (by decide) (by decide) hc
  · intro hempty
    rw [hempty, String.toList_empty] at htext
    exact Nat.toDigits_ne_nil htext.symm
  · rw [htext]
    exact Nat.ofDigitChars_ten_toDigits

/-- What a browser spells is a port. -/
theorem isPort_spelledPort {scheme : WebScheme} {port : Nat} {p : String}
    (h : spelledPort scheme port = some p) : isPort p = true := by
  rw [spelledPort, Option.ite_none_left_eq_some] at h
  rw [← Option.some.inj h.2]
  exact (digits_toString port).1

/-- What a browser spells is read back. -/
theorem portNumber_spelledPort (scheme : WebScheme) (port : Nat) :
    portNumber scheme (spelledPort scheme port) = port := by
  rw [spelledPort]
  split
  · next hdefault => exact hdefault.symm
  · obtain ⟨-, hne, hvalue⟩ := digits_toString port
    rw [portNumber, if_neg hne, hvalue]

/-- The text of a scheme has no colon. -/
theorem WebScheme.colon_notMem_text (scheme : WebScheme) : ':' ∉ scheme.text.toList := by
  cases scheme <;> decide

/-- The text of a scheme is not empty. -/
theorem WebScheme.text_ne (scheme : WebScheme) : scheme.text ≠ "" := by
  cases scheme <;> decide

/-- A scheme is told by its text. -/
theorem WebScheme.ofText_eq_some_iff {s : String} {scheme : WebScheme} :
    WebScheme.ofText s = some scheme ↔ s = scheme.text := by
  rw [WebScheme.ofText]
  cases scheme <;> split_ifs <;> simp_all [WebScheme.text]

/-- Two schemes of one text are the same. -/
theorem WebScheme.text_inj {scheme scheme' : WebScheme} :
    scheme.text = scheme'.text ↔ scheme = scheme' := by
  cases scheme <;> cases scheme' <;> decide

/-- A text with a scheme is told by the scheme and what follows. -/
theorem scheme_append_inj {s s' t t' : String} (hs : ':' ∉ s.toList) (hs' : ':' ∉ s'.toList) :
    s ++ "://" ++ t = s' ++ "://" ++ t' ↔ s = s' ∧ t = t' := by
  constructor
  · intro h
    have hcut : ∀ {a b : String}, ':' ∉ a.toList →
        cut (a ++ "://" ++ b) ':' = some (a, "//" ++ b) := by
      intro a b ha
      refine cut_eq_some_iff.mpr ⟨?_, ha⟩
      rw [← String.toList_inj]
      simp
    have heq := (hcut hs).symm.trans ((congrArg (cut · ':') h).trans (hcut hs'))
    obtain ⟨rfl, hrest⟩ := Prod.mk.inj (Option.some.inj heq)
    refine ⟨rfl, ?_⟩
    rw [← String.toList_inj] at hrest ⊢
    simpa using hrest
  · rintro ⟨rfl, rfl⟩
    rfl

/-- A text with a scheme is not empty. -/
theorem scheme_append_ne (s t : String) : s ++ "://" ++ t ≠ "" := by
  intro hempty
  have hlen := congrArg String.length hempty
  simp only [String.length_append, String.length_empty] at hlen
  have hsep : "://".length = 3 := rfl
  omega

/-! ### Comparing the texts -/

section Compare

variable {env} {lower : Char → Char} (hlib : UrlLibrary env lower) {req : Request}

/-- The port that a URL of a page spells. -/
theorem HttpURL.urlPort_eq (u : HttpURL env) : urlPort env u.raw = (splitPort u.host).2 := by
  rw [urlPort, u.parsed]

/-- An origin is that of a URL if the parts are. -/
theorem eq_hostOrigin_iff {o : WebOrigin} {scheme : WebScheme} {host : String} :
    o = hostOrigin env scheme host ↔ o.scheme = scheme ∧ o.host = env.toLower (splitPort host).1 ∧
      o.port = portNumber scheme (splitPort host).2 := by
  obtain ⟨s, h, p⟩ := o
  exact WebOrigin.mk.injEq .. ▸ Iff.rfl

/-- The URLs with the origin of a URL of a page. -/
theorem urlOrigin_eq_some_iff {raw : String} {o : WebOrigin} :
    urlOrigin env raw = some o ↔
      ∃ host, env.parseURL raw = some (o.scheme.text, host) ∧ host ≠ "" ∧
        o = hostOrigin env o.scheme host := by
  rw [urlOrigin]
  constructor
  · intro h
    split at h
    · exact absurd h (Option.some_ne_none o).symm
    · next scheme host hparse =>
        split at h
        · exact absurd h (Option.some_ne_none o).symm
        · next s hs =>
            rw [Option.ite_none_left_eq_some] at h
            obtain ⟨hhost, h⟩ := h
            obtain rfl := Option.some.inj h
            exact ⟨host, by rw [hparse, WebScheme.ofText_eq_some_iff.mp hs]; rfl, hhost, rfl⟩
  · rintro ⟨host, hparse, hhost, ho⟩
    have htext : WebScheme.ofText o.scheme.text = some o.scheme :=
      WebScheme.ofText_eq_some_iff.mpr rfl
    simp only [hparse, htext, hhost, if_false]
    rw [← ho]

include hlib

/-- `originOf` of a URL with a scheme and a host. -/
theorem originOf_of_parse {raw scheme host : String}
    (hparse : env.parseURL raw = some (scheme, host)) (hscheme : scheme ≠ "") (hhost : host ≠ "") :
    originOf env raw = scheme ++ "://" ++ env.toLower host := by
  have hchars := hlib.scheme raw scheme host hparse
  have hfixed : env.toLower (scheme ++ "://") = scheme ++ "://" := by
    refine hlib.lower.fixed fun c hc => ?_
    rw [String.toList_append, List.mem_append] at hc
    rcases hc with hc | hc
    · exact ⟨(hchars c hc).1, (hchars c hc).2.1⟩
    · have hall : ∀ c ∈ "://".toList, c.toNat < 128 ∧ c.toLower = c :=
        List.all_iff_forall_prop.mp (by decide)
      exact hall c hc
  rw [originOf, hparse]
  simp only [hscheme, hhost, or_self, if_false]
  rw [hlib.lower.append, hfixed]

/-- `originOf` of the URL of a page. -/
theorem HttpURL.originOf_eq (u : HttpURL env) :
    originOf env u.raw = u.scheme.text ++ "://" ++ env.toLower u.host :=
  originOf_of_parse hlib u.parsed (WebScheme.text_ne _) u.nonempty

/-- When the two texts are the same: the schemes and the hosts are, and the URL spells the port as
the browser does. -/
theorem serialize_eq_originOf_iff (page : PageOrigin env) (u : HttpURL env) :
    page.serialize = originOf env u.raw ↔
      page.scheme = u.scheme ∧ page.host = env.toLower (splitPort u.host).1 ∧
        spelledPort page.scheme page.port = (splitPort u.host).2 := by
  have hpage : splitPort (joinPort page.host (spelledPort page.scheme page.port)) =
      (page.host, spelledPort page.scheme page.port) :=
    splitPort_joinPort page.noPort fun _ hp => isPort_spelledPort hp
  rw [u.originOf_eq hlib, WebOrigin.serialize,
    scheme_append_inj (WebScheme.colon_notMem_text _) (WebScheme.colon_notMem_text _),
    WebScheme.text_inj, ← splitPort_inj, hpage, hlib.lower.splitPort_toLower, Prod.mk.injEq]

/-- `originOf` of a URL of a page is not empty. -/
theorem HttpURL.originOf_ne (u : HttpURL env) : originOf env u.raw ≠ "" := by
  rw [u.originOf_eq hlib]
  exact scheme_append_ne _ _

/-- The texts of a page and of a URL are the same if the origins are and the URL spells the port as
a browser does. -/
theorem serialize_eq_iff_origin (page : PageOrigin env) (u : HttpURL env) :
    page.serialize = originOf env u.raw ↔
      page.toWebOrigin = u.origin ∧
        urlPort env u.raw = spelledPort u.scheme u.origin.port := by
  rw [serialize_eq_originOf_iff hlib, u.urlPort_eq, HttpURL.origin, eq_hostOrigin_iff, hostOrigin]
  constructor
  · rintro ⟨hscheme, hhost, hport⟩
    have hnumber : page.port = portNumber u.scheme (splitPort u.host).2 := by
      rw [← hport, ← hscheme, portNumber_spelledPort]
    exact ⟨⟨hscheme, hhost, hnumber⟩, by rw [← hnumber, ← hscheme, hport]⟩
  · rintro ⟨⟨hscheme, hhost, hnumber⟩, hport⟩
    exact ⟨hscheme, hhost, by rw [hport, ← hnumber, hscheme]⟩

/-- `originOf` of two URLs is the same if the origins are and the ports are spelled alike. -/
theorem originOf_eq_iff_origin (raw : String) (u : HttpURL env) :
    originOf env raw = originOf env u.raw ↔
      urlOrigin env raw = some u.origin ∧ urlPort env raw = urlPort env u.raw := by
  rw [urlOrigin_eq_some_iff, u.urlPort_eq]
  constructor
  · intro h
    have hne : originOf env raw ≠ "" := h ▸ u.originOf_ne hlib
    rcases hparse : env.parseURL raw with _ | ⟨scheme, host⟩
    · rw [originOf, hparse] at hne
      exact absurd rfl hne
    · have hparts : ¬ (scheme = "" ∨ host = "") := by
        intro hparts
        rw [originOf, hparse] at hne
        simp [hparts] at hne
      obtain ⟨hscheme, hhost⟩ := not_or.mp hparts
      have hcolon : ':' ∉ scheme.toList :=
        fun hmem => (hlib.scheme raw scheme host hparse ':' hmem).2.2 rfl
      rw [originOf_of_parse hlib hparse hscheme hhost, u.originOf_eq hlib,
        scheme_append_inj hcolon (WebScheme.colon_notMem_text _), hlib.lower.eq_iff] at h
      obtain ⟨rfl, hname, hport⟩ := h
      refine ⟨⟨host, rfl, hhost, ?_⟩, by rw [urlPort, hparse]; exact hport⟩
      exact eq_hostOrigin_iff.mpr ⟨rfl, hname.symm, by rw [hport]; rfl⟩
  · rintro ⟨⟨host, hparse, hhost, horigin⟩, hport⟩
    obtain ⟨-, hname, -⟩ := eq_hostOrigin_iff.mp horigin
    rw [urlPort, hparse] at hport
    rw [u.originOf_eq hlib, originOf_of_parse hlib hparse (WebScheme.text_ne _) hhost,
      hlib.lower.eq_iff.mpr ⟨hname.symm, hport⟩]
    rfl

/-- The check compares the reported origin with that of the base URL. -/
theorem csrfOriginCheck_eq_ok_iff (base : HttpURL env) (hbase : env.baseURL = base.raw)
    (hchanging : isStateChanging req.method = true) (hcookie : req.sessionCookie ≠ "") :
    csrfOriginCheck env req = .ok () ↔ reportedOrigin env req = originOf env base.raw := by
  have hne := base.originOf_ne hlib
  rw [csrfOriginCheck, if_neg (by rw [hchanging]; decide), if_neg hcookie, hbase]
  constructor
  · intro h
    by_contra hother
    rw [if_pos (.inr (.inr hother))] at h
    simp [newError] at h
  · intro h
    rw [if_neg]
    rintro (hempty | hempty | hother)
    · exact hne (h.symm.trans hempty)
    · exact hne hempty
    · exact hother h

/-- **The check is the same-origin relation, up to the spelling of the port.** A page gets through
if and only if its origin is that of the base URL, unless the two are the same and the base URL does
not spell the port as a browser does; without an `Origin`, a `Referer` does, unless the two are the
same and the ports are not spelled alike. -/
theorem csrf_same_origin_iff (base : HttpURL env) (hbase : env.baseURL = base.raw)
    (hchanging : isStateChanging req.method = true) (hcookie : req.sessionCookie ≠ "") :
    (∀ page : PageOrigin env, req.origin = page.serialize →
      ((csrfOriginCheck env req = .ok () ↔ page.toWebOrigin = base.origin) ↔
        (page.toWebOrigin = base.origin →
          urlPort env base.raw = spelledPort base.scheme base.origin.port))) ∧
    (req.origin = "" →
      ((csrfOriginCheck env req = .ok () ↔ urlOrigin env req.referer = some base.origin) ↔
        (urlOrigin env req.referer = some base.origin →
          urlPort env req.referer = urlPort env base.raw))) := by
  rw [csrfOriginCheck_eq_ok_iff hlib base hbase hchanging hcookie, reportedOrigin]
  constructor
  · intro page horigin
    have hne : page.serialize ≠ "" := scheme_append_ne _ _
    rw [horigin, if_neg hne, serialize_eq_iff_origin hlib]
    exact and_iff_left_iff_imp
  · intro horigin
    rw [if_pos horigin, originOf_eq_iff_origin hlib]
    exact and_iff_left_iff_imp

end Compare

/-! ### A base URL with a port -/

/-- `strings.ToLower` of ASCII characters. -/
def asciiLower (s : String) : String := String.ofList (s.toList.map Char.toLower)

/-- `url.Parse` of a URL with a scheme in small letters, and without a user and escapes. -/
def parsePlainURL (raw : String) : Option (String × String) :=
  match cut raw ':' with
  | none => none
  | some (scheme, rest) =>
      if scheme.toList.all Char.isLower && hasPrefix rest "//" then
        some (scheme, String.ofList ((rest.toList.drop 2).takeWhile (· ∉ ['/', '?', '#'])))
      else none

/-- A server with this base URL. -/
def exampleWebEnvironment (baseURL : String) : Environment where
  baseURL := baseURL
  parseURL := parsePlainURL
  toLower := asciiLower
  parseIP := fun _ => true
  cidrContains := fun _ _ => false
  nowUnix := 0
  sessionsGet := fun _ => some "u1"
  authenticateClient := fun _ => none
  authenticateDevice := fun _ => none
  increment := fun _ => some 1
  resolve := fun _ => none
  globalLimitReached := fun _ => false
  loginLimitReached := fun _ => false

/-- `asciiLower` is lower case. -/
theorem lowerCases_asciiLower : LowerCases asciiLower Char.toLower where
  map _ := String.toList_ofList
  ascii _ _ := rfl
  above c hc := by
    have hupper : ¬ c.isUpper = true := by
      simp only [Char.isUpper, decide_eq_true_eq, UInt32.le_iff_toNat_le]
      exact fun h => absurd (Nat.le_trans hc h.2) (by decide)
    rw [Char.toLower_eq_of_not_isUpper hupper]
    exact ne_delimiter hc

/-- The libraries of the example are as they should be. -/
theorem exampleWebEnvironment_library (baseURL : String) :
    UrlLibrary (exampleWebEnvironment baseURL) Char.toLower where
  lower := lowerCases_asciiLower
  scheme := by
    intro raw scheme host hparse c hc
    change parsePlainURL raw = some (scheme, host) at hparse
    rw [parsePlainURL] at hparse
    split at hparse
    · exact absurd hparse (Option.some_ne_none _).symm
    · next s rest _ =>
        rw [Option.ite_none_right_eq_some, Bool.and_eq_true, List.all_eq_true] at hparse
        obtain ⟨⟨hlower, -⟩, hparts⟩ := hparse
        obtain ⟨rfl, -⟩ := Prod.mk.inj (Option.some.inj hparts)
        have hlower := hlower c hc
        have hc : 97 ≤ c.toNat ∧ c.toNat ≤ 122 := by
          simpa [Char.isLower, UInt32.le_iff_toNat_le] using hlower
        have hupper := Char.not_isUpper_of_isLower hlower
        refine ⟨by omega, Char.toLower_eq_of_not_isUpper hupper, ?_⟩
        rintro rfl
        exact absurd hlower (by decide)

/-- A request that changes something, with a session cookie. -/
def examplePost (origin : String) : Request where
  method := .post
  path := "/api/v1/rbac/roles"
  sessionCookie := "s1"
  apiKey := ""
  deviceKey := ""
  origin := origin
  referer := ""
  ip := "10.0.0.1"
  upgrade := false

/-- The pages of `https://sso.example.com`. -/
def examplePage (baseURL : String) : PageOrigin (exampleWebEnvironment baseURL) where
  scheme := .https
  host := "sso.example.com"
  port := 443
  lowerCase := by rfl
  noPort := by rfl

/-- The base URL with a port that `https` implies. -/
def exampleBase : HttpURL (exampleWebEnvironment "https://sso.example.com:443") where
  raw := "https://sso.example.com:443"
  scheme := .https
  host := "sso.example.com:443"
  parsed := by rfl
  nonempty := by decide

/-- A page of the server's own origin is refused when the base URL spells the default port. -/
theorem csrf_refuses_default_port :
    ¬ (csrfOriginCheck (exampleWebEnvironment "https://sso.example.com:443")
          (examplePost (examplePage "https://sso.example.com:443").serialize) = .ok () ↔
        (examplePage "https://sso.example.com:443").toWebOrigin = exampleBase.origin) := by
  intro hiff
  have hok := hiff.mpr (by rfl)
  have herror : csrfOriginCheck (exampleWebEnvironment "https://sso.example.com:443")
      (examplePost (examplePage "https://sso.example.com:443").serialize) =
        newError 403 "cross-origin request rejected" := by rfl
  rw [herror, newError] at hok
  cases hok

/-- The same base URL without the port. -/
def examplePlainBase : HttpURL (exampleWebEnvironment "https://sso.example.com") where
  raw := "https://sso.example.com"
  scheme := .https
  host := "sso.example.com"
  parsed := by rfl
  nonempty := by decide

/-- The theorem applied to it. -/
theorem csrf_same_origin_iff_example :
    csrfOriginCheck (exampleWebEnvironment "https://sso.example.com")
        (examplePost (examplePage "https://sso.example.com").serialize) = .ok () ↔
      (examplePage "https://sso.example.com").toWebOrigin = examplePlainBase.origin :=
  ((csrf_same_origin_iff (exampleWebEnvironment_library _) examplePlainBase rfl rfl
    (by decide)).1 (examplePage _) rfl).mpr fun _ => by rfl

end IdpForge
