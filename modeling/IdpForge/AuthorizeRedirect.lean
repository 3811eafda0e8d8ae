import IdpForge.Accounts
import IdpForge.UrlQuery
import Mathlib.Data.Fintype.EquivFin
import Mathlib.Data.Set.Finite.List

/-!
# The Redirect with a Code

`handleAuthorize` puts a question mark and the encoded code and state after the redirect URI of
the request. The URI is compared with the registered ones as it stands, and any text can be
registered: one that already has a query gets a second question mark, and what stands after the
sign `#` is kept from the server of the application.

The bytes of the state are arbitrary: the framework decodes them from the query of the request.

## Main results

* `authorize_readBack_iff`: exactly which registered redirect URIs take the code and the state.
* `login_readBack`: the redirect to the login page carries the URL of the request.
-/

open UrlQuery

namespace IdpForge

/-- The bytes of a string. -/
def utf8 (s : String) : Bytes := s.toByteArray.data.toList

/-- The redirect with which `handleAuthorize` hands out a code. -/
def authorizeRedirect (redirectURI code : String) (state : Bytes) : Bytes :=
  utf8 redirectURI ++ question :: encode [(utf8 "code", utf8 code), (utf8 "state", state)]

/-- The redirect that `handleAuthorize` answers with, for the URL of the request, its state and
the code that is issued. -/
def authorizeLocation (ctx : RequestContext) (s : ServerState) (cookie : String)
    (q : AuthorizeQuery) (originalURL state : Bytes) (code : String) : Except FiberError Bytes :=
  match handleAuthorize ctx s cookie q with
  | .login => .ok (utf8 "/login" ++ question :: encode [(utf8 "redirect", originalURL)])
  | .refused e => .error e
  | .code req => .ok (authorizeRedirect req.redirectURI code state)

/-- The redirect can be read back: it has the code and the state, every query parameter of the
registered URI, and its scheme, host and path. -/
structure ReadBack (registered location : Bytes) (code : String) (state : Bytes) : Prop where
  code : (parse location).get (utf8 "code") = some (utf8 code)
  state : (parse location).get (utf8 "state") = some state
  params : (parse registered).params.Sublist (parse location).params
  scheme : (parse location).scheme = (parse registered).scheme
  authority : (parse location).authority = (parse registered).authority
  path : (parse location).path = (parse registered).path

/-- The URI has neither a query nor a fragment. -/
def Bare (uri : Bytes) : Prop := question ∉ uri ∧ hash ∉ uri

/-- Strings are told apart by their bytes. -/
theorem utf8_injective : Function.Injective utf8 := by
  intro s t h
  rw [utf8, utf8, Array.toList_inj] at h
  exact String.toByteArray_inj.mp (ByteArray.ext h)

section Redirect

variable {uri : String} {state : Bytes}

/-- Parameters go onto a bare URI and are read back. -/
theorem parse_bare {base : Bytes} (hbare : Bare base) (ps : List Param) :
    (parse (base ++ question :: encode ps)).params = ps ∧
      parse (base ++ question :: encode ps) = { parse base with query := some (encode ps) } := by
  have hencoded : hash ∉ encode ps := notMem_encode (by decide) (by decide) (by decide)
  have hparse := parse_append_query hbare.1 hbare.2 hencoded
  refine ⟨?_, hparse⟩
  rw [Url.params, hparse, Option.getD_some, parseQuery_encode]

/-- The redirect to a bare URI is read back. -/
theorem readBack_of_bare (hbare : Bare (utf8 uri)) (code : String) (state : Bytes) :
    ReadBack (utf8 uri) (authorizeRedirect uri code state) code state := by
  obtain ⟨hparams, hparse⟩ :=
    parse_bare hbare [(utf8 "code", utf8 code), (utf8 "state", state)]
  rw [← authorizeRedirect] at hparams hparse
  have hne : utf8 "code" ≠ utf8 "state" := utf8_injective.ne (by decide)
  constructor
  · rw [Url.get, hparams, List.find?_cons_of_pos (by simp)]
    rfl
  · rw [Url.get, hparams, List.find?_cons_of_neg (by simpa using hne),
      List.find?_cons_of_pos (by simp)]
    rfl
  · rw [params_parse_of_notMem hbare.1 hbare.2]
    exact List.nil_sublist _
  · rw [hparse]
  · rw [hparse]
  · rw [hparse]

/-- A redirect to any other URI has a code only if the URI has it already. -/
theorem mem_params_of_get_code {code : String} (hbare : ¬ Bare (utf8 uri))
    (hcode : (parse (authorizeRedirect uri code state)).get (utf8 "code") = some (utf8 code)) :
    (utf8 "code", utf8 code) ∈ (parse (utf8 uri)).params := by
  have hquery : question ∈ utf8 uri ∨ hash ∈ utf8 uri := by
    rw [Bare, not_and_or, not_not, not_not] at hbare
    exact hbare
  rcases mem_params_append hquery (Url.mem_params_of_get hcode) with
    hown | hstate | ⟨u, hname⟩ | ⟨key, u, hvalue⟩
  · exact hown
  · have hne : utf8 "code" ≠ utf8 "state" := utf8_injective.ne (by decide)
    simp [hne] at hstate
  · -- the name is longer than the parameter's
    have hlength := congrArg (fun r : Param => r.1.length) hname
    simp at hlength
    omega
  · -- the value is longer than the code
    have hlength := congrArg (fun r : Param => r.2.length) hvalue
    simp at hlength
    omega

/-- Some code is not among the parameters of a URI. -/
theorem exists_fresh_code (uri : String) :
    ∃ code : String, (utf8 "code", utf8 code) ∉ (parse (utf8 uri)).params := by
  have hstrings : Infinite String :=
    Infinite.of_injective String.ofList fun _ _ h => String.ofList_injective h
  have hinj : Function.Injective fun code => (utf8 "code", utf8 code) :=
    fun _ _ h => utf8_injective (Prod.mk.inj h).2
  have hfinite : {code : String | (utf8 "code", utf8 code) ∈ (parse (utf8 uri)).params}.Finite :=
    (List.finite_toSet _).preimage hinj.injOn
  exact hfinite.exists_notMem

/-- **The redirect can be read back** exactly when the redirect URI is bare: for a request that is
issued a code, whatever the state, the redirect with every code has that code and the state, the
query parameters of the registered URI and its scheme, host and path, if and only if the URI has
neither a query nor a fragment. -/
theorem authorize_readBack_iff {ctx : RequestContext} {s : ServerState} {cookie : String}
    {q : AuthorizeQuery} {req : AuthorizeRequest} (h : handleAuthorize ctx s cookie q = .code req)
    (originalURL state : Bytes) :
    (∀ code location, authorizeLocation ctx s cookie q originalURL state code = .ok location →
        ReadBack (utf8 req.redirectURI) location code state) ↔
      Bare (utf8 req.redirectURI) := by
  simp only [authorizeLocation, h, Except.ok.injEq, forall_eq']
  constructor
  · intro hread
    by_contra hbare
    obtain ⟨code, hfresh⟩ := exists_fresh_code req.redirectURI
    exact hfresh (mem_params_of_get_code hbare (hread code).code)
  · intro hbare code
    exact readBack_of_bare hbare code state

/-- **The redirect to the login page** carries the URL of the request. -/
theorem login_readBack {ctx : RequestContext} {s : ServerState} {cookie : String}
    {q : AuthorizeQuery} (h : handleAuthorize ctx s cookie q = .login)
    (originalURL state : Bytes) (code : String) :
    ∃ location, authorizeLocation ctx s cookie q originalURL state code = .ok location ∧
      (parse location).path = utf8 "/login" ∧
      (parse location).get (utf8 "redirect") = some originalURL := by
  have hbare : Bare (utf8 "/login") := ⟨by decide +kernel, by decide +kernel⟩
  obtain ⟨hparams, hparse⟩ := parse_bare hbare [(utf8 "redirect", originalURL)]
  have hpath : (parse (utf8 "/login")).path = utf8 "/login" := by decide +kernel
  refine ⟨_, by rw [authorizeLocation, h], (congrArg Url.path hparse).trans hpath, ?_⟩
  rw [Url.get, hparams, List.find?_cons_of_pos (by simp)]
  rfl

end Redirect

/-! ### An application with a tenant -/

/-- The redirect URI of an application that tells its tenants apart by a query parameter. -/
def tenantURI : String := "https://app.example/cb?tenant=1"

/-- The server with a session, where that URI is registered. -/
def tenantSession : ServerState :=
  { exampleSession with
    oidc := { exampleSession.oidc with
      clients := [{ exampleClient with redirectURIs := [tenantURI] }] } }

/-- A request for a code with that URI. -/
def tenantQuery : AuthorizeQuery := { exampleQuery with redirectURI := tenantURI }

/-- **A second question mark.** The code ends up in the name of the tenant, and the redirect has no
parameter `code`. -/
theorem second_question_mark :
    handleAuthorize {} tenantSession "sid" tenantQuery = .code (tenantQuery.request "u") ∧
      authorizeLocation {} tenantSession "sid" tenantQuery [] (utf8 "xyz") "c1" =
        .ok (utf8 "https://app.example/cb?tenant=1?code=c1&state=xyz") ∧
      (parse (utf8 "https://app.example/cb?tenant=1?code=c1&state=xyz")).params =
        [(utf8 "tenant", utf8 "1?code=c1"), (utf8 "state", utf8 "xyz")] ∧
      ¬ ReadBack (utf8 tenantURI) (utf8 "https://app.example/cb?tenant=1?code=c1&state=xyz") "c1"
        (utf8 "xyz") := by
  refine ⟨by decide +kernel, by decide +kernel, by decide +kernel, fun h => ?_⟩
  have hnone : (parse (utf8 "https://app.example/cb?tenant=1?code=c1&state=xyz")).get
      (utf8 "code") = none := by decide +kernel
  have hcode := h.code
  rw [hnone] at hcode
  exact absurd hcode (by simp)

/-- The condition, read at that request. -/
theorem authorize_readBack_iff_example :
    (∀ code location,
        authorizeLocation {} tenantSession "sid" tenantQuery [] (utf8 "xyz") code = .ok location →
        ReadBack (utf8 tenantURI) location code (utf8 "xyz")) ↔ Bare (utf8 tenantURI) := by
  have hcode : handleAuthorize {} tenantSession "sid" tenantQuery =
      .code (tenantQuery.request "u") := by decide +kernel
  exact authorize_readBack_iff hcode [] (utf8 "xyz")

end IdpForge
