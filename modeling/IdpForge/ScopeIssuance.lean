import IdpForge.Authorization

/-!
# Issuing Scoped Tokens

`handleCreateAPIClient` lets an actor create an API client with a list of scopes, after
`requireOwnScopes` has found the actor to hold each of them. The check and the use read a
scope string differently: the check splits it at the last colon and asks for the resource
as a concrete string, while `HasScope` cuts it at the first colon and reads the resource as
a pattern. A token is contained in its issuer's rights when both readings agree, which
`Permission.dominates` makes precise.

## Main results

* `handleCreateAPIClient_scopes`: a created client carries exactly the checked scopes.
* `created_client_contained_iff`: it stays within its issuer's rights exactly when each of
  them is dominated by a grant of the issuer.
* `issued_scopes_contained_iff`: an accepted scope list stays within the issuer's rights
  exactly when each scope, read the way `HasScope` reads it, is dominated by a grant of the
  issuer.
-/

open GoStrings

namespace IdpForge

/-- The JSON body of the creation request. -/
structure CreateAPIClientRequest where
  name : String
  allowedFields : List String
  scopes : List String
  allowedIPs : List String
  rateLimitMax : Int
  rateLimitWindowSeconds : Int
  deriving DecidableEq, Repr

/-- `apiclient.Repository.Create`: the stored client under its fresh id, `none` when the
insert fails. -/
def createAPIClient (req : CreateAPIClientRequest) (id : String) (inserted : Bool) :
    Option ApiClient :=
  if inserted then
    some {
      id := id
      name := req.name
      allowedFields := if req.allowedFields = [] then ["id", "username"] else req.allowedFields
      scopes := req.scopes
      allowedIPs := req.allowedIPs
      rateLimitMax := req.rateLimitMax
      rateLimitWindowSeconds := req.rateLimitWindowSeconds
      enabled := true }
  else none

/-- `handleCreateAPIClient` on a parsed body. -/
def handleCreateAPIClient (resolve : String → Option Resolved) (locals : Locals)
    (req : CreateAPIClientRequest) (id : String) (inserted : Bool) :
    Except FiberError ApiClient :=
  if req.name = "" then newError 400 "name is required"
  else
    let req := { req with
      rateLimitMax := if req.rateLimitMax ≤ 0 then 60 else req.rateLimitMax
      rateLimitWindowSeconds :=
        if req.rateLimitWindowSeconds ≤ 0 then 60 else req.rateLimitWindowSeconds }
    match requireOwnScopes resolve locals req.scopes with
    | .error e => .error e
    | .ok () =>
        match createAPIClient req id inserted with
        | some client => .ok client
        | none => newError 409 "could not create API client"

/-- A created client carries the requested scopes, each of which spells a pair that the
issuer holds when it is cut at its last colon. -/
theorem handleCreateAPIClient_scopes {resolve : String → Option Resolved} {locals : Locals}
    {req : CreateAPIClientRequest} {id : String} {inserted : Bool} {client : ApiClient}
    (h : handleCreateAPIClient resolve locals req id inserted = .ok client) :
    client.scopes = req.scopes ∧ ∀ scope ∈ req.scopes, ∃ resource action,
      splitScope scope = some (resource, action) ∧
        locals.holds resolve resource action = true := by
  rw [handleCreateAPIClient] at h
  split at h
  · simp [newError] at h
  · cases hown : requireOwnScopes resolve locals req.scopes with
    | error e => simp [hown] at h
    | ok u =>
        cases inserted with
        | false => simp [hown, newError, createAPIClient] at h
        | true =>
            simp only [hown, createAPIClient, if_true, Except.ok.injEq] at h
            refine ⟨h ▸ rfl, fun scope hscope => ?_⟩
            have hchecked := (requireOwnScopes_eq_ok_iff resolve).mp hown scope hscope
            exact (requireOwnScope_eq_ok_iff resolve).mp hchecked

/-- The pair a scope is checked for is the one it grants exactly when the resource has no
colon: the check cuts at the last one, and the scope is read at the first. -/
theorem scopeGrant_eq_checked_iff {scope resource action : String}
    (h : splitScope scope = some (resource, action)) :
    scopeGrant scope = some ⟨resource, action⟩ ↔ ':' ∉ resource.toList := by
  obtain ⟨hscope, -⟩ := cutLast_eq_some_iff.mp h
  have hcut : scopeGrant scope = some ⟨resource, action⟩ ↔
      cut scope ':' = some (resource, action) := by
    rw [scopeGrant]
    cases cut scope ':' with
    | none => simp
    | some pair => simp [Prod.ext_iff]
  rw [hcut, cut_eq_some_iff]
  exact ⟨fun h => h.2, fun h => ⟨hscope, h⟩⟩

/-- The resource is `*` or ends in `/*`. -/
def isWildcard (resource : String) : Bool :=
  resource = "*" || (cutSuffix resource "/*").isSome

/-- The grant `g` matches the resource of `p` as a concrete string, and not merely because
it is the folder named like the wildcard `p.resource`. -/
def Permission.dominates (g p : Permission) : Bool :=
  g.action = p.action && g.matchesResource p.resource &&
    !(isWildcard p.resource && g.resource = p.resource ++ "/*")

/-- `isWildcard` decides which patterns stand for more than themselves. -/
theorem isWildcard_iff {resource : String} :
    isWildcard resource = true ↔ WildcardPattern.Wild '/' '*' resource.toList := by
  rw [isWildcard, WildcardPattern.Wild, Bool.or_eq_true, decide_eq_true_eq,
    Option.isSome_iff_exists, ← String.toList_inj]
  refine or_congr Iff.rfl ⟨?_, ?_⟩
  · rintro ⟨folder, hf⟩
    exact ⟨folder.toList, cutSuffix_wildcard_iff.mp hf⟩
  · rintro ⟨q, hq⟩
    exact ⟨String.ofList q, cutSuffix_wildcard_iff.mpr (by simpa using hq)⟩

/-- Domination is equality of actions and containment of languages. -/
theorem Permission.dominates_iff {g p : Permission} :
    g.dominates p = true ↔
      g.action = p.action ∧
        WildcardPattern.Subsumes '/' '*' g.resource.toList p.resource.toList := by
  have happend : g.resource = p.resource ++ "/*" ↔
      g.resource.toList = p.resource.toList ++ ['/', '*'] := by
    rw [← String.toList_inj, String.toList_append]
    rfl
  rw [Permission.dominates, WildcardPattern.Subsumes, Bool.and_eq_true, Bool.and_eq_true,
    decide_eq_true_eq, Permission.matchesResource_iff, Bool.not_eq_true', ← Bool.not_eq_true,
    Bool.and_eq_true, decide_eq_true_eq, isWildcard_iff, happend, and_assoc]
  rfl

/-- A list of grants covers a pattern for an action when one of them dominates it. -/
theorem covered_by_grants_iff (grants : List Permission) (p : Permission) :
    (∀ resource, PatternCovers p.resource resource →
        ∃ g ∈ grants, g.action = p.action ∧ PatternCovers g.resource resource) ↔
      ∃ g ∈ grants, g.dominates p = true := by
  have hcov := WildcardPattern.covered_iff_exists_subsumes (by decide : '/' ≠ '*')
    p.resource.toList ((grants.filter fun g => g.action = p.action).map (·.resource.toList))
  simp only [List.mem_map, List.mem_filter, decide_eq_true_eq] at hcov
  constructor
  · intro h
    have hall : ∀ r, WildcardPattern.Covers '/' '*' p.resource.toList r →
        ∃ q, (∃ g, (g ∈ grants ∧ g.action = p.action) ∧ g.resource.toList = q) ∧
          WildcardPattern.Covers '/' '*' q r := by
      intro r hr
      obtain ⟨g, hg, hact, hgr⟩ := h (String.ofList r) (by simpa [PatternCovers] using hr)
      exact ⟨_, ⟨g, ⟨hg, hact⟩, rfl⟩, by simpa [PatternCovers] using hgr⟩
    obtain ⟨_, ⟨g, ⟨hg, hact⟩, rfl⟩, hsub⟩ := hcov.mp hall
    exact ⟨g, hg, Permission.dominates_iff.mpr ⟨hact, hsub⟩⟩
  · rintro ⟨g, hg, hdom⟩ resource hr
    obtain ⟨hact, hsub⟩ := Permission.dominates_iff.mp hdom
    exact ⟨g, hg, hact, hsub.covers (by decide) hr⟩

/-- The client that carries a scope list holds only what the issuer holds if and only if
every scope, cut at its first colon, is dominated by a grant of the issuer. -/
theorem scopes_contained_iff {resolve : String → Option Resolved} {locals : Locals}
    {scopes : List String} :
    (∀ client : ApiClient, client.scopes = scopes → ∀ resource action,
        client.hasScope resource action = true →
          locals.holds resolve resource action = true) ↔
      ∀ scope ∈ scopes, ∀ p, scopeGrant scope = some p →
        ∃ g ∈ locals.grants resolve, g.dominates p = true := by
  constructor
  · intro h scope hscope p hp
    refine (covered_by_grants_iff _ p).mp fun resource hr => ?_
    have hscoped : ApiClient.hasScope ⟨"", "", [], scopes, [], 0, 0, true⟩ resource p.action
        = true :=
      ApiClient.hasScope_iff.mpr ⟨p, List.mem_filterMap.mpr ⟨scope, hscope, hp⟩, rfl, hr⟩
    exact (Locals.holds_iff resolve).mp (h _ rfl resource p.action hscoped)
  · rintro h client rfl resource action hscoped
    obtain ⟨p, hp, rfl, hr⟩ := ApiClient.hasScope_iff.mp hscoped
    obtain ⟨scope, hscope, hspell⟩ := List.mem_filterMap.mp hp
    refine (Locals.holds_iff resolve).mpr ?_
    exact (covered_by_grants_iff _ p).mpr (h scope hscope p hspell) resource hr

/-- A client that was created stays within its issuer's rights exactly when every scope of the
request is dominated by a grant of the issuer. -/
theorem created_client_contained_iff {resolve : String → Option Resolved} {locals : Locals}
    {req : CreateAPIClientRequest} {id : String} {inserted : Bool} {client : ApiClient}
    (h : handleCreateAPIClient resolve locals req id inserted = .ok client) :
    (∀ resource action, client.hasScope resource action = true →
        locals.holds resolve resource action = true) ↔
      ∀ scope ∈ req.scopes, ∀ p, scopeGrant scope = some p →
        ∃ g ∈ locals.grants resolve, g.dominates p = true := by
  obtain ⟨hscopes, -⟩ := handleCreateAPIClient_scopes h
  rw [← scopes_contained_iff]
  constructor
  · intro hcontained other hother resource action hscoped
    have hsame : other.hasScope resource action = client.hasScope resource action := by
      rw [ApiClient.hasScope, ApiClient.hasScope, hother, hscopes]
    exact hcontained resource action (hsame ▸ hscoped)
  · intro hall
    exact hall client hscopes

/-- **Containment of an issued token.** Where the scope list is accepted, the issued client
stays within its issuer's rights exactly when every scope, read the way `HasScope` reads
it, is dominated by a grant of the issuer. -/
theorem issued_scopes_contained_iff (resolve : String → Option Resolved) (locals : Locals)
    (scopes : List String) :
    (requireOwnScopes resolve locals scopes = .ok () →
        ∀ client : ApiClient, client.scopes = scopes → ∀ resource action,
          client.hasScope resource action = true →
            locals.holds resolve resource action = true) ↔
      (requireOwnScopes resolve locals scopes = .ok () →
        ∀ scope ∈ scopes, ∀ p, scopeGrant scope = some p →
          ∃ g ∈ locals.grants resolve, g.dominates p = true) :=
  imp_congr_right fun _ => scopes_contained_iff

/-- A user whose resolution is the given permission list. -/
def resolvedAs (userID : String) (permissions : List Permission) :
    String → Option Resolved :=
  fun id => if id = userID then some ⟨userID, [], permissions⟩ else none

/-- A user who holds the folder `*/*` is allowed to issue the scope `*:read`, and the client
then reads `users`, which the user may not. -/
theorem issued_scopes_escalate :
    ¬ ∀ (resolve : String → Option Resolved) (locals : Locals) (scopes : List String),
      requireOwnScopes resolve locals scopes = .ok () →
        ∀ client : ApiClient, client.scopes = scopes → ∀ resource action,
          client.hasScope resource action = true →
            locals.holds resolve resource action = true := by
  intro h
  have hread := h (resolvedAs "u1" [⟨"api_clients", "manage"⟩, ⟨"*/*", "read"⟩])
    { userID := "u1" } ["*:read"] (by decide) ⟨"c1", "token", [], ["*:read"], [], 60, 60, true⟩ rfl
    "users" "read" (by decide)
  exact absurd hread (by decide)

end IdpForge
