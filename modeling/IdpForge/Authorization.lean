import IdpForge.Permission

/-!
# Who May Pass

The checks the HTTP layer makes on the actor of a request. `authenticateAny` leaves the
actor in the request's locals, either a user id or an API client; `requirePermission`,
`requireUserActor` and `requireOwnScopes` read it from there. A user's rights come from the
RBAC resolver, which is a parameter here: `resolve userID` is the resolution the call to
`Resolve` returns, or `none` when it returns an error.

## Main results

* `requirePermission_eq_ok_iff`, `requireOwnScopes_eq_ok_iff`: the checks pass exactly when
  the actor holds what they ask for.
* `Locals.holds_iff`: a user and an API client hold a right in the same way, through a
  grant whose pattern covers the resource.
-/

open GoStrings

namespace IdpForge

/-- `*fiber.Error`: a status code and the message sent to the client. -/
structure FiberError where
  code : Nat
  message : String
  deriving DecidableEq, Repr

/-- `fiber.NewError`. -/
def newError {α : Type*} (code : Nat) (message : String) : Except FiberError α :=
  .error ⟨code, message⟩

/-- The locals the middleware sets, all missing at the start of a request. The empty user
id stands for a missing one: every reader tests `ok && uid != ""`. -/
structure Locals where
  userID : String := ""
  apiClient : Option ApiClient := none
  deviceID : String := ""
  canSeeAudit : Bool := false
  deriving DecidableEq, Repr

section Actor

variable (resolve : String → Option Resolved)

/-- `Resolver.HasPermission`, `none` when the resolution fails. -/
def hasPermission (userID resource action : String) : Option Bool :=
  (resolve userID).map fun resolved => resolved.has resource action

/-- `requirePermission`. -/
def requirePermission (resource action : String) (locals : Locals) : Except FiberError Unit :=
  if locals.userID ≠ "" then
    match hasPermission resolve locals.userID resource action with
    | none => newError 500 "permission check failed"
    | some allowed =>
        if !allowed then newError 403 ("missing permission " ++ resource ++ ":" ++ action)
        else .ok ()
  else
    match locals.apiClient with
    | some client =>
        if !client.hasScope resource action then
          newError 403 ("API client missing scope " ++ resource ++ ":" ++ action)
        else .ok ()
    | none => newError 401 "not authenticated"

/-- `requireUserActor`. -/
def requireUserActor (locals : Locals) : Except FiberError Unit :=
  if locals.userID = "" then
    newError 403 "this endpoint requires a user session, not an API client"
  else .ok ()

/-- `splitScope`: the text before and after the last colon. -/
def splitScope (scope : String) : Option (String × String) :=
  cutLast scope ':'

/-- The body of the loop of `requireOwnScopes` at one scope string. -/
def requireOwnScope (locals : Locals) (scope : String) : Except FiberError Unit :=
  match splitScope scope with
  | none => newError 400 ("invalid scope " ++ scope ++ ", want resource:action")
  | some (resource, action) =>
      if locals.userID ≠ "" then
        match hasPermission resolve locals.userID resource action with
        | none => newError 500 "permission check failed"
        | some allowed =>
            if !allowed then newError 403 ("cannot grant scope you do not hold: " ++ scope)
            else .ok ()
      else
        match locals.apiClient with
        | some client =>
            if !client.hasScope resource action then
              newError 403 ("cannot grant scope you do not hold: " ++ scope)
            else .ok ()
        | none => newError 401 "not authenticated"

/-- `requireOwnScopes`: every requested scope must be held by the issuing actor. -/
def requireOwnScopes (locals : Locals) : List String → Except FiberError Unit
  | [] => .ok ()
  | scope :: scopes =>
      match requireOwnScope resolve locals scope with
      | .error e => .error e
      | .ok () => requireOwnScopes locals scopes

/-- `actorID`: a traceable identifier of whoever authenticated the request. -/
def actorID (locals : Locals) : String :=
  if locals.userID ≠ "" then locals.userID
  else
    match locals.apiClient with
    | some client => "apiclient:" ++ client.id
    | none => ""

/-- Whether the actor holds (resource, action): `Resolved.Has` for a user, `HasScope` for an
API client. -/
def Locals.holds (locals : Locals) (resource action : String) : Bool :=
  if locals.userID ≠ "" then
    (hasPermission resolve locals.userID resource action).getD false
  else
    match locals.apiClient with
    | some client => client.hasScope resource action
    | none => false

/-- The permissions an actor holds: a user's resolved ones, or those an API client's scopes
spell. -/
def Locals.grants (locals : Locals) : List Permission :=
  if locals.userID ≠ "" then
    match resolve locals.userID with
    | some resolved => resolved.permissions
    | none => []
  else
    match locals.apiClient with
    | some client => client.grants
    | none => []

/-- Users and API clients hold a right through a grant that covers it. -/
theorem Locals.holds_iff {locals : Locals} {resource action : String} :
    locals.holds resolve resource action = true ↔
      ∃ g ∈ locals.grants resolve, g.action = action ∧ PatternCovers g.resource resource := by
  rw [Locals.holds, Locals.grants, hasPermission]
  split
  · cases resolve locals.userID with
    | none => simp
    | some resolved => simpa using Resolved.has_iff
  · cases locals.apiClient with
    | none => simp
    | some client => simpa using ApiClient.hasScope_iff

/-- The question that `requirePermission` and `requireOwnScopes` ask, with their messages left open,
is answered for exactly the holders. -/
theorem decision_eq_ok_iff {locals : Locals} {resource action : String}
    (userMessage clientMessage : String) :
    (if locals.userID ≠ "" then
        match hasPermission resolve locals.userID resource action with
        | none => newError 500 "permission check failed"
        | some allowed => if !allowed then newError 403 userMessage else .ok ()
      else
        match locals.apiClient with
        | some client =>
            if !client.hasScope resource action then newError 403 clientMessage else .ok ()
        | none => newError 401 "not authenticated" : Except FiberError Unit) = .ok () ↔
      locals.holds resolve resource action = true := by
  rw [Locals.holds]
  split
  · cases hasPermission resolve locals.userID resource action with
    | none => simp [newError]
    | some allowed => cases allowed <;> simp [newError]
  · cases locals.apiClient with
    | none => simp [newError]
    | some client => cases h : client.hasScope resource action <;> simp [newError, h]

/-- `requirePermission` lets exactly the holders pass. -/
theorem requirePermission_eq_ok_iff {locals : Locals} {resource action : String} :
    requirePermission resolve resource action locals = .ok () ↔
      locals.holds resolve resource action = true :=
  decision_eq_ok_iff resolve _ _

/-- `requireUserActor` lets exactly the users pass. -/
theorem requireUserActor_eq_ok_iff {locals : Locals} :
    requireUserActor locals = .ok () ↔ locals.userID ≠ "" := by
  rw [requireUserActor]
  split
  · next hempty => simp [newError, hempty]
  · next hne => simp [hne]

/-- One scope string is accepted when it has a colon and the issuer holds the pair it
splits into at the last one. -/
theorem requireOwnScope_eq_ok_iff {locals : Locals} {scope : String} :
    requireOwnScope resolve locals scope = .ok () ↔
      ∃ resource action, splitScope scope = some (resource, action) ∧
        locals.holds resolve resource action = true := by
  rw [requireOwnScope]
  cases hsplit : splitScope scope with
  | none => simp [newError]
  | some pair =>
      obtain ⟨resource, action⟩ := pair
      simp only [Option.some.injEq, Prod.mk.injEq, exists_and_left, exists_eq_left', and_assoc]
      exact decision_eq_ok_iff resolve _ _

/-- `requireOwnScopes` accepts a list when it accepts every string of it. -/
theorem requireOwnScopes_eq_ok_iff {locals : Locals} {scopes : List String} :
    requireOwnScopes resolve locals scopes = .ok () ↔
      ∀ scope ∈ scopes, requireOwnScope resolve locals scope = .ok () := by
  induction scopes with
  | nil => simp [requireOwnScopes]
  | cons scope scopes ih =>
      rw [requireOwnScopes, List.forall_mem_cons, ← ih]
      cases requireOwnScope resolve locals scope with
      | error e => simp
      | ok u => simp

end Actor

end IdpForge
