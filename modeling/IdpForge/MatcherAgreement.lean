import IdpForge.ScopeIssuance

/-!
# Three Matchers of Permissions

`Resolved.Has` reads a permission as a pair. `Client.HasScope` and the `hasPermission` of the
web client read its `resource:action` string, and find the pair by cutting the string at its
first colon, so a resource with a colon comes back as another pair.

## Main results

* `webHasPermission_eq_hasScope`: the two that read strings are one function.
* `scopeGrant_string_iff`: a string spells its own permission when the resource has no colon.
* `matchers_agree_iff`: for which lists of permissions the three are one relation.
-/

open GoStrings

namespace IdpForge

/-! ### The web client -/

/-- `s.indexOf(c)`, where `none` is -1. -/
def indexOf (s : String) (c : Char) : Option Nat :=
  s.toList.findIdx? (· = c)

/-- `s.slice(from, to)` for `from` and `to` within the string. -/
def slice (s : String) (start stop : Nat) : String :=
  String.ofList ((s.toList.take stop).drop start)

/-- `s.endsWith(suffix)`. -/
def endsWith (s suffix : String) : Bool :=
  suffix.toList.isSuffixOf s.toList

/-- `hasPermission` of `web/lib/permissions.ts`. -/
def webHasPermission (permissions : List String) (resource action : String) : Bool :=
  permissions.any fun p =>
    match indexOf p ':' with
    | none => false
    | some sep =>
        let res := slice p 0 sep
        let act := slice p (sep + 1) p.length
        if act ≠ action then false
        else if res = resource ∨ res = "*" then true
        else if endsWith res "/*" then
          let folder := slice res 0 (res.length - 2)
          resource = folder || hasPrefix resource (folder ++ "/")
        else false

/-- The permissions in the answer of `handleMe`. -/
def mePermissions (resolved : Resolved) : List String :=
  resolved.permissions.map fun p => p.resource ++ ":" ++ p.action

/-- The check of `handleCreatePermission` on its body. -/
def createPermissionCheck (body : Option Permission) : Except FiberError Permission :=
  match body with
  | none => newError 400 "resource and action are required"
  | some req =>
      if req.resource = "" ∨ req.action = "" then
        newError 400 "resource and action are required"
      else .ok req

section Strings

variable {s resource action : String} {c : Char}

/-- The two slices around the first occurrence are what `cut` returns. -/
theorem cut_eq_slices (s : String) (c : Char) :
    cut s c = (indexOf s c).map fun i => (slice s 0 i, slice s (i + 1) s.length) := by
  cases hindex : indexOf s c with
  | none =>
      rw [Option.map_none, Option.eq_none_iff_forall_ne_some]
      rintro ⟨before, after⟩ hcut
      obtain ⟨rfl, -⟩ := cut_eq_some_iff.mp hcut
      rw [indexOf, List.findIdx?_eq_none_iff] at hindex
      simpa using hindex c (by simp)
  | some i =>
      obtain ⟨hi, hc, hbefore⟩ := List.findIdx?_eq_some_iff_getElem.mp hindex
      rw [decide_eq_true_eq] at hc
      have hbeforeText : (slice s 0 i).toList = s.toList.take i := by simp [slice]
      have hafterText : (slice s (i + 1) s.length).toList = s.toList.drop (i + 1) := by
        rw [slice, String.toList_ofList, ← String.length_toList, List.take_length]
      rw [Option.map_some, cut_eq_some_iff, hbeforeText, ← String.toList_inj]
      constructor
      · calc s.toList = s.toList.take i ++ s.toList.drop i := (List.take_append_drop i _).symm
          _ = s.toList.take i ++ c :: s.toList.drop (i + 1) := by
            rw [List.drop_eq_getElem_cons hi, hc]
          _ = (slice s 0 i ++ String.singleton c ++ slice s (i + 1) s.length).toList := by
            simp [hbeforeText, hafterText]
      · intro hmem
        obtain ⟨j, hj, heq⟩ := List.getElem_of_mem hmem
        rw [List.getElem_take] at heq
        rw [List.length_take] at hj
        have hnot := hbefore j (by omega)
        simp [heq] at hnot

/-- `endsWith` and `slice` find the folder that `CutSuffix` finds. -/
theorem cutSuffix_eq_slice (res : String) :
    cutSuffix res "/*" =
      if endsWith res "/*" then some (slice res 0 (res.length - 2)) else none := by
  rw [slice, ← String.length_toList]
  rfl

/-- **The web client reads strings as `HasScope` does.** -/
theorem webHasPermission_eq_hasScope (client : ApiClient) (resource action : String) :
    webHasPermission client.scopes resource action = client.hasScope resource action := by
  rw [webHasPermission, ApiClient.hasScope]
  refine congrArg client.scopes.any (funext fun p => ?_)
  rw [cut_eq_slices]
  cases indexOf p ':' with
  | none => rfl
  | some sep =>
      dsimp only [Option.map_some]
      rw [cutSuffix_eq_slice]
      by_cases hact : slice p (sep + 1) p.length = action
      · by_cases hres : slice p 0 sep = resource ∨ slice p 0 sep = "*"
        · rcases hres with hres | hres <;> simp [hact, hres]
        · obtain ⟨hne, hstar⟩ := not_or.mp hres
          cases hends : endsWith (slice p 0 sep) "/*" <;> simp [hact, hne, hstar]
      · simp [hact]

/-- A string spells its own permission when the resource has no colon. -/
theorem scopeGrant_string_iff {p : Permission} :
    scopeGrant p.string = some p ↔ ':' ∉ p.resource.toList := by
  have hcut : scopeGrant p.string = some p ↔
      cut p.string ':' = some (p.resource, p.action) := by
    rw [scopeGrant]
    cases cut p.string ':' with
    | none => simp
    | some pair => cases p; simp [Prod.ext_iff]
  rw [hcut, cut_eq_some_iff]
  exact ⟨fun h => h.2, fun h => ⟨rfl, h⟩⟩

/-- A grant covers all that it covers. -/
theorem Permission.dominates_refl (p : Permission) : p.dominates p = true := by
  refine Permission.dominates_iff.mpr ⟨rfl, WildcardPattern.covers_refl _, fun h => ?_⟩
  have hlength := congrArg List.length h.2
  simp at hlength

end Strings

/-! ### One relation -/

/-- On every request, a user with the permissions, a client with their strings as scopes, and
the web client with the strings of `/api/v1/me` get the same answer. -/
def MatchersAgree (permissions : List Permission) : Prop :=
  ∀ (resolved : Resolved) (client : ApiClient), resolved.permissions = permissions →
    client.scopes = permissions.map Permission.string → ∀ resource action,
      resolved.has resource action = client.hasScope resource action ∧
        resolved.has resource action =
          webHasPermission (mePermissions resolved) resource action

/-- A permission whose resource has a colon is redundant in both readings: another string
spells a grant of all that it grants, and all that its own string spells is granted. -/
def ColonsRedundant (permissions : List Permission) : Prop :=
  ∀ p ∈ permissions, ':' ∈ p.resource.toList →
    (∃ q ∈ permissions, ∃ g, scopeGrant q.string = some g ∧ g.dominates p = true) ∧
      ∀ g, scopeGrant p.string = some g → ∃ q ∈ permissions, q.dominates g = true

section Agreement

variable {permissions : List Permission}

/-- The permissions and their strings grant the same when each of the permissions is granted
by the strings, and each grant the strings spell by the permissions. -/
theorem same_grants_iff (grants : List Permission) :
    (∀ resource action,
        (∃ p ∈ permissions, p.action = action ∧ PatternCovers p.resource resource) ↔
          ∃ g ∈ grants, g.action = action ∧ PatternCovers g.resource resource) ↔
      (∀ p ∈ permissions, ∃ g ∈ grants, g.dominates p = true) ∧
        ∀ g ∈ grants, ∃ p ∈ permissions, p.dominates g = true := by
  constructor
  · intro h
    refine ⟨fun p hp => ?_, fun g hg => ?_⟩
    · exact (covered_by_grants_iff grants p).mp fun resource hr =>
        (h resource p.action).mp ⟨p, hp, rfl, hr⟩
    · exact (covered_by_grants_iff permissions g).mp fun resource hr =>
        (h resource g.action).mpr ⟨g, hg, rfl, hr⟩
  · rintro ⟨hforth, hback⟩ resource action
    constructor
    · rintro ⟨p, hp, rfl, hr⟩
      exact (covered_by_grants_iff grants p).mpr (hforth p hp) resource hr
    · rintro ⟨g, hg, rfl, hr⟩
      exact (covered_by_grants_iff permissions g).mpr (hback g hg) resource hr

/-- The grants that the strings of the permissions spell. -/
theorem mem_spelled_iff {g : Permission} :
    g ∈ (permissions.map Permission.string).filterMap scopeGrant ↔
      ∃ q ∈ permissions, scopeGrant q.string = some g := by
  simp

/-- Only the resources with a colon matter. -/
theorem colonsRedundant_iff :
    ColonsRedundant permissions ↔
      (∀ p ∈ permissions, ∃ g ∈ (permissions.map Permission.string).filterMap scopeGrant,
          g.dominates p = true) ∧
        ∀ g ∈ (permissions.map Permission.string).filterMap scopeGrant,
          ∃ p ∈ permissions, p.dominates g = true := by
  constructor
  · intro h
    refine ⟨fun p hp => ?_, fun g hg => ?_⟩
    · by_cases hcolon : ':' ∈ p.resource.toList
      · obtain ⟨⟨q, hq, g, hg, hdom⟩, -⟩ := h p hp hcolon
        exact ⟨g, mem_spelled_iff.mpr ⟨q, hq, hg⟩, hdom⟩
      · exact ⟨p, mem_spelled_iff.mpr ⟨p, hp, scopeGrant_string_iff.mpr hcolon⟩,
          p.dominates_refl⟩
    · obtain ⟨p, hp, hspells⟩ := mem_spelled_iff.mp hg
      by_cases hcolon : ':' ∈ p.resource.toList
      · exact (h p hp hcolon).2 g hspells
      · obtain rfl : p = g :=
          Option.some.inj ((scopeGrant_string_iff.mpr hcolon).symm.trans hspells)
        exact ⟨p, hp, p.dominates_refl⟩
  · rintro ⟨hforth, hback⟩ p hp -
    obtain ⟨g, hg, hdom⟩ := hforth p hp
    obtain ⟨q, hq, hspells⟩ := mem_spelled_iff.mp hg
    exact ⟨⟨q, hq, g, hspells, hdom⟩,
      fun g hg => hback g (mem_spelled_iff.mpr ⟨p, hp, hg⟩)⟩

end Agreement

/-- **When the three matchers are one relation.** A list of permissions is read alike by
`Resolved.Has`, by `HasScope` from its strings and by the web client from the strings of
`/api/v1/me` if and only if its permissions whose resources have a colon are redundant. -/
theorem matchers_agree_iff (permissions : List Permission) :
    MatchersAgree permissions ↔ ColonsRedundant permissions := by
  rw [colonsRedundant_iff, ← same_grants_iff]
  constructor
  · intro h resource action
    have hsame := (h ⟨"", [], permissions⟩
      ⟨"", "", [], permissions.map Permission.string, [], 0, 0, true⟩ rfl rfl resource action).1
    rw [Bool.eq_iff_iff, Resolved.has_iff, ApiClient.hasScope_iff] at hsame
    exact hsame
  · rintro h resolved client rfl hscopes resource action
    have hsame : resolved.has resource action = client.hasScope resource action := by
      rw [Bool.eq_iff_iff, Resolved.has_iff, ApiClient.hasScope_iff, ApiClient.grants, hscopes]
      exact h resource action
    have hweb : mePermissions resolved = client.scopes := hscopes.symm
    refine ⟨hsame, ?_⟩
    rw [hweb, webHasPermission_eq_hasScope]
    exact hsame

/-- A permission that can be created, on a resource whose name has a colon, is held by the
user and not by the client. -/
theorem matchers_disagree_on_colon :
    ¬ ∀ permissions : List Permission,
      (∀ p ∈ permissions, createPermissionCheck (some p) = .ok p) → MatchersAgree permissions := by
  intro h
  have hagree := h [⟨"app:grafana", "view"⟩] (by decide +kernel)
  have hsame := (hagree ⟨"u", [], [⟨"app:grafana", "view"⟩]⟩
    ⟨"c", "ci", [], ["app:grafana:view"], [], 0, 0, true⟩ rfl rfl "app:grafana" "view").1
  exact absurd hsame (by decide +kernel)

end IdpForge
