import IdpForge.GoStrings
import IdpForge.WildcardPattern

/-!
# Permissions and Scopes

The two holders of rights in IdpForge and the matchers that read them. A `Permission` is a
(resource, action) pair whose resource may be the wildcard `*` or a folder wildcard such as
`reports/*`; a `Resolved` is the flattened list of a user's permissions, read by
`Resolved.has`. An `ApiClient` carries its rights as `resource:action` strings, read by
`ApiClient.hasScope`, which cuts each string at its first colon.

Both matchers instantiate the language of `WildcardPattern` at the letters `/` and `*`.

## Main results

* `Permission.matchesResource_iff`: a permission matches a resource when its pattern covers
  it.
* `ApiClient.hasScope_iff`: a client's scopes act as the list of permissions `grants` they
  spell.
* `wildcard_matches_segments`: the patterns as lists of path segments.
-/

open GoStrings

namespace IdpForge

/-- `rbac.Permission`: a single (resource, action) grant. -/
structure Permission where
  resource : String
  action : String
  deriving DecidableEq, Repr

/-- `Permission.matches`: the exact resource, the bare `*`, or a folder and what is below
it. -/
def Permission.matchesResource (p : Permission) (resource : String) : Bool :=
  if p.resource = resource ∨ p.resource = "*" then true
  else
    match cutSuffix p.resource "/*" with
    | some folder => resource = folder || hasPrefix resource (folder ++ "/")
    | none => false

/-- `Permission.String`. -/
def Permission.string (p : Permission) : String :=
  p.resource ++ ":" ++ p.action

/-- `rbac.Resolved`: the flattened result of resolving a user. -/
structure Resolved where
  userID : String
  roleNames : List String
  permissions : List Permission
  deriving DecidableEq, Repr

/-- `Resolved.Has`. -/
def Resolved.has (r : Resolved) (resource action : String) : Bool :=
  r.permissions.any fun p => p.action = action && p.matchesResource resource

/-- `apiclient.Client`, the fields the request path reads. -/
structure ApiClient where
  id : String
  name : String
  allowedFields : List String
  scopes : List String
  allowedIPs : List String
  rateLimitMax : Int
  rateLimitWindowSeconds : Int
  enabled : Bool
  deriving DecidableEq, Repr

/-- `Client.HasScope`: some scope string, cut at its first colon, names the action and
covers the resource. -/
def ApiClient.hasScope (c : ApiClient) (resource action : String) : Bool :=
  c.scopes.any fun s =>
    match cut s ':' with
    | none => false
    | some (res, act) =>
        act = action &&
          (res = resource || res = "*" ||
            match cutSuffix res "/*" with
            | some folder => resource = folder || hasPrefix resource (folder ++ "/")
            | none => false)

/-! ### The matchers as languages -/

/-- A pattern and a resource as words over the letters `/` and `*`. -/
def PatternCovers (pattern resource : String) : Prop :=
  WildcardPattern.Covers '/' '*' pattern.toList resource.toList

/-- The folder part of a wildcard matches the folder and what is below it. -/
theorem covers_folder_iff {folder resource : String} :
    (resource = folder ∨ hasPrefix resource (folder ++ "/") = true) ↔
      resource.toList = folder.toList ∨ ∃ t, resource.toList = folder.toList ++ '/' :: t := by
  rw [hasPrefix_iff, String.toList_inj]
  refine or_congr_right ?_
  constructor
  · rintro ⟨t, rfl⟩
    exact ⟨t.toList, by simp⟩
  · rintro ⟨t, ht⟩
    refine ⟨String.ofList t, ?_⟩
    rw [← String.toList_inj, ht]
    simp

/-- `cutSuffix` of `/*` finds the folder of a folder wildcard. -/
theorem cutSuffix_wildcard_iff {pattern folder : String} :
    cutSuffix pattern "/*" = some folder ↔ pattern.toList = folder.toList ++ ['/', '*'] := by
  rw [cutSuffix_eq_some_iff, ← String.toList_inj, String.toList_append]
  rfl

/-- The body of both matchers decides `PatternCovers`. -/
theorem patternCovers_iff {pattern resource : String} :
    PatternCovers pattern resource ↔
      pattern = resource ∨ pattern = "*" ∨
        ∃ folder, cutSuffix pattern "/*" = some folder ∧
          (resource = folder ∨ hasPrefix resource (folder ++ "/") = true) := by
  have hstar : pattern.toList = ['*'] ↔ pattern = "*" := by
    rw [← String.toList_inj]
    rfl
  rw [PatternCovers, WildcardPattern.Covers, String.toList_inj, hstar]
  refine or_congr_right (or_congr_right ?_)
  constructor
  · rintro ⟨q, hq, hr⟩
    refine ⟨String.ofList q, cutSuffix_wildcard_iff.mpr (by simpa using hq), ?_⟩
    exact covers_folder_iff.mpr (by simpa using hr)
  · rintro ⟨folder, hf, hr⟩
    exact ⟨folder.toList, cutSuffix_wildcard_iff.mp hf, covers_folder_iff.mp hr⟩

/-- The tail of both matchers, as a Boolean over the result of the cut. -/
theorem folder_match_eq_true {o : Option String} {resource : String} :
    (match o with
      | some folder => (decide (resource = folder) || hasPrefix resource (folder ++ "/"))
      | none => false) = true ↔
      ∃ folder, o = some folder ∧
        (resource = folder ∨ hasPrefix resource (folder ++ "/") = true) := by
  cases o with
  | none => simp
  | some f => simp

/-- **A permission matches what its pattern covers.** -/
theorem Permission.matchesResource_iff {p : Permission} {resource : String} :
    p.matchesResource resource = true ↔ PatternCovers p.resource resource := by
  rw [patternCovers_iff, Permission.matchesResource]
  split
  · next h => exact ⟨fun _ => h.imp_right Or.inl, fun _ => rfl⟩
  · next h =>
      push Not at h
      rw [folder_match_eq_true]
      exact ⟨fun hf => Or.inr (Or.inr hf),
        fun hf => (hf.resolve_left h.1).resolve_left h.2⟩

/-- `Resolved.has` finds a permission with the action whose pattern covers the resource. -/
theorem Resolved.has_iff {r : Resolved} {resource action : String} :
    r.has resource action = true ↔
      ∃ p ∈ r.permissions, p.action = action ∧ PatternCovers p.resource resource := by
  simp only [Resolved.has, List.any_eq_true, Bool.and_eq_true, decide_eq_true_eq,
    Permission.matchesResource_iff]

/-- The permission a scope string spells: the cut at its first colon. -/
def scopeGrant (scope : String) : Option Permission :=
  (cut scope ':').map fun cutAt => ⟨cutAt.1, cutAt.2⟩

/-- The permissions a client's scopes spell; a string without a colon spells none. -/
def ApiClient.grants (c : ApiClient) : List Permission :=
  c.scopes.filterMap scopeGrant

/-- **Scopes act as permissions.** `hasScope` finds a spelled permission with the action
whose pattern covers the resource. -/
theorem ApiClient.hasScope_iff {c : ApiClient} {resource action : String} :
    c.hasScope resource action = true ↔
      ∃ p ∈ c.grants, p.action = action ∧ PatternCovers p.resource resource := by
  simp only [ApiClient.hasScope, ApiClient.grants, scopeGrant, List.any_eq_true,
    List.mem_filterMap, Option.map_eq_some_iff]
  constructor
  · rintro ⟨s, hs, h⟩
    split at h
    · simp at h
    · next res act hcut =>
        rw [Bool.and_eq_true, decide_eq_true_eq, Bool.or_eq_true, Bool.or_eq_true,
          decide_eq_true_eq, decide_eq_true_eq, folder_match_eq_true, or_assoc,
          ← patternCovers_iff] at h
        exact ⟨⟨res, act⟩, ⟨s, hs, (res, act), hcut, rfl⟩, h⟩
  · rintro ⟨_, ⟨s, hs, ⟨res, act⟩, hcut, rfl⟩, hact, hcov⟩
    refine ⟨s, hs, ?_⟩
    rw [hcut]
    rw [patternCovers_iff] at hcov
    simp only [Bool.and_eq_true, decide_eq_true_eq, Bool.or_eq_true, folder_match_eq_true]
    exact ⟨hact, by simpa only [or_assoc] using hcov⟩

/-! ### Path segments -/

/-- `strings.Split(s, "/")`. -/
def segments (s : String) : List String :=
  (s.toList.splitOn '/').map String.ofList

/-- The pattern is related to the resource by segments. -/
def SegmentMatch (p r : String) : Prop :=
  p = "*" ∨ p = r ∨ ∃ q, p = q ++ "/*" ∧ segments q <+: segments r

/-- The segments of a folder are those its resources begin with. -/
theorem segments_prefix_iff {q r : String} :
    segments q <+: segments r ↔ r.toList = q.toList ∨ ∃ t, r.toList = q.toList ++ '/' :: t := by
  have hinj : Function.Injective String.ofList := fun a b h => by
    simpa using congrArg String.toList h
  rw [segments, segments, List.prefix_map_iff_of_injective hinj, WildcardPattern.splitOn_prefix_iff]

/-- The pattern language, by segments. -/
theorem patternCovers_iff_segmentMatch {p r : String} : PatternCovers p r ↔ SegmentMatch p r := by
  have hfolder : (∃ folder, cutSuffix p "/*" = some folder ∧
      (r = folder ∨ hasPrefix r (folder ++ "/") = true)) ↔
        ∃ q, p = q ++ "/*" ∧ segments q <+: segments r := by
    refine exists_congr fun q => and_congr cutSuffix_eq_some_iff ?_
    rw [covers_folder_iff, segments_prefix_iff]
  rw [patternCovers_iff, SegmentMatch, hfolder]
  exact or_left_comm

/-- **Wildcards match path segments.** A permission matches a resource exactly when its pattern
is `*`, or the resource, or a folder wildcard whose folder's segments the resource's begin
with; a resolved user has the permissions that are so related to the resource. A sibling whose
name merely begins with the folder's is never matched. -/
theorem wildcard_matches_segments :
    (∀ p r a, (⟨p, a⟩ : Permission).matchesResource r = true ↔ SegmentMatch p r) ∧
      (∀ (res : Resolved) r a, res.has r a = true ↔
        ∃ p ∈ res.permissions, p.action = a ∧ SegmentMatch p.resource r) ∧
      ∀ q s a, s ≠ "" → hasPrefix s "/" = false →
        (⟨q ++ "/*", a⟩ : Permission).matchesResource (q ++ s) = false := by
  refine ⟨fun p r a => ?_, fun res r a => ?_, fun q s a hne hslash => ?_⟩
  · rw [Permission.matchesResource_iff, patternCovers_iff_segmentMatch]
  · simp only [Resolved.has_iff, patternCovers_iff_segmentMatch]
  · rw [Bool.eq_false_iff, ne_eq, Permission.matchesResource_iff, patternCovers_iff]
    have hstart : ∀ t, s ≠ "/" ++ t := fun t ht => by
      have := hasPrefix_iff.mpr ⟨t, ht⟩
      simp [hslash] at this
    rintro (h | h | ⟨folder, hcut, h⟩)
    · exact hstart "*" ((String.append_right_inj q).mp h).symm
    · have hlength : q.toList.length + 2 = 1 := by
        simpa using congrArg (fun t => t.toList.length) h
      omega
    · obtain rfl := (String.append_left_inj "/*").mp (cutSuffix_eq_some_iff.mp hcut)
      rcases h with h | h
      · exact hne ((String.append_eq_left_iff).mp h)
      · obtain ⟨t, ht⟩ := hasPrefix_iff.mp h
        rw [String.append_assoc] at ht
        exact hstart t ((String.append_right_inj q).mp ht)

end IdpForge
