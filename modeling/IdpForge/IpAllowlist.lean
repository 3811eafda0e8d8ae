import IdpForge.Router

/-!
# Allowlists of Addresses

`IPAllowed` compares an entry with the client's address in two ways: a network in CIDR notation
contains the address or not, and any other entry is compared with the client's string. Addresses
have many spellings, IPv6 addresses above all.

The parsers of package `net` are those of a `NetLibrary`; an address is the same whether it is
written as an IPv4 address or as the IPv6 address it is mapped to.

## Main results

* `ipAllowed_withNet_iff`: what `IPAllowed` accepts.
* `ipAllowed_comparesAddresses_iff`: exactly when that is what the addresses say.
-/

namespace IdpForge

/-- `net.ParseIP`, `net.ParseCIDR` and `Contains`. What parses as an address has no slash, and is
no network. -/
structure NetLibrary where
  Address : Type
  Network : Type
  parseIP : String → Option Address
  parseCIDR : String → Option Network
  contains : Network → Address → Bool
  address_not_network : ∀ s, (parseIP s).isSome → parseCIDR s = none

/-- The environment with these parsers. -/
def Environment.withNet (env : Environment) (net : NetLibrary) : Environment :=
  { env with
    parseIP := fun s => (net.parseIP s).isSome
    cidrContains := fun entry ip =>
      match net.parseCIDR entry, net.parseIP ip with
      | some n, some a => net.contains n a
      | _, _ => false }

namespace NetLibrary

variable (net : NetLibrary)

/-- The entry is a network that contains the address. -/
def Covers (entry : String) (a : net.Address) : Prop :=
  ∃ n, net.parseCIDR entry = some n ∧ net.contains n a = true

/-- The address of the client is on the list, in whatever spelling, or in a network of it; an
empty list allows every client. -/
def AllowedByAddress (ip : String) (allowed : List String) : Prop :=
  allowed = [] ∨ ∃ a, net.parseIP ip = some a ∧
    ∃ entry ∈ allowed, net.parseIP entry = some a ∨ net.Covers entry a

/-- If the list spells the client's address at all, it does so in the client's spelling, or a
network of it contains the address. -/
def SpelledAlike (ip : String) (allowed : List String) : Prop :=
  ∀ a, net.parseIP ip = some a → (∃ entry ∈ allowed, net.parseIP entry = some a) →
    ip ∈ allowed ∨ ∃ entry ∈ allowed, net.Covers entry a

/-- Two entries are the same, or spell the same address. -/
def SameEntry (entry entry' : String) : Prop :=
  entry = entry' ∨ ∃ a, net.parseIP entry = some a ∧ net.parseIP entry' = some a

/-- The entries of each list are those of the other, up to the spelling of addresses. -/
def Respells (allowed allowed' : List String) : Prop :=
  (∀ entry ∈ allowed, ∃ entry' ∈ allowed', net.SameEntry entry entry') ∧
    ∀ entry' ∈ allowed', ∃ entry ∈ allowed, net.SameEntry entry' entry

end NetLibrary

section Allowlist

variable {env : Environment} {net : NetLibrary} {ip ip' : String} {allowed allowed' : List String}

/-- An entry is a network that contains the client's address. -/
theorem cidrContains_withNet_iff {entry : String} {a : net.Address} (ha : net.parseIP ip = some a) :
    (env.withNet net).cidrContains entry ip = true ↔ net.Covers entry a := by
  simp only [Environment.withNet, NetLibrary.Covers, ha]
  cases net.parseCIDR entry with
  | none => simp
  | some n => simp

/-- **What `IPAllowed` accepts**: the client's own spelling, or a network. -/
theorem ipAllowed_withNet_iff :
    ipAllowed (env.withNet net) ip allowed = true ↔
      allowed = [] ∨ ∃ a, net.parseIP ip = some a ∧
        (ip ∈ allowed ∨ ∃ entry ∈ allowed, net.Covers entry a) := by
  rw [ipAllowed]
  by_cases hempty : allowed = []
  · simp [hempty]
  · cases ha : net.parseIP ip with
    | none => simp [hempty, Environment.withNet, ha]
    | some a =>
        have hparse : (env.withNet net).parseIP ip = true := by simp [Environment.withNet, ha]
        simp only [hempty, if_false, hparse, Bool.not_true, Bool.false_eq_true, List.any_eq_true,
          Bool.or_eq_true, decide_eq_true_eq, cidrContains_withNet_iff ha, false_or,
          Option.some.injEq, exists_eq_left']
        constructor
        · rintro ⟨entry, hentry, rfl | hcovers⟩
          · exact .inl hentry
          · exact .inr ⟨entry, hentry, hcovers⟩
        · rintro (hmem | ⟨entry, hentry, hcovers⟩)
          · exact ⟨ip, hmem, .inl rfl⟩
          · exact ⟨entry, hentry, .inr hcovers⟩

/-- Two lists that respell each other, the other way around. -/
theorem Respells.symm (h : net.Respells allowed allowed') : net.Respells allowed' allowed :=
  ⟨h.2, h.1⟩

/-- Respelled entries allow the same addresses. -/
theorem AllowedByAddress.respell (hip : net.parseIP ip = net.parseIP ip')
    (hsame : net.Respells allowed allowed') (h : net.AllowedByAddress ip allowed) :
    net.AllowedByAddress ip' allowed' := by
  rcases h with rfl | ⟨a, ha, entry, hentry, hallows⟩
  · refine .inl (List.eq_nil_iff_forall_not_mem.mpr fun entry' hentry' => ?_)
    obtain ⟨entry, hentry, -⟩ := hsame.2 entry' hentry'
    simp at hentry
  · obtain ⟨entry', hentry', hrel⟩ := hsame.1 entry hentry
    refine .inr ⟨a, hip ▸ ha, entry', hentry', ?_⟩
    rcases hrel with rfl | ⟨b, hb, hb'⟩
    · exact hallows
    · rcases hallows with hspells | ⟨n, hn, -⟩
      · exact .inl (hb'.trans (hb.symm.trans hspells))
      · simp [net.address_not_network entry (by simp [hb])] at hn

/-- `IPAllowed` says what the addresses say where the list is spelled as the client is. -/
theorem ipAllowed_iff_spelledAlike (env : Environment) :
    (ipAllowed (env.withNet net) ip allowed = true ↔ net.AllowedByAddress ip allowed) ↔
      net.SpelledAlike ip allowed := by
  rw [ipAllowed_withNet_iff, NetLibrary.AllowedByAddress]
  constructor
  · rintro h a ha ⟨entry, hentry, hspells⟩
    rcases h.mpr (.inr ⟨a, ha, entry, hentry, .inl hspells⟩) with rfl | ⟨b, hb, hallowed⟩
    · simp at hentry
    · obtain rfl := Option.some.inj (ha.symm.trans hb)
      exact hallowed
  · refine fun h => or_congr_right (exists_congr fun a => and_congr_right fun ha => ?_)
    constructor
    · rintro (hmem | ⟨entry, hentry, hcovers⟩)
      · exact ⟨ip, hmem, .inl ha⟩
      · exact ⟨entry, hentry, .inr hcovers⟩
    · rintro ⟨entry, hentry, hspells | hcovers⟩
      · exact h a ha ⟨entry, hentry, hspells⟩
      · exact .inr ⟨entry, hentry, hcovers⟩

/-- **When allowlists compare addresses.** `IPAllowed` is true exactly of the clients whose
address is on the list, in whatever spelling, if and only if an address of the client that the
list spells is there in the client's own spelling or in a network. Where that is so before and
after, other spellings of the client and of the entries do not change the answer. -/
theorem ipAllowed_comparesAddresses_iff (env : Environment) (net : NetLibrary) :
    (∀ ip allowed,
      (ipAllowed (env.withNet net) ip allowed = true ↔ net.AllowedByAddress ip allowed) ↔
        net.SpelledAlike ip allowed) ∧
      ∀ ip ip' allowed allowed', net.parseIP ip = net.parseIP ip' →
        net.Respells allowed allowed' → net.SpelledAlike ip allowed →
        net.SpelledAlike ip' allowed' →
        ipAllowed (env.withNet net) ip allowed = ipAllowed (env.withNet net) ip' allowed' := by
  refine ⟨fun _ _ => ipAllowed_iff_spelledAlike env, fun ip ip' allowed allowed' hip hsame
    halike halike' => ?_⟩
  rw [Bool.eq_iff_iff, (ipAllowed_iff_spelledAlike env).mpr halike,
    (ipAllowed_iff_spelledAlike env).mpr halike']
  exact ⟨AllowedByAddress.respell hip hsame, AllowedByAddress.respell hip.symm hsame.symm⟩

end Allowlist

/-- The parsers on the strings of the example: two spellings of one address, and the network of
that address alone. -/
def exampleNet : NetLibrary where
  Address := Nat
  Network := Nat
  parseIP := fun s =>
    if s = "2001:db8::1" ∨ s = "2001:DB8:0:0:0:0:0:1" then
      some 0x20010db8000000000000000000000001
    else none
  parseCIDR := fun s =>
    if s = "2001:DB8:0:0:0:0:0:1/128" then some 0x20010db8000000000000000000000001 else none
  contains := fun n a => n = a
  address_not_network := by
    intro s h
    split at h
    · next hs => rcases hs with rfl | rfl <;> rfl
    · simp at h

/-- No store or library answers. -/
def silentEnvironment : Environment where
  baseURL := ""
  parseURL := fun _ => none
  toLower := id
  parseIP := fun _ => false
  cidrContains := fun _ _ => false
  nowUnix := 0
  sessionsGet := fun _ => none
  authenticateClient := fun _ => none
  authenticateDevice := fun _ => none
  increment := fun _ => none
  resolve := fun _ => none
  globalLimitReached := fun _ => false
  loginLimitReached := fun _ => false

/-- A client whose address is on the list, in another spelling, is refused; as a network of one
address the entry lets it in. -/
theorem ipAllowed_comparesSpellings :
    (¬ ∀ env net ip allowed,
      ipAllowed (Environment.withNet env net) ip allowed = true ↔
        net.AllowedByAddress ip allowed) ∧
      ipAllowed (silentEnvironment.withNet exampleNet) "2001:db8::1"
        ["2001:DB8:0:0:0:0:0:1/128"] = true := by
  refine ⟨fun h => ?_, by decide⟩
  have hallowed : exampleNet.AllowedByAddress "2001:db8::1" ["2001:DB8:0:0:0:0:0:1"] :=
    .inr ⟨_, rfl, _, List.mem_singleton_self _, .inl rfl⟩
  have hrefused : ipAllowed (silentEnvironment.withNet exampleNet) "2001:db8::1"
      ["2001:DB8:0:0:0:0:0:1"] = false := by decide
  have htrue := (h silentEnvironment exampleNet _ _).mpr hallowed
  rw [hrefused] at htrue
  cases htrue

end IdpForge
