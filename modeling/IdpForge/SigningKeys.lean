import IdpForge.JsonTree
import IdpForge.PartialMap
import IdpForge.TransitionSystem
import IdpForge.UrlBase64

/-!
# The Signing Key, Its File and Its Publication

A process loads its signing key from a file when it starts. Where the file cannot be read it
generates a key and writes it there, and where it can be read but not parsed it does not start.
Several processes may start from one file, and nothing keeps two of them from generating a key
each. The public half is published as a JSON Web Key, which a relying party finds by the id in
the header of a token.

The texts of key files and the signatures are parameters: a format that is read back, and
signatures that verify under their own public key only.

## Main results

* `lookupKey_jwks`: a relying party reads the public key from the published text.
* `keyInv_step`: what the file, the processes that wait and those that are up have in common.
* `tokens_accepted_iff`: every relying party accepts the tokens of every process as long as no
  process writes a generated key after another one is up, and no longer.
-/

open JsonTree PartialMap TransitionSystem UrlBase64

namespace IdpForge

/-! ### Keys -/

/-- `rsa.PublicKey`. -/
structure PublicKey where
  n : Nat
  e : Nat
  deriving DecidableEq, Repr

/-- `rsa.PrivateKey`; what only the signature reads is one number here. -/
structure PrivateKey where
  publicKey : PublicKey
  d : Nat
  deriving DecidableEq, Repr

/-- `keyID`. -/
def keyID (key : PrivateKey) : String := rawURLEncode ((natBytes key.publicKey.n).take 8)

/-- The loop of `bigIntToBytes`. -/
def prependBytes (e : Nat) (b : List UInt8) : List UInt8 :=
  if e = 0 then b else prependBytes (e / 256) (UInt8.ofNat (e % 256) :: b)
termination_by e
decreasing_by omega

/-- `bigIntToBytes`. -/
def bigIntToBytes (e : Nat) : List UInt8 :=
  let b := prependBytes e []
  if b = [] then [0] else b

/-- `KeySet.JWK`; the members of a map are written in order of their names. -/
def jwk (key : PrivateKey) : Json :=
  .obj [("alg", .str "RS256"), ("e", .str (rawURLEncode (bigIntToBytes key.publicKey.e))),
    ("kid", .str (keyID key)), ("kty", .str "RSA"),
    ("n", .str (rawURLEncode (natBytes key.publicKey.n))), ("use", .str "sig")]

/-- `handleJWKS`: the text of `Provider.JWKS`. -/
def handleJWKS (key : PrivateKey) : String := marshal (.obj [("keys", .arr [jwk key])])

/-! ### A relying party -/

/-- The members of a published key that a relying party reads. -/
structure Jwk where
  kid : String
  n : String
  e : String
  deriving DecidableEq, Repr

/-- A published key. -/
def Jwk.read : Json → Option Jwk :=
  decodeStruct
    [("kid", fun old v => (decodeString old.kid v).map fun s => { old with kid := s }),
      ("n", fun old v => (decodeString old.n v).map fun s => { old with n := s }),
      ("e", fun old v => (decodeString old.e v).map fun s => { old with e := s })]
    ⟨"", "", ""⟩

/-- The keys of a document. -/
def readKeys : Json → Option (List Jwk) :=
  decodeStruct [("keys", fun _ v => decodeSlice Jwk.read v)] []

/-- The public key of a published key: two numbers, as base64url texts of their bytes. -/
def Jwk.publicKey (key : Jwk) : Option PublicKey :=
  (rawURLDecode key.n).bind fun n => (rawURLDecode key.e).map fun e =>
    ⟨bytesNat n, bytesNat e⟩

/-- The public key with an id in the text of a document. -/
def lookupKey (document kid : String) : Option PublicKey :=
  (unmarshal readKeys document).bind fun keys =>
    (keys.find? fun key => key.kid = kid).bind Jwk.publicKey

/-- The loop writes the bytes of a number. -/
theorem prependBytes_eq (e : Nat) (b : List UInt8) : prependBytes e b = natBytes e ++ b := by
  induction e using Nat.strong_induction_on generalizing b with
  | _ e ih =>
      rw [prependBytes]
      split
      · next hzero => rw [hzero]; rfl
      · next hpos =>
          rw [ih (e / 256) (by omega), natBytes, natBytes,
            Nat.digits_def' (by decide) (Nat.pos_of_ne_zero hpos), List.reverse_cons,
            List.map_append, List.append_assoc]
          rfl

/-- The exponent is read back, zero included. -/
theorem bytesNat_bigIntToBytes (e : Nat) : bytesNat (bigIntToBytes e) = e := by
  rw [bigIntToBytes, prependBytes_eq, List.append_nil]
  split
  · next hnil =>
      have hread := bytesNat_natBytes e
      rw [hnil] at hread
      exact hread
  · exact bytesNat_natBytes e

/-- **The published text** gives the public key to those who look for its id, and nothing to
others. -/
theorem lookupKey_jwks (key : PrivateKey) (kid : String) :
    lookupKey (handleJWKS key) kid = if keyID key = kid then some key.publicKey else none := by
  have hread : Jwk.read (jwk key) = some ⟨keyID key,
      rawURLEncode (natBytes key.publicKey.n),
      rawURLEncode (bigIntToBytes key.publicKey.e)⟩ := rfl
  have hkeys : unmarshal readKeys (handleJWKS key) = some [⟨keyID key,
      rawURLEncode (natBytes key.publicKey.n),
      rawURLEncode (bigIntToBytes key.publicKey.e)⟩] := by
    rw [handleJWKS, JsonTree.unmarshal_marshal]
    change (decodeSlice Jwk.read (.arr [jwk key])).bind some = _
    rw [decodeSlice, List.mapM_cons, hread]
    rfl
  rw [lookupKey, hkeys, Option.bind_some, List.find?_cons]
  by_cases hkid : keyID key = kid
  · simp [hkid, Jwk.publicKey, rawURLDecode_rawURLEncode, bytesNat_natBytes,
      bytesNat_bigIntToBytes]
  · simp [hkid]

/-! ### Tokens -/

/-- The libraries the keys are used with, for tokens with claims of type `γ`. -/
structure KeyLibrary (γ : Type) where
  /-- The text of a key file: the PKCS #1 form of a key in a PEM block. -/
  pem : PrivateKey → String
  /-- `parsePEM`. -/
  parsePEM : String → Option PrivateKey
  /-- `SignedString`, with the key id in the header. -/
  sign : PrivateKey → String → γ → String
  /-- The key id in the header of a token. -/
  header : String → Option String
  /-- The claims of a token whose signature verifies. -/
  verify : PublicKey → String → Option γ

/-- Key files are read back, and a signature verifies under its own public key only. -/
structure KeyLibrary.Sound {γ : Type} (lib : KeyLibrary γ) : Prop where
  parsePEM_pem : ∀ key, lib.parsePEM (lib.pem key) = some key
  header_sign : ∀ key kid claims, lib.header (lib.sign key kid claims) = some kid
  verify_sign : ∀ key kid claims, lib.verify key.publicKey (lib.sign key kid claims) = some claims
  verify_other : ∀ key pub kid claims, key.publicKey ≠ pub →
    lib.verify pub (lib.sign key kid claims) = none

section Processes

variable {γ : Type} (lib : KeyLibrary γ)

/-- `Provider.sign`. -/
def signToken (key : PrivateKey) (claims : γ) : String := lib.sign key (keyID key) claims

/-- The claims of a token for a relying party that has the text of a document. -/
def acceptToken (document raw : String) : Option γ :=
  (lib.header raw).bind fun kid => (lookupKey document kid).bind fun pub => lib.verify pub raw

/-! ### Processes that start -/

/-- How `os.WriteFile` ends; a failure may leave anything in the file, but not a whole key. -/
inductive WriteOutcome where
  | done
  | failed (left : Option String)
  deriving DecidableEq, Repr

/-- The key file, the processes that have generated a key and not written it yet, the keys of
the processes that came up, the latest first, and the keys that exist. -/
structure KeyState where
  file : Option String
  waiting : Nat → Option PrivateKey
  served : List PrivateKey
  drawn : List PrivateKey

/-- What a process does in `LoadOrGenerateKey`. -/
inductive KeyAction where
  /-- `os.ReadFile`, which may fail; then `key` is generated. -/
  | read (id : Nat) (ok : Bool) (key : PrivateKey)
  /-- `os.WriteFile` of the generated key. -/
  | write (id : Nat) (outcome : WriteOutcome)
  /-- A failure before the key is written. -/
  | abandon (id : Nat)

/-- What a process finds when it reads the file. -/
def KeyState.found (s : KeyState) (ok : Bool) : Option String := if ok then s.file else none

/-- The key in the file. -/
def KeyState.fileKey (s : KeyState) : Option PrivateKey := s.file.bind lib.parsePEM

/-- One step. A generated key has a public half that no other key has. -/
def keyStep (s : KeyState) : KeyAction → Option KeyState
  | .read id ok key =>
      match s.found ok with
      | some text =>
          match lib.parsePEM text with
          | some key => some { s with served := key :: s.served }
          | none => some s
      | none =>
          if (s.waiting id).isSome ∨ key.publicKey ∈ s.drawn.map (·.publicKey) then none
          else some { s with
            waiting := Function.update s.waiting id (some key)
            drawn := key :: s.drawn }
  | .write id outcome =>
      (s.waiting id).bind fun key =>
        match outcome with
        | .done => some { s with
            file := some (lib.pem key)
            waiting := Function.update s.waiting id none
            served := key :: s.served }
        | .failed left =>
            if (left.bind lib.parsePEM).isSome then none
            else some { s with file := left, waiting := Function.update s.waiting id none }
  | .abandon id => some { s with waiting := Function.update s.waiting id none }

/-- The state before the first process starts. -/
def KeyState.start (file : Option String) : KeyState where
  file := file
  waiting := fun _ => none
  served := []
  drawn := (file.bind lib.parsePEM).toList

/-- Whoever has the document of a process accepts the tokens of every process. -/
def TokensAccepted (s : KeyState) : Prop :=
  ∀ key ∈ s.served, ∀ key' ∈ s.served, ∀ claims,
    acceptToken lib (handleJWKS key') (signToken lib key claims) = some claims

/-- No process writes a generated key after a process is up. -/
def NoneUp (s : KeyState) : KeyAction → Prop
  | .write _ .done => s.served = []
  | _ => True

/-! ### What the keys have in common -/

/-- A process that waits has a key of its own, which nobody else has and which is not in the
file. The key in the file is one of those served, once there are any. -/
structure KeyInv (s : KeyState) : Prop where
  waiting_inj : ∀ i j k k', s.waiting i = some k → s.waiting j = some k' →
    k.publicKey = k'.publicKey → i = j
  waiting_served : ∀ i k, s.waiting i = some k → ∀ k' ∈ s.served, k.publicKey ≠ k'.publicKey
  waiting_file : ∀ i k, s.waiting i = some k → ∀ k', s.fileKey lib = some k' →
    k.publicKey ≠ k'.publicKey
  drawn_waiting : ∀ i k, s.waiting i = some k → k ∈ s.drawn
  drawn_served : ∀ k ∈ s.served, k ∈ s.drawn
  drawn_file : ∀ k, s.fileKey lib = some k → k ∈ s.drawn
  file_served : ∀ k, s.fileKey lib = some k → s.served = [] ∨ k ∈ s.served

variable {lib} {s s' : KeyState}

/-- Before the first process starts, nobody waits. -/
theorem keyInv_start (file : Option String) : KeyInv lib (KeyState.start lib file) where
  waiting_inj := fun _ _ _ _ h => by simp [KeyState.start] at h
  waiting_served := fun _ _ h => by simp [KeyState.start] at h
  waiting_file := fun _ _ h => by simp [KeyState.start] at h
  drawn_waiting := fun _ _ h => by simp [KeyState.start] at h
  drawn_served := fun _ h => by simp [KeyState.start] at h
  drawn_file := fun k h => by
    change k ∈ (file.bind lib.parsePEM).toList
    exact Option.mem_toList.mpr h
  file_served := fun _ _ => .inl rfl

/-- A process loads the key of the file. -/
theorem KeyInv.load (h : KeyInv lib s) {key : PrivateKey} (hfile : s.fileKey lib = some key) :
    KeyInv lib { s with served := key :: s.served } where
  waiting_inj := h.waiting_inj
  waiting_served := fun i k hk => by
    rw [List.forall_mem_cons]
    exact ⟨h.waiting_file i k hk key hfile, h.waiting_served i k hk⟩
  waiting_file := h.waiting_file
  drawn_waiting := h.drawn_waiting
  drawn_served := by
    rw [List.forall_mem_cons]
    exact ⟨h.drawn_file key hfile, h.drawn_served⟩
  drawn_file := h.drawn_file
  file_served := fun k hk => by
    obtain rfl : key = k := Option.some.inj (hfile.symm.trans hk)
    exact .inr List.mem_cons_self

/-- A process generates a key that nobody has. -/
theorem KeyInv.generate (h : KeyInv lib s) {id : Nat} {key : PrivateKey}
    (hnew : key.publicKey ∉ s.drawn.map (·.publicKey)) :
    KeyInv lib { s with
      waiting := Function.update s.waiting id (some key)
      drawn := key :: s.drawn } := by
  have hother : ∀ k ∈ s.drawn, key.publicKey ≠ k.publicKey := fun k hk heq =>
    hnew (heq ▸ List.mem_map_of_mem hk)
  refine ⟨?_, ?_, ?_, ?_, ?_, ?_, h.file_served⟩
  · intro i j k k' hk hk' heq
    rcases update_eq_some_iff.mp hk with ⟨rfl, hkey⟩ | ⟨-, hwaits⟩
    · obtain rfl := Option.some.inj hkey
      rcases update_eq_some_iff.mp hk' with ⟨rfl, -⟩ | ⟨-, hwaits'⟩
      · rfl
      · exact absurd heq (hother k' (h.drawn_waiting j k' hwaits'))
    · rcases update_eq_some_iff.mp hk' with ⟨rfl, hkey⟩ | ⟨-, hwaits'⟩
      · obtain rfl := Option.some.inj hkey
        exact absurd heq.symm (hother k (h.drawn_waiting i k hwaits))
      · exact h.waiting_inj i j k k' hwaits hwaits' heq
  · exact forall_update (fun k' hk' => hother k' (h.drawn_served k' hk'))
      h.waiting_served
  · exact forall_update (fun k' hk' => hother k' (h.drawn_file k' hk'))
      h.waiting_file
  · exact forall_update List.mem_cons_self
      fun i k hk => List.mem_cons_of_mem _ (h.drawn_waiting i k hk)
  · exact fun k hk => List.mem_cons_of_mem _ (h.drawn_served k hk)
  · exact fun k hk => List.mem_cons_of_mem _ (h.drawn_file k hk)

/-- A process no longer waits. -/
theorem KeyInv.leave (h : KeyInv lib s) (id : Nat) :
    KeyInv lib { s with waiting := Function.update s.waiting id none } where
  waiting_inj := fun i j k k' hk hk' =>
    h.waiting_inj i j k k' (of_update_none hk).2 (of_update_none hk').2
  waiting_served := forall_update_none h.waiting_served
  waiting_file := forall_update_none h.waiting_file
  drawn_waiting := forall_update_none h.drawn_waiting
  drawn_served := h.drawn_served
  drawn_file := h.drawn_file
  file_served := h.file_served

/-- What a step can do. -/
inductive KeyStep (lib : KeyLibrary γ) (s : KeyState) : KeyAction → KeyState → Prop where
  | load {id ok key key'} (hfile : s.fileKey lib = some key) :
      KeyStep lib s (.read id ok key') { s with served := key :: s.served }
  | refuse {id ok key} : KeyStep lib s (.read id ok key) s
  | generate {id ok key} (hnew : key.publicKey ∉ s.drawn.map (·.publicKey)) :
      KeyStep lib s (.read id ok key)
        { s with waiting := Function.update s.waiting id (some key), drawn := key :: s.drawn }
  | store {id key} (hwaits : s.waiting id = some key) :
      KeyStep lib s (.write id .done)
        { s with
          file := some (lib.pem key)
          waiting := Function.update s.waiting id none
          served := key :: s.served }
  | lose {id left} (hleft : left.bind lib.parsePEM = none) :
      KeyStep lib s (.write id (.failed left))
        { s with file := left, waiting := Function.update s.waiting id none }
  | abandon {id} :
      KeyStep lib s (.abandon id) { s with waiting := Function.update s.waiting id none }

/-- Every step is one of these. -/
theorem keyStep_sound {a : KeyAction} (hstep : keyStep lib s a = some s') :
    KeyStep lib s a s' := by
  cases a with
  | read id ok key =>
      rw [keyStep] at hstep
      split at hstep
      · next text hfound =>
          have hfile : s.file = some text := by
            rw [KeyState.found] at hfound
            split at hfound
            · exact hfound
            · exact absurd hfound (by simp)
          split at hstep
          · next key' hparse =>
              obtain rfl := Option.some.inj hstep
              exact .load (by rw [KeyState.fileKey, hfile, Option.bind_some, hparse])
          · obtain rfl := Option.some.inj hstep
            exact .refuse
      · split at hstep
        · exact absurd hstep (by simp)
        · next hnew =>
            obtain rfl := Option.some.inj hstep
            exact .generate fun hmem => hnew (.inr hmem)
  | write id outcome =>
      obtain ⟨key, hwaits, hstep⟩ := Option.bind_eq_some_iff.mp hstep
      cases outcome with
      | done =>
          obtain rfl := Option.some.inj hstep
          exact .store hwaits
      | failed left =>
          simp only at hstep
          split at hstep
          · exact absurd hstep (by simp)
          · next hleft =>
              obtain rfl := Option.some.inj hstep
              exact .lose (by simpa using hleft)
  | abandon id =>
      obtain rfl := Option.some.inj hstep
      exact .abandon

/-- A process writes its key. -/
theorem KeyInv.store (h : KeyInv lib s) (hlib : lib.Sound) {id : Nat} {key : PrivateKey}
    (hwaits : s.waiting id = some key) :
    KeyInv lib { s with
      file := some (lib.pem key)
      waiting := Function.update s.waiting id none
      served := key :: s.served } := by
  have hfile : ∀ k, (some (lib.pem key)).bind lib.parsePEM = some k → key = k := by
    intro k hk
    rw [Option.bind_some, hlib.parsePEM_pem] at hk
    exact Option.some.inj hk
  -- those that still wait have other keys than the one that waited
  have hothers : ∀ i k, Function.update s.waiting id none i = some k →
      k.publicKey ≠ key.publicKey := by
    intro i k hk heq
    obtain ⟨hne, hk⟩ := of_update_none hk
    exact hne (h.waiting_inj i id k key hk hwaits heq)
  have hleft := h.leave id
  refine ⟨hleft.waiting_inj, ?_, ?_, hleft.drawn_waiting, ?_, ?_, ?_⟩
  · intro i k hk
    rw [List.forall_mem_cons]
    exact ⟨hothers i k hk, hleft.waiting_served i k hk⟩
  · intro i k hk k' hk'
    obtain rfl := hfile k' hk'
    exact hothers i k hk
  · rw [List.forall_mem_cons]
    exact ⟨h.drawn_waiting id key hwaits, h.drawn_served⟩
  · intro k hk
    obtain rfl := hfile k hk
    exact h.drawn_waiting id key hwaits
  · intro k hk
    obtain rfl := hfile k hk
    exact .inr List.mem_cons_self

/-- A process fails to write its key. -/
theorem KeyInv.lose (h : KeyInv lib s) (id : Nat) {left : Option String}
    (hleft : left.bind lib.parsePEM = none) :
    KeyInv lib { s with file := left, waiting := Function.update s.waiting id none } := by
  have hnone : ∀ k, left.bind lib.parsePEM ≠ some k := fun k hk => by simp [hleft] at hk
  have hgone := h.leave id
  exact ⟨hgone.waiting_inj, hgone.waiting_served, fun _ _ _ k' hk' => absurd hk' (hnone k'),
    hgone.drawn_waiting, hgone.drawn_served, fun k hk => absurd hk (hnone k),
    fun k hk => absurd hk (hnone k)⟩

/-- **A step** keeps what the keys have in common. -/
theorem keyInv_step (hlib : lib.Sound) {a : KeyAction} (h : KeyInv lib s)
    (hstep : keyStep lib s a = some s') : KeyInv lib s' := by
  cases keyStep_sound hstep with
  | load hfile => exact h.load hfile
  | refuse => exact h
  | generate hnew => exact h.generate hnew
  | store hwaits => exact h.store hlib hwaits
  | lose hleft => exact h.lose _ hleft
  | abandon => exact h.leave _

/-! ### Who accepts which tokens -/

/-- The id of a key is that of its public half. -/
theorem keyID_congr {key key' : PrivateKey} (h : key.publicKey = key'.publicKey) :
    keyID key = keyID key' := by
  rw [keyID, keyID, h]

/-- The token of a process is accepted with the document of a process with the same public
key, and with no other. -/
theorem acceptToken_iff (hlib : lib.Sound) (key key' : PrivateKey) (claims : γ) :
    acceptToken lib (handleJWKS key') (signToken lib key claims) = some claims ↔
      key.publicKey = key'.publicKey := by
  rw [acceptToken, signToken, hlib.header_sign, Option.bind_some, lookupKey_jwks]
  constructor
  · intro haccepted
    by_contra hne
    split at haccepted
    · rw [Option.bind_some, hlib.verify_other key key'.publicKey _ _ hne] at haccepted
      simp at haccepted
    · simp at haccepted
  · intro heq
    rw [if_pos (keyID_congr heq.symm), Option.bind_some, ← heq, hlib.verify_sign]

/-- All tokens are accepted when there is one public key. -/
theorem tokensAccepted_iff [Nonempty γ] (hlib : lib.Sound) :
    TokensAccepted lib s ↔
      ∀ key ∈ s.served, ∀ key' ∈ s.served, key.publicKey = key'.publicKey := by
  obtain ⟨claims⟩ := ‹Nonempty γ›
  constructor
  · exact fun h key hkey key' hkey' =>
      (acceptToken_iff hlib key key' claims).mp (h key hkey key' hkey' claims)
  · exact fun h key hkey key' hkey' claims =>
      (acceptToken_iff hlib key key' claims).mpr (h key hkey key' hkey')

/-- Another key that is served has to have the public half of those served before. -/
theorem tokensAccepted_cons [Nonempty γ] (hlib : lib.Sound) (h : TokensAccepted lib s)
    {key : PrivateKey} (hserved : s'.served = key :: s.served) :
    TokensAccepted lib s' ↔ ∀ k ∈ s.served, key.publicKey = k.publicKey := by
  have hsame := (tokensAccepted_iff hlib).mp h
  rw [tokensAccepted_iff hlib, hserved]
  constructor
  · exact fun hall k hk => hall key List.mem_cons_self k (List.mem_cons_of_mem _ hk)
  · intro hall
    simp only [List.forall_mem_cons]
    exact ⟨⟨trivial, hall⟩, fun k hk => ⟨(hall k hk).symm, hsame k hk⟩⟩

/-- A step keeps all tokens accepted unless it writes a generated key while a process is up. -/
theorem tokensAccepted_step [Nonempty γ] (hlib : lib.Sound) {a : KeyAction} (hinv : KeyInv lib s)
    (h : TokensAccepted lib s) (hstep : keyStep lib s a = some s') :
    TokensAccepted lib s' ↔ NoneUp s a := by
  cases keyStep_sound hstep with
  | load hfile =>
      refine iff_of_true ((tokensAccepted_cons hlib h rfl).mpr fun k hk => ?_) trivial
      rcases hinv.file_served _ hfile with hnone | hmem
      · exact absurd hk (by simp [hnone])
      · exact (tokensAccepted_iff hlib).mp h _ hmem k hk
  | refuse => exact iff_of_true h trivial
  | generate hnew => exact iff_of_true h trivial
  | @store id key hwaits =>
      rw [tokensAccepted_cons hlib h rfl, NoneUp]
      constructor
      · intro hall
        refine List.eq_nil_iff_forall_not_mem.mpr fun k hk => ?_
        exact hinv.waiting_served id key hwaits k hk (hall k hk)
      · intro hnone k hk
        exact absurd hk (by simp [hnone])
  | lose hleft => exact iff_of_true h trivial
  | abandon => exact iff_of_true h trivial

end Processes

/-- **When all tokens are accepted.** In a run of processes that start from one key file, in any
order and with any failure, every relying party that has the document of any of them accepts the
tokens of all of them, at every point of the run, if and only if no process writes a generated
key when another one is up already. -/
theorem tokens_accepted_iff {γ : Type} [Nonempty γ] (lib : KeyLibrary γ) (hlib : lib.Sound)
    (file : Option String) (as : List KeyAction) (s : KeyState)
    (hrun : run (keyStep lib) (KeyState.start lib file) as = some s) :
    AlongRun (keyStep lib) (TokensAccepted lib) (KeyState.start lib file) as ↔
      Guarded (keyStep lib) NoneUp (KeyState.start lib file) as := by
  refine alongRun_iff_guarded (fun _ _ _ h _ hs => keyInv_step hlib h hs)
    (fun _ _ _ hinv h _ hs => tokensAccepted_step hlib hinv h hs) (keyInv_start file) ?_
    (guarded_true _ as) hrun
  intro key hkey
  exact absurd hkey List.not_mem_nil

/-- A number as the text of its bytes. -/
def exampleNumber (n : Nat) : Json := .str (rawURLEncode (natBytes n))

/-- The number of a text. -/
def readExampleNumber : Json → Option Nat
  | .str s => (rawURLDecode s).map bytesNat
  | _ => none

/-- A number is read back. -/
theorem readExampleNumber_exampleNumber (n : Nat) :
    readExampleNumber (exampleNumber n) = some n := by
  rw [exampleNumber, readExampleNumber, rawURLDecode_rawURLEncode, Option.map_some,
    bytesNat_natBytes]

/-- A key file, as an array of its numbers. -/
def exampleKeyJson (key : PrivateKey) : Json :=
  .arr [exampleNumber key.publicKey.n, exampleNumber key.publicKey.e, exampleNumber key.d]

/-- The key of such a file. -/
def readExampleKey : Json → Option PrivateKey
  | .arr [n, e, d] =>
      (readExampleNumber n).bind fun n => (readExampleNumber e).bind fun e =>
        (readExampleNumber d).map fun d => ⟨⟨n, e⟩, d⟩
  | _ => none

/-- A key is read back. -/
theorem readExampleKey_exampleKeyJson (key : PrivateKey) :
    readExampleKey (exampleKeyJson key) = some key := by
  rw [exampleKeyJson, readExampleKey, readExampleNumber_exampleNumber, Option.bind_some,
    readExampleNumber_exampleNumber, Option.bind_some, readExampleNumber_exampleNumber,
    Option.map_some]

/-- A token, as an array of the key id, the public key that verifies it and its claims. -/
def exampleTokenJson (key : PrivateKey) (kid claims : String) : Json :=
  .arr [.str kid, exampleNumber key.publicKey.n, exampleNumber key.publicKey.e, .str claims]

/-- The parts of such a token. -/
def readExampleToken : Json → Option (String × PublicKey × String)
  | .arr [.str kid, n, e, .str claims] =>
      (readExampleNumber n).bind fun n => (readExampleNumber e).map fun e => (kid, ⟨n, e⟩, claims)
  | _ => none

/-- A token is read back. -/
theorem unmarshal_exampleTokenJson (key : PrivateKey) (kid claims : String) :
    unmarshal readExampleToken (marshal (exampleTokenJson key kid claims)) =
      some (kid, key.publicKey, claims) := by
  rw [JsonTree.unmarshal_marshal, exampleTokenJson, readExampleToken,
    readExampleNumber_exampleNumber, Option.bind_some, readExampleNumber_exampleNumber,
    Option.map_some]

/-- Key files and tokens as arrays. -/
def exampleKeyLibrary : KeyLibrary String where
  pem := fun key => marshal (exampleKeyJson key)
  parsePEM := fun text => unmarshal readExampleKey text
  sign := fun key kid claims => marshal (exampleTokenJson key kid claims)
  header := fun raw => (unmarshal readExampleToken raw).map (·.1)
  verify := fun pub raw => (unmarshal readExampleToken raw).bind fun parts =>
    if parts.2.1 = pub then some parts.2.2 else none

/-- This library behaves. -/
theorem exampleKeyLibrary_sound : exampleKeyLibrary.Sound where
  parsePEM_pem := fun key => by
    simp only [exampleKeyLibrary, JsonTree.unmarshal_marshal, readExampleKey_exampleKeyJson]
  header_sign := fun key kid claims => by
    simp only [exampleKeyLibrary, unmarshal_exampleTokenJson, Option.map_some]
  verify_sign := fun key kid claims => by
    simp only [exampleKeyLibrary, unmarshal_exampleTokenJson, Option.bind_some, if_true]
  verify_other := fun key pub kid claims hne => by
    simp only [exampleKeyLibrary, unmarshal_exampleTokenJson, Option.bind_some, if_neg hne]

/-- The first process finds no file and writes a key, and the second one loads it. -/
def exampleStarts : List KeyAction :=
  [.read 0 true ⟨⟨3233, 17⟩, 413⟩, .write 0 .done, .read 1 true ⟨⟨2773, 17⟩, 157⟩]

/-- Two processes find no file, and each writes a key. -/
def exampleRace : List KeyAction :=
  [.read 0 true ⟨⟨3233, 17⟩, 413⟩, .read 1 true ⟨⟨2773, 17⟩, 157⟩, .write 0 .done,
    .write 1 .done]

/-- In turn the tokens of both are accepted, and in a race they are not. -/
theorem tokens_accepted_iff_example :
    AlongRun (keyStep exampleKeyLibrary) (TokensAccepted exampleKeyLibrary)
        (KeyState.start exampleKeyLibrary none) exampleStarts ∧
      ¬ AlongRun (keyStep exampleKeyLibrary) (TokensAccepted exampleKeyLibrary)
        (KeyState.start exampleKeyLibrary none) exampleRace := by
  have hstarts : (run (keyStep exampleKeyLibrary) (KeyState.start exampleKeyLibrary none)
      exampleStarts).isSome = true := by
    simp [exampleStarts, keyStep, KeyState.found, KeyState.start,
      exampleKeyLibrary_sound.parsePEM_pem]
  have hrace : (run (keyStep exampleKeyLibrary) (KeyState.start exampleKeyLibrary none)
      exampleRace).isSome = true := by
    simp [exampleRace, keyStep, KeyState.found, KeyState.start]
  have hguarded : Guarded (keyStep exampleKeyLibrary) NoneUp
      (KeyState.start exampleKeyLibrary none) exampleStarts := by
    simp [exampleStarts, Guarded, NoneUp, keyStep, KeyState.found, KeyState.start]
  have hunguarded : ¬ Guarded (keyStep exampleKeyLibrary) NoneUp
      (KeyState.start exampleKeyLibrary none) exampleRace := by
    simp [exampleRace, Guarded, NoneUp, keyStep, KeyState.found, KeyState.start]
  exact ⟨(tokens_accepted_iff exampleKeyLibrary exampleKeyLibrary_sound none exampleStarts _
      (Option.some_get hstarts).symm).mpr hguarded,
    fun h => hunguarded ((tokens_accepted_iff exampleKeyLibrary exampleKeyLibrary_sound none
      exampleRace _ (Option.some_get hrace).symm).mp h)⟩

end IdpForge
