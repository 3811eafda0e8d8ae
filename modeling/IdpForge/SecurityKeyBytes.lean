import Mathlib.Data.List.DropRight
import IdpForge.UrlBase64

/-!
# The Bytes of a Security Key's Registration

The browser speaks of challenges and credentials as bytes, the server of their base64url texts,
and `web/lib/webauthn.ts` translates between the two with `atob` and `btoa`. The options of a
registration are decoded for `navigator.credentials.create`, and what it returns is encoded for
the server.

## Main results

* `base64urlToBuffer_eq`: on texts of the alphabet the browser's decoder is Go's.
* `bufferToBase64url_eq`: the browser's encoder is Go's.
* `registration_relays`: an authenticator gets the bytes that Go encoded, and Go decodes the
  bytes it returned.
-/

open UrlBase64

namespace IdpForge

/-! ### The functions of the browser -/

/-- ASCII white space. -/
def isAsciiSpace (c : Char) : Bool :=
  c = '\t' || c = '\n' || c = '\x0c' || c = '\r' || c = ' '

/-- One or two padding characters at the end are taken off. -/
def dropPadding (data : List Char) : List Char :=
  match data.reverse with
  | '=' :: '=' :: rest => rest.reverse
  | '=' :: rest => rest.reverse
  | _ => data

/-- `atob`, without a value where it throws. The binary string is given as its bytes. -/
def atob (text : List Char) : Option (List UInt8) :=
  let data := text.filter fun c => !isAsciiSpace c
  ungroup Base64.value (if data.length % 4 = 0 then dropPadding data else data)

/-- `btoa` of the binary string of some bytes. -/
def btoa (bytes : List UInt8) : List Char := Base64.encode bytes

/-- `base64urlToBuffer`. -/
def base64urlToBuffer (base64url : String) : Option (List UInt8) :=
  let padding := List.replicate ((4 - base64url.toList.length % 4) % 4) '='
  atob ((base64url.toList ++ padding).map ofUrl)

/-- `bufferToBase64url`. -/
def bufferToBase64url (buffer : List UInt8) : String :=
  String.ofList (((btoa buffer).map toUrl).rdropWhile fun c => c = '=')

/-! ### The two decoders and the two encoders -/

/-- The digits are the characters of the alphabet. -/
theorem urlDigit_eq_getElem {n : Nat} (h : n < urlAlphabet.length) :
    urlDigit n = urlAlphabet[n] := by
  rw [urlDigit, List.getD_eq_getElem?_getD, List.getElem?_eq_getElem h, Option.getD_some]

/-- Every digit is in the alphabet. -/
theorem urlDigit_mem {n : Nat} (h : n < 64) : urlDigit n ∈ urlAlphabet := by
  have hlength : n < urlAlphabet.length := h
  rw [urlDigit_eq_getElem hlength]
  exact List.getElem_mem hlength

/-- No digit is white space. -/
theorem isAsciiSpace_digit {n : Nat} (h : n < 64) : isAsciiSpace (Base64.digit n) = false := by
  have hall : ∀ n : Fin 64, isAsciiSpace (Base64.digit n) = false := by decide +kernel
  exact hall ⟨n, h⟩

/-- The characters of the alphabet, as they are replaced. -/
theorem ofUrl_of_mem {c : Char} (h : c ∈ urlAlphabet) :
    isAsciiSpace (ofUrl c) = false ∧ ofUrl c ≠ '=' ∧ Base64.value (ofUrl c) = urlValue c ∧
      c ≠ '\r' ∧ c ≠ '\n' := by
  obtain ⟨n, hn, rfl⟩ := List.getElem_of_mem h
  obtain ⟨-, hof, hreturn, hfeed⟩ := urlDigit_eq hn
  rw [← urlDigit_eq_getElem hn, hof, urlValue_urlDigit n hn]
  exact ⟨isAsciiSpace_digit hn, Base64.digit_ne_padding hn, Base64.value_digit hn, hreturn, hfeed⟩

/-- Two padding characters are taken off. -/
theorem dropPadding_append_two (text : List Char) : dropPadding (text ++ ['=', '=']) = text := by
  have hrev : (text ++ ['=', '=']).reverse = '=' :: '=' :: text.reverse := by simp
  rw [dropPadding, hrev]
  exact List.reverse_reverse text

section NoPadding

variable {text : List Char} (h : ∀ c ∈ text, c ≠ '=')
include h

/-- A text without padding does not end in one. -/
theorem ne_padding_of_reverse {c : Char} {rest : List Char} (hrev : text.reverse = c :: rest) :
    c ≠ '=' :=
  h c (List.mem_reverse.mp (hrev ▸ List.mem_cons_self))

/-- Where there is no padding, none is taken off. -/
theorem dropPadding_self : dropPadding text = text := by
  rw [dropPadding]
  split
  · next rest hrev => exact absurd rfl (ne_padding_of_reverse h hrev)
  · next rest hrev => exact absurd rfl (ne_padding_of_reverse h hrev)
  · rfl

/-- One padding character is taken off. -/
theorem dropPadding_append_one : dropPadding (text ++ ['=']) = text := by
  have hrev : (text ++ ['=']).reverse = '=' :: text.reverse := by simp
  rw [dropPadding, hrev]
  split
  · next rest heq =>
      exact absurd rfl (ne_padding_of_reverse h (List.cons.inj heq).2)
  · next rest heq => rw [← (List.cons.inj heq).2, List.reverse_reverse]
  · next hnot => exact absurd rfl (hnot text.reverse)

end NoPadding

/-- `atob` of a text of the alphabet, filled up to a multiple of four. -/
theorem atob_filled {text : List Char} (h : ∀ c ∈ text, isAsciiSpace c = false ∧ c ≠ '=') :
    atob (text ++ List.replicate ((4 - text.length % 4) % 4) '=') =
      ungroup Base64.value text := by
  have hspace : (text ++ List.replicate ((4 - text.length % 4) % 4) '=').filter
      (fun c => !isAsciiSpace c) = text ++ List.replicate ((4 - text.length % 4) % 4) '=' := by
    rw [List.filter_eq_self]
    intro c hc
    rcases List.mem_append.mp hc with hc | hc
    · rw [(h c hc).1, Bool.not_false]
    · rw [List.eq_of_mem_replicate hc]
      rfl
  have hpadding : ∀ c ∈ text, c ≠ '=' := fun c hc => (h c hc).2
  have hlength : (text ++ List.replicate ((4 - text.length % 4) % 4) '=').length % 4 = 0 := by
    rw [List.length_append, List.length_replicate]
    omega
  rw [atob, hspace, if_pos hlength]
  have hcases : text.length % 4 = 0 ∨ text.length % 4 = 1 ∨ text.length % 4 = 2 ∨
      text.length % 4 = 3 := by omega
  rcases hcases with hmod | hmod | hmod | hmod
  · rw [hmod]
    exact congrArg _ ((congrArg _ (List.append_nil text)).trans (dropPadding_self hpadding))
  · -- of three padding characters one is left, and neither text is read
    have hleft : text ++ List.replicate ((4 - text.length % 4) % 4) '=' =
        (text ++ ['=']) ++ ['=', '='] := by rw [hmod]; simp [List.replicate]
    have hvalue : Base64.value '=' = none := by decide +kernel
    rw [hleft, dropPadding_append_two, ungroup_append_eq_none hvalue (by omega),
      ungroup_eq_none hmod]
  · rw [hmod]
    exact congrArg _ (dropPadding_append_two text)
  · rw [hmod]
    exact congrArg _ (dropPadding_append_one hpadding)

/-- **The browser's decoder is Go's** on the texts of the alphabet. -/
theorem base64urlToBuffer_eq {s : String} (h : ∀ c ∈ s.toList, c ∈ urlAlphabet) :
    base64urlToBuffer s = rawURLDecode s := by
  have hlines : s.toList.filter (fun c => c ≠ '\r' ∧ c ≠ '\n') = s.toList := by
    rw [List.filter_eq_self]
    intro c hc
    simpa using (ofUrl_of_mem (h c hc)).2.2.2
  have hmap : ((s.toList ++ List.replicate ((4 - s.toList.length % 4) % 4) '=').map ofUrl) =
      s.toList.map ofUrl ++
        List.replicate ((4 - (s.toList.map ofUrl).length % 4) % 4) '=' := by
    rw [List.map_append, List.map_replicate, List.length_map]
    rfl
  have hchars : ∀ c ∈ s.toList.map ofUrl, isAsciiSpace c = false ∧ c ≠ '=' := by
    intro c hc
    obtain ⟨d, hd, rfl⟩ := List.mem_map.mp hc
    exact ⟨(ofUrl_of_mem (h d hd)).1, (ofUrl_of_mem (h d hd)).2.1⟩
  rw [base64urlToBuffer, rawURLDecode, hlines, hmap, atob_filled hchars]
  exact ungroup_map fun c hc => (ofUrl_of_mem (h c hc)).2.2.1

/-- Padding is taken off a text that has none of its own. -/
theorem rdropWhile_append_replicate {text : List Char} (h : ∀ c ∈ text, c ≠ '=') (n : Nat) :
    (text ++ List.replicate n '=').rdropWhile (fun c => c = '=') = text := by
  induction n with
  | zero =>
      rw [List.replicate_zero, List.append_nil, List.rdropWhile_eq_self_iff]
      intro hne
      simpa using h _ (List.getLast_mem hne)
  | succ n ih =>
      rw [List.replicate_succ', ← List.append_assoc, List.rdropWhile_concat_pos _ _ _ (by simp),
        ih]

/-- **The browser's encoder is Go's.** -/
theorem bufferToBase64url_eq (buffer : List UInt8) :
    bufferToBase64url buffer = rawURLEncode buffer := by
  have hdigits : (group Base64.digit buffer).map toUrl = group urlDigit buffer :=
    map_group (fun n hn => (urlDigit_eq hn).1.symm) buffer
  have hkept : ∀ c ∈ group urlDigit buffer, c ≠ '=' := by
    intro c hc
    obtain ⟨n, hn, rfl⟩ := mem_group hc
    have hnot : '=' ∉ urlAlphabet := by decide +kernel
    exact fun heq => hnot (heq ▸ urlDigit_mem hn)
  rw [bufferToBase64url, btoa, encode_eq, List.map_append, hdigits, List.map_replicate]
  exact congrArg String.ofList (rdropWhile_append_replicate hkept _)

/-- What Go encodes, the browser decodes. -/
theorem base64urlToBuffer_rawURLEncode (bytes : List UInt8) :
    base64urlToBuffer (rawURLEncode bytes) = some bytes := by
  rw [base64urlToBuffer_eq, rawURLDecode_rawURLEncode]
  intro c hc
  rw [rawURLEncode, String.toList_ofList] at hc
  obtain ⟨n, hn, rfl⟩ := mem_group hc
  exact urlDigit_mem hn

/-! ### A registration -/

/-- The options of a registration, with their byte strings as bytes or as texts. The members
that `registerSecurityKey` copies are `rest`, and those of a credential to exclude come with
its id. -/
structure CreationOptions (β δ ρ : Type) where
  challenge : β
  userID : β
  excludeCredentials : Option (List (β × δ))
  rest : ρ

/-- A credential as it was created, with its byte strings as bytes or as texts. -/
structure AttestedCredential (β ε : Type) where
  id : String
  rawId : β
  type : String
  attestationObject : β
  clientDataJSON : β
  clientExtensionResults : ε

section Registration

variable {δ ρ ε : Type}

/-- The options with their byte strings as Go encodes them. -/
def CreationOptions.encode (options : CreationOptions (List UInt8) δ ρ) :
    CreationOptions String δ ρ where
  challenge := rawURLEncode options.challenge
  userID := rawURLEncode options.userID
  excludeCredentials := options.excludeCredentials.map fun excluded =>
    excluded.map fun c => (rawURLEncode c.1, c.2)
  rest := options.rest

/-- The options as `navigator.credentials.create` gets them. -/
def publicKey (options : CreationOptions String δ ρ) :
    Option (CreationOptions (List UInt8) δ ρ) := do
  let challenge ← base64urlToBuffer options.challenge
  let userID ← base64urlToBuffer options.userID
  let excludeCredentials ← (options.excludeCredentials.getD []).mapM fun c =>
    (base64urlToBuffer c.1).map fun id => (id, c.2)
  some ⟨challenge, userID, some excludeCredentials, options.rest⟩

/-- `registerSecurityKey`, without a value where it throws. -/
def registerSecurityKey
    (create : CreationOptions (List UInt8) δ ρ → Option (AttestedCredential (List UInt8) ε))
    (options : CreationOptions String δ ρ) : Option (AttestedCredential String ε) := do
  let publicKey ← publicKey options
  let credential ← create publicKey
  some {
    id := credential.id
    rawId := bufferToBase64url credential.rawId
    type := credential.type
    attestationObject := bufferToBase64url credential.attestationObject
    clientDataJSON := bufferToBase64url credential.clientDataJSON
    clientExtensionResults := credential.clientExtensionResults }

/-- The credential with its byte strings as Go decodes them. -/
def AttestedCredential.decode (body : AttestedCredential String ε) :
    Option (AttestedCredential (List UInt8) ε) := do
  let rawId ← rawURLDecode body.rawId
  let attestationObject ← rawURLDecode body.attestationObject
  let clientDataJSON ← rawURLDecode body.clientDataJSON
  some ⟨body.id, rawId, body.type, attestationObject, clientDataJSON,
    body.clientExtensionResults⟩

/-- The credentials to exclude arrive as they were sent. -/
theorem mapM_excluded (excluded : List (List UInt8 × δ)) :
    ((excluded.map fun c => (rawURLEncode c.1, c.2)).mapM fun c =>
      (base64urlToBuffer c.1).map fun id => (id, c.2)) = some excluded := by
  induction excluded with
  | nil => rfl
  | cons c excluded ih =>
      rw [List.map_cons, List.mapM_cons, base64urlToBuffer_rawURLEncode, ih]
      rfl

/-- The options arrive as they were sent, with an empty list for none to exclude. -/
theorem publicKey_encode (options : CreationOptions (List UInt8) δ ρ) :
    publicKey options.encode =
      some { options with excludeCredentials := some (options.excludeCredentials.getD []) } := by
  have hexcluded : (options.encode.excludeCredentials.getD []).mapM (fun c =>
      (base64urlToBuffer c.1).map fun id => (id, c.2)) =
        some (options.excludeCredentials.getD []) := by
    rw [CreationOptions.encode]
    cases options.excludeCredentials with
    | none => rfl
    | some excluded => exact mapM_excluded excluded
  rw [publicKey, hexcluded]
  simp [CreationOptions.encode, base64urlToBuffer_rawURLEncode]

end Registration

/-- **A registration relays bytes.** Given options whose byte strings Go has encoded, and
whatever the authenticator returns, the authenticator gets the bytes of the options, and Go
decodes the bytes the authenticator returned. -/
theorem registration_relays {δ ρ ε : Type}
    (create : CreationOptions (List UInt8) δ ρ → Option (AttestedCredential (List UInt8) ε))
    (options : CreationOptions (List UInt8) δ ρ) :
    (registerSecurityKey create options.encode).bind AttestedCredential.decode =
      create { options with
        excludeCredentials := some (options.excludeCredentials.getD []) } := by
  rw [registerSecurityKey, publicKey_encode]
  cases hcreate : create { options with
      excludeCredentials := some (options.excludeCredentials.getD []) } with
  | none => simp [hcreate]
  | some credential =>
      simp [hcreate, AttestedCredential.decode, bufferToBase64url_eq, rawURLDecode_rawURLEncode]

end IdpForge
