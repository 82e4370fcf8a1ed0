import TurboMedia.Auth.SignedToken

/-!
# How many spellings an accepted token has

Revocation looks a token up by the digest of its text, acceptance goes by the
bytes its segments decode to.

**Input.**  Two tokens with the same text before the last dot, under the same
keys; base64 decoding is standard, but need not reject unused bits that are not
zero.

**Method.**  The signed part fixes the key and so the signature bytes.  These fix
the signature segment up to the unused bits of its last character: 32 bytes are
43 characters, the last of which has two bits no byte takes.
-/

namespace TurboMedia.Auth

open List Option Base64

/-- The decoder returns what the text stands for, and accepts every text that
was encoded.  Nothing is said about unused bits. -/
structure StandardDecoder (decode : List UInt8 → Option (List UInt8)) : Prop where
  sound : ∀ text bytes, decode text = some bytes → Base64.decode text = some bytes
  complete : ∀ bytes, decode (Base64.encode bytes) = some bytes

def segmentSextets (segment : CStr) : Option (List ℕ) :=
  (normalize segment).bind Base64.sextets

variable {c : UInt8}

theorem normalizeChar_some {e : UInt8} (h : normalizeChar c = some e) :
    (((97 ≤ c.toNat ∧ c.toNat ≤ 122) ∨ (65 ≤ c.toNat ∧ c.toNat ≤ 90) ∨
      (48 ≤ c.toNat ∧ c.toNat ≤ 57)) ∧ e.toNat = c.toNat) ∨
      (c.toNat = 45 ∧ e.toNat = 43) ∨ (c.toNat = 95 ∧ e.toNat = 47) := by
  simp only [normalizeChar, alphanumeric, decide_eq_true_eq] at h
  split_ifs at h with halpha hminus hunder
  · cases h
    exact .inl ⟨halpha, rfl⟩
  · cases h
    rw [hminus]
    exact .inr (.inl ⟨rfl, rfl⟩)
  · cases h
    rw [hunder]
    exact .inr (.inr ⟨rfl, rfl⟩)

theorem normalizeChar_injective {d e : UInt8} (hc : normalizeChar c = some e)
    (hd : normalizeChar d = some e) : c = d := by
  apply UInt8.toNat_inj.mp
  have hc' := normalizeChar_some hc
  have hd' := normalizeChar_some hd
  omega

variable {s : CStr}

theorem normalize_injective {t n : CStr} (hs : normalize s = some n) (ht : normalize t = some n) :
    s = t := by
  induction s generalizing t n with
  | nil =>
    simp only [normalize, some.injEq] at hs
    subst hs
    cases t with
    | nil => rfl
    | cons d t =>
      rw [normalize] at ht
      split at ht <;> cases ht
  | cons c s ih =>
    rw [normalize] at hs
    split at hs
    · next c' s' hc hs' =>
        cases hs
        cases t with
        | nil => cases ht
        | cons d t =>
          rw [normalize] at ht
          split at ht
          · next d' t' hd ht' =>
              simp only [some.injEq, cons.injEq] at ht
              obtain ⟨rfl, rfl⟩ := ht
              rw [normalizeChar_injective hc hd, ih hs' ht']
          · cases ht
    · cases hs

theorem segmentSextets_injective {t : CStr} {ns : List ℕ} (hs : segmentSextets s = some ns)
    (ht : segmentSextets t = some ns) : s = t := by
  rw [segmentSextets, bind_eq_some_iff] at hs ht
  obtain ⟨s', hs', hsn⟩ := hs
  obtain ⟨t', ht', htn⟩ := ht
  rw [sextets_injective hsn htn] at hs'
  exact normalize_injective hs' ht'

theorem sextets_lt_of_segment {ns : List ℕ} (h : segmentSextets s = some ns) :
    ∀ n ∈ ns, n < 64 := by
  rw [segmentSextets, bind_eq_some_iff] at h
  obtain ⟨s', _, hsn⟩ := h
  exact sextets_lt hsn

theorem normalizeChar_ne_padding {d : UInt8} (h : normalizeChar c = some d) :
    d ≠ Base64.padding := by
  rintro rfl
  have hcases := normalizeChar_some h
  have hpad : padding.toNat = 61 := rfl
  omega

theorem normalize_ne_padding {n : CStr} (h : normalize s = some n) :
    n.length = s.length ∧ ∀ c ∈ n, c ≠ Base64.padding := by
  induction s generalizing n with
  | nil =>
    simp only [normalize, some.injEq] at h
    subst h
    simp
  | cons c s ih =>
    rw [normalize] at h
    split at h
    · next c' s' hc hs' =>
        cases h
        obtain ⟨hlen, hrest⟩ := ih hs'
        simp only [length_cons, mem_cons, forall_eq_or_imp, hlen]
        exact ⟨trivial, normalizeChar_ne_padding hc, hrest⟩
    · cases h

variable {lib : Library}

theorem authBase64urlDecode_some {segment : CStr} {n : ℕ} {bytes : List UInt8}
    (hbase64 : StandardDecoder lib.decodeBase64)
    (h : authBase64urlDecode lib segment n = some bytes) :
    ∃ ns, segmentSextets segment = some ns ∧ Base64.pack ns = some bytes := by
  rw [authBase64urlDecode] at h
  split_ifs at h
  cases hnorm : normalize segment with
  | none => simp [hnorm] at h
  | some normalized =>
    rw [hnorm] at h
    dsimp only at h
    split_ifs at h
    obtain ⟨hlen, hpad⟩ := normalize_ne_padding hnorm
    cases hdec : lib.decodeBase64 (normalized ++ paddingFor segment.length) with
    | none => simp [hdec] at h
    | some decoded =>
      rw [hdec] at h
      dsimp only at h
      split_ifs at h
      cases h
      have hstd := hbase64.sound _ _ hdec
      rw [← hlen, decode_padded hpad, bind_eq_some_iff] at hstd
      obtain ⟨ns, hns, hpack⟩ := hstd
      exact ⟨ns, by rw [segmentSextets, hnorm]; exact hns, hpack⟩

def signedPart (token : CStr) : CStr :=
  (token.rdropWhile (· ≠ 46)).dropLast

/-- The bits of the last character of the signature segment that no byte of the
signature takes. -/
def unusedBits (token : CStr) : ℕ :=
  match splitToken token with
  | none => 0
  | some (_, _, signature) => ((segmentSextets signature).map Base64.unused).getD 0

/-- The two configurations hold the same keys. -/
structure SameKeys (config config' : Config) : Prop where
  activeKeyId : config.activeKeyId = config'.activeKeyId
  activeSecret : config.activeSecret = config'.activeSecret
  previousKeyId : config.previousKeyId = config'.previousKeyId
  previousSecret : config.previousSecret = config'.previousSecret

theorem takeWhile_append_dropWhile_dot {text rest : CStr}
    (h : text.dropWhile (· ≠ 46) = c :: rest) : text = text.takeWhile (· ≠ 46) ++ [46] ++ rest := by
  have hc : c = 46 := by
    have hhead := head_dropWhile_not (p := fun x : UInt8 => decide (x ≠ 46)) (l := text)
      (by rw [h]; simp)
    simp only [h, head_cons] at hhead
    simpa using hhead
  conv_lhs => rw [← takeWhile_append_dropWhile (p := fun x : UInt8 => decide (x ≠ 46))
    (l := text), h, hc]
  simp

variable {token : CStr}

theorem splitToken_some {header payload signature : CStr}
    (h : splitToken token = some (header, payload, signature)) :
    token = header ++ [46] ++ payload ++ [46] ++ signature ∧ 46 ∉ header ∧ 46 ∉ signature := by
  rw [splitToken] at h
  cases hfirst : token.dropWhile (· ≠ 46) with
  | nil =>
    rw [hfirst] at h
    cases h
  | cons c afterFirst =>
    rw [hfirst] at h
    dsimp only at h
    cases hsecond : afterFirst.dropWhile (· ≠ 46) with
    | nil =>
      rw [hsecond] at h
      cases h
    | cons d rest =>
      rw [hsecond] at h
      dsimp only at h
      split_ifs at h with hdot
      simp only [some.injEq, Prod.mk.injEq] at h
      obtain ⟨rfl, rfl, rfl⟩ := h
      refine ⟨?_, ?_, by simpa using hdot⟩
      swap
      · intro hmem
        simpa using mem_takeWhile_imp hmem
      have ht := takeWhile_append_dropWhile_dot hfirst
      have ha := takeWhile_append_dropWhile_dot hsecond
      conv_lhs => rw [ht, ha]
      simp

theorem signedPart_eq {front signature : CStr} (h : 46 ∉ signature) :
    signedPart (front ++ [46] ++ signature) = front := by
  have hdrop : (front ++ [46] ++ signature).rdropWhile (· ≠ 46) = front ++ [46] := by
    induction signature using reverseRecOn with
    | nil => rw [append_nil, rdropWhile_concat_neg _ _ _ (by simp)]
    | append_singleton signature c ih =>
      have hc : c ≠ 46 := by
        rintro rfl
        exact h (by simp)
      rw [← append_assoc, rdropWhile_concat_pos _ _ _ (by simpa using hc)]
      exact ih (fun hmem => h (by simp [hmem]))
  rw [signedPart, hdrop, dropLast_concat]

variable {config : Config} {policy : Policy}

theorem verify_true (h : authVerifySignedToken lib token config policy = true) :
    ∃ header payload signature headerText payloadText signatureBytes,
      splitToken token = some (header, payload, signature) ∧
      authBase64urlDecode lib header 512 = some headerText ∧
      authBase64urlDecode lib payload 2048 = some payloadText ∧
      authBase64urlDecode lib signature 32 = some signatureBytes ∧ signatureBytes.length = 32 ∧
      decodedValid lib config policy (header ++ [46] ++ payload) headerText payloadText
        signatureBytes = true ∧ revoked lib config token = false := by
  rw [authVerifySignedToken] at h
  split_ifs at h
  split at h
  · cases h
  · next header payload signature hsplit =>
      split at h
      · next headerText payloadText signatureBytes hhdr hload hsignature =>
          simp only [Bool.and_eq_true, beq_iff_eq, Bool.not_eq_true'] at h
          exact ⟨header, payload, signature, headerText, payloadText, signatureBytes, hsplit,
            hhdr, hload, hsignature, h.1.1, h.1.2, h.2⟩
      · cases h

/-- The header text fixes the key id, and the signed part the signature. -/
theorem decodedValid_signature {signed headerText payloadText signature : List UInt8}
    (h : decodedValid lib config policy signed headerText payloadText signature = true) :
    ∃ header keyId, lib.jsonParse headerText = some header ∧ headerKeyId header = some keyId ∧
      expectedSignature lib config keyId signed = some signature := by
  rw [decodedValid] at h
  split at h
  · next header payload hhdr hload =>
      simp only [Bool.and_eq_true] at h
      obtain ⟨⟨⟨_, hsig⟩, _⟩, _⟩ := h
      split at hsig
      · cases hsig
      · next keyId hkey =>
          exact ⟨header, keyId, hhdr, hkey, by simpa using hsig⟩
  · cases h

theorem SameKeys.expectedSignature {config' : Config} (h : SameKeys config config')
    (lib : Library) (keyId signed : CStr) :
    expectedSignature lib config keyId signed = expectedSignature lib config' keyId signed := by
  simp only [Auth.expectedSignature, authSelectSecret, h.activeKeyId, h.activeSecret,
    h.previousKeyId, h.previousSecret]

theorem verify_segments (hbase64 : StandardDecoder lib.decodeBase64)
    (h : authVerifySignedToken lib token config policy = true) :
    ∃ header payload signature headerText ns signatureBytes keyId,
      splitToken token = some (header, payload, signature) ∧
      authBase64urlDecode lib header 512 = some headerText ∧
      (lib.jsonParse headerText).bind headerKeyId = some keyId ∧
      expectedSignature lib config keyId (header ++ [46] ++ payload) = some signatureBytes ∧
      segmentSextets signature = some ns ∧ Base64.pack ns = some signatureBytes := by
  obtain ⟨header, payload, signature, headerText, payloadText, signatureBytes, hsplit, hhdr,
    hload, hsignature, hlen, hdecoded, hrevoked⟩ := verify_true h
  obtain ⟨json, keyId, hjson, hkey, hexp⟩ := decodedValid_signature hdecoded
  obtain ⟨ns, hns, hpack⟩ := authBase64urlDecode_some hbase64 hsignature
  exact ⟨header, payload, signature, headerText, ns, signatureBytes, keyId, hsplit, hhdr,
    by rw [hjson]; exact hkey, hexp, hns, hpack⟩

theorem segments_eq {header header' payload payload' : CStr} (hhdr : 46 ∉ header)
    (hhdr' : 46 ∉ header') (h : header ++ [46] ++ payload = header' ++ [46] ++ payload') :
    header = header' ∧ payload = payload' := by
  induction header generalizing header' with
  | nil =>
    cases header' with
    | nil => simpa using h
    | cons c header' =>
      simp only [nil_append, cons_append, cons.injEq] at h
      exact absurd (by simp [← h.1]) hhdr'
  | cons c header ih =>
    cases header' with
    | nil =>
      simp only [nil_append, cons_append, cons.injEq] at h
      exact absurd (by simp [h.1]) hhdr
    | cons c' header' =>
      simp only [cons_append, cons.injEq] at h
      obtain ⟨rfl, hrest⟩ := h
      obtain ⟨rfl, rfl⟩ := ih (fun hmem => hhdr (by simp [hmem]))
        (fun hmem => hhdr' (by simp [hmem])) hrest
      exact ⟨rfl, rfl⟩

/-- Two accepted tokens with one signed part and the same unused bits are one. -/
theorem accepted_eq_of_unusedBits {token' : CStr} {config' : Config} {policy' : Policy}
    (hbase64 : StandardDecoder lib.decodeBase64) (hkeys : SameKeys config config')
    (h : authVerifySignedToken lib token config policy = true)
    (h' : authVerifySignedToken lib token' config' policy' = true)
    (hsigned : signedPart token = signedPart token')
    (hunused : unusedBits token = unusedBits token') : token = token' := by
  obtain ⟨header, payload, signature, text, ns, bytes, keyId, hsplit, hhdr, hkey, hexp,
    hns, hpack⟩ := verify_segments hbase64 h
  obtain ⟨header', payload', signature', text', ns', bytes', keyId', hsplit', hhdr', hkey',
    hexp', hns', hpack'⟩ := verify_segments hbase64 h'
  simp only [unusedBits, hsplit, hsplit', hns, hns', map_some, getD_some] at hunused
  obtain ⟨rfl, hdot, hsig⟩ := splitToken_some hsplit
  obtain ⟨rfl, hdot', hsig'⟩ := splitToken_some hsplit'
  rw [signedPart_eq hsig, signedPart_eq hsig'] at hsigned
  obtain ⟨rfl, rfl⟩ := segments_eq hdot hdot' hsigned
  rw [hhdr] at hhdr'
  cases hhdr'
  rw [hkey] at hkey'
  cases hkey'
  rw [hkeys.expectedSignature, hexp'] at hexp
  cases hexp
  have hsame : ns = ns' :=
    pack_injective (sextets_lt_of_segment hns) (sextets_lt_of_segment hns') hpack hpack'
      hunused
  rw [segmentSextets_injective hns (hsame ▸ hns')]

/-- **Tokens and their spellings.**  With one signed part accepted in two
spellings, the tokens are the same exactly when the unused bits of the signature
are.  A revoked token stays denied in the spellings that keep them. -/
theorem spelling_determined_by_unused_bits (lib : Library) (token token' : CStr)
    (config config' : Config) (policy policy' : Policy) (hbase64 : StandardDecoder lib.decodeBase64)
    (hkeys : SameKeys config config')
    (haccepted : authVerifySignedToken lib token config policy = true)
    (hsigned : signedPart token = signedPart token') :
    (authVerifySignedToken lib token' config' policy' = true →
      (token = token' ↔ unusedBits token = unusedBits token')) ∧
    (revoked lib config' token = true → unusedBits token = unusedBits token' →
      authVerifySignedToken lib token' config' policy' = false) := by
  refine ⟨fun haccepted' => ⟨fun h => by rw [h], ?_⟩, fun hrevoked hunused => ?_⟩
  · exact accepted_eq_of_unusedBits hbase64 hkeys haccepted haccepted' hsigned
  · by_contra hne
    rw [Bool.not_eq_false] at hne
    have heq := accepted_eq_of_unusedBits hbase64 hkeys haccepted hne hsigned hunused
    obtain ⟨_, _, _, _, _, _, _, _, _, _, _, _, hclear⟩ := verify_true hne
    rw [← heq, hrevoked] at hclear
    cases hclear

theorem standardDecoder_decode :
    StandardDecoder Base64.decode where
  sound := fun _ _ h => h
  complete := decode_encode

/-- A configuration with one key and no source of revocation. -/
def sampleConfig : Config where
  issuer := some (bytes ['t', 'u', 'r', 'b', 'o', 'm', 'e', 'd', 'i', 'a'])
  activeKeyId := some (bytes ['k', '1'])
  activeSecret := some ((range' 65 32).map UInt8.ofNat)
  previousKeyId := none
  previousSecret := none
  revokedTokenSha256 := none
  revocationCheck := none
  revocationContext := false
  clockSkewSeconds := 30
  maxTtlSeconds := 3600

def sampleClaims : Claims where
  subject := some (bytes ['a', 'l', 'i', 'c', 'e'])
  audience := some (bytes ['s', 'f', 'u'])
  scope := some (bytes ['j', 'o', 'i', 'n', ' ', 'p', 'u', 'b', 'l', 'i', 's', 'h'])
  roomId := some (bytes ['l', 'o', 'b', 'b', 'y'])
  participantId := none
  issuedAt := 1000
  expiresAt := 1600
  tenantId := none

def samplePolicy : Policy where
  audience := sampleClaims.audience
  requiredScope := some (bytes ['j', 'o', 'i', 'n'])
  roomId := sampleClaims.roomId
  participantId := none
  now := 1200
  tenantId := none

def sampleHeader : Json :=
  .object [(keyAlg, .string algorithm), (keyTyp, .string tokenType),
    (keyKid, .string (bytes ['k', '1']))]

def samplePayload : Json :=
  .object [(keyIss, .string (sampleConfig.issuer.getD [])),
    (keySub, .string (sampleClaims.subject.getD [])),
    (keyAud, .string (sampleClaims.audience.getD [])),
    (keyScope, .string (sampleClaims.scope.getD [])),
    (keyRoomId, .string (sampleClaims.roomId.getD [])), (keyIat, .number 1000),
    (keyExp, .number 1600)]

def sampleSignature : List UInt8 :=
  [194, 157, 89, 215, 32, 127, 186, 206, 161, 164, 144, 9, 88, 107, 224, 212, 91, 99, 119,
    49, 16, 249, 242, 68, 60, 160, 48, 13, 240, 217, 221, 143]

def samplePayloadText : CStr :=
  (authFormatPayload sampleConfig sampleClaims).getD []

/-- Up to the last dot, as the code issues it. -/
def sampleSigned : CStr :=
  (((Base64.encode (headerText (bytes ['k', '1']))).rdropWhile (· == 61)).map urlChar) ++ [46] ++
    (((Base64.encode samplePayloadText).rdropWhile (· == 61)).map urlChar)

/-- The token as it is issued.  Its last character is `8`, with unused bits zero. -/
def sampleToken : CStr :=
  sampleSigned ++ [46] ++ (((Base64.encode sampleSignature).rdropWhile (· == 61)).map urlChar)

/-- The same token with `9` for its last character. -/
def respelledToken : CStr :=
  sampleToken.dropLast ++ [57]

def sampleDigest : List UInt8 :=
  [251, 1, 253, 163, 50, 139, 250, 167, 77, 81, 47, 67, 43, 44, 137, 22, 212, 29, 12, 231,
    3, 162, 146, 146, 152, 225, 86, 35, 254, 1, 248, 47]

def respelledDigest : List UInt8 :=
  [17, 217, 230, 80, 99, 133, 30, 73, 132, 187, 48, 152, 168, 56, 61, 29, 221, 91, 7, 90,
    253, 29, 231, 13, 35, 105, 213, 33, 129, 139, 92, 158]

/-- The functions of the outside, as they are on these texts. -/
def sampleLibrary : Library where
  sha256 := fun data =>
    if data = sampleToken then sampleDigest else if data = respelledToken then respelledDigest
      else []
  hmac := fun key data =>
    if some key = sampleConfig.activeSecret ∧ data = sampleSigned then sampleSignature
      else replicate 32 0
  encodeBlock := Base64.encode
  decodeBase64 := Base64.decode
  jsonParse := fun text =>
    if text = headerText (bytes ['k', '1']) then some sampleHeader
      else if text = samplePayloadText then some samplePayload else none
  time := 0

/-- The configuration with the digest of the sample token listed as revoked. -/
def revokingConfig : Config :=
  { sampleConfig with
    revokedTokenSha256 := some (bytes [
      'f', 'b', '0', '1', 'f', 'd', 'a', '3', '3', '2', '8', 'b', 'f', 'a', 'a', '7', '4', 'd',
      '5', '1', '2', 'f', '4', '3', '2', 'b', '2', 'c', '8', '9', '1', '6', 'd', '4', '1',
      'd', '0', 'c', 'e', '7', '0', '3', 'a', '2', '9', '2', '9', '2', '9', '8', 'e', '1',
      '5', '6', '2', '3', 'f', 'e', '0', '1', 'f', '8', '2', 'f']) }

theorem sampleToken_accepted :
    authVerifySignedToken sampleLibrary sampleToken sampleConfig samplePolicy = true := by
  decide +kernel

theorem respelledToken_accepted :
    authVerifySignedToken sampleLibrary respelledToken sampleConfig samplePolicy = true := by
  decide +kernel

theorem respelledToken_signedPart : signedPart sampleToken = signedPart respelledToken := by
  decide +kernel

theorem spelling_determined_by_unused_bits_sample :
    authVerifySignedToken sampleLibrary respelledToken sampleConfig samplePolicy = true ∧
      (sampleToken = respelledToken ↔ unusedBits sampleToken = unusedBits respelledToken) := by
  have hspelling := spelling_determined_by_unused_bits sampleLibrary sampleToken respelledToken
    sampleConfig sampleConfig samplePolicy samplePolicy standardDecoder_decode
    ⟨rfl, rfl, rfl, rfl⟩ sampleToken_accepted respelledToken_signedPart
  exact ⟨respelledToken_accepted, hspelling.1 respelledToken_accepted⟩

/-- A second spelling of an accepted token is accepted, also once the first is
revoked. -/
theorem respelled_token_escapes_revocation :
    ¬ (∀ lib : Library, StandardDecoder lib.decodeBase64 →
        ∀ (config : Config) (policy : Policy) (token token' : CStr),
          authVerifySignedToken lib token config policy = true →
          authVerifySignedToken lib token' config policy = true →
          signedPart token = signedPart token' → token = token') ∧
      ¬ (∀ lib : Library, StandardDecoder lib.decodeBase64 →
        ∀ (config : Config) (policy : Policy) (token token' : CStr),
          revoked lib config token = true → signedPart token = signedPart token' →
          authVerifySignedToken lib token' config policy = false) := by
  constructor
  · intro h
    have heq := h sampleLibrary standardDecoder_decode sampleConfig samplePolicy sampleToken
      respelledToken sampleToken_accepted respelledToken_accepted respelledToken_signedPart
    revert heq
    decide +kernel
  · intro h
    have hdenied := h sampleLibrary standardDecoder_decode revokingConfig samplePolicy sampleToken
      respelledToken (by decide +kernel) respelledToken_signedPart
    revert hdenied
    decide +kernel

end TurboMedia.Auth
