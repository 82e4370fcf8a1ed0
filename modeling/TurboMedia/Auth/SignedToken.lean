import TurboMedia.Auth.Revocation
import TurboMedia.Lib.Base64

/-!
# Signed access tokens

Model of `turbo_media_auth.c`: the checks on identifiers, the base64url codec
around the library's base64, the verification of a signed token and its issue.

What the code takes from outside (digests, base64, the JSON parser and the clock)
is the structure `Library`.  JSON numbers are the values of doubles; strings and
keys are as the parser's C interface returns them.
-/

namespace TurboMedia.Auth

/-- A parsed JSON value. -/
inductive Json where
  | null
  | bool (value : Bool)
  | number (value : ℚ)
  | string (value : CStr)
  | array (values : List Json)
  | object (members : List (CStr × Json))

/-- The functions that are called but not part of the code: `EVP_Digest` with
SHA-256, `HMAC` with SHA-256, `EVP_EncodeBlock`, `EVP_DecodeBase64`, `json_parse`
and `time`. -/
structure Library where
  sha256 : List UInt8 → List UInt8
  hmac : List UInt8 → List UInt8 → List UInt8
  encodeBlock : List UInt8 → List UInt8
  decodeBase64 : List UInt8 → Option (List UInt8)
  jsonParse : List UInt8 → Option Json
  time : ℤ

/-- `turbo_media_auth_config_t`.  `revocationContext` says whether the context
pointer is set. -/
structure Config where
  issuer : Option CStr
  activeKeyId : Option CStr
  activeSecret : Option CStr
  previousKeyId : Option CStr
  previousSecret : Option CStr
  revokedTokenSha256 : Option CStr
  revocationCheck : Option (List UInt8 → Revocation.Status)
  revocationContext : Bool
  clockSkewSeconds : ℤ
  maxTtlSeconds : ℤ

/-- `turbo_media_auth_policy_t`. -/
structure Policy where
  audience : Option CStr
  requiredScope : Option CStr
  roomId : Option CStr
  participantId : Option CStr
  now : ℤ
  tenantId : Option CStr

/-- `turbo_media_auth_claims_t`. -/
structure Claims where
  subject : Option CStr
  audience : Option CStr
  scope : Option CStr
  roomId : Option CStr
  participantId : Option CStr
  issuedAt : ℤ
  expiresAt : ℤ
  tenantId : Option CStr

/-- `auth_string_present`. -/
def authStringPresent (value : Option CStr) : Bool :=
  match value with
  | some (_ :: _) => true
  | _ => false

def alphanumeric (ch : UInt8) : Bool :=
  decide ((97 ≤ ch.toNat ∧ ch.toNat ≤ 122) ∨ (65 ≤ ch.toNat ∧ ch.toNat ≤ 90) ∨
    (48 ≤ ch.toNat ∧ ch.toNat ≤ 57))

/-- The characters of `auth_identifier_valid`: `-`, `_`, `.`, `~`, `:` and `/`
beside letters and digits. -/
def identifierChar (ch : UInt8) : Bool :=
  alphanumeric ch || ch == 45 || ch == 95 || ch == 46 || ch == 126 || ch == 58 || ch == 47

/-- `auth_identifier_valid`. -/
def authIdentifierValid (value : Option CStr) : Bool :=
  match value with
  | none => false
  | some s => s ≠ [] && decide (s.length ≤ 255) && s.all identifierChar

/-- `auth_tenant_identifier_valid`. -/
def authTenantIdentifierValid (value : Option CStr) : Bool :=
  authIdentifierValid value && (value.getD []).all (· ≠ 47)

/-- `auth_tenant_room_consistent`: the room is below the tenant. -/
def authTenantRoomConsistent (tenantId roomId : Option CStr) : Bool :=
  match tenantId, roomId with
  | some tenant, some room =>
    tenant.isPrefixOf room && room[tenant.length]? == some 47 &&
      decide (tenant.length + 1 < room.length)
  | _, _ => true

/-- The characters of `auth_scope_list_valid`: no `~`. -/
def scopeChar (ch : UInt8) : Bool :=
  alphanumeric ch || ch == 45 || ch == 95 || ch == 46 || ch == 58 || ch == 47

/-- The loop of `auth_scope_list_valid`. -/
def scopeLoop : Bool → CStr → Bool
  | atTokenStart, [] => !atTokenStart
  | atTokenStart, ch :: rest =>
    if ch = 32 then
      if atTokenStart then false else scopeLoop true rest
    else if scopeChar ch then scopeLoop false rest
    else false

/-- `auth_scope_list_valid`. -/
def authScopeListValid (scope : Option CStr) : Bool :=
  match scope with
  | none => false
  | some s => s ≠ [] && decide (s.length ≤ 255) && scopeLoop true s

/-- `auth_key_pair_valid`. -/
def authKeyPairValid (keyId secret : Option CStr) : Bool :=
  authIdentifierValid keyId && authStringPresent secret && decide (32 ≤ (secret.getD []).length)

/-- `auth_hex_nibble`. -/
def authHexNibble (value : UInt8) : Option UInt8 :=
  Revocation.revocationHexNibble value

/-- The loop of `auth_revocation_list_valid`. -/
def revocationListLoop : ℕ → ℕ → CStr → Bool
  | _, entryLength, [] => entryLength == 64
  | entryCount, entryLength, ch :: rest =>
    if ch = 44 then
      if entryLength ≠ 64 ∨ entryCount ≥ 256 then false
      else revocationListLoop (entryCount + 1) 0 rest
    else if (authHexNibble ch).isNone ∨ entryLength ≥ 64 then false
    else revocationListLoop entryCount (entryLength + 1) rest

/-- `auth_revocation_list_valid`. -/
def authRevocationListValid (list : Option CStr) : Bool :=
  match list with
  | some (ch :: rest) =>
    decide ((ch :: rest).length ≤ 256 * 64 + 255) && revocationListLoop 1 0 (ch :: rest)
  | _ => true

/-- One entry of the list; a missing or bad character makes it unreadable. -/
def parseEntry (entry : CStr) : Option (List UInt8) :=
  if entry.length < 64 then none else Revocation.parseBytes (entry.take 64)

/-- The loop of `auth_token_revoked`.  Every turn takes at least one entry, so
the length of the list is fuel enough. -/
def revokedLoop (digest : List UInt8) : ℕ → CStr → Bool
  | 0, _ => false
  | fuel + 1, entry =>
    if entry = [] then false
    else
      match parseEntry entry with
      | none => true
      | some expected =>
        if expected = digest then true
        else
          let entry := entry.drop 64
          revokedLoop digest fuel (if entry.head? = some 44 then entry.tail else entry)

/-- `auth_token_revoked`. -/
def authTokenRevoked (lib : Library) (token : CStr) (list : Option CStr) : Bool :=
  authStringPresent list &&
    revokedLoop (lib.sha256 token) ((list.getD []).length + 1) (list.getD [])

/-- `turbo_media_auth_config_enabled`. -/
def authConfigEnabled (config : Config) : Bool :=
  authStringPresent config.activeKeyId && authStringPresent config.activeSecret

/-- `turbo_media_auth_config_validate`. -/
def authConfigValidate (config : Config) : Bool :=
  let previousIdPresent := authStringPresent config.previousKeyId
  let previousSecretPresent := authStringPresent config.previousSecret
  authConfigEnabled config && authIdentifierValid config.issuer &&
    authKeyPairValid config.activeKeyId config.activeSecret &&
    decide (0 ≤ config.clockSkewSeconds ∧ config.clockSkewSeconds ≤ 300) &&
    decide (1 ≤ config.maxTtlSeconds ∧ config.maxTtlSeconds ≤ 86400) &&
    authRevocationListValid config.revokedTokenSha256 &&
    config.revocationCheck.isSome == config.revocationContext &&
    previousIdPresent == previousSecretPresent &&
    (!previousIdPresent ||
      (authKeyPairValid config.previousKeyId config.previousSecret &&
        config.activeKeyId ≠ config.previousKeyId))

/-- The alphabet of base64url, to that of base64. -/
def normalizeChar (ch : UInt8) : Option UInt8 :=
  if alphanumeric ch then some ch
  else if ch = 45 then some 43
  else if ch = 95 then some 47
  else none

/-- The loop over the characters of a segment. -/
def normalize : CStr → Option CStr
  | [] => some []
  | ch :: rest =>
    match normalizeChar ch, normalize rest with
    | some c, some cs => some (c :: cs)
    | _, _ => none

/-- `auth_base64url_decode`. -/
def authBase64urlDecode (lib : Library) (input : CStr) (maximumOutput : ℕ) :
    Option (List UInt8) :=
  if input.length = 0 ∨ input.length > 4096 ∨ input.length % 4 = 1 then none
  else
    match normalize input with
    | none => none
    | some normalized =>
      let normalized := normalized ++ Base64.paddingFor input.length
      if normalized.length / 4 * 3 > maximumOutput + 2 then none
      else
        match lib.decodeBase64 normalized with
        | none => none
        | some decoded => if decoded.length > maximumOutput then none else some decoded

/-- The alphabet of base64, to that of base64url. -/
def urlChar (ch : UInt8) : UInt8 :=
  if ch = 43 then 45 else if ch = 47 then 95 else ch

/-- `auth_base64url_encode`. -/
def authBase64urlEncode (lib : Library) (input : List UInt8) : CStr :=
  ((lib.encodeBlock input).rdropWhile (· == 61)).map urlChar

/-- `json_object_get`. -/
def Json.get (value : Json) (key : CStr) : Option Json :=
  match value with
  | .object members => (members.find? (fun m => m.1 == key)).map Prod.snd
  | _ => none

/-- `auth_json_object_strict`: an object with allowed keys only, each once. -/
def authJsonObjectStrict (value : Json) (allowed : List CStr) : Bool :=
  match value with
  | .object members =>
    members.all (fun m => allowed.contains m.1) && decide (members.map Prod.fst).Nodup
  | _ => false

/-- `auth_json_string`. -/
def authJsonString (value : Json) (key : CStr) : Option CStr :=
  match value.get key with
  | some (.string s) => some s
  | _ => none

/-- `auth_json_int64`. -/
def authJsonInt64 (value : Json) (key : CStr) : Option ℤ :=
  match value.get key with
  | some (.number number) =>
    if number < 0 ∨ number > 9007199254740991 then none
    else if (⌊number⌋ : ℚ) ≠ number then none
    else some ⌊number⌋
  | _ => none

/-- The loop of `auth_scope_contains`: compare up to the next blank, go on behind
it. -/
def scopeContainsLoop (required : CStr) : ℕ → CStr → Bool
  | 0, _ => false
  | fuel + 1, cursor =>
    if cursor = [] then false
    else if cursor.takeWhile (· ≠ 32) = required then true
    else
      match cursor.dropWhile (· ≠ 32) with
      | [] => false
      | _ :: rest => scopeContainsLoop required fuel rest

/-- `auth_scope_contains`. -/
def authScopeContains (scopeList requiredScope : Option CStr) : Bool :=
  authScopeListValid scopeList && authIdentifierValid requiredScope &&
    scopeContainsLoop (requiredScope.getD []) ((scopeList.getD []).length + 1) (scopeList.getD [])

/-- `auth_resource_claim_matches`. -/
def authResourceClaimMatches (actual expected : Option CStr) : Bool :=
  actual == expected

/-- `auth_select_secret`. -/
def authSelectSecret (config : Config) (keyId : CStr) : Option CStr :=
  if some keyId = config.activeKeyId then config.activeSecret
  else if authStringPresent config.previousKeyId && some keyId == config.previousKeyId then
    config.previousSecret
  else none

def bytes (s : List Char) : CStr :=
  s.map (fun c => UInt8.ofNat c.toNat)

def keyAlg : CStr := bytes ['a', 'l', 'g']
def keyTyp : CStr := bytes ['t', 'y', 'p']
def keyKid : CStr := bytes ['k', 'i', 'd']
def keyIss : CStr := bytes ['i', 's', 's']
def keySub : CStr := bytes ['s', 'u', 'b']
def keyAud : CStr := bytes ['a', 'u', 'd']
def keyScope : CStr := bytes ['s', 'c', 'o', 'p', 'e']
def keyIat : CStr := bytes ['i', 'a', 't']
def keyExp : CStr := bytes ['e', 'x', 'p']

def keyTenantId : CStr :=
  bytes ['t', 'e', 'n', 'a', 'n', 't', '_', 'i', 'd']

def keyRoomId : CStr :=
  bytes ['r', 'o', 'o', 'm', '_', 'i', 'd']

def keyParticipantId : CStr :=
  bytes ['p', 'a', 'r', 't', 'i', 'c', 'i', 'p', 'a', 'n', 't', '_', 'i', 'd']

/-- `AUTH_ALGORITHM`. -/
def algorithm : CStr :=
  bytes ['H', 'S', '2', '5', '6']

/-- `AUTH_TOKEN_TYPE`. -/
def tokenType : CStr :=
  bytes ['t', 'u', 'r', 'b', 'o', 'm', 'e', 'd', 'i', 'a', '-', 'a', 'u', 't', 'h', '+', 'j',
    'w', 't']

def headerKeys : List CStr :=
  [keyAlg, keyTyp, keyKid]

def payloadKeys : List CStr :=
  [keyIss, keySub, keyAud, keyScope, keyIat, keyExp, keyTenantId, keyRoomId, keyParticipantId]

/-- The checks of `auth_verify_signed_token` on configuration and policy. -/
def requestValid (config : Config) (policy : Policy) : Bool :=
  authConfigValidate config && authIdentifierValid policy.audience &&
    authIdentifierValid policy.requiredScope &&
    (policy.tenantId.isNone || authTenantIdentifierValid policy.tenantId) &&
    (policy.roomId.isNone || authIdentifierValid policy.roomId) &&
    authTenantRoomConsistent policy.tenantId policy.roomId &&
    (policy.participantId.isNone || authIdentifierValid policy.participantId)

/-- The three segments between exactly two dots. -/
def splitToken (token : CStr) : Option (CStr × CStr × CStr) :=
  match token.dropWhile (· ≠ 46) with
  | [] => none
  | _ :: afterFirst =>
    match afterFirst.dropWhile (· ≠ 46) with
    | [] => none
    | _ :: signature =>
      if signature.contains 46 then none
      else some (token.takeWhile (· ≠ 46), afterFirst.takeWhile (· ≠ 46), signature)

/-- The key id of a header of the right kind. -/
def headerKeyId (header : Json) : Option CStr :=
  if authJsonString header keyAlg = some algorithm ∧
      authJsonString header keyTyp = some tokenType ∧
      authIdentifierValid (authJsonString header keyKid) = true then
    authJsonString header keyKid
  else none

/-- `auth_hmac_sha256`; a key longer than `INT_MAX` is refused. -/
def authHmacSha256 (lib : Library) (key data : List UInt8) : Option (List UInt8) :=
  if key.length > 2147483647 ∨ (lib.hmac key data).length ≠ 32 then none
  else some (lib.hmac key data)

/-- The signature expected on the signed part for a key id. -/
def expectedSignature (lib : Library) (config : Config) (keyId signed : CStr) :
    Option (List UInt8) :=
  match authSelectSecret config keyId with
  | none => none
  | some secret => authHmacSha256 lib secret signed

/-- The checks on the claims of the payload other than its times. -/
def claimsValid (config : Config) (policy : Policy) (payload : Json) : Bool :=
  let issuer := authJsonString payload keyIss
  let subject := authJsonString payload keySub
  let audience := authJsonString payload keyAud
  let scope := authJsonString payload keyScope
  let tenantId := authJsonString payload keyTenantId
  let roomId := authJsonString payload keyRoomId
  let participantId := authJsonString payload keyParticipantId
  authIdentifierValid issuer && issuer == config.issuer && authIdentifierValid subject &&
    authIdentifierValid audience && audience == policy.audience &&
    authScopeContains scope policy.requiredScope &&
    (tenantId.isNone || authTenantIdentifierValid tenantId) &&
    (roomId.isNone || authIdentifierValid roomId) &&
    authTenantRoomConsistent tenantId roomId &&
    (participantId.isNone || authIdentifierValid participantId) &&
    (participantId.isNone || roomId.isSome) &&
    authResourceClaimMatches tenantId policy.tenantId &&
    authResourceClaimMatches roomId policy.roomId &&
    authResourceClaimMatches participantId policy.participantId

def effectiveNow (lib : Library) (policy : Policy) : ℤ :=
  if policy.now > 0 then policy.now else lib.time

def timesValid (config : Config) (now : ℤ) (payload : Json) : Bool :=
  match authJsonInt64 payload keyIat, authJsonInt64 payload keyExp with
  | some issuedAt, some expiresAt =>
    decide (issuedAt < expiresAt) && decide (expiresAt - issuedAt ≤ config.maxTtlSeconds) &&
      decide (issuedAt ≤ now + config.clockSkewSeconds) &&
      decide (now - config.clockSkewSeconds < expiresAt)
  | _, _ => false

/-- One of the two sources of revocation denies the token. -/
def revoked (lib : Library) (config : Config) (token : CStr) : Bool :=
  authTokenRevoked lib token config.revokedTokenSha256 ||
    (match config.revocationCheck with
    | none => false
    | some check => check (lib.sha256 token) ≠ .clear)

/-- What is left of `auth_verify_signed_token` once the three segments are
decoded. -/
def decodedValid (lib : Library) (config : Config) (policy : Policy)
    (signed headerText payloadText signature : List UInt8) : Bool :=
  match lib.jsonParse headerText, lib.jsonParse payloadText with
  | some header, some payload =>
    authJsonObjectStrict header headerKeys && authJsonObjectStrict payload payloadKeys &&
      (match headerKeyId header with
      | none => false
      | some keyId => expectedSignature lib config keyId signed == some signature) &&
      claimsValid config policy payload &&
      timesValid config (effectiveNow lib policy) payload
  | _, _ => false

/-- `auth_verify_signed_token`. -/
def authVerifySignedToken (lib : Library) (token : CStr) (config : Config) (policy : Policy) :
    Bool :=
  if requestValid config policy = false ∨ token.length = 0 ∨ token.length > 4096 then false
  else
    match splitToken token with
    | none => false
    | some (header, payload, signature) =>
      match authBase64urlDecode lib header 512, authBase64urlDecode lib payload 2048,
        authBase64urlDecode lib signature 32 with
      | some headerText, some payloadText, some signatureBytes =>
        signatureBytes.length == 32 &&
          decodedValid lib config policy (header ++ [46] ++ payload) headerText payloadText
            signatureBytes &&
          !revoked lib config token
      | _, _, _ => false

/-- A string of JSON text; the code quotes without escaping. -/
def quoted (s : CStr) : CStr :=
  [34] ++ s ++ [34]

/-- A member of JSON text with a string for value. -/
def textMember (key value : CStr) : CStr :=
  quoted key ++ [58] ++ quoted value

/-- The format `%lld`. -/
def decimal (n : ℤ) : CStr :=
  (if n < 0 then [45] else []) ++ bytes (Nat.toDigits 10 n.natAbs)

/-- A member of JSON text with a number for value. -/
def numberMember (key : CStr) (value : ℤ) : CStr :=
  quoted key ++ [58] ++ decimal value

/-- The header text of `turbo_media_auth_issue`, between braces. -/
def headerText (keyId : CStr) : CStr :=
  [123] ++ textMember keyAlg algorithm ++ [44] ++ textMember keyTyp tokenType ++ [44] ++
    textMember keyKid keyId ++ [125]

/-- `auth_payload_append`. -/
def authPayloadAppend (output piece : CStr) : Option CStr :=
  if piece.length > 2048 - output.length then none else some (output ++ piece)

/-- A claim that is appended only if it is set. -/
def appendOptional (key : CStr) (value : Option CStr) (output : CStr) : Option CStr :=
  match value with
  | none => some output
  | some v => authPayloadAppend output ([44] ++ textMember key v)

/-- `auth_format_payload`. -/
def authFormatPayload (config : Config) (claims : Claims) : Option CStr := do
  let output ← authPayloadAppend []
    ([123] ++ textMember keyIss (config.issuer.getD []) ++ [44] ++
      textMember keySub (claims.subject.getD []) ++ [44] ++
      textMember keyAud (claims.audience.getD []) ++ [44] ++
      textMember keyScope (claims.scope.getD []))
  let output ← appendOptional keyTenantId claims.tenantId output
  let output ← appendOptional keyRoomId claims.roomId output
  let output ← appendOptional keyParticipantId claims.participantId output
  authPayloadAppend output ([44] ++ numberMember keyIat claims.issuedAt ++ [44] ++
      numberMember keyExp claims.expiresAt ++ [125])

/-- The checks of `turbo_media_auth_issue` on its arguments. -/
def issueValid (config : Config) (claims : Claims) : Bool :=
  authConfigValidate config && authIdentifierValid claims.subject &&
    authIdentifierValid claims.audience && authScopeListValid claims.scope &&
    (claims.tenantId.isNone || authTenantIdentifierValid claims.tenantId) &&
    (claims.roomId.isNone || authIdentifierValid claims.roomId) &&
    authTenantRoomConsistent claims.tenantId claims.roomId &&
    (claims.participantId.isNone || authIdentifierValid claims.participantId) &&
    (claims.participantId.isNone || claims.roomId.isSome) &&
    decide (0 ≤ claims.issuedAt) && decide (claims.issuedAt < claims.expiresAt) &&
    decide (claims.expiresAt - claims.issuedAt ≤ config.maxTtlSeconds)

/-- `turbo_media_auth_issue`. -/
def authIssue (lib : Library) (config : Config) (claims : Claims) : Option CStr :=
  let header := headerText (config.activeKeyId.getD [])
  if issueValid config claims = false ∨ header.length ≥ 512 then none
  else
    match authFormatPayload config claims with
    | none => none
    | some payload =>
      let signingInput := authBase64urlEncode lib header ++ [46] ++
        authBase64urlEncode lib payload
      if signingInput.length > 4096 then none
      else
        match authHmacSha256 lib (config.activeSecret.getD []) signingInput with
        | none => none
        | some signature =>
          let token := signingInput ++ [46] ++ authBase64urlEncode lib signature
          if token.length > 4096 then none else some token

end TurboMedia.Auth
