import TurboMedia.Auth.TokenSpelling
import TurboMedia.Lib.Cut

/-!
# Issued tokens and the policies that accept them

**Input.**  A token issued under a configuration, with the sources of revocation
that configuration has at the time of the check.

**Method.**  Issuing and verifying are followed field by field: the segments
decode to the texts that were encoded, the texts parse to the claims, and each
check on a claim is the check that was made when the token was issued.  The
times are the exception: they are issued as 64-bit numbers and read as doubles.
-/

namespace TurboMedia.Auth

open List Base64

/-- The base64 functions of the library, on what the code passes to them. -/
structure StandardBase64 (lib : Library) : Prop where
  encode : ∀ input, lib.encodeBlock input = encode input
  decode : StandardDecoder lib.decodeBase64

theorem normalizeChar_urlChar_digit {n : ℕ} (h : n < 64) :
    normalizeChar (urlChar (digit n)) = some (digit n) := by
  interval_cases n <;> decide

theorem normalize_urlChar_digits {ns : List ℕ} (h : ∀ n ∈ ns, n < 64) :
    normalize ((ns.map digit).map urlChar) = some (ns.map digit) := by
  induction ns with
  | nil => rfl
  | cons n ns ih =>
    rw [map_cons, map_cons, normalize, normalizeChar_urlChar_digit (h n (by simp)),
      ih (fun m hm => h m (by simp [hm]))]

variable {lib : Library}

theorem authBase64urlEncode_eq (hbase64 : StandardBase64 lib) (input : List UInt8) :
    authBase64urlEncode lib input = ((unpack input).map digit).map urlChar := by
  have hdigits := sextets_digits (unpack_lt input)
  rw [authBase64urlEncode, hbase64.encode, encode, paddingFor]
  exact congrArg _ (rdropWhile_padded (sextets_ne_padding hdigits))

theorem length_authBase64urlEncode (hbase64 : StandardBase64 lib) (input : List UInt8) :
    (authBase64urlEncode lib input).length = (unpack input).length := by
  rw [authBase64urlEncode_eq hbase64, length_map, length_map]

theorem authBase64urlDecode_encode {input : List UInt8} {maximumOutput : ℕ}
    (hbase64 : StandardBase64 lib) (hne : input ≠ []) (hmax : input.length ≤ maximumOutput)
    (hlen : (authBase64urlEncode lib input).length ≤ 4096) :
    authBase64urlDecode lib (authBase64urlEncode lib input) maximumOutput = some input := by
  have hpack := pack_unpack input
  have hthree := length_pack hpack
  have hfour := length_of_pack hpack
  have hpos : 0 < input.length := length_pos_iff.mpr hne
  rw [length_authBase64urlEncode hbase64] at hlen
  have hnorm : normalize (authBase64urlEncode lib input) =
      some ((unpack input).map digit) := by
    rw [authBase64urlEncode_eq hbase64]
    exact normalize_urlChar_digits (unpack_lt input)
  have hpadded : (unpack input).map digit ++
      paddingFor (unpack input).length = encode input := rfl
  have hroom : ¬ (encode input).length / 4 * 3 > maximumOutput + 2 := by
    rw [encode, paddingFor, length_append, length_map, length_replicate]
    omega
  rw [authBase64urlDecode, length_authBase64urlEncode hbase64, if_neg (by omega), hnorm]
  dsimp only
  rw [hpadded, if_neg hroom, hbase64.decode.complete]
  dsimp only
  rw [if_neg (by omega)]

theorem urlChar_digit_ne_dot {n : ℕ} (h : n < 64) : urlChar (digit n) ≠ 46 := by
  interval_cases n <;> decide

theorem dot_notMem_encode (hbase64 : StandardBase64 lib) (input : List UInt8) :
    46 ∉ authBase64urlEncode lib input := by
  rw [authBase64urlEncode_eq hbase64, map_map, mem_map]
  rintro ⟨n, hn, hdot⟩
  exact urlChar_digit_ne_dot (unpack_lt input n hn) hdot

theorem span_dot {front : CStr} (h : 46 ∉ front) (rest : CStr) :
    (front ++ [46] ++ rest).takeWhile (· ≠ 46) = front ∧
      (front ++ [46] ++ rest).dropWhile (· ≠ 46) = 46 :: rest := by
  have hall : ∀ c ∈ front, decide (c ≠ 46) = true := by
    intro c hc
    have hne : c ≠ 46 := by
      rintro rfl
      exact h hc
    simpa using hne
  constructor
  · rw [append_assoc, takeWhile_append_of_pos hall]
    simp
  · rw [append_assoc, dropWhile_append_of_pos hall]
    simp

variable {payload signature : CStr}

theorem splitToken_segments {header : CStr} (hhdr : 46 ∉ header)
    (hload : 46 ∉ payload) (hsignature : 46 ∉ signature) :
    splitToken (header ++ [46] ++ payload ++ [46] ++ signature) =
      some (header, payload, signature) := by
  have hfirst := span_dot hhdr (payload ++ [46] ++ signature)
  have hsecond := span_dot hload signature
  have hassoc : header ++ [46] ++ payload ++ [46] ++ signature =
      header ++ [46] ++ (payload ++ [46] ++ signature) := by
    simp
  rw [splitToken, hassoc, hfirst.1, hfirst.2]
  dsimp only
  rw [hsecond.1, hsecond.2]
  dsimp only
  rw [if_neg (by simpa using hsignature)]

def scopes (scope : CStr) : List CStr :=
  scope.splitOnP (· == 32)

theorem scopes_eq (scope : CStr) :
    scopes scope = scope.takeWhile (· ≠ 32) :: (match scope.dropWhile (· ≠ 32) with
      | [] => []
      | _ :: rest => scopes rest) := by
  rw [scopes, Cut.splitOnP_eq]
  cases scope.dropWhile (· ≠ 32) <;> rfl

theorem scopeContainsLoop_iff {required : CStr} (hne : required ≠ []) {fuel : ℕ} {cursor : CStr}
    (hfuel : cursor.length < fuel) :
    scopeContainsLoop required fuel cursor = true ↔ required ∈ scopes cursor := by
  induction fuel generalizing cursor with
  | zero => omega
  | succ fuel ih =>
    rw [scopeContainsLoop]
    by_cases hnil : cursor = []
    · simp [hnil, scopes, hne]
    · rw [if_neg hnil, scopes_eq cursor, mem_cons]
      by_cases hword : cursor.takeWhile (· ≠ 32) = required
      · simp only [hword, if_true, true_or]
      · rw [if_neg hword]
        cases hdrop : cursor.dropWhile (· ≠ 32) with
        | nil =>
          constructor
          · intro h
            cases h
          · intro h
            exact absurd (h.resolve_right not_mem_nil).symm hword
        | cons c rest =>
          have hlen := (dropWhile_sublist (fun x : UInt8 => decide (x ≠ 32))
            (l := cursor)).length_le
          rw [hdrop, length_cons] at hlen
          rw [ih (by omega)]
          exact ⟨.inr, fun h => h.resolve_left (Ne.symm hword)⟩

variable {scope : CStr}

/-- What the scopes of a valid list are made of; the first one may be cut. -/
theorem scopes_of_scopeLoop {atTokenStart : Bool} (h : scopeLoop atTokenStart scope = true) :
    ∃ first rest, scopes scope = first :: rest ∧ (atTokenStart = true → first ≠ []) ∧
      (∀ s ∈ first :: rest, s.all scopeChar = true ∧ s.length ≤ scope.length) ∧
      ∀ s ∈ rest, s ≠ [] := by
  induction scope generalizing atTokenStart with
  | nil =>
    rw [scopeLoop] at h
    exact ⟨[], [], rfl, by simpa using h, by simp, by simp⟩
  | cons c scope ih =>
    rw [scopeLoop] at h
    split_ifs at h with hblank hstart hchar
    · obtain ⟨first, rest, hscopes, hfirst, hall, hrest⟩ := ih h
      refine ⟨[], first :: rest, ?_, fun ht => absurd ht hstart, ?_, ?_⟩
      · rw [scopes, splitOnP_cons_eq_if_modifyHead, if_pos (by simpa using hblank)]
        exact congrArg _ hscopes
      · intro s hs
        rw [mem_cons] at hs
        rcases hs with rfl | hs
        · simp
        · exact ⟨(hall s hs).1, (hall s hs).2.trans (by simp)⟩
      · intro s hs
        rw [mem_cons] at hs
        rcases hs with rfl | hs
        · exact hfirst rfl
        · exact hrest s hs
    · obtain ⟨first, rest, hscopes, _, hall, hrest⟩ := ih h
      refine ⟨c :: first, rest, ?_, by simp, ?_, hrest⟩
      · rw [scopes, splitOnP_cons_eq_if_modifyHead, if_neg (by simpa using hblank)]
        exact congrArg (modifyHead (List.cons c)) hscopes
      · intro s hs
        rw [mem_cons] at hs
        rcases hs with rfl | hs
        · have hf := hall first (by simp)
          simp only [all_cons, hchar, hf.1, Bool.and_self, length_cons, true_and]
          omega
        · exact ⟨(hall s (by simp [hs])).1, (hall s (by simp [hs])).2.trans (by simp)⟩

theorem identifierChar_of_scopeChar {c : UInt8} (h : scopeChar c = true) :
    identifierChar c = true := by
  simp only [scopeChar, identifierChar, Bool.or_eq_true] at h ⊢
  tauto

theorem authIdentifierValid_of_mem_scopes {s : CStr}
    (hvalid : authScopeListValid (some scope) = true) (hs : s ∈ scopes scope) :
    authIdentifierValid (some s) = true := by
  simp only [authScopeListValid, Bool.and_eq_true, decide_eq_true_eq] at hvalid
  obtain ⟨⟨_, hlen⟩, hloop⟩ := hvalid
  obtain ⟨first, rest, hscopes, hfirst, hall, hrest⟩ := scopes_of_scopeLoop hloop
  rw [hscopes] at hs
  obtain ⟨hchars, hslen⟩ := hall s hs
  have hne : s ≠ [] := by
    rcases mem_cons.mp hs with rfl | hs
    · exact hfirst rfl
    · exact hrest s hs
  simp only [authIdentifierValid, Bool.and_eq_true, decide_eq_true_eq, all_eq_true]
  rw [all_eq_true] at hchars
  exact ⟨⟨hne, by omega⟩, fun c hc => identifierChar_of_scopeChar (hchars c hc)⟩

theorem authScopeContains_iff {required : Option CStr}
    (hvalid : authScopeListValid (some scope) = true) :
    authScopeContains (some scope) required = true ↔ ∃ s ∈ scopes scope, required = some s := by
  rw [authScopeContains, hvalid, Bool.true_and, Bool.and_eq_true]
  cases required with
  | none => simp [authIdentifierValid]
  | some required =>
    by_cases hne : required = []
    · constructor
      · rintro ⟨hid, _⟩
        simp [authIdentifierValid, hne] at hid
      · rintro ⟨s, hs, heq⟩
        cases heq
        have hid := authIdentifierValid_of_mem_scopes hvalid hs
        simp [authIdentifierValid, hne] at hid
    · rw [Option.getD_some, Option.getD_some, scopeContainsLoop_iff hne (by omega)]
      constructor
      · rintro ⟨_, hmem⟩
        exact ⟨required, hmem, rfl⟩
      · rintro ⟨s, hs, heq⟩
        cases heq
        exact ⟨authIdentifierValid_of_mem_scopes hvalid hs, hs⟩

def issuedHeader (keyId : CStr) : Json :=
  .object [(keyAlg, .string algorithm), (keyTyp, .string tokenType), (keyKid, .string keyId)]

def optionalMember (key : CStr) (value : Option CStr) : List (CStr × Json) :=
  match value with
  | none => []
  | some v => [(key, .string v)]

/-- The payload as the parser returns it, with its times as read. -/
def issuedPayload (config : Config) (claims : Claims) (issuedAt expiresAt : ℚ) : Json :=
  .object ([(keyIss, .string (config.issuer.getD [])), (keySub, .string (claims.subject.getD [])),
      (keyAud, .string (claims.audience.getD [])), (keyScope, .string (claims.scope.getD []))] ++
    optionalMember keyTenantId claims.tenantId ++ optionalMember keyRoomId claims.roomId ++
    optionalMember keyParticipantId claims.participantId ++
    [(keyIat, .number issuedAt), (keyExp, .number expiresAt)])

/-- The double an integer is read as: itself as long as doubles hold every
integer, and never back below that range. -/
structure ReadAs (n : ℤ) (number : ℚ) : Prop where
  exact : 0 ≤ n → n ≤ 9007199254740992 → number = n
  large : 9007199254740992 < n → 9007199254740992 ≤ number

/-- The parser is right on the two texts of an issued token. -/
structure ReadsIssued (lib : Library) (config : Config) (claims : Claims) : Prop where
  header : lib.jsonParse (headerText (config.activeKeyId.getD [])) =
    some (issuedHeader (config.activeKeyId.getD []))
  payload : ∀ text, authFormatPayload config claims = some text →
    ∃ issuedAt expiresAt, ReadAs claims.issuedAt issuedAt ∧ ReadAs claims.expiresAt expiresAt ∧
      lib.jsonParse text = some (issuedPayload config claims issuedAt expiresAt)

theorem authPayloadAppend_some {output piece text : CStr} (hpiece : piece ≠ [])
    (h : authPayloadAppend output piece = some text) : text ≠ [] ∧ text.length ≤ 2048 := by
  have hpos := length_pos_iff.mpr hpiece
  rw [authPayloadAppend] at h
  split_ifs at h with hroom
  cases h
  rw [length_append]
  exact ⟨by simp [hpiece], by omega⟩

variable {config : Config} {claims : Claims}

theorem authFormatPayload_some {text : CStr}
    (h : authFormatPayload config claims = some text) : text ≠ [] ∧ text.length ≤ 2048 := by
  simp only [authFormatPayload, Option.bind_eq_bind, Option.bind_eq_some_iff] at h
  obtain ⟨_, _, _, _, _, _, _, _, hlast⟩ := h
  exact authPayloadAppend_some (by simp) hlast

theorem authJsonObjectStrict_issuedHeader (keyId : CStr) :
    authJsonObjectStrict (issuedHeader keyId) headerKeys = true := by
  simp only [authJsonObjectStrict, issuedHeader, all_cons, all_nil, map_cons, map_nil]
  decide

theorem keys_optionalMember (key : CStr) (value : Option CStr) :
    (optionalMember key value).map Prod.fst = if value.isSome then [key] else [] := by
  cases value with
  | none => rfl
  | some v => rfl

theorem authJsonObjectStrict_issuedPayload (config : Config) (claims : Claims)
    (issuedAt expiresAt : ℚ) :
    authJsonObjectStrict (issuedPayload config claims issuedAt expiresAt) payloadKeys = true := by
  have hall : ∀ members : List (CStr × Json), members.all (fun m => payloadKeys.contains m.1) =
        (members.map Prod.fst).all payloadKeys.contains := by
    intro members
    rw [all_map]
    rfl
  rw [issuedPayload, authJsonObjectStrict, hall]
  simp only [map_append, keys_optionalMember, map_cons, map_nil]
  generalize claims.tenantId.isSome = tenant
  generalize claims.roomId.isSome = room
  generalize claims.participantId.isSome = participant
  revert tenant room participant
  decide

theorem headerKeyId_issuedHeader {keyId : CStr} (h : authIdentifierValid (some keyId) = true) :
    headerKeyId (issuedHeader keyId) = some keyId := by
  have hkid : authJsonString (issuedHeader keyId) keyKid = some keyId := rfl
  rw [headerKeyId, hkid, if_pos ⟨rfl, rfl, h⟩]

theorem authJsonString_issuedPayload (config : Config) (claims : Claims) (issuedAt expiresAt : ℚ) :
    authJsonString (issuedPayload config claims issuedAt expiresAt) keyIss =
        some (config.issuer.getD []) ∧
      authJsonString (issuedPayload config claims issuedAt expiresAt) keySub =
        some (claims.subject.getD []) ∧
      authJsonString (issuedPayload config claims issuedAt expiresAt) keyAud =
        some (claims.audience.getD []) ∧
      authJsonString (issuedPayload config claims issuedAt expiresAt) keyScope =
        some (claims.scope.getD []) ∧
      authJsonString (issuedPayload config claims issuedAt expiresAt) keyTenantId =
        claims.tenantId ∧
      authJsonString (issuedPayload config claims issuedAt expiresAt) keyRoomId = claims.roomId ∧
      authJsonString (issuedPayload config claims issuedAt expiresAt) keyParticipantId =
        claims.participantId := by
  rw [issuedPayload]
  refine ⟨rfl, rfl, rfl, rfl, ?_⟩
  cases claims.tenantId <;> cases claims.roomId <;> cases claims.participantId <;>
    exact ⟨rfl, rfl, rfl⟩

theorem get_issuedPayload_times (config : Config) (claims : Claims) (issuedAt expiresAt : ℚ) :
    (issuedPayload config claims issuedAt expiresAt).get keyIat = some (.number issuedAt) ∧
      (issuedPayload config claims issuedAt expiresAt).get keyExp = some (.number expiresAt) := by
  rw [issuedPayload]
  cases claims.tenantId <;> cases claims.roomId <;> cases claims.participantId <;>
    exact ⟨rfl, rfl⟩

theorem authJsonInt64_exact {value : Json} {key : CStr} {n : ℤ}
    (hget : value.get key = some (.number n)) (hpos : 0 ≤ n) (hmax : n ≤ 9007199254740991) :
    authJsonInt64 value key = some n := by
  have hcast : ¬ ((n : ℚ) < 0 ∨ (n : ℚ) > 9007199254740991) := by
    rintro (hneg | hlarge)
    · have : n < 0 := by exact_mod_cast hneg
      omega
    · have : n > 9007199254740991 := by exact_mod_cast hlarge
      omega
  rw [authJsonInt64, hget]
  dsimp only
  rw [if_neg hcast, Int.floor_intCast, if_neg (by simp)]

theorem authJsonInt64_large {value : Json} {key : CStr} {number : ℚ}
    (hget : value.get key = some (.number number)) (hlarge : 9007199254740992 ≤ number) :
    authJsonInt64 value key = none := by
  have hcmp : number > 9007199254740991 := by
    linarith
  rw [authJsonInt64, hget]
  dsimp only
  rw [if_pos (.inr hcmp)]

/-- The sources of revocation of a configuration, which change while its keys stay. -/
structure Sources where
  revokedTokenSha256 : Option CStr
  revocationCheck : Option (List UInt8 → Revocation.Status)
  revocationContext : Bool

def Config.withSources (config : Config) (sources : Sources) : Config :=
  { config with
    revokedTokenSha256 := sources.revokedTokenSha256
    revocationCheck := sources.revocationCheck
    revocationContext := sources.revocationContext }

/-- The policies a token issued for these claims is meant for. -/
structure Admits (lib : Library) (config : Config) (claims : Claims) (token : CStr)
    (policy : Policy) : Prop where
  audience : policy.audience = claims.audience
  tenantId : policy.tenantId = claims.tenantId
  roomId : policy.roomId = claims.roomId
  participantId : policy.participantId = claims.participantId
  scope : ∃ s ∈ scopes (claims.scope.getD []), policy.requiredScope = some s
  begun : claims.issuedAt - config.clockSkewSeconds ≤ effectiveNow lib policy
  notOver : effectiveNow lib policy < claims.expiresAt + config.clockSkewSeconds
  clear : revoked lib config token = false

/-- What the checks on issue say. -/
structure IssueChecked (config : Config) (claims : Claims) : Prop where
  configured : authConfigValidate config = true
  subject : authIdentifierValid claims.subject = true
  audience : authIdentifierValid claims.audience = true
  scope : authScopeListValid claims.scope = true
  tenantId : (claims.tenantId.isNone || authTenantIdentifierValid claims.tenantId) = true
  roomId : (claims.roomId.isNone || authIdentifierValid claims.roomId) = true
  consistent : authTenantRoomConsistent claims.tenantId claims.roomId = true
  participantId :
    (claims.participantId.isNone || authIdentifierValid claims.participantId) = true
  inRoom : (claims.participantId.isNone || claims.roomId.isSome) = true
  begin_nonneg : 0 ≤ claims.issuedAt
  ordered : claims.issuedAt < claims.expiresAt
  ttl : claims.expiresAt - claims.issuedAt ≤ config.maxTtlSeconds

theorem issueChecked_of_issueValid
    (h : issueValid config claims = true) : IssueChecked config claims := by
  simp only [issueValid, Bool.and_eq_true, decide_eq_true_eq] at h
  obtain ⟨⟨⟨⟨⟨⟨⟨⟨⟨⟨⟨h1, h2⟩, h3⟩, h4⟩, h5⟩, h6⟩, h7⟩, h8⟩, h9⟩, h10⟩, h11⟩, h12⟩ := h
  exact ⟨h1, h2, h3, h4, h5, h6, h7, h8, h9, h10, h11, h12⟩

theorem some_getD_of_identifierValid {value : Option CStr} (h : authIdentifierValid value = true) :
    some (value.getD []) = value := by
  cases value with
  | none => cases h
  | some s => rfl

theorem some_getD_of_scopeListValid {value : Option CStr} (h : authScopeListValid value = true) :
    some (value.getD []) = value := by
  cases value with
  | none => cases h
  | some s => rfl

/-- What a valid configuration says, apart from the sources of revocation. -/
theorem authConfigValidate_facts (h : authConfigValidate config = true) :
    authIdentifierValid config.issuer = true ∧ authIdentifierValid config.activeKeyId = true ∧
      (∃ secret, config.activeSecret = some secret) ∧
      0 ≤ config.clockSkewSeconds ∧ config.maxTtlSeconds ≤ 86400 := by
  simp only [authConfigValidate, authKeyPairValid, Bool.and_eq_true, decide_eq_true_eq] at h
  obtain ⟨⟨⟨⟨⟨⟨⟨⟨_, hissuer⟩, hkey⟩, hskew⟩, httl⟩, _⟩, _⟩, _⟩, _⟩ := h
  refine ⟨hissuer, hkey.1.1, ?_, hskew.1, httl.2⟩
  cases hsecret : config.activeSecret with
  | none =>
    rw [hsecret] at hkey
    cases hkey.1.2
  | some secret => exact ⟨secret, rfl⟩

/-- The checks on the claims of an issued payload are the match with the policy. -/
theorem claimsValid_issued {policy : Policy} (sources : Sources)
    (hchk : IssueChecked config claims) (issuedAt expiresAt : ℚ) :
    claimsValid (config.withSources sources) policy
        (issuedPayload config claims issuedAt expiresAt) = true ↔
      policy.audience = claims.audience ∧
        (∃ s ∈ scopes (claims.scope.getD []), policy.requiredScope = some s) ∧
        policy.tenantId = claims.tenantId ∧ policy.roomId = claims.roomId ∧
        policy.participantId = claims.participantId := by
  obtain ⟨hiss, hsub, haud, hscope, htenant, hroom, hpart⟩ :=
    authJsonString_issuedPayload config claims issuedAt expiresAt
  have hissuer := (authConfigValidate_facts hchk.configured).1
  have hlist := hchk.scope
  rw [← some_getD_of_scopeListValid hchk.scope] at hlist
  rw [claimsValid, hiss, hsub, haud, hscope, htenant, hroom, hpart]
  simp only [some_getD_of_identifierValid hissuer, some_getD_of_identifierValid hchk.subject,
    some_getD_of_identifierValid hchk.audience, hissuer, hchk.subject, hchk.audience,
    hchk.tenantId, hchk.roomId, hchk.consistent, hchk.participantId,
    hchk.inRoom, Bool.and_eq_true, Bool.true_and, Bool.and_true, Config.withSources,
    authResourceClaimMatches, beq_iff_eq, authScopeContains_iff hlist, BEq.rfl]
  constructor
  · rintro ⟨⟨⟨⟨haudience, hs⟩, ht⟩, hr⟩, hp⟩
    exact ⟨haudience.symm, hs, ht.symm, hr.symm, hp.symm⟩
  · rintro ⟨haudience, hs, ht, hr, hp⟩
    exact ⟨⟨⟨⟨haudience.symm, hs⟩, ht.symm⟩, hr.symm⟩, hp.symm⟩

/-- The times of an issued payload are checked as issued, while doubles hold them. -/
theorem timesValid_issued {issuedAt expiresAt : ℚ}
    (sources : Sources) (hchk : IssueChecked config claims)
    (hissued : ReadAs claims.issuedAt issuedAt) (hexpires : ReadAs claims.expiresAt expiresAt)
    (now : ℤ) :
    timesValid (config.withSources sources) now
        (issuedPayload config claims issuedAt expiresAt) = true ↔
      claims.expiresAt ≤ 9007199254740991 ∧ claims.issuedAt - config.clockSkewSeconds ≤ now ∧
        now < claims.expiresAt + config.clockSkewSeconds := by
  have hnonneg := hchk.begin_nonneg
  have hord := hchk.ordered
  have httl := hchk.ttl
  obtain ⟨hiat, hexp⟩ := get_issuedPayload_times config claims issuedAt expiresAt
  by_cases hmax : claims.expiresAt ≤ 9007199254740991
  · have hread : issuedAt = claims.issuedAt := hissued.exact (by omega) (by omega)
    have hread' : expiresAt = claims.expiresAt := hexpires.exact (by omega) (by omega)
    subst hread hread'
    rw [timesValid, authJsonInt64_exact hiat (by omega) (by omega),
      authJsonInt64_exact hexp (by omega) (by omega)]
    simp only [Bool.and_eq_true, decide_eq_true_eq]
    dsimp only [Config.withSources]
    constructor
    · rintro ⟨⟨⟨_, _⟩, hbegun⟩, hnotOver⟩
      exact ⟨hmax, by omega, by omega⟩
    · rintro ⟨_, hbegun, hnotOver⟩
      exact ⟨⟨⟨hord, httl⟩, by omega⟩, by omega⟩
  · have hlarge : 9007199254740992 ≤ expiresAt := by
      by_cases hedge : claims.expiresAt = 9007199254740992
      · rw [hexpires.exact (by omega) (by omega), hedge]
        norm_num
      · exact hexpires.large (by omega)
    rw [timesValid, authJsonInt64_large hexp hlarge]
    split
    · next hnone =>
        cases hnone
    · constructor
      · intro h
        cases h
      · intro h
        exact absurd h.1 hmax

def activeHeader (config : Config) : CStr :=
  headerText (config.activeKeyId.getD [])

def issuedSigned (lib : Library) (config : Config) (payload : CStr) : CStr :=
  authBase64urlEncode lib (activeHeader config) ++ [46] ++ authBase64urlEncode lib payload

/-- What is known of an issued token. -/
structure Issued (lib : Library) (config : Config) (claims : Claims)
    (token payload signature : CStr) : Prop where
  checked : IssueChecked config claims
  header_lt : (activeHeader config).length < 512
  payload_eq : authFormatPayload config claims = some payload
  signature_eq : authHmacSha256 lib (config.activeSecret.getD [])
    (issuedSigned lib config payload) = some signature
  token_eq : token = issuedSigned lib config payload ++ [46] ++ authBase64urlEncode lib signature
  token_le : token.length ≤ 4096

variable {token : CStr}

theorem issued_of_authIssue (h : authIssue lib config claims = some token) :
    ∃ payload signature, Issued lib config claims token payload signature := by
  rw [authIssue] at h
  dsimp only at h
  split_ifs at h with hbad
  rw [not_or, Bool.not_eq_false, not_le] at hbad
  split at h
  · cases h
  · next payload hload =>
      split_ifs at h
      split at h
      · cases h
      · next signature hsignature =>
          split_ifs at h with hlen
          cases h
          exact ⟨payload, signature, issueChecked_of_issueValid hbad.1, hbad.2, hload,
            hsignature, rfl, not_lt.mp hlen⟩

theorem length_of_authHmacSha256 {key data signature : List UInt8}
    (h : authHmacSha256 lib key data = some signature) : signature.length = 32 := by
  rw [authHmacSha256] at h
  split_ifs at h with hbad
  cases h
  by_contra hlen
  exact hbad (.inr hlen)

/-- The sources of revocation are all that a configuration with other sources is
checked for again. -/
theorem requestValid_of_admits {policy : Policy}
    (hvalid : authConfigValidate config = true) (hchk : IssueChecked config claims)
    (hadmits : Admits lib config claims token policy) : requestValid config policy = true := by
  have hlist := hchk.scope
  rw [← some_getD_of_scopeListValid hchk.scope] at hlist
  obtain ⟨s, hs, hrequired⟩ := hadmits.scope
  rw [requestValid, hadmits.audience, hadmits.tenantId, hadmits.roomId, hadmits.participantId,
    hrequired]
  simp only [hvalid, hchk.audience, hchk.tenantId, hchk.roomId, hchk.consistent,
    hchk.participantId, authIdentifierValid_of_mem_scopes hlist hs, Bool.and_self]

theorem Issued.expectedSignature
    (h : Issued lib config claims token payload signature) (sources : Sources) :
    Auth.expectedSignature lib (config.withSources sources) (config.activeKeyId.getD [])
      (issuedSigned lib config payload) = some signature := by
  obtain ⟨_, hkey, ⟨secret, hsecret⟩, _, _⟩ := authConfigValidate_facts h.checked.configured
  have hsignature := h.signature_eq
  rw [hsecret, Option.getD_some] at hsignature
  rw [Auth.expectedSignature, authSelectSecret, some_getD_of_identifierValid hkey]
  simp only [Config.withSources, if_true, hsecret]
  exact hsignature

theorem Issued.segments
    (hbase64 : StandardBase64 lib) (h : Issued lib config claims token payload signature) :
    splitToken token = some (authBase64urlEncode lib (activeHeader config),
        authBase64urlEncode lib payload, authBase64urlEncode lib signature) ∧
      authBase64urlDecode lib (authBase64urlEncode lib (activeHeader config)) 512 =
        some (activeHeader config) ∧
      authBase64urlDecode lib (authBase64urlEncode lib payload) 2048 = some payload ∧
      authBase64urlDecode lib (authBase64urlEncode lib signature) 32 = some signature := by
  obtain ⟨hne, hload⟩ := authFormatPayload_some h.payload_eq
  have hsignature := length_of_authHmacSha256 h.signature_eq
  have hhdr := h.header_lt
  have hlen := h.token_le
  simp only [h.token_eq, issuedSigned, length_append, length_singleton] at hlen
  refine ⟨?_, ?_, ?_, ?_⟩
  · rw [h.token_eq]
    exact splitToken_segments (dot_notMem_encode hbase64 _) (dot_notMem_encode hbase64 _)
      (dot_notMem_encode hbase64 _)
  · exact authBase64urlDecode_encode hbase64 (by simp [activeHeader, headerText]) (by omega)
      (by omega)
  · exact authBase64urlDecode_encode hbase64 hne hload (by omega)
  · exact authBase64urlDecode_encode hbase64 (by rintro rfl; cases hsignature) (by omega)
      (by omega)

/-- The decoded segments pass exactly the checks on the claims and the times. -/
theorem Issued.decodedValid
    (h : Issued lib config claims token payload signature) (hreads : ReadsIssued lib config claims)
    (sources : Sources) (policy : Policy) :
    Auth.decodedValid lib (config.withSources sources) policy (issuedSigned lib config payload)
        (activeHeader config) payload signature = true ↔ claims.expiresAt ≤ 9007199254740991 ∧
        (policy.audience = claims.audience ∧
          (∃ s ∈ scopes (claims.scope.getD []), policy.requiredScope = some s) ∧
          policy.tenantId = claims.tenantId ∧ policy.roomId = claims.roomId ∧
          policy.participantId = claims.participantId) ∧
        claims.issuedAt - config.clockSkewSeconds ≤ effectiveNow lib policy ∧
        effectiveNow lib policy < claims.expiresAt + config.clockSkewSeconds := by
  obtain ⟨_, hkey, _⟩ := authConfigValidate_facts h.checked.configured
  rw [← some_getD_of_identifierValid hkey] at hkey
  obtain ⟨issuedAt, expiresAt, hiat, hexp, hparse⟩ := hreads.payload payload h.payload_eq
  rw [Auth.decodedValid, activeHeader, hreads.header, hparse]
  dsimp only
  rw [headerKeyId_issuedHeader hkey, authJsonObjectStrict_issuedHeader,
    authJsonObjectStrict_issuedPayload]
  simp only [h.expectedSignature sources, BEq.rfl, Bool.true_and, Bool.and_eq_true]
  rw [claimsValid_issued sources h.checked, timesValid_issued sources h.checked hiat hexp]
  tauto

theorem verify_issued (hbase64 : StandardBase64 lib) (hreads : ReadsIssued lib config claims)
    (hissue : authIssue lib config claims = some token) (sources : Sources)
    (hvalid : authConfigValidate (config.withSources sources) = true) (policy : Policy) :
    authVerifySignedToken lib token (config.withSources sources) policy = true ↔
      claims.expiresAt ≤ 9007199254740991 ∧
        Admits lib (config.withSources sources) claims token policy := by
  obtain ⟨payload, signature, hissued⟩ := issued_of_authIssue hissue
  obtain ⟨hsplit, hhdr, hload, hsignature⟩ := hissued.segments hbase64
  have hlen := length_of_authHmacSha256 hissued.signature_eq
  have hdecoded := hissued.decodedValid hreads sources policy
  constructor
  · intro h
    obtain ⟨_, _, _, _, _, _, hsplit', hhdr', hload', hsignature', _, hvalid', hclear⟩ :=
      verify_true h
    rw [hsplit] at hsplit'
    cases hsplit'
    rw [hhdr] at hhdr'
    rw [hload] at hload'
    rw [hsignature] at hsignature'
    cases hhdr'
    cases hload'
    cases hsignature'
    obtain ⟨hmax, ⟨haud, hscope, htenant, hroom, hpart⟩, hbegun, hnotOver⟩ := hdecoded.mp hvalid'
    exact ⟨hmax, haud, htenant, hroom, hpart, hscope, hbegun, hnotOver, hclear⟩
  · rintro ⟨hmax, hadmits⟩
    have hchk : IssueChecked (config.withSources sources) claims :=
      { hissued.checked with configured := hvalid }
    have hreq := requestValid_of_admits hvalid hchk hadmits
    have hdecodedTrue := hdecoded.mpr ⟨hmax, ⟨hadmits.audience, hadmits.scope, hadmits.tenantId,
      hadmits.roomId, hadmits.participantId⟩, hadmits.begun, hadmits.notOver⟩
    have htoken : 0 < token.length := by
      rw [hissued.token_eq, length_append, length_append, length_singleton]
      omega
    have hle := hissued.token_le
    have hgo : ¬ (requestValid (config.withSources sources) policy = false ∨ token.length = 0 ∨
        token.length > 4096) := by
      rw [hreq]
      rintro (h | h | h)
      · cases h
      · omega
      · omega
    rw [authVerifySignedToken, if_neg hgo, hsplit]
    dsimp only
    rw [hhdr, hload, hsignature]
    dsimp only
    rw [issuedSigned] at hdecodedTrue
    rw [hlen, hdecodedTrue, hadmits.clear]
    rfl

/-- The policy of the claims themselves, at the time of issue. -/
def ownPolicy (claims : Claims) : Policy where
  audience := claims.audience
  requiredScope := (scopes (claims.scope.getD [])).head?
  roomId := claims.roomId
  participantId := claims.participantId
  now := claims.issuedAt
  tenantId := claims.tenantId

def noSources : Sources where
  revokedTokenSha256 := none
  revocationCheck := none
  revocationContext := false

theorem authConfigValidate_noSources (h : authConfigValidate config = true) :
    authConfigValidate (config.withSources noSources) = true := by
  simp only [authConfigValidate, Bool.and_eq_true] at h ⊢
  obtain ⟨⟨⟨⟨⟨⟨⟨⟨h1, h2⟩, h3⟩, h4⟩, h5⟩, _⟩, _⟩, h8⟩, h9⟩ := h
  exact ⟨⟨⟨⟨⟨⟨⟨⟨h1, h2⟩, h3⟩, h4⟩, h5⟩, rfl⟩, rfl⟩, h8⟩, h9⟩

theorem admits_ownPolicy (lib : Library) (token : CStr)
    (hchk : IssueChecked config claims) (hpos : 0 < claims.issuedAt) :
    Admits lib (config.withSources noSources) claims token (ownPolicy claims) := by
  have hskew := (authConfigValidate_facts hchk.configured).2.2.2.1
  have hord := hchk.ordered
  have hnow : effectiveNow lib (ownPolicy claims) = claims.issuedAt := if_pos hpos
  obtain ⟨first, rest, hscopes⟩ : ∃ first rest, scopes (claims.scope.getD []) = first :: rest :=
    ⟨_, _, scopes_eq _⟩
  refine ⟨rfl, rfl, rfl, rfl, ⟨first, by simp [hscopes], by simp [ownPolicy, hscopes]⟩, ?_, ?_, ?_⟩
  · rw [hnow]
    exact sub_le_self _ hskew
  · rw [hnow]
    exact lt_add_of_lt_of_nonneg hord hskew
  · rfl

/-- **Issued tokens verify.**  The policies that accept an issued token are those
it is meant for, under whatever revocation is configured, exactly when its end is
a number that doubles hold. -/
theorem issued_verifies_iff_representable (lib : Library) (config : Config) (claims : Claims)
    (token : CStr) (hbase64 : StandardBase64 lib) (hreads : ReadsIssued lib config claims)
    (hissue : authIssue lib config claims = some token) :
    (∀ sources policy, authConfigValidate (config.withSources sources) = true →
      (authVerifySignedToken lib token (config.withSources sources) policy = true ↔
        Admits lib (config.withSources sources) claims token policy)) ↔
      claims.expiresAt ≤ 9007199254740991 := by
  constructor
  · intro h
    obtain ⟨payload, signature, hissued⟩ := issued_of_authIssue hissue
    have hvalid := authConfigValidate_noSources hissued.checked.configured
    have httl := hissued.checked.ttl
    have hlimit := (authConfigValidate_facts hissued.checked.configured).2.2.2.2
    by_contra hlarge
    have hadmits := admits_ownPolicy lib token hissued.checked (by omega)
    have haccepted := (h noSources (ownPolicy claims) hvalid).mpr hadmits
    exact hlarge ((verify_issued hbase64 hreads hissue noSources hvalid _).mp haccepted).1
  · intro hmax sources policy hvalid
    rw [verify_issued hbase64 hreads hissue sources hvalid policy]
    exact ⟨And.right, fun h => ⟨hmax, h⟩⟩

theorem standardBase64_sample :
    StandardBase64 sampleLibrary where
  encode := fun _ => rfl
  decode := standardDecoder_decode

theorem readsIssued_sample :
    ReadsIssued sampleLibrary sampleConfig sampleClaims where
  header := by
    rfl
  payload := by
    intro text htext
    refine ⟨1000, 1600, ⟨fun _ _ => by decide, by decide⟩, ⟨fun _ _ => by decide, by decide⟩, ?_⟩
    have heq : text = samplePayloadText := by
      rw [samplePayloadText, htext, Option.getD_some]
    rw [heq]
    rfl

theorem issued_verifies_iff_representable_sample :
    (∀ sources policy, authConfigValidate (sampleConfig.withSources sources) = true →
      (authVerifySignedToken sampleLibrary sampleToken (sampleConfig.withSources sources) policy =
          true ↔
        Admits sampleLibrary (sampleConfig.withSources sources) sampleClaims sampleToken policy)) ↔
      sampleClaims.expiresAt ≤ 9007199254740991 :=
  issued_verifies_iff_representable sampleLibrary sampleConfig sampleClaims sampleToken
    standardBase64_sample readsIssued_sample (by decide +kernel)

/-- Claims that end one second after the last number doubles hold with all before. -/
def lateClaims : Claims :=
  { sampleClaims with
    issuedAt := 9007199254740000
    expiresAt := 9007199254740992 }

def latePayloadText : CStr :=
  (authFormatPayload sampleConfig lateClaims).getD []

def lateSignature : List UInt8 :=
  [144, 56, 99, 249, 254, 77, 35, 82, 0, 80, 22, 203, 205, 250, 13, 29, 236, 127, 152, 181,
    194, 172, 197, 155, 135, 95, 129, 43, 11, 80, 244, 227]

/-- The functions of the outside, as they are on the late token. -/
def lateLibrary : Library :=
  { sampleLibrary with
    hmac := fun key data =>
      if some key = sampleConfig.activeSecret ∧
          data = issuedSigned sampleLibrary sampleConfig latePayloadText then lateSignature
        else replicate 32 0
    jsonParse := fun text =>
      if text = headerText (bytes ['k', '1']) then some sampleHeader
        else if text = latePayloadText then
          some (issuedPayload sampleConfig lateClaims 9007199254740000 9007199254740992)
        else none }

def lateToken : CStr :=
  issuedSigned sampleLibrary sampleConfig latePayloadText ++ [46] ++
    authBase64urlEncode sampleLibrary lateSignature

theorem readsIssued_late :
    ReadsIssued lateLibrary sampleConfig lateClaims where
  header := by
    rfl
  payload := by
    intro text htext
    refine ⟨9007199254740000, 9007199254740992, ⟨fun _ _ => by decide, by decide⟩,
      ⟨fun _ _ => by decide, by decide⟩, ?_⟩
    have heq : text = latePayloadText := by
      rw [latePayloadText, htext, Option.getD_some]
    rw [heq]
    rfl

/-- A token that is issued and then denied to the policy it is meant for. -/
theorem late_token_denied :
    ¬ (∀ (lib : Library) (config : Config) (claims : Claims) (token : CStr) (policy : Policy),
        StandardBase64 lib → ReadsIssued lib config claims →
        authIssue lib config claims = some token →
        (authVerifySignedToken lib token config policy = true ↔
          Admits lib config claims token policy)) := by
  intro h
  have hchecked : IssueChecked sampleConfig lateClaims :=
    issueChecked_of_issueValid (by decide +kernel)
  have hadmits : Admits lateLibrary sampleConfig lateClaims lateToken (ownPolicy lateClaims) :=
    admits_ownPolicy lateLibrary lateToken hchecked (by decide)
  have haccepted := (h lateLibrary sampleConfig lateClaims lateToken (ownPolicy lateClaims)
    ⟨fun _ => rfl, standardDecoder_decode⟩ readsIssued_late (by decide +kernel)).mpr hadmits
  revert haccepted
  decide +kernel

end TurboMedia.Auth
