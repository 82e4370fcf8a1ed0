import TurboMedia.Security.ControlPlaneVersion

/-!
# Token revocation state of one node

Model of `turbo_media_revocation.c`: the bounded set of revoked token digests a
node checks signed tokens against.  A state is trusted only after a complete
snapshot; exact-next revoke events extend it, and everything else that is newer
than the state withdraws the trust until a covering snapshot arrives.

The digests beyond `count` in the source's array are never read, so the model
keeps the list of the first `count` ones.  The allocation that can fail is an
argument of `applySnapshot`.

The results are the outcome lemmas of the two mutating calls and the agreement
with a canonical history: along a run of canonical snapshots and revokes a
trusted state holds exactly the canonical digests of its version.
-/

namespace TurboMedia.Revocation

open Version

/-- `TURBO_MEDIA_AUTH_TOKEN_SHA256_BYTES`. -/
def tokenSha256Bytes : ℕ := 32

/-- `TURBO_MEDIA_REVOCATION_SHA256_HEX_BYTES`. -/
def sha256HexBytes : ℕ := 64

/-- `TURBO_MEDIA_AUTH_MAX_REVOKED_TOKENS`. -/
def maxRevokedTokens : ℕ := 256

/-- Bytes of a token digest. -/
abbrev Digest := List UInt8

inductive ApplyResult where
  | error
  | applied
  | stale
  | gap
  | limit
deriving DecidableEq

/-- `turbo_media_auth_revocation_status_t`. -/
inductive Status where
  | unknown
  | clear
  | revoked
deriving DecidableEq

/-- `turbo_media_revocation_state_t`. -/
structure State extends Cursor where
  maxEntries : ℕ
  digests : List Digest
deriving DecidableEq

def revocationHexNibble (value : UInt8) : Option UInt8 :=
  if 48 ≤ value && value ≤ 57 then some (value - 48)
  else if 97 ≤ value && value ≤ 102 then some (value - 97 + 10)
  else none

/-- The loop of `revocation_parse_digest`, one byte for two characters. -/
def parseBytes : CStr → Option Digest
  | [] => some []
  | [_] => none
  | first :: second :: rest =>
    match revocationHexNibble first, revocationHexNibble second with
    | some high, some low => (parseBytes rest).map (fun bytes => (high <<< 4 ||| low) :: bytes)
    | _, _ => none

def revocationParseDigest (value : CStr) : Option Digest :=
  if value.length != sha256HexBytes then none else parseBytes value

def revocationFind (state : State) (digest : Digest) : Bool :=
  state.digests.any (fun entry => entry == digest)

def revocationVersionLess (epoch sequence otherEpoch otherSequence : UInt64) : Bool :=
  decide (epoch < otherEpoch) ||
    (epoch == otherEpoch && decide (sequence < otherSequence))

def revocationRequireSnapshot (state : State) (epoch sequence : UInt64) : State :=
  if state.requiredEpoch == 0 ||
      revocationVersionLess state.requiredEpoch state.requiredSequence epoch sequence then
    { state with
      synchronized := false
      requiredEpoch := epoch
      requiredSequence := sequence }
  else { state with synchronized := false }

/-- `turbo_media_revocation_state_create`, when memory is available. -/
def stateCreate (maxEntries : ℕ) : Option State :=
  if maxEntries == 0 || decide (maxEntries > maxRevokedTokens) ||
      decide (maxEntries > (2 ^ 64 - 1) / tokenSha256Bytes) then
    none
  else some { Cursor.create with maxEntries := maxEntries, digests := [] }

/-- The loop of `apply_snapshot`: every entry parses and differs from the
entries before it. -/
def parseSnapshot : List Digest → List CStr → Option (List Digest)
  | parsed, [] => some parsed
  | parsed, value :: rest =>
    match revocationParseDigest value with
    | none => none
    | some entry =>
      if parsed.any (fun existing => existing == entry) then none
      else parseSnapshot (parsed ++ [entry]) rest

/-- The test by which `apply_snapshot` calls a snapshot stale. -/
def snapshotStale (state : State) (epoch sequence : UInt64) : Bool :=
  if state.synchronized then
    decide (epoch < state.epoch) ||
      (epoch == state.epoch && decide (sequence ≤ state.sequence))
  else
    state.requiredEpoch != 0 &&
      revocationVersionLess epoch sequence state.requiredEpoch state.requiredSequence

/-- `turbo_media_revocation_apply_snapshot`; `none` is a null array with a
positive count, `memory` says whether the parse buffer could be allocated. -/
def applySnapshot (state : State) (epoch sequence : UInt64)
    (sha256Hex : Option (List CStr)) (memory : Bool) : State × ApplyResult :=
  match sha256Hex with
  | none => (state, .error)
  | some sha256Hex =>
    if epoch == 0 then (state, .error)
    else if snapshotStale state epoch sequence then (state, .stale)
    else if sha256Hex.length > state.maxEntries then
      (revocationRequireSnapshot state epoch sequence, .limit)
    else if sha256Hex.length > 0 && !memory then
      (revocationRequireSnapshot state epoch sequence, .error)
    else
      match parseSnapshot [] sha256Hex with
      | none => (revocationRequireSnapshot state epoch sequence, .error)
      | some parsed =>
        ({ state with
            toCursor := Cursor.install epoch sequence
            digests := parsed },
          .applied)

/-- `turbo_media_revocation_apply_revoke`; `none` is a null pointer. -/
def applyRevoke (state : State) (epoch sequence : UInt64) (sha256Hex : Option CStr) :
    State × ApplyResult :=
  match sha256Hex with
  | none => (state, .error)
  | some sha256Hex =>
    if epoch == 0 || sequence == 0 then (state, .error)
    else if !state.synchronized then
      match revocationParseDigest sha256Hex with
      | none => (revocationRequireSnapshot state epoch sequence, .error)
      | some _ => (revocationRequireSnapshot state epoch sequence, .gap)
    else if decide (epoch < state.epoch) ||
        (epoch == state.epoch && decide (sequence ≤ state.sequence)) then
      (state, .stale)
    else if epoch != state.epoch || sequence != state.sequence + 1 then
      (revocationRequireSnapshot state epoch sequence, .gap)
    else
      match revocationParseDigest sha256Hex with
      | none => (revocationRequireSnapshot state epoch sequence, .error)
      | some digest =>
        if !revocationFind state digest then
          if state.digests.length ≥ state.maxEntries then
            (revocationRequireSnapshot state epoch sequence, .limit)
          else
            ({ state with
                sequence := sequence
                digests := state.digests ++ [digest] },
              .applied)
        else ({ state with sequence := sequence }, .applied)

/-- `turbo_media_revocation_check_digest`; `none` is a null pointer. -/
def checkDigest (state : State) (sha256 : Option Digest) : Status :=
  match sha256 with
  | none => .unknown
  | some sha256 =>
    if sha256.length != tokenSha256Bytes || !state.synchronized then .unknown
    else if revocationFind state sha256 then .revoked
    else .clear

inductive Op where
  | applySnapshot (epoch sequence : UInt64) (sha256Hex : Option (List CStr)) (memory : Bool)
  | applyRevoke (epoch sequence : UInt64) (sha256Hex : Option CStr)
deriving DecidableEq

/-- The calls that change a revocation state. -/
def machine : Machine State Op ApplyResult where
  step state
    | .applySnapshot epoch sequence sha256Hex memory =>
      applySnapshot state epoch sequence sha256Hex memory
    | .applyRevoke epoch sequence sha256Hex => applyRevoke state epoch sequence sha256Hex

section Versions

variable {state : State} {epoch sequence : UInt64}

theorem revocationVersionLess_iff (e₁ s₁ e₂ s₂ : UInt64) :
    revocationVersionLess e₁ s₁ e₂ s₂ = true ↔ of e₁ s₁ < of e₂ s₂ := by
  simp [revocationVersionLess, of_lt_of_iff]

theorem notNewer_iff (e₁ s₁ e₂ s₂ : UInt64) :
    (decide (e₁ < e₂) || (e₁ == e₂ && decide (s₁ ≤ s₂))) = true ↔
      of e₁ s₁ ≤ of e₂ s₂ := by
  rw [← not_lt, of_lt_of_iff]
  simp only [Bool.or_eq_true, Bool.and_eq_true, decide_eq_true_eq, beq_iff_eq,
    UInt64.lt_iff_toNat_lt, UInt64.le_iff_toNat_le, ← UInt64.toNat_inj]
  omega

theorem revocationRequireSnapshot_synchronized (state : State) (epoch sequence : UInt64) :
    (revocationRequireSnapshot state epoch sequence).synchronized = false := by
  unfold revocationRequireSnapshot
  split_ifs
  · rfl
  · rfl

/-- A zero `required_epoch` is below every version with an epoch, so the extra
test of the source does not lower the watermark. -/
theorem revocationRequireSnapshot_view (state : State) (sequence : UInt64) (hepoch : epoch ≠ 0) :
    (revocationRequireSnapshot state epoch sequence).view =
      ⟨false, state.version, max state.required (of epoch sequence)⟩ := by
  unfold revocationRequireSnapshot
  by_cases hzero : state.requiredEpoch = 0
  · rw [if_pos (by simp [hzero])]
    have hlt : state.required < of epoch sequence := by
      rw [Cursor.required, hzero, of_lt_of_iff]
      left
      have hne : epoch.toNat ≠ 0 := fun h0 => hepoch (UInt64.toNat_inj.mp h0)
      rw [UInt64.lt_iff_toNat_lt]
      simp only [UInt64.toNat_ofNat]
      omega
    rw [max_eq_right hlt.le]
    rfl
  · by_cases hless : state.required < of epoch sequence
    · have htest := (revocationVersionLess_iff _ _ _ _).mpr hless
      rw [if_pos (by simp [htest]), max_eq_right hless.le]
      rfl
    · have htest : revocationVersionLess state.requiredEpoch
          state.requiredSequence epoch sequence = false := by
        rw [← Bool.not_eq_true, revocationVersionLess_iff]
        exact hless
      rw [if_neg (by simp [hzero, htest]), max_eq_left (not_lt.mp hless)]
      rfl

theorem revocationRequireSnapshot_step (hepoch : epoch ≠ 0)
    (h : state.synchronized = true → state.version < of epoch sequence) :
    Watermark.Step state.view (.desync (of epoch sequence))
      (revocationRequireSnapshot state epoch sequence).view := by
  rw [revocationRequireSnapshot_view state sequence hepoch]
  exact Watermark.Step.desync h

theorem snapshotStale_eq (state : State) (epoch sequence : UInt64) :
    snapshotStale state epoch sequence = state.toCursor.snapshotStale epoch sequence := by
  rw [Bool.eq_iff_iff, snapshotStale, Cursor.snapshotStale]
  cases state.synchronized with
  | true =>
    simp only [if_true, Bool.true_and, Bool.not_true, Bool.false_and, Bool.or_false]
    rw [notNewer_iff, decide_eq_true_eq, versionCompare_nonpos_iff]
  | false =>
    simp only [Bool.false_eq_true, if_false, Bool.false_and, Bool.not_false,
      Bool.true_and, Bool.false_or, Bool.and_eq_true, decide_eq_true_eq]
    rw [revocationVersionLess_iff, versionCompare_neg_iff]

end Versions

section Outcomes

variable (state : State) (epoch sequence : UInt64)

/-- What a snapshot can do to a revocation state. -/
inductive SnapshotOutcome (state : State) (epoch sequence : UInt64) :
    Option (List CStr) → State × ApplyResult → Prop
  | refused {sha256Hex : Option (List CStr)} :
      epoch = 0 ∨ sha256Hex = none →
      SnapshotOutcome state epoch sequence sha256Hex (state, .error)
  | stale {sha256Hex : Option (List CStr)} :
      SnapshotOutcome state epoch sequence sha256Hex (state, .stale)
  | asked {sha256Hex : Option (List CStr)} {result : ApplyResult} :
      epoch ≠ 0 →
      state.toCursor.snapshotStale epoch sequence = false →
      result ≠ .applied →
      result ≠ .stale →
      SnapshotOutcome state epoch sequence sha256Hex
        (revocationRequireSnapshot state epoch sequence, result)
  | applied {sha256Hex : List CStr} {parsed : List Digest} :
      epoch ≠ 0 →
      state.toCursor.snapshotStale epoch sequence = false →
      parseSnapshot [] sha256Hex = some parsed →
      SnapshotOutcome state epoch sequence (some sha256Hex)
        ({ state with
            toCursor := Cursor.install epoch sequence
            digests := parsed },
          .applied)

theorem applySnapshot_outcome (sha256Hex : Option (List CStr)) (memory : Bool) :
    SnapshotOutcome state epoch sequence sha256Hex
      (applySnapshot state epoch sequence sha256Hex memory) := by
  unfold applySnapshot
  cases sha256Hex with
  | none => exact .refused (Or.inr rfl)
  | some sha256Hex =>
    dsimp only
    rw [snapshotStale_eq]
    split_ifs with hepoch hstale hlimit hmem
    · exact .refused (Or.inl (by simpa using hepoch))
    · exact .stale
    · exact .asked (by simpa using hepoch) (by simpa using hstale) (by decide) (by decide)
    · exact .asked (by simpa using hepoch) (by simpa using hstale) (by decide) (by decide)
    · cases hparse : parseSnapshot [] sha256Hex with
      | none =>
        exact .asked (by simpa using hepoch) (by simpa using hstale)
          (by decide) (by decide)
      | some parsed => exact .applied (by simpa using hepoch) (by simpa using hstale) hparse

/-- What a revoke event can do to a revocation state. -/
inductive RevokeOutcome (state : State) (epoch sequence : UInt64) :
    Option CStr → State × ApplyResult → Prop
  | refused {sha256Hex : Option CStr} :
      epoch = 0 ∨ sequence = 0 ∨ sha256Hex = none →
      RevokeOutcome state epoch sequence sha256Hex (state, .error)
  | stale {sha256Hex : Option CStr} :
      RevokeOutcome state epoch sequence sha256Hex (state, .stale)
  | asked {sha256Hex : Option CStr} {result : ApplyResult} :
      epoch ≠ 0 →
      (state.synchronized = true → state.version < of epoch sequence) →
      result ≠ .applied →
      result ≠ .stale →
      RevokeOutcome state epoch sequence sha256Hex
        (revocationRequireSnapshot state epoch sequence, result)
  | applied {sha256Hex : CStr} {digest : Digest} {digests : List Digest} :
      state.synchronized = true →
      state.version < of epoch sequence →
      epoch = state.epoch →
      sequence = state.sequence + 1 →
      revocationParseDigest sha256Hex = some digest →
      (∀ d, d ∈ digests ↔ d ∈ state.digests ∨ d = digest) →
      RevokeOutcome state epoch sequence (some sha256Hex)
        ({ state with sequence := sequence, digests := digests }, .applied)

theorem revocationFind_iff (state : State) (digest : Digest) :
    revocationFind state digest = true ↔ digest ∈ state.digests := by
  simp [revocationFind]

theorem applyRevoke_outcome (sha256Hex : Option CStr) :
    RevokeOutcome state epoch sequence sha256Hex (applyRevoke state epoch sequence sha256Hex) := by
  unfold applyRevoke
  cases sha256Hex with
  | none => exact .refused (Or.inr (Or.inr rfl))
  | some sha256Hex =>
    dsimp only
    by_cases harg : epoch = 0 ∨ sequence = 0
    · rw [if_pos (by simpa using harg)]
      rcases harg with h | h
      · exact .refused (Or.inl h)
      · exact .refused (Or.inr (Or.inl h))
    rw [if_neg (by simpa using harg)]
    rw [not_or] at harg
    obtain ⟨hepoch, _⟩ := harg
    by_cases hsync : state.synchronized = true
    · rw [if_neg (by simp [hsync])]
      by_cases hstale : of epoch sequence ≤ state.version
      · rw [if_pos ((notNewer_iff _ _ _ _).mpr hstale)]
        exact .stale
      rw [if_neg (fun h => hstale ((notNewer_iff _ _ _ _).mp h))]
      rw [not_le] at hstale
      by_cases hgap : epoch = state.epoch ∧ sequence = state.sequence + 1
      · rw [if_neg (by simp [hgap])]
        cases hparse : revocationParseDigest sha256Hex with
        | none => exact .asked hepoch (fun _ => hstale) (by decide) (by decide)
        | some digest =>
          dsimp only
          split_ifs with hfind hroom
          · exact .asked hepoch (fun _ => hstale) (by decide) (by decide)
          · exact .applied hsync hstale hgap.1 hgap.2 hparse (by simp)
          · have hmem : digest ∈ state.digests :=
              (revocationFind_iff _ _).mp (by simpa using hfind)
            refine .applied hsync hstale hgap.1 hgap.2 hparse ?_
            intro d
            constructor
            · exact Or.inl
            · rintro (hd | rfl)
              · exact hd
              · exact hmem
      · rw [if_pos (by simpa [imp_iff_not_or] using hgap)]
        exact .asked hepoch (fun _ => hstale) (by decide) (by decide)
    · rw [if_pos (by simpa using hsync)]
      cases revocationParseDigest sha256Hex with
      | none | some digest => exact .asked hepoch (fun h => absurd h hsync) (by decide) (by decide)

theorem checkDigest_unsynchronized {state : State} (h : state.synchronized = false)
    (sha256 : Option Digest) : checkDigest state sha256 = .unknown := by
  cases sha256 with
  | none => rfl
  | some sha256 => simp [checkDigest, h]

theorem checkDigest_clear {state : State} {digest : Digest}
    (h : checkDigest state (some digest) = .clear) :
    state.synchronized = true ∧ digest ∉ state.digests := by
  simp only [checkDigest] at h
  split_ifs at h with hbad hfind
  simp only [Bool.or_eq_true, Bool.not_eq_true', not_or, Bool.not_eq_false] at hbad
  exact ⟨hbad.2, fun hmem => hfind ((revocationFind_iff _ _).mpr hmem)⟩

end Outcomes

/-- Digests named by a list of hexadecimal strings. -/
def digestSet (sha256Hex : List CStr) : Set Digest :=
  {digest | ∃ value ∈ sha256Hex, revocationParseDigest value = some digest}

/-- The operation carries what the history `canon` says about its version: a
snapshot the whole set, a revoke the one digest added since the version before. -/
def Op.Canonical (canon : Version → Set Digest) : Op → Prop
  | .applySnapshot epoch sequence (some sha256Hex) _ =>
    digestSet sha256Hex = canon (of epoch sequence)
  | .applyRevoke epoch sequence (some sha256Hex) =>
    canon (of epoch sequence) =
      canon (of epoch (sequence - 1)) ∪ digestSet [sha256Hex]
  | _ => True

def Op.version : Op → Version
  | .applySnapshot epoch sequence _ _ => of epoch sequence
  | .applyRevoke epoch sequence _ => of epoch sequence

theorem parseSnapshot_mem {previous parsed : List Digest} {sha256Hex : List CStr}
    (h : parseSnapshot previous sha256Hex = some parsed) (digest : Digest) :
    digest ∈ parsed ↔ digest ∈ previous ∨ digest ∈ digestSet sha256Hex := by
  induction sha256Hex generalizing previous with
  | nil =>
    rw [parseSnapshot, Option.some.injEq] at h
    simp [digestSet, h]
  | cons value rest ih =>
    rw [parseSnapshot] at h
    cases hparse : revocationParseDigest value with
    | none => simp [hparse] at h
    | some entry =>
      simp only [hparse] at h
      split_ifs at h
      rw [ih h]
      have heq : entry = digest ↔ digest = entry := eq_comm
      simp only [digestSet, Set.mem_ofPred_eq, List.mem_append, List.mem_cons,
        List.not_mem_nil, or_false, exists_eq_or_imp, hparse, Option.some.injEq, heq]
      tauto

/-- A trusted state holds the canonical digests of its version, and the version
belongs to `versions`. -/
def Agrees (canon : Version → Set Digest) (versions : Set Version) (state : State) : Prop :=
  state.synchronized = true →
    {digest | digest ∈ state.digests} = canon state.version ∧ state.version ∈ versions

variable {canon : Version → Set Digest} {versions : Set Version}

theorem Agrees.next {state : State} {op : Op} (h : Agrees canon versions state)
    (hop : op.Canonical canon ∧ op.version ∈ versions) :
    Agrees canon versions (machine.next state op) := by
  cases op with
  | applySnapshot epoch sequence sha256Hex memory =>
    have hout := applySnapshot_outcome state epoch sequence sha256Hex memory
    simp only [Machine.next, machine]
    generalize applySnapshot state epoch sequence sha256Hex memory = out at hout
    cases hout with
    | refused _ | stale => exact h
    | asked _ _ _ _ =>
      intro hsync
      rw [revocationRequireSnapshot_synchronized] at hsync
      exact absurd hsync (by decide)
    | applied _ _ hparse =>
      intro _
      refine ⟨?_, hop.2⟩
      have hset : digestSet _ = canon (of epoch sequence) := hop.1
      change _ = canon (of epoch sequence)
      rw [← hset]
      ext digest
      simpa using parseSnapshot_mem hparse digest
  | applyRevoke epoch sequence sha256Hex =>
    have hout := applyRevoke_outcome state epoch sequence sha256Hex
    simp only [Machine.next, machine]
    generalize applyRevoke state epoch sequence sha256Hex = out at hout
    cases hout with
    | refused _ | stale => exact h
    | asked _ _ _ _ =>
      intro hsync
      rw [revocationRequireSnapshot_synchronized] at hsync
      exact absurd hsync (by decide)
    | applied hsync _ hepoch hseq hparse hdigests =>
      intro _
      subst hepoch hseq
      refine ⟨?_, hop.2⟩
      have hset : canon (of state.epoch (state.sequence + 1)) = _ := hop.1
      have hold := (h hsync).1
      change _ = canon (of state.epoch (state.sequence + 1))
      rw [hset, UInt64.add_sub_cancel]
      ext digest
      have hiff : digest ∈ state.digests ↔
          digest ∈ canon (of state.epoch state.sequence) := by
        change digest ∈ {digest | digest ∈ state.digests} ↔ _
        rw [hold]
        rfl
      simp only [Set.mem_ofPred_eq, hdigests, Set.mem_union, hiff, digestSet,
        List.mem_singleton, exists_eq_left, hparse, Option.some.injEq]
      rw [eq_comm]

/-- **Agreement with the canonical history.**  A created state that receives
canonical operations only, in any order and number, holds the canonical digests
of its version whenever it is trusted. -/
theorem run_agrees {maxEntries : ℕ} {start : State} {ops : List Op}
    (hcreate : stateCreate maxEntries = some start)
    (hops : ∀ op ∈ ops, op.Canonical canon ∧ op.version ∈ versions) :
    Agrees canon versions (machine.run start ops) := by
  have hstart : start.synchronized = false := by
    unfold stateCreate at hcreate
    split_ifs at hcreate
    rw [← Option.some.inj hcreate]
    rfl
  refine machine.run_invariant_along (P := Agrees canon versions)
    (fun _ _ hop h => h.next hop) ?_ (machine.along_of_forall hops start)
  intro hsync
  simp [hstart] at hsync

end TurboMedia.Revocation
