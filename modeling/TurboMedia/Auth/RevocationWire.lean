import TurboMedia.Auth.SignedToken
import TurboMedia.Lib.Cut

/-!
# Snapshots of revoked tokens on the wire

Model of `turbo_media_revocation_wire_parse_snapshot`.  The list of digests is copied
with its length and then split with the functions of C strings, so what stands behind
a zero byte is not seen: `snapshot_exact_iff` says for which bodies this matters.
-/

namespace TurboMedia.Auth

open List

open Revocation

/-- `TURBO_MEDIA_REVOCATION_WIRE_MAX_BODY_BYTES`. -/
def wireMaxBodyBytes : ℕ := 32 * 1024

/-- The size of `storage` in `turbo_media_revocation_wire_snapshot_t`. -/
def wireStorage : ℕ := maxRevokedTokens * (sha256HexBytes + 1)

def keySchemaVersion : CStr := bytes "schema_version".toList
def keyEpoch : CStr := bytes "epoch".toList
def keySequence : CStr := bytes "sequence".toList
def keyRevoked : CStr := bytes "revoked_sha256".toList

def snapshotKeys : List CStr :=
  [keySchemaVersion, keyEpoch, keySequence, keyRevoked]

/-- `turbo_media_revocation_wire_snapshot_t`. -/
structure WireSnapshot where
  epoch : ℕ
  sequence : ℕ
  digests : List CStr

def wireObjectHasExactKeys (value : Json) (keys : List CStr) : Bool :=
  match value with
  | .object members =>
    decide (members.length = keys.length) && members.all (fun m => keys.contains m.1) &&
      keys.all (fun key => (value.get key).isSome)
  | _ => false

def wireUint32Required (value : Json) (key : CStr) : Option ℕ :=
  match value.get key with
  | some (.number number) =>
    if number < 0 ∨ number > 4294967295 then none
    else if (⌊number⌋ : ℚ) ≠ number then none
    else some ⌊number⌋.toNat
  | _ => none

def wireSchemaV1 (value : Json) : Bool :=
  wireUint32Required value keySchemaVersion == some 1

/-- The loop over the list: `cursor` is a C string, and `count` digests were found. -/
def wireDigests (count : ℕ) (cursor : CStr) : Option (List CStr) :=
  if cursor = [] then some []
  else if maxRevokedTokens ≤ count then none
  else if (cursor.takeWhile (· ≠ 44)).length ≠ sha256HexBytes then none
  else
    match _h : cursor.dropWhile (· ≠ 44) with
    | [] => some [cursor.takeWhile (· ≠ 44)]
    | _ :: rest =>
      if rest = [] then none
      else (wireDigests (count + 1) rest).map (cursor.takeWhile (· ≠ 44) :: ·)
termination_by cursor.length
decreasing_by
  have hlen := (dropWhile_sublist (fun x : UInt8 => decide (x ≠ 44)) (l := cursor)).length_le
  rw [_h, length_cons] at hlen
  omega

/-- `turbo_media_revocation_wire_parse_snapshot`. -/
def wireParseSnapshot (jsonParse : List UInt8 → Option Json) (body : List UInt8) :
    Option WireSnapshot :=
  if body.length = 0 ∨ body.length > wireMaxBodyBytes then none
  else
    match jsonParse body with
    | none => none
    | some root =>
      if !wireObjectHasExactKeys root snapshotKeys || !wireSchemaV1 root then none
      else
        match wireUint32Required root keyEpoch with
        | none => none
        | some epoch =>
          if epoch = 0 then none
          else
            match wireUint32Required root keySequence, root.get keyRevoked with
            | some sequence, some (.string csv) =>
              if csv.length ≥ wireStorage then none
              else if csv.length = 0 then some ⟨epoch, sequence, []⟩
              else
                (wireDigests 0 (csv.takeWhile (· ≠ 0))).map (fun digests =>
                  ⟨epoch, sequence, digests⟩)
            | _, _ => none

/-- The list of these digests, over its full length. -/
def Listed (csv : CStr) (digests : List CStr) : Prop :=
  csv = [] ∧ digests = [] ∨
    csv ≠ [] ∧ digests = csv.splitOnP (· == 44) ∧ digests.length ≤ maxRevokedTokens ∧
      ∀ digest ∈ digests, digest.length = sha256HexBytes

theorem wireDigests_iff {count : ℕ} {cursor : CStr} (hne : cursor ≠ []) (digests : List CStr) :
    wireDigests count cursor = some digests ↔
      digests = cursor.splitOnP (· == 44) ∧ count + digests.length ≤ maxRevokedTokens ∧
        ∀ digest ∈ digests, digest.length = sha256HexBytes := by
  fun_induction wireDigests count cursor generalizing digests with
  | case1 => exact absurd rfl hne
  | case2 count cursor _ hfull =>
    simp only [reduceCtorEq, false_iff]
    rintro ⟨rfl, hcount, -⟩
    rw [Cut.splitOnP_eq, length_cons] at hcount
    omega
  | case3 count cursor _ _ hlength =>
    simp only [reduceCtorEq, false_iff]
    rintro ⟨rfl, -, hall⟩
    exact hlength (hall _ (by rw [Cut.splitOnP_eq]; exact mem_cons_self))
  | case4 count cursor _ hcount hlength hdrop =>
    rw [Cut.splitOnP_eq, hdrop]
    rw [not_not] at hlength
    constructor
    · rintro ⟨⟩
      exact ⟨rfl, by simp; omega, by simpa using hlength⟩
    · rintro ⟨rfl, -⟩
      rfl
  | case5 count cursor _ _ _ c hdrop =>
    simp only [reduceCtorEq, false_iff]
    rintro ⟨rfl, -, hall⟩
    rw [Cut.splitOnP_eq, hdrop] at hall
    exact absurd (hall [] (by simp)) (by decide)
  | case6 count cursor _ hcount hlength c rest hdrop hrest ih =>
    rw [not_not] at hlength
    rw [Cut.splitOnP_eq, hdrop]
    dsimp only
    constructor
    · intro h
      obtain ⟨tail, htail, rfl⟩ := Option.map_eq_some_iff.mp h
      obtain ⟨rfl, hle, hall⟩ := (ih hrest tail).mp htail
      refine ⟨rfl, ?_, forall_mem_cons.mpr ⟨hlength, hall⟩⟩
      rw [length_cons]
      omega
    · rintro ⟨rfl, hle, hall⟩
      rw [length_cons] at hle
      rw [(ih hrest _).mpr ⟨rfl, by omega, (forall_mem_cons.mp hall).2⟩]
      rfl

theorem Listed.length_lt {csv : CStr} {digests : List CStr} (h : Listed csv digests) :
    csv.length < wireStorage := by
  rcases h with ⟨rfl, -⟩ | ⟨-, hsplit, hcount, hall⟩
  · decide
  · have hsum := Cut.sum_splitOnP (· == 44) csv
    rw [← hsplit] at hsum
    have hlengths : digests.map (fun digest => digest.length + 1) =
        replicate digests.length (sha256HexBytes + 1) := by
      refine eq_replicate_iff.mpr ⟨length_map _, fun n hn => ?_⟩
      obtain ⟨digest, hdigest, rfl⟩ := mem_map.mp hn
      rw [hall digest hdigest]
    rw [hlengths, sum_replicate, smul_eq_mul] at hsum
    have hle := Nat.mul_le_mul_right (sha256HexBytes + 1) hcount
    rw [wireStorage]
    omega

theorem Listed.inj {csv csv' : CStr} {digests : List CStr} (h : Listed csv digests)
    (h' : Listed csv' digests) : csv = csv' := by
  have hjoin : ∀ {c}, Listed c digests → c = [44].intercalate digests := by
    rintro c (⟨rfl, rfl⟩ | ⟨-, rfl, -⟩)
    · rfl
    · exact (intercalate_splitOn 44).symm
  exact (hjoin h).trans (hjoin h').symm

theorem wireDigests_listed (cursor : CStr) (digests : List CStr) :
    wireDigests 0 cursor = some digests ↔ Listed cursor digests := by
  by_cases hne : cursor = []
  · simp [hne, wireDigests, Listed, eq_comm]
  · rw [wireDigests_iff hne, Nat.zero_add]
    simp [Listed, hne]

variable {root : Json} {jsonParse : List UInt8 → Option Json} {body : List UInt8}

/-- The members of a snapshot, with this list of digests. -/
structure WireHeader (root : Json) (epoch sequence : ℕ) (csv : CStr) : Prop where
  keys : ∃ members, root = .object members ∧ (members.map Prod.fst).Perm snapshotKeys
  version : root.get keySchemaVersion = some (.number 1)
  epoch : root.get keyEpoch = some (.number epoch) ∧ 0 < epoch ∧ epoch ≤ 4294967295
  sequence : root.get keySequence = some (.number sequence) ∧ sequence ≤ 4294967295
  list : root.get keyRevoked = some (.string csv)

theorem isSome_get {members : List (CStr × Json)} {key : CStr} :
    ((Json.object members).get key).isSome = true ↔ key ∈ members.map Prod.fst := by
  simp [Json.get, find?_isSome]

theorem wireObjectHasExactKeys_iff {keys : List CStr} (hkeys : keys.Nodup) :
    wireObjectHasExactKeys root keys = true ↔
      ∃ members, root = .object members ∧ (members.map Prod.fst).Perm keys := by
  cases root with
  | object members =>
    simp only [wireObjectHasExactKeys, Bool.and_eq_true, decide_eq_true_eq, all_eq_true,
      contains_iff_mem, isSome_get, Json.object.injEq, exists_eq_left']
    constructor
    · rintro ⟨⟨hlength, -⟩, hall⟩
      have hsubperm := subperm_of_subset hkeys hall
      exact (hsubperm.perm_of_length_le (by rw [length_map, hlength])).symm
    · intro hperm
      refine ⟨⟨?_, fun m hm => ?_⟩, fun key hkey => hperm.mem_iff.mpr hkey⟩
      · rw [← hperm.length_eq, length_map]
      · exact hperm.mem_iff.mp (mem_map_of_mem hm)
  | _ => simp [wireObjectHasExactKeys]

theorem wireUint32Required_iff {key : CStr} {n : ℕ} :
    wireUint32Required root key = some n ↔ root.get key = some (.number n) ∧ n ≤ 4294967295 := by
  rw [wireUint32Required]
  split
  next number hget =>
    simp only [hget, Option.some.injEq, Json.number.injEq]
    split_ifs with hrange hfloor
    · simp only [false_iff]
      rintro ⟨rfl, hle⟩
      rcases hrange with hneg | hlarge
      · exact absurd hneg (by simp)
      · exact absurd hlarge (by simpa using (by exact_mod_cast hle : (n : ℚ) ≤ 4294967295))
    · simp only [false_iff]
      rintro ⟨rfl, -⟩
      simp at hfloor
    · rw [not_not] at hfloor
      rw [not_or, not_lt, not_lt] at hrange
      have hpos : 0 ≤ ⌊number⌋ := Int.floor_nonneg.mpr hrange.1
      have hcast : ((⌊number⌋.toNat : ℕ) : ℚ) = number := by
        rw [← Int.cast_natCast, Int.toNat_of_nonneg hpos, hfloor]
      constructor
      · rintro ⟨⟩
        refine ⟨hcast.symm, ?_⟩
        have hle := hrange.2
        rw [← hcast] at hle
        exact_mod_cast hle
      · rintro ⟨rfl, -⟩
        simp
  next hother =>
    simp only [reduceCtorEq, false_iff]
    exact fun h => hother _ h.1

theorem wireSchemaV1_iff :
    wireSchemaV1 root = true ↔ root.get keySchemaVersion = some (.number 1) := by
  rw [wireSchemaV1, beq_iff_eq, wireUint32Required_iff, Nat.cast_one]
  exact and_iff_left (by decide)

/-- A body of an admissible size. -/
def WireBody (body : List UInt8) : Prop :=
  body.length ≠ 0 ∧ body.length ≤ wireMaxBodyBytes

theorem wireParseSnapshot_iff (snapshot : WireSnapshot) :
    wireParseSnapshot jsonParse body = some snapshot ↔ WireBody body ∧
      ∃ root csv, jsonParse body = some root ∧
        WireHeader root snapshot.epoch snapshot.sequence csv ∧ csv.length < wireStorage ∧
        Listed (csv.takeWhile (· ≠ 0)) snapshot.digests := by
  have hkeys : snapshotKeys.Nodup := by decide
  constructor
  · intro h
    rw [wireParseSnapshot] at h
    split_ifs at h with hsize
    split at h
    next => cases h
    next root hroot =>
      split_ifs at h with hobject
      rw [Bool.or_eq_true, not_or] at hobject
      simp only [Bool.not_eq_true', Bool.not_eq_false] at hobject
      split at h
      next => cases h
      next epoch hepoch =>
        split_ifs at h with hzero
        split at h
        next sequence csv hseq hlist =>
          have hhdr : WireHeader root epoch sequence csv := {
            keys := (wireObjectHasExactKeys_iff hkeys).mp hobject.1
            version := wireSchemaV1_iff.mp hobject.2
            epoch := ⟨(wireUint32Required_iff.mp hepoch).1, Nat.pos_of_ne_zero hzero,
              (wireUint32Required_iff.mp hepoch).2⟩
            sequence := wireUint32Required_iff.mp hseq
            list := hlist }
          refine ⟨⟨by omega, by omega⟩, root, csv, hroot, ?_⟩
          split_ifs at h with hlarge hnil
          · cases h
            cases length_eq_zero_iff.mp hnil
            exact ⟨hhdr, by decide, .inl ⟨rfl, rfl⟩⟩
          · obtain ⟨digests, hdigests, rfl⟩ := Option.map_eq_some_iff.mp h
            exact ⟨hhdr, not_le.mp hlarge, (wireDigests_listed _ _).mp hdigests⟩
        next => cases h
  · rintro ⟨hsize, root, csv, hroot, hhdr, hlt, hlisted⟩
    have hobject := (wireObjectHasExactKeys_iff hkeys).mpr hhdr.keys
    have hver := wireSchemaV1_iff.mpr hhdr.version
    have hepoch := wireUint32Required_iff.mpr ⟨hhdr.epoch.1, hhdr.epoch.2.2⟩
    have hseq := wireUint32Required_iff.mpr hhdr.sequence
    rw [wireParseSnapshot, if_neg (by rw [not_or, not_lt]; exact hsize), hroot]
    dsimp only
    rw [if_neg (by rw [hobject, hver]; decide), hepoch]
    dsimp only
    rw [if_neg hhdr.epoch.2.1.ne', hseq, hhdr.list]
    dsimp only
    rw [if_neg (not_le.mpr hlt)]
    split_ifs with hnil
    · cases length_eq_zero_iff.mp hnil
      rcases hlisted with ⟨-, hdigests⟩ | ⟨hne, -⟩
      · rw [← hdigests]
      · exact absurd rfl hne
    · rw [(wireDigests_listed _ _).mpr hlisted]
      rfl

/-- The code accepts the snapshots of the format, with all of their digests. -/
def SnapshotExact (jsonParse : List UInt8 → Option Json) (body : List UInt8) : Prop :=
  ∀ snapshot, wireParseSnapshot jsonParse body = some snapshot ↔
    ∃ root csv, jsonParse body = some root ∧
      WireHeader root snapshot.epoch snapshot.sequence csv ∧ Listed csv snapshot.digests

theorem takeWhile_notMem {csv : CStr} (h : 0 ∉ csv) : csv.takeWhile (· ≠ 0) = csv := by
  rw [takeWhile_eq_self_iff]
  intro c hc
  have hne : c ≠ 0 := by
    rintro rfl
    exact h hc
  simpa using hne

/-- **Snapshots.**  What is accepted is what the format says exactly when the body has an
admissible size and its list no zero byte, or when neither the list nor what stands before
its first zero byte can be accepted. -/
theorem snapshot_exact_iff (jsonParse : List UInt8 → Option Json) (body : List UInt8) :
    SnapshotExact jsonParse body ↔
      ∀ root epoch sequence csv, jsonParse body = some root → WireHeader root epoch sequence csv →
        WireBody body ∧ 0 ∉ csv ∨ (∀ digests, ¬Listed csv digests) ∧
          (WireBody body → wireStorage ≤ csv.length ∨
            ∀ digests, ¬Listed (csv.takeWhile (· ≠ 0)) digests) := by
  constructor
  · intro hexact root epoch sequence csv hroot hheader
    have hread : ∀ digests, Listed csv digests → WireBody body ∧
        Listed (csv.takeWhile (· ≠ 0)) digests := by
      intro digests hlisted
      obtain ⟨hsize, root', csv', hroot', hheader', -, hread⟩ := (wireParseSnapshot_iff _).mp
        ((hexact ⟨epoch, sequence, digests⟩).mpr ⟨root, csv, hroot, hheader, hlisted⟩)
      cases hroot.symm.trans hroot'
      cases hheader.list.symm.trans hheader'.list
      exact ⟨hsize, hread⟩
    by_cases hfine : WireBody body ∧ 0 ∉ csv
    · exact .inl hfine
    · have hapart : ∀ digests, Listed csv digests →
          Listed (csv.takeWhile (· ≠ 0)) digests → WireBody body → False := by
        intro digests hlisted hread hsize
        refine hfine ⟨hsize, fun hzero => ?_⟩
        rw [hlisted.inj hread] at hzero
        simpa using mem_takeWhile_imp hzero
      refine .inr ⟨fun digests hlisted => ?_, fun hsize => ?_⟩
      · exact hapart digests hlisted (hread digests hlisted).2 (hread digests hlisted).1
      · by_contra hfits
        rw [not_or, not_le] at hfits
        refine hfits.2 (fun digests hcut => ?_)
        obtain ⟨root', csv', hroot', hheader', hlisted⟩ := (hexact ⟨epoch, sequence, digests⟩).mp
          ((wireParseSnapshot_iff _).mpr ⟨hsize, root, csv, hroot, hheader, hfits.1, hcut⟩)
        cases hroot.symm.trans hroot'
        cases hheader.list.symm.trans hheader'.list
        exact hapart digests hlisted hcut hsize
  · intro hfine snapshot
    rw [wireParseSnapshot_iff]
    constructor
    · rintro ⟨hsize, root, csv, hroot, hheader, hlt, hcut⟩
      refine ⟨root, csv, hroot, hheader, ?_⟩
      rcases hfine root _ _ csv hroot hheader with ⟨-, hzero⟩ | ⟨-, hno⟩
      · rwa [takeWhile_notMem hzero] at hcut
      · exact ((hno hsize).elim (fun hle => absurd hlt (not_lt.mpr hle))
          (fun hnone => absurd hcut (hnone _)))
    · rintro ⟨root, csv, hroot, hheader, hlisted⟩
      rcases hfine root _ _ csv hroot hheader with ⟨hsize, hzero⟩ | ⟨hno, -⟩
      · refine ⟨hsize, root, csv, hroot, hheader, hlisted.length_lt, ?_⟩
        rwa [takeWhile_notMem hzero]
      · exact absurd hlisted (hno _)

/-- A digest, a zero byte, and another digest. -/
def cutList : CStr :=
  replicate 64 97 ++ 0 :: 44 :: replicate 64 98

def cutBody : List UInt8 :=
  bytes "\x7b\"schema_version\":1,\"epoch\":1,\"sequence\":0,\"revoked_sha256\":\"".toList ++
    List.replicate 64 97 ++ bytes "\\u0000,".toList ++ List.replicate 64 98 ++
    bytes "\"\x7d".toList

def cutRoot : Json :=
  .object [(keySchemaVersion, .number 1), (keyEpoch, .number 1), (keySequence, .number 0),
    (keyRevoked, .string cutList)]

/-- The second digest is dropped, and the list is accepted with the first. -/
theorem snapshot_exact_cut :
    (wireParseSnapshot (fun body => if body = cutBody then some cutRoot else none) cutBody).map
        WireSnapshot.digests = some [replicate 64 97] ∧
      ¬SnapshotExact (fun body => if body = cutBody then some cutRoot else none) cutBody := by
  have hheader : WireHeader cutRoot 1 0 cutList := {
    keys := ⟨_, rfl, List.Perm.refl _⟩
    version := rfl
    epoch := ⟨rfl, by decide, by decide⟩
    sequence := ⟨rfl, by decide⟩
    list := rfl }
  have hcut : Listed (cutList.takeWhile (· ≠ 0)) [replicate 64 97] :=
    .inr ⟨by decide +kernel, by decide +kernel, by decide, by simp [sha256HexBytes]⟩
  have hparse : wireParseSnapshot (fun body => if body = cutBody then some cutRoot else none)
      cutBody = some ⟨1, 0, [replicate 64 97]⟩ :=
    (wireParseSnapshot_iff _).mpr ⟨⟨by decide +kernel, by decide +kernel⟩, cutRoot, cutList,
      if_pos rfl, hheader, by decide +kernel, hcut⟩
  refine ⟨by rw [hparse]; rfl, fun hexact => ?_⟩
  obtain ⟨root, csv, hroot, hread, hlisted⟩ := (hexact _).mp hparse
  cases (if_pos rfl).symm.trans hroot
  cases hheader.list.symm.trans hread.list
  exact absurd (hlisted.inj hcut) (by decide +kernel)

end TurboMedia.Auth
