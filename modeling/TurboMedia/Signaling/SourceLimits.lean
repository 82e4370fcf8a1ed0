import TurboMedia.Signaling.SourceBooks

/-!
# Signaling: the limits of a source hold

The counts, the map and the list of inactive sources agree after every run, and what a source
is admitted in any window of time stays within its token bucket (`source_limits`).

A state that expires takes its bucket with it, and a new state starts with a full one.  The
bound therefore asks that a bucket is full again when its state may expire (`Refilled`), or
that the state does not expire in the window; `bucket_forgotten` shows that it fails otherwise.

The bound is read off a meter: the level of the bucket, had it been refilled just now.  Every
call either leaves the level of a source alone, lowers it, or forgets the source
(`CoreMove.level_le`).
-/

namespace TurboMedia.Signaling

open List hiding after
open Function SourceOp SourceServer SourceState Option SourceCore

open LinkedList Clocked

def carries (key : SourceKey) (peer : SourcePeer) : Bool :=
  peer.sourceAdmitted && peer.sourceKey == key

def lastSeen (server : SourceServer) (key : SourceKey) : ℕ :=
  ((server.sourceStates.lookup key).map SourceState.lastSeenMs).getD 0

/-- Counts, map and inactive list agree, and no limit that is on is exceeded. -/
structure SourcesSound (server : SourceServer) : Prop where
  active : ∀ key source, server.sourceStates.lookup key = some source →
    source.activeConnections = server.peers.countP (carries key)
  live : ∀ peer ∈ server.peers, peer.sourceAdmitted = true ∧
    (server.sourceStates.lookup peer.sourceKey).isSome = true
  limit : 0 < server.config.maxConnectionsPerSource →
    ∀ key source, server.sourceStates.lookup key = some source →
      (source.activeConnections : ℤ) ≤ server.config.maxConnectionsPerSource
  states : server.sourceStates.keys.length ≤ server.config.maxSourceStates
  inactive : ∃ xs, server.links.Holds xs ∧
    (∀ key, key ∈ xs ↔ (server.sourceStates.lookup key).isSome = true ∧
      ∀ peer ∈ server.peers, carries key peer = false) ∧
    xs.Pairwise (fun a b => lastSeen server a ≤ lastSeen server b)

/-- A bucket is full again when its state may expire. -/
def Refilled (config : SourceConfig) : Prop :=
  1000 * config.sourceAdmissionBurst ≤ config.sourceAdmissionsPerSecond * config.sourceStateTtlMs

/-- The call is an admission that is granted to the source. -/
def grantsTo (key : SourceKey) : SourceOp × SourceAnswer → Bool
  | (.admission (.ok key') _ _, .admission statusCode _) => key' == key && statusCode == 0
  | _ => false

def grantsIn (key : SourceKey) (start finish : ℕ) (call : SourceOp × SourceAnswer) : Bool :=
  grantsTo key call && call.1.times.all (fun t => start ≤ t && t ≤ finish)

/-- The admissions that a run grants to a source in a window of time. -/
def granted (config : SourceConfig) (ops : List SourceOp) (key : SourceKey)
    (start finish : ℕ) : ℕ :=
  (sourceMachine.transcript (createSources config) ops).countP (grantsIn key start finish)

/-- The call does not expire the state of the source, if it is made in the window. -/
def KeepsIn (key : SourceKey) (start finish : ℕ) (server : SourceServer) (op : SourceOp) :
    Prop :=
  (∃ t ∈ op.times, start ≤ t ∧ t ≤ finish) → (server.sourceStates.lookup key).isSome = true →
      ((sourceMachine.next server op).sourceStates.lookup key).isSome = true

section Level

variable {config : SourceConfig} {t nowMs : ℕ}

/-- From when on a bucket fills: a source that was last seen at 0 was refilled then. -/
def SourceCore.refillBase (c : SourceCore) : ℕ :=
  if c.lastSeenMs = 0 then 0 else c.rateLastRefillMs

/-- What the bucket of a source holds when it is refilled now. -/
def level (config : SourceConfig) (before : Option SourceCore) (t : ℕ) : ℕ :=
  match before with
  | none => config.bucketCapacity
  | some c =>
    if c.rateLastRefillMs = 0 then config.bucketCapacity
    else
      min config.bucketCapacity
        (c.rateTokens + config.sourceAdmissionsPerSecond.toNat * (t - c.refillBase))

theorem level_le_capacity (before : Option SourceCore) :
    level config before t ≤ config.bucketCapacity := by
  unfold level
  split
  · exact le_rfl
  · split
    · exact le_rfl
    · exact Nat.min_le_left _ _

theorem level_rise (before : Option SourceCore) {t' : ℕ} :
    level config before t' ≤
      level config before t + config.sourceAdmissionsPerSecond.toNat * (t' - t) := by
  unfold level
  split
  · exact Nat.le_add_right _ _
  · rename_i c
    split
    · exact Nat.le_add_right _ _
    · have hflow : config.sourceAdmissionsPerSecond.toNat * (t' - c.refillBase) ≤
          config.sourceAdmissionsPerSecond.toNat * (t - c.refillBase) +
            config.sourceAdmissionsPerSecond.toNat * (t' - t) := by
        rw [← Nat.mul_add]
        exact Nat.mul_le_mul_left _ (by omega)
      omega

theorem level_again {c : SourceCore} {s n u : ℕ} (hseen : c.lastSeenMs ≤ s) :
    level config (some ⟨c.rateLastRefillMs, c.rateTokens, s, n⟩) u ≤ level config (some c) u := by
  unfold level
  dsimp only
  split
  · exact le_rfl
  · refine min_le_min le_rfl (Nat.add_le_add_left (Nat.mul_le_mul_left _ ?_) _)
    unfold refillBase
    dsimp only
    split_ifs <;> omega

theorem level_expired {c : SourceCore} (hrate : 0 < config.sourceAdmissionsPerSecond)
    (hrefilled : 1000 * config.sourceAdmissionBurst ≤
      config.sourceAdmissionsPerSecond * config.sourceStateTtlMs) (hsound : CoreSound config t c)
    (hold : config.sourceStateTtlMs.toNat ≤ nowMs - c.lastSeenMs) :
    level config (some c) nowMs = config.bucketCapacity := by
  unfold level
  dsimp only
  split
  · rfl
  · refine Nat.min_eq_left ?_
    have hage : config.sourceStateTtlMs.toNat ≤ nowMs - c.refillBase := by
      have hrefill := hsound.refill
      unfold refillBase
      split <;> omega
    have hfull : config.bucketCapacity ≤
        config.sourceAdmissionsPerSecond.toNat * config.sourceStateTtlMs.toNat := by
      unfold SourceConfig.bucketCapacity rateTokenUnits
      zify
      rw [Int.toNat_of_nonneg hrate.le]
      rcases le_total 0 config.sourceAdmissionBurst with hburst | hburst
      · have httl : 0 ≤ config.sourceStateTtlMs := by
          by_contra hneg
          have hprod : config.sourceAdmissionsPerSecond * config.sourceStateTtlMs < 0 :=
            mul_neg_of_pos_of_neg hrate (not_le.mp hneg)
          omega
        rw [Int.toNat_of_nonneg hburst, Int.toNat_of_nonneg httl]
        linarith
      · rw [Int.toNat_of_nonpos hburst]
        simp only [Nat.cast_zero, zero_mul]
        positivity
    calc config.bucketCapacity
        ≤ config.sourceAdmissionsPerSecond.toNat * config.sourceStateTtlMs.toNat := hfull
      _ ≤ config.sourceAdmissionsPerSecond.toNat * (nowMs - c.refillBase) :=
          Nat.mul_le_mul_left _ hage
      _ ≤ _ := Nat.le_add_left _ _

theorem level_asked {c : SourceCore} (hacc : config.accepted = true)
    (hrate : 0 < config.sourceAdmissionsPerSecond) (hsound : CoreSound config t c) :
    level config (some (c.asked config nowMs)) nowMs +
        (if c.hasToken config nowMs then 1000 else 0) ≤ level config (some c) nowMs := by
  have hburst := burst_pos hacc hrate
  obtain ⟨htokens, hlast⟩ := consume_tokens ⟨c.rateLastRefillMs, c.rateTokens⟩ hrate hburst
  rw [refill_tokens (by omega) (hsound.tokens hrate)] at htokens
  rw [refill_last] at hlast
  change (c.asked config nowMs).rateTokens + (if c.hasToken config nowMs then 1000 else 0) = _
    at htokens
  change (c.asked config nowMs).rateLastRefillMs = _ at hlast
  -- the bucket has just been refilled
  have hafter : level config (some (c.asked config nowMs)) nowMs ≤
      (c.asked config nowMs).rateTokens := by
    unfold level
    dsimp only at hlast ⊢
    have hnonzero : (c.asked config nowMs).rateLastRefillMs ≠ 0 := by
      rw [hlast]
      split <;> omega
    rw [if_neg hnonzero]
    have hbase : nowMs - (c.asked config nowMs).refillBase = 0 := by
      unfold refillBase
      rw [hlast]
      change nowMs - (if nowMs = 0 then 0 else _) = 0
      split_ifs <;> omega
    rw [hbase]
    simp
  have hbefore : (if c.rateLastRefillMs = 0 then config.sourceAdmissionBurst.toNat * rateTokenUnits
      else min (config.sourceAdmissionBurst.toNat * rateTokenUnits)
        (c.rateTokens + config.sourceAdmissionsPerSecond.toNat *
          (nowMs - c.rateLastRefillMs))) ≤ level config (some c) nowMs := by
    unfold level
    dsimp only
    split
    · exact le_rfl
    · refine min_le_min le_rfl (Nat.add_le_add_left (Nat.mul_le_mul_left _ ?_) _)
      have hrefill := hsound.refill
      unfold refillBase
      split <;> omega
  dsimp only at htokens
  omega

/-- What one call does to the core of a source. -/
inductive CoreMove (config : SourceConfig) (nowMs : ℕ) (grant : Bool) :
    Option SourceCore → Option SourceCore → Prop where
  | expiry
      {before after : Option SourceCore}
      (hgrant : grant = false)
      (h : ExpiredOrKept config nowMs before after) :
      CoreMove config nowMs grant before after
  | again
      {c : SourceCore} {s n : ℕ}
      (hgrant : grant = false)
      (hseen : c.lastSeenMs ≤ s) :
      CoreMove config nowMs grant (some c) (some ⟨c.rateLastRefillMs, c.rateTokens, s, n⟩)
  | asked
      {before : Option SourceCore} {c : SourceCore}
      (hbefore : before = some c ∨ before = none ∧ c = ⟨0, 0, 0, 0⟩)
      (hgrant : grant = true → c.hasToken config nowMs = true) :
      CoreMove config nowMs grant before (some (c.asked config nowMs))

/-- A call pays for what it grants, unless it forgets a bucket that is not full. -/
theorem CoreMove.level_le {grant : Bool} {before after : Option SourceCore}
    (hacc : config.accepted = true) (hrate : 0 < config.sourceAdmissionsPerSecond)
    (h : CoreMove config nowMs grant before after)
    (hsound : ∀ c, before = some c → CoreSound config t c)
    (hkept : Refilled config ∨ (before.isSome = true → after.isSome = true)) :
    level config after nowMs + (if grant then 1000 else 0) ≤ level config before nowMs := by
  cases h with
  | expiry hgrant hmove =>
    rw [hgrant, if_neg Bool.false_ne_true, Nat.add_zero]
    rcases hmove with rfl | ⟨c, rfl, -, -, hold, rfl⟩
    · exact le_rfl
    · rcases hkept with hrefilled | hkept
      · rw [level_expired hrate hrefilled (hsound c rfl) hold]
        exact le_rfl
      · cases hkept rfl
  | again hgrant hseen =>
    rw [hgrant, if_neg Bool.false_ne_true, Nat.add_zero]
    exact level_again hseen
  | @asked _ c hbefore hgrant =>
    have hpaid : level config (some (c.asked config nowMs)) nowMs +
        (if c.hasToken config nowMs then 1000 else 0) ≤ level config before nowMs := by
      rcases hbefore with rfl | ⟨rfl, rfl⟩
      · exact level_asked hacc hrate (hsound c rfl)
      · have hnew : CoreSound config 0 ⟨0, 0, 0, 0⟩ :=
          ⟨le_rfl, .inl le_rfl, fun _ => Nat.zero_le _⟩
        exact level_asked hacc hrate hnew
    cases grant with
    | false =>
      rw [if_neg Bool.false_ne_true]
      exact le_trans (Nat.add_le_add_left (Nat.zero_le _) _) hpaid
    | true =>
      rw [hgrant rfl] at hpaid
      exact hpaid

end Level

section Steps

variable {config : SourceConfig} {server : SourceServer} {key : SourceKey}
variable {t nowMs : ℕ}

def connections (peers : List SourcePeer) (key : SourceKey) : ℕ :=
  peers.countP (carries key)

/-- The books are kept, and every peer was admitted. -/
def Kept (config : SourceConfig) (t : ℕ) (server : SourceServer) : Prop :=
  Held config t (connections server.peers) server ∧
    ∀ peer ∈ server.peers, peer.sourceAdmitted = true

theorem admit_new {conns : SourceKey → ℕ} (hacc : config.accepted = true)
    (h : Held config nowMs conns server) (hnone : server.cores key = none)
    (hroom : server.sourceStates.keys.length < config.maxSourceStates) : let fresh : SourceServer :=
      { server with sourceStates := server.sourceStates.insert key new }
    SameRest server (admitSource fresh key new nowMs).1 ∧
      Held config nowMs conns (admitSource fresh key new nowMs).1 ∧
      (admitSource fresh key new nowMs).1.cores = update server.cores key
          (some (asked config nowMs ⟨0, 0, 0, 0⟩)) ∧
      ((admitSource fresh key new nowMs).2 = .admitted →
        hasToken config nowMs ⟨0, 0, 0, 0⟩ = true) := by
  intro fresh
  obtain ⟨xs, hshape, hlisted⟩ := h.listed
  have hfree : server.sourceStates.lookup key = none := map_eq_none_iff.mp hnone
  have hnot : key ∉ xs := by
    intro hmem
    obtain ⟨c, hc, -⟩ := (hlisted.mem key).mp hmem
    rw [hnone] at hc
    cases hc
  have hconns : conns key = 0 := by
    by_contra hpos
    have hlive := h.book.live key (by omega)
    rw [hnone] at hlive
    cases hlive
  have hcores : fresh.cores = update server.cores key (some ⟨0, 0, 0, 0⟩) := cores_insert
  have hbook : Book config nowMs conns fresh.cores := by
    have hput := @Book.put _ _ key _ _ ⟨0, 0, 0, 0⟩ (conns key) h.book hconns.symm
      (fun hon => h.book.limit hon key)
      ⟨Nat.zero_le _, .inl le_rfl, fun _ => Nat.zero_le _⟩
    rwa [update_eq_self, ← hcores] at hput
  have hbut : ListedBut key fresh.cores xs := by
    rw [hcores]
    refine ⟨?_, ?_⟩
    · intro x hx
      rw [update_of_ne hx]
      exact hlisted.mem x
    · rw [erase_of_not_mem hnot]
      exact order_update hnot hlisted.order
  have hsize : fresh.sourceStates.keys.length ≤ config.maxSourceStates := by
    have hgrown := @size_insert_of_notMem _ _ new (AList.lookup_eq_none.mp hfree)
    change (server.sourceStates.insert key new).keys.length ≤ _
    omega
  obtain ⟨hrest, hheld, hasked, hgrant⟩ := @admit_spec _ fresh _ _ _ _ _ hacc h.configured
     (shape_insert hshape hfree)
    hbut hbook hsize (AList.lookup_insert _) (fun _ => hnot)
  refine ⟨⟨hrest.config, hrest.running, hrest.peers⟩, hheld, ?_, hgrant⟩
  rw [hasked, hcores, update_idem]
  rfl

theorem preAdmit_spec {conns : SourceKey → ℕ} {memory : Bool} (hacc : config.accepted = true)
    (henabled : config.policyEnabled = true) (h : Held config t conns server) (hle : t ≤ nowMs) :
    SameRest server (preAdmitSource server key nowMs memory).1 ∧
      Held config nowMs conns (preAdmitSource server key nowMs memory).1 ∧
      ∀ x, CoreMove config nowMs
        (decide (x = key) && decide ((preAdmitSource server key nowMs memory).2 = .admitted))
        (server.cores x) ((preAdmitSource server key nowMs memory).1.cores x) := by
  unfold preAdmitSource
  rw [h.configured, henabled]
  simp only [Bool.not_true, Bool.false_eq_true, if_false]
  unfold getOrCreateSource
  cases hlook : server.sourceStates.lookup key with
  | some source =>
    -- the source is known
    simp only [isSome_some, if_true, ne_eq, not_true_eq_false, if_false, hlook]
    obtain ⟨xs, hshape, hlisted⟩ := h.listed
    have hcore := cores_of_lookup hlook
    obtain ⟨hrest, hheld, hcores, hgrant⟩ := admit_spec hacc h.configured hshape
      (hlisted.but key) (h.book.later hle) h.states hlook (by
        intro hbusy hmem
        obtain ⟨c, hc, hidle⟩ := (hlisted.mem key).mp hmem
        rw [hcore, some.injEq] at hc
        rw [← hc] at hidle
        exact hbusy hidle)
    refine ⟨hrest, hheld, ?_⟩
    intro x
    rw [hcores]
    rcases eq_or_ne x key with rfl | hx
    · rw [update_self]
      refine .asked (.inl hcore) ?_
      simpa using hgrant
    · rw [update_of_ne hx]
      exact .expiry (by simp [hx]) (.inl rfl)
  | none =>
    simp only [isSome_none, Bool.false_eq_true, if_false]
    obtain ⟨hrest, hheld, hexpired⟩ := expire_spec h hle
    generalize expireSourceStates server nowMs = expired at hrest hheld hexpired
    have hnone : expired.cores key = none := by
      rcases hexpired key with hsame | ⟨c, hc, -⟩
      · rw [hsame]
        unfold cores
        rw [hlook]
        rfl
      · unfold cores at hc
        rw [hlook] at hc
        cases hc
    split
    · exact ⟨hrest, hheld, fun x => .expiry (by simp) (hexpired x)⟩
    cases memory with
    | false => exact ⟨hrest, hheld, fun x => .expiry (by simp) (hexpired x)⟩
    | true =>
      simp only [Bool.not_true, Bool.false_eq_true, if_false, ne_eq, not_true_eq_false,
        AList.lookup_insert]
      obtain ⟨hrest', hheld', hcores, hgrant⟩ :=
        admit_new hacc hheld hnone (by rw [← hheld.configured]; omega)
      refine ⟨hrest.trans hrest', hheld', ?_⟩
      intro x
      rw [hcores]
      rcases eq_or_ne x key with rfl | hx
      · rw [update_self]
        have hbefore : server.cores x = none := by
          unfold cores
          rw [hlook]
          rfl
        refine .asked (.inr ⟨hbefore, rfl⟩) ?_
        simpa using hgrant
      · rw [update_of_ne hx]
        exact .expiry (by simp [hx]) (hexpired x)

theorem countP_eraseP {peers : List SourcePeer} {which : SourcePeer → Bool} {peer : SourcePeer}
    (hfind : peers.find? which = some peer) (q : SourcePeer → Bool) :
    peers.countP q = (peers.eraseP which).countP q + if q peer then 1 else 0 := by
  induction peers with
  | nil => cases hfind
  | cons p peers ih =>
    by_cases hp : which p = true
    · rw [find?_cons_of_pos hp, some.injEq] at hfind
      subst hfind
      rw [eraseP_cons_of_pos hp, countP_cons]
    · rw [find?_cons_of_neg hp] at hfind
      rw [eraseP_cons_of_neg hp, countP_cons, countP_cons, ih hfind]
      omega

theorem removePeer_spec {which : SourcePeer → Bool} (h : Kept config t server) (hle : t ≤ nowMs) :
    (removePeer server which nowMs).config = server.config ∧
      Kept config nowMs (removePeer server which nowMs) ∧
      ∀ x, CoreMove config nowMs false (server.cores x)
        ((removePeer server which nowMs).cores x) := by
  obtain ⟨hheld, hadm⟩ := h
  unfold removePeer
  cases hfind : server.peers.find? which with
  | none => exact ⟨rfl, ⟨hheld.later hle, hadm⟩, fun x => .expiry rfl (.inl rfl)⟩
  | some peer =>
    have hpeer : peer.sourceAdmitted = true := hadm peer (mem_of_find?_eq_some hfind)
    have hrel : releaseSource { server with peers := server.peers.eraseP which } peer nowMs =
        releaseSourceKey { server with peers := server.peers.eraseP which } peer.sourceKey
          nowMs := by
      unfold releaseSource
      rw [hpeer]
      rfl
    dsimp only
    rw [hrel]
    generalize hleft : ({ server with peers := server.peers.eraseP which } : SourceServer) = left
    have hstill : Held config t (connections server.peers) left := by
      obtain ⟨xs, hshape, hlisted⟩ := hheld.listed
      subst hleft
      exact ⟨hheld.configured, ⟨xs, ⟨hshape.links, hshape.linked, hshape.present⟩, hlisted⟩,
        hheld.book, hheld.states⟩
    have hconns : ∀ x, connections server.peers x =
        connections (server.peers.eraseP which) x + if x = peer.sourceKey then 1 else 0 := by
      intro x
      unfold connections
      rw [countP_eraseP hfind (carries x)]
      congr 1
      rcases eq_or_ne x peer.sourceKey with rfl | hx
      · simp [carries, hpeer]
      · simp [carries, hpeer, hx, hx.symm]
    have hone : connections server.peers peer.sourceKey =
        connections (server.peers.eraseP which) peer.sourceKey + 1 := by
      rw [hconns, if_pos rfl]
    obtain ⟨hrest, hheld', c, hcore, hcores⟩ := release_spec hstill hle hone
    have hpeers : left.peers = server.peers.eraseP which := hleft ▸ rfl
    have hleftCores : left.cores = server.cores := hleft ▸ rfl
    have hupdated : update (connections server.peers) peer.sourceKey
        (connections (server.peers.eraseP which) peer.sourceKey) =
          connections (server.peers.eraseP which) := by
      funext x
      rcases eq_or_ne x peer.sourceKey with rfl | hx
      · rw [update_self]
      · rw [update_of_ne hx, hconns, if_neg hx, Nat.add_zero]
    refine ⟨hrest.config.trans (hleft ▸ rfl), ⟨?_, ?_⟩, ?_⟩
    · rw [hrest.peers, hpeers, ← hupdated]
      exact hheld'
    · intro p hp
      rw [hrest.peers, hpeers] at hp
      exact hadm p (mem_of_mem_eraseP hp)
    · intro x
      rw [hcores, hleftCores]
      rcases eq_or_ne x peer.sourceKey with rfl | hx
      · rw [update_self, ← hleftCores, hcore]
        exact .again rfl (((hstill.book.sound _ c hcore).seen).trans hle)
      · rw [update_of_ne hx]
        exact .expiry rfl (.inl rfl)

/-- Opening a WebSocket binds its source, and releases it again if something fails. -/
theorem websocketOpen_spec
    {session : Session} {source : Except IdentityRejection SourceKey} {bindMs laterMs : ℕ}
    {fault : OpenFault} (henabled : config.policyEnabled = true) (h : Kept config t server)
    (hbind : t ≤ bindMs) (hlater : bindMs ≤ laterMs) :
    Kept config laterMs (websocketOpen server session source bindMs laterMs fault).1 ∧
      ∀ x, CoreMove config laterMs false (server.cores x)
        ((websocketOpen server session source bindMs laterMs fault).1.cores x) := by
  obtain ⟨hheld, hadm⟩ := h
  have hsame : Kept config laterMs server ∧
      ∀ x, CoreMove config laterMs false (server.cores x) (server.cores x) :=
    ⟨⟨hheld.later (hbind.trans hlater), hadm⟩, fun x => .expiry rfl (.inl rfl)⟩
  unfold websocketOpen
  rw [hheld.configured, henabled]
  simp only [Bool.not_true, Bool.false_eq_true, if_false]
  cases source with
  | error rejection => exact hsame
  | ok key =>
    dsimp only
    split
    · exact hsame
    rcases bind_spec hheld hbind henabled with
      ⟨hrej, hbound⟩ | ⟨hres, hrest, hheld', c, hcore, hcores⟩
    · rw [if_pos hrej]
      rw [hbound]
      exact hsame
    · rw [if_neg (by simpa using hres)]
      generalize (bindSourceConnection server key bindMs).1 = bound at hrest hheld' hcores
      have hseen : c.lastSeenMs ≤ bindMs := ((hheld.book.sound key c hcore).seen).trans hbind
      -- the source is released again
      have hfail : Kept config laterMs (releaseSourceKey bound key laterMs) ∧
          ∀ x, CoreMove config laterMs false (server.cores x)
            ((releaseSourceKey bound key laterMs).cores x) := by
        obtain ⟨hrest', hheld'', c', hcore', hcores'⟩ :=
          release_spec hheld' hlater (update_self ..)
        rw [update_idem, update_eq_self] at hheld''
        refine ⟨⟨?_, ?_⟩, ?_⟩
        · rw [hrest'.peers, hrest.peers]
          exact hheld''
        · rw [hrest'.peers, hrest.peers]
          exact hadm
        · intro x
          rw [hcores', hcores, update_idem]
          rcases eq_or_ne x key with rfl | hx
          · rw [hcores, update_self, some.injEq] at hcore'
            rw [update_self, hcore, ← hcore']
            exact .again rfl (hseen.trans hlater)
          · rw [update_of_ne hx]
            exact .expiry rfl (.inl rfl)
      have hpolicy : bound.config.policyEnabled = true := by
        rw [hheld'.configured, henabled]
      unfold openPeer releaseSource
      rw [hpolicy]
      cases fault with
      | peer | id | entry => exact hfail
      | none =>
        have hconns : connections (bound.peers ++ [⟨session, key, true⟩]) =
            update (connections server.peers) key
              (connections server.peers key + 1) := by
          funext x
          unfold connections
          rw [hrest.peers, countP_append]
          rcases eq_or_ne x key with rfl | hx
          · simp [carries]
          · simp [carries, hx, hx.symm]
        obtain ⟨xs, hshape, hlisted⟩ := hheld'.listed
        refine ⟨⟨?_, ?_⟩, ?_⟩
        · rw [hconns]
          exact ⟨hheld'.configured, ⟨xs, ⟨hshape.links, hshape.linked, hshape.present⟩, hlisted⟩,
            hheld'.book.later hlater, hheld'.states⟩
        · intro p hp
          rcases mem_append.mp hp with hp | hp
          · rw [hrest.peers] at hp
            exact hadm p hp
          · rw [mem_singleton.mp hp]
        · intro x
          change CoreMove config laterMs false (server.cores x) (bound.cores x)
          rw [hcores]
          rcases eq_or_ne x key with rfl | hx
          · rw [update_self, hcore]
            exact .again rfl hseen
          · rw [update_of_ne hx]
            exact .expiry rfl (.inl rfl)

theorem httpAdmission_spec {source : Except IdentityRejection SourceKey} {memory : Bool}
    (hacc : config.accepted = true) (henabled : config.policyEnabled = true)
    (h : Kept config t server) (hle : t ≤ nowMs) :
    Kept config nowMs (httpAdmission server source nowMs memory).1 ∧
      ∀ x, CoreMove config nowMs (grantsTo x (.admission source nowMs memory,
          (httpAdmission server source nowMs memory).2))
        (server.cores x) ((httpAdmission server source nowMs memory).1.cores x) := by
  obtain ⟨hheld, hadm⟩ := h
  have hsame : ∀ statusCode retry, statusCode ≠ 0 → Kept config nowMs server ∧
      ∀ x, CoreMove config nowMs
        (grantsTo x (.admission source nowMs memory, .admission statusCode retry))
        (server.cores x) (server.cores x) := by
    intro statusCode retry hnonzero
    refine ⟨⟨hheld.later hle, hadm⟩, fun x => .expiry ?_ (.inl rfl)⟩
    cases source <;> simp [grantsTo, hnonzero]
  unfold httpAdmission
  rw [hheld.configured, henabled]
  simp only [Bool.not_true, Bool.false_eq_true, if_false]
  cases source with
  | error rejection => exact hsame _ _ (by cases rejection <;> decide)
  | ok key =>
    dsimp only
    split
    · exact hsame _ _ (by decide)
    obtain ⟨hrest, hheld', hmoves⟩ :=
      preAdmit_spec hacc henabled hheld hle
    generalize preAdmitSource server key nowMs memory = out at hrest hheld' hmoves
    have hkept : Kept config nowMs out.1 := by
      refine ⟨?_, ?_⟩
      · rw [hrest.peers]
        exact hheld'
      · rw [hrest.peers]
        exact hadm
    split
    next hres =>
      refine ⟨hkept, fun x => ?_⟩
      have hmove := hmoves x
      have hstat : out.2.httpStatus ≠ 0 := by
        cases hout : out.2 <;> decide
      have hgrant : grantsTo x (.admission (.ok key) nowMs memory, .admission out.2.httpStatus
            (if out.2 = .rejectRate ∨ out.2 = .rejectConcurrency then 1 else 0)) = false := by
        simp [grantsTo, hstat]
      rw [decide_eq_false hres, Bool.and_false] at hmove
      rw [hgrant]
      exact hmove
    next hres =>
      refine ⟨hkept, fun x => ?_⟩
      have hmove := hmoves x
      rw [not_not] at hres
      have hgrant : grantsTo x (.admission (.ok key) nowMs memory, .admission 0 0) =
          decide (x = key) := by
        rcases eq_or_ne x key with rfl | hx
        · simp [grantsTo]
        · simp [grantsTo, hx, hx.symm]
      rw [decide_eq_true hres, Bool.and_true] at hmove
      rw [hgrant]
      exact hmove

/-- Every call keeps the books, and moves the core of a source in one of three ways. -/
theorem step_spec {op : SourceOp} (hacc : config.accepted = true)
    (henabled : config.policyEnabled = true) (h : Kept config t server)
    (hreads : Reads times t op) :
    Kept config (after times t op) (sourceMachine.next server op) ∧
      ∀ x, CoreMove config (after times t op)
        (grantsTo x (op, sourceMachine.answer server op))
        (server.cores x) ((sourceMachine.next server op).cores x) := by
  have hfirst : ∀ u ∈ op.times, t ≤ u := fun u hu => (hreads.mem_le hu).1
  cases op with
  | setRunning running =>
    obtain ⟨hheld, hadm⟩ := h
    obtain ⟨xs, hshape, hlisted⟩ := hheld.listed
    exact ⟨⟨⟨hheld.configured, ⟨xs, ⟨hshape.links, hshape.linked, hshape.present⟩, hlisted⟩,
      hheld.book, hheld.states⟩, hadm⟩, fun x => .expiry rfl (.inl rfl)⟩
  | admission source nowMs memory =>
    exact httpAdmission_spec hacc henabled h (hfirst nowMs (by simp [times]))
  | «open» session source bindMs laterMs fault =>
    have hbind := hfirst bindMs (by simp [times])
    have hlater : bindMs ≤ laterMs := by
      have hpair := (pairwise_cons.mp hreads).2
      exact (pairwise_cons.mp hpair).1 laterMs (by simp)
    exact websocketOpen_spec henabled h hbind hlater
  | close session nowMs | dropFirst nowMs =>
    obtain ⟨-, hkept, hmoves⟩ := removePeer_spec h (hfirst nowMs (by simp [times]))
    exact ⟨hkept, hmoves⟩
  | cleanup nowMs =>
    obtain ⟨hrest, hheld, hexpired⟩ := expire_spec h.1 (hfirst nowMs (by simp [times]))
    refine ⟨⟨?_, ?_⟩, fun x => .expiry rfl (hexpired x)⟩
    · change Held config nowMs (connections (expireSourceStates server nowMs).peers) _
      rw [hrest.peers]
      exact hheld
    · change ∀ peer ∈ (expireSourceStates server nowMs).peers, _
      rw [hrest.peers]
      exact h.2

theorem kept_create : Kept config 0 (createSources config) := by
  refine ⟨⟨rfl, ⟨[], ⟨?_, ?_, ?_⟩, ?_, List.Pairwise.nil⟩, ⟨?_, ?_, ?_, ?_⟩, Nat.zero_le _⟩, ?_⟩
  · exact Links.holds_empty
  · intro key source hlook
    simp [createSources] at hlook
  · simp
  · intro x
    simp [createSources, cores]
  · intro key c hc
    simp [createSources, cores] at hc
  · intro key hpos
    simp [createSources, connections] at hpos
  · intro _ key
    simp [createSources, connections]
  · intro key c hc
    simp [createSources, cores] at hc
  · simp [createSources]

end Steps

variable {config : SourceConfig}

theorem Kept.sound {server : SourceServer} {t : ℕ} (h : Kept config t server) :
    SourcesSound server := by
  obtain ⟨hheld, hadm⟩ := h
  obtain ⟨xs, hshape, hlisted⟩ := hheld.listed
  have hact : ∀ key source, server.sourceStates.lookup key = some source →
      source.activeConnections = connections server.peers key := fun key source hlook =>
    hheld.book.active key _ (cores_of_lookup hlook)
  refine ⟨hact, ?_, ?_, ?_, xs, hshape.links, ?_, ?_⟩
  · intro peer hpeer
    refine ⟨hadm peer hpeer, ?_⟩
    have hpos : 0 < connections server.peers peer.sourceKey :=
      countP_pos_iff.mpr ⟨peer, hpeer, by simp [carries, hadm peer hpeer]⟩
    obtain ⟨c, hc⟩ := Option.isSome_iff_exists.mp (hheld.book.live _ hpos)
    obtain ⟨source, hlook, -⟩ := lookup_of_cores hc
    rw [hlook]
    rfl
  · intro hon key source hlook
    rw [hheld.configured] at hon ⊢
    have hlimit := hheld.book.limit hon key
    rw [hact key source hlook]
    omega
  · rw [hheld.configured]
    exact hheld.states
  · intro key
    rw [hlisted.mem]
    have hnone : connections server.peers key = 0 ↔
        ∀ peer ∈ server.peers, carries key peer = false := by
      unfold connections
      rw [countP_eq_zero]
      simp
    constructor
    · rintro ⟨c, hc, hidle⟩
      obtain ⟨source, hlook, rfl⟩ := lookup_of_cores hc
      refine ⟨by rw [hlook]; rfl, hnone.mp ?_⟩
      rw [← hact key source hlook]
      exact hidle
    · rintro ⟨hsome, hfree⟩
      obtain ⟨source, hlook⟩ := Option.isSome_iff_exists.mp hsome
      refine ⟨source.core, cores_of_lookup hlook, ?_⟩
      exact (hact key source hlook).trans (hnone.mpr hfree)
  · refine hlisted.order.imp ?_
    intro a b hab
    have hseen : ∀ key, lastSeen server key = seen server.cores key := by
      intro key
      unfold lastSeen seen cores
      rw [Option.map_map]
      rfl
    rw [hseen, hseen]
    exact hab

theorem granted_spent (ops : List SourceOp) (key : SourceKey) (start finish : ℕ) :
    1000 * granted config ops key start finish = spent sourceMachine
        (fun op answer => if grantsIn key start finish (op, answer) then 1000 else 0)
        (createSources config) ops := by
  unfold granted spent
  generalize sourceMachine.transcript (createSources config) ops = calls
  induction calls with
  | nil => rfl
  | cons call calls ih =>
    rw [countP_cons, map_cons, sum_cons, ← ih, Nat.mul_add, Nat.add_comm]
    congr 1
    obtain ⟨op, answer⟩ := call
    dsimp only
    cases grantsIn key start finish (op, answer) <;> rfl

theorem metered (hacc : config.accepted = true) (henabled : config.policyEnabled = true)
    (hrate : 0 < config.sourceAdmissionsPerSecond) (key : SourceKey) (start finish : ℕ) :
    Metered sourceMachine times (Kept config)
      (fun server op => Refilled config ∨ KeepsIn key start finish server op)
      (fun op answer => if grantsIn key start finish (op, answer) then 1000 else 0)
      (fun server t => level config (server.cores key) t)
      config.bucketCapacity config.sourceAdmissionsPerSecond.toNat start finish where
  capacity := fun server t => level_le_capacity _
  rise := fun server t t' _ => level_rise _
  pays := by
    intro t server op hkept hreads hcond hstart hfinish
    obtain ⟨-, hmoves⟩ := step_spec hacc henabled hkept hreads
    have hpaid := (hmoves key).level_le hacc hrate
      (fun c hc => hkept.1.book.sound key c hc) (by
        rcases hcond with hrefilled | hkeeps
        · exact .inl hrefilled
        · right
          intro hsome
          unfold cores at hsome ⊢
          rw [isSome_map] at hsome ⊢
          cases op with
          | setRunning running => exact hsome
          | _ => exact hkeeps ⟨after times t _, by simp [times, after],
              hstart, hfinish⟩ hsome)
    refine le_trans (Nat.add_le_add_left ?_ _) hpaid
    unfold grantsIn
    cases grantsTo key (op, sourceMachine.answer server op) <;> simp
    split <;> simp
  outside := by
    intro t server op hreads houtside
    have hnot : grantsIn key start finish (op, sourceMachine.answer server op) = false := by
      cases op with
      | admission source nowMs memory =>
        change nowMs < start ∨ finish < nowMs at houtside
        have hwin : ([nowMs].all fun t => start ≤ t && t ≤ finish) = false := by
          simp
          omega
        unfold grantsIn
        rw [show times _ = [nowMs] from rfl, hwin, Bool.and_false]
      | _ => rfl
    rw [hnot]
    rfl

/-- The limits of a source hold in every run in which the clock never goes back. -/
theorem source_limits (config : SourceConfig) (haccepted : config.accepted = true)
    (henabled : config.policyEnabled = true) (ops : List SourceOp)
    (hclock : InOrder times 0 ops) :
    SourcesSound (sourceMachine.run (createSources config) ops) ∧
      ∀ key start d, 0 < config.sourceAdmissionsPerSecond → (Refilled config ∨
          sourceMachine.Along (KeepsIn key start (start + d)) (createSources config) ops) →
        granted config ops key start (start + d) ≤ config.sourceAdmissionBurst.toNat +
            config.sourceAdmissionsPerSecond.toNat * d / 1000 := by
  have hstep : ∀ t server op, Kept config t server → Reads times t op →
      Kept config (after times t op) (sourceMachine.next server op) :=
    fun t server op hkept hreads => (step_spec haccepted henabled hkept hreads).1
  refine ⟨(run_invariant hstep kept_create hclock).sound, ?_⟩
  intro key start d hrate hcond
  have hkept : sourceMachine.Along
      (fun server op => Refilled config ∨ KeepsIn key start (start + d) server op)
      (createSources config) ops := by
    rcases hcond with hrefilled | hkeeps
    · exact sourceMachine.along_imp (fun _ _ _ => .inl hrefilled)
        (sourceMachine.along_of_forall (C := fun _ => True) (fun _ _ => trivial) _)
    · exact sourceMachine.along_imp (fun _ _ h => .inr h) hkeeps
  have hspent := spent_le (metered haccepted henabled hrate key start (start + d)) hstep
    (Nat.le_add_right _ _) kept_create hclock hkept
  rw [← granted_spent] at hspent
  unfold SourceConfig.bucketCapacity rateTokenUnits at hspent
  have hd : start + d - start = d := by omega
  rw [hd] at hspent
  omega

def someSource : SourceKey :=
  ⟨4, [192, 0, 2, 1], 0⟩

/-- One connection and one admission per second, with a state that is kept for a second: of
three admissions in two seconds one is refused. -/
theorem source_limits_one_second :
    let config : SourceConfig := ⟨1, 1, 1, 4, 1000⟩
    let ops : List SourceOp :=
      [.setRunning true, .admission (.ok someSource) 5 true,
        .open ⟨1, 1, 1, 1⟩ (.ok someSource) 6 7 .none, .admission (.ok someSource) 8 true,
        .close ⟨1, 1, 1, 1⟩ 9, .admission (.ok someSource) 1500 true, .cleanup 2000]
    SourcesSound (sourceMachine.run (createSources config) ops) ∧
      granted config ops someSource 5 (5 + 2000) = 2 ∧
        granted config ops someSource 5 (5 + 2000) ≤ 3 := by
  intro config ops
  have hlimits := source_limits config (by decide) (by decide) ops (by decide)
  refine ⟨hlimits.1, by decide, ?_⟩
  exact le_trans
    (hlimits.2 someSource 5 2000 (by decide) (.inl (by unfold Refilled; decide))) (by decide)

/-- A state that is kept for a millisecond forgets the bucket: the same source is admitted
again a millisecond later. -/
theorem bucket_forgotten :
    ¬ ∀ config : SourceConfig, config.accepted = true → config.policyEnabled = true →
      0 < config.sourceAdmissionsPerSecond → ∀ ops, InOrder times 0 ops → ∀ key start d,
        granted config ops key start (start + d) ≤ config.sourceAdmissionBurst.toNat +
            config.sourceAdmissionsPerSecond.toNat * d / 1000 := by
  intro h
  have hbound := h ⟨0, 1, 1, 1, 1⟩ (by decide) (by decide) (by decide)
    [.setRunning true, .admission (.ok someSource) 1 true, .cleanup 2,
      .admission (.ok someSource) 2 true] (by decide) someSource 1 1
  revert hbound
  decide

end TurboMedia.Signaling
