import TurboMedia.Signaling.SourceLists

/-!
# Signaling: the books of the sources

`Book` is what the cores of the source states have to do with the connections of each source,
`Listed` what they have to do with the list of inactive sources.  Together they are `Held`.

**Results.**  One lemma per operation: binding (`bind_spec`), release (`release_spec`), expiry
(`expire_spec`) and the question for admission (`admit_spec`) keep `Held`, and say what has
become of the cores.
-/

namespace TurboMedia.Signaling

open List Function Option

open LinkedList

section Buckets

variable {rate capacity nowMs : ℕ} {bucket : TokenBucket}

theorem refill_tokens (hrate : 0 < rate) (htokens : bucket.tokens ≤ capacity) :
    (bucket.refill rate capacity nowMs).tokens =
      if bucket.lastRefillMs = 0 then capacity
      else min capacity (bucket.tokens + rate * (nowMs - bucket.lastRefillMs)) := by
  unfold TokenBucket.refill
  by_cases hzero : bucket.lastRefillMs = 0
  · rw [if_pos hzero, if_pos hzero]
  rw [if_neg hzero, if_neg hzero]
  split
  · dsimp only
    generalize nowMs - bucket.lastRefillMs = elapsed
    have hclip : (if capacity ≤ bucket.tokens then capacity else bucket.tokens) =
        bucket.tokens := by
      split <;> omega
    rw [hclip, Nat.mul_comm elapsed rate]
    split
    · rw [if_pos (Nat.zero_le _)]
      omega
    · have hceil : (capacity - bucket.tokens + rate - 1) / rate ≤ elapsed ↔
          capacity - bucket.tokens ≤ rate * elapsed := by
        rw [Nat.div_le_iff_le_mul_add_pred hrate]
        omega
      by_cases hfull : capacity - bucket.tokens ≤ rate * elapsed
      · rw [if_pos (hceil.mpr hfull)]
        omega
      · rw [if_neg (fun h => hfull (hceil.mp h))]
        omega
  · have hsame : nowMs - bucket.lastRefillMs = 0 := by omega
    rw [hsame, Nat.mul_zero]
    omega

theorem refill_last :
    (bucket.refill rate capacity nowMs).lastRefillMs =
      if bucket.lastRefillMs = 0 then max nowMs 1 else max bucket.lastRefillMs nowMs := by
  unfold TokenBucket.refill
  by_cases hzero : bucket.lastRefillMs = 0
  · rw [if_pos hzero, if_pos hzero]
    dsimp only
    split <;> omega
  · rw [if_neg hzero, if_neg hzero]
    split
    · dsimp only
      omega
    · omega

theorem consume_tokens (bucket : TokenBucket) {refillRate burst : ℤ}
    (hrate : 0 < refillRate) (hburst : 0 < burst) :
    (consumeTokenBucket refillRate burst bucket nowMs).1.tokens +
        (if (consumeTokenBucket refillRate burst bucket nowMs).2 then 1000 else 0) =
      (bucket.refill refillRate.toNat (burst.toNat * rateTokenUnits) nowMs).tokens ∧
    (consumeTokenBucket refillRate burst bucket nowMs).1.lastRefillMs =
      (bucket.refill refillRate.toNat (burst.toNat * rateTokenUnits) nowMs).lastRefillMs := by
  unfold consumeTokenBucket
  rw [if_neg (by omega), if_neg (by omega)]
  by_cases hfew : (bucket.refill refillRate.toNat (burst.toNat * rateTokenUnits) nowMs).tokens <
      rateTokenUnits
  · rw [if_pos hfew]
    simp
  · rw [if_neg hfew]
    unfold rateTokenUnits at hfew ⊢
    refine ⟨?_, rfl⟩
    rw [if_pos rfl]
    dsimp only
    omega

end Buckets

section Books

variable {config : SourceConfig} {cores : SourceKey → Option SourceCore}
variable {xs : List SourceKey} {key : SourceKey}

def seen (cores : SourceKey → Option SourceCore) (key : SourceKey) : ℕ :=
  ((cores key).map SourceCore.lastSeenMs).getD 0

/-- The list has the other sources without connections, in order. -/
structure ListedBut (key : SourceKey) (cores : SourceKey → Option SourceCore)
    (xs : List SourceKey) : Prop where
  mem : ∀ x, x ≠ key →
    (x ∈ xs ↔ ∃ c, cores x = some c ∧ c.activeConnections = 0)
  order : (xs.erase key).Pairwise (fun a b => seen cores a ≤ seen cores b)

/-- The list has the sources without connections, in order. -/
structure Listed (cores : SourceKey → Option SourceCore) (xs : List SourceKey) : Prop where
  mem : ∀ x, x ∈ xs ↔ ∃ c, cores x = some c ∧ c.activeConnections = 0
  order : xs.Pairwise (fun a b => seen cores a ≤ seen cores b)

theorem Listed.but (h : Listed cores xs) (key : SourceKey) :
    ListedBut key cores xs where
  mem := fun x _ => h.mem x
  order := h.order.sublist erase_sublist

theorem seen_update_ne {x : SourceKey} {c : Option SourceCore} (hx : x ≠ key) :
    seen (update cores key c) x = seen cores x := by
  unfold seen
  rw [update_of_ne hx]

theorem order_update {ys : List SourceKey} {c : Option SourceCore} (hkey : key ∉ ys)
    (h : ys.Pairwise (fun a b => seen cores a ≤ seen cores b)) :
    ys.Pairwise (fun a b =>
      seen (update cores key c) a ≤ seen (update cores key c) b) := by
  refine List.Pairwise.imp_of_mem ?_ h
  intro a b ha hb hab
  rwa [seen_update_ne (ne_of_mem_of_not_mem ha hkey), seen_update_ne (ne_of_mem_of_not_mem hb hkey)]

theorem ListedBut.touch {c : SourceCore} {nowMs : ℕ} (h : ListedBut key cores xs)
    (hnodup : xs.Nodup) (hidle : c.activeConnections = 0) (hnow : c.lastSeenMs = nowMs)
    (hseen : ∀ x, seen cores x ≤ nowMs) :
    Listed (update cores key (some c)) (xs.erase key ++ [key]) where
  mem := by
    intro x
    rw [mem_append, mem_singleton]
    rcases eq_or_ne x key with rfl | hx
    · simp [hidle]
    · rw [mem_erase_of_ne hx, update_of_ne hx, h.mem x hx]
      simp [hx]
  order := by
    have hnot : key ∉ xs.erase key := fun hmem => (hnodup.mem_erase_iff.mp hmem).1 rfl
    rw [pairwise_append]
    refine ⟨order_update hnot h.order, pairwise_singleton _ _, ?_⟩
    intro a ha b hb
    obtain rfl := mem_singleton.mp hb
    have hlast : seen (update cores b (some c)) b = nowMs := by
      unfold seen
      rw [update_self]
      exact hnow
    rw [seen_update_ne (ne_of_mem_of_not_mem ha hnot), hlast]
    exact hseen a

theorem ListedBut.away {c : Option SourceCore} (h : ListedBut key cores xs) (hnodup : xs.Nodup)
    (hbusy : ∀ core, c = some core → core.activeConnections ≠ 0) :
    Listed (update cores key c) (xs.erase key) where
  mem := by
    intro x
    rcases eq_or_ne x key with rfl | hx
    · rw [update_self]
      constructor
      · exact fun hmem => absurd rfl (hnodup.mem_erase_iff.mp hmem).1
      · rintro ⟨core, hcore, hidle⟩
        exact absurd hidle (hbusy core hcore)
    · rw [mem_erase_of_ne hx, update_of_ne hx]
      exact h.mem x hx
  order :=
    order_update (fun hmem => (hnodup.mem_erase_iff.mp hmem).1 rfl) h.order

def SourceConfig.bucketCapacity (config : SourceConfig) : ℕ :=
  config.sourceAdmissionBurst.toNat * rateTokenUnits

/-- A core is as the clock and the configuration allow. -/
structure CoreSound (config : SourceConfig) (t : ℕ) (c : SourceCore) : Prop where
  seen : c.lastSeenMs ≤ t
  refill : c.rateLastRefillMs ≤ c.lastSeenMs ∨ c.lastSeenMs = 0 ∧ c.rateLastRefillMs ≤ 1
  tokens : 0 < config.sourceAdmissionsPerSecond → c.rateTokens ≤ config.bucketCapacity

/-- What the cores have to do with the connections of each source. -/
structure Book (config : SourceConfig) (t : ℕ) (conns : SourceKey → ℕ)
    (cores : SourceKey → Option SourceCore) : Prop where
  active : ∀ key c, cores key = some c → c.activeConnections = conns key
  live : ∀ key, 0 < conns key → (cores key).isSome = true
  limit : 0 < config.maxConnectionsPerSource →
    ∀ key, conns key ≤ config.maxConnectionsPerSource.toNat
  sound : ∀ key c, cores key = some c → CoreSound config t c

variable {t nowMs : ℕ} {conns : SourceKey → ℕ}

theorem CoreSound.later {c : SourceCore} (h : CoreSound config t c) (hle : t ≤ nowMs) :
    CoreSound config nowMs c where
  seen := h.seen.trans hle
  refill := h.refill
  tokens := h.tokens

theorem CoreSound.again {c : SourceCore} (h : CoreSound config t c) (hle : t ≤ nowMs) (active : ℕ) :
    CoreSound config nowMs ⟨c.rateLastRefillMs, c.rateTokens, nowMs, active⟩ where
  seen := le_rfl
  refill := by
    have hseen := h.seen
    rcases h.refill with hrefill | ⟨hzero, hone⟩
    · exact .inl (hrefill.trans (hseen.trans hle))
    · dsimp only
      omega
  tokens := h.tokens

theorem Book.later (h : Book config t conns cores) (hle : t ≤ nowMs) :
    Book config nowMs conns cores where
  active := h.active
  live := h.live
  limit := h.limit
  sound := fun key c hc => (h.sound key c hc).later hle

theorem Book.seen_le (h : Book config t conns cores) (x : SourceKey) : seen cores x ≤ t := by
  unfold seen
  cases hx : cores x with
  | none => exact Nat.zero_le t
  | some c => exact (h.sound x c hx).seen

/-- The core of one source is replaced, and with it the number of its connections. -/
theorem Book.put {c : SourceCore} {n : ℕ} (h : Book config t conns cores)
    (hact : c.activeConnections = n)
    (hlimit : 0 < config.maxConnectionsPerSource → n ≤ config.maxConnectionsPerSource.toNat)
    (hsound : CoreSound config t c) :
    Book config t (update conns key n) (update cores key (some c)) where
  active := by
    intro x core hcore
    rcases eq_or_ne x key with rfl | hx
    · rw [update_self, some.injEq] at hcore
      rw [update_self, ← hcore, hact]
    · rw [update_of_ne hx] at hcore ⊢
      exact h.active x core hcore
  live := by
    intro x hpos
    rcases eq_or_ne x key with rfl | hx
    · rw [update_self]
      rfl
    · rw [update_of_ne hx] at hpos ⊢
      exact h.live x hpos
  limit := by
    intro hon x
    rcases eq_or_ne x key with rfl | hx
    · rw [update_self]
      exact hlimit hon
    · rw [update_of_ne hx]
      exact h.limit hon x
  sound := by
    intro x core hcore
    rcases eq_or_ne x key with rfl | hx
    · rw [update_self, some.injEq] at hcore
      exact hcore ▸ hsound
    · rw [update_of_ne hx] at hcore
      exact h.sound x core hcore

theorem Book.forget (h : Book config t conns cores) (hnone : conns key = 0) :
    Book config t conns (update cores key none) where
  active := by
    intro x core hcore
    rcases eq_or_ne x key with rfl | hx
    · rw [update_self] at hcore
      cases hcore
    · rw [update_of_ne hx] at hcore
      exact h.active x core hcore
  live := by
    intro x hpos
    rcases eq_or_ne x key with rfl | hx
    · omega
    · rw [update_of_ne hx]
      exact h.live x hpos
  limit := h.limit
  sound := by
    intro x core hcore
    rcases eq_or_ne x key with rfl | hx
    · rw [update_self] at hcore
      cases hcore
    · rw [update_of_ne hx] at hcore
      exact h.sound x core hcore

end Books

variable {config : SourceConfig} {server : SourceServer} {key : SourceKey}
variable {t nowMs : ℕ} {conns : SourceKey → ℕ}

/-- The state of the sources, with the number of connections each of them has. -/
structure Held (config : SourceConfig) (t : ℕ) (conns : SourceKey → ℕ)
    (server : SourceServer) : Prop where
  configured : server.config = config
  listed : ∃ xs, Shape server xs ∧ Listed server.cores xs
  book : Book config t conns server.cores
  states : server.sourceStates.keys.length ≤ config.maxSourceStates

theorem Held.later (h : Held config t conns server) (hle : t ≤ nowMs) :
    Held config nowMs conns server :=
  ⟨h.configured, h.listed, h.book.later hle, h.states⟩

theorem cores_of_lookup {source : SourceState}
    (hlook : server.sourceStates.lookup key = some source) :
    server.cores key = some source.core := by
  unfold SourceServer.cores
  rw [hlook]
  rfl

theorem lookup_of_cores {c : SourceCore} (hcore : server.cores key = some c) :
    ∃ source, server.sourceStates.lookup key = some source ∧ source.core = c :=
  map_eq_some_iff.mp hcore

theorem bind_spec (h : Held config t conns server) (hle : t ≤ nowMs)
    (henabled : config.policyEnabled = true) :
    ((bindSourceConnection server key nowMs).2 ≠ .admitted ∧
        (bindSourceConnection server key nowMs).1 = server) ∨
      ((bindSourceConnection server key nowMs).2 = .admitted ∧
        SameRest server (bindSourceConnection server key nowMs).1 ∧
        Held config nowMs (update conns key (conns key + 1))
          (bindSourceConnection server key nowMs).1 ∧ ∃ c, server.cores key = some c ∧
          (bindSourceConnection server key nowMs).1.cores = update server.cores key
              (some ⟨c.rateLastRefillMs, c.rateTokens, nowMs, conns key + 1⟩)) := by
  unfold bindSourceConnection
  rw [h.configured, henabled]
  simp only [Bool.not_true, Bool.false_eq_true, if_false]
  cases hlook : server.sourceStates.lookup key with
  | none => exact .inl ⟨by simp, rfl⟩
  | some source =>
    dsimp only
    have hcore := cores_of_lookup hlook
    have hact : source.activeConnections = conns key := h.book.active key _ hcore
    split
    · exact .inl ⟨by simp, rfl⟩
    next hfull =>
      right
      obtain ⟨xs, hshape, hlisted⟩ := h.listed
      have hrest : SameRest server ((unlinkInactiveSource server key).update key (fun s =>
          { s with lastSeenMs := nowMs, activeConnections := s.activeConnections + 1 })) :=
        unlink_rest.trans sameRest_update
      have hcores : ((unlinkInactiveSource server key).update key (fun s =>
          { s with
            lastSeenMs := nowMs
            activeConnections := s.activeConnections + 1 })).cores =
          update server.cores key
            (some ⟨source.core.rateLastRefillMs, source.core.rateTokens, nowMs,
              conns key + 1⟩) := by
        rw [cores_update (g := fun c => ⟨c.rateLastRefillMs, c.rateTokens, nowMs,
          c.activeConnections + 1⟩) (fun _ => rfl), cores_unlink, hcore, ← hact]
        rfl
      refine ⟨rfl, hrest, ⟨hrest.config.trans h.configured, ⟨xs.erase key, ?_, ?_⟩, ?_, ?_⟩,
        source.core, hcore, hcores⟩
      · exact shape_update (shape_unlink hshape key) (fun _ => rfl) (fun _ => rfl)
          (fun _ => rfl)
      · rw [hcores]
        refine (hlisted.but key).away hshape.links.nodup ?_
        intro core hsome
        obtain rfl := some.inj hsome
        exact Nat.succ_ne_zero _
      · rw [hcores]
        refine (h.book.later hle).put rfl ?_ ((h.book.sound key _ hcore).again hle _)
        intro hon
        have hroom : ¬ config.maxConnectionsPerSource.toNat ≤ source.activeConnections :=
          fun hmax => hfull ⟨hon, hmax⟩
        omega
      · rw [size_update, unlink_size]
        exact h.states

theorem release_spec {n : ℕ} (h : Held config t conns server) (hle : t ≤ nowMs)
    (hconns : conns key = n + 1) :
    SameRest server (releaseSourceKey server key nowMs) ∧
      Held config nowMs (update conns key n) (releaseSourceKey server key nowMs) ∧
      ∃ c, server.cores key = some c ∧
        (releaseSourceKey server key nowMs).cores = update server.cores key
            (some ⟨c.rateLastRefillMs, c.rateTokens, nowMs, n⟩) := by
  obtain ⟨c, hcore⟩ := isSome_iff_exists.mp (h.book.live key (by omega))
  obtain ⟨source, hlook, rfl⟩ := lookup_of_cores hcore
  have hact : source.activeConnections = n + 1 :=
    (h.book.active key _ hcore).trans hconns
  obtain ⟨xs, hshape, hlisted⟩ := h.listed
  have hnot : key ∉ xs := by
    intro hmem
    obtain ⟨core, hsome, hidle⟩ := (hlisted.mem key).mp hmem
    rw [hcore, some.injEq] at hsome
    rw [← hsome] at hidle
    change source.activeConnections = 0 at hidle
    omega
  -- the state after the count was lowered
  generalize hlowered : server.update key (fun s =>
    { s with activeConnections := s.activeConnections - 1, lastSeenMs := nowMs }) = lowered
  have hrest : SameRest server lowered := hlowered ▸ sameRest_update
  have hcores : lowered.cores = update server.cores key
      (some ⟨source.core.rateLastRefillMs, source.core.rateTokens, nowMs, n⟩) := by
    rw [← hlowered, cores_update (g := fun c => ⟨c.rateLastRefillMs, c.rateTokens, nowMs,
      c.activeConnections - 1⟩) (fun _ => rfl), hcore]
    have hcount : source.core.activeConnections - 1 = n := by
      change source.activeConnections - 1 = n
      omega
    simp [hcount]
  have hshape' : Shape lowered xs :=
    hlowered ▸ shape_update hshape (fun _ => rfl) (fun _ => rfl) (fun _ => rfl)
  have hsize : lowered.sourceStates.keys.length = server.sourceStates.keys.length :=
    hlowered ▸ size_update
  have hbook : Book config nowMs (update conns key n) (update server.cores key
        (some ⟨source.core.rateLastRefillMs, source.core.rateTokens, nowMs, n⟩)) := by
    refine (h.book.later hle).put rfl ?_ ((h.book.sound key _ hcore).again hle _)
    intro hon
    have hlimit := h.book.limit hon key
    omega
  have hrel : releaseSourceKey server key nowMs =
      if source.activeConnections - 1 = 0 then linkInactiveSource lowered key nowMs
      else lowered := by
    unfold releaseSourceKey
    rw [hlook]
    simp [hact, hlowered]
  rw [hrel]
  split
  · obtain rfl : n = 0 := by omega
    obtain ⟨s, hs, hscore⟩ := lookup_of_cores (by rw [hcores, update_self])
    have hidle : s.activeConnections = 0 := congrArg SourceCore.activeConnections hscore
    obtain ⟨hlinked, hlinkedCores, hlinkedRest, hlinkedSize⟩ :=
      shape_link hshape' hs hidle
    have hfinal : (linkInactiveSource lowered key nowMs).cores = update server.cores key
        (some ⟨source.core.rateLastRefillMs, source.core.rateTokens, nowMs, 0⟩) := by
      rw [hlinkedCores, hcores, update_idem, hscore]
    refine ⟨hrest.trans hlinkedRest,
      ⟨(hrest.trans hlinkedRest).config.trans h.configured, ⟨_, hlinked, ?_⟩, ?_, ?_⟩,
      source.core, hcore, hfinal⟩
    · rw [hfinal]
      exact (hlisted.but key).touch hshape.links.nodup rfl rfl
        (fun x => (h.book.seen_le x).trans hle)
    · rw [hfinal]
      exact hbook
    · rw [hlinkedSize, hsize]
      exact h.states
  · refine ⟨hrest, ⟨hrest.config.trans h.configured, ⟨xs, hshape', ?_⟩, ?_, ?_⟩,
      source.core, hcore, hcores⟩
    · rw [hcores]
      have hlisted' := (hlisted.but key).away (c := some ⟨source.core.rateLastRefillMs,
        source.core.rateTokens, nowMs, n⟩) hshape.links.nodup (by
          intro core hsome
          obtain rfl := some.inj hsome
          change n ≠ 0
          omega)
      rwa [erase_of_not_mem hnot] at hlisted'
    · rw [hcores]
      exact hbook
    · rw [hsize]
      exact h.states

/-- What expiry does to the core of a source. -/
def ExpiredOrKept (config : SourceConfig) (nowMs : ℕ) (before after : Option SourceCore) :
    Prop :=
  after = before ∨ ∃ c, before = some c ∧ c.activeConnections = 0 ∧ c.lastSeenMs ≤ nowMs ∧
      config.sourceStateTtlMs.toNat ≤ nowMs - c.lastSeenMs ∧ after = none

/-- The loop takes idle sources away, oldest first, and stops at one that is too young. -/
theorem expireLoop_spec (fuel : ℕ) (h : Held config nowMs conns server) :
    SameRest server (expireLoop nowMs fuel server) ∧
      Held config nowMs conns (expireLoop nowMs fuel server) ∧
      (∀ x, ExpiredOrKept config nowMs (server.cores x) ((expireLoop nowMs fuel server).cores x)) ∧
      (server.sourceStates.keys.length ≤ fuel →
        ∀ x source, (expireLoop nowMs fuel server).inactiveSourcesHead = some x →
          (expireLoop nowMs fuel server).sourceStates.lookup x = some source →
            nowMs < source.lastSeenMs ∨
              nowMs - source.lastSeenMs < config.sourceStateTtlMs.toNat) := by
  induction fuel generalizing server with
  | zero =>
    refine ⟨.refl, h, fun x => .inl rfl, ?_⟩
    intro hfuel x source _ hlook
    have hmem : x ∈ server.sourceStates.keys :=
      AList.mem_keys.mp (AList.lookup_isSome.mp (by rw [show
        server.sourceStates.lookup x = some source from hlook]; rfl))
    have hpos := length_pos_of_mem hmem
    omega
  | succ fuel ih =>
    rw [expireLoop]
    cases hhead : server.inactiveSourcesHead with
    | none =>
      refine ⟨.refl, h, fun x => .inl rfl, ?_⟩
      intro _ x source hx
      rw [show server.inactiveSourcesHead = some x from hx] at hhead
      cases hhead
    | some key =>
      dsimp only
      obtain ⟨xs, hshape, hlisted⟩ := h.listed
      obtain ⟨back, rfl⟩ := hshape.links.head_cons hhead
      have hkey : key ∈ key :: back := mem_cons_self
      obtain ⟨source, hlook⟩ := isSome_iff_exists.mp (hshape.present key hkey)
      have hcore := cores_of_lookup hlook
      rw [hlook]
      dsimp only
      split
      next hyoung =>
        refine ⟨.refl, h, fun x => .inl rfl, ?_⟩
        intro _ x s hx hs
        rw [hhead, some.injEq] at hx
        subst hx
        rw [hlook, some.injEq] at hs
        subst hs
        rw [h.configured] at hyoung
        exact hyoung
      next hyoung =>
        -- the oldest source is taken out
        generalize hgone : ({ unlinkInactiveSource server key with
          sourceStates := (unlinkInactiveSource server key).sourceStates.erase key } :
            SourceServer) = gone
        have hnot : key ∉ back := (nodup_cons.mp hshape.links.nodup).1
        have hrest : SameRest server gone := by
          rw [← hgone]
          exact unlink_rest.trans ⟨rfl, rfl, rfl⟩
        have hcores : gone.cores = update server.cores key none := by
          rw [← hgone, cores_erase, cores_unlink]
        have hback : (key :: back).erase key = back := erase_cons_head ..
        have hidle : source.core.activeConnections = 0 := by
          obtain ⟨c, hc, hzero⟩ := (hlisted.mem key).mp hkey
          rw [hcore, some.injEq] at hc
          rw [hc]
          exact hzero
        have hsize : gone.sourceStates.keys.length + 1 =
            server.sourceStates.keys.length := by
          rw [← hgone, ← @unlink_size server]
          refine size_erase ?_
          have hsome : (unlinkInactiveSource server key).cores key = some source.core := by
            rw [cores_unlink, hcore]
          obtain ⟨s, hs, -⟩ := lookup_of_cores hsome
          rw [hs]
          rfl
        have hheld : Held config nowMs conns gone := by
          refine ⟨hrest.config.trans h.configured, ⟨back, ?_, ?_⟩, ?_, ?_⟩
          · rw [← hgone]
            have hunlinked := shape_unlink hshape key
            rw [hback] at hunlinked
            exact shape_erase hunlinked hnot
          · rw [hcores, ← hback]
            exact (hlisted.but key).away hshape.links.nodup (fun _ hsome => by cases hsome)
          · rw [hcores]
            refine h.book.forget ?_
            rw [← h.book.active key _ hcore]
            exact hidle
          · have hstates := h.states
            omega
        obtain ⟨hrest', hheld', hexpired, hstops⟩ := ih hheld
        refine ⟨hrest.trans hrest', hheld', ?_, fun hfuel => hstops (by omega)⟩
        intro x
        have hx := hexpired x
        rw [hcores] at hx
        rcases eq_or_ne x key with rfl | hne
        · rw [update_self] at hx
          right
          refine ⟨source.core, hcore, hidle, ?_, ?_, ?_⟩
          · change source.lastSeenMs ≤ nowMs
            omega
          · change config.sourceStateTtlMs.toNat ≤ nowMs - source.lastSeenMs
            rw [h.configured] at hyoung
            omega
          · rcases hx with hx | ⟨c, hc, -⟩
            · exact hx
            · cases hc
        · rw [update_of_ne hne] at hx
          exact hx

theorem expire_spec (h : Held config t conns server) (hle : t ≤ nowMs) :
    SameRest server (expireSourceStates server nowMs) ∧
      Held config nowMs conns (expireSourceStates server nowMs) ∧
      ∀ x, ExpiredOrKept config nowMs (server.cores x)
        ((expireSourceStates server nowMs).cores x) := by
  unfold expireSourceStates
  split
  · exact ⟨.refl, h.later hle, fun x => .inl rfl⟩
  · obtain ⟨hrest, hheld, hexpired, -⟩ :=
      expireLoop_spec server.sourceStates.keys.length (h.later hle)
    exact ⟨hrest, hheld, hexpired⟩

/-- The core of a source after it has asked for admission. -/
def SourceCore.asked (config : SourceConfig) (nowMs : ℕ) (c : SourceCore) : SourceCore :=
  let bucket := (consumeTokenBucket config.sourceAdmissionsPerSecond config.sourceAdmissionBurst
    ⟨c.rateLastRefillMs, c.rateTokens⟩ nowMs).1
  ⟨bucket.lastRefillMs, bucket.tokens, nowMs, c.activeConnections⟩

def SourceCore.hasToken (config : SourceConfig) (nowMs : ℕ) (c : SourceCore) : Bool :=
  (consumeTokenBucket config.sourceAdmissionsPerSecond config.sourceAdmissionBurst
    ⟨c.rateLastRefillMs, c.rateTokens⟩ nowMs).2

/-- The configuration is one that `webrtc_signaling_create` accepts. -/
theorem burst_pos (hacc : config.accepted = true)
    (hrate : 0 < config.sourceAdmissionsPerSecond) : 0 < config.sourceAdmissionBurst := by
  unfold SourceConfig.accepted at hacc
  simp only [Bool.not_eq_true', Bool.or_eq_false_iff, decide_eq_false_iff_not, not_lt] at hacc
  obtain ⟨⟨⟨⟨⟨-, -⟩, hburst⟩, -⟩, hsame⟩, -⟩ := hacc
  have hnonzero : (config.sourceAdmissionsPerSecond == 0) = false := by
    simp
    omega
  rw [hnonzero] at hsame
  have hne : config.sourceAdmissionBurst ≠ 0 := by simpa using hsame
  omega

theorem asked_sound {c : SourceCore} (hacc : config.accepted = true) (h : CoreSound config t c)
    (hle : t ≤ nowMs) : CoreSound config nowMs (c.asked config nowMs) := by
  by_cases hrate : 0 < config.sourceAdmissionsPerSecond
  · have hburst := burst_pos hacc hrate
    obtain ⟨htokens, hlast⟩ := consume_tokens ⟨c.rateLastRefillMs, c.rateTokens⟩ hrate hburst
    rw [refill_tokens (by omega) (h.tokens hrate)] at htokens
    rw [refill_last] at hlast
    refine ⟨le_rfl, ?_, fun _ => ?_⟩
    · change (consumeTokenBucket _ _ _ nowMs).1.lastRefillMs ≤ nowMs ∨
        nowMs = 0 ∧ (consumeTokenBucket _ _ _ nowMs).1.lastRefillMs ≤ 1
      rw [hlast]
      have hseen := h.seen
      have hrefill := h.refill
      dsimp only
      split <;> omega
    · change (consumeTokenBucket _ _ _ nowMs).1.tokens ≤ config.bucketCapacity
      unfold SourceConfig.bucketCapacity
      have hcap : (consumeTokenBucket config.sourceAdmissionsPerSecond
          config.sourceAdmissionBurst ⟨c.rateLastRefillMs, c.rateTokens⟩ nowMs).1.tokens ≤
          if c.rateLastRefillMs = 0 then config.sourceAdmissionBurst.toNat * rateTokenUnits
          else min (config.sourceAdmissionBurst.toNat * rateTokenUnits)
            (c.rateTokens + config.sourceAdmissionsPerSecond.toNat *
              (nowMs - c.rateLastRefillMs)) := by
        rw [← htokens]
        exact Nat.le_add_right _ _
      refine hcap.trans ?_
      split
      · exact le_rfl
      · exact Nat.min_le_left _ _
  · have hsame : c.asked config nowMs =
        ⟨c.rateLastRefillMs, c.rateTokens, nowMs, c.activeConnections⟩ := by
      unfold SourceCore.asked consumeTokenBucket
      rw [if_pos (by omega)]
    rw [hsame]
    exact h.again hle _

theorem admit_spec {xs : List SourceKey} {source : SourceState} (hacc : config.accepted = true)
    (hcfg : server.config = config) (hshape : Shape server xs)
    (hlisted : ListedBut key server.cores xs) (hbook : Book config nowMs conns server.cores)
    (hstates : server.sourceStates.keys.length ≤ config.maxSourceStates)
    (hlook : server.sourceStates.lookup key = some source)
    (hidle : source.activeConnections ≠ 0 → key ∉ xs) :
    SameRest server (admitSource server key source nowMs).1 ∧
      Held config nowMs conns (admitSource server key source nowMs).1 ∧
      (admitSource server key source nowMs).1.cores =
        update server.cores key (some (source.core.asked config nowMs)) ∧
      ((admitSource server key source nowMs).2 = .admitted →
        source.core.hasToken config nowMs = true) := by
  have hcore := cores_of_lookup hlook
  have hact : source.activeConnections = conns key := hbook.active key _ hcore
  have hsound := asked_sound hacc (hbook.sound key _ hcore) (le_refl nowMs)
  have hput : Book config nowMs conns
      (update server.cores key (some (source.core.asked config nowMs))) := by
    have h := @Book.put _ _ key _ _ (source.core.asked config nowMs) (conns key) hbook
      hact (fun hon => hbook.limit hon key) hsound
    rwa [update_eq_self] at h
  -- the state after the bucket was asked
  generalize hasked : server.update key (fun s =>
    { s with
      lastSeenMs := nowMs
      rateLastRefillMs := (source.core.asked config nowMs).rateLastRefillMs
      rateTokens := (source.core.asked config nowMs).rateTokens }) = asked
  have hrest : SameRest server asked := hasked ▸ sameRest_update
  have hcores : asked.cores =
      update server.cores key (some (source.core.asked config nowMs)) := by
    rw [← hasked, cores_update (g := fun c =>
      ⟨(source.core.asked config nowMs).rateLastRefillMs,
        (source.core.asked config nowMs).rateTokens, nowMs, c.activeConnections⟩)
      (fun _ => rfl), hcore]
    rfl
  have hshape' : Shape asked xs :=
    hasked ▸ shape_update hshape (fun _ => rfl) (fun _ => rfl) (fun _ => rfl)
  have hsize : asked.sourceStates.keys.length ≤ config.maxSourceStates := by
    rw [← hasked, size_update]
    exact hstates
  -- a busy source stays off the list, an idle one goes to its end
  have hbusy : source.activeConnections ≠ 0 → Held config nowMs conns asked := by
    intro hne
    refine ⟨hrest.config.trans hcfg, ⟨xs, hshape', ?_⟩, hcores ▸ hput, hsize⟩
    rw [hcores]
    have haway := hlisted.away (c := some (source.core.asked config nowMs))
      hshape.links.nodup (by
        intro c hc
        obtain rfl := some.inj hc
        exact hne)
    rwa [erase_of_not_mem (hidle hne)] at haway
  have hfree : source.activeConnections = 0 → SameRest server (linkInactiveSource asked key nowMs) ∧
        Held config nowMs conns (linkInactiveSource asked key nowMs) ∧
        (linkInactiveSource asked key nowMs).cores =
          update server.cores key (some (source.core.asked config nowMs)) := by
    intro hzero
    obtain ⟨s, hs, hscore⟩ := lookup_of_cores (by rw [hcores, update_self])
    have hszero : s.activeConnections = 0 := by
      have hcount := congrArg SourceCore.activeConnections hscore
      exact hcount.trans hzero
    obtain ⟨hlinked, hlinkedCores, hlinkedRest, hlinkedSize⟩ :=
      shape_link hshape' hs hszero
    have hfinal : (linkInactiveSource asked key nowMs).cores =
        update server.cores key (some (source.core.asked config nowMs)) := by
      rw [hlinkedCores, hcores, update_idem, hscore]
      rfl
    refine ⟨hrest.trans hlinkedRest, ⟨(hrest.trans hlinkedRest).config.trans hcfg,
      ⟨_, hlinked, ?_⟩, hfinal ▸ hput, hlinkedSize ▸ hsize⟩, hfinal⟩
    rw [hfinal]
    exact hlisted.touch hshape.links.nodup hzero rfl hbook.seen_le
  obtain ⟨placed, hplaced⟩ : ∃ placed, placed =
      if source.activeConnections = 0 then linkInactiveSource asked key nowMs else asked := ⟨_, rfl⟩
  have hfold : admitSource server key source nowMs =
      if !source.core.hasToken config nowMs then (placed, .rejectRate)
      else if 0 < asked.config.maxConnectionsPerSource ∧
          asked.config.maxConnectionsPerSource.toNat ≤ source.activeConnections then
        (asked, .rejectConcurrency)
      else (placed, .admitted) := by
    rw [hplaced, ← hasked]
    unfold admitSource
    rw [hcfg]
    rfl
  rw [hfold]
  have hheld : SameRest server placed ∧ Held config nowMs conns placed ∧
      placed.cores = update server.cores key (some (source.core.asked config nowMs)) := by
    rw [hplaced]
    split
    next hzero => exact hfree hzero
    next hzero => exact ⟨hrest, hbusy hzero, hcores⟩
  cases htoken : source.core.hasToken config nowMs with
  | false =>
    rw [if_pos (by rfl)]
    exact ⟨hheld.1, hheld.2.1, hheld.2.2, by simp⟩
  | true =>
    rw [if_neg (by simp)]
    split
    · exact ⟨hrest, hbusy (by omega), hcores, fun _ => rfl⟩
    · exact ⟨hheld.1, hheld.2.1, hheld.2.2, fun _ => rfl⟩

end TurboMedia.Signaling
