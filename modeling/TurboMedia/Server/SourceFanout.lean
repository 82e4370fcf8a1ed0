import TurboMedia.Lib.Machine
import TurboMedia.Server.RuntimeSessions

/-!
# Fan-out of a source

A registry whose callers subscribe, unsubscribe and publish, where a callback of a publish or
of a replay answers with any code and may take subscriptions of its source back.

The loop of `turbo_media_source_publish` stops at the first code that is not
`TURBO_MEDIA_OK`, and the array that it walks is compacted under it.  The loop of the replay
reads the last subscriber again for each frame, and where none is left it reads in front of
the array: such a run has no state.  `issued` lists the ids that were handed out.
-/

namespace TurboMedia.Server

open List TurboMedia.Core AList

open TurboMedia.Core (MediaSource MediaSubscription TrackInfo MediaFrame Reaction Delivery mediaOk
  mediaErrNomem mediaErrFull mediaErrState)

/-- The replay of `turbo_media_source_subscribe` from frame `k` on. -/
def replayReacting (react : ℕ → Reaction) :
    ℕ → List MediaFrame → MediaSource → Option (MediaSource × ℤ)
  | _, [], source => some (source, mediaOk)
  | k, _ :: rest, source =>
    if source.subscribers = [] then none
    else
      let after := deliverFrame source (react k)
      if (react k).code = mediaOk then replayReacting react (k + 1) rest after
      else if after.subscribers = [] then none
      else
        some ({ after with
          subscribers := after.subscribers.eraseIdx (after.subscribers.length - 1)
          stats := { after.stats with subscriberCount := after.subscribers.length - 1 } },
          (react k).code)

/-- `turbo_media_source_subscribe`, with the id that it writes. -/
def subscribeReacting (source : MediaSource) (callback : ℕ) (replayCached : Bool)
    (react : ℕ → Reaction) : Option (MediaSource × Option ℕ × ℤ) :=
  if source.state = .closed then some (source, none, mediaErrState)
  else if source.subscribers.length ≥ source.config.maxSubscribers then
    some (source, none, mediaErrFull)
  else if source.nextSubscriptionId > subscriptionLocalIdMax then
    some (source, none, mediaErrFull)
  else
    let id := source.subscriptionNamespace * 2 ^ 32 + source.nextSubscriptionId
    let joined := source.join ⟨id, callback⟩
    if replayCached then
      (replayReacting react 0 source.cached joined).map (fun out => (out.1, some id, out.2))
    else some (joined, some id, mediaOk)

/-- `turbo_media_source_publish`, where the copy of the frame may fail. -/
def publishReacting (source : MediaSource) (frame : MediaFrame) (react : ℕ → Reaction)
    (memory : Bool) : MediaSource × ℤ × List Delivery :=
  if copiesFrame source frame && !memory then (source, mediaErrNomem, [])
  else Core.publish source frame react

/-- A registry with the ids that its sources have handed out. -/
structure Fanout where
  registry : Registry
  issued : List Issue

/-- The calls of a registry and of its sources. -/
inductive FanoutOp where
  | getOrCreate (key : RawKey) (config : Core.SourceConfig) (fault : CreateFault)
  | remove (key : RawKey)
  | addTrack (key : RawKey) (track : TrackInfo) (memory : Bool)
  | subscribe (key : RawKey) (callback : ℕ) (replayCached : Bool) (react : ℕ → Reaction)
  | unsubscribe (key : RawKey) (id : ℕ)
  | publish (key : RawKey) (frame : MediaFrame) (react : ℕ → Reaction) (memory : Bool)

def Fanout.on (s : Fanout) (key : RawKey) (f : MediaSource → MediaSource) : Fanout :=
  match registryFind s.registry key with
  | none => s
  | some source => { s with registry := s.registry.write key (f source) }

def Fanout.join (s : Fanout) (key : RawKey) (out : MediaSource × Option ℕ × ℤ) : Fanout where
  registry := s.registry.write key out.1
  issued :=
    match key.normalize, out.2.1 with
    | some key, some id => s.issued ++ [⟨id, .caller, key⟩]
    | _, _ => s.issued

def fanoutStep (s : Fanout) : FanoutOp → Option Fanout
  | .getOrCreate key config fault =>
    some { s with registry := (registryGetOrCreate s.registry key config fault).1 }
  | .remove key => some { s with registry := (registryRemove s.registry key).1 }
  | .addTrack key track memory =>
    some (s.on key (fun source => (sourceAddTrack source track memory).1))
  | .subscribe key callback replayCached react =>
    match registryFind s.registry key with
    | none => some s
    | some source => (subscribeReacting source callback replayCached react).map (s.join key)
  | .unsubscribe key id => some (s.on key (fun source => (Core.unsubscribe source id).1))
  | .publish key frame react memory =>
    some (s.on key (fun source => (publishReacting source frame react memory).1))

def fanoutMachine : Machine (Option Fanout) FanoutOp Unit where
  step s op := (s.bind (fun s => fanoutStep s op), ())

/-- `turbo_media_registry_create`. -/
def noSources (maxSources : ℕ) : Fanout :=
  ⟨⟨∅, defaultSize maxSources 1024, 1⟩, []⟩

/-- Each callback that runs while somebody is still behind it answers `TURBO_MEDIA_OK` and
takes back nobody up to itself: `gone` are the ids taken back so far, `passed` those that got
the frame. -/
def Unhindered (react : ℕ → Reaction) : List ℕ → List ℕ → List MediaSubscription → Prop
  | _, _, [] => True
  | gone, passed, u :: ahead =>
    if u.id ∈ gone then Unhindered react gone passed ahead
    else
      let gone := gone ++ (react u.id).unsubscribes
      (∀ v ∈ ahead, v.id ∈ gone) ∨ ((react u.id).code = mediaOk ∧
          (∀ id ∈ passed ++ [u.id], id ∉ (react u.id).unsubscribes) ∧
          Unhindered react gone (passed ++ [u.id]) ahead)

/-- The source takes the frame, and no callback keeps it from those behind. -/
def FansOut (source : MediaSource) (frame : MediaFrame) (react : ℕ → Reaction) (memory : Bool) :
    Prop :=
  (source.accepts frame).isSome ∧ (copiesFrame source frame = true → memory = true) ∧
    Unhindered react [] [] source.subscribers

variable {source middle written : MediaSource} {frame : MediaFrame} {react : ℕ → Reaction}

/-- Nobody joins; the namespace and the counter of ids go on. -/
inductive Trimmed (source : MediaSource) : MediaSource → Prop where
  | refl : Trimmed source source
  | kept
      (middle written : MediaSource)
      (htrim : Trimmed source middle)
      (hkept : Kept middle written) : Trimmed source written
  | left
      (middle written : MediaSource) (i : ℕ)
      (htrim : Trimmed source middle)
      (hlt : i < middle.subscribers.length)
      (hsubs : written.subscribers = middle.subscribers.eraseIdx i)
      (hspace : written.subscriptionNamespace = middle.subscriptionNamespace)
      (hlater : written.nextSubscriptionId = middle.nextSubscriptionId)
      (htracks : written.tracks = middle.tracks) : Trimmed source written

theorem Trimmed.trans (h : Trimmed source middle) (h' : Trimmed middle written) :
    Trimmed source written := by
  induction h' with
  | refl => exact h
  | kept m w _ hkept ih => exact .kept m w ih hkept
  | left m w i _ hlt hsubs hspace hlater htracks ih =>
    exact .left m w i ih hlt hsubs hspace hlater htracks

theorem Trimmed.sublist (h : Trimmed source written) :
    written.subscribers.Sublist source.subscribers := by
  induction h with
  | refl => exact List.Sublist.refl _
  | kept m w _ hkept ih => rwa [hkept.subscribers]
  | left m w i _ _ hsubs _ _ _ ih =>
    rw [hsubs]
    exact (eraseIdx_sublist _ _).trans ih

theorem unsubscribe_trimmed (source : MediaSource) (id : ℕ) :
    Trimmed source (Core.unsubscribe source id).1 := by
  have hout := unsubscribe_outcome source id
  generalize Core.unsubscribe source id = out at hout
  obtain ⟨written, rc⟩ := out
  cases hout with
  | absent => exact .refl
  | left _ i u hget _ hsubs hspace hlater htracks =>
    obtain ⟨hlt, -⟩ := List.getElem?_eq_some_iff.mp hget
    exact .left source written i .refl hlt hsubs hspace hlater htracks

theorem deliverFrame_trimmed (source : MediaSource) (reaction : Reaction) :
    Trimmed source (Core.deliverFrame source reaction) := by
  have hgone : ∀ (ids : List ℕ) (s : MediaSource), Trimmed source s →
      Trimmed source (ids.foldl (fun s id => (Core.unsubscribe s id).1) s) := by
    intro ids
    induction ids with
    | nil => exact fun s h => h
    | cons id ids ih => exact fun s h => ih _ (h.trans (unsubscribe_trimmed s id))
  have hafter := hgone reaction.unsubscribes source .refl
  unfold Core.deliverFrame
  split
  · exact .kept _ _ hafter ⟨rfl, rfl, le_rfl, id, id, prefix_rfl⟩
  · exact hafter

theorem deliverFrom_trimmed (frame : MediaFrame) (react : ℕ → Reaction) (fuel i : ℕ)
    (source : MediaSource) : Trimmed source (deliverFrom frame react fuel i source).1 := by
  induction fuel generalizing i source with
  | zero => exact .refl
  | succ fuel ih =>
    rw [deliverFrom]
    cases source.subscribers[i]? with
    | none => exact .refl
    | some u =>
      have hone := deliverFrame_trimmed source (react u.id)
      dsimp only
      split
      · exact hone
      · exact hone.trans (ih (i + 1) _)

theorem publishReacting_trimmed (source : MediaSource) (frame : MediaFrame) (react : ℕ → Reaction)
    (memory : Bool) : Trimmed source (publishReacting source frame react memory).1 := by
  have hsame : Trimmed source source := .refl
  unfold publishReacting
  split
  · exact hsame
  unfold Core.publish
  split
  · exact hsame
  cases source.accepts frame with
  | none => exact hsame
  | some track =>
    refine Trimmed.trans (.kept _ _ .refl ?_) (deliverFrom_trimmed frame react _ 0 _)
    exact (cacheFrame_kept source frame track).trans ⟨rfl, rfl, le_rfl, id, id, prefix_rfl⟩

theorem replayReacting_trimmed {k : ℕ} {frames : List MediaFrame} {rc : ℤ}
    (h : replayReacting react k frames source = some (written, rc)) : Trimmed source written := by
  induction frames generalizing k source with
  | nil =>
    cases h
    exact .refl
  | cons frame rest ih =>
    have hone := deliverFrame_trimmed source (react k)
    rw [replayReacting] at h
    split at h
    · cases h
    dsimp only at h
    split at h
    · exact hone.trans (ih h)
    split at h
    · cases h
    · next hsome =>
      cases h
      have hlt : (deliverFrame source (react k)).subscribers.length - 1 <
          (deliverFrame source (react k)).subscribers.length :=
        Nat.sub_lt (length_pos_iff.mpr hsome) Nat.one_pos
      exact .left _ _ _ hone hlt rfl rfl rfl rfl

variable {b : Books} {key : SourceKey}

theorem Trimmed.moves (h : Trimmed source written) (hlook : b.sources.lookup key = some source) :
    ∃ removed, Moves b { b with sources := b.sources.insert key written, removed := removed } := by
  induction h with
  | refl => exact ⟨b.removed, Relation.ReflTransGen.single (.kept key _ _ hlook (Kept.refl _))⟩
  | kept m w _ hkept ih =>
    obtain ⟨removed, hmoves⟩ := ih
    have hmove := Move.kept (b := { b with
      sources := b.sources.insert key m
      removed := removed }) key m w (lookup_insert _) hkept
    rw [insert_insert] at hmove
    exact ⟨removed, hmoves.tail hmove⟩
  | left m w i _ hlt hsubs hspace hlater htracks ih =>
    obtain ⟨removed, hmoves⟩ := ih
    have hmove := Move.left (b := { b with
      sources := b.sources.insert key m
      removed := removed }) key m w i (lookup_insert _) hlt hsubs hspace hlater htracks
    rw [insert_insert] at hmove
    exact ⟨removed + 1, hmoves.tail hmove⟩

/-- The books of a registry whose counts nobody keeps. -/
def Fanout.Sound (s : Fanout) : Prop :=
  ∃ created removed, Books.Sound ⟨s.registry.sources, s.registry.nextSubscriptionNamespace,
    created, removed, s.issued⟩

theorem Fanout.Sound.on {s : Fanout} {raw : RawKey} {f : MediaSource → MediaSource} (h : s.Sound)
    (htrim : ∀ source, Trimmed source (f source)) : (s.on raw f).Sound := by
  unfold Fanout.on
  cases hfind : registryFind s.registry raw with
  | none => exact h
  | some source =>
    obtain ⟨k, hkey, hlook⟩ := registryFind_eq_some.mp hfind
    obtain ⟨created, removed, hsound⟩ := h
    obtain ⟨removed', hmoves⟩ := (htrim source).moves (b := ⟨s.registry.sources,
      s.registry.nextSubscriptionNamespace, created, removed, s.issued⟩) hlook
    dsimp only
    rw [write_eq hkey]
    exact ⟨created, removed', hmoves.sound hsound⟩

theorem Fanout.Sound.subscribe {s t : Fanout} {raw : RawKey} {callback : ℕ} {replayCached : Bool}
    (h : s.Sound) (hfind : registryFind s.registry raw = some source)
    (hout : (subscribeReacting source callback replayCached react).map (s.join raw) = some t) :
    t.Sound := by
  obtain ⟨k, hkey, hlook⟩ := registryFind_eq_some.mp hfind
  obtain ⟨created, removed, hsound⟩ := h
  obtain ⟨⟨written, id?, rc⟩, hsub, rfl⟩ := Option.map_eq_some_iff.mp hout
  have hstay : ∀ out : MediaSource × Option ℕ × ℤ, out.1 = source → out.2.1 = none →
      (s.join raw out).Sound := by
    intro out hsource hnone
    refine ⟨created, removed, ?_⟩
    rw [Fanout.join, hkey, hnone, write_eq hkey, hsource]
    exact sound_kept hsound hlook (Kept.refl source)
  rw [subscribeReacting] at hsub
  split at hsub
  · cases hsub
    exact hstay _ rfl rfl
  split at hsub
  · cases hsub
    exact hstay _ rfl rfl
  split at hsub
  · cases hsub
    exact hstay _ rfl rfl
  · next hroom =>
    have hlt : source.nextSubscriptionId < 2 ^ 32 := by
      unfold subscriptionLocalIdMax at hroom
      omega
    -- the id is taken before the replay, whatever becomes of the subscription
    have hmade : ∀ written rc, Trimmed (source.join
        ⟨source.subscriptionNamespace * 2 ^ 32 + source.nextSubscriptionId, callback⟩) written →
        (s.join raw (written, some (source.subscriptionNamespace * 2 ^ 32 +
          source.nextSubscriptionId), rc)).Sound := by
      intro written rc htrim
      have hjoined := @sound_joined _ _ _ (source.join
          ⟨source.subscriptionNamespace * 2 ^ 32 + source.nextSubscriptionId, callback⟩)
        .caller callback hsound hlook hlt rfl rfl rfl rfl
      obtain ⟨removed', hmoves⟩ := htrim.moves
        (b := ⟨s.registry.sources.insert k _, _, created + 1, removed, _⟩) (lookup_insert _)
      refine ⟨created + 1, removed', ?_⟩
      have hdone := hmoves.sound hjoined
      rw [insert_insert] at hdone
      rw [Fanout.join, hkey, write_eq hkey]
      exact hdone
    split at hsub
    · obtain ⟨⟨written, rc⟩, hreplay, heq⟩ := Option.map_eq_some_iff.mp hsub
      cases heq
      exact hmade _ _ (replayReacting_trimmed hreplay)
    · cases hsub
      exact hmade _ _ .refl

theorem getOrCreate_registry (runtime : Runtime) (raw : RawKey) (fault : CreateFault) :
    (getOrCreateSource runtime raw fault).1.registry =
      (registryGetOrCreate runtime.registry raw runtime.sourceConfig fault).1 := by
  unfold getOrCreateSource
  dsimp only
  split
  · rfl
  · rfl

theorem remove_registry (runtime : Runtime) (raw : RawKey) :
    (removeSource runtime raw).1.registry = (registryRemove runtime.registry raw).1 := by
  unfold removeSource
  cases hfind : registryFind runtime.registry raw with
  | none =>
    rw [registryRemove]
    rw [registryFind] at hfind
    cases hkey : raw.normalize with
    | none => rfl
    | some k =>
      rw [hkey, Option.bind_some] at hfind
      dsimp only
      rw [hfind]
      rfl
  | some source =>
    dsimp only
    split <;> rfl

theorem fanoutStep_sound {s t : Fanout} {op : FanoutOp} (h : s.Sound)
    (hstep : fanoutStep s op = some t) : t.Sound := by
  cases op with
  | getOrCreate raw config fault =>
    cases hstep
    obtain ⟨created, removed, hsound⟩ := h
    have hspec := (getOrCreateSource_spec ⟨config, s.registry, ⟨0, 0, 0, created, removed, 0⟩⟩ raw
      fault s.issued).1.sound hsound
    rw [Runtime.books, getOrCreate_registry] at hspec
    exact ⟨_, _, hspec⟩
  | remove raw =>
    cases hstep
    obtain ⟨created, removed, hsound⟩ := h
    have hspec := (removeSource_spec ⟨⟨0, 0, 0⟩, s.registry, ⟨0, 0, 0, created, removed, 0⟩⟩ raw
      s.issued).1.sound hsound
    rw [Runtime.books, remove_registry] at hspec
    exact ⟨_, _, hspec⟩
  | addTrack raw track memory =>
    cases hstep
    exact h.on (fun source => .kept _ _ .refl (addTrack_kept source track memory))
  | subscribe raw callback replayCached react =>
    rw [fanoutStep] at hstep
    cases hfind : registryFind s.registry raw with
    | none =>
      rw [hfind] at hstep
      cases hstep
      exact h
    | some source =>
      rw [hfind] at hstep
      exact h.subscribe hfind hstep
  | unsubscribe raw id =>
    cases hstep
    exact h.on (fun source => unsubscribe_trimmed source id)
  | publish raw frame react memory =>
    cases hstep
    exact h.on (fun source => publishReacting_trimmed source frame react memory)

/-- What the callback leaves of a list of subscribers with different ids. -/
theorem deliverFrame_subscribers (reaction : Reaction)
    (hdist : (source.subscribers.map MediaSubscription.id).Nodup)
    (hzero : ∀ u ∈ source.subscribers, u.id ≠ 0) :
    (Core.deliverFrame source reaction).subscribers =
      source.subscribers.filter (fun u => decide (u.id ∉ reaction.unsubscribes)) := by
  have hall : ∀ (ids : List ℕ) (s : MediaSource),
      (s.subscribers.map MediaSubscription.id).Nodup → (∀ u ∈ s.subscribers, u.id ≠ 0) →
      (ids.foldl (fun s id => (Core.unsubscribe s id).1) s).subscribers =
        s.subscribers.filter (fun u => decide (u.id ∉ ids)) := by
    intro ids
    induction ids with
    | nil => simp
    | cons id ids ih =>
      intro s hdist hzero
      have hsub := (unsubscribe_trimmed s id).sublist
      rw [foldl_cons, ih _ (hdist.sublist (hsub.map _)) (fun u hu => hzero u (hsub.subset hu)),
        ((unsubscribe_outcome s id).leaves hdist hzero).1, filter_filter]
      refine filter_congr (fun u _ => ?_)
      rw [← Bool.decide_and]
      exact decide_eq_decide.mpr (by rw [mem_cons, not_or, and_comm])
  rw [← hall reaction.unsubscribes source hdist hzero, Core.deliverFrame]
  split
  · rfl
  · rfl

theorem deliverFrom_end {fuel i : ℕ} (h : source.subscribers.length ≤ i) :
    deliverFrom frame react fuel i source = (source, mediaOk, []) := by
  cases fuel with
  | zero => rfl
  | succ fuel => rw [deliverFrom, getElem?_eq_none h]

/-- The loop, where `passed` got the frame and nobody hinders it. -/
theorem deliverFrom_once (ahead passed : List MediaSubscription) (gone : List ℕ) {fuel : ℕ}
    (hsubs : source.subscribers = passed ++ ahead.filter (fun u => decide (u.id ∉ gone)))
    (hdist : ((passed ++ ahead).map MediaSubscription.id).Nodup)
    (hzero : ∀ u ∈ passed ++ ahead, u.id ≠ 0) (hfuel : ahead.length ≤ fuel)
    (hfree : Unhindered react gone (passed.map MediaSubscription.id) ahead) :
    ∀ u ∈ (deliverFrom frame react fuel passed.length source).1.subscribers,
      (deliverFrom frame react fuel passed.length source).2.2.filter
          (fun d => decide (d.subscription = u.id)) =
        if u ∈ passed then [] else [⟨u.id, frame⟩] := by
  induction ahead generalizing passed gone fuel source with
  | nil =>
    intro u hu
    rw [filter_nil, append_nil] at hsubs
    rw [deliverFrom_end (by rw [hsubs])] at hu ⊢
    rw [hsubs] at hu
    rw [if_pos hu]
    rfl
  | cons v ahead ih =>
    intro u hu
    rw [Unhindered] at hfree
    by_cases hgone : v.id ∈ gone
    · rw [if_pos hgone] at hfree
      rw [filter_cons_of_neg (by simpa using hgone)] at hsubs
      have hless : (passed ++ ahead).Sublist (passed ++ v :: ahead) :=
        List.Sublist.append_left (sublist_cons_self v ahead) passed
      exact ih _ _ hsubs (hdist.sublist (hless.map _)) (fun w hw => hzero w (hless.subset hw))
        (Nat.le_of_succ_le hfuel) hfree u hu
    rw [if_neg hgone] at hfree
    rw [filter_cons_of_pos (by simpa using hgone)] at hsubs
    obtain ⟨fuel, rfl⟩ := Nat.exists_eq_add_of_le' (le_trans (Nat.succ_pos _) hfuel)
    have hall : source.subscribers.Sublist (passed ++ v :: ahead) := by
      rw [hsubs]
      exact (filter_sublist.cons_cons v).append_left passed
    have hafter := deliverFrame_subscribers (react v.id) (hdist.sublist (hall.map _))
      (fun w hw => hzero w (hall.subset hw))
    have hmem := hall.subset ((deliverFrom_trimmed frame react _ _ source).sublist.subset hu)
    have hget : source.subscribers[passed.length]? = some v := by
      rw [hsubs, getElem?_append_right le_rfl, Nat.sub_self, getElem?_cons_zero]
    -- whichever way the callback goes, the frame went to `v`, and those behind it are served
    have hmore : ∃ more, (deliverFrom frame react (fuel + 1) passed.length source).2.2 =
        ⟨v.id, frame⟩ :: more ∧ more.filter (fun d => decide (d.subscription = u.id)) =
          if u ∈ passed ++ [v] then [] else [⟨u.id, frame⟩] := by
      rw [deliverFrom, hget] at hu ⊢
      dsimp only at hu ⊢
      generalize deliverFrame source (react v.id) = after at hafter hu
      rw [hsubs] at hafter
      rcases hfree with hlast | ⟨hcode, hpast, hfree⟩
      · have hnobody : (ahead.filter (fun w => decide (w.id ∉ gone))).filter
            (fun w => decide (w.id ∉ (react v.id).unsubscribes)) = [] := by
          rw [filter_filter, filter_eq_nil_iff]
          intro w hw
          have hgone := hlast w hw
          rw [mem_append] at hgone
          simpa [or_iff_not_imp_left] using hgone.symm
        rw [← singleton_append, ← append_assoc, filter_append, hnobody, append_nil] at hafter
        have hend : after.subscribers.length ≤ passed.length + 1 := by
          rw [hafter, ← length_singleton, ← length_append]
          exact length_filter_le _ _
        rw [deliverFrom_end hend] at hu ⊢
        refine ⟨[], ?_, ?_⟩
        · split
          · rfl
          · rfl
        · have hin : u ∈ after.subscribers := by
            split at hu
            · exact hu
            · exact hu
          rw [hafter] at hin
          rw [if_pos (mem_filter.mp hin).1]
          rfl
      · rw [if_neg (not_not.mpr hcode)] at hu ⊢
        have hkeeps : (passed ++ [v]).filter
            (fun w => decide (w.id ∉ (react v.id).unsubscribes)) = passed ++ [v] := by
          rw [filter_eq_self]
          intro w hw
          refine decide_eq_true (hpast w.id ?_)
          rw [← map_singleton, ← map_append]
          exact mem_map_of_mem hw
        rw [← singleton_append, ← append_assoc, filter_append, hkeeps, filter_filter] at hafter
        have hnext : after.subscribers = (passed ++ [v]) ++ ahead.filter
            (fun w => decide (w.id ∉ gone ++ (react v.id).unsubscribes)) := by
          rw [hafter]
          congr 1
          refine filter_congr (fun w _ => ?_)
          rw [← Bool.decide_and]
          exact decide_eq_decide.mpr (by rw [mem_append, not_or, and_comm])
        rw [← map_singleton, ← map_append] at hfree
        rw [append_cons] at hdist hzero
        refine ⟨_, rfl, ?_⟩
        have hih := ih _ _ hnext hdist hzero (Nat.le_of_succ_le_succ hfuel) hfree u
        rw [length_append, length_singleton] at hih
        exact hih hu
    obtain ⟨more, heq, hmore⟩ := hmore
    rw [heq]
    have hv : v ∈ passed ++ v :: ahead := mem_append_right _ mem_cons_self
    by_cases hsame : u = v
    · have hout : v ∉ passed := by
        intro hin
        rw [map_append, nodup_append] at hdist
        exact hdist.2.2 _ (mem_map_of_mem hin) _ (mem_map_of_mem mem_cons_self) rfl
      rw [hsame, if_pos (mem_append_right _ (mem_singleton_self v))] at hmore
      rw [hsame, if_neg hout, filter_cons_of_pos (by simp), hmore]
    · have hne : v.id ≠ u.id := fun h => hsame (Keyed.eq_of_key_eq hdist hmem hv h.symm)
      rw [filter_cons_of_neg (by simpa using hne), hmore]
      simp [hsame]

theorem publishReacting_once {bound : ℕ} {issued : List Issue} {memory : Bool}
    (hsound : SourceSound bound issued key source) (hfree : FansOut source frame react memory) :
    ∀ u ∈ (publishReacting source frame react memory).1.subscribers,
      (publishReacting source frame react memory).2.2.filter
        (fun d => decide (d.subscription = u.id)) = [⟨u.id, frame⟩] := by
  obtain ⟨hacc, hmemory, hfree⟩ := hfree
  obtain ⟨track, htrack⟩ := Option.isSome_iff_exists.mp hacc
  have hcopied : ¬(copiesFrame source frame && !memory) = true := by
    intro h
    rw [Bool.and_eq_true, Bool.not_eq_true'] at h
    exact Bool.noConfusion (h.2.symm.trans (hmemory h.1))
  have hopen : source.state ≠ .closed := by
    intro h
    rw [MediaSource.accepts, if_pos h] at htrack
    cases htrack
  have hkept := (cacheFrame_kept source frame track).subscribers
  rw [publishReacting, if_neg hcopied, Core.publish, if_neg hopen, htrack]
  intro u hu
  refine (deliverFrom_once source.subscribers [] [] ?_
    hsound.distinct ?_ (le_of_eq ?_) hfree u hu).trans (if_neg not_mem_nil)
  · simpa using hkept
  · intro u hu hzero
    obtain ⟨hspace, -⟩ := hsound.known u hu
    have hstart := hsound.started
    omega
  · exact congrArg List.length hkept.symm

theorem fanout_sound {maxSources : ℕ} {ops : List FanoutOp} {s : Fanout}
    (hrun : fanoutMachine.run (some (noSources maxSources)) ops = some s) : s.Sound := by
  refine fanoutMachine.run_invariant (P := fun o => ∀ s, o = some s → s.Sound) ?_ ?_ ops s hrun
  · intro o op h t ht
    obtain ⟨s, rfl, hstep⟩ := Option.bind_eq_some_iff.mp ht
    exact fanoutStep_sound (h s rfl) hstep
  · rintro _ ⟨⟩
    exact ⟨0, 0, (start_handles maxSources ⟨0, 0, 0⟩).books⟩

/-- In every run no id is handed out twice, and where ids run out they are refused; a publish
that no callback hinders gives the frame once to everybody who is subscribed after it. -/
theorem source_fans_out (maxSources : ℕ) (ops : List FanoutOp) (s : Fanout)
    (hrun : fanoutMachine.run (some (noSources maxSources)) ops = some s) :
    (s.issued.map Issue.id).Nodup ∧ (s.registry.nextSubscriptionNamespace = 0 → ∀ raw config fault,
        registryFind s.registry raw = none →
        (registryGetOrCreate s.registry raw config fault).2 ≠ mediaOk) ∧
      ∀ key source, s.registry.sources.lookup key = some source →
        (∀ u ∈ source.subscribers, ∃ owner, (⟨u.id, owner, key⟩ : Issue) ∈ s.issued) ∧
        (subscriptionLocalIdMax < source.nextSubscriptionId →
          ∀ callback replayCached react, ∃ rc, rc ≠ mediaOk ∧
            subscribeReacting source callback replayCached react = some (source, none, rc)) ∧
        ∀ frame react memory, FansOut source frame react memory →
          ∀ u ∈ (publishReacting source frame react memory).1.subscribers, u ∈ source.subscribers ∧
              (publishReacting source frame react memory).2.2.filter
                (fun d => decide (d.subscription = u.id)) = [⟨u.id, frame⟩] := by
  obtain ⟨created, removed, hsound⟩ := fanout_sound hrun
  refine ⟨hsound.once, ?_, fun key source hlookup => ?_⟩
  · intro hspent raw config fault hnone
    unfold registryGetOrCreate
    rw [registryFind] at hnone
    cases hkey : raw.normalize with
    | none => exact (by decide : mediaErrInvalid ≠ mediaOk)
    | some k =>
      rw [hkey, Option.bind_some] at hnone
      dsimp only
      rw [hnone, if_neg (by simp)]
      split_ifs
      · exact (by decide : mediaErrFull ≠ mediaOk)
      · exact (by decide : mediaErrNomem ≠ mediaOk)
      · exact (by decide : mediaErrFull ≠ mediaOk)
  have hsrc := hsound.each key source hlookup
  refine ⟨fun u hu => (hsrc.known u hu).2, ?_, fun frame react memory hfree u hu => ⟨?_, ?_⟩⟩
  · intro hspent callback replayCached react
    rw [subscribeReacting]
    split_ifs
    · exact ⟨mediaErrState, by decide, rfl⟩
    · exact ⟨mediaErrFull, by decide, rfl⟩
    · exact ⟨mediaErrFull, by decide, rfl⟩
  · exact (publishReacting_trimmed source frame react memory).sublist.subset hu
  · exact publishReacting_once hsrc hfree u hu

/-- Two listeners at a source with a track. -/
def twoListeners : List FanoutOp :=
  [.getOrCreate roomKey ⟨1, 2, 1⟩ .none, .addTrack roomKey (audioTrack 0) true,
    .subscribe roomKey 1 false (fun _ => ⟨mediaOk, []⟩),
    .subscribe roomKey 2 false (fun _ => ⟨mediaOk, []⟩)]

def oneByte : MediaFrame := ⟨0, [7], 0, 0, 0, 0, 0⟩

theorem source_fans_out_two :
    ∃ s source, fanoutMachine.run (some (noSources 1)) twoListeners = some s ∧
      (⟨2 ^ 32 + 1, 1⟩ : MediaSubscription) ∈
        (publishReacting source oneByte (fun _ => ⟨mediaOk, []⟩) true).1.subscribers ∧
      (publishReacting source oneByte (fun _ => ⟨mediaOk, []⟩) true).2.2.filter
        (fun d => decide (d.subscription = 2 ^ 32 + 1)) = [⟨2 ^ 32 + 1, oneByte⟩] := by
  refine ⟨_, _, rfl, ?_, (((source_fans_out 1 twoListeners _ rfl).2.2 ⟨[118], [97], [115]⟩ _
    rfl).2.2 oneByte (fun _ => ⟨mediaOk, []⟩) true ⟨by decide, fun _ => rfl, ?_⟩
    ⟨2 ^ 32 + 1, 1⟩ ?_).2⟩
  · decide
  · show Unhindered _ [] [] [⟨2 ^ 32 + 1, 1⟩, ⟨2 ^ 32 + 2, 2⟩]
    simp [Unhindered]
  · decide

/-- The first of two callbacks refuses a frame, and the second subscriber does not get it. -/
theorem source_starves :
    ∃ s source, fanoutMachine.run (some (noSources 1)) twoListeners = some s ∧
      s.registry.sources.lookup ⟨[118], [97], [115]⟩ = some source ∧
      ∃ u ∈ source.subscribers, ∃ react : ℕ → Reaction, (∀ id, (react id).unsubscribes = []) ∧
        u ∈ (publishReacting source oneByte react true).1.subscribers ∧
        (publishReacting source oneByte react true).2.2.filter
          (fun d => decide (d.subscription = u.id)) = [] := by
  refine ⟨_, _, rfl, rfl, ⟨2 ^ 32 + 2, 2⟩, ?_, fun _ => ⟨-1, []⟩, fun _ => rfl, ?_, ?_⟩
  · decide
  · decide
  · decide

end TurboMedia.Server
