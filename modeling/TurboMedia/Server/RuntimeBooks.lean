import Mathlib.Logic.Relation
import TurboMedia.Core.GopCache
import TurboMedia.Server.Runtime

/-!
# Server runtime: the books

What the calls of a runtime do to its books: the sources, the namespace that is next, the
counts of subscriptions, and the subscriptions that were made.

**Method.** `Move` has one rule for each way a call changes the books.  Every call is a
sequence of moves, and a move keeps `Books.Sound`: the counts balance, and the id of a
subscription tells the source that it was made on from every source before and after it.
-/

namespace TurboMedia.Server

open List TurboMedia.Core AList Option

open TurboMedia.Core (MediaSource MediaSubscription TrackInfo MediaFrame mediaOk)
open Keyed (total total_insert_new total_insert_old total_of_lookup)

/-- What the runtime books about its subscriptions. -/
structure Books where
  sources : AList (fun _ : SourceKey => MediaSource)
  next : UInt32
  created : ℕ
  removed : ℕ
  issued : List Issue

def Runtime.books (runtime : Runtime) (issued : List Issue) : Books :=
  ⟨runtime.registry.sources, runtime.registry.nextSubscriptionNamespace,
    runtime.stats.subscriptionsCreated, runtime.stats.subscriptionsRemoved, issued⟩

def audience (source : MediaSource) : ℕ :=
  source.subscribers.length

/-- The tracks of a source have different ids. -/
def DistinctTracks (source : MediaSource) : Prop :=
  (source.tracks.map TrackInfo.trackId).Nodup

/-- A source is written, and nobody joins or leaves. -/
structure Kept (source written : MediaSource) : Prop where
  subscribers : written.subscribers = source.subscribers
  space : written.subscriptionNamespace = source.subscriptionNamespace
  later : source.nextSubscriptionId ≤ written.nextSubscriptionId
  limit : source.nextSubscriptionId ≤ 2 ^ 32 → written.nextSubscriptionId ≤ 2 ^ 32
  tracks : DistinctTracks source → DistinctTracks written
  listed : source.tracks <+: written.tracks

/-- One way to change the books. -/
inductive Move (b : Books) : Books → Prop where
  | spent
      (hnext : b.next ≠ 0) :
      Move b { b with next := b.next + 1 }
  | created
      (key : SourceKey) (config : Core.SourceConfig)
      (hnone : b.sources.lookup key = none)
      (hnext : b.next ≠ 0) :
      Move b { b with
        sources := b.sources.insert key (sourceCreate config b.next.toNat)
        next := b.next + 1 }
  | kept
      (key : SourceKey) (source written : MediaSource)
      (hlookup : b.sources.lookup key = some source)
      (hkept : Kept source written) :
      Move b { b with sources := b.sources.insert key written }
  | joined
      (key : SourceKey) (source written : MediaSource) (owner : Owner) (callback : ℕ)
      (hlookup : b.sources.lookup key = some source)
      (hroom : source.nextSubscriptionId < 2 ^ 32)
      (hsubscribers : written.subscribers = source.subscribers ++
        [⟨source.subscriptionNamespace * 2 ^ 32 + source.nextSubscriptionId, callback⟩])
      (hspace : written.subscriptionNamespace = source.subscriptionNamespace)
      (hlater : written.nextSubscriptionId = source.nextSubscriptionId + 1)
      (htracks : written.tracks = source.tracks) :
      Move b { b with
        sources := b.sources.insert key written
        created := b.created + 1
        issued := b.issued ++
          [⟨source.subscriptionNamespace * 2 ^ 32 + source.nextSubscriptionId, owner, key⟩] }
  | left
      (key : SourceKey) (source written : MediaSource) (i : ℕ)
      (hlookup : b.sources.lookup key = some source)
      (hlt : i < source.subscribers.length)
      (hsubscribers : written.subscribers = source.subscribers.eraseIdx i)
      (hspace : written.subscriptionNamespace = source.subscriptionNamespace)
      (hlater : written.nextSubscriptionId = source.nextSubscriptionId)
      (htracks : written.tracks = source.tracks) :
      Move b { b with
        sources := b.sources.insert key written
        removed := b.removed + 1 }
  | removed
      (key : SourceKey) (source : MediaSource)
      (hlookup : b.sources.lookup key = some source) :
      Move b { b with
        sources := b.sources.erase key
        removed := b.removed + audience source }

section Soundness

def spaceBound (next : UInt32) : ℕ :=
  if next = 0 then 2 ^ 32 else next.toNat

/-- What the books have to do with a source. -/
structure SourceSound (bound : ℕ) (issued : List Issue) (key : SourceKey)
    (source : MediaSource) : Prop where
  below : source.subscriptionNamespace < bound
  started : 1 ≤ source.subscriptionNamespace
  limit : source.nextSubscriptionId ≤ 2 ^ 32
  known : ∀ u ∈ source.subscribers, u.id / 2 ^ 32 = source.subscriptionNamespace ∧
    ∃ owner, (⟨u.id, owner, key⟩ : Issue) ∈ issued
  distinct : (source.subscribers.map MediaSubscription.id).Nodup
  used : ∀ issue ∈ issued, issue.id / 2 ^ 32 = source.subscriptionNamespace →
    issue.id % 2 ^ 32 < source.nextSubscriptionId
  tracks : DistinctTracks source

/-- The books are in order. -/
structure Books.Sound (b : Books) : Prop where
  balance : b.created = b.removed + total audience b.sources
  each : ∀ key source, b.sources.lookup key = some source →
    SourceSound (spaceBound b.next) b.issued key source
  apart : ∀ key key' source source', b.sources.lookup key = some source →
    b.sources.lookup key' = some source' →
    source.subscriptionNamespace = source'.subscriptionNamespace → key = key'
  past : ∀ issue ∈ b.issued, 2 ^ 32 ≤ issue.id ∧ issue.id / 2 ^ 32 < spaceBound b.next
  once : (b.issued.map Issue.id).Nodup

variable {b c : Books} {bound : ℕ} {issued : List Issue} {key : SourceKey}
variable {source written : MediaSource}

/-- The namespace that is given out is the bound, and the next bound is above. -/
theorem spaceBound_next {next : UInt32} (h : next ≠ 0) :
    spaceBound next = next.toNat ∧ spaceBound (next + 1) = next.toNat + 1 ∧ 1 ≤ next.toNat := by
  have hlt : next.toNat < 2 ^ 32 := next.toNat_lt
  have hnat : (next + 1).toNat = (next.toNat + 1) % 2 ^ 32 := UInt32.toNat_add next 1
  have hpositive : next.toNat ≠ 0 := fun hzero =>
    h (UInt32.toNat_inj.mp (by rw [hzero, UInt32.toNat_zero]))
  refine ⟨if_neg h, ?_, Nat.pos_of_ne_zero hpositive⟩
  by_cases hzero : next + 1 = 0
  · rw [hzero, UInt32.toNat_zero] at hnat
    rw [spaceBound, if_pos hzero]
    omega
  · have hne : (next + 1).toNat ≠ 0 := fun h =>
      hzero (UInt32.toNat_inj.mp (by rw [h, UInt32.toNat_zero]))
    rw [spaceBound, if_neg hzero, hnat]
    omega

theorem SourceSound.mono {later : ℕ} (h : SourceSound bound issued key source)
    (hle : bound ≤ later) : SourceSound later issued key source :=
  { h with below := lt_of_lt_of_le h.below hle }

theorem SourceSound.kept (h : SourceSound bound issued key source) (hkept : Kept source written) :
    SourceSound bound issued key written where
  below := hkept.space ▸ h.below
  started := hkept.space ▸ h.started
  limit := hkept.limit h.limit
  known := by
    rw [hkept.subscribers, hkept.space]
    exact h.known
  distinct := hkept.subscribers ▸ h.distinct
  used := by
    rw [hkept.space]
    intro issue hissue hspace
    exact lt_of_lt_of_le (h.used issue hissue hspace) hkept.later
  tracks := hkept.tracks h.tracks

theorem DistinctTracks.congr (h : DistinctTracks source) (heq : written.tracks = source.tracks) :
    DistinctTracks written := by
  rw [DistinctTracks, heq]
  exact h

theorem apart_insert
    (happart : ∀ key key' source source', b.sources.lookup key = some source →
      b.sources.lookup key' = some source' →
      source.subscriptionNamespace = source'.subscriptionNamespace → key = key')
    (hnew : ∀ key' source', key' ≠ key → b.sources.lookup key' = some source' →
      source'.subscriptionNamespace ≠ written.subscriptionNamespace) :
    ∀ x y s t, (b.sources.insert key written).lookup x = some s →
      (b.sources.insert key written).lookup y = some t →
      s.subscriptionNamespace = t.subscriptionNamespace → x = y := by
  intro x y s t hs ht hspace
  by_cases hx : x = key
  · by_cases hy : y = key
    · rw [hx, hy]
    · rw [hx, lookup_insert, some.injEq] at hs
      rw [lookup_insert_ne hy] at ht
      exact absurd (hs ▸ hspace.symm) (hnew y t hy ht)
  · rw [lookup_insert_ne hx] at hs
    by_cases hy : y = key
    · rw [hy, lookup_insert, some.injEq] at ht
      exact absurd (ht ▸ hspace) (hnew x s hx hs)
    · rw [lookup_insert_ne hy] at ht
      exact happart x y s t hs ht hspace

theorem each_insert {P : SourceKey → MediaSource → Prop}
    (hold : ∀ x s, x ≠ key → b.sources.lookup x = some s → P x s) (hnew : P key written) :
    ∀ x s, (b.sources.insert key written).lookup x = some s → P x s := by
  intro x s hs
  by_cases hx : x = key
  · subst hx
    rw [lookup_insert, some.injEq] at hs
    exact hs ▸ hnew
  · rw [lookup_insert_ne hx] at hs
    exact hold x s hx hs

theorem sound_spent (hsound : b.Sound) (hnext : b.next ≠ 0) :
    Books.Sound { b with next := b.next + 1 } := by
  obtain ⟨hbound, hlater, -⟩ := spaceBound_next hnext
  have hle : spaceBound b.next ≤ spaceBound (b.next + 1) := by
    rw [hlater, hbound]
    exact Nat.le_succ _
  exact
    { hsound with
      each := fun key source hlookup => (hsound.each key source hlookup).mono hle
      past := fun issue hissue =>
        ⟨(hsound.past issue hissue).1, lt_of_lt_of_le (hsound.past issue hissue).2 hle⟩ }

theorem sound_created {config : Core.SourceConfig} (hsound : b.Sound)
    (hnone : b.sources.lookup key = none) (hnext : b.next ≠ 0) :
    Books.Sound { b with
      sources := b.sources.insert key (sourceCreate config b.next.toNat)
      next := b.next + 1 } := by
  obtain ⟨hbound, hlater, hpositive⟩ := spaceBound_next hnext
  have hle : spaceBound b.next ≤ spaceBound (b.next + 1) := by
    rw [hlater, hbound]
    exact Nat.le_succ _
  have hspace : (sourceCreate config b.next.toNat).subscriptionNamespace =
      spaceBound b.next := hbound.symm
  constructor
  case balance =>
    rw [total_insert_new audience hnone, show audience (sourceCreate config b.next.toNat) = 0
      from rfl, Nat.zero_add]
    exact hsound.balance
  case each =>
    refine each_insert (fun x s _ hs => (hsound.each x s hs).mono hle) ?_
    constructor
    case below =>
      rw [hspace, hbound, hlater]
      exact Nat.lt_succ_self _
    case started => exact hpositive
    case limit => exact Nat.le_of_ble_eq_true rfl
    case known =>
      intro u hu
      exact absurd hu not_mem_nil
    case distinct => exact nodup_nil
    case used =>
      intro issue hissue heq
      exact absurd (heq.trans hspace) (hsound.past issue hissue).2.ne
    case tracks => exact nodup_nil
  case apart =>
    refine apart_insert hsound.apart (fun x s _ hs => ?_)
    rw [hspace]
    exact (hsound.each x s hs).below.ne
  case past =>
    intro issue hissue
    exact ⟨(hsound.past issue hissue).1, lt_of_lt_of_le (hsound.past issue hissue).2 hle⟩
  case once => exact hsound.once

theorem sound_kept (hsound : b.Sound) (hlookup : b.sources.lookup key = some source)
    (hkept : Kept source written) :
    Books.Sound { b with sources := b.sources.insert key written } := by
  constructor
  case balance =>
    have htotal := total_insert_old audience (c := written) hlookup
    have hsame : audience written = audience source := by
      rw [audience, hkept.subscribers, audience]
    have hbal := hsound.balance
    dsimp only
    omega
  case each =>
    exact each_insert (fun x s _ hs => hsound.each x s hs)
      ((hsound.each key source hlookup).kept hkept)
  case apart =>
    refine apart_insert hsound.apart (fun x s hx hs heq => hx ?_)
    exact hsound.apart x key s source hs hlookup (heq.trans hkept.space)
  case past => exact hsound.past
  case once => exact hsound.once

theorem sound_joined {owner : Owner} {callback : ℕ} (hsound : b.Sound)
    (hlookup : b.sources.lookup key = some source) (hroom : source.nextSubscriptionId < 2 ^ 32)
    (hsubscribers : written.subscribers = source.subscribers ++
      [⟨source.subscriptionNamespace * 2 ^ 32 + source.nextSubscriptionId, callback⟩])
    (hspace : written.subscriptionNamespace = source.subscriptionNamespace)
    (hlater : written.nextSubscriptionId = source.nextSubscriptionId + 1)
    (htracks : written.tracks = source.tracks) :
    Books.Sound { b with
      sources := b.sources.insert key written
      created := b.created + 1
      issued := b.issued ++
        [⟨source.subscriptionNamespace * 2 ^ 32 + source.nextSubscriptionId, owner, key⟩] } := by
  have hsrc := hsound.each key source hlookup
  have hbelow := hsrc.below
  have hstart := hsrc.started
  -- the new id has the namespace of the source, and no id of that namespace got so far
  have hfresh : ∀ issue ∈ b.issued,
      issue.id ≠ source.subscriptionNamespace * 2 ^ 32 + source.nextSubscriptionId := by
    intro issue hissue heq
    have hused := hsrc.used issue hissue
    omega
  constructor
  case balance =>
    have htotal := total_insert_old audience (c := written) hlookup
    have hmore : audience written = audience source + 1 := by
      rw [audience, hsubscribers, length_append]
      rfl
    have hbal := hsound.balance
    dsimp only
    omega
  case each =>
    refine each_insert (fun x s hx hs => ?_) ?_
    · have hother := hsound.each x s hs
      refine { hother with known := fun u hu => ?_, used := ?_ }
      · obtain ⟨hid, owner', howner⟩ := hother.known u hu
        exact ⟨hid, owner', mem_append_left _ howner⟩
      · intro issue hissue heq
        rcases mem_append.mp hissue with hissue | hissue
        · exact hother.used issue hissue heq
        · obtain rfl := mem_singleton.mp hissue
          refine absurd (hsound.apart x key s source hs hlookup ?_) hx
          rw [← heq]
          dsimp only
          omega
    · constructor
      case below => exact hspace ▸ hbelow
      case started => exact hspace ▸ hstart
      case limit =>
        rw [hlater]
        exact hroom
      case known =>
        rw [hsubscribers, hspace]
        intro u hu
        rcases mem_append.mp hu with hu | hu
        · obtain ⟨hid, owner', howner⟩ := hsrc.known u hu
          exact ⟨hid, owner', mem_append_left _ howner⟩
        · obtain rfl := mem_singleton.mp hu
          refine ⟨?_, owner, mem_append_right _ (mem_singleton_self _)⟩
          dsimp only
          omega
      case distinct =>
        rw [hsubscribers, map_append, map_singleton]
        refine List.Nodup.append hsrc.distinct (nodup_singleton _) ?_
        rw [disjoint_singleton]
        intro hin
        obtain ⟨u, hu, hid⟩ := mem_map.mp hin
        obtain ⟨-, owner', howner⟩ := hsrc.known u hu
        exact hfresh _ howner hid
      case used =>
        rw [hspace, hlater]
        intro issue hissue heq
        rcases mem_append.mp hissue with hissue | hissue
        · exact (hsrc.used issue hissue heq).trans (Nat.lt_succ_self _)
        · obtain rfl := mem_singleton.mp hissue
          dsimp only
          omega
      case tracks => exact hsrc.tracks.congr htracks
  case apart =>
    refine apart_insert hsound.apart (fun x s hx hs heq => hx ?_)
    exact hsound.apart x key s source hs hlookup (heq.trans hspace)
  case past =>
    intro issue hissue
    rcases mem_append.mp hissue with hissue | hissue
    · exact hsound.past issue hissue
    · obtain rfl := mem_singleton.mp hissue
      dsimp only
      omega
  case once =>
    rw [map_append, map_singleton]
    refine List.Nodup.append hsound.once (nodup_singleton _) ?_
    rw [disjoint_singleton]
    intro hin
    obtain ⟨issue, hissue, hid⟩ := mem_map.mp hin
    exact hfresh issue hissue hid

theorem sound_left {i : ℕ} (hsound : b.Sound) (hlookup : b.sources.lookup key = some source)
    (hlt : i < source.subscribers.length)
    (hsubscribers : written.subscribers = source.subscribers.eraseIdx i)
    (hspace : written.subscriptionNamespace = source.subscriptionNamespace)
    (hlater : written.nextSubscriptionId = source.nextSubscriptionId)
    (htracks : written.tracks = source.tracks) :
    Books.Sound { b with
      sources := b.sources.insert key written
      removed := b.removed + 1 } := by
  have hsrc := hsound.each key source hlookup
  constructor
  case balance =>
    have htotal := total_insert_old audience (c := written) hlookup
    have hless : audience written + 1 = audience source := by
      rw [audience, audience, hsubscribers, length_eraseIdx_of_lt hlt]
      omega
    have hbal := hsound.balance
    dsimp only
    omega
  case each =>
    refine each_insert (fun x s _ hs => hsound.each x s hs) ?_
    constructor
    case below => exact hspace ▸ hsrc.below
    case started => exact hspace ▸ hsrc.started
    case limit => exact hlater ▸ hsrc.limit
    case known =>
      rw [hsubscribers, hspace]
      intro u hu
      exact hsrc.known u (mem_of_mem_eraseIdx hu)
    case distinct =>
      rw [hsubscribers]
      exact hsrc.distinct.sublist ((eraseIdx_sublist _ _).map _)
    case used =>
      rw [hspace, hlater]
      exact hsrc.used
    case tracks => exact hsrc.tracks.congr htracks
  case apart =>
    refine apart_insert hsound.apart (fun x s hx hs heq => hx ?_)
    exact hsound.apart x key s source hs hlookup (heq.trans hspace)
  case past => exact hsound.past
  case once => exact hsound.once

theorem lookup_of_erase {x : SourceKey} (h : (b.sources.erase key).lookup x = some source) :
    b.sources.lookup x = some source := by
  by_cases hx : x = key
  · rw [hx, lookup_erase] at h
    cases h
  · rwa [lookup_erase_ne hx] at h

theorem sound_removed (hsound : b.Sound) (hlookup : b.sources.lookup key = some source) :
    Books.Sound { b with
      sources := b.sources.erase key
      removed := b.removed + audience source } := by
  constructor
  case balance =>
    have htotal := total_of_lookup audience hlookup
    have hbal := hsound.balance
    dsimp only
    omega
  case each => exact fun x s hs => hsound.each x s (lookup_of_erase hs)
  case apart =>
    exact fun x y s t hs ht => hsound.apart x y s t (lookup_of_erase hs) (lookup_of_erase ht)
  case past => exact hsound.past
  case once => exact hsound.once

theorem Move.sound (hmove : Move b c) (hsound : b.Sound) : c.Sound := by
  cases hmove with
  | spent hnext => exact sound_spent hsound hnext
  | created key config hnone hnext => exact sound_created hsound hnone hnext
  | kept key source written hlookup hkept => exact sound_kept hsound hlookup hkept
  | joined key source written owner callback hlookup hroom hsubscribers hspace hlater htracks =>
    exact sound_joined hsound hlookup hroom hsubscribers hspace hlater htracks
  | left key source written i hlookup hlt hsubscribers hspace hlater htracks =>
    exact sound_left hsound hlookup hlt hsubscribers hspace hlater htracks
  | removed key source hlookup => exact sound_removed hsound hlookup

/-- Moves, one after the other. -/
abbrev Moves : Books → Books → Prop :=
  Relation.ReflTransGen Move

theorem Moves.sound (hmoves : Moves b c) (hsound : b.Sound) : c.Sound := by
  induction hmoves with
  | refl => exact hsound
  | tail _ hmove ih => exact hmove.sound ih

end Soundness

theorem Kept.refl (source : MediaSource) : Kept source source :=
  ⟨rfl, rfl, le_rfl, id, id, prefix_rfl⟩

theorem Kept.trans {source middle written : MediaSource} (h : Kept source middle)
    (h' : Kept middle written) : Kept source written :=
  ⟨h'.subscribers.trans h.subscribers, h'.space.trans h.space, h.later.trans h'.later,
    fun hlimit => h'.limit (h.limit hlimit), fun htracks => h'.tracks (h.tracks htracks),
    h.listed.trans h'.listed⟩

theorem addTrack_kept (source : MediaSource) (track : TrackInfo) (memory : Bool) :
    Kept source (sourceAddTrack source track memory).1 := by
  have hsame := Kept.refl source
  unfold sourceAddTrack Core.addTrack
  by_cases hclosed : source.state = .closed
  · rw [if_pos hclosed]
    exact hsame
  rw [if_neg hclosed]
  by_cases hfull : source.tracks.length ≥ source.config.maxTracks
  · rw [if_pos hfull]
    exact hsame
  rw [if_neg hfull]
  generalize (if track.trackId ≥ 0 then track.trackId else source.nextTrackId) = assigned
  by_cases hex : (Core.trackIndex source assigned).isSome
  · rw [if_pos hex]
    exact hsame
  rw [if_neg hex]
  cases hcopy : Core.copyTrack track assigned with
  | error rc => exact hsame
  | ok copied =>
    dsimp only
    split
    · exact hsame
    · refine ⟨rfl, rfl, le_rfl, id, fun hdist => ?_, prefix_append _ _⟩
      have hnew : assigned ∉ source.tracks.map TrackInfo.trackId := by
        have hnone : Core.trackIndex source assigned = none :=
          not_isSome_iff_eq_none.mp hex
        intro hin
        obtain ⟨other, hother, hid⟩ := mem_map.mp hin
        exact Keyed.findIdx?_eq_none_iff.mp hnone other hother hid
      rw [DistinctTracks, map_append, map_singleton, Core.copyTrack_id hcopy]
      exact hdist.append (nodup_singleton _) (disjoint_singleton.mpr hnew)

theorem pushGop_kept (source : MediaSource) (frame : MediaFrame) :
    Kept source (pushGop source frame) := by
  unfold pushGop
  split <;> exact ⟨rfl, rfl, le_rfl, id, id, prefix_rfl⟩

theorem cacheFrame_kept (source : MediaSource) (frame : MediaFrame) (track : TrackInfo) :
    Kept source (cacheFrame source frame track) := by
  have hsame := Kept.refl source
  unfold cacheFrame
  split
  · exact hsame
  split
  · exact pushGop_kept source frame
  split
  · refine Kept.trans ?_ (pushGop_kept _ frame)
    exact ⟨rfl, rfl, le_rfl, id, id, prefix_rfl⟩
  split
  · exact pushGop_kept source frame
  · exact hsame

theorem deliverFrom_kept (frame : MediaFrame) (codes : ℕ → ℤ) (fuel i : ℕ) (source : MediaSource) :
    Kept source (deliverFrom frame (fun id => ⟨codes id, []⟩) fuel i source).1 := by
  have hone : ∀ (s : MediaSource) (code : ℤ), Kept s (deliverFrame s ⟨code, []⟩) := by
    intro s code
    unfold deliverFrame
    split
    · exact ⟨rfl, rfl, le_rfl, id, id, prefix_rfl⟩
    · exact Kept.refl s
  induction fuel generalizing i source with
  | zero => exact Kept.refl source
  | succ fuel ih =>
    rw [deliverFrom]
    cases source.subscribers[i]? with
    | none => exact Kept.refl source
    | some u =>
      dsimp only
      split
      · exact hone source (codes u.id)
      · exact (hone source (codes u.id)).trans (ih (i + 1) _)

theorem publish_kept (source : MediaSource) (frame : MediaFrame) (codes : ℕ → ℤ) (memory : Bool) :
    Kept source (sourcePublish source frame codes memory).1 := by
  have hsame := Kept.refl source
  unfold sourcePublish
  split
  · exact hsame
  unfold Core.publish
  split
  · exact hsame
  cases source.accepts frame with
  | none => exact hsame
  | some track =>
    refine Kept.trans ?_ (deliverFrom_kept frame codes _ 0 _)
    exact (cacheFrame_kept source frame track).trans ⟨rfl, rfl, le_rfl, id, id, prefix_rfl⟩

/-- What a subscription does to a source. -/
inductive SubscribeOutcome (source : MediaSource) (callback : ℕ) :
    MediaSource → Except ℤ ℕ → Prop where
  | refused
      (written : MediaSource) (rc : ℤ)
      (hkept : Kept source written)
      (htracks : written.tracks = source.tracks) :
      SubscribeOutcome source callback written (.error rc)
  | joined
      (written : MediaSource)
      (hroom : source.nextSubscriptionId < 2 ^ 32)
      (hsubscribers : written.subscribers = source.subscribers ++
        [⟨source.subscriptionNamespace * 2 ^ 32 + source.nextSubscriptionId, callback⟩])
      (hspace : written.subscriptionNamespace = source.subscriptionNamespace)
      (hlater : written.nextSubscriptionId = source.nextSubscriptionId + 1)
      (htracks : written.tracks = source.tracks) :
      SubscribeOutcome source callback written
        (.ok (source.subscriptionNamespace * 2 ^ 32 + source.nextSubscriptionId))

theorem subscribe_outcome
    (source : MediaSource) (callback : ℕ) (replayCached : Bool) (codes : ℕ → ℤ) :
    SubscribeOutcome source callback (Core.subscribe source callback replayCached codes).1
      (Core.subscribe source callback replayCached codes).2.1 := by
  have hsame := Kept.refl source
  unfold Core.subscribe
  split
  · exact .refused _ _ hsame rfl
  split
  · exact .refused _ _ hsame rfl
  split
  · exact .refused _ _ hsame rfl
  rename_i hroom
  have hlt : source.nextSubscriptionId < 2 ^ 32 := by
    unfold Core.subscriptionLocalIdMax at hroom
    omega
  dsimp only
  split
  · exact .joined _ hlt rfl rfl rfl rfl
  split
  · exact .joined _ hlt rfl rfl rfl rfl
  · exact .refused _ _ ⟨rfl, rfl, Nat.le_succ _, fun _ => hlt, id, prefix_rfl⟩ rfl

/-- What `turbo_media_source_unsubscribe` does: nothing, or one subscriber leaves. -/
inductive UnsubscribeOutcome (source : MediaSource) (id : ℕ) : MediaSource → ℤ → Prop where
  | absent
      (rc : ℤ) (hrc : rc ≠ mediaOk)
      (hnone : id = 0 ∨ ∀ u ∈ source.subscribers, u.id ≠ id) :
      UnsubscribeOutcome source id source rc
  | left
      (written : MediaSource) (i : ℕ) (u : MediaSubscription)
      (hget : source.subscribers[i]? = some u)
      (hid : u.id = id)
      (hsubscribers : written.subscribers = source.subscribers.eraseIdx i)
      (hspace : written.subscriptionNamespace = source.subscriptionNamespace)
      (hlater : written.nextSubscriptionId = source.nextSubscriptionId)
      (htracks : written.tracks = source.tracks) :
      UnsubscribeOutcome source id written mediaOk

theorem unsubscribe_outcome (source : MediaSource) (id : ℕ) :
    UnsubscribeOutcome source id (Core.unsubscribe source id).1 (Core.unsubscribe source id).2 := by
  unfold Core.unsubscribe
  split
  next hzero => exact .absent Core.mediaErrInvalid (by decide) (Or.inl hzero)
  cases hfind : source.subscribers.findIdx? (fun u => u.id == id) with
  | none =>
    exact .absent Core.mediaErrNotFound (by decide)
      (Or.inr (Keyed.findIdx?_eq_none_iff.mp hfind))
  | some i =>
    obtain ⟨u, hget, hid⟩ := Keyed.getElem?_of_findIdx? hfind
    exact .left _ i u hget hid rfl rfl rfl rfl

theorem UnsubscribeOutcome.leaves {id : ℕ} {rc : ℤ} (h : UnsubscribeOutcome source id written rc)
    (hdist : (source.subscribers.map MediaSubscription.id).Nodup)
    (hzero : ∀ u ∈ source.subscribers, u.id ≠ 0) :
    written.subscribers = source.subscribers.filter (fun u => decide (u.id ≠ id)) ∧
      written.tracks = source.tracks := by
  cases h with
  | absent _ _ hnone =>
    refine ⟨?_, rfl⟩
    symm
    rw [filter_eq_self]
    intro u hu
    rcases hnone with rfl | hnone
    · exact decide_eq_true (hzero u hu)
    · exact decide_eq_true (hnone u hu)
  | left _ i u hget hid hsubs hspace hlater htracks =>
    refine ⟨?_, htracks⟩
    rw [hsubs, Keyed.eraseIdx_eq_filter hdist hget, hid]

theorem SourceSound.id_ne_zero {bound : ℕ} {issued : List Issue} {key : SourceKey}
    (h : SourceSound bound issued key source) : ∀ u ∈ source.subscribers, u.id ≠ 0 := by
  intro u hu hzero
  obtain ⟨hspace, -⟩ := h.known u hu
  have hstarted := h.started
  omega

/-- The source under a key has the subscribers. -/
def subscribersAt (sources : AList (fun _ : SourceKey => MediaSource)) (key : SourceKey) :
    List MediaSubscription :=
  ((sources.lookup key).map MediaSource.subscribers).getD []

/-- The source under a key has the tracks; `none` when there is no source. -/
def tracksAt (sources : AList (fun _ : SourceKey => MediaSource)) (key : SourceKey) :
    Option (List TrackInfo) :=
  (sources.lookup key).map MediaSource.tracks

/-- Nothing under other keys changes, no subscriber joins or leaves, and the tracks that a
source has stay where they are. -/
structure Grown (key : RawKey) (before after : AList (fun _ : SourceKey => MediaSource)) :
    Prop where
  elsewhere : ∀ k, key.normalize ≠ some k → after.lookup k = before.lookup k
  subscribers : ∀ k, subscribersAt after k = subscribersAt before k
  listed : ∀ k, ∀ tracks ∈ tracksAt before k, ∃ tracks' ∈ tracksAt after k, tracks <+: tracks'

variable {runtime : Runtime} {registry : Registry} {key : RawKey} {k : SourceKey}
variable {source written : MediaSource} {issued : List Issue}
variable {before middle after : AList (fun _ : SourceKey => MediaSource)}

theorem Grown.refl (key : RawKey) (before : AList (fun _ : SourceKey => MediaSource)) :
    Grown key before before :=
  ⟨fun _ _ => rfl, fun _ => rfl, fun _ tracks htracks => ⟨tracks, htracks, prefix_rfl⟩⟩

theorem Grown.trans (h : Grown key before middle) (h' : Grown key middle after) :
    Grown key before after := by
  refine ⟨fun k hk => (h'.elsewhere k hk).trans (h.elsewhere k hk),
    fun k => (h'.subscribers k).trans (h.subscribers k), ?_⟩
  intro k tracks htracks
  obtain ⟨tracks', hmiddle, hprefix⟩ := h.listed k tracks htracks
  obtain ⟨tracks'', hafter, hprefix'⟩ := h'.listed k tracks' hmiddle
  exact ⟨tracks'', hafter, hprefix.trans hprefix'⟩

theorem Grown.insert (hkey : key.normalize = some k)
    (hsubscribers : written.subscribers = subscribersAt before k)
    (hlisted : ∀ tracks ∈ tracksAt before k, tracks <+: written.tracks) :
    Grown key before (before.insert k written) := by
  refine ⟨?_, ?_, ?_⟩
  · intro x hx
    refine lookup_insert_ne (fun hk => hx ?_)
    rw [hkey, hk]
  · intro x
    by_cases hx : x = k
    · subst hx
      rw [subscribersAt, lookup_insert]
      exact hsubscribers
    · rw [subscribersAt, subscribersAt, lookup_insert_ne hx]
  · intro x tracks htracks
    by_cases hx : x = k
    · subst hx
      refine ⟨written.tracks, ?_, hlisted tracks htracks⟩
      rw [tracksAt, lookup_insert]
      rfl
    · refine ⟨tracks, ?_, prefix_rfl⟩
      rw [tracksAt, lookup_insert_ne hx]
      exact htracks

theorem registryFind_eq_some :
    registryFind registry key = some source ↔
      ∃ k, key.normalize = some k ∧ registry.sources.lookup k = some source := by
  rw [registryFind, bind_eq_some_iff]

theorem write_eq (hkey : key.normalize = some k) :
    registry.write key source = { registry with sources := registry.sources.insert k source } := by
  rw [Registry.write, hkey]

theorem getOrCreateSource_spec
    (runtime : Runtime) (key : RawKey) (fault : CreateFault) (issued : List Issue) :
    Moves (runtime.books issued) ((getOrCreateSource runtime key fault).1.books issued) ∧
      Grown key runtime.registry.sources (getOrCreateSource runtime key fault).1.registry.sources ∧
      ((getOrCreateSource runtime key fault).2 ≠ mediaOk →
        (getOrCreateSource runtime key fault).1.registry.sources = runtime.registry.sources) := by
  have hstay : ∀ rc : ℤ, Moves (runtime.books issued) (runtime.books issued) ∧
      Grown key runtime.registry.sources runtime.registry.sources ∧
      (rc ≠ mediaOk → runtime.registry.sources = runtime.registry.sources) :=
    fun _ => ⟨Relation.ReflTransGen.refl, Grown.refl _ _, fun _ => rfl⟩
  rw [getOrCreateSource, registryGetOrCreate]
  cases hkey : key.normalize with
  | none => exact hstay _
  | some k =>
    dsimp only
    split
    · exact hstay _
    rename_i hfound
    split
    · exact hstay _
    split
    · exact hstay _
    rename_i hmemory
    split
    · exact hstay _
    rename_i hspaces
    have hnone : runtime.registry.sources.lookup k = none :=
      not_isSome_iff_eq_none.mp hfound
    have hcreated : Moves (runtime.books issued)
        { runtime.books issued with
          sources := runtime.registry.sources.insert k (sourceCreate runtime.sourceConfig
            runtime.registry.nextSubscriptionNamespace.toNat)
          next := runtime.registry.nextSubscriptionNamespace + 1 } :=
      Relation.ReflTransGen.single (.created k _ hnone hspaces)
    have hgrown : Grown key runtime.registry.sources
        (runtime.registry.sources.insert k (sourceCreate runtime.sourceConfig
          runtime.registry.nextSubscriptionNamespace.toNat)) := by
      refine Grown.insert hkey ?_ ?_
      · rw [subscribersAt, hnone]
        rfl
      · rw [tracksAt, hnone]
        exact fun _ hin => nomatch hin
    cases fault with
    | source => exact absurd rfl hmemory
    | none => exact ⟨hcreated, hgrown, fun h => absurd rfl h⟩
    | put outOfMemory =>
      have hrc : (if outOfMemory = true then mediaErrNomem else mediaErrInvalid) ≠
          mediaOk := by
        cases outOfMemory <;> decide
      rw [if_neg hrc]
      exact ⟨Relation.ReflTransGen.single (.spent hspaces), Grown.refl _ _, fun _ => rfl⟩

theorem kept_moves (hkey : key.normalize = some k)
    (hlookup : runtime.registry.sources.lookup k = some source) (hkept : Kept source written) :
    Moves (runtime.books issued)
        { runtime.books issued with sources := runtime.registry.sources.insert k written } ∧
      Grown key runtime.registry.sources (runtime.registry.sources.insert k written) := by
  refine ⟨Relation.ReflTransGen.single (.kept k source written hlookup hkept), ?_⟩
  refine Grown.insert hkey ?_ ?_
  · rw [subscribersAt, hlookup]
    exact hkept.subscribers
  · rw [tracksAt, hlookup]
    exact fun _ hin => some.inj hin ▸ hkept.listed

theorem addTrack_spec
    (runtime : Runtime) (key : RawKey) (track : TrackInfo) (fault : CreateFault) (memory : Bool)
    (issued : List Issue) :
    Moves (runtime.books issued) ((addTrack runtime key track fault memory).1.books issued) ∧
      Grown key runtime.registry.sources
        (addTrack runtime key track fault memory).1.registry.sources := by
  obtain ⟨hmoves, hgrown, -⟩ := getOrCreateSource_spec runtime key fault issued
  unfold addTrack
  generalize getOrCreateSource runtime key fault = out at hmoves hgrown
  obtain ⟨made, rc⟩ := out
  dsimp only at hmoves hgrown ⊢
  split
  · exact ⟨hmoves, hgrown⟩
  cases hfind : registryFind made.registry key with
  | none => exact ⟨hmoves, hgrown⟩
  | some source =>
    obtain ⟨k, hkey, hlookup⟩ := registryFind_eq_some.mp hfind
    obtain ⟨hmove, hwrite⟩ := kept_moves hkey hlookup (addTrack_kept source track memory)
    dsimp only
    rw [write_eq hkey]
    split <;> exact ⟨hmoves.trans hmove, hgrown.trans hwrite⟩

theorem addTracksFrom_spec
    (key : RawKey) (memory : OpenMemory) (i : ℕ) (tracks : List TrackInfo) (runtime : Runtime)
    (issued : List Issue) :
    Moves (runtime.books issued) ((addTracksFrom key memory i tracks runtime).1.books issued) ∧
      Grown key runtime.registry.sources
        (addTracksFrom key memory i tracks runtime).1.registry.sources := by
  induction tracks generalizing i runtime with
  | nil => exact ⟨Relation.ReflTransGen.refl, Grown.refl _ _⟩
  | cons track rest ih =>
    obtain ⟨hmoves, hgrown⟩ :=
      addTrack_spec runtime key track (memory.trackSource i) (memory.track i) issued
    rw [addTracksFrom]
    generalize addTrack runtime key track (memory.trackSource i) (memory.track i) = out
      at hmoves hgrown
    obtain ⟨added, rc⟩ := out
    dsimp only at hmoves hgrown ⊢
    split
    · exact ⟨hmoves, hgrown⟩
    · obtain ⟨hmoves', hgrown'⟩ := ih (i + 1) added
      exact ⟨hmoves.trans hmoves', hgrown.trans hgrown'⟩

theorem sessionAddTracks_spec
    (runtime : Runtime) (key : RawKey) (tracks : Option (List TrackInfo)) (trackCount : ℕ)
    (memory : OpenMemory) (issued : List Issue) :
    Moves (runtime.books issued)
        ((sessionAddTracks runtime key tracks trackCount memory).1.books issued) ∧
      Grown key runtime.registry.sources
        (sessionAddTracks runtime key tracks trackCount memory).1.registry.sources := by
  unfold sessionAddTracks
  split
  · exact ⟨Relation.ReflTransGen.refl, Grown.refl _ _⟩
  cases tracks with
  | none => exact ⟨Relation.ReflTransGen.refl, Grown.refl _ _⟩
  | some tracks => exact addTracksFrom_spec key memory 0 (tracks.take trackCount) runtime issued

theorem publish_moves
    (runtime : Runtime) (key : RawKey) (frame : MediaFrame) (codes : ℕ → ℤ) (memory : Bool)
    (issued : List Issue) :
    Moves (runtime.books issued) ((publish runtime key frame codes memory).1.books issued) := by
  unfold publish
  cases hfind : registryFind runtime.registry key with
  | none => exact Relation.ReflTransGen.refl
  | some source =>
    obtain ⟨k, hkey, hlookup⟩ := registryFind_eq_some.mp hfind
    obtain ⟨hmove, -⟩ := kept_moves hkey hlookup (publish_kept source frame codes memory)
    dsimp only
    rw [write_eq hkey]
    split <;> exact hmove

/-- Whether a source was written over another with the same tracks, under its key. -/
theorem tracksAt_insert (hlookup : before.lookup k = some source)
    (htracks : written.tracks = source.tracks) (x : SourceKey) :
    tracksAt (before.insert k written) x = tracksAt before x := by
  by_cases hx : x = k
  · subst hx
    rw [tracksAt, tracksAt, lookup_insert, hlookup, map_some, map_some, htracks]
  · rw [tracksAt, tracksAt, lookup_insert_ne hx]

/-- What `turbo_media_server_runtime_subscribe` does: a subscription that is refused leaves the
sources with their tracks and subscribers; one that is made is issued, to whom it may be. -/
inductive JoinOutcome (runtime : Runtime) (key : RawKey) : Runtime → Except ℤ ℕ → Prop where
  | refused
      (after : Runtime) (rc : ℤ)
      (hmoves : ∀ issued, Moves (runtime.books issued) (after.books issued))
      (hgrown : Grown key runtime.registry.sources after.registry.sources)
      (htracks : ∀ x, tracksAt after.registry.sources x = tracksAt runtime.registry.sources x) :
      JoinOutcome runtime key after (.error rc)
  | joined
      (after : Runtime) (id : ℕ) (k : SourceKey)
      (hkey : key.normalize = some k)
      (hmoves : ∀ issued owner, Moves (runtime.books issued)
        (after.books (issued ++ [⟨id, owner, k⟩]))) :
      JoinOutcome runtime key after (.ok id)

theorem join_outcome (runtime : Runtime) (key : RawKey) (callback : Option ℕ) (replayCached : Bool)
    (codes : ℕ → ℤ) :
    JoinOutcome runtime key (subscribe runtime key callback replayCached codes).1
      (subscribe runtime key callback replayCached codes).2 := by
  have hstay : ∀ rc : ℤ, JoinOutcome runtime key runtime (.error rc) := fun rc =>
    .refused runtime rc (fun _ => Relation.ReflTransGen.refl) (Grown.refl _ _) (fun _ => rfl)
  unfold subscribe
  cases hfind : registryFind runtime.registry key with
  | none => exact hstay _
  | some source =>
    obtain ⟨k, hkey, hlookup⟩ := registryFind_eq_some.mp hfind
    cases callback with
    | none => exact hstay _
    | some callback =>
      have hout := subscribe_outcome source callback replayCached codes
      dsimp only
      generalize Core.subscribe source callback replayCached codes = out at hout
      obtain ⟨written, result, deliveries⟩ := out
      rw [write_eq hkey]
      cases hout with
      | refused rc hkept htracks =>
        exact .refused _ rc (fun _ => (kept_moves hkey hlookup hkept).1)
          (@kept_moves _ _ _ _ _ [] hkey hlookup hkept).2 (tracksAt_insert hlookup htracks)
      | joined hroom hsubscribers hspace hlater htracks =>
        exact .joined _ _ k hkey (fun _ owner => Relation.ReflTransGen.single
          (.joined k source written owner callback hlookup hroom hsubscribers hspace hlater
            htracks))

theorem unsubscribe_moves (runtime : Runtime) (key : RawKey) (id : ℕ) (issued : List Issue) :
    Moves (runtime.books issued) ((unsubscribe runtime key id).1.books issued) := by
  unfold unsubscribe
  cases hfind : registryFind runtime.registry key with
  | none => exact Relation.ReflTransGen.refl
  | some source =>
    obtain ⟨k, hkey, hlookup⟩ := registryFind_eq_some.mp hfind
    have hout := unsubscribe_outcome source id
    dsimp only
    generalize Core.unsubscribe source id = out at hout
    obtain ⟨written, rc⟩ := out
    dsimp only at hout ⊢
    rw [write_eq hkey]
    cases hout with
    | absent _ hrc hnone =>
      rw [if_neg hrc]
      exact (kept_moves hkey hlookup (Kept.refl source)).1
    | left _ i u hget hid hsubscribers hspace hlater htracks =>
      rw [if_pos rfl]
      obtain ⟨hlt, -⟩ := List.getElem?_eq_some_iff.mp hget
      exact Relation.ReflTransGen.single
        (.left k source written i hlookup hlt hsubscribers hspace hlater htracks)

/-- Where the books are in order, exactly the subscriber with the id leaves. -/
theorem unsubscribe_spec (hsound : (runtime.books issued).Sound)
    (hkey : key.normalize = some k) (id : ℕ) (x : SourceKey) :
    subscribersAt (unsubscribe runtime key id).1.registry.sources x =
        (if x = k then (subscribersAt runtime.registry.sources k).filter
          (fun u => decide (u.id ≠ id)) else subscribersAt runtime.registry.sources x) ∧
      tracksAt (unsubscribe runtime key id).1.registry.sources x =
        tracksAt runtime.registry.sources x := by
  unfold unsubscribe
  cases hfind : registryFind runtime.registry key with
  | none =>
    have hnone : runtime.registry.sources.lookup k = none := by
      rw [registryFind, hkey] at hfind
      exact hfind
    refine ⟨?_, rfl⟩
    dsimp only
    split
    · rename_i hx
      rw [hx, subscribersAt, hnone]
      rfl
    · rfl
  | some source =>
    obtain ⟨k', hkey', hlookup⟩ := registryFind_eq_some.mp hfind
    obtain rfl : k = k' := some.inj (hkey.symm.trans hkey')
    have hsrc := hsound.each k source hlookup
    have hbef : subscribersAt runtime.registry.sources k = source.subscribers := by
      rw [subscribersAt, hlookup]
      rfl
    have hout := unsubscribe_outcome source id
    dsimp only
    generalize Core.unsubscribe source id = out at hout
    obtain ⟨written, rc⟩ := out
    rw [write_eq hkey]
    have hleaves := hout.leaves hsrc.distinct hsrc.id_ne_zero
    have hafter : ∀ stats : ServerStats,
        subscribersAt (({ runtime with
            registry := { runtime.registry with
              sources := runtime.registry.sources.insert k written }
            stats := stats } : Runtime).registry.sources) x =
          (if x = k then (subscribersAt runtime.registry.sources k).filter
            (fun u => decide (u.id ≠ id)) else subscribersAt runtime.registry.sources x) ∧
        tracksAt (({ runtime with
            registry := { runtime.registry with
              sources := runtime.registry.sources.insert k written }
            stats := stats } : Runtime).registry.sources) x =
          tracksAt runtime.registry.sources x := by
      intro stats
      refine ⟨?_, tracksAt_insert hlookup hleaves.2 x⟩
      split
      · rename_i hx
        rw [hx, subscribersAt, lookup_insert, hbef, ← hleaves.1]
        rfl
      · rename_i hx
        rw [subscribersAt, lookup_insert_ne hx, subscribersAt]
    split <;> exact hafter _

theorem removeSource_spec (runtime : Runtime) (key : RawKey) (issued : List Issue) :
    Moves (runtime.books issued) ((removeSource runtime key).1.books issued) ∧
      ∀ x, (removeSource runtime key).1.registry.sources.lookup x =
        if key.normalize = some x then none else runtime.registry.sources.lookup x := by
  unfold removeSource
  cases hfind : registryFind runtime.registry key with
  | none =>
    refine ⟨Relation.ReflTransGen.refl, fun x => ?_⟩
    dsimp only
    split
    · rename_i hx
      rw [registryFind, hx] at hfind
      exact hfind
    · rfl
  | some source =>
    obtain ⟨k, hkey, hlookup⟩ := registryFind_eq_some.mp hfind
    have hfound : (runtime.registry.sources.lookup k).isSome = true := by
      rw [hlookup]
      rfl
    rw [registryRemove, hkey]
    dsimp only
    rw [if_pos hfound, if_pos rfl]
    refine ⟨Relation.ReflTransGen.single (.removed k source hlookup), fun x => ?_⟩
    split
    · rename_i hx
      rw [← some.inj hx, lookup_erase]
    · rename_i hx
      exact lookup_erase_ne (fun h => hx (by rw [h]))

end TurboMedia.Server
