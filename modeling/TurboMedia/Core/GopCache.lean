import TurboMedia.Core.MediaSource
import TurboMedia.Lib.Keyed
import TurboMedia.Lib.Ring

/-!
# What the cache of a source holds

**Input.**  Any run of calls on a new source.

**Method.**  The ring stores a list of frames (`GopSound`), and each call takes that list to
another list.  It is a suffix of the frames published, and it starts with the last video
keyframe, as long as a frame neither passes by a cache that is not empty nor pushes the
keyframe out from before other video frames (`Admissible`).
-/

namespace TurboMedia.Core

open List MediaSource

def MediaSource.isVideo (s : MediaSource) (frame : MediaFrame) : Bool :=
  s.tracks.any (fun t => t.trackId == frame.trackId && decide (t.type = .video))

/-- A video frame that starts a group of pictures. -/
def MediaSource.startsGop (s : MediaSource) (frame : MediaFrame) : Bool :=
  s.isVideo frame && decide (frame.isKeyframe ≠ 0)

/-- A source and the frames that were published on it. -/
structure WatchedSource where
  source : MediaSource
  published : List MediaFrame

/-- A frame is published when its track is known, whatever the subscribers answer. -/
def WatchedSource.see (w : WatchedSource) : SourceOp → List MediaFrame
  | .publish frame _ =>
    if (w.source.accepts frame).isSome then w.published ++ [frame] else w.published
  | _ => w.published

def sourceMachine : Machine WatchedSource SourceOp SourceAnswer where
  step := fun w op => (⟨(sourceStep w.source op).1, w.see op⟩, (sourceStep w.source op).2)

/-- The cache is the end of what was published, and what a subscriber is given first is a
prefix of it that can be decoded. -/
structure Replayable (s : MediaSource) (published : List MediaFrame) : Prop where
  suffix : s.cached <:+ published
  bounded : s.cached.length ≤ s.config.gopCapacity
  decodable : ∀ f, s.cached.find? s.isVideo = some f → f.isKeyframe ≠ 0
  replayed : ∀ callback codes f,
    ((subscribe s callback true codes).2.2.map Delivery.frame).find? s.isVideo = some f →
      f.isKeyframe ≠ 0

/-- What is asked of a frame that is published and does not start a group of pictures: before
the first video keyframe nothing may be in the cache; and when the cache is full, neither the
frame nor one behind the oldest is a video frame. -/
def Admissible (w : WatchedSource) : SourceOp → Prop
  | .publish frame _ =>
    (w.source.accepts frame).isSome → w.source.hasVideoTrack = true →
      w.source.startsGop frame = false →
      (w.source.hasVideoKeyframe = false → w.source.gopCount = 0) ∧
        (w.source.hasVideoKeyframe = true → w.source.gopCount = w.source.config.gopCapacity →
          ∀ f ∈ w.source.cached.tail ++ [frame], w.source.isVideo f = false)
  | _ => True

section Contents

variable {s : MediaSource} {frames : List MediaFrame} {frame : MediaFrame}

/-- The ring stores these frames. -/
structure GopHolds (s : MediaSource) (frames : List MediaFrame) : Prop where
  size : s.gopFrames.length = s.config.gopCapacity
  positive : 0 < s.config.gopCapacity
  start : s.gopStart < s.config.gopCapacity
  count : s.gopCount = frames.length
  fits : frames.length ≤ s.config.gopCapacity
  holds : Ring.Holds s.gopFrames s.gopStart (frames.map some)

theorem GopHolds.cached (h : GopHolds s frames) : s.cached = frames := by
  have hget : ∀ i < frames.length,
      (s.gopFrames[(s.gopStart + i) % s.config.gopCapacity]?).join = frames[i]? := by
    intro i hi
    have hhold := h.holds i (by rw [length_map]; exact hi)
    rw [h.size] at hhold
    rw [hhold, getElem?_map, getElem?_eq_getElem hi]
    rfl
  rw [MediaSource.cached, h.count]
  have hall : ∀ n ≤ frames.length, (List.range n).filterMap (fun i =>
      (s.gopFrames[(s.gopStart + i) % s.config.gopCapacity]?).join) = frames.take n := by
    intro n
    induction n with
    | zero =>
      intro _
      rfl
    | succ n ih =>
      intro hn
      rw [range_succ, filterMap_append, ih (by omega), take_add_one,
        filterMap_cons, hget n hn, getElem?_eq_getElem hn]
      rfl
  rw [hall _ le_rfl, take_length]

theorem GopHolds.clear (h : GopHolds s frames) :
    GopHolds (clearGop s) [] where
  size := length_replicate
  positive := h.positive
  start := h.positive
  count := rfl
  fits := Nat.zero_le _
  holds := Ring.Holds.nil _ _

theorem GopHolds.push (h : GopHolds s frames) (frame : MediaFrame) :
    GopHolds (pushGop s frame)
      ((if frames.length < s.config.gopCapacity then frames else frames.tail) ++ [frame]) := by
  rw [pushGop, h.count]
  by_cases hroom : frames.length < s.config.gopCapacity
  · rw [if_pos hroom, if_pos hroom]
    refine ⟨?_, h.positive, h.start, ?_, ?_, ?_⟩
    · rw [length_set]
      exact h.size
    · rw [length_append, length_singleton]
    · rw [length_append, length_singleton]
      exact hroom
    · rw [map_append]
      refine h.holds.set_next ?_ ?_
      · rw [length_map, h.size]
        exact hroom
      · rw [length_map, h.size]
  · rw [if_neg hroom, if_neg hroom]
    have hfull : frames.length = s.config.gopCapacity := le_antisymm h.fits (not_lt.mp hroom)
    obtain ⟨first, rest, rfl⟩ : ∃ first rest, frames = first :: rest := by
      cases frames with
      | nil => exact absurd hfull (by have := h.positive; rw [length_nil]; omega)
      | cons first rest => exact ⟨first, rest, rfl⟩
    rw [length_cons] at hfull
    refine ⟨?_, h.positive, Nat.mod_lt _ h.positive, ?_, ?_, ?_⟩
    · rw [length_set]
      exact h.size
    · simp
    · simp only [tail_cons, length_append, length_singleton]
      omega
    · have hfirst : Ring.Holds (s.gopFrames.set s.gopStart (some frame)) (s.gopStart + 1)
          (rest.map some) := by
        refine Ring.Holds.set_first (x := some first) h.holds ?_ ?_
        · rw [length_map, h.size]
          omega
        · rw [h.size, Nat.mod_eq_of_lt h.start]
      have hsize : (s.gopFrames.set s.gopStart (some frame)).length = s.config.gopCapacity := by
        rw [length_set]
        exact h.size
      have hnext := hfirst.set_next (i := s.gopStart) (x := some frame)
        (by rw [length_map, hsize]; omega)
        (by rw [length_map, hsize, Nat.add_assoc, Nat.add_comm 1, hfull, Nat.add_mod_right,
          Nat.mod_eq_of_lt h.start])
      rw [set_set] at hnext
      rw [tail_cons, map_append]
      rw [← hsize, Ring.holds_mod]
      exact hnext

end Contents

section Frames

variable {s t : MediaSource} {frame : MediaFrame}

/-- The calls that only touch subscribers, state and statistics. -/
def SameCache (s t : MediaSource) : Prop :=
  ∃ state subscribers nextSubscriptionId stats, t = { s with
    state := state
    subscribers := subscribers
    nextSubscriptionId := nextSubscriptionId
    stats := stats }

theorem SameCache.refl (s : MediaSource) : SameCache s s :=
  ⟨_, _, _, _, rfl⟩

theorem SameCache.trans {u : MediaSource} (h : SameCache s t) (h' : SameCache t u) :
    SameCache s u := by
  obtain ⟨_, _, _, _, rfl⟩ := h
  obtain ⟨_, _, _, _, rfl⟩ := h'
  exact ⟨_, _, _, _, rfl⟩

theorem sameCache_unsubscribe (s : MediaSource) (id : ℕ) : SameCache s (unsubscribe s id).1 := by
  rw [unsubscribe]
  split_ifs
  · exact SameCache.refl s
  · split
    · exact SameCache.refl s
    · exact ⟨_, _, _, _, rfl⟩

theorem sameCache_unsubscribes (ids : List ℕ) (s : MediaSource) :
    SameCache s (ids.foldl (fun s id => (unsubscribe s id).1) s) := by
  induction ids generalizing s with
  | nil => exact SameCache.refl s
  | cons id ids ih => exact (sameCache_unsubscribe s id).trans (ih _)

theorem sameCache_deliverFrame (s : MediaSource) (reaction : Reaction) :
    SameCache s (deliverFrame s reaction) := by
  have hafter := sameCache_unsubscribes reaction.unsubscribes s
  rw [deliverFrame]
  split_ifs
  · exact hafter.trans ⟨_, _, _, _, rfl⟩
  · exact hafter

theorem sameCache_deliverFrom (frame : MediaFrame) (react : ℕ → Reaction) (fuel i : ℕ)
    (s : MediaSource) : SameCache s (deliverFrom frame react fuel i s).1 := by
  induction fuel generalizing i s with
  | zero => exact SameCache.refl s
  | succ fuel ih =>
    rw [deliverFrom]
    split
    · exact SameCache.refl s
    · next u _ =>
        split_ifs
        · exact sameCache_deliverFrame s (react u.id)
        · exact (sameCache_deliverFrame s (react u.id)).trans (ih _ _)

theorem sameCache_subscribe (s : MediaSource) (callback : ℕ) (replayCached : Bool) (codes : ℕ → ℤ) :
    SameCache s (subscribe s callback replayCached codes).1 := by
  rw [subscribe]
  split_ifs
  · exact SameCache.refl s
  · exact SameCache.refl s
  · exact SameCache.refl s
  · exact ⟨_, _, _, _, rfl⟩
  · dsimp only
    split
    · exact ⟨_, _, _, _, rfl⟩
    · exact ⟨_, _, _, _, rfl⟩

theorem replay_prefix (id : ℕ) (codes : ℕ → ℤ) (k : ℕ) (frames : List MediaFrame) :
    (replay id codes k frames).1.map Delivery.frame <+: frames := by
  induction frames generalizing k with
  | nil => exact nil_prefix
  | cons frame rest ih =>
    rw [replay]
    split_ifs
    · exact ⟨rest, rfl⟩
    · exact cons_prefix_cons.mpr ⟨rfl, ih (k + 1)⟩

theorem subscribe_prefix (s : MediaSource) (callback : ℕ) (codes : ℕ → ℤ) :
    (subscribe s callback true codes).2.2.map Delivery.frame <+: s.cached := by
  rw [subscribe]
  split_ifs
  · exact nil_prefix
  · exact nil_prefix
  · exact nil_prefix
  · exact nil_prefix
  · dsimp only
    split
    · exact replay_prefix _ codes 0 s.cached
    · exact replay_prefix _ codes 0 s.cached

end Frames

section Soundness

variable {s t : MediaSource} {frames published : List MediaFrame} {frame : MediaFrame}

/-- The frames are a group of pictures: none is a video frame before the first keyframe; then
the keyframe comes first, or all video frames were pushed out. -/
structure Grouped (s : MediaSource) (frames : List MediaFrame) : Prop where
  before : s.hasVideoKeyframe = false → ∀ f ∈ frames, s.isVideo f = false
  after : s.hasVideoKeyframe = true → s.hasVideoTrack = true ∧
    ((∃ k rest, frames = k :: rest ∧ s.startsGop k = true) ∨
      frames.length = s.config.gopCapacity ∧ ∀ f ∈ frames, s.isVideo f = false)

/-- The cache is as it should be. -/
structure GopSound (s : MediaSource) (published : List MediaFrame) : Prop where
  cache : ∃ frames, GopHolds s frames ∧ frames <:+ published ∧ Grouped s frames ∧
    ∀ f ∈ frames, ∃ t ∈ s.tracks, t.trackId = f.trackId
  ids : (s.tracks.map TrackInfo.trackId).Nodup
  video : s.hasVideoTrack = true ↔ ∃ t ∈ s.tracks, t.type = .video

theorem GopSound.congr (h : GopSound s published) (hsame : SameCache s t) :
    GopSound t published := by
  obtain ⟨_, _, _, _, rfl⟩ := hsame
  obtain ⟨frames, hholds, hsuffix, hgrouped, hknown⟩ := h.cache
  exact ⟨⟨frames, ⟨hholds.size, hholds.positive, hholds.start, hholds.count, hholds.fits,
    hholds.holds⟩, hsuffix, ⟨hgrouped.before, hgrouped.after⟩, hknown⟩, h.ids, h.video⟩

theorem isVideo_of_no_track (h : ¬∃ t ∈ s.tracks, t.type = .video) (frame : MediaFrame) :
    s.isVideo frame = false := by
  rw [isVideo, any_eq_false]
  intro t ht
  simp only [Bool.and_eq_true, decide_eq_true_eq, not_and]
  exact fun _ hvideo => h ⟨t, ht, hvideo⟩

theorem isVideo_of_accepts {track : TrackInfo} (hids : (s.tracks.map TrackInfo.trackId).Nodup)
    (h : s.accepts frame = some track) :
    (track ∈ s.tracks ∧ track.trackId = frame.trackId) ∧
      (s.isVideo frame = true ↔ track.type = .video) := by
  rw [accepts] at h
  split_ifs at h
  obtain ⟨i, hi, htrack⟩ := Option.bind_eq_some_iff.mp h
  obtain ⟨track', htrack', hid⟩ := Keyed.getElem?_of_findIdx? hi
  cases htrack.symm.trans htrack'
  have hmem := mem_of_getElem? htrack
  refine ⟨⟨hmem, hid⟩, ?_⟩
  rw [isVideo, any_eq_true]
  constructor
  · rintro ⟨t, ht, hboth⟩
    rw [Bool.and_eq_true, beq_iff_eq, decide_eq_true_eq] at hboth
    rw [← Keyed.eq_of_key_eq hids ht hmem (hboth.1.trans hid.symm)]
    exact hboth.2
  · intro hvideo
    refine ⟨track, hmem, ?_⟩
    rw [Bool.and_eq_true, beq_iff_eq, decide_eq_true_eq]
    exact ⟨hid, hvideo⟩

theorem suffix_push {kept : List MediaFrame} (h : frames <:+ published) (hkept : kept <:+ frames)
    (frame : MediaFrame) : kept ++ [frame] <:+ published ++ [frame] := by
  obtain ⟨before, rfl⟩ := hkept.trans h
  exact ⟨before, by rw [append_assoc]⟩

theorem Grouped.congr (h : Grouped s frames) (htracks : t.tracks = s.tracks)
    (hcfg : t.config = s.config) (hvideo : t.hasVideoTrack = s.hasVideoTrack)
    (hkeyframe : t.hasVideoKeyframe = s.hasVideoKeyframe) : Grouped t frames := by
  have hisVideo : t.isVideo = s.isVideo := by
    funext f
    rw [isVideo, isVideo, htracks]
  have hstarts : t.startsGop = s.startsGop := by
    funext f
    rw [startsGop, startsGop, hisVideo]
  constructor
  · rw [hkeyframe, hisVideo]
    exact h.before
  · rw [hkeyframe, hvideo, hisVideo, hstarts, hcfg]
    exact h.after

theorem pushGop_keeps (s : MediaSource) (frame : MediaFrame) :
    (pushGop s frame).tracks = s.tracks ∧ (pushGop s frame).config = s.config ∧
      (pushGop s frame).hasVideoTrack = s.hasVideoTrack ∧
      (pushGop s frame).hasVideoKeyframe = s.hasVideoKeyframe := by
  rw [pushGop]
  split_ifs <;> exact ⟨rfl, rfl, rfl, rfl⟩

theorem gopSound_push (hholds : GopHolds s frames) (hsuffix : frames <:+ published)
    (hknown : ∀ f ∈ frames, ∃ t ∈ s.tracks, t.trackId = f.trackId)
    (hids : (s.tracks.map TrackInfo.trackId).Nodup)
    (hvideo : s.hasVideoTrack = true ↔ ∃ t ∈ s.tracks, t.type = .video)
    (hframe : ∃ t ∈ s.tracks, t.trackId = frame.trackId)
    (hgrouped : Grouped s
      ((if frames.length < s.config.gopCapacity then frames else frames.tail) ++ [frame])) :
    GopSound (pushGop s frame) (published ++ [frame]) := by
  obtain ⟨htracks, hcfg, hhas, hkeyframe⟩ := pushGop_keeps s frame
  have hkept : (if frames.length < s.config.gopCapacity then frames else frames.tail) <:+
      frames := by
    split_ifs
    · exact suffix_rfl
    · exact tail_suffix frames
  refine ⟨⟨_, hholds.push frame, suffix_push hsuffix hkept frame,
    hgrouped.congr htracks hcfg hhas hkeyframe, ?_⟩, ?_, ?_⟩
  · rw [htracks]
    intro f hf
    rcases mem_append.mp hf with hf | hf
    · exact hknown f (hkept.subset hf)
    · rw [mem_singleton.mp hf]
      exact hframe
  · rw [htracks]
    exact hids
  · rw [hhas, htracks]
    exact hvideo

theorem Grouped.quiet (hkeyframe : s.hasVideoKeyframe = false)
    (hquiet : ∀ f ∈ frames, s.isVideo f = false) : Grouped s frames :=
  ⟨fun _ => hquiet, fun hin => absurd (hkeyframe.symm.trans hin) (by simp)⟩

theorem GopSound.cacheFrame {track : TrackInfo} (h : GopSound s published)
    (hacc : s.accepts frame = some track)
    (hadm : s.hasVideoTrack = true → s.startsGop frame = false →
      (s.hasVideoKeyframe = false → s.gopCount = 0) ∧
        (s.hasVideoKeyframe = true → s.gopCount = s.config.gopCapacity →
          ∀ f ∈ s.cached.tail ++ [frame], s.isVideo f = false)) :
    GopSound (cacheFrame s frame track) (published ++ [frame]) := by
  obtain ⟨frames, hholds, hsuffix, hgrouped, hknown⟩ := h.cache
  obtain ⟨⟨hmem, hid⟩, hisVideo⟩ := isVideo_of_accepts h.ids hacc
  have hframe : ∃ t ∈ s.tracks, t.trackId = frame.trackId := ⟨track, hmem, hid⟩
  have hstarts : s.startsGop frame = true ↔ track.type = .video ∧ frame.isKeyframe ≠ 0 := by
    rw [startsGop, Bool.and_eq_true, decide_eq_true_eq, hisVideo]
  rw [Core.cacheFrame, if_neg hholds.positive.ne']
  by_cases hvideo : s.hasVideoTrack = false
  · have hquiet := isVideo_of_no_track (s := s)
      (fun hin => absurd (hvideo.symm.trans (h.video.mpr hin)) (by simp))
    have hkeyframe : s.hasVideoKeyframe = false := by
      by_contra hin
      exact absurd (hvideo.symm.trans (hgrouped.after (Bool.not_eq_false _ ▸ hin)).1) (by simp)
    rw [if_pos hvideo]
    exact gopSound_push hholds hsuffix hknown h.ids h.video hframe
      (Grouped.quiet hkeyframe (fun f _ => hquiet f))
  · rw [if_neg hvideo]
    rw [Bool.not_eq_false] at hvideo
    split
    next hstart =>
      have hcleared := hholds.clear
      have hnil : GopHolds { clearGop s with hasVideoKeyframe := true } [] :=
        ⟨hcleared.size, hcleared.positive, hcleared.start, hcleared.count, hcleared.fits,
          hcleared.holds⟩
      refine gopSound_push hnil nil_suffix (fun f hf => absurd hf not_mem_nil) h.ids
        h.video hframe
        ⟨fun hin => absurd hin (by simp), fun _ => ⟨hvideo, .inl ⟨frame, [], ?_, ?_⟩⟩⟩
      · split_ifs <;> rfl
      · exact hstarts.mpr hstart
    next hstart =>
      have hnot : s.startsGop frame = false := by
        rw [← Bool.not_eq_true, hstarts]
        exact hstart
      obtain ⟨hempty, hfull⟩ := hadm hvideo hnot
      split
      next hkeyframe =>
        refine gopSound_push hholds hsuffix hknown h.ids h.video hframe
          ⟨fun hin => absurd (hkeyframe.symm.trans hin) (by simp), fun _ => ⟨hvideo, ?_⟩⟩
        split
        next hroom =>
          rcases (hgrouped.after hkeyframe).2 with ⟨k, rest, rfl, hk⟩ | ⟨hlen, _⟩
          · exact .inl ⟨k, rest ++ [frame], rfl, hk⟩
          · exact absurd hlen hroom.ne
        next hroom =>
          have hlen : frames.length = s.config.gopCapacity :=
            le_antisymm hholds.fits (not_lt.mp hroom)
          have hquiet := hfull hkeyframe (hholds.count.trans hlen)
          rw [hholds.cached] at hquiet
          refine .inr ⟨?_, hquiet⟩
          have hpositive := hholds.positive
          rw [length_append, length_tail, length_singleton]
          omega
      next hkeyframe =>
        rw [Bool.not_eq_true] at hkeyframe
        obtain rfl : frames = [] :=
          eq_nil_of_length_eq_zero (hholds.count.symm.trans (hempty hkeyframe))
        exact ⟨⟨[], hholds, nil_suffix, hgrouped, hknown⟩, h.ids, h.video⟩

end Soundness

variable {s : MediaSource} {published : List MediaFrame} {frame : MediaFrame}

theorem copyTrack_id {src copied : TrackInfo} {trackId : ℤ}
    (h : copyTrack src trackId = .ok copied) : copied.trackId = trackId := by
  have hsome : ∀ bytes, (Except.ok { src with
      trackId := trackId
      codecName := src.codecName.take (maxCodecNameLen - 1)
      extradata := bytes } : Except ℤ TrackInfo) = .ok copied → copied.trackId = trackId := by
    intro bytes heq
    cases heq
    rfl
  rw [copyTrack] at h
  split at h
  · cases h
  · split_ifs at h
    · split at h
      · cases h
      · exact hsome _ h
    · exact hsome _ h

/-- A track with a new id does not say anything about the frames that came before. -/
theorem isVideo_addTrack {copied : TrackInfo} {t : MediaSource}
    (htracks : t.tracks = s.tracks ++ [copied])
    (hfresh : ∀ t ∈ s.tracks, t.trackId ≠ copied.trackId)
    (hframe : ∃ t ∈ s.tracks, t.trackId = frame.trackId) : t.isVideo frame = s.isVideo frame := by
  obtain ⟨track, hmem, hid⟩ := hframe
  have hne : (copied.trackId == frame.trackId) = false := by
    rw [beq_eq_false_iff_ne, ← hid]
    exact (hfresh track hmem).symm
  rw [isVideo, isVideo, htracks, any_append, any_cons, hne,
    any_nil, Bool.false_and, Bool.or_false, Bool.or_false]

theorem Grouped.addTrack {copied : TrackInfo} {t : MediaSource} {frames : List MediaFrame}
    (h : Grouped s frames) (hknown : ∀ f ∈ frames, ∃ t ∈ s.tracks, t.trackId = f.trackId)
    (hfresh : ∀ t ∈ s.tracks, t.trackId ≠ copied.trackId)
    (htracks : t.tracks = s.tracks ++ [copied]) (hcfg : t.config = s.config)
    (hkeyframe : t.hasVideoKeyframe = s.hasVideoKeyframe)
    (hvideo : s.hasVideoTrack = true → t.hasVideoTrack = true) : Grouped t frames := by
  have hsame : ∀ f ∈ frames, t.isVideo f = s.isVideo f :=
    fun f hf => isVideo_addTrack htracks hfresh (hknown f hf)
  constructor
  · intro hnone f hf
    rw [hsame f hf]
    exact h.before (hkeyframe ▸ hnone) f hf
  · intro hsome
    obtain ⟨hhas, hcase⟩ := h.after (hkeyframe ▸ hsome)
    refine ⟨hvideo hhas, ?_⟩
    rcases hcase with ⟨k, rest, rfl, hk⟩ | ⟨hlen, hquiet⟩
    · refine .inl ⟨k, rest, rfl, ?_⟩
      rw [startsGop, hsame k mem_cons_self]
      exact hk
    · refine .inr ⟨hcfg ▸ hlen, ?_⟩
      intro f hf
      rw [hsame f hf]
      exact hquiet f hf

theorem addTrack_cases (s : MediaSource) (track : TrackInfo) :
    (addTrack s track).1 = s ∨ ∃ copied next, (∀ t ∈ s.tracks, t.trackId ≠ copied.trackId) ∧
        (addTrack s track).1 = { s with
          tracks := s.tracks ++ [copied]
          nextTrackId := next
          hasVideoTrack := if copied.type = .video then true else s.hasVideoTrack } := by
  rw [addTrack]
  split
  · exact .inl rfl
  · split
    · exact .inl rfl
    · dsimp only
      generalize (if track.trackId ≥ 0 then track.trackId else s.nextTrackId) = assigned
      split
      · exact .inl rfl
      · next hfresh =>
          split
          · exact .inl rfl
          · next copied hcopied =>
              refine .inr ⟨copied, _, ?_, rfl⟩
              rw [copyTrack_id hcopied, ← Keyed.findIdx?_eq_none_iff]
              exact Option.not_isSome_iff_eq_none.mp hfresh

theorem GopSound.addTrack (h : GopSound s published) (track : TrackInfo) :
    GopSound (addTrack s track).1 published := by
  rcases addTrack_cases s track with heq | ⟨copied, next, hfresh, heq⟩
  · rw [heq]
    exact h
  · rw [heq]
    obtain ⟨frames, hholds, hsuffix, hgrouped, hknown⟩ := h.cache
    refine ⟨⟨frames, ⟨hholds.size, hholds.positive, hholds.start, hholds.count, hholds.fits,
      hholds.holds⟩, hsuffix, hgrouped.addTrack hknown hfresh rfl rfl rfl ?_, ?_⟩, ?_, ?_⟩
    · intro hhas
      split_ifs
      · rfl
      · exact hhas
    · intro f hf
      obtain ⟨t, ht, hid⟩ := hknown f hf
      exact ⟨t, mem_append_left _ ht, hid⟩
    · rw [map_append, nodup_append]
      refine ⟨h.ids, nodup_singleton _, ?_⟩
      intro id hid id' hid' heq
      obtain ⟨t, ht, rfl⟩ := mem_map.mp hid
      rw [map_singleton, mem_singleton] at hid'
      exact hfresh t ht (heq.trans hid')
    · simp only [mem_append, mem_singleton, or_and_right, exists_or,
        exists_eq_left]
      split_ifs with hvideo
      · exact ⟨fun _ => .inr hvideo, fun _ => rfl⟩
      · rw [h.video]
        exact ⟨.inl, fun hin => hin.resolve_right hvideo⟩

theorem GopSound.publish {react : ℕ → Reaction} (h : GopSound s published)
    (hadm : Admissible ⟨s, published⟩ (.publish frame react)) :
    GopSound (publish s frame react).1
      (WatchedSource.see ⟨s, published⟩ (.publish frame react)) := by
  rw [Core.publish, WatchedSource.see]
  split
  · next hclosed =>
      rw [if_neg (by simp [accepts, hclosed])]
      exact h
  · cases hacc : s.accepts frame with
    | none => exact h
    | some track =>
      have hpublished : (s.accepts frame).isSome := by rw [hacc]; rfl
      rw [if_pos (Option.isSome_some (a := track))]
      refine (h.cacheFrame hacc (hadm hpublished)).congr ?_
      exact SameCache.trans ⟨_, _, _, _, rfl⟩ (sameCache_deliverFrom frame react _ 0 _)

theorem gopSound_step (w : WatchedSource) (op : SourceOp) (hadm : Admissible w op)
    (h : GopSound w.source w.published) :
    GopSound (sourceMachine.next w op).source (sourceMachine.next w op).published := by
  cases op with
  | addTrack track => exact h.addTrack track
  | publish frame react => exact h.publish hadm
  | subscribe callback replayCached codes =>
    exact h.congr (sameCache_subscribe w.source callback replayCached codes)
  | unsubscribe id => exact h.congr (sameCache_unsubscribe w.source id)

theorem gopSound_create (config : SourceConfig) (subscriptionNamespace : ℕ) :
    GopSound (sourceCreate config subscriptionNamespace) [] := by
  have hpositive : 0 < (sourceCreate config subscriptionNamespace).config.gopCapacity := by
    change 0 < defaultSize config.gopCapacity defaultGopCapacity
    rw [defaultSize]
    split_ifs with hzero
    · decide
    · exact Nat.pos_of_ne_zero hzero
  refine ⟨⟨[], ⟨length_replicate, hpositive, hpositive, rfl, Nat.zero_le _,
    Ring.Holds.nil _ _⟩, suffix_rfl, Grouped.quiet rfl ?_, ?_⟩, nodup_nil, ?_⟩
  · exact fun f hf => absurd hf not_mem_nil
  · exact fun f hf => absurd hf not_mem_nil
  · constructor
    · exact fun hin => absurd hin (by simp [sourceCreate])
    · rintro ⟨t, ht, _⟩
      exact absurd ht not_mem_nil

theorem Grouped.decodable {frames : List MediaFrame} {f : MediaFrame} (h : Grouped s frames)
    (hfind : frames.find? s.isVideo = some f) : f.isKeyframe ≠ 0 := by
  have hvideo := find?_some hfind
  have hmem := mem_of_find?_eq_some hfind
  have hquiet : ¬∀ f ∈ frames, s.isVideo f = false := by
    intro hall
    rw [hall f hmem] at hvideo
    cases hvideo
  by_cases hkeyframe : s.hasVideoKeyframe = true
  · rcases (h.after hkeyframe).2 with ⟨k, rest, rfl, hk⟩ | ⟨_, hall⟩
    · rw [startsGop, Bool.and_eq_true, decide_eq_true_eq] at hk
      rw [find?_cons_of_pos hk.1, Option.some.injEq] at hfind
      rw [← hfind]
      exact hk.2
    · exact absurd hall hquiet
  · exact absurd (h.before (Bool.not_eq_true _ ▸ hkeyframe)) hquiet

theorem GopSound.replayable (h : GopSound s published) : Replayable s published := by
  obtain ⟨frames, hholds, hsuffix, hgrouped, _⟩ := h.cache
  have hcached := hholds.cached
  refine ⟨?_, ?_, ?_, ?_⟩
  · rw [hcached]
    exact hsuffix
  · rw [hcached]
    exact hholds.fits
  · rw [hcached]
    exact fun f hfind => hgrouped.decodable hfind
  · intro callback codes f hfind
    obtain ⟨rest, hrest⟩ := subscribe_prefix s callback codes
    refine hgrouped.decodable (f := f) ?_
    rw [← hcached, ← hrest, find?_append, hfind]
    rfl

/-- **The cache can be replayed.**  In every run from a new source in which each published
frame is admissible, the cache is the end of what was published, and the first video frame of
a replay is a keyframe. -/
theorem source_replayable (config : SourceConfig) (subscriptionNamespace : ℕ) (ops : List SourceOp)
    (h : sourceMachine.Along Admissible ⟨sourceCreate config subscriptionNamespace, []⟩ ops) :
    Replayable (sourceMachine.run ⟨sourceCreate config subscriptionNamespace, []⟩ ops).source
      (sourceMachine.run ⟨sourceCreate config subscriptionNamespace, []⟩ ops).published :=
  GopSound.replayable (sourceMachine.run_invariant_along
    (P := fun w => GopSound w.source w.published) gopSound_step
    (gopSound_create config subscriptionNamespace) h)

def shortFrame (isKeyframe : ℤ) (byte : UInt8) : MediaFrame :=
  ⟨0, [byte], 0, 0, 0, isKeyframe, 0⟩

/-- A source with room for two frames and a video track. -/
def twoFrames : SourceConfig := ⟨1, 1, 2⟩

def videoTrack : TrackInfo :=
  ⟨0, .video, [104], 96, 90000, 0, 0, 0, 0, 0, none, 0⟩

/-- A keyframe and the frames that depend on it. -/
def pictures (deltas : List UInt8) : List SourceOp :=
  .addTrack videoTrack :: .publish (shortFrame 1 0) (fun _ => ⟨mediaOk, []⟩) ::
    deltas.map (fun byte => .publish (shortFrame 0 byte) (fun _ => ⟨mediaOk, []⟩))

theorem source_replayable_short :
    (sourceMachine.run ⟨sourceCreate twoFrames 1, []⟩ (pictures [1])).source.cached =
        [shortFrame 1 0, shortFrame 0 1] ∧
      Replayable (sourceMachine.run ⟨sourceCreate twoFrames 1, []⟩ (pictures [1])).source
        (sourceMachine.run ⟨sourceCreate twoFrames 1, []⟩ (pictures [1])).published := by
  refine ⟨by decide, source_replayable twoFrames 1 (pictures [1]) ⟨trivial, ?_, ?_, trivial⟩⟩
  · intro _ _ hstarts
    exact absurd hstarts (by decide)
  · intro _ _ _
    exact ⟨fun _ => absurd ‹_› (by decide), fun _ hfull => absurd hfull (by decide)⟩

/-- The second frame that depends on the keyframe takes its place. -/
theorem source_loses_keyframe :
    ¬ ∀ (config : SourceConfig) (subscriptionNamespace : ℕ) (ops : List SourceOp),
      Replayable (sourceMachine.run ⟨sourceCreate config subscriptionNamespace, []⟩ ops).source
        (sourceMachine.run ⟨sourceCreate config subscriptionNamespace, []⟩ ops).published := by
  intro h
  have hdecodable := (h twoFrames 1 (pictures [1, 2])).decodable (shortFrame 0 1) (by decide)
  exact hdecodable rfl

end TurboMedia.Core
