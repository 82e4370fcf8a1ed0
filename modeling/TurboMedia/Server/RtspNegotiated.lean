import TurboMedia.Server.RtspHandlers

/-!
# RTSP server adapter: what a connection negotiated

`Clean` leaves out the requests that reach a defect of the handlers: an ANNOUNCE that is
accepted on a binding that a refused request under another URI has made, since only DESCRIBE
writes the URI again; a SETUP whose URI also ends in the control of a track that the search
comes to first; and an ANNOUNCE or DESCRIBE that is refused after it has written tracks.

**Result.** `connections_negotiated`: in every run of clean events, each connection publishes
into the source of its own ANNOUNCE and plays the source of its own DESCRIBE, a SETUP sets up
the track that its URI names, channels are apart and lead to the track that negotiated them,
and a refused request leaves a connection as it was.
-/

namespace TurboMedia.Server

open List
namespace RtspAdapter

open TurboMedia.Core (MediaFrame)
open Rtsp (text RtspRequest RtspMessage)

variable {adapter : Adapter} {granted : ℕ → Option Granted} {session slot : ℕ}
variable {binding : Binding}

section Events

def Clean (adapter : Adapter) (granted : ℕ → Option Granted) : Op → Prop
  | .announce session message _ => announceClean adapter session message
  | .describe session request _ => describeClean adapter session request
  | .setup session request => setupClean adapter granted session request
  | _ => True

theorem publish_sessions
    (state : State) (handle : ℕ) (frame : MediaFrame) (codes : ℕ → ℤ) (memory : Bool) :
    (sessionPublish state handle frame codes memory).1.sessions = state.sessions := by
  unfold sessionPublish
  cases state.sessions[handle]? with
  | none => rfl
  | some session =>
    dsimp only
    split
    · rfl
    split <;> rfl

theorem sessionPublish_handles {state : State} (h : Handles state)
    (handle : ℕ) (frame : MediaFrame) (codes : ℕ → ℤ) (memory : Bool) :
    Handles (sessionPublish state handle frame codes memory).1 :=
  step_handles h (.sessionPublish handle frame codes memory)

theorem foreign_sessions {op : Server.Op} {handle : ℕ} (hforeign : isForeign adapter op = true)
    (hheld : adapter.holds handle = true) (hlt : handle < adapter.server.sessions.length) :
    (Server.step adapter.server op).1.sessions[handle]? = adapter.server.sessions[handle]? := by
  cases op with
  | sessionOpen config codes memory =>
    exact (open_sessions adapter.server config codes memory).1 handle hlt
  | sessionClose other =>
    refine close_sessions adapter.server (fun heq => ?_)
    rw [isForeign, ← heq, hheld] at hforeign
    cases hforeign
  | sessionPublish other frame codes memory =>
    rw [Server.step]
    rw [publish_sessions]
  | addTrack key track fault memory | subscribe key callback replayCached codes
  | unsubscribe key id | removeSource key => rfl

theorem holds_of_has {handle : ℕ} (hget : adapter.sessions[slot]? = some (some binding))
    (hhas : binding.has handle) : adapter.holds handle = true := by
  rw [Adapter.holds, any_eq_true]
  refine ⟨some binding, mem_of_getElem? hget, ?_⟩
  rw [Option.any_some, Bool.or_eq_true, beq_iff_eq, beq_iff_eq]
  exact hhas

theorem onInterleaved_bound (h : Bound adapter granted)
    (channel : UInt8) (payload : List UInt8) (codes : ℕ → ℤ) (memory : Bool) :
    Bound (onInterleaved adapter session channel payload codes memory).1 granted := by
  unfold onInterleaved
  split
  · exact h
  split
  · exact h
  split
  · exact h
  split
  · exact h
  split
  · exact h
  · refine h.serve (sessionPublish_handles h.server _ _ codes memory) ?_
    intro other c handle _ _
    rw [publish_sessions]

theorem step_bound (h : Bound adapter granted) (op : Op) (hclean : Clean adapter granted op) :
    Bound (step adapter op).1 (grantAfter granted (op, (step adapter op).2)) := by
  cases op with
  | describe session request uuid => exact (onDescribe_spec h hclean).bound
  | announce session message uuid => exact (onAnnounce_spec h hclean).bound
  | setup session request => exact (onSetup_spec h hclean).1.bound
  | record session request memory => exact (onRecord_spec h memory).bound
  | play session request codes memory => exact (onPlay_spec h codes memory).bound
  | teardown session request => exact (onTeardown_spec h).bound
  | interleaved session channel payload codes memory =>
    exact onInterleaved_bound h channel payload codes memory
  | close session => exact onSessionClose_spec h
  | frame slot frame taken =>
    rw [step]
    split <;> exact h
  | runtime op =>
    rw [step]
    split
    next hforeign =>
      refine h.serve (step_handles h.server op) (fun slot binding handle hget hhas => ?_)
      exact foreign_sessions hforeign (holds_of_has hget hhas)
        ((h.stage slot binding hget).has_lt hhas)
    · exact h

theorem start_bound
    (vhost sessionId : List UInt8) (removeSourceOnClose replayCached : Bool) (maxSources : ℕ)
    (sourceConfig : Core.SourceConfig) :
    Bound (start vhost sessionId removeSourceOnClose replayCached maxSources sourceConfig)
      (grantedOf []) := by
  have hempty : ∀ (slot : ℕ) (binding : Binding),
      (replicate maxSessions (none : Option Binding))[slot]? ≠ some (some binding) := by
    intro slot binding hget
    cases eq_of_mem_replicate (mem_of_getElem? hget)
  exact
    { server := start_handles maxSources sourceConfig
      stage := fun slot binding hget => absurd hget (hempty slot binding)
      tracks := fun slot binding hget => absurd hget (hempty slot binding)
      alone := fun slot _ binding _ hget => absurd hget (hempty slot binding)
      owners := fun slot _ binding _ _ hget => absurd hget (hempty slot binding)
      idle := fun _ _ => rfl }

theorem run_bound
    {vhost sessionId : List UInt8} {removeSourceOnClose replayCached : Bool} {maxSources : ℕ}
    {sourceConfig : Core.SourceConfig} {ops : List Op}
    (hclean : adapterMachine.withHistory.Along (fun s op => Clean s.1 (grantedOf s.2) op)
      (start vhost sessionId removeSourceOnClose replayCached maxSources sourceConfig, []) ops) :
    Bound (adapterMachine.withHistory.run
        (start vhost sessionId removeSourceOnClose replayCached maxSources sourceConfig, []) ops).1
      (grantedOf (adapterMachine.withHistory.run
        (start vhost sessionId removeSourceOnClose replayCached maxSources sourceConfig, [])
        ops).2) := by
  refine adapterMachine.withHistory.run_invariant_along (P := fun s => Bound s.1 (grantedOf s.2)) ?_
    (start_bound vhost sessionId removeSourceOnClose replayCached maxSources sourceConfig) hclean
  rintro ⟨adapter, past⟩ op hop hbound
  have hstep := step_bound hbound op hop
  rw [← grantedOf_append] at hstep
  exact hstep

end Events

section Negotiated

/-- What the connections have to do with what they were granted. -/
structure Negotiated (adapter : Adapter) (granted : ℕ → Option Granted) : Prop where
  recording : ∀ (slot : ℕ) (binding : Binding), adapter.sessions[slot]? = some (some binding) →
    binding.state = .recording →
    ∃ uri key handle, granted binding.rtspSession = some (.announce uri) ∧
      rtspSourceKey adapter.vhost uri = some key ∧ binding.publisher = some handle ∧
      binding.player = none ∧
      OpenSession adapter.server.sessions handle rolePublisher key
  playing : ∀ (slot : ℕ) (binding : Binding), adapter.sessions[slot]? = some (some binding) →
    binding.state = .playing →
    ∃ uri key handle, granted binding.rtspSession = some (.describe uri) ∧
      rtspSourceKey adapter.vhost uri = some key ∧ binding.publisher = none ∧
      binding.player = some handle ∧
      OpenSession adapter.server.sessions handle rolePlayer key
  channels : ∀ (slot : ℕ) (binding : Binding), adapter.sessions[slot]? = some (some binding) →
    binding.setupCount = binding.live.countP Track.setup ∧
    (∀ track ∈ binding.live, track.setup = true → track.rtpChannel ≠ track.rtcpChannel) ∧
    binding.live.Pairwise (fun s t => s.setup = true → t.setup = true → ChannelsApart s t)

/-- The track of a view that has a channel, and no other has it. -/
def HasChannel (view : View) (track : Track) (channel : ℤ) : Prop :=
  track ∈ view.tracks ∧ track.setup = true ∧ track.rtpChannel = channel ∧
    ∀ other ∈ view.tracks, other.setup = true →
      (other.rtpChannel = channel ∨ other.rtcpChannel = channel) → other = track

/-- A packet on a channel is published for the track that negotiated it, into the source that
was announced. -/
structure PacketFaithful (adapter : Adapter) (granted : ℕ → Option Granted) (session : ℕ)
    (channel : ℤ) (packet : Option Packet) : Prop where
  published : ∀ p, packet = some p → ∃ uri key track, granted session = some (.announce uri) ∧
    rtspSourceKey adapter.vhost uri = some key ∧
    OpenSession adapter.server.sessions p.handle rolePublisher key ∧
    HasChannel (viewOf adapter session) track channel ∧ p.trackId = track.info.trackId
  complete : ∀ track ∈ (viewOf adapter session).tracks,
    (viewOf adapter session).state = .recording →
    track.setup = true → track.rtpChannel = channel →
    ∃ p, packet = some p ∧ p.trackId = track.info.trackId

/-- A frame is sent on the channel of the track that it belongs to. -/
def FrameFaithful (adapter : Adapter) (slot : ℕ) (frame : MediaFrame) (session : ℕ)
    (channel : ℤ) : Prop :=
  ∃ binding, adapter.sessions[slot]? = some (some binding) ∧ binding.rtspSession = session ∧
    ∃ track, HasChannel binding.view track channel ∧ track.info.trackId = frame.trackId ∧
      ∀ other ∈ binding.view.tracks, other.info.trackId = frame.trackId → other = track

/-- What an event does is what was negotiated. -/
structure Faithful (adapter : Adapter) (granted : ℕ → Option Granted) (op : Op) : Prop where
  refused : ∀ session response, op.requester = some session →
    (step adapter op).2 = .response response → response.status ≠ 200 →
    viewOf (step adapter op).1 session = viewOf adapter session
  setup : ∀ session request response, op = .setup session request →
    (step adapter op).2 = .response response → response.status = 200 →
    SetsUpNamed adapter (step adapter op).1 granted session request.uri
  packet : ∀ session channel payload codes memory rc packet,
    op = .interleaved session channel payload codes memory →
    (step adapter op).2 = .published rc packet →
    PacketFaithful adapter granted session channel.toNat packet
  frame : ∀ slot frame taken rc session channel, op = .frame slot frame taken →
    (step adapter op).2 = .sent rc session (some channel) →
    FrameFaithful adapter slot frame session channel

theorem Bound.negotiated (h : Bound adapter granted) :
    Negotiated adapter granted where
  recording := by
    intro slot binding hget hstate
    have hstage := h.stage slot binding hget
    cases hgrant : granted binding.rtspSession with
    | none =>
      rw [hgrant] at hstage
      cases hstage with
      | fresh hfresh => simp [hstate] at hfresh
    | some grant =>
      rw [hgrant] at hstage
      cases hstage with
      | toRecord uri hother | toPlay uri hother | playing uri handle key hother =>
        simp [hstate] at hother
      | recording uri handle key _ _ hpub hplay hkey hsess =>
        exact ⟨uri, key, handle, rfl, hkey, hpub, hplay, hsess⟩
  playing := by
    intro slot binding hget hstate
    have hstage := h.stage slot binding hget
    cases hgrant : granted binding.rtspSession with
    | none =>
      rw [hgrant] at hstage
      cases hstage with
      | fresh hfresh => simp [hstate] at hfresh
    | some grant =>
      rw [hgrant] at hstage
      cases hstage with
      | toRecord uri hother | toPlay uri hother | recording uri handle key hother =>
        simp [hstate] at hother
      | playing uri handle key _ _ hpub hplay hkey hsess =>
        exact ⟨uri, key, handle, rfl, hkey, hpub, hplay, hsess⟩
  channels := fun slot binding hget =>
    ⟨(h.tracks slot binding hget).setups, (h.tracks slot binding hget).own,
      (h.tracks slot binding hget).apart⟩

theorem TracksSound.same_channel (h : TracksSound binding) {s t : Track} {channel : ℤ}
    (hs : s ∈ binding.live) (ht : t ∈ binding.live)
    (hsetup : s.setup = true) (hsetup' : t.setup = true)
    (hchannel : s.rtpChannel = channel ∨ s.rtcpChannel = channel)
    (hchannel' : t.rtpChannel = channel ∨ t.rtcpChannel = channel) : s = t := by
  have hclash : ∀ {a b : Track}, (a.rtpChannel = channel ∨ a.rtcpChannel = channel) →
      (b.rtpChannel = channel ∨ b.rtcpChannel = channel) → ¬ChannelsApart a b := by
    rintro a b ha hb ⟨hrr, hrc, hcr, hcc⟩
    omega
  obtain ⟨i, hi, rfl⟩ := getElem_of_mem hs
  obtain ⟨j, hj, rfl⟩ := getElem_of_mem ht
  rcases lt_trichotomy i j with hlt | rfl | hgt
  · exact absurd (pairwise_iff_getElem.mp h.apart i j hi hj hlt hsetup hsetup')
      (hclash hchannel hchannel')
  · rfl
  · exact absurd (pairwise_iff_getElem.mp h.apart j i hj hi hgt hsetup' hsetup)
      (hclash hchannel' hchannel)

theorem packet_faithful (h : Bound adapter granted)
    {channel : UInt8} {payload : List UInt8} {codes : ℕ → ℤ} {memory : Bool} :
    PacketFaithful adapter granted session channel.toNat
      (onInterleaved adapter session channel payload codes memory).2.2 := by
  unfold onInterleaved
  cases hfind : findBinding adapter session with
  | none =>
    refine ⟨by rintro _ ⟨⟩, fun track htrack => ?_⟩
    rw [viewOf, hfind] at htrack
    cases htrack
  | some found =>
    obtain ⟨slot, binding⟩ := found
    obtain ⟨hget, hsess⟩ := h.find_iff.mp hfind
    have hview := h.view_of_get hget hsess
    have hsound := h.tracks slot binding hget
    have hrecording := h.negotiated.recording slot binding hget
    rw [hsess] at hrecording
    dsimp only
    cases hpub : binding.publisher with
    | none =>
      refine ⟨by rintro _ ⟨⟩, fun track _ hstate => ?_⟩
      rw [hview] at hstate
      obtain ⟨_, _, handle, _, _, hsome, _⟩ := hrecording hstate
      rw [hpub] at hsome
      cases hsome
    | some handle =>
      dsimp only
      split
      next hstate =>
        refine ⟨by rintro _ ⟨⟩, fun track _ hrec => ?_⟩
        rw [hview] at hrec
        exact absurd hrec hstate
      rename_i hstate
      obtain ⟨uri, key, own, hgrant, hkey, hown, -, hopen⟩ := hrecording (not_not.mp hstate)
      obtain rfl : handle = own := Option.some.inj (hpub.symm.trans hown)
      cases hpick : (binding.tracks.take binding.trackCount).find? (fun track => track.setup &&
          (track.rtcpChannel == (channel.toNat : ℤ) ||
            track.rtpChannel == (channel.toNat : ℤ))) with
      | none =>
        refine ⟨by rintro _ ⟨⟩, fun track htrack _ hsetup hchannel => ?_⟩
        rw [hview] at htrack
        have hnot := List.find?_eq_none.mp hpick track htrack
        rw [hsetup, hchannel, beq_self_eq_true, Bool.or_true] at hnot
        exact absurd rfl hnot
      | some track =>
        have hmem : track ∈ binding.live := mem_of_find?_eq_some hpick
        have hp := List.find?_some hpick
        rw [Bool.and_eq_true, Bool.or_eq_true, beq_iff_eq, beq_iff_eq] at hp
        have huniq : ∀ other ∈ binding.live, other.setup = true →
            (other.rtpChannel = (channel.toNat : ℤ) ∨
              other.rtcpChannel = (channel.toNat : ℤ)) → other = track :=
          fun other hother hsetup hchannel =>
            hsound.same_channel hother hmem hsetup hp.1 hchannel hp.2.symm
        dsimp only
        split
        next hrtcp =>
          refine ⟨by rintro _ ⟨⟩, fun other hother _ hsetup hchannel => ?_⟩
          rw [hview] at hother
          obtain rfl := huniq other hother hsetup (Or.inl hchannel)
          exact absurd (hchannel.trans hrtcp.symm) (hsound.own other hmem hsetup)
        next hrtcp =>
          refine ⟨fun p heq => ?_, fun other hother _ hsetup hchannel => ?_⟩
          · obtain rfl := Option.some.inj heq
            refine ⟨uri, key, track, hgrant, hkey, hopen, ?_, rfl⟩
            rw [hview]
            exact ⟨hmem, hp.1, hp.2.resolve_left hrtcp, huniq⟩
          · rw [hview] at hother
            obtain rfl := huniq other hother hsetup (Or.inl hchannel)
            exact ⟨_, rfl, rfl⟩

theorem frame_faithful (h : Bound adapter granted) {frame : MediaFrame} {taken : Bool} {channel : ℤ}
    (hget : adapter.sessions[slot]? = some (some binding))
    (hsent : (frameToRtsp binding frame taken).2 = some channel) :
    FrameFaithful adapter slot frame binding.rtspSession channel := by
  have hsound := h.tracks slot binding hget
  unfold frameToRtsp at hsent
  cases hpick : (binding.tracks.take binding.trackCount).find?
      (fun track => track.setup && track.info.trackId == frame.trackId) with
  | none =>
    rw [hpick] at hsent
    cases hsent
  | some track =>
    rw [hpick] at hsent
    have hchannel : track.rtpChannel = channel := Option.some.inj hsent
    have hmem : track ∈ binding.live := mem_of_find?_eq_some hpick
    have hp := List.find?_some hpick
    rw [Bool.and_eq_true, beq_iff_eq] at hp
    have hstate : binding.state ≠ .init := by
      intro hinit
      rw [hsound.fresh hinit track (mem_of_mem_take hmem)] at hp
      cases hp.1
    refine ⟨binding, hget, rfl, track, ⟨hmem, hp.1, hchannel, ?_⟩, hp.2, ?_⟩
    · intro other hother hsetup hshared
      exact hsound.same_channel hother hmem hsetup hp.1 hshared (Or.inl hchannel)
    · intro other hother hid
      exact Keyed.eq_of_key_eq (hsound.ids hstate) hother hmem (hid.trans hp.2.symm)

theorem Bound.faithful (h : Bound adapter granted) {op : Op} (hclean : Clean adapter granted op) :
    Faithful adapter granted op where
  refused := by
    intro session response hop hans hstat
    cases op with
    | describe other request uuid =>
      cases hop
      cases hans
      exact (onDescribe_spec h hclean).refused hstat
    | announce other message uuid =>
      cases hop
      cases hans
      exact (onAnnounce_spec h hclean).refused hstat
    | setup other request =>
      cases hop
      cases hans
      exact (onSetup_spec h hclean).1.refused hstat
    | record other request memory =>
      cases hop
      cases hans
      exact (onRecord_spec h memory).refused hstat
    | play other request codes memory =>
      cases hop
      cases hans
      exact (onPlay_spec h codes memory).refused hstat
    | teardown other request =>
      cases hop
      cases hans
      exact (onTeardown_spec h).refused hstat
    | interleaved | close | frame | runtime => cases hop
  setup := by
    rintro session request response rfl hans hstat
    cases hans
    exact (onSetup_spec h hclean).2 hstat
  packet := by
    rintro session channel payload codes memory rc packet rfl hans
    cases hans
    exact packet_faithful h
  frame := by
    rintro slot frame taken rc session channel rfl hans
    rw [step] at hans
    split at hans
    · rename_i binding hget
      simp only [Answer.sent.injEq] at hans
      obtain ⟨-, rfl, hsent⟩ := hans
      exact frame_faithful h hget hsent
    · cases hans

end Negotiated

/-- In every run of clean events, the connections have what they negotiated, and the next clean
event does what was negotiated. -/
theorem connections_negotiated
    (vhost sessionId : List UInt8) (removeSourceOnClose replayCached : Bool) (maxSources : ℕ)
    (sourceConfig : Core.SourceConfig) (ops : List Op)
    (hclean : adapterMachine.withHistory.Along (fun s op => Clean s.1 (grantedOf s.2) op)
      (start vhost sessionId removeSourceOnClose replayCached maxSources sourceConfig, []) ops) :
    let s := adapterMachine.withHistory.run
      (start vhost sessionId removeSourceOnClose replayCached maxSources sourceConfig, []) ops
    Negotiated s.1 (grantedOf s.2) ∧
      ∀ op, Clean s.1 (grantedOf s.2) op → Faithful s.1 (grantedOf s.2) op := by
  intro s
  have h : Bound s.1 (grantedOf s.2) := run_bound hclean
  exact ⟨h.negotiated, fun op hop => h.faithful hop⟩

/-- A request without a session id and with the URI. -/
def requestFor (uri sessionId : String) : RtspRequest :=
  { RtspRequest.initial with
    uri := text uri
    sessionId := text sessionId
    transportSpec :=
      { RtspRequest.initial.transportSpec with kind := .rtpAvpTcp } }

/-- An ANNOUNCE with the URI and the description. -/
def announceFor (uri body : String) : RtspMessage :=
  ⟨requestFor uri "", [], text body⟩

def twoMedia : String :=
  "m=audio 0 RTP/AVP 0\na=control:1\nm=audio 0 RTP/AVP 0\na=control:11\n"

def newAdapter : Adapter :=
  start [] [] false false 4 ⟨8, 4, 1⟩

def allMemory : OpenMemory := ⟨true, .none, fun _ => .none, fun _ => true⟩

def sampleUuid : List UInt8 :=
  text "123e4567-e89b-42d3-a456-426614174000"

/-- The first ANNOUNCE is refused, the second is for another stream, and the stream of the first
is recorded. -/
def recordedOps : List Op :=
  [.announce 0 (announceFor "a" "") (some sampleUuid),
    .announce 0 (announceFor "b" twoMedia) none, .setup 0 (requestFor "b/1" ""),
    .record 0 (requestFor "b" "00000001-123e4567-e89b-42d3-a456-426614174000") allMemory]

def recorded : Adapter × List (Op × Answer) :=
  adapterMachine.withHistory.run (newAdapter, []) recordedOps

/-- The adapter after a SETUP for the second of two tracks. -/
def setUpSecond : Adapter :=
  adapterMachine.run newAdapter
    [.announce 0 (announceFor "b" twoMedia) (some sampleUuid), .setup 0 (requestFor "b/11" "")]

/-- A connection records into the source of an ANNOUNCE that was refused, and a SETUP for one
track sets up another. -/
theorem refused_uri_recorded :
    (grantedOf recorded.2 0 = some (.announce (text "b")) ∧
      (viewOf recorded.1 0).state = .recording ∧
      recorded.1.server.sessions.map (fun session => some session.key) =
        [rtspSourceKey [] (text "a")] ∧ rtspSourceKey [] (text "a") ≠ rtspSourceKey [] (text "b")) ∧
    (viewOf setUpSecond 0).tracks.map Track.setup = [true, false] := by
  decide

theorem setupClean_of_single {adapter : Adapter} {granted : ℕ → Option Granted} {session : ℕ}
    {request : RtspRequest}
    (hsingle : ∀ found ∈ findBinding adapter session, ∀ i j : Fin found.2.live.length,
      found.2.live[i].control.isSuffixOf request.uri = true →
        found.2.live[j].control.isSuffixOf request.uri = true → j = i) :
    setupClean adapter granted session request := by
  intro grant slot binding i track _ hfind _ hnames j other hother _ hsuffix
  obtain ⟨hi, rfl⟩ := List.getElem?_eq_some_iff.mp hnames.found
  obtain ⟨hj, rfl⟩ := List.getElem?_eq_some_iff.mp hother
  have hnamed : (binding.live[i].control).isSuffixOf request.uri = true := by
    rw [isSuffixOf_iff_suffix, hnames.uri]
    exact ⟨grant.uri ++ [Rtsp.slash], by simp⟩
  exact .inl (congrArg Fin.val (hsingle (slot, binding) hfind ⟨i, hi⟩ ⟨j, hj⟩ hnamed hsuffix))

theorem describeClean_of_fits {adapter : Adapter} {session : ℕ} {request : RtspRequest}
    (hfits : ∀ key ∈ rtspSourceKey adapter.vhost request.uri,
      ∀ source ∈ registryFind adapter.server.runtime.registry key, descriptionFits source = true) :
    describeClean adapter session request :=
  fun _ key source hkey hfind => hfits key hkey source hfind

/-- A request for the track behind the URI, with the channels from `channel` on. -/
def setupFor (uri sessionId : String) (channel : ℤ) : RtspRequest :=
  { requestFor uri sessionId with
    transportSpec :=
      { (requestFor uri sessionId).transportSpec with
        interleavedRtpChannel := channel
        interleavedRtcpChannel := channel + 1 } }

def recordId : String := "00000001-123e4567-e89b-42d3-a456-426614174000"

def playId : String := "00000001-123e4567-e89b-42d3-a456-426614174001"

/-- One connection records two tracks, another one plays the second of them. -/
def recordAndPlay : List Op :=
  [.announce 0
      (announceFor "b" ("m=audio 0 RTP/AVP 0\na=control:1\n" ++
        "m=audio 0 RTP/AVP 8\na=control:2\n"))
      (some sampleUuid),
    .setup 0 (setupFor "b/1" "" 0), .setup 0 (setupFor "b/2" recordId 2),
    .record 0 (requestFor "b" recordId) allMemory,
    .describe 1 (requestFor "b" "") (some (text "123e4567-e89b-42d3-a456-426614174001")),
    .setup 1 (setupFor "b/trackID=1" "" 0), .play 1 (requestFor "b" playId) (fun _ => 0) allMemory]

theorem recordAndPlay_clean :
    adapterMachine.withHistory.Along (fun s op => Clean s.1 (grantedOf s.2) op)
      (newAdapter, []) recordAndPlay := by
  refine ⟨fun _ => ⟨by decide, fun _ slot binding hfind => ?_⟩,
    setupClean_of_single (by decide +kernel), setupClean_of_single (by decide +kernel), trivial,
    describeClean_of_fits (by decide +kernel), setupClean_of_single (by decide +kernel), trivial,
    trivial⟩
  have hnone : findBinding newAdapter 0 = none := by decide
  rw [hnone] at hfind
  cases hfind

theorem connections_negotiated_record_play :
    let s := adapterMachine.withHistory.run (newAdapter, []) recordAndPlay
    (viewOf s.1 0).state = .recording ∧ (viewOf s.1 1).state = .playing ∧
      Negotiated s.1 (grantedOf s.2) ∧
        ∀ op, Clean s.1 (grantedOf s.2) op → Faithful s.1 (grantedOf s.2) op := by
  refine ⟨by decide +kernel, by decide +kernel, ?_⟩
  exact connections_negotiated [] [] false false 4 ⟨8, 4, 1⟩ recordAndPlay recordAndPlay_clean

end RtspAdapter
end TurboMedia.Server
