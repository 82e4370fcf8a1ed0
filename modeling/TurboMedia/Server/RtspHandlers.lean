import TurboMedia.Server.RtspBindings

/-!
# RTSP server adapter: the handlers

What each handler does to the bindings and to the view of its connection.

**Method.** A request comes with the condition that it reaches no defect (`announceClean`,
`describeClean`, `setupClean`); under it, one lemma per handler (`HandlerSpec`) keeps `Bound`
and says that a refused request leaves its connection as it was.
-/

namespace TurboMedia.Server
namespace RtspAdapter

open List Option Binding

open TurboMedia.Core (MediaSource TrackInfo MediaFrame mediaOk mediaErrInvalid)
open Rtsp (RtspRequest RtspMessage TransportMode SdpMedia sdpParse slash)

variable {adapter : Adapter} {granted : ℕ → Option Granted} {session slot : ℕ}
variable {binding written : Binding} {request : RtspRequest}

section Views

/-- What a connection has negotiated. -/
structure View where
  state : SessionState
  mode : TransportMode
  tracks : List Track

def Binding.view (binding : Binding) : View :=
  ⟨binding.state, binding.mode, binding.live⟩

/-- The view of a connection; a connection without a binding has nothing. -/
def viewOf (adapter : Adapter) (session : ℕ) : View :=
  match findBinding adapter session with
  | none => ⟨.init, .unspecified, []⟩
  | some (_, binding) => binding.view

/-- The connection has made no request that was granted. -/
def isFresh (adapter : Adapter) (session : ℕ) : Bool :=
  (viewOf adapter session).state == .init

theorem Bound.view_of_get (h : Bound adapter granted)
    (hget : adapter.sessions[slot]? = some (some binding))
    (hsession : binding.rtspSession = session) : viewOf adapter session = binding.view := by
  rw [viewOf, h.find_iff.mpr ⟨hget, hsession⟩]

theorem put_get (hget : adapter.sessions[slot]? = some (some binding)) :
    (adapter.put slot written).sessions[slot]? = some (some written) :=
  getElem?_set_self (Bound.lt hget)

theorem put_self (hget : adapter.sessions[slot]? = some (some binding)) :
    adapter.put slot binding = adapter := by
  obtain ⟨hlt, hitem⟩ := List.getElem?_eq_some_iff.mp hget
  rw [Adapter.put, ← hitem, set_getElem_self]

/-- A new binding in a free slot keeps the bindings in order. -/
theorem Bound.created (h : Bound adapter granted) (hfind : findBinding adapter session = none)
    (hfree : adapter.sessions[slot]? = some none) (uri uuid : List UInt8) :
    Bound (adapter.put slot (newBinding adapter session uri uuid)) granted := by
  have hnone : granted session = none :=
    h.idle session (fun other c hget => find_none hfind hget)
  refine h.write h.server (fun _ _ _ _ _ _ => rfl) (fun _ _ _ _ => rfl) ?_ ?_ ?_ ?_
    (List.getElem?_eq_some_iff.mp hfree).1
  · rintro b heq
    obtain rfl := some.inj heq
    refine ⟨?_, newBinding_tracks adapter session uri uuid⟩
    rw [show (newBinding adapter session uri uuid).rtspSession = session from rfl, hnone]
    exact .fresh rfl rfl rfl rfl
  · rintro b heq other c _ hc
    obtain rfl := some.inj heq
    exact find_none hfind hc
  · rintro b heq other c handle _ _ _ hhas
    obtain rfl := some.inj heq
    rcases hhas with hhas | hhas
    · cases hhas
    · cases hhas
  · intro other hothers _
    refine h.idle other (fun i c hc => ?_)
    rcases eq_or_ne i slot with rfl | hne
    · rw [hfree] at hc
      cases hc
    · exact hothers i c hne hc

/-- What `turbo_media_rtsp_adapter_get_binding` does. -/
inductive GetOutcome (adapter : Adapter) (granted : ℕ → Option Granted) (session : ℕ)
    (uri : List UInt8) : Adapter → Option (ℕ × Binding) → Prop where
  | refused :
      GetOutcome adapter granted session uri adapter none
  | got
      (after : Adapter) (slot : ℕ) (binding : Binding)
      (hbound : Bound after granted)
      (hget : after.sessions[slot]? = some (some binding))
      (hsession : binding.rtspSession = session)
      (hview : viewOf adapter session = binding.view)
      (hvhost : after.vhost = adapter.vhost)
      (hserver : after.server = adapter.server)
      (huri : findBinding adapter session = none ∧ binding.presentationUri = uri ∨
        findBinding adapter session = some (slot, binding)) :
      GetOutcome adapter granted session uri after (some (slot, binding))

/-- A binding is found or created, or the request is refused and nothing changes. -/
theorem get_outcome (h : Bound adapter granted)
    (session : ℕ) (uri : List UInt8) (uuid : Option (List UInt8)) :
    GetOutcome adapter granted session uri (getBinding adapter session uri uuid).1
      (getBinding adapter session uri uuid).2 := by
  unfold getBinding
  cases hfind : findBinding adapter session with
  | some found =>
    obtain ⟨slot, binding⟩ := found
    obtain ⟨hget, hsession⟩ := h.find_iff.mp hfind
    exact .got adapter slot binding h hget hsession (h.view_of_get hget hsession) rfl rfl
      (Or.inr hfind)
  | none =>
    cases hslot : adapter.sessions.findIdx? isNone with
    | none => exact .refused
    | some slot =>
      cases uuid with
      | none => exact .refused
      | some uuid =>
        dsimp only
        split
        · exact .refused
        obtain ⟨hlt, hfree, -⟩ := findIdx?_eq_some_iff_getElem.mp hslot
        have hfree' : adapter.sessions[slot]? = some none := by
          rw [getElem?_eq_getElem hlt]
          exact congrArg some (isNone_iff_eq_none.mp hfree)
        refine .got _ slot _ (h.created hfind hfree' uri uuid)
          (getElem?_set_self hlt) rfl ?_ rfl rfl (Or.inl ⟨hfind, rfl⟩)
        rw [viewOf, hfind]
        rfl

def Op.requester : Op → Option ℕ
  | .describe session _ _ => some session
  | .announce session _ _ => some session
  | .setup session _ => some session
  | .record session _ _ => some session
  | .play session _ _ _ => some session
  | .teardown session _ => some session
  | _ => none

/-- A handler keeps the bindings in order, and a refused request leaves its connection as it
was. -/
structure HandlerSpec (adapter : Adapter) (granted : ℕ → Option Granted) (session : ℕ) (op : Op)
    (out : Adapter × Response) : Prop where
  bound : Bound out.1 (grantAfter granted (op, .response out.2))
  refused : out.2.status ≠ 200 → viewOf out.1 session = viewOf adapter session

/-- A refusal that leaves the bindings in order and the view of its connection. -/
theorem HandlerSpec.refuse {after : Adapter} {response : Response} {op : Op}
    (hop : op.requester = some session) (hbound : Bound after granted)
    (hstat : response.status ≠ 200) (hview : viewOf after session = viewOf adapter session) :
    HandlerSpec adapter granted session op (after, response) := by
  refine ⟨?_, fun _ => hview⟩
  have hsame : grantAfter granted (op, .response response) = granted := by
    cases op with
    | announce | describe | teardown => exact if_neg hstat
    | setup | record | play => rfl
    | interleaved | close | frame | runtime => cases hop
  rw [hsame]
  exact hbound

end Views

section Announce

variable {message : RtspMessage}

def mediaFits (media : SdpMedia) : Bool :=
  media.encodingName.length < Core.maxCodecNameLen && media.control.length < Rtsp.sdpMaxControl

/-- A description that is not refused at one of its media. -/
def namesFit (message : RtspMessage) : Bool :=
  match sdpParse message.body with
  | none => true
  | some media => media.length > maxTracks || media.all mediaFits

/-- A description that an ANNOUNCE is accepted with. -/
def announces (message : RtspMessage) : Bool :=
  message.body != [] &&
    match sdpParse message.body with
    | none => false
    | some media => 0 < media.length && media.length ≤ maxTracks && media.all mediaFits

/-- A description is read to its end exactly if each media fits. -/
theorem announceFrom_ok (i : ℕ) (media : List SdpMedia) (tracks : List Track) :
    (announceFrom i media tracks).2 = mediaOk ↔ media.all mediaFits = true := by
  induction media generalizing i tracks with
  | nil => exact ⟨fun _ => rfl, fun _ => rfl⟩
  | cons first rest ih =>
    rw [announceFrom, all_cons, Bool.and_eq_true]
    unfold announcedTrack mediaFits
    by_cases hlong : first.encodingName.length ≥ Core.maxCodecNameLen ∨
        first.control.length ≥ Rtsp.sdpMaxControl
    · rw [if_pos hlong]
      refine ⟨fun herr => absurd herr (show mediaErrInvalid ≠ mediaOk by decide), ?_⟩
      rintro ⟨hfits, -⟩
      rw [Bool.and_eq_true, decide_eq_true_eq, decide_eq_true_eq] at hfits
      omega
    · rw [if_neg hlong]
      rw [ih, Bool.and_eq_true, decide_eq_true_eq, decide_eq_true_eq]
      constructor
      · intro hrest
        exact ⟨by omega, hrest⟩
      · rintro ⟨-, hrest⟩
        exact hrest

/-- What a description does to a binding that is new: it is not read, it stops at a media that
does not fit, or it is read. -/
inductive ReadOutcome (message : RtspMessage) (binding : Binding) : Binding → ℤ → Prop where
  | unread :
      ReadOutcome message binding binding mediaErrInvalid
  | stopped
      (tracks : List Track) (count : ℕ) (rc : ℤ)
      (hrc : rc ≠ mediaOk)
      (hnot : namesFit message = false)
      (htracks : TracksSound { binding with trackCount := count, tracks := tracks }) :
      ReadOutcome message binding { binding with trackCount := count, tracks := tracks } rc
  | read
      (tracks : List Track) (count : ℕ)
      (hannounces : announces message = true)
      (htracks : TracksSound
        { binding with trackCount := count, tracks := tracks, state := .announced }) :
      ReadOutcome message binding { binding with trackCount := count, tracks := tracks } mediaOk

theorem read_outcome (h : TracksSound binding) (hstate : binding.state = .init)
    (message : RtspMessage) :
    ReadOutcome message binding (parseAnnounce message binding).1
      (parseAnnounce message binding).2 := by
  unfold parseAnnounce
  split
  · exact .unread
  rename_i hbody
  cases hparse : sdpParse message.body with
  | none => exact .unread
  | some media =>
    dsimp only
    split
    · exact .unread
    obtain ⟨hlen, hfresh, -, hids⟩ := announceFrom_spec 0 media binding.tracks
    have hok := announceFrom_ok 0 media binding.tracks
    generalize announceFrom 0 media binding.tracks = out at hlen hfresh hids hok
    obtain ⟨tracks, rc⟩ := out
    have hsetups : binding.setupCount = 0 := by
      rw [h.setups, countP_eq_zero]
      intro track htrack
      rw [h.fresh hstate track (mem_of_mem_take htrack)]
      exact Bool.false_ne_true
    have hsize := hlen.trans h.size
    by_cases hrc : rc = mediaOk
    · subst hrc
      have hall := hok.mp rfl
      refine .read tracks media.length ?_ ?_
      · rw [announces, hparse, Bool.and_eq_true, bne_iff_ne]
        refine ⟨hbody, ?_⟩
        dsimp only
        rw [hall, Bool.and_true, Bool.and_eq_true, decide_eq_true_eq, decide_eq_true_eq]
        omega
      · refine TracksSound.of_fresh hsize (by dsimp only; omega) hsetups
          (hfresh (h.fresh hstate)) (fun _ => nodup_of_indices (fun j hj => ?_))
        exact hids rfl (by rw [h.size]; omega) j (Nat.zero_le _) (by rw [Nat.zero_add]; exact hj)
    · refine .stopped tracks media.length rc hrc ?_ ?_
      · rw [namesFit, hparse]
        rw [Bool.or_eq_false_iff, decide_eq_false_iff_not]
        exact ⟨by omega, Bool.eq_false_iff.mpr (fun hall => hrc (hok.mpr hall))⟩
      · refine TracksSound.of_fresh hsize (by dsimp only; omega) hsetups
          (hfresh (h.fresh hstate)) (fun hnot => absurd hstate hnot)

/-- The key that an ANNOUNCE is for is the one that the binding has. -/
def announcesOwnKey (adapter : Adapter) (session : ℕ) (message : RtspMessage) : Prop :=
  ∀ slot binding, findBinding adapter session = some (slot, binding) →
    rtspSourceKey adapter.vhost binding.presentationUri =
      rtspSourceKey adapter.vhost message.request.uri

def announceClean (adapter : Adapter) (session : ℕ) (message : RtspMessage) : Prop :=
  isFresh adapter session = true → namesFit message = true ∧
    (announces message = true → announcesOwnKey adapter session message)

/-- ANNOUNCE, where the names fit and the key is that of the binding. -/
theorem onAnnounce_spec (h : Bound adapter granted) {uuid : Option (List UInt8)}
    (hclean : announceClean adapter session message) :
    HandlerSpec adapter granted session (.announce session message uuid)
      (onAnnounce adapter session message uuid) := by
  have hout := get_outcome h session message.request.uri uuid
  unfold onAnnounce
  generalize getBinding adapter session message.request.uri uuid = got at hout
  obtain ⟨after, found⟩ := got
  cases hout with
  | refused => exact .refuse rfl h (by decide) rfl
  | got _ slot binding hbound hget hsession hview hvhost hserver huri =>
    dsimp only
    have hafter := hbound.view_of_get hget hsession
    split
    · exact .refuse rfl hbound (by decide) (hafter.trans hview.symm)
    rename_i hstate
    have hinit : binding.state = .init := not_not.mp hstate
    have hfresh : isFresh adapter session = true := by
      rw [isFresh, hview, view, hinit]
      rfl
    obtain ⟨hnames, hkeys⟩ := hclean hfresh
    have hread := read_outcome (hbound.tracks slot binding hget) hinit message
    generalize parseAnnounce message binding = out at hread
    obtain ⟨written, rc⟩ := out
    dsimp only at hread ⊢
    have hstage := hbound.stage slot binding hget
    rw [hsession] at hstage
    cases hread with
    | unread =>
      rw [if_pos (show mediaErrInvalid ≠ mediaOk by decide)]
      rw [put_self hget]
      exact .refuse rfl hbound (by decide) (hafter.trans hview.symm)
    | stopped tracks count _ hrc hnot htracks =>
      rw [hnames] at hnot
      cases hnot
    | read tracks count hannounces htracks =>
      rw [if_neg (fun hne => hne rfl)]
      refine ⟨?_, fun hne => absurd rfl hne⟩
      rw [grantAfter, if_pos (show responseOk.status = 200 from rfl), ← hsession]
      have hkey : rtspSourceKey after.vhost binding.presentationUri =
          rtspSourceKey after.vhost message.request.uri := by
        rcases huri with ⟨-, huri⟩ | hfound
        · rw [huri]
        · rw [hvhost]
          exact hkeys hannounces slot binding hfound
      obtain ⟨hmode, hpub, hplayer⟩ := hstage.of_init hinit
      refine hbound.put hget rfl ?_ htracks (fun handle hhas => hhas)
      exact .toRecord message.request.uri (Or.inl ⟨rfl, hmode⟩) hpub hplayer hkey

end Announce

section Describe

/-- A source whose description is written completely. -/
def descriptionFits (source : MediaSource) : Bool :=
  source.tracks.length ≤ maxTracks && (appendSdp (sdpHead ++ source.tracks.flatMap sdpOfTrack) []).2

theorem appendSdp_append (xs ys : List (List UInt8)) (sdp : List UInt8) :
    appendSdp (xs ++ ys) sdp =
      if (appendSdp xs sdp).2 then appendSdp ys (appendSdp xs sdp).1 else appendSdp xs sdp := by
  induction xs generalizing sdp with
  | nil => rfl
  | cons line rest ih =>
    rw [cons_append, appendSdp, appendSdp]
    split
    · rfl
    · exact ih (sdp ++ line)

/-- A description that fits is written to its end. -/
theorem describeFrom_ok {i : ℕ} {rest : List TrackInfo} {binding : Binding}
    (hcount : i + rest.length ≤ maxTracks)
    (hfits : (appendSdp (rest.flatMap sdpOfTrack) binding.sdp).2 = true) :
    (describeFrom i rest binding).2 = mediaOk := by
  induction rest generalizing i binding with
  | nil => rfl
  | cons track rest ih =>
    rw [length_cons] at hcount
    rw [flatMap_cons, appendSdp_append] at hfits
    rw [describeFrom, if_neg (by omega)]
    generalize appendSdp (sdpOfTrack track) binding.sdp = out at hfits
    obtain ⟨sdp, fits⟩ := out
    dsimp only at hfits ⊢
    cases fits with
    | false =>
      rw [if_neg Bool.false_ne_true] at hfits
      cases hfits
    | true =>
      rw [if_pos rfl] at hfits ⊢
      exact ih (by omega) hfits

/-- What the description of a source does to a binding that is new. -/
inductive DescribeOutcome (registry : Registry) (key : RawKey) (binding : Binding) :
    Binding → ℤ → Prop where
  | missing :
      DescribeOutcome registry key binding binding Core.mediaErrNotFound
  | stopped
      (source : MediaSource) (written : Binding) (rc : ℤ)
      (hrc : rc ≠ mediaOk)
      (hfind : registryFind registry key = some source)
      (hnot : descriptionFits source = false) :
      DescribeOutcome registry key binding written rc
  | described
      (tracks : List Track) (count : ℕ) (sdp : List UInt8)
      (htracks : ∀ uri, TracksSound
        { binding with
          sdp := sdp
          tracks := tracks
          trackCount := count
          setupCount := 0
          presentationUri := uri
          state := .described }) :
      DescribeOutcome registry key binding
        { binding with sdp := sdp, tracks := tracks, trackCount := count, setupCount := 0 } mediaOk

theorem describe_outcome (registry : Registry) (key : RawKey) (binding : Binding)
    (hdist : ∀ source, registryFind registry key = some source → DistinctTracks source) :
    DescribeOutcome registry key binding (writeSdp registry key binding).1
      (writeSdp registry key binding).2 := by
  unfold writeSdp
  cases hfind : registryFind registry key with
  | none => exact .missing
  | some source =>
    dsimp only
    obtain ⟨tracks, count, sdp, heq, hsize, hcount, hfresh, hlive⟩ :=
      describeFrom_spec 0 source.tracks
        { binding with
          sdp := (appendSdp sdpHead []).1
          tracks := List.replicate maxTracks Track.zero
          trackCount := 0
          setupCount := 0 } rfl (Nat.zero_le _) length_replicate (fun track htrack => by
            rw [eq_of_mem_replicate htrack]
            rfl)
    have hok : descriptionFits source = true → (describeFrom 0 source.tracks
        { binding with
          sdp := (appendSdp sdpHead []).1
          tracks := List.replicate maxTracks Track.zero
          trackCount := 0
          setupCount := 0 }).2 = mediaOk := by
      intro hfits
      rw [descriptionFits, Bool.and_eq_true, decide_eq_true_eq, appendSdp_append] at hfits
      obtain ⟨hle, hfits⟩ := hfits
      refine describeFrom_ok (by omega) ?_
      split at hfits
      · exact hfits
      · rename_i hhead
        exact absurd hfits hhead
    generalize describeFrom 0 source.tracks
        { binding with
          sdp := (appendSdp sdpHead []).1
          tracks := List.replicate maxTracks Track.zero
          trackCount := 0
          setupCount := 0 } = out at heq hlive hok
    obtain ⟨written, rc⟩ := out
    by_cases hrc : rc = mediaOk
    · subst hrc heq
      refine .described tracks count sdp (fun uri => ?_)
      refine TracksSound.of_fresh hsize hcount rfl hfresh (fun _ => ?_)
      have hids : (tracks.take count).map (fun track => track.info.trackId) =
          source.tracks.map TrackInfo.trackId := by
        rw [hlive rfl, live, take_zero, nil_append, List.map_map]
        rfl
      rw [live]
      rw [hids]
      exact hdist source hfind
    · exact .stopped source written rc hrc hfind
        (Bool.eq_false_iff.mpr (fun hfits => hrc (hok hfits)))

def describeClean (adapter : Adapter) (session : ℕ) (request : RtspRequest) : Prop :=
  isFresh adapter session = true → ∀ key source,
    rtspSourceKey adapter.vhost request.uri = some key →
    registryFind adapter.server.runtime.registry key = some source →
    descriptionFits source = true

theorem distinct_of_find {server : State} {key : RawKey} {source : MediaSource} (h : Handles server)
    (hfind : registryFind server.runtime.registry key = some source) : DistinctTracks source := by
  obtain ⟨k, -, hlook⟩ := registryFind_eq_some.mp hfind
  exact (h.books.each k source hlook).tracks

/-- DESCRIBE of a source whose description fits. -/
theorem onDescribe_spec (h : Bound adapter granted) {uuid : Option (List UInt8)}
    (hclean : describeClean adapter session request) :
    HandlerSpec adapter granted session (.describe session request uuid)
      (onDescribe adapter session request uuid) := by
  have hout := get_outcome h session request.uri uuid
  unfold onDescribe
  generalize getBinding adapter session request.uri uuid = got at hout
  obtain ⟨after, found⟩ := got
  cases hout with
  | refused => exact .refuse rfl h (by decide) rfl
  | got _ slot binding hbound hget hsession hview hvhost hserver huri =>
    dsimp only
    have hafter := hbound.view_of_get hget hsession
    split
    · exact .refuse rfl hbound (by decide) (hafter.trans hview.symm)
    rename_i hstate
    have hinit : binding.state = .init := not_not.mp hstate
    have hfresh : isFresh adapter session = true := by
      rw [isFresh, hview, view, hinit]
      rfl
    have hfits := hclean hfresh
    cases hkey : rtspSourceKey after.vhost request.uri with
    | none =>
      exact .refuse rfl hbound (by decide) (hafter.trans hview.symm)
    | some key =>
      have hwritten := describe_outcome after.server.runtime.registry key binding
        (fun source hfind => distinct_of_find hbound.server hfind)
      dsimp only
      generalize writeSdp after.server.runtime.registry key binding = out at hwritten
      obtain ⟨written, rc⟩ := out
      dsimp only at hwritten ⊢
      have hstage := hbound.stage slot binding hget
      rw [hsession] at hstage
      cases hwritten with
      | missing =>
        rw [if_pos (show Core.mediaErrNotFound ≠ mediaOk by decide), put_self hget]
        exact .refuse rfl hbound (by decide) (hafter.trans hview.symm)
      | stopped source _ _ hrc hfind hnot =>
        rw [hserver] at hfind
        rw [hvhost] at hkey
        rw [hfits key source hkey hfind] at hnot
        cases hnot
      | described tracks count sdp htracks =>
        rw [if_neg (fun hne => hne rfl)]
        refine ⟨?_, fun hne => absurd rfl hne⟩
        rw [grantAfter, if_pos (show responseOk.status = 200 from rfl), ← hsession]
        obtain ⟨hmode, hpub, hplayer⟩ := hstage.of_init hinit
        refine hbound.put hget rfl ?_ (htracks request.uri) (fun handle hhas => hhas)
        exact .toPlay request.uri (Or.inl ⟨rfl, hmode⟩) hpub hplayer rfl

end Describe

section Setup

/-- The checks of session, state, mode and transport that a SETUP passes. -/
structure SetupPasses (binding : Binding) (request : RtspRequest) : Prop where
  session : ¬((binding.setupCount > 0 ∨ request.sessionId ≠ []) ∧
    (!sessionMatches binding request) = true)
  mode : ¬(setupMode binding request = .record ∧ binding.state ≠ .announced ∧
      binding.state ≠ .setup ∨
    setupMode binding request = .play ∧ binding.state ≠ .described ∧ binding.state ≠ .setup ∨
    binding.mode ≠ .unspecified ∧ binding.mode ≠ setupMode binding request)
  transport : (formatTransport binding 0 request (setupMode binding request)).isSome = true

/-- The URI names a track of a binding: it is what was granted, a slash, and the control of
that track alone. -/
structure Names (grant : Granted) (uri : List UInt8) (tracks : List Track) (i : ℕ)
    (track : Track) : Prop where
  found : tracks[i]? = some track
  alone : ∀ (j : ℕ) (other : Track), tracks[j]? = some other → other.control = track.control →
    j = i
  uri : uri = grant.uri ++ slash :: track.control

/-- A SETUP that reaches no defect: where it names a track, its URI ends in the control of no
other track that is not set up, unless that one comes later and the named one is not set up. -/
def setupClean (adapter : Adapter) (granted : ℕ → Option Granted) (session : ℕ)
    (request : RtspRequest) : Prop :=
  ∀ grant slot binding i track, granted session = some grant →
    findBinding adapter session = some (slot, binding) → SetupPasses binding request →
    Names grant request.uri binding.live i track →
    ∀ (j : ℕ) (other : Track), binding.live[j]? = some other → other.setup = false →
      other.control.isSuffixOf request.uri = true → j = i ∨ i < j ∧ track.setup = false

/-- Whether a transport is accepted does not depend on the track. -/
theorem formatTransport_isSome {mode : TransportMode} {i : ℕ}
    (h : formatTransport binding i request mode = some written) :
    (formatTransport binding 0 request mode).isSome = true := by
  unfold formatTransport at h ⊢
  split at h
  · cases h
  rename_i hkind
  rw [if_neg hkind]
  generalize askedChannels request = asked at h
  obtain ⟨rtp, rtcp⟩ := asked
  dsimp only at h ⊢
  split at h
  · cases h
  rename_i hrange
  rw [if_neg hrange]
  split at h
  · cases h
  rename_i hused
  rw [if_neg hused]
  generalize (if mode = .record then Rtsp.text "RECORD" else Rtsp.text "PLAY") = name at h
  split at h
  · cases h
  rename_i hlong
  rw [if_neg hlong]
  rfl

/-- The track that is found is the one that the URI names. -/
theorem findSetupTrack_named {grant : Granted} {i found : ℕ} {track : Track}
    (hnames : Names grant request.uri binding.live i track)
    (hfirst : ∀ (j : ℕ) (other : Track), binding.live[j]? = some other → other.setup = false →
      other.control.isSuffixOf request.uri = true → j = i ∨ i < j ∧ track.setup = false)
    (hcount : binding.trackCount ≤ binding.tracks.length)
    (h : findSetupTrack binding request.uri = some found) : found = i := by
  unfold findSetupTrack at h
  dsimp only at h
  have hends : track.control.isSuffixOf request.uri = true := by
    rw [isSuffixOf_iff_suffix, hnames.uri]
    exact ⟨grant.uri ++ [slash], by rw [append_assoc]; rfl⟩
  cases hfind : (binding.tracks.take binding.trackCount).findIdx?
      (fun track => !track.setup && track.control.isSuffixOf request.uri) with
  | some j =>
    rw [hfind] at h
    obtain rfl := some.inj h
    obtain ⟨hlt, hp, hbef⟩ := List.findIdx?_eq_some_iff_getElem.mp hfind
    rw [Bool.and_eq_true, Bool.not_eq_true'] at hp
    rcases hfirst j _ (getElem?_eq_getElem hlt) hp.1 hp.2 with rfl | ⟨hij, hfree⟩
    · rfl
    · obtain ⟨hlti, hitem⟩ := List.getElem?_eq_some_iff.mp hnames.found
      have hnot := hbef i hij
      rw [show (binding.tracks.take binding.trackCount)[i] = track from hitem, hfree, hends] at hnot
      exact absurd rfl hnot
  | none =>
    rw [hfind] at h
    dsimp only at h
    split at h
    · rename_i hone
      obtain rfl := some.inj h
      obtain ⟨hlt, -⟩ := List.getElem?_eq_some_iff.mp hnames.found
      rw [live, length_take] at hlt
      omega
    · cases h

theorem Stage.setup_mode
    {vhost : List UInt8} {sessions : List ProtocolSession} {grant : Option Granted}
    (h : Stage vhost sessions binding grant) (hsetup : binding.state = .setup) :
    binding.mode ≠ .unspecified := by
  cases h with
  | fresh hstate | recording uri handle key hstate | playing uri handle key hstate =>
    simp [hsetup] at hstate
  | toRecord uri hstate | toPlay uri hstate =>
    rcases hstate with ⟨hstate, -⟩ | ⟨-, hmode⟩
    · simp [hsetup] at hstate
    · simp [hmode]

/-- The checks of SETUP leave the stages from which it leads on. -/
theorem Stage.of_setup
    {vhost : List UInt8} {sessions : List ProtocolSession} {grant : Option Granted}
    {mode : TransportMode} (h : Stage vhost sessions binding grant)
    (hmode : mode = setupMode binding request)
    (hpasses : ¬(mode = .record ∧ binding.state ≠ .announced ∧ binding.state ≠ .setup ∨
      mode = .play ∧ binding.state ≠ .described ∧ binding.state ≠ .setup ∨
      binding.mode ≠ .unspecified ∧ binding.mode ≠ mode)) :
    binding.state ≠ .init ∧ ∀ written : Binding, written.state = .setup → written.mode = mode →
      written.publisher = binding.publisher → written.player = binding.player →
      written.presentationUri = binding.presentationUri → Stage vhost sessions written grant := by
  have hsetup := fun hstate => h.setup_mode hstate
  have hsome : mode = .record ∨ mode = .play := by
    rw [hmode, setupMode]
    cases request.transportSpec.mode with
    | play => exact Or.inr rfl
    | record => exact Or.inl rfl
    | unspecified =>
      cases binding.mode with
      | play => exact Or.inr rfl
      | record => exact Or.inl rfl
      | unspecified =>
        rw [if_neg (fun hne => hne rfl), if_neg (fun hne => hne rfl)]
        split
        · exact Or.inl rfl
        · exact Or.inr rfl
  rcases hsome with hrecord | hplay
  · have hstate : binding.state = .announced ∨ binding.state = .setup ∧ binding.mode = .record := by
      by_contra hnot
      refine hpasses ?_
      by_cases hannounced : binding.state = .announced
      · exact absurd (Or.inl hannounced) hnot
      by_cases hset : binding.state = .setup
      · refine Or.inr (Or.inr ⟨hsetup hset, fun heq => hnot (Or.inr ⟨hset, ?_⟩)⟩)
        rw [heq, hrecord]
      · exact Or.inl ⟨hrecord, hannounced, hset⟩
    obtain ⟨uri, rfl, hpub, hplayer, hkey⟩ := h.of_record hstate
    refine ⟨fun hinit => by simp [hinit] at hstate, ?_⟩
    intro written hws hwm hwp hwl hwu
    refine .toRecord uri (Or.inr ⟨hws, hwm.trans hrecord⟩) (hwp.trans hpub) (hwl.trans hplayer) ?_
    rw [hwu, hkey]
  · have hstate : binding.state = .described ∨ binding.state = .setup ∧ binding.mode = .play := by
      by_contra hnot
      refine hpasses ?_
      by_cases hdescribed : binding.state = .described
      · exact absurd (Or.inl hdescribed) hnot
      by_cases hset : binding.state = .setup
      · refine Or.inr (Or.inr ⟨hsetup hset, fun heq => hnot (Or.inr ⟨hset, ?_⟩)⟩)
        rw [heq, hplay]
      · exact Or.inr (Or.inl ⟨hplay, hdescribed, hset⟩)
    obtain ⟨uri, rfl, hpub, hplayer, hkey⟩ := h.of_play hstate
    refine ⟨fun hinit => by simp [hinit] at hstate, ?_⟩
    intro written hws hwm hwp hwl hwu
    refine .toPlay uri (Or.inr ⟨hws, hwm.trans hplay⟩) (hwp.trans hpub) (hwl.trans hplayer) ?_
    rw [hwu, hkey]

/-- A SETUP that is accepted sets up the track that its URI names. -/
def SetsUpNamed (adapter after : Adapter) (granted : ℕ → Option Granted) (session : ℕ)
    (uri : List UInt8) : Prop :=
  ∀ grant i track, granted session = some grant →
    Names grant uri (viewOf adapter session).tracks i track →
    track.setup = false ∧ ∃ rtp rtcp,
      (viewOf after session).tracks = (viewOf adapter session).tracks.set i (track.on rtp rtcp)

/-- SETUP sets up the track that its URI names. -/
theorem onSetup_spec (h : Bound adapter granted)
    (hclean : setupClean adapter granted session request) :
    HandlerSpec adapter granted session (.setup session request) (onSetup adapter session request) ∧
      ((onSetup adapter session request).2.status = 200 →
        SetsUpNamed adapter (onSetup adapter session request).1 granted session request.uri) := by
  have hrefuse : ∀ response : Response, response.status ≠ 200 →
      HandlerSpec adapter granted session (.setup session request) (adapter, response) ∧
        (response.status = 200 → SetsUpNamed adapter adapter granted session request.uri) :=
    fun response hstat => ⟨.refuse rfl h hstat rfl, fun hok => absurd hok hstat⟩
  unfold onSetup
  cases hfind : findBinding adapter session with
  | none => exact hrefuse notValidInThisState (by decide)
  | some found =>
    obtain ⟨slot, binding⟩ := found
    obtain ⟨hget, hsession⟩ := h.find_iff.mp hfind
    dsimp only
    split
    · exact hrefuse sessionNotFound (by decide)
    rename_i hmatch
    split
    · exact hrefuse notValidInThisState (by decide)
    rename_i hmode
    cases htrack : findSetupTrack binding request.uri with
    | none => exact hrefuse (responseStatus 404 (some "Not Found")) (by decide)
    | some i =>
      dsimp only
      cases hformat : formatTransport binding i request (setupMode binding request) with
      | none => exact hrefuse (responseStatus 461 (some "Unsupported Transport")) (by decide)
      | some written =>
        have hstage := h.stage slot binding hget
        rw [hsession] at hstage
        obtain ⟨hstate, hnext⟩ := hstage.of_setup rfl hmode
        have htracks := h.tracks slot binding hget
        obtain ⟨track, hlive, hfree⟩ := findSetupTrack_spec htrack
        obtain ⟨rtp, rtcp, transport, heq, hset, hsound⟩ :=
          formatTransport_spec htracks hstate hlive hfree hformat
        have hbound := h.put hget (by rw [heq])
          (hnext _ rfl rfl (by rw [heq]) (by rw [heq]) (by rw [heq])) hsound
          (fun handle hhas => by
            rw [heq] at hhas
            exact hhas)
        rw [hsession, Function.update_eq_self] at hbound
        refine ⟨⟨hbound, fun hne => absurd rfl hne⟩, fun _ grant j named hgrant hnames => ?_⟩
        have hview := h.view_of_get hget hsession
        have hview' := hbound.view_of_get (put_get hget) (by rw [heq]; exact hsession : _ = session)
        rw [hview] at hnames ⊢
        rw [hview']
        have hpasses : SetupPasses binding request :=
          ⟨hmatch, hmode, formatTransport_isSome hformat⟩
        have hfirst := hclean grant slot binding j named hgrant hfind hpasses hnames
        obtain rfl := findSetupTrack_named hnames hfirst
          (htracks.count.trans htracks.size.ge) htrack
        have hsame : named = track := by
          have hfound := hnames.found
          rw [show binding.view.tracks = binding.live from rfl, hlive] at hfound
          exact (some.inj hfound).symm
        subst hsame
        exact ⟨hfree, rtp, rtcp, hset⟩

end Setup

/-- The tracks of a binding stay sound when only its state moves on. -/
theorem TracksSound.advance (h : TracksSound binding) (hstate : binding.state ≠ .init)
    (hwritten : written.state ≠ .init) (htracks : written.tracks = binding.tracks)
    (hcount : written.trackCount = binding.trackCount)
    (hsetups : written.setupCount = binding.setupCount) : TracksSound written := by
  have hlive : written.live = binding.live := by
    rw [live, live, htracks, hcount]
  constructor
  case size => exact htracks ▸ h.size
  case count => exact hcount ▸ h.count
  case setups =>
    rw [hsetups, hlive]
    exact h.setups
  case own =>
    rw [hlive]
    exact h.own
  case apart =>
    rw [hlive]
    exact h.apart
  case ids =>
    rw [hlive]
    exact fun _ => h.ids hstate
  case fresh => exact fun hinit => absurd hinit hwritten

/-- A protocol session that was asked for under a URI. -/
structure Opened (vhost uri : List UInt8) (role : ℤ) (state : State)
    (out : State × Except ℤ ℕ) : Prop where
  handles : Handles out.1
  same : ∀ handle < state.sessions.length, out.1.sessions[handle]? = state.sessions[handle]?
  session : ∀ handle, out.2 = .ok handle → handle = state.sessions.length ∧
    ∃ key, rtspSourceKey vhost uri = some key ∧ OpenSession out.1.sessions handle role key

variable {vhost uri : List UInt8} {role : ℤ}

theorem Opened.none {state : State} (h : Handles state)
    (rc : ℤ) : Opened vhost uri role state (state, .error rc) :=
  ⟨h, fun _ _ => rfl, fun _ heq => nomatch heq⟩

theorem Opened.of_open {state : State} {config : SessionConfig} {codes : ℕ → ℤ}
    {memory : OpenMemory} {key : RawKey} (h : Handles state)
    (hkey : rtspSourceKey vhost uri = some key) (hcfg : config.key = key)
    (hrole : config.role = role) :
    Opened vhost uri role state (sessionOpen state config codes memory) := by
  subst hcfg hrole
  obtain ⟨hsame, hopened⟩ := open_sessions state config codes memory
  refine ⟨sessionOpen_handles h config codes memory, hsame, fun handle hok => ?_⟩
  obtain ⟨hhandle, hsession⟩ := hopened handle hok
  exact ⟨hhandle, config.key, hkey, hsession⟩

theorem openRecordTracks_spec (h : Handles adapter.server)
    (uri : List UInt8) (tracks : List TrackInfo) (memory : OpenMemory) :
    Opened adapter.vhost uri rolePublisher adapter.server
      (openRecordTracks adapter uri tracks memory) := by
  unfold openRecordTracks
  split
  · exact .none h _
  cases hkey : rtspSourceKey adapter.vhost uri with
  | none => exact .none h _
  | some key => exact .of_open h hkey rfl rfl

theorem openPlay_spec (h : Handles adapter.server)
    (uri : List UInt8) (slot : ℕ) (codes : ℕ → ℤ) (memory : OpenMemory) :
    Opened adapter.vhost uri rolePlayer adapter.server
      (openPlay adapter uri slot codes memory) := by
  unfold openPlay
  cases hkey : rtspSourceKey adapter.vhost uri with
  | none => exact .none h _
  | some key => exact .of_open h hkey rfl rfl

variable (h : Bound adapter granted)
include h

/-- A binding whose protocol session was opened. -/
theorem Bound.opened {server : State} {handle : ℕ}
    (hget : adapter.sessions[slot]? = some (some binding))
    (hopened : Opened vhost uri role adapter.server (server, .ok handle))
    (hstate : binding.state = .setup) (hwritten : written.state ≠ .init)
    (hsame : written.rtspSession = binding.rtspSession ∧ written.tracks = binding.tracks ∧
      written.trackCount = binding.trackCount ∧ written.setupCount = binding.setupCount)
    (hhas : ∀ other, written.has other → other = handle)
    (hstage : Stage adapter.vhost server.sessions written (granted binding.rtspSession)) :
    Bound (({ adapter with server := server } : Adapter).put slot written) granted := by
  obtain ⟨hsession, htracks, hcount, hsetups⟩ := hsame
  have hinit : binding.state ≠ .init := by
    rw [hstate]
    decide
  have hbound := h.rewrite hget hopened.handles hopened.same hsession hstage
    ((h.tracks slot binding hget).advance hinit hwritten htracks hcount hsetups)
      (fun other hown => by
      rw [hhas other hown]
      exact Or.inr (hopened.session handle rfl).1.ge)
  rwa [Function.update_eq_self] at hbound

theorem Bound.opened_none {rc : ℤ} {server : State}
    (hopened : Opened vhost uri role adapter.server (server, .error rc)) :
    Bound { adapter with server := server } granted :=
  h.serve hopened.handles (fun slot binding handle hget hhas =>
    hopened.same handle ((h.stage slot binding hget).has_lt hhas))

/-- RECORD opens at most one publisher, under the key that was announced. -/
theorem onRecord_spec (memory : OpenMemory) :
    HandlerSpec adapter granted session (.record session request memory)
      (onRecord adapter session request memory) := by
  unfold onRecord
  cases hfind : findBinding adapter session with
  | none => exact .refuse rfl h (by decide) rfl
  | some found =>
    obtain ⟨slot, binding⟩ := found
    obtain ⟨hget, hsession⟩ := h.find_iff.mp hfind
    dsimp only
    split
    · exact .refuse rfl h (by decide) rfl
    split
    · exact .refuse rfl h (by decide) rfl
    rename_i hcheck
    rw [not_or, not_or, not_not, not_not] at hcheck
    obtain ⟨hstate, hmode, -⟩ := hcheck
    have hstage := h.stage slot binding hget
    obtain ⟨uri, hgrant, hpub, hplayer, hkey⟩ := hstage.of_record (Or.inr ⟨hstate, hmode⟩)
    rw [hpub]
    have hopened := openRecordTracks_spec h.server binding.presentationUri
      ((binding.tracks.take binding.trackCount).map Track.info) memory
    generalize openRecordTracks adapter binding.presentationUri
      ((binding.tracks.take binding.trackCount).map Track.info) memory = out at hopened
    obtain ⟨server, result⟩ := out
    cases result with
    | error rc => exact ⟨h.opened_none hopened, fun _ => rfl⟩
    | ok handle =>
      obtain ⟨-, key, hown, hopen⟩ := hopened.session handle rfl
      refine ⟨?_, fun hne => absurd rfl hne⟩
      refine h.opened hget hopened hstate (by simp) ⟨rfl, rfl, rfl, rfl⟩ ?_ ?_
      · rintro other (heq | heq)
        · exact (some.inj heq).symm
        · rw [hplayer] at heq
          cases heq
      · rw [hgrant]
        exact .recording uri handle key rfl hmode rfl hplayer (hkey.symm.trans hown) hopen

/-- PLAY opens at most one player, under the key that was described. -/
theorem onPlay_spec (codes : ℕ → ℤ) (memory : OpenMemory) :
    HandlerSpec adapter granted session (.play session request codes memory)
      (onPlay adapter session request codes memory) := by
  unfold onPlay
  cases hfind : findBinding adapter session with
  | none => exact .refuse rfl h (by decide) rfl
  | some found =>
    obtain ⟨slot, binding⟩ := found
    obtain ⟨hget, hsession⟩ := h.find_iff.mp hfind
    dsimp only
    split
    · exact .refuse rfl h (by decide) rfl
    split
    · exact .refuse rfl h (by decide) rfl
    rename_i hcheck
    rw [not_or, not_or, not_not, not_not] at hcheck
    obtain ⟨hstate, hmode, -⟩ := hcheck
    have hstage := h.stage slot binding hget
    obtain ⟨uri, hgrant, hpub, hplayer, hkey⟩ := hstage.of_play (Or.inr ⟨hstate, hmode⟩)
    rw [hplayer]
    have hopened := openPlay_spec h.server binding.presentationUri slot codes memory
    generalize openPlay adapter binding.presentationUri slot codes memory = out at hopened
    obtain ⟨server, result⟩ := out
    cases result with
    | error rc => exact ⟨h.opened_none hopened, fun _ => rfl⟩
    | ok handle =>
      obtain ⟨-, key, hown, hopen⟩ := hopened.session handle rfl
      refine ⟨?_, fun hne => absurd rfl hne⟩
      refine h.opened hget hopened hstate (by simp) ⟨rfl, rfl, rfl, rfl⟩ ?_ ?_
      · rintro other (heq | heq)
        · rw [hpub] at heq
          cases heq
        · exact (some.inj heq).symm
      · rw [hgrant]
        exact .playing uri handle key rfl hmode hpub rfl (hkey.symm.trans hown) hopen

/-- TEARDOWN closes the binding of its connection. -/
theorem onTeardown_spec :
    HandlerSpec adapter granted session (.teardown session request)
      (onTeardown adapter session request) := by
  unfold onTeardown
  cases hfind : findBinding adapter session with
  | none => exact .refuse rfl h (by decide) rfl
  | some found =>
    obtain ⟨slot, binding⟩ := found
    obtain ⟨hget, hsession⟩ := h.find_iff.mp hfind
    dsimp only
    split
    · exact .refuse rfl h (by decide) rfl
    · refine ⟨?_, fun hne => absurd rfl hne⟩
      rw [grantAfter, if_pos (show responseOk.status = 200 from rfl), ← hsession]
      exact h.closed hget

/-- A connection that closes leaves no binding behind. -/
theorem onSessionClose_spec :
    Bound (onSessionClose adapter session) (Function.update granted session none) := by
  unfold onSessionClose
  cases hfind : findBinding adapter session with
  | none =>
    have hnone : granted session = none :=
      h.idle session (fun slot binding hget => find_none hfind hget)
    rw [← hnone, Function.update_eq_self]
    exact h
  | some found =>
    obtain ⟨slot, binding⟩ := found
    obtain ⟨hget, hsession⟩ := h.find_iff.mp hfind
    rw [← hsession]
    exact h.closed hget

end RtspAdapter
end TurboMedia.Server
