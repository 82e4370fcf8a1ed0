import TurboMedia.Server.RtspAdapter
import TurboMedia.Server.RuntimeSessions

/-!
# RTSP server adapter: the bindings

What a binding has to do with what its connection was granted, with the protocol sessions of
the runtime, and with the bindings of other connections.

**Method.** `Stage` has one rule for each stage of a connection, `TracksSound` is about the
tracks of one binding, and `Bound` joins them over the table.  A handler writes one slot
(`Bound.write`), behind calls of the runtime that leave the sessions of other bindings alone.
-/

namespace TurboMedia.Server
namespace RtspAdapter

open List Binding SlotTable Function Option

open TurboMedia.Core (MediaSource TrackInfo MediaFrame mediaOk mediaErrFull mediaErrInvalid)
open Rtsp (RtspRequest RtspMessage TransportMode SdpMedia sdpParse slash)

/-- What a connection was granted: to announce or to describe the media under a URI. -/
inductive Granted where
  | announce (uri : List UInt8)
  | describe (uri : List UInt8)
deriving DecidableEq

def Granted.uri : Granted → List UInt8
  | .announce uri => uri
  | .describe uri => uri

def grantAfter (granted : ℕ → Option Granted) : Op × Answer → ℕ → Option Granted
  | (.announce session message _, .response response) =>
    if response.status = 200 then
      update granted session (some (.announce message.request.uri))
    else granted
  | (.describe session request _, .response response) =>
    if response.status = 200 then update granted session (some (.describe request.uri))
    else granted
  | (.teardown session _, .response response) =>
    if response.status = 200 then update granted session none else granted
  | (.close session, _) => update granted session none
  | _ => granted

def grantedOf (past : List (Op × Answer)) : ℕ → Option Granted :=
  past.foldl grantAfter (fun _ => none)

theorem grantedOf_append (past : List (Op × Answer)) (event : Op × Answer) :
    grantedOf (past ++ [event]) = grantAfter (grantedOf past) event := by
  rw [grantedOf, foldl_append]
  rfl

section Invariant

def Binding.live (binding : Binding) : List Track :=
  binding.tracks.take binding.trackCount

def ChannelsApart (s t : Track) : Prop :=
  s.rtpChannel ≠ t.rtpChannel ∧ s.rtpChannel ≠ t.rtcpChannel ∧
    s.rtcpChannel ≠ t.rtpChannel ∧ s.rtcpChannel ≠ t.rtcpChannel

/-- The tracks of a binding. -/
structure TracksSound (binding : Binding) : Prop where
  size : binding.tracks.length = maxTracks
  count : binding.trackCount ≤ maxTracks
  setups : binding.setupCount = binding.live.countP Track.setup
  own : ∀ track ∈ binding.live, track.setup = true → track.rtpChannel ≠ track.rtcpChannel
  apart : binding.live.Pairwise (fun s t => s.setup = true → t.setup = true → ChannelsApart s t)
  ids : binding.state ≠ .init → (binding.live.map (fun track => track.info.trackId)).Nodup
  fresh : binding.state = .init → ∀ track ∈ binding.tracks, track.setup = false

/-- A protocol session that is open, with its role and key. -/
structure OpenSession (sessions : List ProtocolSession) (handle : ℕ) (role : ℤ) (key : RawKey) :
    Prop where
  found : ∃ session, sessions[handle]? = some session ∧ session.closed = false ∧
    session.role = role ∧ session.key = key

/-- The stages of a connection. -/
inductive Stage (vhost : List UInt8) (sessions : List ProtocolSession) (binding : Binding) :
    Option Granted → Prop where
  | fresh
      (hstate : binding.state = .init)
      (hmode : binding.mode = .unspecified)
      (hpublisher : binding.publisher = none)
      (hplayer : binding.player = none) :
      Stage vhost sessions binding none
  | toRecord
      (uri : List UInt8)
      (hstate : binding.state = .announced ∧ binding.mode = .unspecified ∨
        binding.state = .setup ∧ binding.mode = .record)
      (hpublisher : binding.publisher = none)
      (hplayer : binding.player = none)
      (hkey : rtspSourceKey vhost binding.presentationUri = rtspSourceKey vhost uri) :
      Stage vhost sessions binding (some (.announce uri))
  | toPlay
      (uri : List UInt8)
      (hstate : binding.state = .described ∧ binding.mode = .unspecified ∨
        binding.state = .setup ∧ binding.mode = .play)
      (hpublisher : binding.publisher = none)
      (hplayer : binding.player = none)
      (hkey : rtspSourceKey vhost binding.presentationUri = rtspSourceKey vhost uri) :
      Stage vhost sessions binding (some (.describe uri))
  | recording
      (uri : List UInt8) (handle : ℕ) (key : RawKey)
      (hstate : binding.state = .recording)
      (hmode : binding.mode = .record)
      (hpublisher : binding.publisher = some handle)
      (hplayer : binding.player = none)
      (hkey : rtspSourceKey vhost uri = some key)
      (hsession : OpenSession sessions handle rolePublisher key) :
      Stage vhost sessions binding (some (.announce uri))
  | playing
      (uri : List UInt8) (handle : ℕ) (key : RawKey)
      (hstate : binding.state = .playing)
      (hmode : binding.mode = .play)
      (hpublisher : binding.publisher = none)
      (hplayer : binding.player = some handle)
      (hkey : rtspSourceKey vhost uri = some key)
      (hsession : OpenSession sessions handle rolePlayer key) :
      Stage vhost sessions binding (some (.describe uri))

def Binding.has (binding : Binding) (handle : ℕ) : Prop :=
  binding.publisher = some handle ∨ binding.player = some handle

/-- The bindings, the runtime and the grants. -/
structure Bound (adapter : Adapter) (granted : ℕ → Option Granted) : Prop where
  server : Handles adapter.server
  stage : ∀ (slot : ℕ) (binding : Binding), adapter.sessions[slot]? = some (some binding) →
    Stage adapter.vhost adapter.server.sessions binding (granted binding.rtspSession)
  tracks : ∀ (slot : ℕ) (binding : Binding), adapter.sessions[slot]? = some (some binding) →
    TracksSound binding
  alone : ∀ (slot slot' : ℕ) (binding binding' : Binding),
    adapter.sessions[slot]? = some (some binding) →
    adapter.sessions[slot']? = some (some binding') →
    binding.rtspSession = binding'.rtspSession → slot = slot'
  owners : ∀ (slot slot' : ℕ) (binding binding' : Binding) (handle : ℕ),
    adapter.sessions[slot]? = some (some binding) →
    adapter.sessions[slot']? = some (some binding') →
    binding.has handle → binding'.has handle → slot = slot'
  idle : ∀ session, (∀ (slot : ℕ) (binding : Binding),
    adapter.sessions[slot]? = some (some binding) → binding.rtspSession ≠ session) →
    granted session = none

variable {adapter : Adapter} {granted : ℕ → Option Granted} {session slot : ℕ}
variable {binding : Binding}

variable {sessions : List ProtocolSession}

theorem OpenSession.lt {handle : ℕ} {role : ℤ} {key : RawKey}
    (h : OpenSession sessions handle role key) : handle < sessions.length := by
  obtain ⟨session, hget, -⟩ := h.found
  exact (List.getElem?_eq_some_iff.mp hget).1

variable {vhost : List UInt8} {grant : Option Granted}

variable (h : Stage vhost sessions binding grant)
include h

theorem Stage.has_lt {handle : ℕ} (hhas : binding.has handle) :
    handle < sessions.length := by
  cases h with
  | fresh hstate hmode hpublisher hplayer | toRecord uri hstate hpublisher hplayer hkey
  | toPlay uri hstate hpublisher hplayer hkey =>
    rw [has, hpublisher, hplayer] at hhas
    simp at hhas
  | recording uri own key hstate hmode hpublisher hplayer hkey hsession
  | playing uri own key hstate hmode hpublisher hplayer hkey hsession =>
    rw [has, hpublisher, hplayer] at hhas
    obtain rfl : own = handle := by simpa using hhas
    exact hsession.lt

theorem Stage.mono {sessions' : List ProtocolSession}
    (hsame : ∀ handle, binding.has handle → sessions'[handle]? = sessions[handle]?) :
    Stage vhost sessions' binding grant := by
  cases h with
  | fresh hstate hmode hpublisher hplayer => exact .fresh hstate hmode hpublisher hplayer
  | toRecord uri hstate hpublisher hplayer hkey =>
    exact .toRecord uri hstate hpublisher hplayer hkey
  | toPlay uri hstate hpublisher hplayer hkey => exact .toPlay uri hstate hpublisher hplayer hkey
  | recording uri handle key hstate hmode hpublisher hplayer hkey hsession =>
    refine .recording uri handle key hstate hmode hpublisher hplayer hkey ⟨?_⟩
    rw [hsame handle (Or.inl hpublisher)]
    exact hsession.found
  | playing uri handle key hstate hmode hpublisher hplayer hkey hsession =>
    refine .playing uri handle key hstate hmode hpublisher hplayer hkey ⟨?_⟩
    rw [hsame handle (Or.inr hplayer)]
    exact hsession.found

theorem Stage.of_init (hinit : binding.state = .init) :
    binding.mode = .unspecified ∧ binding.publisher = none ∧ binding.player = none := by
  cases h with
  | fresh hstate hmode hpublisher hplayer => exact ⟨hmode, hpublisher, hplayer⟩
  | toRecord uri hstate | toPlay uri hstate | recording uri handle key hstate
  | playing uri handle key hstate => simp [hinit] at hstate

theorem Stage.of_record
    (hsetup : binding.state = .announced ∨ binding.state = .setup ∧ binding.mode = .record) :
    ∃ uri, grant = some (.announce uri) ∧ binding.publisher = none ∧ binding.player = none ∧
      rtspSourceKey vhost binding.presentationUri = rtspSourceKey vhost uri := by
  cases h with
  | fresh hstate | recording uri handle key hstate | playing uri handle key hstate =>
    simp [hstate] at hsetup
  | toRecord uri hstate hpublisher hplayer hkey => exact ⟨uri, rfl, hpublisher, hplayer, hkey⟩
  | toPlay uri hstate =>
    rcases hstate with ⟨hstate, -⟩ | ⟨hstate, hmode⟩
    · simp [hstate] at hsetup
    · simp [hstate, hmode] at hsetup

theorem Stage.of_play
    (hsetup : binding.state = .described ∨ binding.state = .setup ∧ binding.mode = .play) :
    ∃ uri, grant = some (.describe uri) ∧ binding.publisher = none ∧ binding.player = none ∧
      rtspSourceKey vhost binding.presentationUri = rtspSourceKey vhost uri := by
  cases h with
  | fresh hstate | recording uri handle key hstate | playing uri handle key hstate =>
    simp [hstate] at hsetup
  | toRecord uri hstate =>
    rcases hstate with ⟨hstate, -⟩ | ⟨hstate, hmode⟩
    · simp [hstate] at hsetup
    · simp [hstate, hmode] at hsetup
  | toPlay uri hstate hpublisher hplayer hkey => exact ⟨uri, rfl, hpublisher, hplayer, hkey⟩

omit h

theorem Bound.find_iff (h : Bound adapter granted) :
    findBinding adapter session = some (slot, binding) ↔
      adapter.sessions[slot]? = some (some binding) ∧ binding.rtspSession = session := by
  constructor
  · intro hfind
    obtain ⟨hget, hsession⟩ := findOccupied_some hfind
    exact ⟨hget, beq_iff_eq.mp hsession⟩
  · rintro ⟨hget, hsession⟩
    cases hfind : findBinding adapter session with
    | none =>
      have hmem : binding ∈ adapter.sessions.reduceOption :=
        mem_of_getElem? hget
      have hnot := findOccupied_none hfind binding hmem
      rw [hsession, beq_self_eq_true] at hnot
      cases hnot
    | some found =>
      obtain ⟨slot', binding'⟩ := found
      obtain ⟨hget', hsession'⟩ := findOccupied_some hfind
      have hsame := h.alone slot slot' binding binding' hget hget'
        (hsession.trans (beq_iff_eq.mp hsession').symm)
      subst hsame
      rw [hget] at hget'
      cases hget'
      rfl

theorem find_none (hfind : findBinding adapter session = none)
    (hget : adapter.sessions[slot]? = some (some binding)) : binding.rtspSession ≠ session := by
  intro hsession
  have hnot := findOccupied_none hfind binding (mem_of_getElem? hget)
  rw [hsession, beq_self_eq_true] at hnot
  cases hnot

end Invariant

section Writes

variable {adapter : Adapter} {granted granted' : ℕ → Option Granted} {session slot : ℕ}
variable {binding written : Binding} {server : State}

theorem lookup_set {sessions : List (Option Binding)} {entry : Option Binding} {other : ℕ}
    (h : (sessions.set slot entry)[other]? = some (some binding)) :
    other = slot ∧ entry = some binding ∨ other ≠ slot ∧
      sessions[other]? = some (some binding) := by
  rcases eq_or_ne slot other with rfl | hne
  · obtain ⟨hlt, -⟩ := List.getElem?_eq_some_iff.mp h
    rw [length_set] at hlt
    rw [getElem?_set_self hlt] at h
    exact Or.inl ⟨rfl, some.inj h⟩
  · rw [getElem?_set_ne hne] at h
    exact Or.inr ⟨hne.symm, h⟩

/-- One slot is written, and the runtime leaves the sessions of the other bindings alone. -/
theorem Bound.write (h : Bound adapter granted) {entry : Option Binding} (hserver : Handles server)
    (hsame : ∀ other c handle, other ≠ slot → adapter.sessions[other]? = some (some c) →
      c.has handle → server.sessions[handle]? = adapter.server.sessions[handle]?)
    (hgrants : ∀ other c, other ≠ slot → adapter.sessions[other]? = some (some c) →
      granted' c.rtspSession = granted c.rtspSession)
    (hstage : ∀ b, entry = some b →
      Stage adapter.vhost server.sessions b (granted' b.rtspSession) ∧ TracksSound b)
    (halone : ∀ b, entry = some b → ∀ other c, other ≠ slot →
      adapter.sessions[other]? = some (some c) → c.rtspSession ≠ b.rtspSession)
    (howners : ∀ b, entry = some b → ∀ other c handle, other ≠ slot →
      adapter.sessions[other]? = some (some c) → c.has handle → ¬b.has handle)
    (hidle : ∀ session, (∀ other c, other ≠ slot → adapter.sessions[other]? = some (some c) →
      c.rtspSession ≠ session) → (∀ b, entry = some b → b.rtspSession ≠ session) →
      granted' session = none) (hslot : slot < adapter.sessions.length) :
    Bound { adapter with server := server, sessions := adapter.sessions.set slot entry }
      granted' where
  server := hserver
  stage := by
    intro other c hget
    rcases lookup_set hget with ⟨rfl, hent⟩ | ⟨hne, hold⟩
    · exact (hstage c hent).1
    · rw [hgrants other c hne hold]
      exact (h.stage other c hold).mono (fun handle => hsame other c handle hne hold)
  tracks := by
    intro other c hget
    rcases lookup_set hget with ⟨rfl, hent⟩ | ⟨hne, hold⟩
    · exact (hstage c hent).2
    · exact h.tracks other c hold
  alone := by
    intro i j b c hb hc heq
    rcases lookup_set hb with ⟨hi, hent⟩ | ⟨hi, hold⟩
    · rcases lookup_set hc with ⟨hj, -⟩ | ⟨hj, hold'⟩
      · rw [hi, hj]
      · exact absurd heq.symm (halone b hent j c hj hold')
    · rcases lookup_set hc with ⟨hj, hent⟩ | ⟨hj, hold'⟩
      · exact absurd heq (halone c hent i b hi hold)
      · exact h.alone i j b c hold hold' heq
  owners := by
    intro i j b c handle hb hc hhas hhas'
    rcases lookup_set hb with ⟨hi, hent⟩ | ⟨hi, hold⟩
    · rcases lookup_set hc with ⟨hj, -⟩ | ⟨hj, hold'⟩
      · rw [hi, hj]
      · exact absurd hhas (howners b hent j c handle hj hold' hhas')
    · rcases lookup_set hc with ⟨hj, hent⟩ | ⟨hj, hold'⟩
      · exact absurd hhas' (howners c hent i b handle hi hold hhas)
      · exact h.owners i j b c handle hold hold' hhas hhas'
  idle := by
    intro session hnone
    refine hidle session (fun other c hne hget => hnone other c ?_) (fun b hent => ?_)
    · rw [getElem?_set_ne hne.symm]
      exact hget
    · refine hnone slot b ?_
      rw [getElem?_set_self hslot, hent]

theorem Bound.lt (hget : adapter.sessions[slot]? = some (some binding)) :
    slot < adapter.sessions.length :=
  (List.getElem?_eq_some_iff.mp hget).1

/-- The binding of a connection is written, with protocol sessions that are its own or new. -/
theorem Bound.rewrite (h : Bound adapter granted) {grant : Option Granted}
    (hget : adapter.sessions[slot]? = some (some binding)) (hserver : Handles server)
    (hsame : ∀ handle, handle < adapter.server.sessions.length →
      server.sessions[handle]? = adapter.server.sessions[handle]?)
    (hsession : written.rtspSession = binding.rtspSession)
    (hstage : Stage adapter.vhost server.sessions written grant) (htracks : TracksSound written)
    (hhas : ∀ handle, written.has handle →
      binding.has handle ∨ adapter.server.sessions.length ≤ handle) :
    Bound (({ adapter with server := server } : Adapter).put slot written)
      (update granted binding.rtspSession grant) := by
  have hother : ∀ (other : ℕ) (c : Binding), other ≠ slot →
      adapter.sessions[other]? = some (some c) → c.rtspSession ≠ binding.rtspSession :=
    fun other c hne hc heq => hne (h.alone other slot c binding hc hget heq)
  refine h.write hserver ?_ ?_ ?_ ?_ ?_ ?_ (Bound.lt hget)
  · intro other c handle _ hc hhas
    exact hsame handle ((h.stage other c hc).has_lt hhas)
  · intro other c hne hc
    exact update_of_ne (hother other c hne hc) _ _
  · rintro b heq
    obtain rfl := some.inj heq
    rw [hsession, update_self]
    exact ⟨hstage, htracks⟩
  · rintro b heq other c hne hc
    obtain rfl := some.inj heq
    rw [hsession]
    exact hother other c hne hc
  · rintro b heq other c handle hne hc hhas' hhasb
    obtain rfl := some.inj heq
    rcases hhas handle hhasb with hown | hnew
    · exact hne (h.owners other slot c binding handle hc hget hhas' hown)
    · exact absurd ((h.stage other c hc).has_lt hhas') (not_lt.mpr hnew)
  · intro session hnone hnot
    have hne : session ≠ binding.rtspSession := by
      rw [← hsession]
      exact (hnot written rfl).symm
    rw [update_of_ne hne]
    refine h.idle session (fun other c hc => ?_)
    rcases eq_or_ne other slot with rfl | hslot
    · rw [hget] at hc
      cases hc
      exact hne.symm
    · exact hnone other c hslot hc

/-- The binding of a connection is written, without a call of the runtime. -/
theorem Bound.put (h : Bound adapter granted) {grant : Option Granted}
    (hget : adapter.sessions[slot]? = some (some binding))
    (hsession : written.rtspSession = binding.rtspSession)
    (hstage : Stage adapter.vhost adapter.server.sessions written grant)
    (htracks : TracksSound written) (hhas : ∀ handle, written.has handle → binding.has handle) :
    Bound (adapter.put slot written) (update granted binding.rtspSession grant) :=
  h.rewrite hget h.server (fun _ _ => rfl) hsession hstage htracks
    (fun handle hown => Or.inl (hhas handle hown))

theorem Bound.serve (h : Bound adapter granted) (hserver : Handles server)
    (hsame : ∀ (slot : ℕ) (binding : Binding) (handle : ℕ),
      adapter.sessions[slot]? = some (some binding) → binding.has handle →
      server.sessions[handle]? = adapter.server.sessions[handle]?) :
    Bound { adapter with server := server } granted :=
  { h with
    server := hserver
    stage := fun slot binding hget =>
      (h.stage slot binding hget).mono (fun handle => hsame slot binding handle hget) }

end Writes

section Sessions

variable {adapter : Adapter} {granted : ℕ → Option Granted} {slot : ℕ} {binding : Binding}

/-- The sessions behind an open: the old ones, and the new one where it is opened. -/
theorem open_sessions
    (state : State) (config : SessionConfig) (codes : ℕ → ℤ) (memory : OpenMemory) :
    (∀ handle < state.sessions.length,
      (sessionOpen state config codes memory).1.sessions[handle]? = state.sessions[handle]?) ∧
    ∀ handle, (sessionOpen state config codes memory).2 = .ok handle →
      handle = state.sessions.length ∧
        OpenSession (sessionOpen state config codes memory).1.sessions handle config.role
          config.key := by
  have hout := open_outcome state config codes memory
  generalize sessionOpen state config codes memory = out at hout
  obtain ⟨after, result⟩ := out
  cases hout with
  | refused runtime rc hmoves hgrown htracks => exact ⟨fun _ _ => rfl, fun handle h => nomatch h⟩
  | publisher runtime hrole hmoves | player runtime id k hkey hmoves =>
    refine ⟨fun handle hlt => getElem?_append_left hlt, fun handle h => ?_⟩
    obtain rfl := Except.ok.inj h
    exact ⟨rfl, ⟨_, getElem?_concat_length, rfl, rfl, rfl⟩⟩

theorem close_sessions (state : State) {handle other : ℕ} (hne : other ≠ handle) :
    (sessionClose state handle).sessions[other]? = state.sessions[other]? := by
  cases hget : state.sessions[handle]? with
  | none => rw [sessionClose, hget]
  | some session =>
    cases hopen : session.closed with
    | true =>
      rw [sessionClose, hget]
      dsimp only
      rw [if_pos hopen]
    | false =>
      rw [sessionClose_eq hget hopen]
      exact getElem?_set_ne hne.symm

theorem closeHandle_handles {state : State} (h : Handles state) (handle : Option ℕ) :
    Handles (closeHandle state handle) := by
  cases handle with
  | none => exact h
  | some handle => exact sessionClose_handles h handle

theorem closeHandle_sessions (state : State) {handle : Option ℕ} {other : ℕ}
    (hne : handle ≠ some other) :
    (closeHandle state handle).sessions[other]? = state.sessions[other]? := by
  cases handle with
  | none => rfl
  | some handle => exact close_sessions state (fun h => hne (congrArg some h.symm))

theorem Bound.closed (h : Bound adapter granted)
    (hget : adapter.sessions[slot]? = some (some binding)) :
    Bound (closeBinding adapter slot binding)
      (update granted binding.rtspSession none) := by
  have hother : ∀ (other : ℕ) (c : Binding), other ≠ slot →
      adapter.sessions[other]? = some (some c) → c.rtspSession ≠ binding.rtspSession :=
    fun other c hne hc heq => hne (h.alone other slot c binding hc hget heq)
  refine h.write (closeHandle_handles (closeHandle_handles h.server _) _) ?_ ?_
    (fun b heq => nomatch heq) (fun b heq => nomatch heq) (fun b heq => nomatch heq) ?_
    (Bound.lt hget)
  · intro other c handle hne hc hhas
    have hnot : ¬binding.has handle := fun hown =>
      hne (h.owners other slot c binding handle hc hget hhas hown)
    rw [closeHandle_sessions _ (fun heq => hnot (Or.inl heq)),
      closeHandle_sessions _ (fun heq => hnot (Or.inr heq))]
  · intro other c hne hc
    exact update_of_ne (hother other c hne hc) _ _
  · intro session hnone _
    by_cases hsession : session = binding.rtspSession
    · rw [hsession, update_self]
    · rw [update_of_ne hsession]
      refine h.idle session (fun other c hc => ?_)
      rcases eq_or_ne other slot with rfl | hslot
      · rw [hget] at hc
        cases hc
        exact fun heq => hsession heq.symm
      · exact hnone other c hslot hc

end Sessions

variable {binding : Binding} {request : RtspRequest} {mode : TransportMode} {i : ℕ}

theorem TracksSound.of_fresh (hsize : binding.tracks.length = maxTracks)
    (hcount : binding.trackCount ≤ maxTracks) (hsetups : binding.setupCount = 0)
    (hfresh : ∀ track ∈ binding.tracks, track.setup = false)
    (hids : binding.state ≠ .init → (binding.live.map (fun track => track.info.trackId)).Nodup) :
    TracksSound binding := by
  have hlive : ∀ track ∈ binding.live, track.setup = false := fun track htrack =>
    hfresh track (mem_of_mem_take htrack)
  refine ⟨hsize, hcount, ?_, ?_, ?_, hids, fun _ => hfresh⟩
  · rw [hsetups]
    symm
    rw [countP_eq_zero]
    intro track htrack
    rw [hlive track htrack]
    exact Bool.false_ne_true
  · intro track htrack hsetup
    rw [hlive track htrack] at hsetup
    cases hsetup
  · refine List.Pairwise.imp_of_mem (R := fun _ _ => True) ?_ (pairwise_of_forall (by simp))
    intro s t hs _ _ hsetup
    rw [hlive s hs] at hsetup
    cases hsetup

theorem newBinding_tracks (adapter : Adapter) (session : ℕ) (uri uuid : List UInt8) :
    TracksSound (newBinding adapter session uri uuid) := by
  refine TracksSound.of_fresh (length_replicate) (Nat.zero_le _) rfl ?_ ?_
  · intro track htrack
    rw [eq_of_mem_replicate htrack]
    rfl
  · intro hstate
    exact absurd rfl hstate

theorem announceFrom_spec (i : ℕ) (media : List SdpMedia) (tracks : List Track) :
    (announceFrom i media tracks).1.length = tracks.length ∧
      ((∀ track ∈ tracks, track.setup = false) →
        ∀ track ∈ (announceFrom i media tracks).1, track.setup = false) ∧
      (∀ j < i, (announceFrom i media tracks).1[j]? = tracks[j]?) ∧
      ((announceFrom i media tracks).2 = mediaOk → i + media.length ≤ tracks.length →
        ∀ j, i ≤ j → j < i + media.length →
          ((announceFrom i media tracks).1[j]?).map (fun track => track.info.trackId) =
            some (j : ℤ)) := by
  induction media generalizing i tracks with
  | nil =>
    refine ⟨rfl, id, fun _ _ => rfl, fun _ _ j hle hlt => ?_⟩
    rw [length_nil] at hlt
    omega
  | cons first rest ih =>
    rw [announceFrom]
    cases htrack : announcedTrack i first with
    | none =>
      refine ⟨rfl, id, fun _ _ => rfl, fun herr => ?_⟩
      exact absurd herr (show mediaErrInvalid ≠ mediaOk by decide)
    | some track =>
      have hsetup : track.setup = false ∧ track.info.trackId = (i : ℤ) := by
        unfold announcedTrack at htrack
        split at htrack
        · cases htrack
        · cases htrack
          exact ⟨rfl, rfl⟩
      obtain ⟨hlength, hfresh, hbef, hids⟩ := ih (i + 1) (tracks.set i track)
      rw [length_set] at hlength hids
      refine ⟨hlength, ?_, ?_, ?_⟩
      · intro hall
        refine hfresh (fun t ht => ?_)
        rcases mem_or_eq_of_mem_set ht with hold | rfl
        · exact hall t hold
        · exact hsetup.1
      · intro j hj
        rw [hbef j (by omega), getElem?_set_ne (by omega)]
      · intro hok hfits j hle hlt
        rw [length_cons] at hfits hlt
        rcases Nat.eq_or_lt_of_le hle with rfl | hlater
        · dsimp only
          rw [hbef i (Nat.lt_succ_self i), getElem?_set_self (by omega),
            map_some, hsetup.2]
        · exact hids hok (by omega) j hlater (by omega)

theorem nodup_of_indices {tracks : List Track} {n : ℕ}
    (h : ∀ j < n, (tracks[j]?).map (fun track => track.info.trackId) = some (j : ℤ)) :
    ((tracks.take n).map (fun track => track.info.trackId)).Nodup := by
  have heq : (tracks.take n).map (fun track => track.info.trackId) =
      (List.range n).map (fun (j : ℕ) => (j : ℤ)) := by
    refine ext_getElem? (fun j => ?_)
    rw [getElem?_map, getElem?_map]
    rcases lt_or_ge j n with hlt | hge
    · rw [getElem?_take_of_lt hlt, h j hlt, getElem?_range hlt]
      rfl
    · rw [getElem?_eq_none (by rw [length_take]; omega),
        getElem?_eq_none (by rw [length_range]; exact hge)]
      rfl
  rw [heq]
  exact (nodup_range).map (fun a b hab => Int.ofNat.inj hab)

theorem describeFrom_spec (i : ℕ) (rest : List TrackInfo) (binding : Binding)
    (hcount : binding.trackCount = i) (hle : i ≤ maxTracks)
    (hsize : binding.tracks.length = maxTracks)
    (hfresh : ∀ track ∈ binding.tracks, track.setup = false) :
    ∃ tracks count sdp, (describeFrom i rest binding).1 =
          { binding with tracks := tracks, trackCount := count, sdp := sdp } ∧
        tracks.length = maxTracks ∧ count ≤ maxTracks ∧
        (∀ track ∈ tracks, track.setup = false) ∧
        ((describeFrom i rest binding).2 = mediaOk →
          tracks.take count = binding.live ++ rest.map describedTrack) := by
  induction rest generalizing i binding with
  | nil =>
    refine ⟨binding.tracks, binding.trackCount, binding.sdp, rfl, hsize, hcount ▸ hle, hfresh,
      fun _ => ?_⟩
    rw [map_nil, append_nil]
    rfl
  | cons track rest ih =>
    rw [describeFrom]
    split
    · refine ⟨binding.tracks, binding.trackCount, binding.sdp, rfl, hsize, hcount ▸ hle, hfresh,
        fun herr => ?_⟩
      exact absurd herr (show mediaErrFull ≠ mediaOk by decide)
    generalize appendSdp (sdpOfTrack track) binding.sdp = out
    obtain ⟨sdp, fits⟩ := out
    dsimp only
    cases fits with
    | false =>
      refine ⟨binding.tracks, binding.trackCount, sdp, rfl, hsize, hcount ▸ hle, hfresh,
        fun herr => ?_⟩
      exact absurd herr (show mediaErrFull ≠ mediaOk by decide)
    | true =>
      rw [if_pos rfl]
      obtain ⟨tracks, count, sdp', heq, hlength, hle', hfresh', hlive⟩ := ih (i + 1)
        { binding with
          sdp := sdp
          tracks := binding.tracks.set i (describedTrack track)
          trackCount := binding.trackCount + 1 }
        (by rw [hcount]) (by omega) (by rw [length_set, hsize]) (fun t ht => by
          rcases mem_or_eq_of_mem_set ht with hold | rfl
          · exact hfresh t hold
          · rfl)
      refine ⟨tracks, count, sdp', heq, hlength, hle', hfresh', fun hok => ?_⟩
      rw [hlive hok, live, live, hcount, map_cons]
      have hlt : i < binding.tracks.length := by
        rw [hsize]
        omega
      rw [take_set, take_succ_eq_append_getElem hlt]
      have hlen : (binding.tracks.take i).length = i := by
        rw [length_take]
        omega
      rw [set_append_right _ _ hlen.le, hlen, Nat.sub_self, set_cons_zero, append_assoc]
      rfl

/-- The track that is found is not set up, and it is the only one or its control ends the
URI. -/
theorem findSetupTrack_spec {uri : List UInt8} (h : findSetupTrack binding uri = some i) :
    ∃ track, binding.live[i]? = some track ∧ track.setup = false := by
  unfold findSetupTrack at h
  dsimp only at h
  cases hfind : (binding.tracks.take binding.trackCount).findIdx?
      (fun track => !track.setup && track.control.isSuffixOf uri) with
  | some j =>
    rw [hfind] at h
    obtain rfl := some.inj h
    obtain ⟨hlt, hp, -⟩ := findIdx?_eq_some_iff_getElem.mp hfind
    refine ⟨_, getElem?_eq_getElem hlt, ?_⟩
    rw [Bool.and_eq_true, Bool.not_eq_true'] at hp
    exact hp.1
  | none =>
    rw [hfind] at h
    dsimp only at h
    split at h
    · rename_i hone
      obtain rfl := some.inj h
      have hany := hone.2
      cases hhead : (binding.tracks.take binding.trackCount).head? with
      | none =>
        rw [hhead] at hany
        cases hany
      | some track =>
        rw [hhead, any_some, Bool.not_eq_true'] at hany
        refine ⟨track, ?_, hany⟩
        rw [live, ← head?_eq_getElem?]
        exact hhead
    · cases h

def Track.on (track : Track) (rtp rtcp : ℤ) : Track :=
  { track with rtpChannel := rtp, rtcpChannel := rtcp, setup := true }

/-- What a transport that is accepted does: one track gets channels that no other track has. -/
theorem formatTransport_spec {track : Track} {written : Binding} (h : TracksSound binding)
    (hstate : binding.state ≠ .init) (hget : binding.live[i]? = some track)
    (hfree : track.setup = false)
    (hformat : formatTransport binding i request mode = some written) :
    ∃ rtp rtcp transport, written = { binding with
        transport := transport
        tracks := binding.tracks.set i (track.on rtp rtcp)
        setupCount := binding.setupCount + 1 } ∧
      written.live = binding.live.set i (track.on rtp rtcp) ∧
      TracksSound { written with mode := mode, state := .setup } := by
  unfold formatTransport at hformat
  split at hformat
  · cases hformat
  generalize askedChannels request = asked at hformat
  obtain ⟨rtp, rtcp⟩ := asked
  dsimp only at hformat
  split at hformat
  · cases hformat
  rename_i hrange
  split at hformat
  · cases hformat
  rename_i hused
  generalize (if mode = .record then Rtsp.text "RECORD" else Rtsp.text "PLAY") = name at hformat
  split at hformat
  · cases hformat
  have hget' : binding.tracks[i]? = some track := by
    rw [live] at hget
    obtain ⟨hlt, -⟩ := List.getElem?_eq_some_iff.mp hget
    rw [length_take] at hlt
    rwa [getElem?_take_of_lt (by omega)] at hget
  rw [Keyed.modify_eq_set _ hget', some.injEq] at hformat
  have hlive : written.live = binding.live.set i (track.on rtp rtcp) := by
    rw [← hformat]
    exact take_set
  obtain ⟨hlt, hitem⟩ := List.getElem?_eq_some_iff.mp hget
  have hne : rtp ≠ rtcp := fun heq => hrange (by simp [heq])
  -- no track that is set up has one of the channels
  have hothers : ∀ t ∈ binding.live, t.setup = true → ChannelsApart t (track.on rtp rtcp) := by
    intro t ht hsetup
    have hnot := any_eq_false.mp (Bool.not_eq_true _ ▸ hused) t ht
    rw [usesChannel, hsetup, Bool.true_and] at hnot
    simp only [Bool.or_eq_true, beq_iff_eq, not_or] at hnot
    exact ⟨hnot.1.1.1, hnot.1.1.2, hnot.1.2, hnot.2⟩
  refine ⟨rtp, rtcp, _, hformat.symm, hlive, ?_⟩
  constructor
  case size =>
    rw [← hformat, length_set]
    exact h.size
  case count =>
    rw [← hformat]
    exact h.count
  case setups =>
    change written.setupCount = written.live.countP Track.setup
    rw [hlive, countP_set hlt, hitem, hfree, ← hformat, h.setups]
    simp [Track.on]
  case own =>
    change ∀ t ∈ written.live, t.setup = true → t.rtpChannel ≠ t.rtcpChannel
    rw [hlive]
    intro t ht hsetup
    rcases mem_or_eq_of_mem_set ht with hold | rfl
    · exact h.own t hold hsetup
    · exact hne
  case apart =>
    change written.live.Pairwise (fun s t => s.setup = true → t.setup = true → ChannelsApart s t)
    rw [hlive, pairwise_iff_getElem]
    intro j k hj hk hjk
    rw [length_set] at hj hk
    have hpair := pairwise_iff_getElem.mp h.apart j k hj hk hjk
    rw [getElem_set, getElem_set]
    split
    · rw [if_neg (by omega)]
      intro _ hsetup
      obtain ⟨hrr, hrc, hcr, hcc⟩ := hothers _ (getElem_mem hk) hsetup
      exact ⟨hrr.symm, hcr.symm, hrc.symm, hcc.symm⟩
    · split
      · intro hsetup _
        exact hothers _ (getElem_mem hj) hsetup
      · exact hpair
  case ids =>
    intro _
    change (written.live.map (fun track => track.info.trackId)).Nodup
    rw [hlive, map_set]
    have hsame : (binding.live.map (fun track => track.info.trackId)).set i
        (track.on rtp rtcp).info.trackId = binding.live.map (fun track => track.info.trackId) := by
      have hold : (binding.live.map (fun track => track.info.trackId))[i]? =
          some (track.on rtp rtcp).info.trackId := by
        rw [getElem?_map, hget]
        rfl
      obtain ⟨hlt', hitem'⟩ := List.getElem?_eq_some_iff.mp hold
      rw [← hitem', set_getElem_self]
    rw [hsame]
    exact h.ids hstate
  case fresh =>
    intro heq
    cases heq

end RtspAdapter
end TurboMedia.Server
