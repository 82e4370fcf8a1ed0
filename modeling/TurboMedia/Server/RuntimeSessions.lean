import TurboMedia.Server.RuntimeBooks

/-!
# Server runtime: what a session owns

A session of a player owns the subscription it was opened with: closing it takes back this
one and no other, whatever has become of the source under its key.  A session of a publisher
owns nothing: closed with the flag, it removes the source that is under its key then, whoever
else publishes to it; and an open that is refused at its tracks has made the source already.

**Result.** `sessions_own`: over every run, an open that is refused leaves the subscriptions
and the sources under other keys as they were, every track in its place, and where it has
neither created a source nor added a track, all sources with their tracks; closing a player
removes exactly its own subscription; closing a publisher removes the source under its key or
nothing; and the counts of subscriptions made and removed differ by the live ones.

**Method.** `Handles` joins `Books.Sound` with the sessions, by the owners of what was issued.
-/

namespace TurboMedia.Server

open List Bool

open TurboMedia.Core (MediaSource MediaSubscription TrackInfo MediaFrame mediaOk)
open Keyed (total)

section Invariant

/-- Whether a session has made a subscription. -/
def State.owns (state : State) (handle : ℕ) (u : MediaSubscription) : Bool :=
  state.issued.any (fun issue => issue.id == u.id && issue.owner == .session handle)

/-- The sessions and what was issued to them. -/
structure Handles (state : State) : Prop where
  books : (state.runtime.books state.issued).Sound
  known : ∀ issue ∈ state.issued, ∀ handle, issue.owner = .session handle →
    handle < state.sessions.length
  single : ∀ issue ∈ state.issued, ∀ issue' ∈ state.issued, ∀ handle,
    issue.owner = .session handle → issue'.owner = .session handle → issue = issue'
  players : ∀ (handle : ℕ) (session : ProtocolSession), state.sessions[handle]? = some session →
    session.role = rolePlayer → session.closed = false →
    ∃ k, session.key.normalize = some k ∧
      (⟨session.subscriptionId, .session handle, k⟩ : Issue) ∈ state.issued

variable {state : State} {handle : ℕ} {session : ProtocolSession} {config : SessionConfig}
variable {memory : OpenMemory} {runtime : Runtime}

theorem start_handles (maxSources : ℕ) (sourceConfig : Core.SourceConfig) :
    Handles (start maxSources sourceConfig) where
  books :=
    { balance := rfl
      each := fun _ _ h => nomatch h
      apart := fun _ _ _ _ h => nomatch h
      past := fun _ h => nomatch h
      once := nodup_nil }
  known := fun _ h => nomatch h
  single := fun _ h => nomatch h
  players := fun _ _ h => nomatch h

theorem Handles.move (h : Handles state)
    (hmoves : Moves (state.runtime.books state.issued) (runtime.books state.issued)) :
    Handles { state with runtime := runtime } :=
  ⟨hmoves.sound h.books, h.known, h.single, h.players⟩

theorem exists_of_mem_subscribersAt
    {sources : AList (fun _ : SourceKey => MediaSource)} {x : SourceKey} {u : MediaSubscription}
    (hu : u ∈ subscribersAt sources x) :
    ∃ source, sources.lookup x = some source ∧ u ∈ source.subscribers := by
  rw [subscribersAt] at hu
  cases hlook : sources.lookup x with
  | none =>
    rw [hlook] at hu
    exact absurd hu not_mem_nil
  | some source =>
    rw [hlook] at hu
    exact ⟨source, rfl, hu⟩

/-- The subscriber with the id of an open player is its own, and no other is. -/
theorem Handles.owns_iff (h : Handles state) {k x : SourceKey} {u : MediaSubscription}
    (hiss : (⟨session.subscriptionId, .session handle, k⟩ : Issue) ∈ state.issued)
    (hu : u ∈ subscribersAt state.runtime.registry.sources x) :
    state.owns handle u = true ↔ x = k ∧ u.id = session.subscriptionId := by
  obtain ⟨source, hlook, hmem⟩ := exists_of_mem_subscribersAt hu
  obtain ⟨-, owner, howner⟩ := (h.books.each x source hlook).known u hmem
  rw [State.owns, any_eq_true]
  constructor
  · rintro ⟨issue, hin, heq⟩
    rw [and_eq_true, beq_iff_eq, beq_iff_eq] at heq
    have hsame := h.single issue hin _ hiss handle heq.2 rfl
    subst hsame
    refine ⟨?_, heq.1.symm⟩
    -- two issues with one id are one
    have hone := Keyed.eq_of_key_eq h.books.once howner hiss heq.1.symm
    exact congrArg Issue.key hone
  · rintro ⟨-, hid⟩
    refine ⟨_, hiss, ?_⟩
    rw [and_eq_true, beq_iff_eq, beq_iff_eq]
    exact ⟨hid.symm, rfl⟩

end Invariant

section Open

variable {state : State} {runtime : Runtime} {config : SessionConfig} {memory : OpenMemory}

/-- The open of a publisher has its source and comes to its tracks. -/
def reachesTracks (state : State) (config : SessionConfig) (memory : OpenMemory) : Bool :=
  config.valid && memory.session && config.role == rolePublisher &&
    (getOrCreateSource state.runtime config.key memory.source).2 == mediaOk

/-- The source takes the first of the tracks. -/
def takesTrack (source : MediaSource) (config : SessionConfig) (memory : OpenMemory) : Bool :=
  match config.tracks with
  | some (track :: _) =>
    config.trackCount != 0 && (sourceAddTrack source track (memory.track 0)).2 == mediaOk
  | _ => false

/-- The open of a publisher creates its source, or adds a track to the one that is there. -/
def leavesTrace (state : State) (config : SessionConfig) (memory : OpenMemory) : Bool :=
  reachesTracks state config memory &&
    ((registryFind state.runtime.registry config.key).all
      (fun source => takesTrack source config memory))

/-- A track that is refused leaves the source as it was. -/
theorem sourceAddTrack_refused {source : MediaSource} {track : TrackInfo} {memory : Bool}
    (h : (sourceAddTrack source track memory).2 ≠ mediaOk) :
    (sourceAddTrack source track memory).1 = source := by
  unfold sourceAddTrack at h ⊢
  split
  · rfl
  next heq =>
    rw [heq] at h
    dsimp only at h ⊢
    split
    · rfl
    next hcopied =>
      rw [if_neg hcopied] at h
      exact absurd rfl h

theorem getOrCreateSource_found {key : RawKey} {source : MediaSource}
    (h : registryFind runtime.registry key = some source) (fault : CreateFault) :
    (getOrCreateSource runtime key fault).1.registry = runtime.registry ∧
      (getOrCreateSource runtime key fault).2 = mediaOk := by
  obtain ⟨k, hkey, hlookup⟩ := registryFind_eq_some.mp h
  simp [getOrCreateSource, registryGetOrCreate, hkey, hlookup]

theorem addTrack_refused {key : RawKey} {source : MediaSource} {track : TrackInfo} {copied : Bool}
    (h : registryFind runtime.registry key = some source)
    (hrefused : (sourceAddTrack source track copied).2 ≠ mediaOk) (fault : CreateFault) :
    (addTrack runtime key track fault copied).2 ≠ mediaOk ∧
      ∀ x, tracksAt (addTrack runtime key track fault copied).1.registry.sources x =
        tracksAt runtime.registry.sources x := by
  obtain ⟨k, hkey, hlookup⟩ := registryFind_eq_some.mp h
  have hfound := getOrCreateSource_found h fault
  unfold addTrack
  generalize getOrCreateSource runtime key fault = out at hfound
  obtain ⟨found, rc⟩ := out
  obtain ⟨hregistry, rfl⟩ := hfound
  dsimp only at hregistry ⊢
  rw [if_neg (not_not.mpr rfl), hregistry, h]
  dsimp only
  rw [if_neg hrefused, sourceAddTrack_refused hrefused, write_eq hkey]
  exact ⟨hrefused, tracksAt_insert hlookup rfl⟩

/-- Where the source is there and does not take the first track, its tracks stay. -/
theorem sessionAddTracks_untaken {source : MediaSource}
    (h : registryFind runtime.registry config.key = some source)
    (htakes : takesTrack source config memory = false) (x : SourceKey) :
    tracksAt (sessionAddTracks runtime config.key config.tracks config.trackCount
      memory).1.registry.sources x = tracksAt runtime.registry.sources x := by
  rw [takesTrack] at htakes
  unfold sessionAddTracks
  split_ifs with hcount
  · rfl
  cases hlist : config.tracks with
  | none => rfl
  | some tracks =>
    cases tracks with
    | nil =>
      dsimp only
      rw [take_nil]
      rfl
    | cons track rest =>
      obtain ⟨n, hn⟩ := Nat.exists_eq_succ_of_ne_zero hcount
      simp only [hlist, bne_iff_ne.mpr hcount, Bool.true_and] at htakes
      have hrefused : (sourceAddTrack source track (memory.track 0)).2 ≠ mediaOk := by
        simpa using htakes
      obtain ⟨hrc, hsame⟩ := addTrack_refused h hrefused (memory.trackSource 0)
      dsimp only
      rw [hn, take_succ_cons, addTracksFrom]
      dsimp only
      rw [if_pos hrc]
      exact hsame x

/-- What `turbo_media_server_protocol_session_open` does. -/
inductive OpenOutcome (state : State) (config : SessionConfig) (memory : OpenMemory) :
    State → Except ℤ ℕ → Prop where
  | refused
      (runtime : Runtime) (rc : ℤ)
      (hmoves : ∀ issued, Moves (state.runtime.books issued) (runtime.books issued))
      (hgrown : Grown config.key state.runtime.registry.sources runtime.registry.sources)
      (htracks : leavesTrace state config memory = false →
        ∀ x, tracksAt runtime.registry.sources x = tracksAt state.runtime.registry.sources x) :
      OpenOutcome state config memory { state with runtime := runtime } (.error rc)
  | publisher
      (runtime : Runtime)
      (hrole : config.role = rolePublisher)
      (hmoves : ∀ issued, Moves (state.runtime.books issued) (runtime.books issued)) :
      OpenOutcome state config memory (state.handOut runtime config 0 state.issued).1
        (.ok state.sessions.length)
  | player
      (runtime : Runtime) (id : ℕ) (k : SourceKey)
      (hkey : config.key.normalize = some k)
      (hmoves : Moves (state.runtime.books state.issued)
        (runtime.books (state.issued ++ [⟨id, .session state.sessions.length, k⟩]))) :
      OpenOutcome state config memory (state.handOut runtime config id
          (state.issued ++ [⟨id, .session state.sessions.length, k⟩])).1
        (.ok state.sessions.length)

theorem open_outcome
    (state : State) (config : SessionConfig) (codes : ℕ → ℤ) (memory : OpenMemory) :
    OpenOutcome state config memory (sessionOpen state config codes memory).1
      (sessionOpen state config codes memory).2 := by
  have hstay : ∀ rc : ℤ, OpenOutcome state config memory state (.error rc) := fun rc =>
    .refused state.runtime rc (fun _ => Relation.ReflTransGen.refl) (Grown.refl _ _)
      (fun _ _ => rfl)
  unfold sessionOpen
  split
  · exact hstay _
  rename_i hvalid
  split
  · exact hstay _
  rename_i hmemory
  split
  next hrole =>
    have hmade := fun issued => getOrCreateSource_spec state.runtime config.key memory.source issued
    have hquiet : (getOrCreateSource state.runtime config.key memory.source).2 = mediaOk →
        leavesTrace state config memory = false →
        ∀ x, tracksAt (sessionAddTracks (getOrCreateSource state.runtime config.key
          memory.source).1 config.key config.tracks config.trackCount memory).1.registry.sources x =
            tracksAt state.runtime.registry.sources x := by
      intro hrc hnot x
      have hreaches : reachesTracks state config memory = true := by
        have hvalid' : config.valid = true := by simpa using hvalid
        have hmemory' : memory.session = true := by simpa using hmemory
        rw [reachesTracks, hvalid', hmemory', hrole, hrc]
        rfl
      rw [leavesTrace, hreaches, Bool.true_and] at hnot
      obtain ⟨source, hfind, htakes⟩ : ∃ source,
          registryFind state.runtime.registry config.key = some source ∧
            takesTrack source config memory = false := by
        cases hfind : registryFind state.runtime.registry config.key with
        | none => simp [hfind] at hnot
        | some source => exact ⟨source, rfl, by simpa [hfind] using hnot⟩
      have hsame := (getOrCreateSource_found hfind memory.source).1
      rw [sessionAddTracks_untaken (hsame ▸ hfind) htakes, hsame]
    generalize getOrCreateSource state.runtime config.key memory.source = out at hmade hquiet
    obtain ⟨made, rc⟩ := out
    dsimp only at hmade hquiet ⊢
    split
    next hrc =>
      refine .refused made rc (fun issued => (hmade issued).1) (hmade []).2.1 (fun _ x => ?_)
      rw [(hmade []).2.2 hrc]
    rename_i hrc
    have hadded := fun issued =>
      sessionAddTracks_spec made config.key config.tracks config.trackCount memory issued
    generalize sessionAddTracks made config.key config.tracks config.trackCount memory = out
      at hadded hquiet
    obtain ⟨added, rc'⟩ := out
    split
    · exact .refused added rc' (fun issued => (hmade issued).1.trans (hadded issued).1)
        ((hmade []).2.1.trans (hadded []).2) (hquiet (not_not.mp hrc))
    · exact .publisher added hrole (fun issued => (hmade issued).1.trans (hadded issued).1)
  · cases config.callback with
    | none => exact hstay _
    | some callback =>
      have hout := join_outcome state.runtime config.key (some callback) config.replayCached codes
      dsimp only
      generalize subscribe state.runtime config.key (some callback) config.replayCached codes =
        out at hout
      obtain ⟨after, result⟩ := out
      cases hout with
      | refused rc hmoves hgrown htracks => exact .refused after rc hmoves hgrown (fun _ => htracks)
      | joined id k hkey hmoves =>
        have hissue : state.issue id (.session state.sessions.length) config.key =
            state.issued ++ [⟨id, .session state.sessions.length, k⟩] := by
          rw [State.issue, hkey]
        dsimp only
        rw [hissue]
        exact .player after id k hkey (hmoves _ _)

end Open

section Steps

variable {state : State} {handle : ℕ} {session : ProtocolSession} {runtime : Runtime}

theorem Handles.issue {id : ℕ} {owner : Owner} {k : SourceKey} (h : Handles state)
    (hmoves : Moves (state.runtime.books state.issued)
      (runtime.books (state.issued ++ [⟨id, owner, k⟩]))) {sessions : List ProtocolSession}
    (hlen : state.sessions.length ≤ sessions.length)
    (howner : ∀ handle, owner = .session handle →
      handle = state.sessions.length ∧ handle < sessions.length)
    (hplayers : ∀ (handle : ℕ) (session : ProtocolSession), sessions[handle]? = some session →
      session.role = rolePlayer → session.closed = false →
      ∃ x, session.key.normalize = some x ∧ (⟨session.subscriptionId, .session handle, x⟩ : Issue) ∈
        state.issued ++ [⟨id, owner, k⟩]) :
    Handles ⟨runtime, sessions, state.issued ++ [⟨id, owner, k⟩]⟩ where
  books := hmoves.sound h.books
  known := by
    intro issue hissue handle hsess
    rcases mem_append.mp hissue with hissue | hissue
    · exact lt_of_lt_of_le (h.known issue hissue handle hsess) hlen
    · obtain rfl := mem_singleton.mp hissue
      exact (howner handle hsess).2
  single := by
    intro issue hissue issue' hissue' handle hsess hsess'
    rcases mem_append.mp hissue with hold | hnew
    · rcases mem_append.mp hissue' with hold' | hnew'
      · exact h.single issue hold issue' hold' handle hsess hsess'
      · obtain rfl := mem_singleton.mp hnew'
        exact absurd (howner handle hsess').1 (h.known issue hold handle hsess).ne
    · obtain rfl := mem_singleton.mp hnew
      rcases mem_append.mp hissue' with hold' | hnew'
      · exact absurd (howner handle hsess).1 (h.known issue' hold' handle hsess').ne
      · exact (mem_singleton.mp hnew').symm
  players := hplayers

theorem sessionOpen_handles (h : Handles state)
    (config : SessionConfig) (codes : ℕ → ℤ) (memory : OpenMemory) :
    Handles (sessionOpen state config codes memory).1 := by
  have hout := open_outcome state config codes memory
  generalize sessionOpen state config codes memory = out at hout
  obtain ⟨after, result⟩ := out
  dsimp only at hout ⊢
  -- the sessions that were there are at the same indices
  have hlast : ∀ {last session : ProtocolSession} {handle : ℕ},
      (state.sessions ++ [last])[handle]? = some session →
      state.sessions[handle]? = some session ∨ handle = state.sessions.length ∧ last = session := by
    intro last session handle hget
    rcases lt_or_ge handle state.sessions.length with hlt | hge
    · rw [getElem?_append_left hlt] at hget
      exact Or.inl hget
    · rw [getElem?_append_right hge] at hget
      obtain ⟨hlt, hget⟩ := List.getElem?_eq_some_iff.mp hget
      rw [length_singleton] at hlt
      refine Or.inr ⟨by omega, ?_⟩
      rw [← hget, getElem_singleton]
  cases hout with
  | refused runtime rc hmoves hgrown htracks => exact h.move (hmoves _)
  | publisher runtime hrole hmoves =>
    refine ⟨(hmoves _).sound h.books, ?_, h.single, ?_⟩
    · intro issue hissue handle hsess
      rw [State.handOut, length_append]
      exact Nat.lt_add_right _ (h.known issue hissue handle hsess)
    · intro handle session hget hplay hopen
      rcases hlast hget with hold | ⟨-, rfl⟩
      · exact h.players handle session hold hplay hopen
      · have hplay' : config.role = rolePlayer := hplay
        rw [hrole] at hplay'
        exact absurd hplay' (by decide)
  | player runtime id k hkey hmoves =>
    refine h.issue hmoves (by simp) ?_ ?_
    · intro handle hsess
      obtain rfl := Owner.session.inj hsess
      exact ⟨rfl, by simp⟩
    · intro handle session hget hplay hopen
      rcases hlast hget with hold | ⟨rfl, rfl⟩
      · obtain ⟨x, hx, hin⟩ := h.players handle session hold hplay hopen
        exact ⟨x, hx, mem_append_left _ hin⟩
      · exact ⟨k, hkey, mem_append_right _ (mem_singleton_self _)⟩

/-- What the close of an open session does to the runtime. -/
def closeRuntime (runtime : Runtime) (session : ProtocolSession) : Runtime :=
  if session.role = rolePlayer ∧ session.subscriptionId ≠ 0 then
    (unsubscribe runtime session.key session.subscriptionId).1
  else if session.role = rolePublisher ∧ session.removeSourceOnClose then
    (removeSource runtime session.key).1
  else runtime

theorem sessionClose_eq (hget : state.sessions[handle]? = some session)
    (hopen : session.closed = false) :
    sessionClose state handle = { state with
        runtime := closeRuntime state.runtime session
        sessions := state.sessions.set handle
          { session with
            subscriptionId := if session.role = rolePlayer then 0 else session.subscriptionId
            closed := true } } := by
  unfold sessionClose closeRuntime
  rw [hget]
  dsimp only
  rw [if_neg (by rw [hopen]; exact false_ne_true)]
  by_cases hplay : session.role = rolePlayer
  · have hnot : ¬(session.role = rolePublisher ∧ session.removeSourceOnClose = true) := by
      rw [hplay]
      exact fun h => absurd h.1 (by decide)
    rw [if_neg hnot, if_neg hnot]
  · have hnot : ¬(session.role = rolePlayer ∧ session.subscriptionId ≠ 0) :=
      fun h => hplay h.1
    rw [if_neg hnot, if_neg hnot]

theorem closeRuntime_moves (runtime : Runtime) (session : ProtocolSession) (issued : List Issue) :
    Moves (runtime.books issued) ((closeRuntime runtime session).books issued) := by
  unfold closeRuntime
  split
  · exact unsubscribe_moves runtime session.key session.subscriptionId issued
  split
  · exact (removeSource_spec runtime session.key issued).1
  · exact Relation.ReflTransGen.refl

theorem sessionClose_handles (h : Handles state) (handle : ℕ) :
    Handles (sessionClose state handle) := by
  cases hget : state.sessions[handle]? with
  | none =>
    rw [sessionClose, hget]
    exact h
  | some session =>
    cases hopen : session.closed with
    | true =>
      rw [sessionClose, hget]
      dsimp only
      rw [if_pos hopen]
      exact h
    | false =>
      rw [sessionClose_eq hget hopen]
      refine ⟨(closeRuntime_moves _ session _).sound h.books, ?_, h.single, ?_⟩
      · intro issue hissue i hsess
        rw [length_set]
        exact h.known issue hissue i hsess
      · intro i other hother hplay hstill
        rcases eq_or_ne handle i with rfl | hne
        · obtain ⟨hlt, -⟩ := List.getElem?_eq_some_iff.mp hget
          rw [getElem?_set_self hlt] at hother
          rw [← Option.some.inj hother] at hstill
          cases hstill
        · rw [getElem?_set_ne hne] at hother
          exact h.players i other hother hplay hstill

theorem step_handles (h : Handles state) (op : Op) : Handles (step state op).1 := by
  cases op with
  | sessionOpen config codes memory => exact sessionOpen_handles h config codes memory
  | sessionClose handle => exact sessionClose_handles h handle
  | sessionPublish handle frame codes memory =>
    rw [step, sessionPublish]
    cases state.sessions[handle]? with
    | none => exact h
    | some session =>
      dsimp only
      split
      · exact h
      split
      · exact h
      · exact h.move (publish_moves state.runtime session.key frame codes memory _)
  | addTrack key track fault memory =>
    exact h.move (addTrack_spec state.runtime key track fault memory _).1
  | subscribe key callback replayCached codes =>
    have hout := join_outcome state.runtime key callback replayCached codes
    rw [step]
    generalize subscribe state.runtime key callback replayCached codes = out at hout
    obtain ⟨after, result⟩ := out
    cases hout with
    | refused rc hmoves hgrown htracks => exact h.move (hmoves _)
    | joined id k hkey hmoves =>
      have hissue : state.issue id .caller key = state.issued ++ [⟨id, .caller, k⟩] := by
        rw [State.issue, hkey]
      dsimp only
      rw [hissue]
      refine h.issue (hmoves _ _) le_rfl (fun handle hsess => nomatch hsess) ?_
      intro handle session hget hplay hopen
      obtain ⟨x, hx, hin⟩ := h.players handle session hget hplay hopen
      exact ⟨x, hx, mem_append_left _ hin⟩
  | unsubscribe key id => exact h.move (unsubscribe_moves state.runtime key id _)
  | removeSource key => exact h.move (removeSource_spec state.runtime key _).1

theorem run_handles (maxSources : ℕ) (sourceConfig : Core.SourceConfig) (ops : List Op) :
    Handles (serverMachine.run (start maxSources sourceConfig) ops) :=
  serverMachine.run_invariant (P := Handles) (fun _ op h => step_handles h op)
    (start_handles maxSources sourceConfig) ops

end Steps

variable {state : State} {handle : ℕ} {session : ProtocolSession}

/-- What an open that is refused leaves as it was. -/
structure OpenRefused (before after : State) (config : SessionConfig) (memory : OpenMemory) :
    Prop where
  sessions : after.sessions = before.sessions
  subscribers : ∀ x, subscribersAt after.runtime.registry.sources x =
    subscribersAt before.runtime.registry.sources x
  elsewhere : ∀ x, config.key.normalize ≠ some x →
    after.runtime.registry.sources.lookup x = before.runtime.registry.sources.lookup x
  listed : ∀ x, ∀ tracks ∈ tracksAt before.runtime.registry.sources x,
    ∃ tracks' ∈ tracksAt after.runtime.registry.sources x, tracks <+: tracks'
  tracks : leavesTrace before config memory = false →
    ∀ x, tracksAt after.runtime.registry.sources x = tracksAt before.runtime.registry.sources x

/-- What closing a player does: its subscription is taken back, and nothing else. -/
structure PlayerClosed (before after : State) (handle : ℕ) (session : ProtocolSession) :
    Prop where
  own : ∃ k, session.key.normalize = some k ∧
    (⟨session.subscriptionId, .session handle, k⟩ : Issue) ∈ before.issued
  subscribers : ∀ x, subscribersAt after.runtime.registry.sources x =
    (subscribersAt before.runtime.registry.sources x).filter (fun u => !before.owns handle u)
  tracks : ∀ x, tracksAt after.runtime.registry.sources x =
    tracksAt before.runtime.registry.sources x

/-- What closing a publisher does: with the flag, the source that is under its key then is
removed; every other source stays as it was. -/
def PublisherClosed (before after : State) (session : ProtocolSession) : Prop :=
  ∀ x, after.runtime.registry.sources.lookup x =
    if session.removeSourceOnClose = true ∧ session.key.normalize = some x then none
    else before.runtime.registry.sources.lookup x

theorem Handles.one_issue (h : Handles state) {x : SourceKey} {u : MediaSubscription}
    (hu : u ∈ subscribersAt state.runtime.registry.sources x) :
    ∃! issue, issue ∈ state.issued ∧ issue.id = u.id := by
  obtain ⟨source, hlook, hmem⟩ := exists_of_mem_subscribersAt hu
  obtain ⟨-, owner, hiss⟩ := (h.books.each x source hlook).known u hmem
  refine ⟨_, ⟨hiss, rfl⟩, ?_⟩
  rintro issue ⟨hin, hid⟩
  exact Keyed.eq_of_key_eq h.books.once hin hiss hid

theorem open_refused {config : SessionConfig} {codes : ℕ → ℤ} {memory : OpenMemory} {rc : ℤ}
    (href : (sessionOpen state config codes memory).2 = .error rc) :
    OpenRefused state (sessionOpen state config codes memory).1 config memory := by
  have hout := open_outcome state config codes memory
  generalize sessionOpen state config codes memory = out at hout href
  obtain ⟨after, result⟩ := out
  cases hout with
  | refused runtime _ hmoves hgrown htracks =>
    exact ⟨rfl, hgrown.subscribers, hgrown.elsewhere, hgrown.listed, htracks⟩
  | publisher runtime hrole hmoves | player runtime id k hkey hmoves => cases href

theorem player_closed (h : Handles state) (hget : state.sessions[handle]? = some session)
    (hopen : session.closed = false) (hplay : session.role = rolePlayer) :
    PlayerClosed state (sessionClose state handle) handle session := by
  obtain ⟨k, hkey, hiss⟩ := h.players handle session hget hplay hopen
  have hid : session.subscriptionId ≠ 0 := by
    have hpast := (h.books.past _ hiss).1
    dsimp only at hpast
    omega
  have hruntime : closeRuntime state.runtime session =
      (unsubscribe state.runtime session.key session.subscriptionId).1 := by
    rw [closeRuntime, if_pos ⟨hplay, hid⟩]
  have hspec := unsubscribe_spec h.books hkey session.subscriptionId
  refine ⟨⟨k, hkey, hiss⟩, fun x => ?_, fun x => ?_⟩
  · rw [sessionClose_eq hget hopen]
    rw [hruntime, (hspec x).1]
    split
    · rename_i hx
      subst hx
      refine filter_congr (fun u hu => ?_)
      have howns := h.owns_iff hiss hu
      by_cases heq : u.id = session.subscriptionId
      · rw [howns.mpr ⟨rfl, heq⟩]
        exact decide_eq_false (not_not.mpr heq)
      · rw [eq_false_iff.mpr (fun howned => heq (howns.mp howned).2)]
        exact decide_eq_true heq
    · rename_i hx
      symm
      rw [filter_eq_self]
      intro u hu
      rw [not_eq_true']
      exact eq_false_iff.mpr (fun howned => hx ((h.owns_iff hiss hu).mp howned).1)
  · rw [sessionClose_eq hget hopen]
    rw [hruntime, (hspec x).2]

theorem publisher_closed (hget : state.sessions[handle]? = some session)
    (hopen : session.closed = false) (hpub : session.role = rolePublisher) :
    PublisherClosed state (sessionClose state handle) session := by
  have hplay : ¬(session.role = rolePlayer ∧ session.subscriptionId ≠ 0) := by
    rw [hpub]
    exact fun h => absurd h.1 (by decide)
  intro x
  rw [sessionClose_eq hget hopen]
  dsimp only
  rw [closeRuntime, if_neg hplay]
  by_cases hflag : session.removeSourceOnClose = true
  · rw [if_pos ⟨hpub, hflag⟩, (removeSource_spec state.runtime session.key []).2 x]
    split
    next hx => rw [if_pos ⟨hflag, hx⟩]
    next hx => rw [if_neg (fun h => hx h.2)]
  · rw [if_neg (fun h => hflag h.2), if_neg (fun h => hflag h.1)]

/-- Over every run, a session owns what it has opened, and the counts of subscriptions
balance. -/
theorem sessions_own (maxSources : ℕ) (sourceConfig : Core.SourceConfig) (ops : List Op) :
    let state := serverMachine.run (start maxSources sourceConfig) ops
    state.runtime.stats.subscriptionsCreated = state.runtime.stats.subscriptionsRemoved +
        total (fun source => source.subscribers.length) state.runtime.registry.sources ∧
    (∀ x, ∀ u ∈ subscribersAt state.runtime.registry.sources x,
      ∃! issue, issue ∈ state.issued ∧ issue.id = u.id) ∧
    (∀ config codes memory rc, (sessionOpen state config codes memory).2 = .error rc →
      OpenRefused state (sessionOpen state config codes memory).1 config memory) ∧
    ∀ (handle : ℕ) (session : ProtocolSession), state.sessions[handle]? = some session →
      session.closed = false →
      (session.role = rolePlayer → PlayerClosed state (sessionClose state handle) handle session) ∧
      (session.role = rolePublisher → PublisherClosed state (sessionClose state handle) session) ∧
      ∀ other, other ≠ handle →
        (sessionClose state handle).sessions[other]? = state.sessions[other]? := by
  intro state
  have h : Handles state := run_handles maxSources sourceConfig ops
  refine ⟨h.books.balance, fun x u hu => h.one_issue hu,
    fun config codes memory rc hrefused => open_refused hrefused, ?_⟩
  intro handle session hget hopen
  refine ⟨player_closed h hget hopen, publisher_closed hget hopen, fun other hne => ?_⟩
  rw [sessionClose_eq hget hopen]
  exact getElem?_set_ne hne.symm

def roomKey : RawKey := ⟨[118, 0], [97, 0], [115, 0]⟩

def audioTrack (id : ℤ) : TrackInfo :=
  ⟨id, .audio, [111], 96, 48000, 0, 0, 0, 48000, 2, none, 0⟩

def publisherOf (tracks : List TrackInfo) (removeSourceOnClose : Bool) : SessionConfig :=
  ⟨1, rolePublisher, roomKey, some tracks, tracks.length, none, false, removeSourceOnClose⟩

def freeMemory : OpenMemory := ⟨true, .none, fun _ => .none, fun _ => true⟩

/-- The first of two publishers removes the source of both, and a publisher that is refused
at its second track has made a source with its first. -/
theorem joined_source_removed :
    let opened := serverMachine.run (start 4 ⟨4, 4, 1⟩)
      [.sessionOpen (publisherOf [audioTrack 1] true) (fun _ => 0) freeMemory,
        .sessionOpen (publisherOf [audioTrack 2] false) (fun _ => 0) freeMemory]
    let refused := sessionOpen (start 4 ⟨4, 4, 1⟩) (publisherOf [audioTrack 1, audioTrack 1] false)
      (fun _ => 0) freeMemory
    (opened.sessions.map ProtocolSession.closed = [false, false] ∧
      (registryFind opened.runtime.registry roomKey).isSome = true ∧
      ((sessionClose opened 0).sessions.map ProtocolSession.closed = [true, false] ∧
        (registryFind (sessionClose opened 0).runtime.registry roomKey).isSome = false)) ∧
    refused.2.toOption = none ∧
      (registryFind refused.1.runtime.registry roomKey).map (fun source => source.tracks.length) =
        some 1 := by
  decide

end TurboMedia.Server
