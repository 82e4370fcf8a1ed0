import TurboMedia.Ivr.ReplaySafety
import TurboMedia.Lib.Keyed

/-!
# Isolation of workers

What one worker can do to another through the bridge.

**Input.**  Any run of the bridge, with the calls of its past (`Machine.withHistory`).

**Method.**  Two accounts of a run are kept beside the tables: the route of the last
registration of a worker that was accepted (`registeredRoute`), and the route on which a
peer is connected by what its events say (`connectedRoute`).  The tables never say more than
these (`RoutesHold`, `PeersHold`).  For the replies, two runs with the same messages of a
worker are related as long as their caches hold the same results under the keys of its
registrations (`Alike`).
-/

namespace TurboMedia.Ivr

open List RoomBridge BridgeEffect Machine Bool

/-- A step of the bridge with its effects. -/
abbrev BridgeCall := BridgeStep × List BridgeEffect

section Accounts

def acceptedFrom (route : WsRoute) : BridgeEffect → Option (CStr × WsRoute)
  | .onCommand cmd result =>
    if cmd.isRegistration = true ∧ result.statusCode = .ok then some (cmd.workerId, route)
    else none
  | _ => none

/-- The workers whose registration a call has accepted, with the route that it came from. -/
def acceptedBy (call : BridgeCall) : List (CStr × WsRoute) :=
  match call.1 with
  | .message msg _ => call.2.filterMap (acceptedFrom msg.route)
  | _ => []

/-- The route of the last of these registrations. -/
def lastRoute (workerId : CStr) (accepted : List (CStr × WsRoute)) : Option WsRoute :=
  (accepted.reverse.find? (fun a => a.1 == workerId)).map Prod.snd

/-- The route of the worker's last accepted registration. -/
def registeredRoute (workerId : CStr) (past : List BridgeCall) : Option WsRoute :=
  lastRoute workerId (past.flatMap acceptedBy)

/-- The route on which a peer is connected after a step.  A table entry has room for 127
bytes of an identity. -/
def connectionAfter (identity : CStr) (current : Option WsRoute) : BridgeStep → Option WsRoute
  | .peerEvent true peer route =>
    if peer ≠ [] ∧ peer.take 127 = identity then some route else current
  | .peerEvent false peer route =>
    if peer ≠ [] ∧ peer.take 127 = identity ∧ current = some route then none else current
  | .clear => none
  | _ => current

/-- The route on which the peer is connected, by the events of the run. -/
def connectedRoute (identity : CStr) (past : List BridgeCall) : Option WsRoute :=
  (past.map Prod.fst).foldl (connectionAfter identity) none

variable {past : List BridgeCall} {workerId identity : CStr}

theorem lastRoute_append (accepted : List (CStr × WsRoute)) (registered : CStr × WsRoute) :
    lastRoute workerId (accepted ++ [registered]) =
      if registered.1 = workerId then some registered.2 else lastRoute workerId accepted := by
  rw [lastRoute, reverse_append, reverse_singleton, singleton_append, find?_cons]
  split_ifs with h
  · simp [h]
  · have hne : (registered.1 == workerId) = false := by simpa using h
    rw [hne, lastRoute]

theorem connectedRoute_append (call : BridgeCall) :
    connectedRoute identity (past ++ [call]) =
      connectionAfter identity (connectedRoute identity past) call.1 := by
  rw [connectedRoute, map_append, foldl_append]
  rfl

end Accounts

section Routes

/-- Every worker has one entry, and a valid one has the route of its registration. -/
structure RoutesHold (routes : List RouteEntry) (accepted : List (CStr × WsRoute)) : Prop where
  nodup : (routes.map RouteEntry.workerId).Nodup
  current : ∀ e ∈ routes, e.valid = true → lastRoute e.workerId accepted = some e.route

variable {routes routes' : List RouteEntry} {accepted : List (CStr × WsRoute)}
  {workerId : CStr} {route : WsRoute} {i : ℕ}

theorem RoutesHold.weaken (h : RoutesHold routes accepted)
    (hids : routes'.map RouteEntry.workerId = routes.map RouteEntry.workerId)
    (hvalid : ∀ e ∈ routes', e.valid = true → e ∈ routes) :
    RoutesHold routes' accepted where
  nodup := hids ▸ h.nodup
  current := fun e he hv => h.current e (hvalid e he hv) hv

theorem invalidate_valid (e : RouteEntry) : e.invalidate.valid = false := by
  rfl

theorem RoutesHold.map_invalidate {p : RouteEntry → Bool} (h : RoutesHold routes accepted) :
    RoutesHold (routes.map (fun e => if p e then e.invalidate else e)) accepted := by
  refine h.weaken ?_ ?_
  · rw [map_map]
    refine map_congr_left ?_
    intro e _
    rw [Function.comp_apply]
    split <;> rfl
  · intro e he hv
    obtain ⟨e', he', rfl⟩ := mem_map.mp he
    split_ifs at hv ⊢
    · exact absurd hv (by simp [invalidate_valid])
    · exact he'

theorem RoutesHold.modify_invalidate (h : RoutesHold routes accepted) (i : ℕ) :
    RoutesHold (routes.modify i RouteEntry.invalidate) accepted := by
  refine h.weaken (Keyed.map_modify_same (by intro _; rfl) routes i) ?_
  intro e he hv
  obtain ⟨j, hj⟩ := mem_iff_getElem?.mp he
  rw [getElem?_modify] at hj
  obtain ⟨e', he', rfl⟩ := Option.map_eq_some_iff.mp hj
  split_ifs at hv ⊢
  · exact absurd hv (by simp [invalidate_valid])
  · exact mem_of_getElem? he'

/-- An entry of the routes after a registration is that of the worker or an entry of
another worker. -/
theorem mem_routeStore {e : RouteEntry} (hnodup : (routes.map RouteEntry.workerId).Nodup)
    (h : e ∈ routeStore routes workerId route) :
    e = ⟨workerId, route, true⟩ ∨ e ∈ routes ∧ e.workerId ≠ workerId := by
  rw [routeStore] at h
  split at h
  next i hi =>
    rcases Keyed.mem_modify hnodup hi h with ⟨z, -, rfl, rfl⟩ | hother
    · exact .inl rfl
    · exact .inr hother
  next hnone =>
    have hother := Keyed.findIdx?_eq_none_iff.mp hnone
    split_ifs at h
    · rcases mem_append.mp h with hold | hnew
      · exact .inr ⟨hold, hother e hold⟩
      · exact .inl (mem_singleton.mp hnew)
    · split at h
      · rcases mem_or_eq_of_mem_set h with hold | hnew
        · exact .inr ⟨hold, hother e hold⟩
        · exact .inl hnew
      · exact .inr ⟨h, hother e h⟩

theorem nodup_routeStore (hnodup : (routes.map RouteEntry.workerId).Nodup) :
    ((routeStore routes workerId route).map RouteEntry.workerId).Nodup := by
  rw [routeStore]
  split
  next i hi =>
    have hids : (routes.modify i (fun e => { e with route := route, valid := true })).map
        RouteEntry.workerId = routes.map RouteEntry.workerId :=
      Keyed.map_modify_same (by intro _; rfl) routes i
    rw [hids]
    exact hnodup
  next hnone =>
    have hother := Keyed.findIdx?_eq_none_iff.mp hnone
    have hnew : workerId ∉ routes.map RouteEntry.workerId := by
      intro hmem
      obtain ⟨e, he, hid⟩ := mem_map.mp hmem
      exact hother e he hid
    split_ifs
    · rw [map_append, map_singleton]
      refine nodup_append.mpr ⟨hnodup, nodup_singleton _, ?_⟩
      rintro id hid id' hid' rfl
      rw [mem_singleton.mp hid'] at hid
      exact hnew hid
    · split
      · rw [map_set]
        exact hnodup.set hnew
      · exact hnodup

theorem RoutesHold.routeStore (h : RoutesHold routes accepted) :
    RoutesHold (routeStore routes workerId route) (accepted ++ [(workerId, route)]) where
  nodup := nodup_routeStore h.nodup
  current := by
    intro e he hv
    rw [lastRoute_append]
    rcases mem_routeStore h.nodup he with rfl | ⟨hold, hne⟩
    · rw [if_pos rfl]
    · rw [if_neg hne.symm]
      exact h.current e hold hv

theorem RoutesHold.entry {b : RoomBridge} {entry : RouteEntry} (h : RoutesHold b.routes accepted)
    (hent : b.routeEntry workerId = some (i, entry)) (hvalid : entry.valid = true) :
    lastRoute workerId accepted = some entry.route := by
  obtain ⟨j, hj, hget⟩ := Option.bind_eq_some_iff.mp hent
  obtain ⟨e, he, heq⟩ := Option.map_eq_some_iff.mp hget
  obtain ⟨e', he', hid⟩ := Keyed.getElem?_of_findIdx? hj
  rw [Prod.mk.injEq] at heq
  obtain ⟨rfl, rfl⟩ := heq
  rw [he, Option.some.injEq] at he'
  subst he'
  rw [← hid]
  exact h.current e (mem_of_getElem? he) hvalid

end Routes

section Connections

/-- Every identity has one entry, with the route on which it is connected. -/
structure PeersHold (peers : List PeerEntry) (connected : CStr → Option WsRoute) : Prop where
  nodup : (peers.map PeerEntry.identity).Nodup
  current : ∀ p ∈ peers, connected p.identity = some p.route

variable {peers : List PeerEntry} {connected : CStr → Option WsRoute} {identity : CStr}
  {route : WsRoute}

theorem PeersHold.matches (h : PeersHold peers connected)
    (hmatch : peerRouteMatches peers identity route = true) : connected identity = some route := by
  obtain ⟨p, hp, hboth⟩ := any_eq_true.mp hmatch
  rw [and_eq_true, beq_iff_eq, beq_iff_eq] at hboth
  obtain ⟨rfl, rfl⟩ := hboth
  exact h.current p hp

theorem PeersHold.peerAdd (h : PeersHold peers connected) :
    PeersHold (peerAdd peers identity route)
      (fun id => connectionAfter id (connected id) (.peerEvent true identity route)) := by
  rw [Ivr.peerAdd]
  split
  next hempty =>
    refine ⟨h.nodup, ?_⟩
    intro p hp
    rw [connectionAfter, if_neg (by simp [hempty])]
    exact h.current p hp
  next hempty =>
    -- the entry of another identity stays connected as it was
    have hother : ∀ p ∈ peers, p.identity ≠ identity.take 127 →
        connectionAfter p.identity (connected p.identity) (.peerEvent true identity route) =
          some p.route := by
      intro p hp hne
      rw [connectionAfter, if_neg (fun hboth => hne hboth.2.symm)]
      exact h.current p hp
    split
    next i hi =>
      refine ⟨?_, ?_⟩
      · have hids : (peers.modify i (fun e => { e with route := route })).map
            PeerEntry.identity = peers.map PeerEntry.identity :=
          Keyed.map_modify_same (by intro _; rfl) peers i
        rw [hids]
        exact h.nodup
      · intro p hp
        rcases Keyed.mem_modify h.nodup hi hp with ⟨z, -, hid, rfl⟩ | ⟨hold, hne⟩
        · rw [connectionAfter, if_pos ⟨hempty, hid.symm⟩]
        · exact hother p hold hne
    next hnone =>
      have hnew := Keyed.findIdx?_eq_none_iff.mp hnone
      split_ifs
      · refine ⟨?_, ?_⟩
        · rw [map_append, map_singleton]
          refine nodup_append.mpr ⟨h.nodup, nodup_singleton _, ?_⟩
          rintro id hid id' hid' rfl
          obtain ⟨p, hp, hsame⟩ := mem_map.mp hid
          exact hnew p hp (hsame.trans (mem_singleton.mp hid'))
        · intro p hp
          rcases mem_append.mp hp with hold | hadded
          · exact hother p hold (hnew p hold)
          · rw [mem_singleton.mp hadded, connectionAfter, if_pos ⟨hempty, rfl⟩]
      · exact ⟨h.nodup, fun p hp => hother p hp (hnew p hp)⟩

theorem PeersHold.peerRemove (h : PeersHold peers connected) :
    PeersHold (peerRemove peers identity route)
      (fun id => connectionAfter id (connected id) (.peerEvent false identity route)) := by
  rw [Ivr.peerRemove]
  split_ifs with hempty
  · refine ⟨h.nodup, ?_⟩
    intro p hp
    rw [connectionAfter, if_neg (by simp [hempty])]
    exact h.current p hp
  · refine ⟨h.nodup.sublist (eraseP_sublist.map _), ?_⟩
    intro p hp
    have hold := h.current p (mem_of_mem_eraseP hp)
    have hkept := Keyed.not_of_mem_eraseP (k := identity.take 127) h.nodup
      (by
        intro z _ hz
        rw [and_eq_true, beq_iff_eq] at hz
        exact hz.1) hp
    rw [connectionAfter, if_neg ?_]
    · exact hold
    · rintro ⟨-, hid, hroute⟩
      rw [hold, Option.some.injEq] at hroute
      simp [hid, hroute] at hkept

end Connections

section Frames

/-- The effects of a command, as opposed to those of other frames and of sends. -/
def BridgeEffect.isOfCommand : BridgeEffect → Bool
  | .onWorkerFrame _ _ => false
  | .send _ _ => false
  | _ => true

/-- The tables agree with the account of the run. -/
structure Accounted (s : RoomBridge × List BridgeCall) : Prop where
  routes : RoutesHold s.1.routes (s.2.flatMap acceptedBy)
  peers : PeersHold s.1.peers (fun id => connectedRoute id s.2)

variable {b : RoomBridge} {msg : BridgeMessage} {cmd : BridgeCommand} {o : Surroundings}
  {s : RoomBridge × List BridgeCall} {step : BridgeStep}

theorem execute_effects : ∀ e ∈ (b.execute msg cmd o).2, e.isOfCommand = true := by
  simp only [execute, forall_mem_append]
  refine ⟨⟨⟨?_, ?_⟩, ?_⟩, ?_⟩
  · split <;> simp [isOfCommand]
  · split <;> simp [isOfCommand]
  · split <;> simp [isOfCommand]
  · simp [isOfCommand]

/-- A route is stored exactly when the host has accepted a registration. -/
theorem execute_routes :
    (b.execute msg cmd o).1.routes = b.routes ∧
        (b.execute msg cmd o).2.filterMap (acceptedFrom msg.route) = [] ∨
      (b.execute msg cmd o).1.routes = routeStore b.routes cmd.workerId msg.route ∧
        (b.execute msg cmd o).2.filterMap (acceptedFrom msg.route) =
          [(cmd.workerId, msg.route)] := by
  have hacc : (b.execute msg cmd o).2.filterMap (acceptedFrom msg.route) =
      (if b.handler.onCommand = true then [onCommand cmd (b.commandResult o)]
        else []).filterMap (acceptedFrom msg.route) := by
    simp only [execute, filterMap_append]
    split_ifs <;> simp [acceptedFrom]
  rw [hacc]
  have hroutes : (b.execute msg cmd o).1.routes = b.registered msg cmd (b.commandResult o) := rfl
  rw [hroutes, registered]
  by_cases hon : b.handler.onCommand = true
  · rw [if_pos hon]
    split
    next hok => exact .inr ⟨rfl, by simp [acceptedFrom, hok.1, hok.2]⟩
    next hok =>
      have hnot : ¬(cmd.isRegistration = true ∧ (b.commandResult o).statusCode = .ok) :=
        fun hboth => hok hboth.symm
      exact .inl ⟨rfl, by simp only [filterMap_cons, acceptedFrom, if_neg hnot,
        filterMap_nil]⟩
  · have hfail : (b.commandResult o).statusCode ≠ .ok := by
      rw [commandResult, if_neg hon]
      simp [RoomCommandResult.fail]
    rw [if_neg hon, if_neg (fun hok => hfail hok.1)]
    exact .inl ⟨rfl, rfl⟩

/-- What a command can do to the tables: nothing, or its registration is accepted. -/
theorem handleCommand_routes (b : RoomBridge) (msg : BridgeMessage) (cmd : BridgeCommand)
    (o : Surroundings) :
    (b.handleCommand msg cmd o).1.peers = b.peers ∧
      (∀ e ∈ (b.handleCommand msg cmd o).2, e.isOfCommand = true) ∧
      ((b.handleCommand msg cmd o).1.routes = b.routes ∧
          (b.handleCommand msg cmd o).2.filterMap (acceptedFrom msg.route) = [] ∨
        (b.handleCommand msg cmd o).1.routes = routeStore b.routes cmd.workerId msg.route ∧
          (b.handleCommand msg cmd o).2.filterMap (acceptedFrom msg.route) =
            [(cmd.workerId, msg.route)]) := by
  rw [handleCommand]
  split
  · exact ⟨rfl, by simp [isOfCommand], .inl ⟨rfl, rfl⟩⟩
  · exact ⟨rfl, by simp [isOfCommand], .inl ⟨rfl, rfl⟩⟩
  · split
    · exact ⟨rfl, by simp [reject, isOfCommand], .inl ⟨rfl, rfl⟩⟩
    · split
      · exact ⟨rfl, by simp [reject, isOfCommand], .inl ⟨rfl, rfl⟩⟩
      · exact ⟨rfl, execute_effects, execute_routes⟩

/-- The peers after a step depend on nothing else. -/
def BridgeStep.peersAfter (peers : List PeerEntry) : BridgeStep → List PeerEntry
  | .peerEvent true identity route => peerAdd peers identity route
  | .peerEvent false identity route => peerRemove peers identity route
  | .clear => []
  | _ => peers

theorem next_peers (b : RoomBridge) (step : BridgeStep) :
    (roomBridgeMachine.next b step).peers = step.peersAfter b.peers := by
  cases step with
  | message msg o =>
    change (b.handleRequest msg o).1.peers = b.peers
    rw [handleRequest]
    split
    · rfl
    · split <;> rfl
    next cmd hbody => exact (handleCommand_routes b msg cmd o).1
  | peerEvent connected identity route => cases connected <;> rfl
  | clear => rfl
  | sendToWorker workerId => rfl
  | sendFailed workerId route =>
    change (b.sendFailed workerId route).peers = b.peers
    rw [sendFailed]
    split
    · rfl
    · split <;> rfl

theorem Accounted.answer (h : Accounted s) :
    (∀ frame workerId, .onWorkerFrame frame workerId ∈ roomBridgeMachine.answer s.1 step →
      ∃ msg o, step = .message msg o ∧ registeredRoute workerId s.2 = some msg.route ∧
        connectedRoute workerId s.2 = some msg.route) ∧
      ∀ workerId route, .send workerId route ∈ roomBridgeMachine.answer s.1 step →
        registeredRoute workerId s.2 = some route := by
  cases step with
  | message msg o =>
    change (∀ frame workerId, .onWorkerFrame frame workerId ∈ (s.1.handleRequest msg o).2 → _) ∧
      ∀ workerId route, .send workerId route ∈ (s.1.handleRequest msg o).2 → _
    rw [handleRequest]
    split
    · exact ⟨by simp, by simp⟩
    next frame workerId hbody =>
      split_ifs with hmatches
      · refine ⟨?_, by simp⟩
        intro frame' workerId' hmem
        rw [mem_singleton, onWorkerFrame.injEq] at hmem
        obtain ⟨rfl, rfl⟩ := hmem
        rw [and_eq_true, routeMatchesWorker, and_eq_true] at hmatches
        obtain ⟨⟨hpeer, hroute⟩, -⟩ := hmatches
        obtain ⟨⟨i, entry⟩, hent, hvalid⟩ := (Option.any_eq_true _ _).mp hroute
        rw [and_eq_true, beq_iff_eq] at hvalid
        refine ⟨msg, o, rfl, ?_, h.peers.matches hpeer⟩
        rw [← hvalid.2]
        exact h.routes.entry hent hvalid.1
      · exact ⟨by simp, by simp⟩
    next cmd hbody =>
      obtain ⟨-, heffects, -⟩ := handleCommand_routes s.1 msg cmd o
      refine ⟨?_, ?_⟩
      · intro frame workerId hmem
        exact absurd (heffects _ hmem) (by simp [isOfCommand])
      · intro workerId route hmem
        exact absurd (heffects _ hmem) (by simp [isOfCommand])
  | peerEvent connected identity route | clear | sendFailed workerId route =>
    simp [answer, roomBridgeMachine]
  | sendToWorker workerId =>
    change (∀ frame worker, .onWorkerFrame frame worker ∈ s.1.sendToWorker workerId → _) ∧
      ∀ worker route, .send worker route ∈ s.1.sendToWorker workerId → _
    rw [sendToWorker]
    split
    · exact ⟨by simp, by simp⟩
    next i entry hent =>
      split_ifs with hvalid
      · refine ⟨by simp, ?_⟩
        intro worker route hmem
        rw [mem_singleton, send.injEq] at hmem
        obtain ⟨rfl, rfl⟩ := hmem
        exact h.routes.entry hent hvalid
      · exact ⟨by simp, by simp⟩

theorem Accounted.of_tables {b : RoomBridge} {past : List BridgeCall} {call : BridgeCall}
    (hroutes : RoutesHold b.routes (past.flatMap acceptedBy ++ acceptedBy call))
    (hpeers : PeersHold b.peers (fun id => connectionAfter id (connectedRoute id past) call.1)) :
    Accounted (b, past ++ [call]) where
  routes := by simpa using hroutes
  peers := by simpa only [connectedRoute_append] using hpeers

theorem Accounted.next (h : Accounted s) (step : BridgeStep) :
    Accounted (roomBridgeMachine.withHistory.next s step) := by
  refine Accounted.of_tables ?_ ?_
  · change RoutesHold (roomBridgeMachine.next s.1 step).routes _
    cases step with
    | message msg o =>
      change RoutesHold (s.1.handleRequest msg o).1.routes (_ ++
        (s.1.handleRequest msg o).2.filterMap (acceptedFrom msg.route))
      rw [handleRequest]
      split
      · simpa using h.routes
      next frame workerId hbody =>
        have hquiet : [onWorkerFrame frame workerId].filterMap
            (acceptedFrom msg.route) = [] := rfl
        split_ifs
        · rw [hquiet, append_nil]
          exact h.routes
        · simpa using h.routes
      next cmd hbody =>
        obtain ⟨-, -, hcases⟩ := handleCommand_routes s.1 msg cmd o
        rcases hcases with ⟨hroutes, hacc⟩ | ⟨hroutes, hacc⟩
        · rw [hroutes, hacc, append_nil]
          exact h.routes
        · rw [hroutes, hacc]
          exact h.routes.routeStore
    | peerEvent connected identity route =>
      rw [acceptedBy, append_nil]
      cases connected with
      | true => exact h.routes
      | false =>
        change RoutesHold (routeInvalidatePeer s.1.routes identity route) _
        rw [routeInvalidatePeer]
        split_ifs
        · exact h.routes
        · exact h.routes.map_invalidate
    | clear =>
      rw [acceptedBy, append_nil]
      exact h.routes.map_invalidate
    | sendToWorker workerId =>
      rw [acceptedBy, append_nil]
      exact h.routes
    | sendFailed workerId route =>
      rw [acceptedBy, append_nil]
      change RoutesHold (s.1.sendFailed workerId route).routes _
      rw [sendFailed]
      split
      · exact h.routes
      · split_ifs
        · exact h.routes.modify_invalidate _
        · exact h.routes
  · change PeersHold (roomBridgeMachine.next s.1 step).peers _
    rw [next_peers]
    cases step with
    | message msg o | sendToWorker workerId | sendFailed workerId route => exact h.peers
    | peerEvent connected identity route =>
      cases connected with
      | true => exact h.peers.peerAdd
      | false => exact h.peers.peerRemove
    | clear => exact ⟨nodup_nil, by intro p hp; exact absurd hp not_mem_nil⟩

theorem Accounted.create (dedupCapacity dedupRetentionMs : ℕ) (handler : BridgeHandler) :
    Accounted (.create dedupCapacity dedupRetentionMs handler, []) where
  routes := ⟨nodup_nil, by intro e he; exact absurd he not_mem_nil⟩
  peers := ⟨nodup_nil, by intro p hp; exact absurd hp not_mem_nil⟩

end Frames

section Replies

def BridgeStep.isForeign (workerId : CStr) : BridgeStep → Bool
  | .message msg _ => msg.peerIdentity != workerId
  | _ => false

/-- The registration command that the peer sends with a step. -/
def BridgeStep.registrationOf? (workerId : CStr) (step : BridgeStep) : Option BridgeCommand :=
  (step.command?.filter (fun command =>
    command.1.peerIdentity == workerId && command.2.1.isRegistration)).map (fun c => c.2.1)

/-- The keys of the registration commands of a peer. -/
def registrationKeys (workerId : CStr) (steps : List BridgeStep) : List ReplayKey :=
  (steps.filterMap (BridgeStep.registrationOf? workerId)).map BridgeCommand.key

def BridgeEffect.isReply : BridgeEffect → Bool
  | .reply _ _ _ => true
  | _ => false

/-- The replies to a registration command of the peer. -/
def repliesTo (workerId : CStr) (call : BridgeCall) : List (List BridgeEffect) :=
  if (call.1.registrationOf? workerId).isSome then [call.2.filter isReply] else []

def storedIn (past : List BridgeCall) : List DedupEntry :=
  past.flatMap (fun call => storedBy call.2)

/-- The results that were stored under these keys. -/
def storedUnder (keys : List ReplayKey) (past : List BridgeCall) : List DedupEntry :=
  (storedIn past).filter (fun entry => entry.key ∈ keys)

/-- A command under one of the keys comes from the worker itself, and the last result under
its key is still held. -/
def LeavesAlone (workerId : CStr) (keys : List ReplayKey) (s : RoomBridge × List BridgeCall)
    (step : BridgeStep) : Prop :=
  ∀ command ∈ step.command?, command.2.1.key ∈ keys →
    command.1.peerIdentity = workerId ∧ Held (storedIn s.2) s.1.dedup command.2.1.key

/-- The answer of the cache that follows from what was stored. -/
def recalledAnswer (retentionMs nowMs : ℕ) (log : List DedupEntry) (key : ReplayKey) :
    DedupAnswer :=
  match log.find? (fun entry => entry.key == key) with
  | none => .miss
  | some entry => if entry.isFresh retentionMs nowMs then .hit entry.result else .expired

/-- The cache recalls the past, with one result under each of the keys. -/
structure Recollection (keys : List ReplayKey) (s : RoomBridge × List BridgeCall) : Prop where
  recalls : s.1.dedup.Recalls (storedIn s.2)
  nodup : ((storedUnder keys s.2).map DedupEntry.key).Nodup

/-- What the two bridges know of the peers and of the keys is the same. -/
structure Alike (keys : List ReplayKey) (s t : RoomBridge × List BridgeCall) : Prop where
  left : Recollection keys s
  right : Recollection keys t
  peers : s.1.peers = t.1.peers
  handler : s.1.handler = t.1.handler
  retention : s.1.dedup.retentionMs = t.1.dedup.retentionMs
  stored : storedUnder keys s.2 = storedUnder keys t.2

variable {keys : List ReplayKey} {s t : RoomBridge × List BridgeCall} {b b' : RoomBridge}
  {step : BridgeStep} {msg : BridgeMessage} {cmd : BridgeCommand} {o : Surroundings}
  {workerId : CStr} {past : List BridgeCall}

theorem Alike.symm (h : Alike keys s t) : Alike keys t s :=
  ⟨h.right, h.left, h.peers.symm, h.handler.symm, h.retention.symm, h.stored.symm⟩

/-- A command under one of the keys is looked up in what was stored under them. -/
theorem Recollection.lookup (now : ℕ) (h : Recollection keys s) (hkey : cmd.key ∈ keys)
    (hheld : Held (storedIn s.2) s.1.dedup cmd.key) :
    dedupLookup s.1.dedup now cmd.messageId cmd.callGeneration =
      recalledAnswer s.1.dedup.retentionMs now (storedUnder keys s.2) cmd.key := by
  have hunder : ∀ entry ∈ storedIn s.2, entry.key = cmd.key → entry ∈ storedUnder keys s.2 := by
    intro entry hent hsame
    rw [storedUnder, mem_filter]
    exact ⟨hent, by simpa [hsame] using hkey⟩
  rw [recalledAnswer]
  cases hfind : (storedUnder keys s.2).find? (fun entry => entry.key == cmd.key) with
  | none =>
    refine lookup_of_new now h.recalls ?_
    intro entry hent hsame
    have hnone := List.find?_eq_none.mp hfind entry (hunder entry hent hsame)
    simp [hsame] at hnone
  | some entry =>
    have hmem := mem_of_find?_eq_some hfind
    have hsame : entry.key = cmd.key := by simpa using find?_some hfind
    refine lookup_of_held now h.recalls hheld (mem_filter.mp hmem).1 hsame ?_
    intro other hother hsame'
    exact inj_on_of_nodup_map h.nodup (hunder other hother hsame') hmem (hsame'.trans hsame.symm)

theorem handleCommand_alike
    (hlook : dedupLookup b.dedup o.lookupMs cmd.messageId cmd.callGeneration =
      dedupLookup b'.dedup o.lookupMs cmd.messageId cmd.callGeneration)
    (hpeers : b.peers = b'.peers) (hhandler : b.handler = b'.handler) :
    (b.handleCommand msg cmd o).2 = (b'.handleCommand msg cmd o).2 := by
  have hidentified : b.identified msg cmd = b'.identified msg cmd := by
    rw [identified, identified, hpeers]
  have hver : b.versionConflict cmd o = b'.versionConflict cmd o := by
    rw [versionConflict, versionConflict, hhandler]
  have hres : b.commandResult o = b'.commandResult o := by
    rw [commandResult, commandResult, hhandler]
  have hexecute : (b.execute msg cmd o).2 = (b'.execute msg cmd o).2 := by
    rw [execute, execute, hres, hhandler]
  rw [handleCommand, handleCommand, hlook]
  split
  · rfl
  · rfl
  · rw [hidentified, hver]
    split
    · rfl
    · split
      · rfl
      · exact hexecute

theorem storedUnder_append (call : BridgeCall) :
    storedUnder keys (past ++ [call]) =
      storedUnder keys past ++ (storedBy call.2).filter (fun entry => entry.key ∈ keys) := by
  rw [storedUnder, storedIn, flatMap_append, filter_append, flatMap_cons, flatMap_nil, append_nil]
  rfl

theorem next_recalls (h : s.1.dedup.Recalls (storedIn s.2)) :
    (roomBridgeMachine.withHistory.next s step).1.dedup.Recalls
      (storedIn (roomBridgeMachine.withHistory.next s step).2) := by
  have hlog : storedIn (roomBridgeMachine.withHistory.next s step).2 =
      storedIn s.2 ++ storedBy (roomBridgeMachine.answer s.1 step) := by
    change storedIn (s.2 ++ [_]) = _
    rw [storedIn, flatMap_append, flatMap_cons, flatMap_nil, append_nil]
    rfl
  rw [hlog]
  exact (step_recalls step h).1

/-- What a command stores has its key; it stores nothing when the cache knows the key. -/
theorem handleCommand_stores {entry : DedupEntry}
    (h : entry ∈ storedBy (b.handleCommand msg cmd o).2) :
    entry.key = cmd.key ∧ dedupLookup b.dedup o.lookupMs cmd.messageId cmd.callGeneration = .miss ∧
      storedBy (b.handleCommand msg cmd o).2 = [entry] := by
  rcases handleCommand_cases b msg cmd o with
    ⟨result, -, heq⟩ | ⟨-, heq⟩ | ⟨hmiss, result, hexecuted⟩
  · rw [heq] at h
    exact absurd h (by simp [storedBy])
  · rw [heq] at h
    exact absurd h (by simp [storedBy])
  · rw [hexecuted.stored] at h ⊢
    obtain ⟨hkey, -, hfinal⟩ := keptFor_key h
    refine ⟨hkey, hmiss, ?_⟩
    rw [keptFor, if_neg (by simp [hfinal])] at h ⊢
    rw [mem_singleton.mp h]

/-- A step that has no command under the keys stores nothing under them. -/
theorem quiet_step (h : ∀ command ∈ step.command?, command.2.1.key ∉ keys) :
    (storedBy (roomBridgeMachine.answer b step)).filter (fun entry => entry.key ∈ keys) = [] := by
  rw [filter_eq_nil_iff]
  intro entry hent
  cases hcommand : step.command? with
  | none =>
    rw [(step_other (b := b) hcommand).2.1] at hent
    exact absurd hent not_mem_nil
  | some command =>
    rw [answer, (step_command hcommand).2.2] at hent
    rw [(handleCommand_stores hent).1]
    simpa using h _ hcommand

theorem next_handler (b : RoomBridge) (step : BridgeStep) :
    (roomBridgeMachine.next b step).handler = b.handler := by
  cases step with
  | message msg o =>
    change (b.handleRequest msg o).1.handler = b.handler
    rw [handleRequest]
    split
    · rfl
    · split <;> rfl
    · rw [handleCommand]
      split
      · rfl
      · rfl
      · split
        · rfl
        · split <;> rfl
  | peerEvent connected identity route => cases connected <;> rfl
  | clear => rfl
  | sendToWorker workerId => rfl
  | sendFailed workerId route =>
    change (b.sendFailed workerId route).handler = b.handler
    rw [sendFailed]
    split
    · rfl
    · split <;> rfl

theorem Recollection.quiet (h : Recollection keys s)
    (hquiet : ∀ command ∈ step.command?, command.2.1.key ∉ keys) :
    Recollection keys (roomBridgeMachine.withHistory.next s step) ∧
      storedUnder keys (roomBridgeMachine.withHistory.next s step).2 = storedUnder keys s.2 := by
  have hsame : storedUnder keys (roomBridgeMachine.withHistory.next s step).2 =
      storedUnder keys s.2 := by
    change storedUnder keys (s.2 ++ [_]) = _
    rw [storedUnder_append, quiet_step hquiet, append_nil]
  refine ⟨⟨next_recalls h.recalls, ?_⟩, hsame⟩
  rw [hsame]
  exact h.nodup

theorem recalledAnswer_miss {retentionMs now : ℕ} {log : List DedupEntry} {key : ReplayKey}
    (h : recalledAnswer retentionMs now log key = .miss) : ∀ entry ∈ log, entry.key ≠ key := by
  rw [recalledAnswer] at h
  split at h
  next hnone =>
    intro entry hent hsame
    have := List.find?_eq_none.mp hnone entry hent
    simp [hsame] at this
  next entry _ => split_ifs at h

theorem Recollection.command (h : Recollection keys s)
    (hcommand : step.command? = some (msg, cmd, o)) (hkey : cmd.key ∈ keys)
    (hheld : Held (storedIn s.2) s.1.dedup cmd.key) :
    Recollection keys (roomBridgeMachine.withHistory.next s step) := by
  refine ⟨next_recalls h.recalls, ?_⟩
  change ((storedUnder keys (s.2 ++ [_])).map DedupEntry.key).Nodup
  rw [storedUnder_append, answer, (step_command hcommand).2.2]
  cases hstored : storedBy (s.1.handleCommand msg cmd o).2 with
  | nil =>
    rw [filter_nil, append_nil]
    exact h.nodup
  | cons entry rest =>
    have hmem : entry ∈ storedBy (s.1.handleCommand msg cmd o).2 := by
      rw [hstored]
      exact mem_cons_self
    obtain ⟨hent, hmiss, hone⟩ := handleCommand_stores hmem
    rw [h.lookup o.lookupMs hkey hheld] at hmiss
    rw [← hstored, hone, filter_cons_of_pos (by simpa [hent] using hkey),
      filter_nil, map_append, nodup_append]
    refine ⟨h.nodup, nodup_singleton _, ?_⟩
    rintro key hmem key' hmem' rfl
    obtain ⟨old, hold, hsame⟩ := mem_map.mp hmem
    refine recalledAnswer_miss hmiss old hold (hsame.trans ?_)
    rw [mem_singleton.mp hmem']
    exact hent

/-- What the bridges know stays the same, when they recall the same of the step. -/
theorem Alike.next (h : Alike keys s t)
    (hleft : Recollection keys (roomBridgeMachine.withHistory.next s step))
    (hright : Recollection keys (roomBridgeMachine.withHistory.next t step))
    (hstored : storedUnder keys (roomBridgeMachine.withHistory.next s step).2 =
      storedUnder keys (roomBridgeMachine.withHistory.next t step).2) :
    Alike keys (roomBridgeMachine.withHistory.next s step)
      (roomBridgeMachine.withHistory.next t step) := by
  refine ⟨hleft, hright, ?_, ?_, ?_, hstored⟩
  · refine (next_peers s.1 step).trans (Eq.trans ?_ (next_peers t.1 step).symm)
    rw [h.peers]
  · exact (next_handler s.1 step).trans (h.handler.trans (next_handler t.1 step).symm)
  · exact ((step_recalls step h.left.recalls).2.1.trans h.retention).trans
      (step_recalls step h.right.recalls).2.1.symm

theorem Alike.quiet (h : Alike keys s t)
    (hquiet : ∀ command ∈ step.command?, command.2.1.key ∉ keys) :
    Alike keys (roomBridgeMachine.withHistory.next s step)
      (roomBridgeMachine.withHistory.next t step) := by
  obtain ⟨hleft, hsameLeft⟩ := h.left.quiet hquiet
  obtain ⟨hright, hsameRight⟩ := h.right.quiet hquiet
  exact h.next hleft hright ((hsameLeft.trans h.stored).trans hsameRight.symm)

theorem registrationOf?_eq_some (h : step.registrationOf? workerId = some cmd) :
    ∃ msg o, step.command? = some (msg, cmd, o) ∧ msg.peerIdentity = workerId := by
  obtain ⟨⟨msg, cmd', o⟩, hcommand, rfl⟩ := Option.map_eq_some_iff.mp h
  obtain ⟨hsome, hboth⟩ := Option.filter_eq_some_iff.mp hcommand
  rw [and_eq_true, beq_iff_eq] at hboth
  exact ⟨msg, o, hsome, hboth.1⟩

theorem isForeign_iff {command : BridgeMessage × BridgeCommand × Surroundings}
    (h : step.command? = some command) :
    step.isForeign workerId = true ↔ command.1.peerIdentity ≠ workerId := by
  obtain ⟨rfl, -, -⟩ := step_command (b := .create 0 0 ⟨fun _ => false, false, false⟩) h
  simp [BridgeStep.isForeign]

theorem registrationOf?_foreign (h : step.isForeign workerId = true) :
    step.registrationOf? workerId = none := by
  cases hof : step.registrationOf? workerId with
  | none => rfl
  | some cmd =>
    obtain ⟨msg, o, hcommand, hid⟩ := registrationOf?_eq_some hof
    exact absurd hid ((isForeign_iff hcommand).mp h)

theorem Alike.foreign (h : Alike keys s t) (hforeign : step.isForeign workerId = true)
    (hapart : LeavesAlone workerId keys s step) :
    Alike keys (roomBridgeMachine.withHistory.next s step) t ∧
      repliesTo workerId (step, roomBridgeMachine.withHistory.answer s step) = [] := by
  have hquiet : ∀ command ∈ step.command?, command.2.1.key ∉ keys :=
    fun command hcommand hkey =>
      (isForeign_iff hcommand).mp hforeign (hapart command hcommand hkey).1
  obtain ⟨hleft, hsame⟩ := h.left.quiet hquiet
  refine ⟨⟨hleft, h.right, ?_, ?_, ?_, hsame.trans h.stored⟩, ?_⟩
  · refine (next_peers s.1 step).trans (Eq.trans ?_ h.peers)
    cases step with
    | message msg o => rfl
    | _ => exact absurd hforeign (by simp [BridgeStep.isForeign])
  · exact (next_handler s.1 step).trans h.handler
  · exact (step_recalls step h.left.recalls).2.1.trans h.retention
  · rw [repliesTo, registrationOf?_foreign hforeign]
    rfl

/-- Any other step keeps what the bridges know the same, and a registration of the worker is
answered alike. -/
theorem Alike.kept (h : Alike keys s t) (hs : LeavesAlone workerId keys s step)
    (ht : LeavesAlone workerId keys t step)
    (hkeys : ∀ cmd ∈ step.registrationOf? workerId, cmd.key ∈ keys) :
    Alike keys (roomBridgeMachine.withHistory.next s step)
        (roomBridgeMachine.withHistory.next t step) ∧
      repliesTo workerId (step, roomBridgeMachine.withHistory.answer s step) =
        repliesTo workerId (step, roomBridgeMachine.withHistory.answer t step) := by
  by_cases hquiet : ∀ command ∈ step.command?, command.2.1.key ∉ keys
  · refine ⟨h.quiet hquiet, ?_⟩
    have hnone : step.registrationOf? workerId = none := by
      rw [Option.eq_none_iff_forall_ne_some]
      intro cmd hof
      obtain ⟨msg, o, hcommand, -⟩ := registrationOf?_eq_some hof
      exact hquiet _ hcommand (hkeys cmd hof)
    rw [repliesTo, repliesTo, hnone]
    rfl
  · push Not at hquiet
    obtain ⟨⟨msg, cmd, o⟩, hcommand, hkey⟩ := hquiet
    have hlook : dedupLookup s.1.dedup o.lookupMs cmd.messageId cmd.callGeneration =
        dedupLookup t.1.dedup o.lookupMs cmd.messageId cmd.callGeneration := by
      rw [h.left.lookup o.lookupMs hkey (hs _ hcommand hkey).2,
        h.right.lookup o.lookupMs hkey (ht _ hcommand hkey).2, h.retention, h.stored]
    have hsame : roomBridgeMachine.answer s.1 step = roomBridgeMachine.answer t.1 step := by
      rw [answer, answer, (step_command hcommand).2.2, (step_command hcommand).2.2]
      exact handleCommand_alike hlook h.peers h.handler
    refine ⟨h.next (h.left.command hcommand hkey (hs _ hcommand hkey).2)
      (h.right.command hcommand hkey (ht _ hcommand hkey).2) ?_, ?_⟩
    · change storedUnder keys (s.2 ++ [_]) = storedUnder keys (t.2 ++ [_])
      rw [storedUnder_append, storedUnder_append, h.stored, hsame]
    · change repliesTo workerId (step, roomBridgeMachine.answer s.1 step) =
        repliesTo workerId (step, roomBridgeMachine.answer t.1 step)
      rw [hsame]

theorem Recollection.create (keys : List ReplayKey) (dedupCapacity dedupRetentionMs : ℕ)
    (handler : BridgeHandler) :
    Recollection keys (.create dedupCapacity dedupRetentionMs handler, []) where
  recalls := Dedup.Recalls.init dedupCapacity dedupRetentionMs
  nodup := nodup_nil

end Replies

variable {workerId : CStr} {xs ys : List BridgeStep}

theorem registrationOf?_filter :
    (xs.filter (fun step => !step.isForeign workerId)).filterMap
        (BridgeStep.registrationOf? workerId) =
      xs.filterMap (BridgeStep.registrationOf? workerId) := by
  induction xs with
  | nil => rfl
  | cons step xs ih =>
    cases hforeign : step.isForeign workerId with
    | true =>
      rw [filter_cons_of_neg (by simp [hforeign]), ih,
        filterMap_cons_none (registrationOf?_foreign hforeign)]
    | false =>
      rw [filter_cons_of_pos (by simp [hforeign]), filterMap_cons,
        filterMap_cons, ih]

theorem registrationKeys_same
    (h : xs.filter (fun step => !step.isForeign workerId) =
      ys.filter (fun step => !step.isForeign workerId)) :
    registrationKeys workerId xs = registrationKeys workerId ys := by
  rw [registrationKeys, registrationKeys, ← registrationOf?_filter, h, registrationOf?_filter]

theorem key_mem_registrationKeys (workerId : CStr) (xs : List BridgeStep) :
    ∀ step ∈ xs, ∀ cmd ∈ step.registrationOf? workerId, cmd.key ∈ registrationKeys workerId xs := by
  intro step hstep cmd hcmd
  exact mem_map_of_mem (mem_filterMap.mpr ⟨step, hstep, hcmd⟩)

theorem run_accounted (dedupCapacity dedupRetentionMs : ℕ) (handler : BridgeHandler)
    (steps : List BridgeStep) :
    Accounted (roomBridgeMachine.run (.create dedupCapacity dedupRetentionMs handler) steps,
      roomBridgeMachine.transcript (.create dedupCapacity dedupRetentionMs handler) steps) := by
  have hrun := roomBridgeMachine.withHistory.run_invariant (P := Accounted)
    (fun s step h => h.next step) (Accounted.create dedupCapacity dedupRetentionMs handler) steps
  rw [withHistory_run, nil_append] at hrun
  exact hrun

/-- **Workers.**  In every run a frame reaches the host only along the route of the worker's
last accepted registration, on which the worker is connected, and a send takes only that
route.  Two runs that differ in what other peers send answer a worker's registrations alike,
if in both only the worker itself uses the keys of its registrations and the last result
under such a key is still held when the key comes again. -/
theorem workers_isolated {dedupCapacity dedupRetentionMs : ℕ} {handler : BridgeHandler}
    (hsame : xs.filter (fun step => !step.isForeign workerId) =
      ys.filter (fun step => !step.isForeign workerId))
    (hxs : roomBridgeMachine.withHistory.Along (LeavesAlone workerId (registrationKeys workerId xs))
      (.create dedupCapacity dedupRetentionMs handler, []) xs)
    (hys : roomBridgeMachine.withHistory.Along (LeavesAlone workerId (registrationKeys workerId ys))
      (.create dedupCapacity dedupRetentionMs handler, []) ys) :
    (∀ steps step, (∀ frame worker, .onWorkerFrame frame worker ∈ roomBridgeMachine.answer
          (roomBridgeMachine.run (.create dedupCapacity dedupRetentionMs handler) steps) step →
        ∃ msg o, step = .message msg o ∧ registeredRoute worker (roomBridgeMachine.transcript
            (.create dedupCapacity dedupRetentionMs handler) steps) = some msg.route ∧
          connectedRoute worker (roomBridgeMachine.transcript
            (.create dedupCapacity dedupRetentionMs handler) steps) = some msg.route) ∧
      ∀ worker route, .send worker route ∈ roomBridgeMachine.answer
          (roomBridgeMachine.run (.create dedupCapacity dedupRetentionMs handler) steps) step →
        registeredRoute worker (roomBridgeMachine.transcript
          (.create dedupCapacity dedupRetentionMs handler) steps) = some route) ∧
    (roomBridgeMachine.transcript (.create dedupCapacity dedupRetentionMs handler) xs).flatMap
        (repliesTo workerId) =
      (roomBridgeMachine.transcript (.create dedupCapacity dedupRetentionMs handler) ys).flatMap
        (repliesTo workerId) := by
  refine ⟨fun steps step => (run_accounted dedupCapacity dedupRetentionMs handler steps).answer, ?_⟩
  have hcreate := Recollection.create (registrationKeys workerId xs) dedupCapacity
    dedupRetentionMs handler
  rw [← registrationKeys_same hsame] at hys
  have hkeys := key_mem_registrationKeys workerId ys
  rw [← registrationKeys_same hsame] at hkeys
  have htranscripts := roomBridgeMachine.withHistory.transcript_eq_of_kept
    (f := repliesTo workerId) (p := fun step => !step.isForeign workerId)
    (C := fun s step => LeavesAlone workerId (registrationKeys workerId xs) s step ∧
      ∀ cmd ∈ step.registrationOf? workerId, cmd.key ∈ registrationKeys workerId xs)
    (R := Alike (registrationKeys workerId xs))
    (fun s t h => h.symm)
    (fun s t step hstep hkeep h => h.foreign (by simpa using hkeep) hstep.1)
    (fun s t step hs ht _ h => h.kept hs.1 ht.1 hs.2)
    (along_and _ hxs (along_of_forall _ (key_mem_registrationKeys workerId xs) _))
    (along_and _ hys (along_of_forall _ hkeys _))
    hsame ⟨hcreate, hcreate, rfl, rfl, rfl, rfl⟩
  rw [withHistory_transcript, withHistory_transcript] at htranscripts
  exact htranscripts

instance (keys : List ReplayKey) (s : RoomBridge × List BridgeCall) (step : BridgeStep) :
    Decidable (LeavesAlone workerId keys s step) :=
  inferInstanceAs (Decidable (∀ command ∈ step.command?, _ → _ ∧ _))

/-- A worker that is connected and registers twice under one key. -/
def ownSteps : List BridgeStep :=
  [.peerEvent true [1] ⟨1, 1, 1, 1⟩,
    .message ⟨[1], ⟨1, 1, 1, 1⟩, .command ⟨.workerSync, [9], [1], [], 0, 0⟩⟩
      ⟨5, 5, 0, true, appliedAt 7⟩,
    .message ⟨[1], ⟨1, 1, 1, 1⟩, .command ⟨.workerSync, [9], [1], [], 0, 0⟩⟩
      ⟨6, 6, 0, true, appliedAt 8⟩]

/-- A command of another peer under this message id. -/
def foreignStep (kind : BridgeCommandKind) (messageId : UInt8) : BridgeStep :=
  .message ⟨[2], ⟨2, 2, 2, 2⟩, .command ⟨kind, [messageId], [1], [], 0, 0⟩⟩
    ⟨4, 4, 0, true, appliedAt 6⟩

theorem ownSteps_isolated :
    (roomBridgeMachine.transcript (.create 2 10 commandHost)
        (foreignStep .other 8 :: ownSteps)).flatMap (repliesTo [1]) =
      (roomBridgeMachine.transcript (.create 2 10 commandHost) ownSteps).flatMap (repliesTo [1]) :=
  have hsame : (foreignStep .other 8 :: ownSteps).filter (fun step => !step.isForeign [1]) =
      ownSteps.filter (fun step => !step.isForeign [1]) := by
    rfl
  have hxs : roomBridgeMachine.withHistory.Along
      (LeavesAlone [1] (registrationKeys [1] (foreignStep .other 8 :: ownSteps)))
      (.create 2 10 commandHost, []) (foreignStep .other 8 :: ownSteps) := by
    decide
  have hys : roomBridgeMachine.withHistory.Along (LeavesAlone [1] (registrationKeys [1] ownSteps))
      (.create 2 10 commandHost, []) ownSteps := by
    decide
  (workers_isolated hsame hxs hys).2

/-- The worker's registration is answered with the result of another peer's command, or
rejected because another peer was, when that peer has used its message id before. -/
theorem sync_answered_for_another :
    (roomBridgeMachine.transcript (.create 2 10 commandHost)
        (foreignStep .other 9 :: ownSteps.take 2)).flatMap (repliesTo [1]) =
      [[.reply ⟨1, 1, 1, 1⟩ ⟨.workerSync, [9], [1], [], 0, 0⟩ (appliedAt 6)]] ∧
    (roomBridgeMachine.transcript (.create 2 10 commandHost)
        (foreignStep .workerSync 9 :: ownSteps.take 2)).flatMap (repliesTo [1]) =
      [[.reply ⟨1, 1, 1, 1⟩ ⟨.workerSync, [9], [1], [], 0, 0⟩ (RoomCommandResult.zero.fail .eauth
          (Conference.literal "worker identity not connected"))]] ∧
    (roomBridgeMachine.transcript (.create 2 10 commandHost) (ownSteps.take 2)).flatMap
        (repliesTo [1]) =
      [[.reply ⟨1, 1, 1, 1⟩ ⟨.workerSync, [9], [1], [], 0, 0⟩ (appliedAt 7)]] := by
  decide

end TurboMedia.Ivr
