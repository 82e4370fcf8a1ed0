import TurboMedia.Lib.LinkedList
import TurboMedia.Signaling.SourcePolicy

/-!
# Signaling: the list of inactive sources

The links that the source states carry make up a doubly linked list.  `Shape server xs` says
which one, and that `inactive_linked` is set in exactly the states on it.

Every operation of the source policy is read at two places only: what it does to the list
(`shape_unlink`, `shape_link`, ...) and what it does to the rest of the states, their cores
(`cores_unlink`, `cores_link`, ...).
-/

namespace TurboMedia.Signaling

open List Function AList Option SourceServer

open LinkedList

section Views

/-- A source state without its links. -/
structure SourceCore where
  rateLastRefillMs : ℕ
  rateTokens : ℕ
  lastSeenMs : ℕ
  activeConnections : ℕ

def SourceState.core (source : SourceState) : SourceCore :=
  ⟨source.rateLastRefillMs, source.rateTokens, source.lastSeenMs, source.activeConnections⟩

variable (server : SourceServer)

def SourceServer.cores (key : SourceKey) : Option SourceCore :=
  (server.sourceStates.lookup key).map SourceState.core

def SourceServer.links : Links SourceKey where
  next := fun key => (server.sourceStates.lookup key).bind SourceState.inactiveNext
  prev := fun key => (server.sourceStates.lookup key).bind SourceState.inactivePrev
  head := server.inactiveSourcesHead
  tail := server.inactiveSourcesTail

/-- The inactive sources are linked in this order. -/
structure Shape (xs : List SourceKey) : Prop where
  links : server.links.Holds xs
  linked : ∀ key source, server.sourceStates.lookup key = some source →
    (source.inactiveLinked = true ↔ key ∈ xs)
  present : ∀ key ∈ xs, (server.sourceStates.lookup key).isSome = true

/-- What no operation on the source states touches. -/
structure SameRest (server' : SourceServer) : Prop where
  config : server'.config = server.config
  running : server'.running = server.running
  peers : server'.peers = server.peers

end Views

section Updates

variable {server : SourceServer} {key x : SourceKey} {f : SourceState → SourceState}

theorem SameRest.refl : SameRest server server :=
  ⟨rfl, rfl, rfl⟩

theorem SameRest.trans {server' server'' : SourceServer}
    (h : SameRest server server') (h' : SameRest server' server'') : SameRest server server'' :=
  ⟨h'.config.trans h.config, h'.running.trans h.running, h'.peers.trans h.peers⟩

@[simp] theorem lookup_update :
    (server.update key f).sourceStates.lookup x =
      if x = key then (server.sourceStates.lookup key).map f
      else server.sourceStates.lookup x := by
  unfold SourceServer.update
  cases hlook : server.sourceStates.lookup key with
  | none =>
    by_cases hx : x = key
    · subst hx
      simpa using hlook
    · simp [hx]
  | some source =>
    by_cases hx : x = key
    · subst hx
      simp
    · simp [lookup_insert_ne hx, hx]

@[simp] theorem head_update :
    (server.update key f).inactiveSourcesHead = server.inactiveSourcesHead := by
  unfold SourceServer.update
  split <;> rfl

@[simp] theorem tail_update :
    (server.update key f).inactiveSourcesTail = server.inactiveSourcesTail := by
  unfold SourceServer.update
  split <;> rfl

theorem sameRest_update : SameRest server (server.update key f) := by
  unfold SourceServer.update
  split <;> exact ⟨rfl, rfl, rfl⟩

theorem size_insert_of_mem
    {states : AList (fun _ : SourceKey => SourceState)} {source : SourceState} (h : key ∈ states) :
    (states.insert key source).keys.length = states.keys.length := by
  have hkey : key ∈ states.keys := mem_keys.mp h
  have hpos := length_pos_of_mem hkey
  rw [keys_insert, length_cons, length_erase_of_mem hkey]
  omega

theorem size_insert_of_notMem
    {states : AList (fun _ : SourceKey => SourceState)} {source : SourceState} (h : key ∉ states) :
    (states.insert key source).keys.length = states.keys.length + 1 := by
  rw [keys_insert, length_cons, erase_of_not_mem (fun hkey => h (mem_keys.mpr hkey))]

@[simp] theorem size_update :
    (server.update key f).sourceStates.keys.length = server.sourceStates.keys.length := by
  unfold SourceServer.update
  cases hlook : server.sourceStates.lookup key with
  | none => rfl
  | some source =>
    refine size_insert_of_mem (lookup_isSome.mp ?_)
    rw [hlook]
    rfl

theorem cores_update {g : SourceCore → SourceCore}
    (hf : ∀ source, (f source).core = g source.core) :
    (server.update key f).cores = update server.cores key ((server.cores key).map g) := by
  funext x
  unfold cores
  rw [lookup_update]
  by_cases hx : x = key
  · subst hx
    rw [if_pos rfl, update_self, Option.map_map, Option.map_map]
    congr 1
    funext source
    exact hf source
  · rw [if_neg hx, update_of_ne hx]

theorem shape_update {xs : List SourceKey} (h : Shape server xs)
    (hnext : ∀ source, (f source).inactiveNext = source.inactiveNext)
    (hprev : ∀ source, (f source).inactivePrev = source.inactivePrev)
    (hlinked : ∀ source, (f source).inactiveLinked = source.inactiveLinked) :
    Shape (server.update key f) xs where
  links := by
    refine h.links.congr ?_ ?_ head_update tail_update
    · intro x
      change ((server.update key f).sourceStates.lookup x).bind _ =
        (server.sourceStates.lookup x).bind _
      rw [lookup_update]
      split
      · rename_i hx
        subst hx
        cases server.sourceStates.lookup x with
        | none => rfl
        | some source => exact hnext source
      · rfl
    · intro x
      change ((server.update key f).sourceStates.lookup x).bind _ =
        (server.sourceStates.lookup x).bind _
      rw [lookup_update]
      split
      · rename_i hx
        subst hx
        cases server.sourceStates.lookup x with
        | none => rfl
        | some source => exact hprev source
      · rfl
  linked := by
    intro x source hx
    rw [lookup_update] at hx
    split at hx
    · rename_i heq
      subst heq
      obtain ⟨before, hbef, rfl⟩ := map_eq_some_iff.mp hx
      rw [hlinked]
      exact h.linked x before hbef
    · exact h.linked x source hx
  present := by
    intro x hx
    have hsome := h.present x hx
    rw [lookup_update]
    split
    · rename_i heq
      subst heq
      simpa using hsome
    · exact hsome

end Updates

section Unlink

variable {server : SourceServer} {key : SourceKey} {xs front back : List SourceKey}

theorem unlink_of_not_mem (h : Shape server xs) (hkey : key ∉ xs) :
    unlinkInactiveSource server key = server := by
  unfold unlinkInactiveSource
  cases hlook : server.sourceStates.lookup key with
  | none => rfl
  | some source =>
    have hlinked : source.inactiveLinked = false := by
      rw [← Bool.not_eq_true]
      exact fun htrue => hkey ((h.linked key source hlook).mp htrue)
    simp [hlinked]

theorem lookup_prev (h : Shape server (front ++ key :: back)) {source : SourceState} {p : SourceKey}
    (hlook : server.sourceStates.lookup key = some source)
    (hprev : source.inactivePrev = some p) :
    p ≠ key ∧ (server.sourceStates.lookup p).isSome = true := by
  have hlinks := (h.links.between front key back rfl).1
  change (server.sourceStates.lookup key).bind _ = _ at hlinks
  rw [hlook, bind_some, hprev] at hlinks
  have hmem : p ∈ front := mem_of_getLast? hlinks.symm
  refine ⟨?_, h.present p (mem_append_left _ hmem)⟩
  rintro rfl
  have hnodup := h.links.nodup
  rw [nodup_middle, nodup_cons] at hnodup
  exact hnodup.1 (mem_append_left _ hmem)

theorem lookup_next (h : Shape server (front ++ key :: back)) {source : SourceState} {n : SourceKey}
    (hlook : server.sourceStates.lookup key = some source)
    (hnext : source.inactiveNext = some n) :
    n ≠ key ∧ (server.sourceStates.lookup n).isSome = true := by
  have hlinks := (h.links.between front key back rfl).2
  change (server.sourceStates.lookup key).bind _ = _ at hlinks
  rw [hlook, bind_some, hnext] at hlinks
  have hmem : n ∈ back := mem_of_head? hlinks.symm
  refine ⟨?_, h.present n (by simp [hmem])⟩
  rintro rfl
  have hnodup := h.links.nodup
  rw [nodup_middle, nodup_cons] at hnodup
  exact hnodup.1 (mem_append_right _ hmem)

/-- What `unlink_inactive_source_locked` leaves of a state. -/
theorem lookup_unlink {source : SourceState}
    (hlook : server.sourceStates.lookup key = some source)
    (hlinked : source.inactiveLinked = true) (x : SourceKey) :
    (unlinkInactiveSource server key).sourceStates.lookup x =
      (server.sourceStates.lookup x).map (fun s =>
        if x = key then
          { s with inactivePrev := none, inactiveNext := none, inactiveLinked := false }
        else
          { s with
            inactiveNext :=
              if source.inactivePrev = some x then source.inactiveNext else s.inactiveNext
            inactivePrev :=
              if source.inactiveNext = some x then source.inactivePrev else s.inactivePrev }) := by
  unfold unlinkInactiveSource
  rw [hlook]
  simp only [hlinked, Bool.not_true, Bool.false_eq_true, if_false]
  rcases eq_or_ne x key with rfl | hx
  · cases source.inactivePrev <;> cases source.inactiveNext <;> simp [hlook] <;>
      split_ifs <;> subst_vars <;> simp_all
  · cases hprev : source.inactivePrev with
    | none =>
      cases hnext : source.inactiveNext with
      | none => simp [hx]
      | some n =>
        rcases eq_or_ne x n with rfl | hxn
        · simp [hx]
        · simp [hx, hxn, hxn.symm]
    | some p =>
      cases hnext : source.inactiveNext with
      | none =>
        rcases eq_or_ne x p with rfl | hxp
        · simp [hx]
        · simp [hx, hxp, hxp.symm]
      | some n =>
        rcases eq_or_ne x p with rfl | hxp <;> rcases eq_or_ne x n with rfl | hxn
        · simp [hx, comp_def]
        · simp [hx, hxn, hxn.symm]
        · simp [hx, hxp, hxp.symm]
        · simp [hx, hxp, hxp.symm, hxn, hxn.symm]

theorem unlink_ends {source : SourceState} (hlook : server.sourceStates.lookup key = some source)
    (hlinked : source.inactiveLinked = true) :
    (unlinkInactiveSource server key).inactiveSourcesHead =
        (if source.inactivePrev = none then source.inactiveNext
          else server.inactiveSourcesHead) ∧ (unlinkInactiveSource server key).inactiveSourcesTail =
        (if source.inactiveNext = none then source.inactivePrev
          else server.inactiveSourcesTail) := by
  unfold unlinkInactiveSource
  rw [hlook]
  simp only [hlinked, Bool.not_true, Bool.false_eq_true, if_false]
  cases source.inactivePrev <;> cases source.inactiveNext <;> simp

theorem unlink_rest : SameRest server (unlinkInactiveSource server key) := by
  unfold unlinkInactiveSource
  cases hlook : server.sourceStates.lookup key with
  | none => exact .refl
  | some source =>
    dsimp only
    split
    · exact .refl
    · refine SameRest.trans ?_ sameRest_update
      cases source.inactivePrev with
      | none =>
        cases source.inactiveNext with
        | none => exact ⟨rfl, rfl, rfl⟩
        | some next =>
          have hhead : SameRest server { server with inactiveSourcesHead := some next } :=
            ⟨rfl, rfl, rfl⟩
          exact hhead.trans sameRest_update
      | some prev =>
        have hprev : SameRest server (server.update prev
            (fun s => { s with inactiveNext := source.inactiveNext })) := sameRest_update
        refine hprev.trans ?_
        cases source.inactiveNext with
        | none => exact ⟨rfl, rfl, rfl⟩
        | some next => exact sameRest_update

theorem unlink_size :
    (unlinkInactiveSource server key).sourceStates.keys.length =
      server.sourceStates.keys.length := by
  unfold unlinkInactiveSource
  cases hlook : server.sourceStates.lookup key with
  | none => rfl
  | some source =>
    dsimp only
    split
    · rfl
    · rw [size_update]
      cases source.inactivePrev <;> cases source.inactiveNext <;> simp

theorem cores_unlink : (unlinkInactiveSource server key).cores = server.cores := by
  funext x
  cases hlook : server.sourceStates.lookup key with
  | none =>
    unfold unlinkInactiveSource
    rw [hlook]
  | some source =>
    by_cases hlinked : source.inactiveLinked = true
    · unfold cores
      rw [lookup_unlink hlook hlinked, Option.map_map]
      congr 1
      funext s
      split <;> rfl
    · unfold unlinkInactiveSource
      rw [hlook]
      simp [hlinked]

theorem shape_unlink_linked (h : Shape server (front ++ key :: back)) :
    Shape (unlinkInactiveSource server key) (front ++ back) := by
  have hmem : key ∈ front ++ key :: back := by simp
  obtain ⟨source, hlook⟩ := isSome_iff_exists.mp (h.present key hmem)
  have hlinked : source.inactiveLinked = true := (h.linked key source hlook).mpr hmem
  have hnodup := h.links.nodup
  rw [nodup_middle, nodup_cons] at hnodup
  have hprev : server.links.prev key = source.inactivePrev := by
    change (server.sourceStates.lookup key).bind _ = _
    rw [hlook]
    rfl
  have hnext : server.links.next key = source.inactiveNext := by
    change (server.sourceStates.lookup key).bind _ = _
    rw [hlook]
    rfl
  obtain ⟨hhead, htail⟩ := unlink_ends hlook hlinked
  refine ⟨h.links.remove.congr ?_ ?_ ?_ ?_, ?_, ?_⟩
  · intro x
    change ((unlinkInactiveSource server key).sourceStates.lookup x).bind _ =
      if x = key then none
      else if server.links.prev key = some x then server.links.next key
      else (server.sourceStates.lookup x).bind _
    rw [lookup_unlink hlook hlinked, hprev, hnext]
    rcases eq_or_ne x key with rfl | hx
    · simp [hlook]
    · by_cases hp : source.inactivePrev = some x
      · obtain ⟨-, hsome⟩ := lookup_prev h hlook hp
        obtain ⟨s, hs⟩ := isSome_iff_exists.mp hsome
        simp [hx, hp, hs]
      · cases server.sourceStates.lookup x <;> simp [hx, hp]
  · intro x
    change ((unlinkInactiveSource server key).sourceStates.lookup x).bind _ =
      if x = key then none
      else if server.links.next key = some x then server.links.prev key
      else (server.sourceStates.lookup x).bind _
    rw [lookup_unlink hlook hlinked, hprev, hnext]
    rcases eq_or_ne x key with rfl | hx
    · simp [hlook]
    · by_cases hn : source.inactiveNext = some x
      · obtain ⟨-, hsome⟩ := lookup_next h hlook hn
        obtain ⟨s, hs⟩ := isSome_iff_exists.mp hsome
        simp [hx, hn, hs]
      · cases server.sourceStates.lookup x <;> simp [hx, hn]
  · change _ = if server.links.prev key = none then server.links.next key
      else server.inactiveSourcesHead
    rw [hprev, hnext]
    exact hhead
  · change _ = if server.links.next key = none then server.links.prev key
      else server.inactiveSourcesTail
    rw [hprev, hnext]
    exact htail
  · intro x s hs
    rw [lookup_unlink hlook hlinked] at hs
    obtain ⟨before, hbef, rfl⟩ := map_eq_some_iff.mp hs
    rcases eq_or_ne x key with rfl | hx
    · simpa using hnodup.1
    · rw [if_neg hx]
      refine (h.linked x before hbef).trans ?_
      simp [hx]
  · intro x hx
    have hsome := h.present x (by
      rcases mem_append.mp hx with hx | hx <;> simp [hx])
    rw [lookup_unlink hlook hlinked]
    simpa using hsome

theorem shape_unlink (h : Shape server xs) (key : SourceKey) :
    Shape (unlinkInactiveSource server key) (xs.erase key) := by
  by_cases hkey : key ∈ xs
  · obtain ⟨front, back, hnot, rfl, herase⟩ := exists_erase_eq hkey
    rw [herase]
    exact shape_unlink_linked h
  · rw [unlink_of_not_mem h hkey, erase_of_not_mem hkey]
    exact h

end Unlink

section Link

/-- The second half of `link_inactive_source_locked`, for a source that is not linked. -/
def linkBehind (server : SourceServer) (key : SourceKey) (nowMs : ℕ) : SourceServer :=
  let tail := server.inactiveSourcesTail
  let server := server.update key (fun s => { s with lastSeenMs := nowMs, inactivePrev := tail })
  let server :=
    match tail with
    | some last => server.update last (fun s => { s with inactiveNext := some key })
    | none => { server with inactiveSourcesHead := some key }
  let server := { server with inactiveSourcesTail := some key }
  server.update key (fun s => { s with inactiveLinked := true })

variable {server : SourceServer} {key : SourceKey} {xs : List SourceKey} {nowMs : ℕ}

theorem link_eq {source : SourceState} (hlook : server.sourceStates.lookup key = some source)
    (hidle : source.activeConnections = 0) :
    linkInactiveSource server key nowMs =
      linkBehind (unlinkInactiveSource server key) key nowMs := by
  unfold linkInactiveSource
  rw [hlook]
  simp only [hidle, ne_eq, not_true_eq_false, if_false]
  rfl

theorem lookup_linkBehind (htail : server.inactiveSourcesTail ≠ some key) (x : SourceKey) :
    (linkBehind server key nowMs).sourceStates.lookup x =
      (server.sourceStates.lookup x).map (fun s =>
        if x = key then { s with
            lastSeenMs := nowMs
            inactivePrev := server.inactiveSourcesTail
            inactiveLinked := true }
        else
          { s with
            inactiveNext :=
              if server.inactiveSourcesTail = some x then some key else s.inactiveNext }) := by
  unfold linkBehind
  cases hlast : server.inactiveSourcesTail with
  | none =>
    rw [lookup_update]
    rcases eq_or_ne x key with rfl | hx
    · simp [comp_def]
    · simp [hx]
  | some last =>
    have hne : key ≠ last := by
      rintro rfl
      exact htail hlast
    rw [lookup_update]
    rcases eq_or_ne x key with rfl | hx
    · simp [hne, comp_def]
    · rcases eq_or_ne x last with rfl | hlast'
      · simp [hx]
      · simp [hx, hlast', hlast'.symm]

theorem linkBehind_ends :
    (linkBehind server key nowMs).inactiveSourcesHead =
        (if server.inactiveSourcesTail = none then some key else server.inactiveSourcesHead) ∧
      (linkBehind server key nowMs).inactiveSourcesTail = some key := by
  unfold linkBehind
  cases server.inactiveSourcesTail <;> simp

theorem linkBehind_rest : SameRest server (linkBehind server key nowMs) := by
  unfold linkBehind
  refine SameRest.trans ?_ sameRest_update
  cases server.inactiveSourcesTail with
  | none => exact sameRest_update.trans ⟨rfl, rfl, rfl⟩
  | some last => exact (sameRest_update.trans sameRest_update).trans ⟨rfl, rfl, rfl⟩

theorem linkBehind_size :
    (linkBehind server key nowMs).sourceStates.keys.length = server.sourceStates.keys.length := by
  unfold linkBehind
  rw [size_update]
  cases server.inactiveSourcesTail <;> simp

theorem cores_linkBehind (htail : server.inactiveSourcesTail ≠ some key) :
    (linkBehind server key nowMs).cores = update server.cores key
        ((server.cores key).map (fun c => { c with lastSeenMs := nowMs })) := by
  funext x
  unfold cores
  rw [lookup_linkBehind htail, Option.map_map]
  rcases eq_or_ne x key with rfl | hx
  · rw [update_self, Option.map_map]
    congr 1
    funext s
    simp [SourceState.core]
  · rw [update_of_ne hx]
    congr 1
    funext s
    simp [SourceState.core, hx]

theorem shape_linkBehind (h : Shape server xs) (hkey : key ∉ xs)
    (hpres : (server.sourceStates.lookup key).isSome = true) :
    Shape (linkBehind server key nowMs) (xs ++ [key]) := by
  have htail : server.inactiveSourcesTail ≠ some key := by
    intro hlast
    have hlinks := h.links.tail
    exact hkey (mem_of_getLast? (hlinks.symm.trans hlast))
  obtain ⟨hhead, hend⟩ := linkBehind_ends
  refine ⟨(h.links.pushBack hkey).congr ?_ ?_ hhead hend, ?_, ?_⟩
  · intro x
    change ((linkBehind server key nowMs).sourceStates.lookup x).bind _ =
      if server.inactiveSourcesTail = some x then some key
      else (server.sourceStates.lookup x).bind _
    rw [lookup_linkBehind htail]
    by_cases hlast : server.inactiveSourcesTail = some x
    · have hx : x ≠ key := by
        rintro rfl
        exact htail hlast
      have hlinks := h.links.tail
      have hmem : x ∈ xs := mem_of_getLast? (hlinks.symm.trans hlast)
      obtain ⟨s, hs⟩ := isSome_iff_exists.mp (h.present x hmem)
      simp [hx, hs, hlast]
    · rw [if_neg hlast]
      rcases eq_or_ne x key with rfl | hx
      · cases server.sourceStates.lookup x <;> simp
      · cases server.sourceStates.lookup x <;> simp [hx, hlast]
  · intro x
    change ((linkBehind server key nowMs).sourceStates.lookup x).bind _ =
      if x = key then server.inactiveSourcesTail
      else (server.sourceStates.lookup x).bind _
    rw [lookup_linkBehind htail]
    rcases eq_or_ne x key with rfl | hx
    · obtain ⟨s, hs⟩ := isSome_iff_exists.mp hpres
      simp [hs]
    · cases server.sourceStates.lookup x <;> simp [hx]
  · intro x s hs
    rw [lookup_linkBehind htail] at hs
    obtain ⟨before, hbef, rfl⟩ := map_eq_some_iff.mp hs
    rcases eq_or_ne x key with rfl | hx
    · simp
    · rw [if_neg hx]
      refine (h.linked x before hbef).trans ?_
      simp [hx]
  · intro x hx
    rw [lookup_linkBehind htail, isSome_map]
    rcases mem_append.mp hx with hx | hx
    · exact h.present x hx
    · rw [mem_singleton.mp hx]
      exact hpres

theorem shape_link {source : SourceState} (h : Shape server xs)
    (hlook : server.sourceStates.lookup key = some source)
    (hidle : source.activeConnections = 0) :
    Shape (linkInactiveSource server key nowMs) (xs.erase key ++ [key]) ∧
      (linkInactiveSource server key nowMs).cores =
        update server.cores key (some { source.core with lastSeenMs := nowMs }) ∧
      SameRest server (linkInactiveSource server key nowMs) ∧
      (linkInactiveSource server key nowMs).sourceStates.keys.length =
        server.sourceStates.keys.length := by
  rw [link_eq hlook hidle]
  have hunlinked := shape_unlink h key
  have hnot : key ∉ xs.erase key := fun hmem => (h.links.nodup.mem_erase_iff.mp hmem).1 rfl
  have hcores : (unlinkInactiveSource server key).cores key = some source.core := by
    rw [cores_unlink]
    unfold cores
    rw [hlook]
    rfl
  have hpres : ((unlinkInactiveSource server key).sourceStates.lookup key).isSome = true := by
    obtain ⟨s, hs, -⟩ := map_eq_some_iff.mp hcores
    rw [hs]
    rfl
  have htail : (unlinkInactiveSource server key).inactiveSourcesTail ≠ some key := by
    intro hlast
    have hlinks := hunlinked.links.tail
    exact hnot (mem_of_getLast? (hlinks.symm.trans hlast))
  refine ⟨shape_linkBehind hunlinked hnot hpres, ?_, unlink_rest.trans linkBehind_rest,
    linkBehind_size.trans unlink_size⟩
  rw [cores_linkBehind htail, hcores, cores_unlink]
  rfl

end Link

variable {server : SourceServer} {key : SourceKey} {xs : List SourceKey}

theorem shape_insert (h : Shape server xs) (hnew : server.sourceStates.lookup key = none) :
    Shape { server with sourceStates := server.sourceStates.insert key SourceState.new } xs := by
  have hkey : key ∉ xs := by
    intro hmem
    have hsome := h.present key hmem
    rw [hnew] at hsome
    cases hsome
  refine ⟨h.links.congr ?_ ?_ rfl rfl, ?_, ?_⟩
  · intro x
    change ((server.sourceStates.insert key _).lookup x).bind _ =
      (server.sourceStates.lookup x).bind _
    rcases eq_or_ne x key with rfl | hx
    · rw [lookup_insert, hnew]
      rfl
    · rw [lookup_insert_ne hx]
  · intro x
    change ((server.sourceStates.insert key _).lookup x).bind _ =
      (server.sourceStates.lookup x).bind _
    rcases eq_or_ne x key with rfl | hx
    · rw [lookup_insert, hnew]
      rfl
    · rw [lookup_insert_ne hx]
  · intro x s hs
    rcases eq_or_ne x key with rfl | hx
    · rw [lookup_insert, some.injEq] at hs
      subst hs
      simpa [SourceState.new] using hkey
    · rw [lookup_insert_ne hx] at hs
      exact h.linked x s hs
  · intro x hx
    have hne : x ≠ key := fun heq => hkey (heq ▸ hx)
    rw [lookup_insert_ne hne]
    exact h.present x hx

theorem cores_insert :
    cores
        { server with sourceStates := server.sourceStates.insert key SourceState.new } =
      update server.cores key (some ⟨0, 0, 0, 0⟩) := by
  funext x
  change ((server.sourceStates.insert key _).lookup x).map _ = _
  rcases eq_or_ne x key with rfl | hx
  · rw [lookup_insert, update_self]
    rfl
  · rw [lookup_insert_ne hx, update_of_ne hx]
    rfl

theorem shape_erase (h : Shape server xs) (hkey : key ∉ xs) :
    Shape { server with sourceStates := server.sourceStates.erase key } xs := by
  obtain ⟨hprev, hnext⟩ := h.links.outside key hkey
  refine ⟨h.links.congr ?_ ?_ rfl rfl, ?_, ?_⟩
  · intro x
    change ((server.sourceStates.erase key).lookup x).bind _ = server.links.next x
    rcases eq_or_ne x key with rfl | hx
    · rw [lookup_erase, hnext]
      rfl
    · rw [lookup_erase_ne hx]
      rfl
  · intro x
    change ((server.sourceStates.erase key).lookup x).bind _ = server.links.prev x
    rcases eq_or_ne x key with rfl | hx
    · rw [lookup_erase, hprev]
      rfl
    · rw [lookup_erase_ne hx]
      rfl
  · intro x s hs
    rcases eq_or_ne x key with rfl | hx
    · rw [lookup_erase] at hs
      cases hs
    · rw [lookup_erase_ne hx] at hs
      exact h.linked x s hs
  · intro x hx
    have hne : x ≠ key := fun heq => hkey (heq ▸ hx)
    rw [lookup_erase_ne hne]
    exact h.present x hx

theorem cores_erase :
    cores { server with sourceStates := server.sourceStates.erase key } =
      update server.cores key none := by
  funext x
  change ((server.sourceStates.erase key).lookup x).map _ = _
  rcases eq_or_ne x key with rfl | hx
  · rw [lookup_erase, update_self]
    rfl
  · rw [lookup_erase_ne hx, update_of_ne hx]
    rfl

theorem size_erase (h : (server.sourceStates.lookup key).isSome = true) :
    (server.sourceStates.erase key).keys.length + 1 = server.sourceStates.keys.length := by
  have hmem : key ∈ server.sourceStates.keys := mem_keys.mp (lookup_isSome.mp h)
  have hpos := length_pos_of_mem hmem
  rw [keys_erase, length_erase_of_mem hmem]
  omega

end TurboMedia.Signaling
