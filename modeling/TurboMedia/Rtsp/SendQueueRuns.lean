import TurboMedia.Lib.Ring
import TurboMedia.Rtsp.SendQueue

/-!
# What is passed to the transport

**Input.**  Any run of the send queue: enqueues of any threads between the sections of the
worker, which allocates and releases sessions, gives up the input of one, and drains the queue
over a transport that answers as it likes.

**Method.**  The ring stores the admitted buffers that have not left the queue (`QueueHolds`).
A slot that was allocated `n` times has the generation `generationOf n`, and so has every
buffer that was admitted for its `n`-th session (`Stocked`).  Only the worker allocates and
releases, so the session that it found at the head is the one that it sends to
(`WorkerSound`).  The buffers owed to a marked session are followed until they are handed over
(`MarksSound`).
-/

namespace TurboMedia.Rtsp

open List SendServer SendHistory Rtsp Option

/-- The commands in the ring, from its head on. -/
def SendServer.queued (server : SendServer) : List SendCommand :=
  (List.range server.sendCount).filterMap
    (fun i => server.sendQueue[(server.sendHead + i) % server.sendQueue.length]?)

/-- The bytes are counted, and bounded. -/
structure Accounted (s : SendSystem) : Prop where
  bytes : s.server.sendBytes = (s.server.queued.map SendCommand.size).sum
  bounded : s.server.sendBytes ≤ s.server.sendQueueBytes

/-- What is queued is what was admitted, without what has left from its front. -/
def FirstInFirstOut (s : SendSystem) : Prop :=
  s.server.queued = (s.history.admitted.drop s.history.retired).map SendBuffer.command

/-- What is passed to the transport for a session was admitted for it; as long as the
generation of the slot has not wrapped around, for no earlier session in the slot. -/
def ForOwnSession (s : SendSystem) : Prop :=
  ∀ call ∈ s.history.calls, ∃ buffer occupant,
    s.history.admitted[call.ticket]? = some buffer ∧ call.occupant = some occupant ∧
      call.slot = buffer.command.sessionIndex ∧ call.data = buffer.command.data ∧
        (occupant ≤ Words.max32 → buffer.occupant = occupant)

/-- The transport is called in the order of admission, and no buffer is handed over twice. -/
structure InOrder (s : SendSystem) : Prop where
  calls : s.history.calls.Pairwise (fun a b => a.ticket ≤ b.ticket)
  handed : s.history.handed.Pairwise (fun a b => a.ticket < b.ticket)

/-- When a buffer is handed over with the close flag for a session that was marked, the others
that were queued for the session when it was marked were handed over before. -/
def Flushed (s : SendSystem) : Prop :=
  ∀ mark ∈ s.history.marks, ∀ before call after,
    s.history.handed = before ++ call :: after → mark.handed ≤ before.length →
      call.slot = mark.slot → call.occupant = some mark.occupant → call.closing = true →
        ∀ ticket ∈ mark.owed, ticket = call.ticket ∨ ∃ earlier ∈ before, earlier.ticket = ticket

def SendServer.queues (server : SendServer) (index : ℕ) (data : List UInt8) : Bool :=
  (server.sessions[index]?).any (fun session =>
    decide (data ≠ []) && decide (session.ioKind ≠ .websocket) && admits server session data.length)

/-- A session that is marked has one buffer queued at most that was not handed over, with the
one that marks it. -/
def MarkedLast (s : SendSystem) : SendOp → Prop
  | .enqueue index data closeAfter =>
    closeAfter = true → s.server.queues index data = true →
      s.server.flagged index = false → s.waiting index = []
  | .giveUp index =>
    s.worker = .idle → s.server.occupied index = true →
      s.server.flagged index = false → (s.waiting index).length ≤ 1
  | _ => True

section Queue

variable {server : SendServer} {commands : List SendCommand} {command : SendCommand}

/-- The ring of the server stores these commands. -/
structure QueueHolds (server : SendServer) (commands : List SendCommand) : Prop where
  count : server.sendCount = commands.length
  fits : commands.length ≤ server.sendQueue.length
  head : server.sendHead % server.sendQueue.length = server.sendHead
  holds : Ring.Holds server.sendQueue server.sendHead commands
  bytes : server.sendBytes = (commands.map SendCommand.size).sum
  bounded : server.sendBytes ≤ server.sendQueueBytes
  word : server.sendQueueBytes ≤ Words.max64

theorem sizeMinus_eq {a b : ℕ} (hle : b ≤ a) (hmax : a ≤ Words.max64) : sizeMinus a b = a - b := by
  simp only [sizeMinus, Words.max64] at *
  omega

theorem QueueHolds.queued (h : QueueHolds server commands) : server.queued = commands := by
  have htake : ∀ n ≤ commands.length, (List.range n).filterMap
        (fun i => server.sendQueue[(server.sendHead + i) % server.sendQueue.length]?) =
          commands.take n := by
    intro n
    induction n with
    | zero =>
      intro _
      rfl
    | succ n ih =>
      intro hn
      have hlt : n < commands.length := hn
      rw [range_succ, filterMap_append, ih hlt.le, take_add_one,
        filterMap_cons, h.holds n hlt, getElem?_eq_getElem hlt]
      rfl
  rw [SendServer.queued, h.count, htake _ le_rfl, take_length]

theorem QueueHolds.first (h : QueueHolds server (command :: commands)) :
    server.sendQueue[server.sendHead]? = some command := by
  have hfirst := h.holds 0 (by simp)
  rwa [Nat.add_zero, h.head] at hfirst

theorem QueueHolds.sessions (h : QueueHolds server commands) (sessions : List SendSession) :
    QueueHolds { server with sessions := sessions } commands :=
  ⟨h.count, h.fits, h.head, h.holds, h.bytes, h.bounded, h.word⟩

theorem QueueHolds.stop (h : QueueHolds server commands) :
    QueueHolds { server with stopping := true } commands :=
  ⟨h.count, h.fits, h.head, h.holds, h.bytes, h.bounded, h.word⟩

theorem queueHolds_create (config : SendConfig) :
    QueueHolds (SendServer.create config) [] where
  count := rfl
  fits := Nat.zero_le _
  head := Nat.zero_mod _
  holds := Ring.Holds.nil _ _
  bytes := rfl
  bounded := Nat.zero_le _
  word := config.sendQueueBytes_le

theorem QueueHolds.push (h : QueueHolds server commands)
    (hroom : server.sendCount ≠ server.sendQueue.length)
    (hsize : command.size ≤ sizeMinus server.sendQueueBytes server.sendBytes)
    (sessions : List SendSession) :
    QueueHolds { server with
        sendQueue := server.sendQueue.set
          ((server.sendHead + server.sendCount) % server.sendQueue.length) command
        sendCount := server.sendCount + 1
        sendBytes := server.sendBytes + command.size
        sessions := sessions }
      (commands ++ [command]) := by
  have hbounded := h.bounded
  rw [sizeMinus_eq hbounded h.word] at hsize
  have hlt : commands.length < server.sendQueue.length := by
    have hfits := h.fits
    have hcount := h.count
    omega
  constructor
  · simp [h.count]
  · simpa using hlt
  · simpa using h.head
  · exact h.holds.set_next hlt (by rw [h.count])
  · simp [h.bytes]
  · change server.sendBytes + command.size ≤ server.sendQueueBytes
    omega
  · exact h.word

theorem popSend_nil (h : QueueHolds server []) : popSend server = server := by
  have hcount : server.sendCount = 0 := h.count
  rw [popSend, if_pos hcount]

theorem popSend_cons (h : QueueHolds server (command :: commands)) :
    popSend server = { server with
        sendBytes := sizeMinus server.sendBytes command.size
        sendQueue := server.sendQueue.set server.sendHead SendCommand.zero
        sendHead := (server.sendHead + 1) % server.sendQueue.length
        sendCount := server.sendCount - 1 } := by
  have hcount : server.sendCount ≠ 0 := by
    rw [h.count]
    simp
  rw [popSend, if_neg hcount, h.first]

theorem QueueHolds.pop (h : QueueHolds server (command :: commands)) :
    QueueHolds (popSend server) commands := by
  have hbytes : server.sendBytes = command.size + (commands.map SendCommand.size).sum := by
    simpa using h.bytes
  have hminus : sizeMinus server.sendBytes command.size = server.sendBytes - command.size :=
    sizeMinus_eq (by omega) (h.bounded.trans h.word)
  have hfits : commands.length < server.sendQueue.length := by
    simpa using h.fits
  have hbounded := h.bounded
  rw [popSend_cons h]
  constructor
  · simp [h.count]
  · simpa using hfits.le
  · simp
  · have hhold := h.holds.set_first hfits (y := SendCommand.zero) h.head.symm
    rw [← Ring.holds_mod, length_set] at hhold
    simpa using hhold
  · change sizeMinus server.sendBytes command.size = _
    omega
  · change sizeMinus server.sendBytes command.size ≤ server.sendQueueBytes
    omega
  · exact h.word

end Queue

section Sessions

variable {server server' : SendServer} {index slot : ℕ} {session next : SendSession}

theorem elim_set {β : Type} {sessions : List SendSession} {zero : β} {field : SendSession → β}
    (hslot : sessions[index]? = some session) :
    ((sessions.set index next)[slot]?).elim zero field =
      if slot = index then field next else (sessions[slot]?).elim zero field := by
  have hlt : index < sessions.length := (List.getElem?_eq_some_iff.mp hslot).1
  by_cases heq : slot = index
  · subst heq
    rw [if_pos rfl, getElem?_set_self hlt]
    rfl
  · rw [if_neg heq, getElem?_set_ne (Ne.symm heq)]

/-- The session in the slot has a connection that data is sent to. -/
def SendServer.sends (server : SendServer) (slot : ℕ) : Bool :=
  (server.sessions[slot]?).elim false
    (fun session => decide (session.ioKind = .stream ∨ session.ioKind = .packet))

/-- The slots differ in the marks at most. -/
structure SameSessions (server server' : SendServer) : Prop where
  length : server'.sessions.length = server.sessions.length
  generation : ∀ slot, server'.generation slot = server.generation slot
  occupied : ∀ slot, server'.occupied slot = server.occupied slot
  sends : ∀ slot, server'.sends slot = server.sends slot

theorem SameSessions.of_eq (h : server'.sessions = server.sessions) :
    SameSessions server server' := by
  constructor <;> simp [SendServer.generation, SendServer.occupied, SendServer.sends, h]

variable (hslot : server.sessions[index]? = some session)
include hslot

theorem SameSessions.of_mark
    (h : server'.sessions = server.sessions.set index { session with closeAfterFlush := true }) :
    SameSessions server server' := by
  constructor
  · rw [h, length_set]
  · intro slot
    rw [SendServer.generation, h, elim_set hslot, SendServer.generation]
    split_ifs with heq
    · rw [heq, hslot]
      rfl
    · rfl
  · intro slot
    rw [SendServer.occupied, h, elim_set hslot, SendServer.occupied]
    split_ifs with heq
    · rw [heq, hslot]
      rfl
    · rfl
  · intro slot
    rw [SendServer.sends, h, elim_set hslot, SendServer.sends]
    split_ifs with heq
    · rw [heq, hslot]
      rfl
    · rfl

theorem generation_eq :
    server.generation index = session.generation := by
  rw [generation, hslot]
  rfl

theorem occupied_eq :
    server.occupied index = session.active := by
  rw [occupied, hslot]
  rfl

omit hslot

/-- What a successful `enqueue` does. -/
theorem enqueue_queued {data : List UInt8} {closeAfter : Bool}
    (h : enqueue server index data closeAfter = .queued server') :
    ∃ session, server.sessions[index]? = some session ∧ server.queues index data = true ∧ server' =
        { server with
          sendQueue := server.sendQueue.set
            ((server.sendHead + server.sendCount) % server.sendQueue.length)
            ⟨index, session.generation, data, data.length, closeAfter⟩
          sendCount := server.sendCount + 1
          sendBytes := server.sendBytes + data.length
          sessions :=
            if closeAfter then server.sessions.set index { session with closeAfterFlush := true }
            else
              server.sessions } := by
  unfold enqueue at h
  cases hslot : server.sessions[index]? with
  | none =>
    rw [hslot] at h
    cases h
  | some session =>
    rw [hslot] at h
    dsimp only at h
    by_cases hdata : data = []
    · rw [if_pos hdata] at h
      cases h
    by_cases hkind : session.ioKind = .websocket
    · rw [if_neg hdata, if_pos hkind] at h
      cases h
    by_cases hadmits : admits server session data.length = false
    · rw [if_neg hdata, if_neg hkind, if_pos hadmits] at h
      cases h
    · rw [if_neg hdata, if_neg hkind, if_neg hadmits] at h
      rw [Bool.not_eq_false] at hadmits
      refine ⟨session, rfl, ?_, (Enqueued.queued.inj h).symm⟩
      simp [queues, hslot, hdata, hkind, hadmits]

theorem admits_iff {size : ℕ} :
    admits server session size = true ↔ session.active = true ∧ server.stopping = false ∧
        server.sendCount ≠ server.sendQueue.length ∧
          size ≤ sizeMinus server.sendQueueBytes server.sendBytes := by
  simp [admits, and_assoc]

theorem SameSessions.enqueue {data : List UInt8} {closeAfter : Bool}
    (h : enqueue server index data closeAfter = .queued server') :
    SameSessions server server' := by
  obtain ⟨session, hslot, -, rfl⟩ := enqueue_queued h
  cases closeAfter with
  | false => exact .of_eq rfl
  | true => exact .of_mark hslot rfl

/-- What `allocate` does. -/
theorem allocate_some {ioKind : IoKind} (h : allocate server ioKind = some (index, server')) :
    ∃ session, server.sessions[index]? = some session ∧ session.active = false ∧ server' =
        { server with
          sessions := server.sessions.set index
            { SendSession.zero with
              ioKind := ioKind
              generation := nextGeneration session.generation
              active := true } } := by
  rw [allocate, freeSlot, ite_none_left_eq_some] at h
  obtain ⟨-, h⟩ := h
  cases hfree : server.sessions.findIdx? (fun session => !session.active) with
  | none =>
    rw [hfree] at h
    cases h
  | some free =>
    rw [hfree] at h
    dsimp only at h
    cases hslot : server.sessions[free]? with
    | none =>
      rw [hslot] at h
      cases h
    | some session =>
      rw [hslot] at h
      rw [some.injEq, Prod.mk.injEq] at h
      obtain ⟨rfl, rfl⟩ := h
      refine ⟨session, hslot, ?_, rfl⟩
      obtain ⟨hlt, hinactive, -⟩ := findIdx?_eq_some_iff_getElem.mp hfree
      rw [getElem?_eq_getElem hlt, some.injEq] at hslot
      subst hslot
      simpa using hinactive

theorem releaseBegin_some {generation : ℕ}
    (h : releaseBegin server index = some (generation, server')) :
    ∃ session, server.sessions[index]? = some session ∧ session.active = true ∧
      generation = session.generation ∧ server' = { server with
            sessions := server.sessions.set index { session with active := false } } := by
  unfold releaseBegin at h
  cases hslot : server.sessions[index]? with
  | none =>
    rw [hslot] at h
    cases h
  | some session =>
    rw [hslot] at h
    rw [ite_none_left_eq_some, Bool.not_eq_false, some.injEq, Prod.mk.injEq] at h
    obtain ⟨hact, rfl, rfl⟩ := h
    exact ⟨session, rfl, hact, rfl, rfl⟩

end Sessions

/-- The generation of a slot that was allocated so many times. -/
def generationOf (occupant : ℕ) : ℕ :=
  if occupant = 0 then 0 else (occupant - 1) % Words.max32 + 1

theorem nextGeneration_generationOf (occupant : ℕ) :
    nextGeneration (generationOf occupant) = generationOf (occupant + 1) := by
  have hmax : Words.max32 = 4294967295 := rfl
  rw [nextGeneration, generationOf, generationOf, if_neg (Nat.succ_ne_zero _),
    Nat.add_sub_cancel, Words.succ32, hmax]
  rcases Nat.eq_zero_or_pos occupant with rfl | hpos
  · rfl
  · obtain ⟨n, rfl⟩ : ∃ n, occupant = n + 1 := ⟨occupant - 1, by omega⟩
    rw [if_neg (Nat.succ_ne_zero _), Nat.add_sub_cancel]
    split_ifs <;> omega

/-- Among the first sessions of a slot the generation names the session. -/
theorem generationOf_injective {a b : ℕ} (hpos : 1 ≤ a) (hle : a ≤ b) (hmax : b ≤ Words.max32)
    (h : generationOf a = generationOf b) : a = b := by
  rw [generationOf, generationOf, if_neg (by omega), if_neg (by omega),
    Nat.mod_eq_of_lt (by omega), Nat.mod_eq_of_lt (by omega)] at h
  omega

section Stock

variable {server server' : SendServer} {h h' : SendHistory} {index : ℕ}

/-- The queue holds what was admitted and has not left, and generations count sessions. -/
structure Stocked (server : SendServer) (h : SendHistory) : Prop where
  ring : QueueHolds server ((h.admitted.drop h.retired).map SendBuffer.command)
  retired : h.retired ≤ h.admitted.length
  slots : h.occupants.length = server.sessions.length
  generation : ∀ slot, server.generation slot = generationOf (h.occupant slot)
  occupied : ∀ slot, server.occupied slot = true → 1 ≤ h.occupant slot
  buffers : ∀ buffer ∈ h.admitted, 1 ≤ buffer.occupant ∧
    buffer.occupant ≤ h.occupant buffer.command.sessionIndex ∧
      buffer.command.sessionGeneration = generationOf buffer.occupant

theorem stocked_create (config : SendConfig) :
    Stocked (SendServer.create config) (SendSystem.create config).history where
  ring := queueHolds_create config
  retired := le_rfl
  slots := by
    simp [SendSystem.create, create]
  generation := by
    intro slot
    by_cases hlt : slot < config.connectionCapacity
    · simp [generation, create, occupant, SendSystem.create,
        generationOf, SendSession.zero, hlt]
    · simp [generation, create, occupant, SendSystem.create,
        generationOf, hlt]
  occupied := by
    intro slot
    by_cases hlt : slot < config.connectionCapacity
    · simp [occupied, create, SendSession.zero, hlt]
    · simp [occupied, create, hlt]
  buffers := by
    intro buffer hbuf
    cases hbuf

theorem Stocked.same (hs : Stocked server h) (hsame : SameSessions server server')
    (hring : QueueHolds server' ((h.admitted.drop h.retired).map SendBuffer.command)) :
    Stocked server' h where
  ring := hring
  retired := hs.retired
  slots := hs.slots.trans hsame.length.symm
  generation := fun slot => (hsame.generation slot).trans (hs.generation slot)
  occupied := fun slot hslot => hs.occupied slot ((hsame.occupied slot).symm.trans hslot)
  buffers := hs.buffers

theorem Stocked.enqueue {data : List UInt8} {closeAfter : Bool} (hs : Stocked server h)
    (henqueue : enqueue server index data closeAfter = .queued server') :
    Stocked server' { h with
      admitted := h.admitted ++ [⟨⟨index, server.generation index, data, data.length, closeAfter⟩,
          h.occupant index⟩] } := by
  have hsame := SameSessions.enqueue henqueue
  obtain ⟨session, hslot, hqueues, rfl⟩ := enqueue_queued henqueue
  have hadmits : admits server session data.length = true := by
    rw [queues, hslot] at hqueues
    simpa using (Bool.and_eq_true _ _ ▸ hqueues).2
  obtain ⟨hact, -, hroom, hsize⟩ := admits_iff.mp hadmits
  rw [← generation_eq hslot] at *
  constructor
  · rw [drop_append_of_le_length hs.retired, map_append]
    exact hs.ring.push hroom hsize _
  · rw [length_append]
    exact hs.retired.trans (Nat.le_add_right _ _)
  · exact hs.slots.trans hsame.length.symm
  · exact fun slot => (hsame.generation slot).trans (hs.generation slot)
  · exact fun slot hocc => hs.occupied slot ((hsame.occupied slot).symm.trans hocc)
  · intro buffer hbuf
    rcases mem_append.mp hbuf with hold | hnew
    · exact hs.buffers buffer hold
    · rw [mem_singleton] at hnew
      subst hnew
      exact ⟨hs.occupied index ((occupied_eq hslot).trans hact), le_rfl, hs.generation index⟩

theorem Stocked.giveUp (hs : Stocked server h) : Stocked (Rtsp.giveUp server index) h := by
  rw [Rtsp.giveUp]
  cases hslot : server.sessions[index]? with
  | none => exact hs
  | some session =>
    dsimp only
    split_ifs with hact
    · exact hs
    · exact hs.same (.of_mark hslot rfl) (hs.ring.sessions _)

theorem occupant_set {slot : ℕ} (hlt : index < h.occupants.length) :
    ({ h with occupants := h.occupants.set index (h.occupant index + 1) } : SendHistory).occupant
      slot = if slot = index then h.occupant index + 1 else h.occupant slot := by
  rw [occupant, occupant]
  by_cases heq : slot = index
  · subst heq
    simp [hlt]
  · rw [if_neg heq, occupant, getD_eq_getElem?_getD,
      getElem?_set_ne (Ne.symm heq), getD_eq_getElem?_getD]

theorem Stocked.allocate {ioKind : IoKind} (hs : Stocked server h)
    (hallocate : allocate server ioKind = some (index, server')) :
    Stocked server' { h with occupants := h.occupants.set index (h.occupant index + 1) } := by
  obtain ⟨session, hslot, -, rfl⟩ := allocate_some hallocate
  have hlt : index < h.occupants.length := by
    rw [hs.slots]
    exact (List.getElem?_eq_some_iff.mp hslot).1
  have hgeneration := hs.generation index
  rw [generation_eq hslot] at hgeneration
  constructor
  · exact hs.ring.sessions _
  · exact hs.retired
  · simpa using hs.slots
  · intro slot
    rw [SendServer.generation, elim_set hslot, occupant_set hlt]
    split_ifs
    · change nextGeneration session.generation = _
      rw [hgeneration, nextGeneration_generationOf]
    · exact hs.generation slot
  · intro slot hocc
    rw [SendServer.occupied, elim_set hslot] at hocc
    rw [occupant_set hlt]
    split_ifs with heq
    · exact Nat.le_add_left _ _
    · rw [if_neg heq] at hocc
      exact hs.occupied slot hocc
  · intro buffer hbuf
    obtain ⟨hpos, hle, hgen⟩ := hs.buffers buffer hbuf
    refine ⟨hpos, ?_, hgen⟩
    rw [occupant_set hlt]
    split_ifs with heq
    · rw [heq] at hle
      exact hle.trans (Nat.le_succ _)
    · exact hle

theorem Stocked.vacate {session : SendSession} {next : SendSession} (hs : Stocked server h)
    (hslot : server.sessions[index]? = some session)
    (hnext : next.active = false ∧ next.generation = session.generation) :
    Stocked { server with sessions := server.sessions.set index next } h where
  ring := hs.ring.sessions _
  retired := hs.retired
  slots := by
    simpa using hs.slots
  generation := by
    intro slot
    rw [SendServer.generation, elim_set hslot, ← hs.generation slot]
    split_ifs with heq
    · rw [heq, generation_eq hslot, hnext.2]
    · rfl
  occupied := by
    intro slot hocc
    rw [SendServer.occupied, elim_set hslot] at hocc
    split_ifs at hocc with heq
    · rw [hnext.1] at hocc
      cases hocc
    · exact hs.occupied slot hocc
  buffers := hs.buffers

theorem SameSessions.popSend : SameSessions server (Rtsp.popSend server) := by
  apply SameSessions.of_eq
  rw [Rtsp.popSend]
  split_ifs
  · rfl
  · cases server.sendQueue[server.sendHead]? with
    | none => rfl
    | some command => rfl

theorem Stocked.sendCount_eq_zero (hs : Stocked server h) :
    server.sendCount = 0 ↔ h.retired = h.admitted.length := by
  have hcount := hs.ring.count
  have hle := hs.retired
  rw [length_map, length_drop] at hcount
  omega

theorem Stocked.pop (hs : Stocked server h) :
    Stocked (popSend server)
      { h with retired := h.retired + if server.sendCount = 0 then 0 else 1 } := by
  have hzero := hs.sendCount_eq_zero
  have hring := hs.ring
  split_ifs with hcount
  · have hnil : (h.admitted.drop h.retired).map SendBuffer.command = [] := by
      rw [hzero.mp hcount, drop_length, map_nil]
    have hpop : popSend server = server := by
      rw [hnil] at hring
      exact popSend_nil hring
    rw [hpop]
    exact hs
  · have hlt : h.retired < h.admitted.length :=
      lt_of_le_of_ne hs.retired (fun heq => hcount (hzero.mpr heq))
    rw [drop_eq_getElem_cons hlt, map_cons] at hring
    exact
      { ring := hring.pop
        retired := hlt
        slots := hs.slots.trans SameSessions.popSend.length.symm
        generation := fun slot => (SameSessions.popSend.generation slot).trans (hs.generation slot)
        occupied := fun slot hocc =>
          hs.occupied slot ((SameSessions.popSend.occupied slot).symm.trans hocc)
        buffers := hs.buffers }

end Stock

variable {s s' : SendSystem} {index : ℕ}

section Worker

/-- The buffer at the head is for the session in its slot. -/
def SendServer.live (server : SendServer) (buffer : SendBuffer) : Prop :=
  server.occupied buffer.command.sessionIndex = true ∧
    server.generation buffer.command.sessionIndex = buffer.command.sessionGeneration

def SendHistory.isHanded (h : SendHistory) (ticket : ℕ) : Prop :=
  ∃ call ∈ h.handed, call.ticket = ticket

/-- What the worker found out holds until it is done. -/
def WorkerSound (s : SendSystem) : Prop :=
  match s.worker with
  | .idle => True
  | .draining => True
  | .dropping => ∃ buffer, s.history.admitted[s.history.retired]? = some buffer ∧
      ¬ s.server.live buffer
  | .sending command => ∃ buffer, s.history.admitted[s.history.retired]? = some buffer ∧
      buffer.command = command ∧ s.server.live buffer
  | .popping _ => ∃ buffer, s.history.admitted[s.history.retired]? = some buffer ∧
      (s.history.isHanded s.history.retired ∨ s.server.sends buffer.command.sessionIndex = false)
  | .releasing index generation =>
    s.server.occupied index = false ∧ s.server.generation index = generation

theorem WorkerSound.same (h : WorkerSound s) (hsame : SameSessions s.server s'.server)
    (hwork : s'.worker = s.worker) (hretired : s'.history.retired = s.history.retired)
    (hcalls : s'.history.calls = s.history.calls)
    (hadm : ∃ more, s'.history.admitted = s.history.admitted ++ more) : WorkerSound s' := by
  obtain ⟨more, hadm⟩ := hadm
  have hget : ∀ {buffer}, s.history.admitted[s.history.retired]? = some buffer →
      s'.history.admitted[s'.history.retired]? = some buffer := by
    intro buffer hbuf
    have hlt := (List.getElem?_eq_some_iff.mp hbuf).1
    rw [hadm, hretired, getElem?_append_left hlt, hbuf]
  have hlive : ∀ buffer, s'.server.live buffer ↔ s.server.live buffer := by
    intro buffer
    rw [live, live, hsame.occupied, hsame.generation]
  have hhanded : ∀ ticket, s'.history.isHanded ticket ↔ s.history.isHanded ticket := by
    intro ticket
    rw [isHanded, handed, hcalls]
    rfl
  unfold WorkerSound at *
  rw [hwork]
  cases hw : s.worker with
  | idle | draining => trivial
  | dropping =>
    rw [hw] at h
    obtain ⟨buffer, hbuf, hstale⟩ := h
    exact ⟨buffer, hget hbuf, fun hl => hstale ((hlive buffer).mp hl)⟩
  | sending command =>
    rw [hw] at h
    obtain ⟨buffer, hbuf, hcmd, hl⟩ := h
    exact ⟨buffer, hget hbuf, hcmd, (hlive buffer).mpr hl⟩
  | popping failed =>
    rw [hw] at h
    obtain ⟨buffer, hbuf, hdone⟩ := h
    refine ⟨buffer, hget hbuf, ?_⟩
    rw [hretired, hhanded, hsame.sends]
    exact hdone
  | releasing index generation =>
    rw [hw] at h
    exact ⟨(hsame.occupied index).trans h.1, (hsame.generation index).trans h.2⟩

theorem queueHead_cases {server : SendServer} {h : SendHistory} (hs : Stocked server h) :
    (queueHead server = .empty ∧ h.retired = h.admitted.length) ∨
    (∃ buffer, h.admitted[h.retired]? = some buffer ∧ queueHead server = .stale ∧
      ¬ server.live buffer) ∨ (∃ buffer, h.admitted[h.retired]? = some buffer ∧
      queueHead server = .live buffer.command ∧ server.live buffer) := by
  by_cases hcount : server.sendCount = 0
  · exact .inl ⟨by rw [queueHead, if_pos hcount], hs.sendCount_eq_zero.mp hcount⟩
  have hlt : h.retired < h.admitted.length :=
    lt_of_le_of_ne hs.retired (fun heq => hcount (hs.sendCount_eq_zero.mpr heq))
  have hring := hs.ring
  rw [drop_eq_getElem_cons hlt, map_cons] at hring
  have hfirst := hring.first
  have hbuf : h.admitted[h.retired]? = some h.admitted[h.retired] :=
    getElem?_eq_getElem hlt
  generalize h.admitted[h.retired] = buffer at hfirst hbuf
  right
  have hhead : queueHead server = examine server buffer.command := by
    rw [queueHead, if_neg hcount, hfirst]
    rfl
  rw [examine] at hhead
  cases hslot : server.sessions[buffer.command.sessionIndex]? with
  | none =>
    rw [hslot] at hhead
    refine .inl ⟨buffer, hbuf, hhead, ?_⟩
    rintro ⟨hocc, -⟩
    rw [occupied, hslot] at hocc
    cases hocc
  | some session =>
    rw [hslot] at hhead
    dsimp only at hhead
    by_cases hstale : session.active = false ∨ session.generation ≠ buffer.command.sessionGeneration
    · rw [if_pos hstale] at hhead
      refine .inl ⟨buffer, hbuf, hhead, ?_⟩
      rintro ⟨hocc, hgen⟩
      rw [occupied_eq hslot] at hocc
      rw [generation_eq hslot] at hgen
      rcases hstale with hinactive | hother
      · rw [hinactive] at hocc
        cases hocc
      · exact hother hgen
    · rw [if_neg hstale] at hhead
      rw [not_or, Bool.not_eq_false, not_not] at hstale
      refine .inr ⟨buffer, hbuf, hhead, ?_, ?_⟩
      · exact (occupied_eq hslot).trans hstale.1
      · exact (generation_eq hslot).trans hstale.2

end Worker

section Calls

def Worker.passed : Worker → ℕ
  | .popping _ => 1
  | _ => 0

/-- What a step leaves as it was: histories grow; a session that is there after the step was
there before, unless it is a new one; and a buffer leaves the queue when it was handed over or
when there is no connection for it any more. -/
structure Later (s s' : SendSystem) : Prop where
  admitted : ∃ more, s'.history.admitted = s.history.admitted ++ more
  retired : s.history.retired ≤ s'.history.retired
  calls : ∃ more, s'.history.calls = s.history.calls ++ more
  occupant : ∀ slot, s.history.occupant slot ≤ s'.history.occupant slot
  session : ∀ slot, s'.server.occupied slot = true →
    s'.history.occupant slot = s.history.occupant slot →
      s.server.occupied slot = true ∧ s'.server.sends slot = s.server.sends slot
  left : ∀ ticket buffer, s.history.retired ≤ ticket → ticket < s'.history.retired →
    s.history.admitted[ticket]? = some buffer → s.history.isHanded ticket ∨ ¬ s.server.live buffer ∨
        s.server.sends buffer.command.sessionIndex = false

theorem Later.getElem? {ticket : ℕ} {buffer : SendBuffer} (h : Later s s')
    (hbuf : s.history.admitted[ticket]? = some buffer) :
    s'.history.admitted[ticket]? = some buffer := by
  obtain ⟨more, hmore⟩ := h.admitted
  rw [hmore, getElem?_append_left (List.getElem?_eq_some_iff.mp hbuf).1, hbuf]

theorem Later.isHanded {ticket : ℕ} (h : Later s s') (htick : s.history.isHanded ticket) :
    s'.history.isHanded ticket := by
  obtain ⟨more, hmore⟩ := h.calls
  obtain ⟨call, hcall, heq⟩ := htick
  refine ⟨call, ?_, heq⟩
  rw [handed, hmore, filter_append]
  exact mem_append_left _ hcall

theorem Later.of_same (hadm : ∃ more, s'.history.admitted = s.history.admitted ++ more)
    (hretired : s'.history.retired = s.history.retired)
    (hcalls : ∃ more, s'.history.calls = s.history.calls ++ more)
    (hoccupants : s'.history.occupants = s.history.occupants)
    (hsame : ∀ slot, s'.server.occupied slot = true →
      s.server.occupied slot = true ∧ s'.server.sends slot = s.server.sends slot) :
    Later s s' where
  admitted := hadm
  retired := hretired.ge
  calls := hcalls
  occupant := fun slot => by rw [SendHistory.occupant, SendHistory.occupant, hoccupants]
  session := fun slot hocc _ => hsame slot hocc
  left := by
    intro ticket buffer hle hlt
    omega

/-- Every call is for the buffer at its place and for a session of the buffer's generation. -/
structure CallsSound (s : SendSystem) : Prop where
  placed : ∀ call ∈ s.history.calls, ∃ buffer occupant,
    s.history.admitted[call.ticket]? = some buffer ∧ call.occupant = some occupant ∧
      call.slot = buffer.command.sessionIndex ∧ call.data = buffer.command.data ∧
        generationOf buffer.occupant = generationOf occupant ∧
          1 ≤ buffer.occupant ∧ buffer.occupant ≤ occupant
  reached : ∀ call ∈ s.history.calls, call.ticket ≤ s.history.retired
  settled : ∀ call ∈ s.history.handed, call.ticket < s.history.retired + s.worker.passed
  order : InOrder s

theorem CallsSound.later (h : CallsSound s) (hlater : Later s s')
    (hcalls : s'.history.calls = s.history.calls)
    (hpass : s.history.retired + s.worker.passed ≤ s'.history.retired + s'.worker.passed) :
    CallsSound s' := by
  have hhanded : s'.history.handed = s.history.handed := by
    rw [handed, handed, hcalls]
  constructor
  · rw [hcalls]
    intro call hcall
    obtain ⟨buffer, occupant, hbuf, hrest⟩ := h.placed call hcall
    exact ⟨buffer, occupant, hlater.getElem? hbuf, hrest⟩
  · rw [hcalls]
    exact fun call hcall => (h.reached call hcall).trans hlater.retired
  · rw [hhanded]
    exact fun call hcall => (h.settled call hcall).trans_le hpass
  · constructor
    · rw [hcalls]
      exact h.order.calls
    · rw [hhanded]
      exact h.order.handed

theorem CallsSound.send {buffer : SendBuffer} {occupant : ℕ} {closing : Bool} {status : SendStatus}
    {worker : Worker} (h : CallsSound s)
    (hbuf : s.history.admitted[s.history.retired]? = some buffer) (hwork : s.worker.passed = 0)
    (hgeneration : generationOf buffer.occupant = generationOf occupant)
    (hpos : 1 ≤ buffer.occupant) (hle : buffer.occupant ≤ occupant)
    (hpass : status ≠ .busy → worker.passed = 1) :
    CallsSound { s with
        worker := worker
        history := { s.history with
          calls := s.history.calls ++
            [⟨s.history.retired, buffer.command.sessionIndex, some occupant, buffer.command.data,
              closing, status⟩] } } := by
  have hset := h.settled
  rw [hwork, Nat.add_zero] at hset
  constructor
  · intro call hcall
    rcases mem_append.mp hcall with hold | hnew
    · exact h.placed call hold
    · rw [mem_singleton] at hnew
      subst hnew
      exact ⟨buffer, occupant, hbuf, rfl, rfl, rfl, hgeneration, hpos, hle⟩
  · intro call hcall
    rcases mem_append.mp hcall with hold | hnew
    · exact h.reached call hold
    · rw [mem_singleton] at hnew
      subst hnew
      exact le_rfl
  · intro call hcall
    rw [handed, filter_append] at hcall
    rcases mem_append.mp hcall with hold | hnew
    · exact (hset call hold).trans_le (Nat.le_add_right _ _)
    · obtain ⟨hmem, hstat⟩ := mem_filter.mp hnew
      rw [mem_singleton] at hmem
      subst hmem
      have hpass' := hpass (of_decide_eq_true hstat)
      change s.history.retired < s.history.retired + worker.passed
      omega
  · constructor
    · refine pairwise_append.mpr ⟨h.order.calls, pairwise_singleton _ _, ?_⟩
      intro a ha b hb
      rw [mem_singleton] at hb
      subst hb
      exact h.reached a ha
    · rw [handed, filter_append]
      refine pairwise_append.mpr ⟨h.order.handed, ?_, ?_⟩
      · exact (pairwise_singleton _ _).filter _
      · intro a ha b hb
        have hmem := (mem_filter.mp hb).1
        rw [mem_singleton] at hmem
        subst hmem
        exact hset a ha

end Calls

section Marks

variable {mark : CloseMark}

/-- At most one buffer is owed to the marked session; as long as the session is there, the
buffer is queued or was handed over, and no other of the session is queued before it. -/
structure MarkSound (s : SendSystem) (mark : CloseMark) : Prop where
  past : mark.occupant ≤ s.history.occupant mark.slot
  owed : ∀ ticket ∈ mark.owed, ∃ buffer, s.history.admitted[ticket]? = some buffer ∧
    buffer.command.sessionIndex = mark.slot ∧
      buffer.command.sessionGeneration = generationOf mark.occupant
  single : ∀ ticket ∈ mark.owed, ∀ other ∈ mark.owed, other = ticket
  followed : ∀ ticket ∈ mark.owed, s.server.occupied mark.slot = true →
    s.history.occupant mark.slot = mark.occupant → s.server.sends mark.slot = true →
      s.history.retired ≤ ticket ∨ s.history.isHanded ticket
  older : ∀ ticket ∈ mark.owed, ∀ other buffer, other < ticket → s.history.retired ≤ other →
    ¬ s.history.isHanded other → s.history.admitted[other]? = some buffer →
      buffer.command.sessionIndex = mark.slot →
        buffer.command.sessionGeneration = generationOf mark.occupant → other ∈ mark.owed

theorem MarkSound.later (h : MarkSound s mark) (hs : Stocked s.server s.history)
    (hlater : Later s s') :
    MarkSound s' mark where
  past := h.past.trans (hlater.occupant _)
  owed := by
    intro ticket htick
    obtain ⟨buffer, hbuf, hrest⟩ := h.owed ticket htick
    exact ⟨buffer, hlater.getElem? hbuf, hrest⟩
  single := h.single
  followed := by
    intro ticket htick hocc hoccupant hsends
    have hle := hlater.occupant mark.slot
    have hpast := h.past
    have hsame : s.history.occupant mark.slot = mark.occupant := by omega
    obtain ⟨hocc₀, hsends₀⟩ := hlater.session mark.slot hocc (by omega)
    rw [hsends₀] at hsends
    obtain ⟨buffer, hbuf, hslot, hgen⟩ := h.owed ticket htick
    rcases h.followed ticket htick hocc₀ hsame hsends with hwaits | hhanded
    · by_cases hlt : ticket < s'.history.retired
      · right
        rcases hlater.left ticket buffer hwaits hlt hbuf with hhanded | hgone | hmute
        · exact hlater.isHanded hhanded
        · refine absurd ⟨hslot ▸ hocc₀, ?_⟩ hgone
          rw [hslot, hs.generation, hsame, hgen]
        · rw [hslot, hsends] at hmute
          cases hmute
      · exact .inl (not_lt.mp hlt)
    · exact .inr (hlater.isHanded hhanded)
  older := by
    intro ticket htick other buffer hlt hretired hhanded hbuf hslot hgen
    obtain ⟨_, hat, -⟩ := h.owed ticket htick
    have hlen := (List.getElem?_eq_some_iff.mp hat).1
    obtain ⟨more, hmore⟩ := hlater.admitted
    rw [hmore, getElem?_append_left (hlt.trans hlen)] at hbuf
    exact h.older ticket htick other buffer hlt (hlater.retired.trans hretired)
      (fun hh => hhanded (hlater.isHanded hh)) hbuf hslot hgen

theorem mem_waiting {slot ticket : ℕ} :
    ticket ∈ s.waiting slot ↔
      ∃ buffer, s.history.admitted[ticket]? = some buffer ∧ s.history.retired ≤ ticket ∧
        ¬ s.history.isHanded ticket ∧ buffer.command.sessionIndex = slot ∧
          buffer.command.sessionGeneration = s.server.generation slot := by
  rw [SendSystem.waiting, mem_filter, mem_range, SendSystem.waits]
  cases hbuf : s.history.admitted[ticket]? with
  | none => simp
  | some buffer =>
    have hlt := (List.getElem?_eq_some_iff.mp hbuf).1
    simp [isHanded, hlt, and_assoc]

theorem markSound_new {slot : ℕ} (handed : ℕ) (hs : Stocked s.server s.history)
    (hshort : (s.waiting slot).length ≤ 1) :
    MarkSound s ⟨slot, s.history.occupant slot, handed, s.waiting slot⟩ where
  past := le_rfl
  owed := by
    intro ticket htick
    obtain ⟨buffer, hbuf, -, -, hslot, hgen⟩ := mem_waiting.mp htick
    exact ⟨buffer, hbuf, hslot, hgen.trans (hs.generation slot)⟩
  single := by
    intro ticket htick other hother
    obtain ⟨i, hi, rfl⟩ := getElem_of_mem htick
    obtain ⟨j, hj, rfl⟩ := getElem_of_mem hother
    congr 1
    dsimp only at hi hj
    omega
  followed := by
    intro ticket htick _ _ _
    obtain ⟨_, _, hle, _⟩ := mem_waiting.mp htick
    exact .inl hle
  older := by
    intro ticket _ other buffer _ hle hhanded hbuf hslot hgen
    exact mem_waiting.mpr ⟨buffer, hbuf, hle, hhanded, hslot, hgen.trans (hs.generation slot).symm⟩

/-- The marks of a state. -/
structure MarksSound (s : SendSystem) : Prop where
  marks : ∀ mark ∈ s.history.marks, MarkSound s mark
  flushed : Flushed s

theorem MarksSound.later (h : MarksSound s) (hs : Stocked s.server s.history) (hlater : Later s s')
    (hcalls : s'.history.calls = s.history.calls) (hmarks : s'.history.marks = s.history.marks) :
    MarksSound s' where
  marks := by
    rw [hmarks]
    exact fun mark hmark => (h.marks mark hmark).later hs hlater
  flushed := by
    rw [Flushed, handed, hmarks, hcalls]
    exact h.flushed

/-- A new mark asks nothing of the buffers that were handed over before it. -/
theorem MarksSound.note {slot : ℕ} (h : MarksSound s) (hs : Stocked s.server s.history)
    (hshort : (s.waiting slot).length ≤ 1) :
    MarksSound { s with
      history := { s.history with
        marks := s.history.marks ++
          [⟨slot, s.history.occupant slot, s.history.handed.length, s.waiting slot⟩] } } where
  marks := by
    intro mark hmark
    rcases mem_append.mp hmark with hold | hnew
    · have hmark := h.marks mark hold
      exact ⟨hmark.past, hmark.owed, hmark.single, hmark.followed, hmark.older⟩
    · rw [mem_singleton] at hnew
      subst hnew
      have hmark := markSound_new s.history.handed.length hs hshort
      exact ⟨hmark.past, hmark.owed, hmark.single, hmark.followed, hmark.older⟩
  flushed := by
    intro mark hmark before call after hsplit hle
    rcases mem_append.mp hmark with hold | hnew
    · exact h.flushed mark hold before call after hsplit hle
    · rw [mem_singleton] at hnew
      subst hnew
      have hlen := congrArg List.length hsplit
      change s.history.handed.length = _ at hlen
      rw [length_append, length_cons] at hlen
      dsimp only at hle
      omega

/-- The head is handed over: what is owed is the head itself, or was handed over. -/
theorem MarksSound.send
    {buffer : SendBuffer} {closing : Bool} {status : SendStatus} {worker : Worker}
    (h : MarksSound s) (hs : Stocked s.server s.history) (hc : CallsSound s)
    (hbuf : s.history.admitted[s.history.retired]? = some buffer) (hwork : s.worker.passed = 0)
    (hlive : s.server.live buffer) (hsends : s.server.sends buffer.command.sessionIndex = true) :
    MarksSound { s with
        worker := worker
        history := { s.history with
          calls := s.history.calls ++ [⟨s.history.retired, buffer.command.sessionIndex,
              some (s.history.occupant buffer.command.sessionIndex), buffer.command.data,
              closing, status⟩] } } where
  marks := by
    intro mark hmark
    refine (h.marks mark hmark).later hs
      (Later.of_same ⟨[], (append_nil _).symm⟩ rfl ⟨_, rfl⟩ rfl (fun _ hocc => ⟨hocc, rfl⟩))
  flushed := by
    intro mark hmark before call after hsplit hle hslot hoccupant hclos ticket htick
    rw [handed, filter_append] at hsplit
    by_cases hbusy : status = .busy
    · rw [filter_cons_of_neg (by simp [hbusy]), filter_nil, append_nil] at hsplit
      exact h.flushed mark hmark before call after hsplit hle hslot hoccupant hclos ticket
        htick
    rw [filter_cons_of_pos (by simp [hbusy]), filter_nil] at hsplit
    rcases eq_nil_or_concat after with rfl | ⟨rest, last, rfl⟩
    · obtain ⟨hbef, hcall⟩ := append_inj' hsplit rfl
      rw [cons.injEq] at hcall
      obtain ⟨rfl, -⟩ := hcall
      have hmarkSound := h.marks mark hmark
      have hocc : s.history.occupant mark.slot = mark.occupant := by
        rw [← hslot]
        exact some.inj hoccupant
      have hgen : buffer.command.sessionGeneration = generationOf mark.occupant := by
        rw [← hlive.2, hs.generation, ← hocc, ← hslot]
      have hset : ¬ s.history.isHanded s.history.retired := by
        rintro ⟨earlier, hearlier, heq⟩
        have hlt := hc.settled earlier hearlier
        rw [hwork] at hlt
        omega
      have hfollowed := hmarkSound.followed ticket htick (hslot ▸ hlive.1) hocc (hslot ▸ hsends)
      rcases hfollowed with hwaits | ⟨earlier, hearlier, heq⟩
      · left
        rcases hwaits.eq_or_lt with heq | hlt
        · exact heq.symm
        · exact (hmarkSound.single ticket htick _ (hmarkSound.older ticket htick
            s.history.retired buffer hlt le_rfl hset hbuf hslot hgen)).symm
      · right
        exact ⟨earlier, hbef ▸ hearlier, heq⟩
    · have hold : s.history.handed = before ++ call :: rest := by
        have hassoc : before ++ call :: (rest ++ [last]) = (before ++ call :: rest) ++ [last] := by
          simp
        rw [concat_eq_append, hassoc] at hsplit
        exact (append_inj' hsplit rfl).1
      exact h.flushed mark hmark before call rest hold hle hslot hoccupant hclos ticket htick

end Marks

section Steps

structure SendSound (s : SendSystem) : Prop where
  stocked : Stocked s.server s.history
  worker : WorkerSound s
  calls : CallsSound s

/-- What a step keeps; the marks when it meets the condition. -/
structure StepKeeps (s s' : SendSystem) (condition : Prop) : Prop where
  sound : SendSound s'
  marks : condition → MarksSound s → MarksSound s'

theorem StepKeeps.refl {condition : Prop} (h : SendSound s) : StepKeeps s s condition :=
  ⟨h, fun _ hm => hm⟩

theorem SendSound.keeps {condition : Prop} (h : SendSound s)
    (hstocked : Stocked s'.server s'.history) (hwork : WorkerSound s') (hlater : Later s s')
    (hcalls : s'.history.calls = s.history.calls) (hmarks : s'.history.marks = s.history.marks)
    (hpass : s.history.retired + s.worker.passed ≤ s'.history.retired + s'.worker.passed) :
    StepKeeps s s' condition :=
  ⟨⟨hstocked, hwork, h.calls.later hlater hcalls hpass⟩,
    fun _ hm => hm.later h.stocked hlater hcalls hmarks⟩

theorem SendSound.keeps_same {condition : Prop} (h : SendSound s)
    (hstocked : Stocked s'.server s'.history) (hsame : SameSessions s.server s'.server)
    (hwork : s'.worker = s.worker) (hretired : s'.history.retired = s.history.retired)
    (hcalls : s'.history.calls = s.history.calls) (hmarks : s'.history.marks = s.history.marks)
    (hoccupants : s'.history.occupants = s.history.occupants)
    (hadm : ∃ more, s'.history.admitted = s.history.admitted ++ more) :
    StepKeeps s s' condition := by
  refine h.keeps hstocked (h.worker.same hsame hwork hretired hcalls hadm) ?_ hcalls
    hmarks (by rw [hretired, hwork])
  refine Later.of_same hadm hretired ⟨[], by rw [hcalls, append_nil]⟩ hoccupants ?_
  intro slot hocc
  exact ⟨(hsame.occupied slot).symm.trans hocc, hsame.sends slot⟩

theorem StepKeeps.note {before : SendSystem} {condition condition' : Prop}
    (h : StepKeeps s s' condition) (hcondition : condition' → condition)
    (hshort : condition' → before.server.flagged index = false →
      s'.server.flagged index = true → (s'.waiting index).length ≤ 1) :
    StepKeeps s (before.noteMark s' index) condition' := by
  obtain ⟨⟨hstocked, hwork, hcalls⟩, hmarks⟩ := h
  rw [SendSystem.noteMark]
  split_ifs with hflag
  · refine ⟨⟨⟨hstocked.ring, hstocked.retired, hstocked.slots, hstocked.generation,
      hstocked.occupied, hstocked.buffers⟩, hwork, ⟨hcalls.placed, hcalls.reached,
      hcalls.settled, ⟨hcalls.order.calls, hcalls.order.handed⟩⟩⟩, ?_⟩
    exact fun hc hm => (hmarks (hcondition hc) hm).note hstocked (hshort hc hflag.1 hflag.2)
  · exact ⟨⟨hstocked, hwork, hcalls⟩, fun hc hm => hmarks (hcondition hc) hm⟩

theorem waits_same {slot ticket : ℕ} (hsame : SameSessions s.server s'.server)
    (hretired : s'.history.retired = s.history.retired)
    (hcalls : s'.history.calls = s.history.calls)
    (hget : s'.history.admitted[ticket]? = s.history.admitted[ticket]?) :
    s'.waits slot ticket = s.waits slot ticket := by
  simp [SendSystem.waits, handed, hretired, hcalls, hget, hsame.generation]

theorem SendSound.enqueue {data : List UInt8} {closeAfter : Bool} (h : SendSound s) :
    StepKeeps s (s.enqueue index data closeAfter)
      (MarkedLast s (.enqueue index data closeAfter)) := by
  rw [SendSystem.enqueue]
  cases henqueue : Rtsp.enqueue s.server index data closeAfter with
  | refused | direct => exact .refl h
  | queued server =>
    have hsame := SameSessions.enqueue henqueue
    have hkeeps : StepKeeps s
        ⟨server, s.worker, { s.history with
          admitted := s.history.admitted ++
            [⟨⟨index, s.server.generation index, data, data.length, closeAfter⟩,
              s.history.occupant index⟩] }⟩ True :=
      h.keeps_same (h.stocked.enqueue henqueue) hsame rfl rfl rfl rfl rfl ⟨_, rfl⟩
    refine hkeeps.note (fun _ => trivial) ?_
    intro hcondition hbef hafter
    obtain ⟨session, hslot, hqueues, hserver⟩ := enqueue_queued henqueue
    have hclose : closeAfter = true := by
      by_contra hfalse
      rw [Bool.not_eq_true] at hfalse
      subst hfalse
      rw [hserver] at hafter
      exact absurd (hbef.symm.trans hafter) Bool.false_ne_true
    have hempty := hcondition hclose hqueues hbef
    rw [SendSystem.waiting] at hempty ⊢
    rw [length_append, length_singleton, range_succ, filter_append]
    have hold : (List.range s.history.admitted.length).filter
        (SendSystem.waits ⟨server, s.worker, { s.history with
          admitted := s.history.admitted ++
            [⟨⟨index, s.server.generation index, data, data.length, closeAfter⟩,
              s.history.occupant index⟩] }⟩ index) = [] := by
      rw [← hempty]
      apply filter_congr
      intro ticket htick
      exact waits_same hsame rfl rfl (getElem?_append_left (mem_range.mp htick))
    rw [hold, nil_append]
    exact length_filter_le _ _

theorem giveUp_same {server : SendServer} : SameSessions server (giveUp server index) := by
  rw [giveUp]
  cases hslot : server.sessions[index]? with
  | none => exact .of_eq rfl
  | some session =>
    dsimp only
    split_ifs
    · exact .of_eq rfl
    · exact .of_mark hslot rfl

theorem giveUp_flagged {server : SendServer} (hbef : server.flagged index = false)
    (hafter : (giveUp server index).flagged index = true) : server.occupied index = true := by
  rw [giveUp] at hafter
  cases hslot : server.sessions[index]? with
  | none =>
    rw [hslot] at hafter
    exact absurd (hbef.symm.trans hafter) Bool.false_ne_true
  | some session =>
    rw [hslot] at hafter
    dsimp only at hafter
    by_cases hact : session.active = false
    · rw [if_pos hact] at hafter
      exact absurd (hbef.symm.trans hafter) Bool.false_ne_true
    · rw [occupied_eq hslot]
      exact Bool.not_eq_false _ ▸ hact

variable (h : SendSound s)
include h

theorem SendSound.giveUp (hidle : s.worker = .idle) :
    StepKeeps s (s.giveUp index) (MarkedLast s (.giveUp index)) := by
  rw [SendSystem.giveUp]
  have hsame : SameSessions s.server (Rtsp.giveUp s.server index) := giveUp_same
  have hkeeps : StepKeeps s { s with server := Rtsp.giveUp s.server index } True :=
    h.keeps_same h.stocked.giveUp hsame rfl rfl rfl rfl rfl ⟨[], (append_nil _).symm⟩
  refine hkeeps.note (fun _ => trivial) ?_
  intro hcondition hbef hafter
  have hshort := hcondition hidle (giveUp_flagged hbef hafter) hbef
  have hwaiting : SendSystem.waiting { s with server := Rtsp.giveUp s.server index } index =
      s.waiting index := by
    rw [SendSystem.waiting, SendSystem.waiting]
    apply filter_congr
    intro ticket _
    exact waits_same hsame rfl rfl rfl
  rw [hwaiting]
  exact hshort

theorem SendSound.allocate {ioKind : IoKind} {condition : Prop}
    (hidle : s.worker = .idle) : StepKeeps s (s.allocate ioKind) condition := by
  rw [SendSystem.allocate]
  cases hallocate : Rtsp.allocate s.server ioKind with
  | none => exact .refl h
  | some given =>
    obtain ⟨index, server⟩ := given
    have hstocked := h.stocked.allocate hallocate
    obtain ⟨session, hslot, -, rfl⟩ := allocate_some hallocate
    have hlt : index < s.history.occupants.length := by
      rw [h.stocked.slots]
      exact (List.getElem?_eq_some_iff.mp hslot).1
    refine h.keeps hstocked ?_ ?_ rfl rfl le_rfl
    · rw [WorkerSound, hidle]
      trivial
    · constructor
      · exact ⟨[], (append_nil _).symm⟩
      · exact le_rfl
      · exact ⟨[], (append_nil _).symm⟩
      · intro slot
        rw [occupant_set hlt]
        split_ifs with heq
        · exact heq ▸ Nat.le_succ _
        · exact le_rfl
      · intro slot hocc hoccupant
        rw [occupant_set hlt] at hoccupant
        split_ifs at hoccupant with heq
        · rw [heq] at hoccupant
          omega
        · rw [occupied, elim_set hslot, if_neg heq] at hocc
          refine ⟨hocc, ?_⟩
          rw [sends, elim_set hslot, if_neg heq, sends]
      · intro ticket buffer hle hlt'
        dsimp only at hlt'
        omega

theorem SendSound.vacate {session next : SendSession} {worker : Worker} {condition : Prop}
    (hslot : s.server.sessions[index]? = some session)
    (hnext : next.active = false ∧ next.generation = session.generation)
    (hwork : WorkerSound
      { s with
        server := { s.server with sessions := s.server.sessions.set index next }
        worker := worker }) (hpass : s.worker.passed ≤ worker.passed) :
    StepKeeps s
      { s with
        server := { s.server with sessions := s.server.sessions.set index next }
        worker := worker }
      condition := by
  refine h.keeps (h.stocked.vacate hslot hnext) hwork ?_ rfl rfl (Nat.add_le_add_left hpass _)
  refine Later.of_same ⟨[], (append_nil _).symm⟩ rfl ⟨[], (append_nil _).symm⟩ rfl ?_
  intro slot hocc
  rw [occupied, elim_set hslot] at hocc
  split_ifs at hocc with heq
  · rw [hnext.1] at hocc
    cases hocc
  · refine ⟨hocc, ?_⟩
    rw [sends, elim_set hslot, if_neg heq, sends]

theorem SendSound.release {condition : Prop} (hidle : s.worker = .idle) :
    StepKeeps s (s.release index) condition := by
  rw [SendSystem.release]
  cases hrel : releaseBegin s.server index with
  | none => exact .refl h
  | some given =>
    obtain ⟨generation, server⟩ := given
    obtain ⟨session, hslot, -, rfl, rfl⟩ := releaseBegin_some hrel
    refine h.vacate hslot ⟨rfl, rfl⟩ ?_ ?_
    · change _ ∧ _
      rw [occupied, generation, elim_set hslot, elim_set hslot]
      simp
    · rw [hidle]
      exact le_rfl

theorem SendSound.pop {worker : Worker} {buffer : SendBuffer} {condition : Prop}
    (hbuf : s.history.admitted[s.history.retired]? = some buffer)
    (hdone : s.history.isHanded s.history.retired ∨ ¬ s.server.live buffer ∨
      s.server.sends buffer.command.sessionIndex = false)
    (hwork : worker = .idle ∨ worker = .draining) (hpass : s.worker.passed ≤ 1) :
    StepKeeps s (s.pop worker) condition := by
  have hlt := (List.getElem?_eq_some_iff.mp hbuf).1
  have hcount : s.server.sendCount ≠ 0 := by
    intro hzero
    have heq := h.stocked.sendCount_eq_zero.mp hzero
    omega
  have hretired : (s.pop worker).history.retired = s.history.retired + 1 := by
    change s.history.retired + (if s.server.sendCount = 0 then 0 else 1) = _
    rw [if_neg hcount]
  refine h.keeps h.stocked.pop ?_ ?_ rfl rfl ?_
  · rcases hwork with rfl | rfl
    · trivial
    · trivial
  · constructor
    · exact ⟨[], (append_nil _).symm⟩
    · rw [hretired]
      exact Nat.le_succ _
    · exact ⟨[], (append_nil _).symm⟩
    · exact fun _ => le_rfl
    · intro slot hocc _
      exact ⟨(SameSessions.popSend.occupied slot).symm.trans hocc, SameSessions.popSend.sends slot⟩
    · intro ticket other hle hlt' hother
      rw [hretired] at hlt'
      obtain rfl : ticket = s.history.retired := by omega
      rw [hbuf, some.injEq] at hother
      subst hother
      exact hdone
  · rw [hretired]
    omega

omit h

theorem sends_eq {server : SendServer} {session : SendSession}
    (hslot : server.sessions[index]? = some session) :
    server.sends index = decide (session.ioKind = .stream ∨ session.ioKind = .packet) := by
  rw [sends, hslot]
  rfl

theorem SendSound.send {buffer : SendBuffer} {status : SendStatus} {condition : Prop}
    (h : SendSound s) (hbuf : s.history.admitted[s.history.retired]? = some buffer)
    (hlive : s.server.live buffer) (hwork : s.worker.passed = 0) :
    StepKeeps s (s.send buffer.command status) condition := by
  have hmem := mem_of_getElem? hbuf
  obtain ⟨hpos, hle, hgen⟩ := h.stocked.buffers buffer hmem
  have hgeneration : generationOf buffer.occupant =
      generationOf (s.history.occupant buffer.command.sessionIndex) := by
    rw [← hgen, ← hlive.2, h.stocked.generation]
  rw [SendSystem.send.eq_def]
  cases hslot : s.server.sessions[buffer.command.sessionIndex]? with
  | none => exact .refl h
  | some session =>
    have hact : session.active = true := (occupied_eq hslot).symm.trans hlive.1
    have hsends := sends_eq hslot
    dsimp only
    rw [hact, if_pos rfl]
    split_ifs with hkind
    · rw [decide_eq_true hkind] at hsends
      refine ⟨⟨?_, ?_, ?_⟩, ?_⟩
      · exact ⟨h.stocked.ring, h.stocked.retired, h.stocked.slots, h.stocked.generation,
          h.stocked.occupied, h.stocked.buffers⟩
      · have hhanded : status ≠ .busy → isHanded
            { s.history with
              calls := s.history.calls ++ [⟨s.history.retired, buffer.command.sessionIndex,
                  some (s.history.occupant buffer.command.sessionIndex), buffer.command.data,
                  buffer.command.closeAfter || session.closeAfterFlush, status⟩] }
            s.history.retired := by
          intro hbusy
          refine ⟨_, mem_filter.mpr ⟨mem_append_right _ mem_cons_self, ?_⟩, rfl⟩
          exact decide_eq_true hbusy
        cases status with
        | ok | failed => exact ⟨buffer, hbuf, .inl (hhanded SendStatus.noConfusion)⟩
        | busy => trivial
      · apply h.calls.send hbuf hwork hgeneration hpos hle
        cases status with
        | ok | failed => exact fun _ => rfl
        | busy => exact fun hbusy => absurd rfl hbusy
      · exact fun _ hm => hm.send h.stocked h.calls hbuf hwork hlive hsends
    · rw [decide_eq_false hkind] at hsends
      refine h.keeps h.stocked ⟨buffer, hbuf, .inr hsends⟩ ?_ rfl rfl ?_
      · exact Later.of_same ⟨[], (append_nil _).symm⟩ rfl
          ⟨[], (append_nil _).symm⟩ rfl (fun _ hocc => ⟨hocc, rfl⟩)
      · rw [hwork]
        exact Nat.add_le_add_left (Nat.zero_le _) _

theorem SendSound.move {worker : Worker} {condition : Prop} (h : SendSound s)
    (hwork : WorkerSound { s with worker := worker }) (hpass : s.worker.passed = 0) :
    StepKeeps s { s with worker := worker } condition := by
  refine h.keeps h.stocked hwork ?_ rfl rfl ?_
  · exact Later.of_same ⟨[], (append_nil _).symm⟩ rfl ⟨[], (append_nil _).symm⟩ rfl
      (fun _ hocc => ⟨hocc, rfl⟩)
  · rw [hpass]
    exact Nat.add_le_add_left (Nat.zero_le _) _

theorem SendSound.advance {status : SendStatus} {condition : Prop} (h : SendSound s) :
    StepKeeps s (s.advance status) condition := by
  have hwork := h.worker
  rw [WorkerSound] at hwork
  rw [SendSystem.advance]
  cases hw : s.worker with
  | idle => exact .refl h
  | draining =>
    rcases queueHead_cases h.stocked with ⟨hhead, -⟩ | ⟨buffer, hbuf, hhead, hstale⟩ |
      ⟨buffer, hbuf, hhead, hlive⟩
    · rw [hhead]
      exact h.move trivial (by rw [hw]; rfl)
    · rw [hhead]
      exact h.move ⟨buffer, hbuf, hstale⟩ (by rw [hw]; rfl)
    · rw [hhead]
      exact h.move ⟨buffer, hbuf, rfl, hlive⟩ (by rw [hw]; rfl)
  | dropping =>
    rw [hw] at hwork
    obtain ⟨buffer, hbuf, hstale⟩ := hwork
    exact h.pop hbuf (.inr (.inl hstale)) (.inr rfl) (by rw [hw]; exact Nat.zero_le _)
  | sending command =>
    rw [hw] at hwork
    obtain ⟨buffer, hbuf, rfl, hlive⟩ := hwork
    exact h.send hbuf hlive (by rw [hw]; rfl)
  | popping failed =>
    rw [hw] at hwork
    obtain ⟨buffer, hbuf, hdone⟩ := hwork
    refine h.pop hbuf ?_ ?_ (by rw [hw]; exact le_rfl)
    · exact hdone.imp_right .inr
    · cases failed with
      | false => exact .inr rfl
      | true => exact .inl rfl
  | releasing index generation =>
    rw [hw] at hwork
    obtain ⟨hocc, hgen⟩ := hwork
    dsimp only [releaseEnd]
    cases hslot : s.server.sessions[index]? with
    | none =>
      have hnone : s.server.sessions.set index
          { SendSession.zero with generation := generation } = s.server.sessions :=
        set_eq_of_length_le (getElem?_eq_none_iff.mp hslot)
      rw [hnone]
      exact h.move trivial (by rw [hw]; rfl)
    | some session =>
      rw [generation_eq hslot] at hgen
      exact h.vacate hslot ⟨rfl, hgen.symm⟩ trivial (by rw [hw]; exact le_rfl)

theorem SendSound.step (h : SendSound s) (op : SendOp) :
    StepKeeps s (s.step op) (MarkedLast s op) := by
  cases op with
  | enqueue index data closeAfter => exact h.enqueue
  | stop =>
    exact h.keeps_same (h.stocked.same (.of_eq rfl) h.stocked.ring.stop) (.of_eq rfl) rfl rfl
      rfl rfl rfl ⟨[], (append_nil _).symm⟩
  | allocate ioKind =>
    rw [SendSystem.step]
    split_ifs with hidle
    · exact h.allocate hidle
    · exact .refl h
  | release index =>
    rw [SendSystem.step]
    split_ifs with hidle
    · exact h.release hidle
    · exact .refl h
  | giveUp index =>
    rw [SendSystem.step]
    split_ifs with hidle
    · exact h.giveUp hidle
    · exact .refl h
  | drain =>
    rw [SendSystem.step]
    split_ifs with hidle
    · exact h.move trivial (by rw [hidle]; rfl)
    · exact .refl h
  | advance status => exact h.advance

end Steps

theorem SendSound.create (config : SendConfig) :
    SendSound (SendSystem.create config) where
  stocked := stocked_create config
  worker := trivial
  calls := by
    constructor
    · intro call hcall
      cases hcall
    · intro call hcall
      cases hcall
    · intro call hcall
      cases hcall
    · exact ⟨.nil, .nil⟩

theorem MarksSound.create (config : SendConfig) :
    MarksSound (SendSystem.create config) where
  marks := by
    intro mark hmark
    cases hmark
  flushed := by
    intro mark hmark
    cases hmark

theorem SendSound.accounted (h : SendSound s) :
    Accounted s where
  bytes := by
    rw [h.stocked.ring.queued]
    exact h.stocked.ring.bytes
  bounded := h.stocked.ring.bounded

theorem SendSound.forOwnSession (h : SendSound s) : ForOwnSession s := by
  intro call hcall
  obtain ⟨buffer, occupant, hbuf, hoccupant, hslot, hdata, hgen, hpos, hle⟩ :=
    h.calls.placed call hcall
  exact ⟨buffer, occupant, hbuf, hoccupant, hslot, hdata,
    fun hmax => generationOf_injective hpos hle hmax hgen⟩

/-- What holds of the queue in every state. -/
structure QueueSafe (s : SendSystem) : Prop where
  accounted : Accounted s
  firstInFirstOut : FirstInFirstOut s
  forOwnSession : ForOwnSession s
  inOrder : InOrder s

theorem SendSound.queueSafe (h : SendSound s) : QueueSafe s :=
  ⟨h.accounted, h.stocked.ring.queued, h.forOwnSession, h.calls.order⟩

/--
**The send queue.**

In every state of every run the bytes are counted and bounded, the queue is first in first
out, and what is passed to the transport was admitted for the session that it is passed to, in
the order of admission and once.  When every session that is marked to be closed is marked with
its last buffer, nothing that was queued for it is behind the buffer that closes it.
-/
theorem sent_in_order_and_flushed (config : SendConfig) (ops : List SendOp) :
    QueueSafe (sendMachine.run (SendSystem.create config) ops) ∧
      (sendMachine.Along MarkedLast (SendSystem.create config) ops →
        Flushed (sendMachine.run (SendSystem.create config) ops)) := by
  have hsound : SendSound (sendMachine.run (SendSystem.create config) ops) :=
    sendMachine.run_invariant (fun s op (h : SendSound s) => (h.step op).sound)
      (SendSound.create config) ops
  refine ⟨hsound.queueSafe, fun halong => ?_⟩
  have hboth := sendMachine.run_invariant_along (P := fun s => SendSound s ∧ MarksSound s)
    (fun s op hc h => ⟨(h.1.step op).sound, (h.1.step op).marks hc h.2⟩)
    ⟨SendSound.create config, MarksSound.create config⟩ halong
  exact hboth.2.flushed

/-- A server with one session and a queue of four buffers. -/
def smallConfig : SendConfig :=
  ⟨1, 4, 65539, by decide, by decide, by decide, by decide⟩

/-- A response is sent, and then one that is marked. -/
def orderlyRun : List SendOp :=
  [.allocate .stream, .enqueue 0 [1] false, .drain, .advance .ok, .advance .ok, .advance .ok,
    .enqueue 0 [2] true, .advance .ok, .advance .ok]

/-- A request and malformed input behind it in one segment: two responses are queued, and the
session is marked. -/
def pipelinedRun : List SendOp :=
  [.allocate .stream, .enqueue 0 [1] false, .enqueue 0 [2] false, .giveUp 0, .drain,
    .advance .ok, .advance .ok]

theorem sent_in_order_and_flushed_orderly :
    sendMachine.Along MarkedLast (SendSystem.create smallConfig) orderlyRun ∧
      Flushed (sendMachine.run (SendSystem.create smallConfig) orderlyRun) := by
  have halong : sendMachine.Along MarkedLast (SendSystem.create smallConfig) orderlyRun := by
    refine ⟨trivial, ?_, trivial, trivial, trivial, trivial, ?_, trivial, trivial, trivial⟩
    · intro hclose
      cases hclose
    · intro _ _ _
      decide
  exact ⟨halong, (sent_in_order_and_flushed smallConfig orderlyRun).2 halong⟩

/-- The first response closes the connection, and the second is not handed over. -/
theorem pipelined_not_flushed :
    ¬ Flushed (sendMachine.run (SendSystem.create smallConfig) pipelinedRun) := by
  intro h
  have hmark : (⟨0, 1, 0, [0, 1]⟩ : CloseMark) ∈
      (sendMachine.run (SendSystem.create smallConfig) pipelinedRun).history.marks := by
    decide
  have hhanded : (sendMachine.run (SendSystem.create smallConfig) pipelinedRun).history.handed =
      [] ++ ⟨0, 0, some 1, [1], true, .ok⟩ :: [] := by
    decide
  rcases h _ hmark [] _ [] hhanded le_rfl rfl rfl rfl 1 (by decide) with heq | ⟨earlier, hmem, -⟩
  · cases heq
  · cases hmem

end TurboMedia.Rtsp
