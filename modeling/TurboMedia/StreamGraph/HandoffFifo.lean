import TurboMedia.Lib.Delivery
import TurboMedia.StreamGraph.Handoff

/-!
# The hand-off inbox is a queue

**Input.**  Calls of any number of producers and of one owner, in any order.

**Method.**  A log keeps what the callers have seen: the tickets that were given out, the
commands published and taken, the tickets that were given back.  What a ticket finds is
what the log says of it (`HoSound`), and the commands that wait in the rows are, in the
order of their numbers, those that were published and not taken yet.
-/

namespace TurboMedia.StreamGraph

open List Tickets

/-- What the callers have seen. -/
structure HoLog where
  issued : List HoTicket
  published : List (HoTicket × HoCommand)
  taken : List (HoTicket × HoCommand)
  aborted : List HoTicket
  settled : List HoTicket
  sealed : Bool

def HoLog.see (l : HoLog) : HoOp → HoAnswer → HoLog
  | .reserve, .reserved (.ok t) => { l with issued := l.issued ++ [t] }
  | .publish t c, .status .ok => { l with published := l.published ++ [(t, c)] }
  | .abort t, .status .ok => { l with aborted := l.aborted ++ [t] }
  | .take, .taken (.ok e) => { l with taken := l.taken ++ [e] }
  | .settle t, .status .ok => { l with settled := l.settled ++ [t] }
  | .sealInbox, _ => { l with sealed := true }
  | _, _ => l

def freshHoLog : HoLog :=
  ⟨[], [], [], [], [], false⟩

/-- An inbox and its log. -/
structure HoWatched where
  inbox : HoInbox
  log : HoLog

def hoMachine : Machine HoWatched HoOp HoAnswer where
  step := fun w op =>
    let next := hoStep w.inbox op
    (⟨next.1, w.log.see op next.2⟩, next.2)

/-- The ticket was given out and not given back. -/
def HoLog.Open (l : HoLog) (t : HoTicket) : Prop :=
  t ∈ l.issued ∧ t ∉ l.aborted ∧ t ∉ l.settled

def HoLog.Has (l : HoLog) (t : HoTicket) : HoRowState → Prop
  | .free => ¬l.Open t
  | .reserved => l.Open t ∧ t ∉ l.published.map Prod.fst
  | .ready => l.Open t ∧ t ∈ l.published.map Prod.fst ∧ t ∉ l.taken.map Prod.fst
  | .taken => l.Open t ∧ t ∈ l.taken.map Prod.fst

def hoStateOf (q : HoInbox) (t : HoTicket) : HoRowState :=
  match hoFind q t with
  | none => .free
  | some r => r.state

/-- A command that waits, with its number. -/
structure HoEntry where
  order : ℕ
  ticket : HoTicket
  command : HoCommand

def HoEntry.item (e : HoEntry) : HoTicket × HoCommand :=
  (e.ticket, e.command)

/-- The command waits in the row of its ticket. -/
def HoEntry.Waits (q : HoInbox) (e : HoEntry) : Prop :=
  ∃ r, hoFind q e.ticket = some r ∧ r.state = .ready ∧ r.order = e.order ∧ r.command = e.command

/-- The commands that wait, in the order of their numbers. -/
structure HoQueue (q : HoInbox) (queue : List HoEntry) : Prop where
  sorted : queue.Pairwise (fun e e' => e.order < e'.order)
  below : ∀ e ∈ queue, e.order < q.nextOrder
  waits : ∀ e, e ∈ queue ↔ e.Waits q

/-- The inbox is as the log says. -/
structure HoSound (q : HoInbox) (l : HoLog) : Prop where
  states : ∀ t, l.Has t (hoStateOf q t)
  counts : ∀ t ∈ l.issued, Tickets.Counted HoRow.generation q.rows t.slot t.generation
  inUse : ∀ r ∈ q.rows, r.state ≠ .free → r.generation ≠ 0
  issued : l.issued.Nodup
  published : (l.published.map Prod.fst).Nodup
  known : ∀ t ∈ l.published.map Prod.fst ++ (l.aborted ++ l.settled), t ∈ l.issued
  queue : ∃ queue, HoQueue q queue ∧ l.published = l.taken ++ queue.map HoEntry.item
  order : q.nextOrder ≤ Words.max64
  sealed : l.sealed = true → q.sealed = true

section Rows

variable {q : HoInbox} {t : HoTicket} {i : ℕ} {r r' : HoRow}

theorem hoFind_eq (q : HoInbox) (t : HoTicket) :
    hoFind q t = Tickets.lookup HoRow.generation (fun r => decide (r.state ≠ .free)) q.incarnation
      q.rows t.incarnation t.slot t.generation := by
  rw [hoFind, Tickets.lookup, Tickets.find]
  cases q.rows[t.slot]? with
  | none => rfl
  | some r =>
    congr 1
    exact if_congr (by rw [decide_eq_true_eq]) rfl rfl

theorem hoFind_some (h : hoFind q t = some r) :
    t = ⟨q.incarnation, t.slot, r.generation⟩ ∧ q.rows[t.slot]? = some r ∧ r.state ≠ .free := by
  rw [hoFind_eq, lookup_eq_some] at h
  obtain ⟨⟨hinc, _⟩, hrow, hused, hgen⟩ := h
  refine ⟨?_, hrow, by simpa using hused⟩
  obtain ⟨incarnation, slot, generation⟩ := t
  exact congrArg₂ (fun a b => HoTicket.mk a slot b) hinc hgen.symm

theorem hoFind_row (hrow : q.rows[i]? = some r) (hused : r.state ≠ .free)
    (hgen : r.generation ≠ 0) : hoFind q ⟨q.incarnation, i, r.generation⟩ = some r := by
  rw [hoFind_eq]
  exact lookup_eq_some.mpr ⟨⟨rfl, hgen⟩, hrow, by simpa using hused, rfl⟩

theorem hoFind_setRow (r' : HoRow) (hrow : q.rows[i]? = some r)
    (hcount : r.state ≠ .free → r'.generation = r.generation) (hgen : r'.generation ≠ 0)
    (t : HoTicket) :
    hoFind (q.setRow i r') t = if t = ⟨q.incarnation, i, r'.generation⟩ then
      (if r'.state ≠ .free then some r' else none) else hoFind q t := by
  obtain ⟨incarnation, slot, generation⟩ := t
  rw [hoFind_eq, hoFind_eq]
  refine (lookup_set hrow (fun hused => hcount (by simpa using hused)) hgen
    incarnation slot generation).trans ?_
  simp only [HoTicket.mk.injEq, decide_eq_true_eq]
  rfl

theorem hoStateOf_of_find (h : hoFind q t = some r) : hoStateOf q t = r.state := by
  rw [hoStateOf, h]

theorem hoFind_of_state (h : hoStateOf q t ≠ .free) :
    ∃ r, hoFind q t = some r ∧ r.state = hoStateOf q t := by
  rw [hoStateOf] at h ⊢
  cases hfind : hoFind q t with
  | none =>
    rw [hfind] at h
    exact absurd rfl h
  | some r => exact ⟨r, rfl, rfl⟩

end Rows

section Writes

variable {q : HoInbox} {l l' : HoLog} {i n : ℕ} {r r' : HoRow} {t : HoTicket}

theorem HoSound.has (h : HoSound q l) (hfind : hoFind q t = some r) : l.Has t r.state := by
  have hstate := h.states t
  rw [hoStateOf_of_find hfind] at hstate
  exact hstate

theorem states_setRow (h : ∀ t, l.Has t (hoStateOf q t)) (hrow : q.rows[i]? = some r)
    (hcount : r.state ≠ .free → r'.generation = r.generation) (hgen : r'.generation ≠ 0)
    (hself : l'.Has ⟨q.incarnation, i, r'.generation⟩ r'.state)
    (hothers : ∀ t state, t ≠ ⟨q.incarnation, i, r'.generation⟩ → l.Has t state → l'.Has t state) :
    ∀ t, l'.Has t (hoStateOf (q.setRow i r') t) := by
  intro t
  rw [hoStateOf, hoFind_setRow r' hrow hcount hgen]
  by_cases ht : t = ⟨q.incarnation, i, r'.generation⟩
  · rw [if_pos ht, ht]
    by_cases hfree : r'.state = .free
    · rw [if_neg (not_not.mpr hfree)]
      rw [hfree] at hself
      exact hself
    · rw [if_pos hfree]
      exact hself
  · rw [if_neg ht]
    exact hothers t _ ht (h t)

theorem inUse_setRow (h : ∀ r ∈ q.rows, r.state ≠ .free → r.generation ≠ 0)
    (hgen : r'.generation ≠ 0) :
    ∀ r ∈ (q.setRow i r').rows, r.state ≠ .free → r.generation ≠ 0 := by
  intro r'' hr''
  rcases mem_or_eq_of_mem_set hr'' with hr'' | rfl
  · exact h r'' hr''
  · exact fun _ => hgen

/-- Rows that neither were ready nor become ready do not matter to the queue. -/
theorem HoQueue.setRow {queue : List HoEntry} (h : HoQueue q queue) (hrow : q.rows[i]? = some r)
    (hcount : r.state ≠ .free → r'.generation = r.generation) (hgen : r'.generation ≠ 0)
    (hbef : r.state ≠ .ready) (hafter : r'.state ≠ .ready) : HoQueue (q.setRow i r') queue := by
  refine ⟨h.sorted, h.below, fun e => (h.waits e).trans ?_⟩
  rw [HoEntry.Waits, HoEntry.Waits, hoFind_setRow r' hrow hcount hgen]
  by_cases ht : e.ticket = ⟨q.incarnation, i, r'.generation⟩
  · rw [if_pos ht]
    constructor
    · rintro ⟨r'', hfind, hready, _⟩
      obtain ⟨_, hrow', _⟩ := hoFind_some hfind
      rw [ht] at hrow'
      cases hrow.symm.trans hrow'
      exact absurd hready hbef
    · rintro ⟨r'', hfind, hready, _⟩
      split_ifs at hfind
      cases hfind
      exact absurd hready hafter
  · rw [if_neg ht]

end Writes

section Steps

variable {q : HoInbox} {l l' : HoLog} {r : HoRow} {t t' : HoTicket} {state : HoRowState}

theorem HoLog.has_congr (l l' : HoLog) (hiss : t ∈ l'.issued ↔ t ∈ l.issued)
    (haborted : t ∈ l'.aborted ↔ t ∈ l.aborted) (hsettled : t ∈ l'.settled ↔ t ∈ l.settled)
    (hpub : t ∈ l'.published.map Prod.fst ↔ t ∈ l.published.map Prod.fst)
    (htaken : t ∈ l'.taken.map Prod.fst ↔ t ∈ l.taken.map Prod.fst) :
    l'.Has t state ↔ l.Has t state := by
  cases state <;> simp only [HoLog.Has, HoLog.Open, hiss, haborted, hsettled, hpub, htaken]

theorem hoReserve_cases (q : HoInbox) :
    (∃ e, hoReserve q = (q, .error e)) ∨
      ∃ i r, q.rows[i]? = some r ∧ r.state = .free ∧ q.sealed = false ∧
        hoReserve q = (q.setRow i { r with
          generation := r.generation + 1
          state := .reserved }, .ok ⟨q.incarnation, i, r.generation + 1⟩) := by
  rw [hoReserve]
  cases hsealed : q.sealed with
  | true => exact .inl ⟨_, rfl⟩
  | false =>
    rw [if_neg (by simp)]
    cases hfree : hoFreeRow q with
    | none => exact .inl ⟨_, rfl⟩
    | some i =>
      obtain ⟨hlt, hp, _⟩ := findIdx?_eq_some_iff_getElem.mp hfree
      simp only [Bool.and_eq_true, decide_eq_true_eq] at hp
      have hget : q.rows.getD i zeroHoRow = q.rows[i] := by
        simp [getD_eq_getElem?_getD, hlt]
      refine .inr ⟨i, q.rows[i], getElem?_eq_getElem hlt, hp.1, rfl, ?_⟩
      dsimp only
      rw [hget]

theorem HoSound.reserve (h : HoSound q l) :
    HoSound (hoReserve q).1 (l.see .reserve (.reserved (hoReserve q).2)) := by
  rcases hoReserve_cases q with ⟨e, href⟩ | ⟨i, r, hrow, hfree, hsealed, hok⟩
  · rw [href]
    exact h
  · rw [hok]
    have hfresh : (⟨q.incarnation, i, r.generation + 1⟩ : HoTicket) ∉ l.issued := by
      intro hmem
      obtain ⟨r', hr', hle⟩ := h.counts _ hmem
      cases hrow.symm.trans hr'
      exact absurd hle (Nat.not_succ_le_self _)
    have hunknown : (⟨q.incarnation, i, r.generation + 1⟩ : HoTicket) ∉
        l.published.map Prod.fst ++ (l.aborted ++ l.settled) := fun hmem => hfresh (h.known _ hmem)
    rw [mem_append, mem_append, not_or, not_or] at hunknown
    obtain ⟨hpub, haborted, hsettled⟩ := hunknown
    obtain ⟨queue, hqueue, hfifo⟩ := h.queue
    constructor
    · refine states_setRow h.states hrow (fun hused => absurd hfree hused)
        (Nat.succ_ne_zero _) ?_ ?_
      · exact ⟨⟨mem_append_right _ mem_cons_self, haborted, hsettled⟩, hpub⟩
      · intro t state ht hstate
        refine (HoLog.has_congr l { l with issued := l.issued ++ [_] } ?_ Iff.rfl Iff.rfl Iff.rfl
          Iff.rfl).mpr hstate
        exact mem_append_singleton_of_ne ht
    · intro t ht
      rcases mem_append.mp ht with ht | ht
      · exact (h.counts t ht).set hrow (Nat.le_succ _)
      · cases mem_singleton.mp ht
        exact counted_set_self hrow le_rfl
    · exact inUse_setRow h.inUse (Nat.succ_ne_zero _)
    · exact nodup_append_singleton h.issued hfresh
    · exact h.published
    · exact fun t ht => mem_append_left _ (h.known t ht)
    · refine ⟨queue, hqueue.setRow hrow (fun hused => absurd hfree hused) (Nat.succ_ne_zero _) ?_
        (by simp), hfifo⟩
      rw [hfree]
      simp
    · exact h.order
    · exact h.sealed

theorem HoSound.giveBack (h : HoSound q l) (hfind : hoFind q t = some r) (hready : r.state ≠ .ready)
    (hiss : l'.issued = l.issued) (hpub : l'.published = l.published)
    (htaken : l'.taken = l.taken) (hsealed : l'.sealed = l.sealed)
    (hback : ∀ t', t' ∈ l'.aborted ++ l'.settled ↔ t' ∈ l.aborted ++ l.settled ∨ t' = t)
    (hothers : ∀ t', t' ≠ t →
      (t' ∈ l'.aborted ↔ t' ∈ l.aborted) ∧ (t' ∈ l'.settled ↔ t' ∈ l.settled)) :
    HoSound (q.setRow t.slot r.clear) l' := by
  obtain ⟨htick, hrow, hused⟩ := hoFind_some hfind
  have hgen := h.inUse r (mem_of_getElem? hrow) hused
  have hself : (⟨q.incarnation, t.slot, r.clear.generation⟩ : HoTicket) = t := htick.symm
  have hopen : t ∈ l.issued := by
    have hstate := h.has hfind
    cases hs : r.state with
    | free => exact absurd hs hused
    | _ =>
      rw [hs] at hstate
      exact hstate.1.1
  obtain ⟨queue, hqueue, hfifo⟩ := h.queue
  constructor
  · refine states_setRow h.states hrow (fun _ => rfl) hgen ?_ ?_
    · rw [hself]
      rintro ⟨_, haborted, hsettled'⟩
      exact (mem_append.mp ((hback t).mpr (.inr rfl))).elim haborted hsettled'
    · intro t' state ht' hstate
      rw [hself] at ht'
      exact (HoLog.has_congr l l' (by rw [hiss]) (hothers t' ht').1 (hothers t' ht').2
        (by rw [hpub]) (by rw [htaken])).mpr hstate
  · intro t' ht'
    rw [hiss] at ht'
    exact (h.counts t' ht').set hrow le_rfl
  · exact inUse_setRow h.inUse hgen
  · rw [hiss]
    exact h.issued
  · rw [hpub]
    exact h.published
  · intro t' ht'
    rw [hiss]
    rw [hpub, mem_append, hback] at ht'
    rcases ht' with ht' | ht' | rfl
    · exact h.known t' (mem_append_left _ ht')
    · exact h.known t' (mem_append_right _ ht')
    · exact hopen
  · rw [hpub, htaken]
    exact ⟨queue, hqueue.setRow hrow (fun _ => rfl) hgen hready (by simp [HoRow.clear]), hfifo⟩
  · exact h.order
  · rw [hsealed]
    exact h.sealed

theorem hoGiveBack_cases (state : HoRowState) (q : HoInbox) (t : HoTicket) :
    (∃ e, e ≠ .ok ∧ hoGiveBack state q t = (q, e)) ∨ ∃ r, hoFind q t = some r ∧ r.state = state ∧
        hoGiveBack state q t = (q.setRow t.slot r.clear, .ok) := by
  rw [hoGiveBack]
  cases hfind : hoFind q t with
  | none => exact .inl ⟨.estale, by simp, rfl⟩
  | some r =>
    dsimp only
    by_cases hstate : r.state = state
    · rw [if_neg (not_not.mpr hstate)]
      exact .inr ⟨r, rfl, hstate, rfl⟩
    · rw [if_pos hstate]
      exact .inl ⟨.ebusy, by simp, rfl⟩

theorem HoSound.abort (h : HoSound q l) (t : HoTicket) :
    HoSound (hoAbort q t).1 (l.see (.abort t) (.status (hoAbort q t).2)) := by
  rcases hoGiveBack_cases .reserved q t with ⟨e, he, href⟩ | ⟨r, hfind, hstate, hok⟩
  · rw [hoAbort, href]
    cases e with
    | ok => exact absurd rfl he
    | _ => exact h
  · rw [hoAbort, hok]
    refine h.giveBack hfind (by rw [hstate]; simp) rfl rfl rfl rfl (fun t' => ?_)
      (fun t' ht' => ⟨mem_append_singleton_of_ne ht', Iff.rfl⟩)
    simp only [HoLog.see, mem_append, mem_singleton]
    exact or_right_comm

theorem HoSound.settle (h : HoSound q l) (t : HoTicket) :
    HoSound (hoSettle q t).1 (l.see (.settle t) (.status (hoSettle q t).2)) := by
  rcases hoGiveBack_cases .taken q t with ⟨e, he, href⟩ | ⟨r, hfind, hstate, hok⟩
  · rw [hoSettle, href]
    cases e with
    | ok => exact absurd rfl he
    | _ => exact h
  · rw [hoSettle, hok]
    refine h.giveBack hfind (by rw [hstate]; simp) rfl rfl rfl rfl (fun t' => ?_)
      (fun t' ht' => ⟨Iff.rfl, mem_append_singleton_of_ne ht'⟩)
    simp only [HoLog.see, mem_append, mem_singleton]
    exact or_assoc.symm

theorem hoPublish_cases (q : HoInbox) (t : HoTicket) (c : HoCommand) :
    (∃ e, e ≠ .ok ∧ hoPublish q t c = (q, e)) ∨
      ∃ r, hoFind q t = some r ∧ r.state = .reserved ∧ q.sealed = false ∧
        q.nextOrder ≠ Words.max64 ∧ hoPublish q t c = ({ q.setRow t.slot (r.fill c q.nextOrder) with
          nextOrder := q.nextOrder + 1 }, .ok) := by
  rw [hoPublish]
  split
  · exact .inl ⟨.einval, by simp, rfl⟩
  · cases hfind : hoFind q t with
    | none => exact .inl ⟨.estale, by simp, rfl⟩
    | some r =>
      dsimp only
      by_cases hstate : r.state = .reserved
      · rw [if_neg (not_not.mpr hstate)]
        split
        · exact .inl ⟨.eshutdown, by simp, rfl⟩
        next hsealed =>
          split
          · exact .inl ⟨.eexhausted, by simp, rfl⟩
          next horder => exact .inr ⟨r, rfl, hstate, by simpa using hsealed, horder, rfl⟩
      · rw [if_pos hstate]
        exact .inl ⟨.ebusy, by simp, rfl⟩

theorem HoQueue.publish {queue : List HoEntry} (h : HoQueue q queue) (hfind : hoFind q t = some r)
    (hstate : r.state = .reserved) (hgen : r.generation ≠ 0) (c : HoCommand) :
    HoQueue { q.setRow t.slot (r.fill c q.nextOrder) with nextOrder := q.nextOrder + 1 }
      (queue ++ [⟨q.nextOrder, t, c⟩]) := by
  obtain ⟨htick, hrow, hused⟩ := hoFind_some hfind
  have hfound : ∀ t', hoFind (q.setRow t.slot (r.fill c q.nextOrder)) t' =
      if t' = t then some (r.fill c q.nextOrder) else hoFind q t' := by
    intro t'
    have hset := hoFind_setRow (r.fill c q.nextOrder) hrow (fun _ => rfl) hgen t'
    rw [HoRow.fill] at hset ⊢
    rw [← htick] at hset
    exact hset
  constructor
  · rw [pairwise_append]
    refine ⟨h.sorted, pairwise_singleton _ _, fun e he e' he' => ?_⟩
    rw [mem_singleton.mp he']
    exact h.below e he
  · intro e he
    rcases mem_append.mp he with he | he
    · exact (h.below e he).trans (Nat.lt_succ_self _)
    · rw [mem_singleton.mp he]
      exact Nat.lt_succ_self _
  · intro e
    show e ∈ queue ++ [_] ↔ ∃ r', hoFind (q.setRow t.slot _) e.ticket = some r' ∧ _
    rw [hfound, mem_append, mem_singleton, h.waits e, HoEntry.Waits]
    split
    next ht =>
      rw [ht, hfind]
      obtain ⟨order, ticket, command⟩ := e
      simp only [Option.some.injEq, exists_eq_left', hstate, reduceCtorEq, false_and, false_or,
        true_and, HoEntry.mk.injEq, HoRow.fill]
      constructor
      · rintro ⟨rfl, _, rfl⟩
        exact ⟨rfl, rfl⟩
      · rintro ⟨rfl, rfl⟩
        exact ⟨rfl, ht, rfl⟩
    next ht =>
      rw [or_iff_left]
      rintro rfl
      exact ht rfl

theorem HoSound.publish (h : HoSound q l) (t : HoTicket) (c : HoCommand) :
    HoSound (hoPublish q t c).1 (l.see (.publish t c) (.status (hoPublish q t c).2)) := by
  rcases hoPublish_cases q t c with ⟨e, he, href⟩ | ⟨r, hfind, hstate, hsealed, horder, hok⟩
  · rw [href]
    cases e with
    | ok => exact absurd rfl he
    | _ => exact h
  · rw [hok]
    obtain ⟨htick, hrow, hused⟩ := hoFind_some hfind
    have hgen := h.inUse r (mem_of_getElem? hrow) hused
    have hhas := h.has hfind
    rw [hstate] at hhas
    obtain ⟨hopen, hunpublished⟩ := hhas
    obtain ⟨queue, hqueue, hfifo⟩ := h.queue
    have htaken : t ∉ l.taken.map Prod.fst := by
      intro hmem
      refine hunpublished ?_
      rw [hfifo, map_append]
      exact mem_append_left _ hmem
    have hself : (⟨q.incarnation, t.slot, (r.fill c q.nextOrder).generation⟩ : HoTicket) = t :=
      htick.symm
    have hmap : (l.published ++ [(t, c)]).map Prod.fst = l.published.map Prod.fst ++ [t] :=
      map_append
    constructor
    · show ∀ t', HoLog.Has { l with published := l.published ++ [(t, c)] } t'
        (hoStateOf (q.setRow t.slot _) t')
      refine states_setRow h.states hrow (fun _ => rfl) hgen ?_ ?_
      · rw [hself]
        refine ⟨hopen, ?_, htaken⟩
        rw [hmap]
        exact mem_append_right _ mem_cons_self
      · intro t' state ht' hhas
        rw [hself] at ht'
        refine (HoLog.has_congr l { l with published := l.published ++ [(t, c)] } Iff.rfl Iff.rfl
          Iff.rfl ?_ Iff.rfl).mpr hhas
        rw [hmap]
        exact mem_append_singleton_of_ne ht'
    · exact fun t' ht' => (h.counts t' ht').set hrow le_rfl
    · exact inUse_setRow h.inUse hgen
    · exact h.issued
    · show ((l.published ++ [(t, c)]).map Prod.fst).Nodup
      rw [hmap]
      exact nodup_append_singleton h.published hunpublished
    · intro t' ht'
      have ht'' : t' ∈ (l.published ++ [(t, c)]).map Prod.fst ++ (l.aborted ++ l.settled) := ht'
      rw [hmap, mem_append, mem_append, mem_singleton] at ht''
      rcases ht'' with (ht'' | rfl) | ht''
      · exact h.known t' (mem_append_left _ ht'')
      · exact hopen.1
      · exact h.known t' (mem_append_right _ ht'')
    · refine ⟨_, hqueue.publish hfind hstate hgen c, ?_⟩
      show l.published ++ [(t, c)] = l.taken ++ _
      rw [hfifo, map_append, append_assoc]
      rfl
    · exact lt_of_le_of_ne h.order horder
    · exact h.sealed

theorem hoTake_cases (q : HoInbox) :
    (hoTake q = (q, .error .ebusy) ∧ ∀ r ∈ q.rows, r.state = .ready → Words.max64 ≤ r.order) ∨
      ∃ i r, q.rows[i]? = some r ∧ r.state = .ready ∧
        (∀ r' ∈ q.rows, r'.state = .ready → r'.order < Words.max64 → r.order ≤ r'.order) ∧
        hoTake q = (q.setRow i { r with state := .taken },
          .ok (⟨q.incarnation, i, r.generation⟩, r.command)) := by
  rw [hoTake]
  cases holdest : hoOldest q with
  | none =>
    refine .inl ⟨rfl, fun r hr hready => ?_⟩
    rw [hoOldest, Option.map_eq_none_iff] at holdest
    have hkey := Scan.firstMin_eq_none holdest r hr
    by_contra hlt
    rw [if_pos ⟨hready, not_le.mp hlt⟩] at hkey
    cases hkey
  | some i =>
    rw [hoOldest] at holdest
    obtain ⟨⟨j, order⟩, hmin, rfl⟩ := Option.map_eq_some_iff.mp holdest
    obtain ⟨r, hrow, hkey, hleast⟩ := Scan.firstMin_eq_some hmin
    split_ifs at hkey with hready
    cases hkey
    refine .inr ⟨j, r, hrow, hready.1, fun r' hr' hstate hlt =>
      hleast r' hr' r'.order (if_pos ⟨hstate, hlt⟩), ?_⟩
    have hget : q.rows.getD j zeroHoRow = r := by
      rw [getD_eq_getElem?_getD, hrow]
      rfl
    dsimp only
    rw [hget]

theorem HoSound.first {queue : List HoEntry} {i : ℕ} (h : HoSound q l) (hqueue : HoQueue q queue)
    (hrow : q.rows[i]? = some r) (hready : r.state = .ready)
    (hleast : ∀ r' ∈ q.rows, r'.state = .ready → r'.order < Words.max64 → r.order ≤ r'.order) :
    ∃ rest, queue = ⟨r.order, ⟨q.incarnation, i, r.generation⟩, r.command⟩ :: rest := by
  have hused : r.state ≠ .free := by
    rw [hready]
    simp
  have hgen := h.inUse r (mem_of_getElem? hrow) hused
  refine Delivery.head_of_least hqueue.sorted ((hqueue.waits _).mpr ?_) (fun e he => ?_)
  · exact ⟨r, hoFind_row hrow hused hgen, hready, rfl, rfl⟩
  · obtain ⟨r', hfind, hready', horder, _⟩ := (hqueue.waits e).mp he
    obtain ⟨_, hrow', _⟩ := hoFind_some hfind
    have hlt := (hqueue.below e he).trans_le h.order
    show r.order ≤ e.order
    rw [← horder] at hlt ⊢
    exact hleast r' (mem_of_getElem? hrow') hready' hlt

theorem HoQueue.take {rest : List HoEntry} {i : ℕ}
    (h : HoQueue q (⟨r.order, ⟨q.incarnation, i, r.generation⟩, r.command⟩ :: rest))
    (hrow : q.rows[i]? = some r) (hgen : r.generation ≠ 0) :
    HoQueue (q.setRow i { r with state := .taken }) rest := by
  obtain ⟨hfirst, hsorted⟩ := pairwise_cons.mp h.sorted
  have hself : (⟨q.incarnation, i, ({ r with state := .taken } : HoRow).generation⟩ : HoTicket) =
      ⟨q.incarnation, i, r.generation⟩ := rfl
  refine ⟨hsorted, fun e he => h.below e (mem_cons_of_mem _ he), fun e => ?_⟩
  rw [HoEntry.Waits, hoFind_setRow { r with state := .taken } hrow (fun _ => rfl) hgen, hself]
  split
  next ht =>
    constructor
    · intro he
      obtain ⟨r', hfind, _, horder, _⟩ := (h.waits e).mp (mem_cons_of_mem _ he)
      obtain ⟨_, hrow', _⟩ := hoFind_some hfind
      rw [ht] at hrow'
      cases hrow.symm.trans hrow'
      exact absurd (hfirst e he) (by rw [← horder]; exact lt_irrefl _)
    · rintro ⟨r', hfind, hready, _⟩
      cases hfind
      cases hready
  next ht =>
    refine Iff.trans ?_ (h.waits e)
    rw [mem_cons, or_iff_right]
    rintro rfl
    exact ht rfl

theorem HoSound.take (h : HoSound q l) :
    HoSound (hoTake q).1 (l.see .take (.taken (hoTake q).2)) := by
  rcases hoTake_cases q with ⟨href, _⟩ | ⟨i, r, hrow, hready, hleast, hok⟩
  · rw [href]
    exact h
  · rw [hok]
    have hused : r.state ≠ .free := by
      rw [hready]
      simp
    have hgen := h.inUse r (mem_of_getElem? hrow) hused
    have hhas := h.has (hoFind_row hrow hused hgen)
    rw [hready] at hhas
    obtain ⟨hopen, _, _⟩ := hhas
    obtain ⟨queue, hqueue, hfifo⟩ := h.queue
    obtain ⟨rest, rfl⟩ := h.first hqueue hrow hready hleast
    have hmap : (l.taken ++ [((⟨q.incarnation, i, r.generation⟩ : HoTicket), r.command)]).map
        Prod.fst = l.taken.map Prod.fst ++ [⟨q.incarnation, i, r.generation⟩] :=
      map_append
    constructor
    · show ∀ t, HoLog.Has { l with taken := l.taken ++ [(_, r.command)] } t
        (hoStateOf (q.setRow i _) t)
      refine states_setRow h.states hrow (fun _ => rfl) hgen ?_ ?_
      · refine ⟨hopen, ?_⟩
        rw [hmap]
        exact mem_append_right _ mem_cons_self
      · intro t state ht hhas
        refine (HoLog.has_congr l { l with taken := l.taken ++ [(_, r.command)] } Iff.rfl Iff.rfl
          Iff.rfl Iff.rfl ?_).mpr hhas
        rw [hmap]
        exact mem_append_singleton_of_ne ht
    · exact fun t ht => (h.counts t ht).set hrow le_rfl
    · exact inUse_setRow h.inUse hgen
    · exact h.issued
    · exact h.published
    · exact h.known
    · refine ⟨rest, hqueue.take hrow hgen, ?_⟩
      show l.published = (l.taken ++ [_]) ++ _
      rw [hfifo, append_assoc]
      rfl
    · exact h.order
    · exact h.sealed

theorem HoSound.step {w : HoWatched} (h : HoSound w.inbox w.log) (op : HoOp) :
    HoSound (hoMachine.next w op).inbox (hoMachine.next w op).log := by
  cases op with
  | reserve => exact h.reserve
  | publish ticket command => exact h.publish ticket command
  | abort ticket => exact h.abort ticket
  | take => exact h.take
  | settle ticket => exact h.settle ticket
  | sealInbox =>
    obtain ⟨queue, hqueue, hfifo⟩ := h.queue
    exact ⟨h.states, h.counts, h.inUse, h.issued, h.published, h.known,
      ⟨queue, ⟨hqueue.sorted, hqueue.below, hqueue.waits⟩, hfifo⟩, h.order, fun _ => rfl⟩

end Steps

variable {q : HoInbox} {l : HoLog} {t : HoTicket}

/-- To its callers the inbox is a queue of the commands that were published. -/
structure HoFifo (q : HoInbox) (l : HoLog) : Prop where
  fifo : ∃ waiting, l.published = l.taken ++ waiting ∧
    (hoTake q).2 = match waiting with
      | [] => .error .ebusy
      | e :: _ => .ok e
  once : (l.published.map Prod.fst).Nodup
  unpublished : ∀ t c, (hoPublish q t c).2 ≠ .ok →
    (hoPublish q t c).1 = q ∧ (l.Has t .reserved → (hoAbort (hoPublish q t c).1 t).2 = .ok)
  stale : ∀ t, ¬l.Open t → hoAbort q t = (q, .estale) ∧ hoSettle q t = (q, .estale) ∧
    ∀ c, hoPublish q t c = (q, if hoValidCommand c = false then .einval else .estale)
  sealed : l.sealed = true →
    (∀ t, (hoReserve q).2 ≠ .ok t) ∧ ∀ t c, (hoPublish q t c).2 ≠ .ok
  drained : (∀ t ∈ l.issued, t ∈ l.aborted ∨
      (t ∈ l.published.map Prod.fst ∧ t ∈ l.taken.map Prod.fst ∧ t ∈ l.settled)) →
    (hoSnapshot q).drained = true

variable (h : HoSound q l)
include h

theorem HoSound.fifo :
    ∃ waiting, l.published = l.taken ++ waiting ∧ (hoTake q).2 = match waiting with
        | [] => .error .ebusy
        | e :: _ => .ok e := by
  obtain ⟨queue, hqueue, hfifo⟩ := h.queue
  refine ⟨queue.map HoEntry.item, hfifo, ?_⟩
  rcases hoTake_cases q with ⟨href, hnone⟩ | ⟨i, r, hrow, hready, hleast, hok⟩
  · rw [href]
    cases queue with
    | nil => rfl
    | cons e rest =>
      obtain ⟨r, hfind, hready, horder, _⟩ := (hqueue.waits e).mp mem_cons_self
      obtain ⟨_, hrow, _⟩ := hoFind_some hfind
      have hge := hnone r (mem_of_getElem? hrow) hready
      have hlt := (hqueue.below e mem_cons_self).trans_le h.order
      rw [horder] at hge
      exact absurd hge (not_le.mpr hlt)
  · rw [hok]
    obtain ⟨rest, rfl⟩ := h.first hqueue hrow hready hleast
    rfl

theorem HoSound.find_none (ht : ¬l.Open t) : hoFind q t = none := by
  cases hfind : hoFind q t with
  | none => rfl
  | some r =>
    have hhas := h.has hfind
    cases hstate : r.state with
    | free => exact absurd hstate (hoFind_some hfind).2.2
    | _ =>
      rw [hstate] at hhas
      exact absurd hhas.1 ht

theorem HoSound.find_reserved (ht : l.Has t .reserved) :
    ∃ r, hoFind q t = some r ∧ r.state = .reserved := by
  obtain ⟨hopen, hunpublished⟩ := ht
  have hhas := h.states t
  have hstate : hoStateOf q t = .reserved := by
    cases hs : hoStateOf q t with
    | free =>
      rw [hs] at hhas
      exact absurd hopen hhas
    | reserved => rfl
    | ready =>
      rw [hs] at hhas
      exact absurd hhas.2.1 hunpublished
    | taken =>
      rw [hs] at hhas
      obtain ⟨queue, _, hfifo⟩ := h.queue
      refine absurd ?_ hunpublished
      rw [hfifo, map_append]
      exact mem_append_left _ hhas.2
  obtain ⟨r, hfind, hr⟩ := hoFind_of_state (t := t) (by rw [hstate]; simp)
  exact ⟨r, hfind, hr.trans hstate⟩

theorem HoSound.unpublished (t : HoTicket) (c : HoCommand)
    (href : (hoPublish q t c).2 ≠ .ok) :
    (hoPublish q t c).1 = q ∧ (l.Has t .reserved → (hoAbort (hoPublish q t c).1 t).2 = .ok) := by
  rcases hoPublish_cases q t c with ⟨e, _, heq⟩ | ⟨r, _, _, _, _, heq⟩
  · rw [heq]
    refine ⟨rfl, fun ht => ?_⟩
    obtain ⟨r, hfind, hstate⟩ := h.find_reserved ht
    rw [hoAbort, hoGiveBack, hfind]
    dsimp only
    rw [if_neg (not_not.mpr hstate)]
  · rw [heq] at href
    exact absurd rfl href

theorem HoSound.stale (ht : ¬l.Open t) :
    hoAbort q t = (q, .estale) ∧ hoSettle q t = (q, .estale) ∧
      ∀ c, hoPublish q t c = (q, if hoValidCommand c = false then .einval else .estale) := by
  have hnone := h.find_none ht
  refine ⟨?_, ?_, fun c => ?_⟩
  · rw [hoAbort, hoGiveBack, hnone]
  · rw [hoSettle, hoGiveBack, hnone]
  · rw [hoPublish, hnone]
    split_ifs <;> rfl

theorem HoSound.refuses (hsealed : l.sealed = true) :
    (∀ t, (hoReserve q).2 ≠ .ok t) ∧ ∀ t c, (hoPublish q t c).2 ≠ .ok := by
  have hq := h.sealed hsealed
  constructor
  · intro t
    rw [hoReserve, if_pos hq]
    simp
  · intro t c
    rcases hoPublish_cases q t c with ⟨e, he, heq⟩ | ⟨r, _, _, hopen, _⟩
    · rw [heq]
      exact he
    · rw [hq] at hopen
      cases hopen

theorem HoSound.free_iff : (∀ r ∈ q.rows, r.state = .free) ↔ ∀ t, ¬l.Open t := by
  constructor
  · intro hfree t
    have hstate := h.states t
    cases hfind : hoFind q t with
    | none => rwa [hoStateOf, hfind] at hstate
    | some r =>
      obtain ⟨_, hrow, hused⟩ := hoFind_some hfind
      exact absurd (hfree r (mem_of_getElem? hrow)) hused
  · intro hclosed r hr
    by_contra hused
    obtain ⟨i, hrow⟩ := mem_iff_getElem?.mp hr
    have hfind := hoFind_row hrow hused (h.inUse r hr hused)
    rw [h.find_none (hclosed _)] at hfind
    cases hfind

theorem HoSound.drained (hback : ∀ t ∈ l.issued, t ∈ l.aborted ∨
      (t ∈ l.published.map Prod.fst ∧ t ∈ l.taken.map Prod.fst ∧ t ∈ l.settled)) :
    (hoSnapshot q).drained = true := by
  have hfree : ∀ r ∈ q.rows, r.state = .free := by
    refine h.free_iff.mpr ?_
    rintro t ⟨hiss, haborted, hsettled⟩
    rcases hback t hiss with hmem | ⟨_, _, hmem⟩
    · exact haborted hmem
    · exact hsettled hmem
  have hcount : ∀ state, state ≠ .free → q.count state = 0 := by
    intro state hstate
    refine countP_eq_zero.mpr (fun r hr => ?_)
    rw [hfree r hr, decide_eq_true_eq]
    exact hstate.symm
  rw [hoSnapshot, decide_eq_true_eq]
  exact ⟨hcount _ (by simp), hcount _ (by simp), hcount _ (by simp)⟩

omit h

theorem hoSound_create {cfg : HoConfig} {incarnation : ℕ} (h : hoCreate cfg incarnation = .ok q) :
    HoSound q freshHoLog := by
  rw [hoCreate] at h
  split_ifs at h
  cases h
  have hrows : ∀ r ∈ replicate cfg.capacity zeroHoRow, r.state = .free := by
    intro r hr
    rw [eq_of_mem_replicate hr]
    rfl
  have hnone : ∀ t, hoFind ⟨incarnation, 1, replicate cfg.capacity zeroHoRow, false⟩ t =
      none := by
    intro t
    cases hfind : hoFind ⟨incarnation, 1, replicate cfg.capacity zeroHoRow, false⟩ t with
    | none => rfl
    | some r =>
      obtain ⟨_, hrow, hused⟩ := hoFind_some hfind
      exact absurd (hrows r (mem_of_getElem? hrow)) hused
  constructor
  · intro t
    rw [hoStateOf, hnone]
    exact fun hopen => absurd hopen.1 not_mem_nil
  · exact fun t ht => absurd ht not_mem_nil
  · exact fun r hr hused => absurd (hrows r hr) hused
  · exact nodup_nil
  · exact nodup_nil
  · exact fun t ht => absurd ht not_mem_nil
  · refine ⟨[], ⟨List.Pairwise.nil, fun e he => absurd he not_mem_nil, fun e => ?_⟩, rfl⟩
    rw [HoEntry.Waits, hnone]
    simp
  · show 1 ≤ Words.max64
    decide
  · simp [freshHoLog]

/-- **The hand-off inbox is a queue.**  For every run of calls on a new inbox, in any
order. -/
theorem handoff_fifo (cfg : HoConfig) (incarnation : ℕ) (inbox : HoInbox)
    (hinbox : hoCreate cfg incarnation = .ok inbox) (ops : List HoOp) (w : HoWatched)
    (hw : w = hoMachine.run ⟨inbox, freshHoLog⟩ ops) : HoFifo w.inbox w.log := by
  have h : HoSound w.inbox w.log := by
    rw [hw]
    exact hoMachine.run_invariant (P := fun w => HoSound w.inbox w.log)
      (fun _ op h => h.step op) (hoSound_create hinbox) ops
  exact ⟨h.fifo, h.published, h.unpublished, fun _ => h.stale, h.refuses, h.drained⟩

/-- Two rows; the second reservation is published first. -/
def twoRows : HoConfig :=
  ⟨sizeofHoConfig, hoAbi, 2, 0⟩

def stopCommand : HoCommand :=
  { zeroCommand with
    size := sizeofHoCommand
    version := hoAbi
    kind := hoStop }

def crossedPublishes : List HoOp :=
  [.reserve, .reserve, .publish ⟨7, 1, 1⟩ stopCommand, .take, .settle ⟨7, 1, 1⟩, .sealInbox,
    .publish ⟨7, 0, 1⟩ stopCommand, .abort ⟨7, 0, 1⟩]

theorem handoff_fifo_crossed :
    (hoMachine.run ⟨⟨7, 1, replicate 2 zeroHoRow, false⟩, freshHoLog⟩
        crossedPublishes).log.taken = [(⟨7, 1, 1⟩, stopCommand)] ∧
      HoFifo (hoMachine.run ⟨⟨7, 1, replicate 2 zeroHoRow, false⟩, freshHoLog⟩
          crossedPublishes).inbox
        (hoMachine.run ⟨⟨7, 1, replicate 2 zeroHoRow, false⟩, freshHoLog⟩
          crossedPublishes).log :=
  ⟨by decide, handoff_fifo twoRows 7 _ rfl crossedPublishes _ rfl⟩

/-- **An inbox is destroyed when nothing can use it any more.**  Destroying is refused exactly
as long as the inbox is open to producers or a ticket is neither aborted nor settled. -/
theorem handoff_destroyed_iff {cfg : HoConfig} {incarnation : ℕ} {inbox : HoInbox}
    (hinbox : hoCreate cfg incarnation = .ok inbox) (ops : List HoOp) :
    let w := hoMachine.run ⟨inbox, freshHoLog⟩ ops
    hoDestroy w.inbox = .ok ↔ w.inbox.sealed = true ∧ ∀ t, ¬w.log.Open t := by
  intro w
  have h : HoSound w.inbox w.log := hoMachine.run_invariant (P := fun w => HoSound w.inbox w.log)
    (fun _ op h => h.step op) (hoSound_create hinbox) ops
  rw [← h.free_iff, hoDestroy]
  split_ifs with hopen hused
  · simp [hopen]
  · simpa using fun _ => hused
  · simp_all

theorem handoff_destroyed_iff_crossed :
    (hoMachine.run ⟨⟨7, 1, replicate 2 zeroHoRow, false⟩, freshHoLog⟩
        crossedPublishes).inbox.sealed = true ∧
      ∀ t, ¬(hoMachine.run ⟨⟨7, 1, replicate 2 zeroHoRow, false⟩, freshHoLog⟩
        crossedPublishes).log.Open t :=
  (@handoff_destroyed_iff twoRows 7 _ rfl crossedPublishes).mp rfl

end TurboMedia.StreamGraph
