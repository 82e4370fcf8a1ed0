import TurboMedia.StreamGraph.Completion

/-!
# Every completion is delivered once

**Input.**  Calls of provider threads on a portal and of the owner that delivers its
results, in any order, with any answers of the host's callback.

**Method.**  A log keeps what the callers have seen: the operations begun, the cancel
requests accepted, the reports that succeeded and whether a cancel request came before
them, the results taken and emitted, the tickets settled.  The log is consistent in itself
(`PcHistory`), and the rows are as the log says (`PcSound`).
-/

namespace TurboMedia.StreamGraph

open List Tickets Option

/-- The calls that end an operation. -/
inductive PcReport where
  | failStart (status : ℤ)
  | complete (status : ℤ)
  | cancelQuiesced

/-- What the callers have seen.  A report is kept with whether a cancel request for its
ticket was accepted before it. -/
structure PcLog where
  begun : List (PcTicket × ℕ)
  cancels : List PcTicket
  reports : List (PcTicket × PcReport × Bool)
  taken : List (PcTicket × PcResult)
  emits : List (PcTicket × PcResult)
  settled : List PcTicket

def freshPcLog : PcLog :=
  ⟨[], [], [], [], [], []⟩

variable (l : PcLog)

def PcLog.begin (t : PcTicket) (correlation : ℕ) : PcLog :=
  { l with begun := l.begun ++ [(t, correlation)] }

def PcLog.cancel (t : PcTicket) : PcLog :=
  { l with cancels := l.cancels ++ [t] }

def PcLog.report (t : PcTicket) (report : PcReport) : PcLog :=
  { l with reports := l.reports ++ [(t, report, decide (t ∈ l.cancels))] }

def PcLog.take (e : PcTicket × PcResult) : PcLog :=
  { l with taken := l.taken ++ [e] }

def PcLog.emit (e : PcTicket × PcResult) : PcLog :=
  { l with emits := l.emits ++ [e] }

def PcLog.settle (t : PcTicket) : PcLog :=
  { l with settled := l.settled ++ [t] }

/-- The log after a call on an owner that was in this state. -/
def PcLog.see (o : OdOwner) : PcOp → PcAnswer → PcLog
  | .begin correlation, .begun (.ok t) => l.begin t correlation
  | .failStart t status, .status .ok => l.report t (.failStart status)
  | .complete t status, .status .ok => l.report t (.complete status)
  | .requestCancel t, .status .ok => l.cancel t
  | .cancelQuiesced t, .status .ok => l.report t .cancelQuiesced
  | .take, .taken (.ok e) => l.take e
  | .settle t, .status .ok => l.settle t
  | .stepCompletion, .emits (.ok e) => (l.take e).emit e
  | .emitted _, .emitted (some .ok) => l.settle (o.emitting.getD zeroPcTicket)
  | .settlePendingCompletion, .owner .ok => l.settle o.pendingCompletion
  | _, _ => l

/-- An owner and its log. -/
structure PcWatched where
  owner : OdOwner
  log : PcLog

def pcMachine : Machine PcWatched PcOp PcAnswer where
  step := fun w op =>
    let next := pcStep w.owner op
    (⟨next.1, w.log.see w.owner op next.2⟩, next.2)

def PcLog.tickets (l : PcLog) : List PcTicket :=
  l.begun.map Prod.fst

def PcLog.reported (l : PcLog) : List PcTicket :=
  l.reports.map Prod.fst

def PcLog.takenTickets (l : PcLog) : List PcTicket :=
  l.taken.map Prod.fst

def PcLog.Open (l : PcLog) (t : PcTicket) : Prop :=
  t ∈ l.tickets ∧ t ∉ l.settled

def PcLog.Has (l : PcLog) (t : PcTicket) : PcState → Prop
  | .free => ¬l.Open t
  | .inflight => l.Open t ∧ t ∉ l.cancels ∧ t ∉ l.reported
  | .cancelPending => l.Open t ∧ t ∈ l.cancels ∧ t ∉ l.reported
  | .ready => l.Open t ∧ t ∈ l.reported ∧ t ∉ l.takenTickets
  | .taken => l.Open t ∧ t ∈ l.takenTickets

def PcReport.outcome : PcReport → Bool → ℕ
  | _, true => pcCancelled
  | .failStart _, false => pcStartFailed
  | .complete _, false => pcCompleted
  | .cancelQuiesced, false => pcCancelled

def PcReport.observed : PcReport → ℕ
  | .complete _ => 1
  | _ => 0

def PcReport.status : PcReport → ℤ
  | .failStart status => status
  | .complete status => status
  | .cancelQuiesced => 0

/-- The result of an operation without a report. -/
def pcPending (generation correlation : ℕ) : PcResult :=
  { pcResultInit with
    correlation := correlation
    providerGeneration := generation }

/-- The result of an operation with this report. -/
def pcVerdict (generation correlation : ℕ) (report : PcReport) (cancelled : Bool) : PcResult :=
  { pcPending generation correlation with
    outcome := report.outcome cancelled
    completionObserved := report.observed
    providerStatus := report.status }

/-- The result is that of the report for this ticket. -/
def PcLog.Judged (l : PcLog) (generation : ℕ) (t : PcTicket) (result : PcResult) : Prop :=
  ∃ correlation report cancelled, (t, correlation) ∈ l.begun ∧ (t, report, cancelled) ∈ l.reports ∧
    result = pcVerdict generation correlation report cancelled

/-- The result is what the log says of the ticket. -/
def PcLog.Explains (l : PcLog) (generation : ℕ) (t : PcTicket) (result : PcResult) : Prop :=
  (t ∉ l.reported ∧ ∃ correlation, (t, correlation) ∈ l.begun ∧
    result = pcPending generation correlation) ∨ l.Judged generation t result

/-- What a log always says. -/
structure PcHistory (generation : ℕ) (l : PcLog) : Prop where
  begun : l.tickets.Nodup
  reported : l.reported.Nodup
  taken : l.takenTickets.Nodup
  cancels : ∀ t ∈ l.cancels, t ∈ l.tickets
  reports : ∀ t ∈ l.reported, t ∈ l.tickets
  takes : ∀ t ∈ l.takenTickets, t ∈ l.reported
  settles : ∀ t ∈ l.settled, t ∈ l.takenTickets
  cancelled : ∀ t report cancelled, (t, report, cancelled) ∈ l.reports →
    (cancelled = true ↔ t ∈ l.cancels) ∧ (report = .cancelQuiesced → cancelled = true)
  judged : ∀ e ∈ l.taken, l.Judged generation e.1 e.2
  emits : l.emits.Sublist l.taken

def pcStateOf (p : PcPortal) (t : PcTicket) : PcState :=
  match pcFind p t with
  | none => .free
  | some r => r.state

/-- The rows are as the log says. -/
structure PcSound (p : PcPortal) (l : PcLog) : Prop where
  history : PcHistory p.providerGeneration l
  states : ∀ t, l.Has t (pcStateOf p t)
  counts : ∀ t ∈ l.tickets, Tickets.Counted PcRow.generation p.rows t.slot t.generation
  incarnation : ∀ t ∈ l.tickets, t.incarnation = p.incarnation
  inUse : ∀ r ∈ p.rows, r.state ≠ .free → r.generation ≠ 0 ∧ r.order < p.nextOrder
  explained : ∀ t r, pcFind p t = some r → l.Explains p.providerGeneration t r.result
  order : p.nextOrder ≤ Words.max64

section Rows

variable {p : PcPortal} {t : PcTicket} {i : ℕ} {r : PcRow}

theorem pcFind_eq (p : PcPortal) (t : PcTicket) :
    pcFind p t = Tickets.lookup PcRow.generation (fun r => decide (r.state ≠ .free)) p.incarnation
      p.rows t.incarnation t.slot t.generation := by
  rw [pcFind, Tickets.lookup, Tickets.find]
  cases p.rows[t.slot]? with
  | none => rfl
  | some r =>
    congr 1
    exact if_congr (by rw [decide_eq_true_eq]) rfl rfl

theorem pcFind_some (h : pcFind p t = some r) :
    t = ⟨p.incarnation, t.slot, r.generation⟩ ∧ p.rows[t.slot]? = some r ∧ r.state ≠ .free := by
  rw [pcFind_eq, lookup_eq_some] at h
  obtain ⟨⟨hinc, _⟩, hrow, hused, hgen⟩ := h
  refine ⟨?_, hrow, by simpa using hused⟩
  obtain ⟨incarnation, slot, generation⟩ := t
  exact congrArg₂ (fun a b => PcTicket.mk a slot b) hinc hgen.symm

theorem pcFind_row (hrow : p.rows[i]? = some r) (hused : r.state ≠ .free)
    (hgen : r.generation ≠ 0) : pcFind p ⟨p.incarnation, i, r.generation⟩ = some r := by
  rw [pcFind_eq]
  exact lookup_eq_some.mpr ⟨⟨rfl, hgen⟩, hrow, by simpa using hused, rfl⟩

theorem pcFind_setRow (r' : PcRow) (hrow : p.rows[i]? = some r)
    (hcount : r.state ≠ .free → r'.generation = r.generation) (hgen : r'.generation ≠ 0)
    (t : PcTicket) :
    pcFind (p.setRow i r') t = if t = ⟨p.incarnation, i, r'.generation⟩ then
      (if r'.state ≠ .free then some r' else none) else pcFind p t := by
  obtain ⟨incarnation, slot, generation⟩ := t
  rw [pcFind_eq, pcFind_eq]
  refine (lookup_set hrow (fun hused => hcount (by simpa using hused)) hgen
    incarnation slot generation).trans ?_
  simp only [PcTicket.mk.injEq, decide_eq_true_eq]
  rfl

theorem pcStateOf_of_find (h : pcFind p t = some r) : pcStateOf p t = r.state := by
  rw [pcStateOf, h]

theorem pcUpdate_cases (p : PcPortal) (t : PcTicket) (f : PcRow → Except PcStatus PcRow) :
    (pcFind p t = none ∧ pcUpdate p t f = (p, .estale)) ∨
      (∃ r e, pcFind p t = some r ∧ f r = .error e ∧ pcUpdate p t f = (p, e)) ∨
      ∃ r r', pcFind p t = some r ∧ f r = .ok r' ∧ pcUpdate p t f = (p.setRow t.slot r', .ok) := by
  rw [pcUpdate]
  cases hfind : pcFind p t with
  | none => exact .inl ⟨rfl, rfl⟩
  | some r =>
    dsimp only
    cases hf : f r with
    | error e => exact .inr (.inl ⟨r, e, rfl, hf, rfl⟩)
    | ok r' => exact .inr (.inr ⟨r, r', rfl, hf, rfl⟩)

end Rows

section Writes

variable {p : PcPortal} {l l' : PcLog} {t : PcTicket} {r r' : PcRow}

theorem PcSound.has (h : PcSound p l) (hfind : pcFind p t = some r) : l.Has t r.state := by
  have hstate := h.states t
  rw [pcStateOf_of_find hfind] at hstate
  exact hstate

theorem PcLog.has_congr {state : PcState} (l l' : PcLog) (hbegun : t ∈ l'.tickets ↔ t ∈ l.tickets)
    (hcancels : t ∈ l'.cancels ↔ t ∈ l.cancels) (hreported : t ∈ l'.reported ↔ t ∈ l.reported)
    (htaken : t ∈ l'.takenTickets ↔ t ∈ l.takenTickets)
    (hsettled : t ∈ l'.settled ↔ t ∈ l.settled) : l'.Has t state ↔ l.Has t state := by
  cases state <;> simp only [PcLog.Has, PcLog.Open, hbegun, hcancels, hreported, htaken, hsettled]

theorem PcSound.write (h : PcSound p l) (hfind : pcFind p t = some r)
    (hgen : r'.generation = r.generation) (horder : r'.state ≠ .free → r'.order = r.order)
    (hbegun : l'.begun = l.begun) (hhist : PcHistory p.providerGeneration l')
    (hself : l'.Has t r'.state) (hothers : ∀ t' state, t' ≠ t → l.Has t' state → l'.Has t' state)
    (hexplains : r'.state ≠ .free → l'.Explains p.providerGeneration t r'.result)
    (hexplained : ∀ t' result, t' ≠ t → l.Explains p.providerGeneration t' result →
      l'.Explains p.providerGeneration t' result) : PcSound (p.setRow t.slot r') l' := by
  obtain ⟨htick, hrow, hused⟩ := pcFind_some hfind
  obtain ⟨hpos, hlt⟩ := h.inUse r (mem_of_getElem? hrow) hused
  have hpos' : r'.generation ≠ 0 := by
    rw [hgen]
    exact hpos
  have hfound : ∀ t', pcFind (p.setRow t.slot r') t' = if t' = t then
      (if r'.state ≠ .free then some r' else none) else pcFind p t' := by
    intro t'
    have hset := pcFind_setRow r' hrow (fun _ => hgen) hpos' t'
    rw [hgen, ← htick] at hset
    exact hset
  have htickets : l'.tickets = l.tickets := by
    rw [PcLog.tickets, PcLog.tickets, hbegun]
  constructor
  · exact hhist
  · intro t'
    rw [pcStateOf, hfound]
    by_cases ht : t' = t
    · rw [if_pos ht, ht]
      by_cases hfree : r'.state = .free
      · rw [if_neg (not_not.mpr hfree)]
        rw [hfree] at hself
        exact hself
      · rw [if_pos hfree]
        exact hself
    · rw [if_neg ht]
      exact hothers t' _ ht (h.states t')
  · intro t' ht'
    rw [htickets] at ht'
    exact (h.counts t' ht').set hrow hgen.ge
  · intro t' ht'
    rw [htickets] at ht'
    exact h.incarnation t' ht'
  · intro r'' hr''
    rcases mem_or_eq_of_mem_set hr'' with hr'' | rfl
    · exact h.inUse r'' hr''
    · intro hstate
      refine ⟨hpos', ?_⟩
      rw [horder hstate]
      exact hlt
  · intro t' r'' hr''
    rw [hfound] at hr''
    by_cases ht : t' = t
    · rw [if_pos ht, ite_none_right_eq_some] at hr''
      obtain ⟨hstate, heq⟩ := hr''
      cases heq
      rw [ht]
      exact hexplains hstate
    · rw [if_neg ht] at hr''
      exact hexplained t' _ ht (h.explained t' r'' hr'')
  · exact h.order

end Writes

section Entries

variable {l : PcLog} {t t' : PcTicket} {generation : ℕ} {result : PcResult}

@[simp] theorem PcLog.begin_tickets (l : PcLog) (t : PcTicket) (correlation : ℕ) :
    (l.begin t correlation).tickets = l.tickets ++ [t] :=
  map_append

@[simp] theorem PcLog.report_reported (l : PcLog) (t : PcTicket) (report : PcReport) :
    (l.report t report).reported = l.reported ++ [t] :=
  map_append

@[simp] theorem PcLog.take_takenTickets (l : PcLog) (e : PcTicket × PcResult) :
    (l.take e).takenTickets = l.takenTickets ++ [e.1] :=
  map_append

theorem PcLog.Judged.reported (h : l.Judged generation t result) : t ∈ l.reported := by
  obtain ⟨_, _, _, _, hreport, _⟩ := h
  exact mem_map_of_mem hreport

theorem PcLog.Judged.mono {l' : PcLog} (h : l.Judged generation t result)
    (hbegun : l.begun ⊆ l'.begun) (hreports : l.reports ⊆ l'.reports) :
    l'.Judged generation t result := by
  obtain ⟨correlation, report, cancelled, hmem, hreport, hres⟩ := h
  exact ⟨correlation, report, cancelled, hbegun hmem, hreports hreport, hres⟩

theorem PcLog.Explains.mono {l' : PcLog} (h : l.Explains generation t result)
    (hbegun : l.begun ⊆ l'.begun) (hreports : l.reports ⊆ l'.reports)
    (hself : t ∈ l'.reported → t ∈ l.reported) : l'.Explains generation t result := by
  rcases h with ⟨hnot, correlation, hmem, hres⟩ | hjudged
  · exact .inl ⟨fun hin => hnot (hself hin), correlation, hbegun hmem, hres⟩
  · exact .inr (hjudged.mono hbegun hreports)

end Entries

section Histories

variable {l : PcLog} {t : PcTicket} {generation : ℕ}

variable (h : PcHistory generation l)
include h

theorem PcHistory.begin (hfresh : t ∉ l.tickets) (correlation : ℕ) :
    PcHistory generation (l.begin t correlation) := by
  constructor
  · rw [PcLog.begin_tickets]
    exact nodup_append_singleton h.begun hfresh
  · exact h.reported
  · exact h.taken
  · intro t' ht'
    rw [PcLog.begin_tickets]
    exact mem_append_left _ (h.cancels t' ht')
  · intro t' ht'
    rw [PcLog.begin_tickets]
    exact mem_append_left _ (h.reports t' ht')
  · exact h.takes
  · exact h.settles
  · exact h.cancelled
  · exact fun e he => (h.judged e he).mono (subset_append_left _ _) (fun _ hmem => hmem)
  · exact h.emits

theorem PcHistory.cancel (hbegun : t ∈ l.tickets)
    (hnot : t ∉ l.reported) : PcHistory generation (l.cancel t) := by
  constructor
  · exact h.begun
  · exact h.reported
  · exact h.taken
  · intro t' ht'
    rcases mem_append.mp ht' with ht' | ht'
    · exact h.cancels t' ht'
    · cases mem_singleton.mp ht'
      exact hbegun
  · exact h.reports
  · exact h.takes
  · exact h.settles
  · intro t' report cancelled hmem
    obtain ⟨hcancelled, hquiesced⟩ := h.cancelled t' report cancelled hmem
    refine ⟨hcancelled.trans ?_, hquiesced⟩
    refine (mem_append_singleton_of_ne ?_).symm
    rintro rfl
    exact hnot (mem_map_of_mem hmem)
  · exact h.judged
  · exact h.emits

theorem PcHistory.report (hbegun : t ∈ l.tickets)
    (hnot : t ∉ l.reported) (report : PcReport)
    (hquiesced : report = .cancelQuiesced → t ∈ l.cancels) :
    PcHistory generation (l.report t report) := by
  constructor
  · exact h.begun
  · rw [PcLog.report_reported]
    exact nodup_append_singleton h.reported hnot
  · exact h.taken
  · exact h.cancels
  · intro t' ht'
    rw [PcLog.report_reported] at ht'
    rcases mem_append.mp ht' with ht' | ht'
    · exact h.reports t' ht'
    · cases mem_singleton.mp ht'
      exact hbegun
  · intro t' ht'
    rw [PcLog.report_reported]
    exact mem_append_left _ (h.takes t' ht')
  · exact h.settles
  · intro t' report' cancelled hmem
    rcases mem_append.mp hmem with hmem | hmem
    · exact h.cancelled t' report' cancelled hmem
    · cases mem_singleton.mp hmem
      rw [decide_eq_true_eq]
      exact ⟨Iff.rfl, hquiesced⟩
  · exact fun e he => (h.judged e he).mono (fun _ hmem => hmem) (subset_append_left _ _)
  · exact h.emits

theorem PcHistory.take {result : PcResult}
    (hjudged : l.Judged generation t result) (hnot : t ∉ l.takenTickets) :
    PcHistory generation (l.take (t, result)) := by
  constructor
  · exact h.begun
  · exact h.reported
  · rw [PcLog.take_takenTickets]
    exact nodup_append_singleton h.taken hnot
  · exact h.cancels
  · exact h.reports
  · intro t' ht'
    rw [PcLog.take_takenTickets] at ht'
    rcases mem_append.mp ht' with ht' | ht'
    · exact h.takes t' ht'
    · cases mem_singleton.mp ht'
      exact hjudged.reported
  · intro t' ht'
    rw [PcLog.take_takenTickets]
    exact mem_append_left _ (h.settles t' ht')
  · exact h.cancelled
  · intro e he
    rcases mem_append.mp he with he | he
    · exact h.judged e he
    · cases mem_singleton.mp he
      exact hjudged
  · exact h.emits.trans (sublist_append_left _ _)

theorem PcHistory.settle (htaken : t ∈ l.takenTickets) :
    PcHistory generation (l.settle t) := by
  refine ⟨h.begun, h.reported, h.taken, h.cancels, h.reports, h.takes, fun t' ht' => ?_,
    h.cancelled, h.judged, h.emits⟩
  rcases mem_append.mp ht' with ht' | ht'
  · exact h.settles t' ht'
  · cases mem_singleton.mp ht'
    exact htaken

end Histories

section Steps

variable {p : PcPortal} {l : PcLog} {t : PcTicket} {r : PcRow}

variable (h : PcSound p l)
include h

/-- A call that names a ticket keeps the rows as the log says, when a write does. -/
theorem PcSound.update {f : PcRow → Except PcStatus PcRow} {l' : PcLog}
    (hrefuses : ∀ r e, f r = .error e → e ≠ .ok)
    (hwrites : ∀ r r', pcFind p t = some r → f r = .ok r' → PcSound (p.setRow t.slot r') l') :
    PcSound (pcUpdate p t f).1 (if (pcUpdate p t f).2 = .ok then l' else l) := by
  rcases pcUpdate_cases p t f with ⟨_, heq⟩ | ⟨r, e, _, hf, heq⟩ | ⟨r, r', hfind, hf, heq⟩
  · rw [heq, if_neg (by simp)]
    exact h
  · rw [heq, if_neg (hrefuses r e hf)]
    exact h
  · rw [heq, if_pos rfl]
    exact hwrites r r' hfind hf

variable (hfind : pcFind p t = some r)
include hfind

theorem PcSound.unreported (hstate : r.state = .inflight ∨ r.state = .cancelPending) :
    l.Open t ∧ t ∉ l.reported ∧ (t ∈ l.cancels ↔ r.state = .cancelPending) := by
  have hhas := h.has hfind
  rcases hstate with hstate | hstate
  · rw [hstate] at hhas ⊢
    exact ⟨hhas.1, hhas.2.2, iff_of_false hhas.2.1 (by simp)⟩
  · rw [hstate] at hhas ⊢
    exact ⟨hhas.1, hhas.2.2, iff_of_true hhas.2.1 rfl⟩

theorem PcSound.cancel (hstate : r.state = .inflight) :
    PcSound (p.setRow t.slot { r with state := .cancelPending }) (l.cancel t) := by
  obtain ⟨hopen, hnot, _⟩ := h.unreported hfind (.inl hstate)
  refine h.write hfind rfl (fun _ => rfl) rfl (h.history.cancel hopen.1 hnot)
    ⟨hopen, mem_append_right _ mem_cons_self, hnot⟩ ?_
    (fun _ => h.explained t r hfind) (fun _ _ _ hexplains => hexplains)
  intro t' state ht' hhas
  exact (PcLog.has_congr l (l.cancel t) Iff.rfl (mem_append_singleton_of_ne ht') Iff.rfl
    Iff.rfl Iff.rfl).mpr hhas

theorem PcSound.report (hstate : r.state = .inflight ∨ r.state = .cancelPending) (report : PcReport)
    (hquiesced : report = .cancelQuiesced → r.state = .cancelPending) :
    PcSound (p.setRow t.slot (pcReady r (report.outcome (decide (r.state = .cancelPending)))
      report.observed report.status)) (l.report t report) := by
  obtain ⟨hopen, hnot, hcancels⟩ := h.unreported hfind hstate
  have hmem : t ∈ (l.report t report).reported := by
    rw [PcLog.report_reported]
    exact mem_append_right _ mem_cons_self
  have huntaken : t ∉ l.takenTickets := fun hin => hnot (h.history.takes t hin)
  have hothers : ∀ t', t' ≠ t → (t' ∈ (l.report t report).reported ↔ t' ∈ l.reported) := by
    intro t' ht'
    rw [PcLog.report_reported]
    exact mem_append_singleton_of_ne ht'
  refine h.write hfind rfl (fun _ => rfl) rfl
    (h.history.report hopen.1 hnot report (fun hreport => hcancels.mpr (hquiesced hreport)))
    ⟨hopen, hmem, huntaken⟩ ?_ (fun _ => .inr ?_) ?_
  · intro t' state ht' hhas
    exact (PcLog.has_congr l (l.report t report) Iff.rfl Iff.rfl (hothers t' ht') Iff.rfl
      Iff.rfl).mpr hhas
  · rcases h.explained t r hfind with ⟨_, correlation, hbegun, hres⟩ | hjudged
    · refine ⟨correlation, report, decide (t ∈ l.cancels), hbegun,
        mem_append_right _ mem_cons_self, ?_⟩
      rw [pcReady, hres, pcVerdict, decide_eq_decide.mpr hcancels]
    · exact absurd hjudged.reported hnot
  · intro t' result ht' hexplains
    exact hexplains.mono (fun _ hin => hin) (subset_append_left _ _) (hothers t' ht').mp

theorem PcSound.settle (hstate : r.state = .taken) :
    PcSound (p.setRow t.slot r.clear) (l.settle t) := by
  have hhas := h.has hfind
  rw [hstate] at hhas
  refine h.write hfind rfl (fun hused => absurd rfl hused) rfl (h.history.settle hhas.2)
    (fun hopen => hopen.2 (mem_append_right _ mem_cons_self)) ?_
    (fun hused => absurd rfl hused) (fun _ _ _ hexplains => hexplains)
  intro t' state ht' hhas'
  exact (PcLog.has_congr l (l.settle t) Iff.rfl Iff.rfl Iff.rfl Iff.rfl
    (mem_append_singleton_of_ne ht')).mpr hhas'

omit hfind

variable (t : PcTicket)

theorem PcSound.failStart (status : ℤ) :
    PcSound (pcFailStart p t status).1
      (if (pcFailStart p t status).2 = .ok then l.report t (.failStart status) else l) := by
  refine h.update (fun r e he => ?_) (fun r r' hfind hr' => ?_)
  · split_ifs at he
    cases he
    simp
  · split_ifs at hr' with hstate
    rw [not_not] at hstate
    cases hr'
    have hready := h.report hfind (.inl hstate) (.failStart status) (by simp)
    rw [hstate] at hready
    exact hready

theorem PcSound.complete (status : ℤ) :
    PcSound (pcComplete p t status).1
      (if (pcComplete p t status).2 = .ok then l.report t (.complete status) else l) := by
  refine h.update (fun r e he => ?_) (fun r r' hfind hr' => ?_)
  · split_ifs at he
    cases he
    simp
  · split_ifs at hr' with hinflight hcancel
    · cases hr'
      have hready := h.report hfind (.inl hinflight) (.complete status) (by simp)
      rw [hinflight] at hready
      exact hready
    · cases hr'
      have hready := h.report hfind (.inr hcancel) (.complete status) (by simp)
      rw [hcancel] at hready
      exact hready

theorem PcSound.requestCancel :
    PcSound (pcRequestCancel p t).1 (if (pcRequestCancel p t).2 = .ok then l.cancel t else l) := by
  refine h.update (fun r e he => ?_) (fun r r' hfind hr' => ?_)
  · split_ifs at he
    cases he
    simp
  · split_ifs at hr' with hstate
    cases hr'
    exact h.cancel hfind hstate

theorem PcSound.cancelQuiesced :
    PcSound (pcCancelQuiesced p t).1
      (if (pcCancelQuiesced p t).2 = .ok then l.report t .cancelQuiesced else l) := by
  refine h.update (fun r e he => ?_) (fun r r' hfind hr' => ?_)
  · split_ifs at he
    cases he
    simp
  · split_ifs at hr' with hstate
    cases hr'
    have hready := h.report hfind (.inr hstate) .cancelQuiesced (fun _ => hstate)
    rw [hstate] at hready
    exact hready

theorem PcSound.pcSettle :
    PcSound (pcSettle p t).1 (if (pcSettle p t).2 = .ok then l.settle t else l) := by
  refine h.update (fun r e he => ?_) (fun r r' hfind hr' => ?_)
  · split_ifs at he
    cases he
    simp
  · split_ifs at hr' with hstate
    rw [not_not] at hstate
    cases hr'
    exact h.settle hfind hstate

omit h

theorem pcTake_cases (p : PcPortal) :
    (pcTake p = (p, .error .ebusy) ∧ ∀ r ∈ p.rows, r.state = .ready → Words.max64 ≤ r.order) ∨
      ∃ i r, p.rows[i]? = some r ∧ r.state = .ready ∧
        pcTake p = (p.setRow i { r with state := .taken },
          .ok (⟨p.incarnation, i, r.generation⟩, r.result)) := by
  rw [pcTake]
  cases holdest : pcOldest p with
  | none =>
    refine .inl ⟨rfl, fun r hr hready => ?_⟩
    rw [pcOldest, map_eq_none_iff] at holdest
    have hkey := Scan.firstMin_eq_none holdest r hr
    by_contra hlt
    rw [if_pos ⟨hready, not_le.mp hlt⟩] at hkey
    cases hkey
  | some i =>
    rw [pcOldest] at holdest
    obtain ⟨⟨j, order⟩, hmin, rfl⟩ := map_eq_some_iff.mp holdest
    obtain ⟨r, hrow, hkey, _⟩ := Scan.firstMin_eq_some hmin
    split_ifs at hkey with hready
    refine .inr ⟨j, r, hrow, hready.1, ?_⟩
    have hget : p.rows.getD j zeroPcRow = r := by
      rw [getD_eq_getElem?_getD, hrow]
      rfl
    dsimp only
    rw [hget]

theorem PcSound.take {i : ℕ} (h : PcSound p l) (hrow : p.rows[i]? = some r)
    (hready : r.state = .ready) :
    PcSound (p.setRow i { r with state := .taken })
      (l.take (⟨p.incarnation, i, r.generation⟩, r.result)) := by
  have hused : r.state ≠ .free := by
    rw [hready]
    simp
  have hfind := pcFind_row hrow hused (h.inUse r (mem_of_getElem? hrow) hused).1
  have hhas := h.has hfind
  rw [hready] at hhas
  obtain ⟨hopen, hreported, huntaken⟩ := hhas
  have hjudged : l.Judged p.providerGeneration ⟨p.incarnation, i, r.generation⟩ r.result := by
    rcases h.explained _ r hfind with ⟨hnot, _⟩ | hjudged
    · exact absurd hreported hnot
    · exact hjudged
  have hgen : ({ r with state := .taken } : PcRow).generation = r.generation := rfl
  refine h.write hfind hgen (fun _ => rfl) rfl
    (h.history.take hjudged huntaken) ⟨hopen, ?_⟩ ?_ (fun _ => .inr hjudged)
    (fun _ _ _ hexplains => hexplains)
  · rw [PcLog.take_takenTickets]
    exact mem_append_right _ mem_cons_self
  · intro t' state ht' hhas'
    refine (PcLog.has_congr l (l.take _) Iff.rfl Iff.rfl Iff.rfl ?_ Iff.rfl).mpr hhas'
    rw [PcLog.take_takenTickets]
    exact mem_append_singleton_of_ne ht'

theorem pcBegin_cases (p : PcPortal) (correlation : ℕ) :
    (∃ e, pcBegin p correlation = (p, .error e)) ∨
      ∃ i r, p.rows[i]? = some r ∧ r.state = .free ∧ p.nextOrder ≠ Words.max64 ∧
        pcBegin p correlation =
          ({ p.setRow i (r.start p.nextOrder correlation p.providerGeneration) with
            nextOrder := p.nextOrder + 1 }, .ok ⟨p.incarnation, i, r.generation + 1⟩) := by
  rw [pcBegin]
  split
  · exact .inl ⟨_, rfl⟩
  · split
    · exact .inl ⟨_, rfl⟩
    · split
      · exact .inl ⟨_, rfl⟩
      next horder =>
        cases hfree : pcFreeRow p with
        | none => exact .inl ⟨_, rfl⟩
        | some i =>
          obtain ⟨hlt, hp, _⟩ := findIdx?_eq_some_iff_getElem.mp hfree
          simp only [Bool.and_eq_true, decide_eq_true_eq] at hp
          have hget : p.rows.getD i zeroPcRow = p.rows[i] := by
            simp [getD_eq_getElem?_getD, hlt]
          refine .inr ⟨i, p.rows[i], getElem?_eq_getElem hlt, hp.1, horder, ?_⟩
          dsimp only
          rw [hget]

theorem PcSound.begin {i : ℕ} (h : PcSound p l) (hrow : p.rows[i]? = some r)
    (hfree : r.state = .free) (horder : p.nextOrder ≠ Words.max64) (correlation : ℕ) :
    PcSound { p.setRow i (r.start p.nextOrder correlation p.providerGeneration) with
      nextOrder := p.nextOrder + 1 }
      (l.begin ⟨p.incarnation, i, r.generation + 1⟩ correlation) := by
  have hfresh : (⟨p.incarnation, i, r.generation + 1⟩ : PcTicket) ∉ l.tickets := by
    intro hmem
    obtain ⟨r', hr', hle⟩ := h.counts _ hmem
    cases hrow.symm.trans hr'
    exact absurd hle (Nat.not_succ_le_self _)
  have hcancels : (⟨p.incarnation, i, r.generation + 1⟩ : PcTicket) ∉ l.cancels :=
    fun hmem => hfresh (h.history.cancels _ hmem)
  have hreported : (⟨p.incarnation, i, r.generation + 1⟩ : PcTicket) ∉ l.reported :=
    fun hmem => hfresh (h.history.reports _ hmem)
  have hsettled : (⟨p.incarnation, i, r.generation + 1⟩ : PcTicket) ∉ l.settled :=
    fun hmem => hreported (h.history.takes _ (h.history.settles _ hmem))
  have hothers : ∀ t, t ≠ ⟨p.incarnation, i, r.generation + 1⟩ →
      (t ∈ (l.begin ⟨p.incarnation, i, r.generation + 1⟩ correlation).tickets ↔ t ∈ l.tickets) := by
    intro t ht
    rw [PcLog.begin_tickets]
    exact mem_append_singleton_of_ne ht
  have hself : (⟨p.incarnation, i, r.generation + 1⟩ : PcTicket) ∈
      (l.begin ⟨p.incarnation, i, r.generation + 1⟩ correlation).tickets := by
    rw [PcLog.begin_tickets]
    exact mem_append_right _ mem_cons_self
  have hfound : ∀ t, pcFind (p.setRow i (r.start p.nextOrder correlation p.providerGeneration)) t =
      if t = ⟨p.incarnation, i, r.generation + 1⟩ then
        some (r.start p.nextOrder correlation p.providerGeneration)
      else pcFind p t :=
    pcFind_setRow _ hrow (fun hused => absurd hfree hused) (Nat.succ_ne_zero _)
  constructor
  · exact h.history.begin hfresh correlation
  · intro t
    show PcLog.Has _ t (pcStateOf (p.setRow i _) t)
    rw [pcStateOf, hfound]
    by_cases ht : t = ⟨p.incarnation, i, r.generation + 1⟩
    · rw [if_pos ht, ht]
      exact ⟨⟨hself, hsettled⟩, hcancels, hreported⟩
    · rw [if_neg ht]
      exact (PcLog.has_congr l (l.begin _ correlation) (hothers t ht) Iff.rfl Iff.rfl Iff.rfl
        Iff.rfl).mpr (h.states t)
  · intro t ht
    rw [PcLog.begin_tickets] at ht
    rcases mem_append.mp ht with ht | ht
    · exact (h.counts t ht).set hrow (Nat.le_succ _)
    · cases mem_singleton.mp ht
      exact counted_set_self hrow le_rfl
  · intro t ht
    rw [PcLog.begin_tickets] at ht
    rcases mem_append.mp ht with ht | ht
    · exact h.incarnation t ht
    · cases mem_singleton.mp ht
      rfl
  · intro r' hr' hused
    rcases mem_or_eq_of_mem_set hr' with hr' | rfl
    · obtain ⟨hpos, hlt⟩ := h.inUse r' hr' hused
      exact ⟨hpos, hlt.trans (Nat.lt_succ_self _)⟩
    · exact ⟨Nat.succ_ne_zero _, Nat.lt_succ_self _⟩
  · intro t r' hr'
    have hr'' := (hfound t).symm.trans hr'
    by_cases ht : t = ⟨p.incarnation, i, r.generation + 1⟩
    · rw [if_pos ht] at hr''
      cases hr''
      rw [ht]
      exact .inl ⟨hreported, correlation, mem_append_right _ mem_cons_self, rfl⟩
    · rw [if_neg ht] at hr''
      exact (h.explained t r' hr'').mono (subset_append_left _ _) (fun _ hin => hin)
        (fun hin => hin)
  · exact lt_of_le_of_ne h.order horder

end Steps

section Owner

variable {o : OdOwner} {l : PcLog}

theorem PcLog.see_status (l : PcLog) (o : OdOwner) (t : PcTicket) (status : ℤ) (e : PcStatus) :
    l.see o (.failStart t status) (.status e) =
        (if e = .ok then l.report t (.failStart status) else l) ∧
      l.see o (.complete t status) (.status e) =
        (if e = .ok then l.report t (.complete status) else l) ∧
      l.see o (.requestCancel t) (.status e) = (if e = .ok then l.cancel t else l) ∧
      l.see o (.cancelQuiesced t) (.status e) =
        (if e = .ok then l.report t .cancelQuiesced else l) ∧
      l.see o (.settle t) (.status e) = (if e = .ok then l.settle t else l) := by
  cases e <;> exact ⟨rfl, rfl, rfl, rfl, rfl⟩

theorem PcSound.emit {p : PcPortal} {e : PcTicket × PcResult} (h : PcSound p (l.take e))
    (hemits : l.emits.Sublist l.taken) : PcSound p ((l.take e).emit e) := by
  obtain ⟨hbegun, hreported, htaken, hcancels, hreports, htakes, hsettles,
    hcancelled, hjudged, _⟩ :=
    h.history
  exact ⟨⟨hbegun, hreported, htaken, hcancels, hreports, htakes, hsettles, hcancelled, hjudged,
    hemits.append (List.Sublist.refl _)⟩, h.states, h.counts, h.incarnation, h.inUse, h.explained,
    h.order⟩

theorem PcSound.stepCompletion (h : PcSound o.portal l) :
    PcSound (odStepCompletion o).1.portal
      (l.see o .stepCompletion (.emits (odStepCompletion o).2)) := by
  rw [odStepCompletion]
  split_ifs
  · exact h
  · exact h
  · rcases pcTake_cases o.portal with ⟨heq, _⟩ | ⟨i, r, hrow, hready, heq⟩
    · rw [heq]
      exact h
    · rw [heq]
      exact (h.take hrow hready).emit h.history.emits

theorem PcSound.emitted (h : PcSound o.portal l) (answer : ℤ) :
    PcSound (odEmitted o answer).1.portal
      (l.see o (.emitted answer) (.emitted (odEmitted o answer).2)) := by
  rw [odEmitted]
  cases hemitting : o.emitting with
  | none => exact h
  | some t =>
    dsimp only
    split_ifs
    · exact h
    · have hsettle := h.pcSettle t
      rcases hres : StreamGraph.pcSettle o.portal t with ⟨portal, e⟩
      rw [hres] at hsettle
      cases e with
      | ok =>
        rw [if_pos rfl] at hsettle
        show PcSound portal (l.settle (o.emitting.getD zeroPcTicket))
        rw [hemitting]
        exact hsettle
      | _ =>
        rw [if_neg (by simp)] at hsettle
        exact hsettle

theorem PcSound.settlePendingCompletion (h : PcSound o.portal l) :
    PcSound (odSettlePendingCompletion o).1.portal
      (l.see o .settlePendingCompletion (.owner (odSettlePendingCompletion o).2)) := by
  rw [odSettlePendingCompletion]
  split_ifs
  · exact h
  · exact h
  · have hsettle := h.pcSettle o.pendingCompletion
    rcases hres : StreamGraph.pcSettle o.portal o.pendingCompletion with ⟨portal, e⟩
    rw [hres] at hsettle
    cases e with
    | ok =>
      rw [if_pos rfl] at hsettle
      exact hsettle
    | _ =>
      rw [if_neg (by simp)] at hsettle
      exact hsettle

theorem PcSound.step {w : PcWatched} (h : PcSound w.owner.portal w.log) (op : PcOp) :
    PcSound (pcMachine.next w op).owner.portal (pcMachine.next w op).log := by
  cases op with
  | begin correlation =>
    show PcSound (pcBegin w.owner.portal correlation).1
      (w.log.see w.owner (.begin correlation) (.begun (pcBegin w.owner.portal correlation).2))
    rcases pcBegin_cases w.owner.portal correlation with ⟨e, heq⟩ | ⟨i, r, hrow, hfree, horder, heq⟩
    · rw [heq]
      exact h
    · rw [heq]
      exact h.begin hrow hfree horder correlation
  | failStart t status =>
    have hnext := h.failStart t status
    rw [← (w.log.see_status w.owner t status _).1] at hnext
    exact hnext
  | complete t status =>
    have hnext := h.complete t status
    rw [← (w.log.see_status w.owner t status _).2.1] at hnext
    exact hnext
  | requestCancel t =>
    have hnext := h.requestCancel t
    rw [← (w.log.see_status w.owner t 0 _).2.2.1] at hnext
    exact hnext
  | cancelQuiesced t =>
    have hnext := h.cancelQuiesced t
    rw [← (w.log.see_status w.owner t 0 _).2.2.2.1] at hnext
    exact hnext
  | take =>
    show PcSound (pcTake w.owner.portal).1
      (w.log.see w.owner .take (.taken (pcTake w.owner.portal).2))
    rcases pcTake_cases w.owner.portal with ⟨heq, _⟩ | ⟨i, r, hrow, hready, heq⟩
    · rw [heq]
      exact h
    · rw [heq]
      exact h.take hrow hready
  | settle t =>
    have hnext := h.pcSettle t
    rw [← (w.log.see_status w.owner t 0 _).2.2.2.2] at hnext
    exact hnext
  | sealPortal =>
    exact ⟨h.history, h.states, h.counts, h.incarnation, h.inUse, h.explained, h.order⟩
  | bindCompletion =>
    show PcSound (odBindCompletion w.owner).1.portal w.log
    rw [odBindCompletion]
    split_ifs <;> exact h
  | stepCompletion => exact h.stepCompletion
  | emitted answer => exact h.emitted answer
  | settlePendingCompletion => exact h.settlePendingCompletion

end Owner

section Deliveries

variable {o : OdOwner} {l : PcLog}

/-- While the host has a result, the owner keeps it. -/
structure OdSteady (o : OdOwner) (l : PcLog) : Prop where
  incarnation : o.portal.incarnation ≠ 0
  busy : o.inStep = o.emitting.isSome
  keeps : ∀ t, o.emitting = some t → o.bound = true ∧ o.pendingCompletion = t ∧
    t.incarnation ≠ 0 ∧ (t, o.pendingTerminal) ∈ l.emits

theorem pcUpdate_incarnation (p : PcPortal) (t : PcTicket) (f : PcRow → Except PcStatus PcRow) :
    (pcUpdate p t f).1.incarnation = p.incarnation := by
  rcases pcUpdate_cases p t f with ⟨_, heq⟩ | ⟨r, e, _, _, heq⟩ | ⟨r, r', _, _, heq⟩
  · rw [heq]
  · rw [heq]
  · rw [heq]
    rfl

theorem OdSteady.withPortal {l' : PcLog} (h : OdSteady o l) (portal : PcPortal)
    (hinc : portal.incarnation = o.portal.incarnation) (hemits : l'.emits = l.emits) :
    OdSteady (o.withPortal portal) l' := by
  constructor
  · show portal.incarnation ≠ 0
    rw [hinc]
    exact h.incarnation
  · exact h.busy
  · rw [hemits]
    exact h.keeps

theorem PcLog.see_status_emits (l : PcLog) (o : OdOwner) (op : PcOp) (e : PcStatus) :
    (l.see o op (.status e)).emits = l.emits := by
  cases op <;> cases e <;> rfl

theorem OdSteady.stepCompletion (h : OdSteady o l) :
    OdSteady (odStepCompletion o).1 (l.see o .stepCompletion (.emits (odStepCompletion o).2)) := by
  rw [odStepCompletion]
  split
  · exact h
  next hbound =>
    split_ifs
    · exact h
    · rcases pcTake_cases o.portal with ⟨heq, _⟩ | ⟨i, r, _, _, heq⟩
      · rw [heq]
        exact h
      · rw [heq]
        refine ⟨h.incarnation, rfl, fun t ht => ?_⟩
        cases ht
        exact ⟨by simpa using hbound, rfl, h.incarnation, mem_append_right _ mem_cons_self⟩

theorem OdSteady.emitted (h : OdSteady o l) (answer : ℤ) :
    OdSteady (odEmitted o answer).1 (l.see o (.emitted answer)
      (.emitted (odEmitted o answer).2)) := by
  rw [odEmitted]
  cases hemitting : o.emitting with
  | none => exact h
  | some t =>
    dsimp only
    split_ifs
    · exact ⟨h.incarnation, rfl, fun t ht => by cases ht⟩
    · have hinc : (pcSettle o.portal t).1.incarnation ≠ 0 := by
        rw [pcSettle, pcUpdate_incarnation]
        exact h.incarnation
      rcases hres : pcSettle o.portal t with ⟨portal, e⟩
      rw [hres] at hinc
      cases e <;> exact ⟨hinc, rfl, fun t ht => by cases ht⟩

theorem OdSteady.settlePendingCompletion (h : OdSteady o l) :
    OdSteady (odSettlePendingCompletion o).1
      (l.see o .settlePendingCompletion (.owner (odSettlePendingCompletion o).2)) := by
  rw [odSettlePendingCompletion]
  split
  · exact h
  next hstep =>
    have hnone : o.emitting = none := by
      have hbusy := h.busy
      rw [Bool.eq_false_iff.mpr hstep] at hbusy
      exact isSome_eq_false_iff.mp hbusy.symm |> isNone_iff_eq_none.mp
    split_ifs
    · exact h
    · have hinc : (pcSettle o.portal o.pendingCompletion).1.incarnation ≠ 0 := by
        rw [pcSettle, pcUpdate_incarnation]
        exact h.incarnation
      rcases hres : pcSettle o.portal o.pendingCompletion with ⟨portal, e⟩
      rw [hres] at hinc
      cases e <;> exact ⟨hinc, h.busy, fun t ht => by cases hnone.symm.trans ht⟩

theorem OdSteady.step {w : PcWatched} (h : OdSteady w.owner w.log) (op : PcOp) :
    OdSteady (pcMachine.next w op).owner (pcMachine.next w op).log := by
  cases op with
  | begin correlation =>
    show OdSteady (w.owner.withPortal (pcBegin w.owner.portal correlation).1)
      (w.log.see w.owner (.begin correlation) (.begun (pcBegin w.owner.portal correlation).2))
    rcases pcBegin_cases w.owner.portal correlation with ⟨e, heq⟩ | ⟨i, r, _, _, _, heq⟩
    · rw [heq]
      exact h
    · rw [heq]
      exact h.withPortal _ rfl rfl
  | failStart t status | complete t status | requestCancel t | cancelQuiesced t =>
    exact h.withPortal _ (pcUpdate_incarnation _ _ _) (PcLog.see_status_emits _ _ _ _)
  | take =>
    show OdSteady (w.owner.withPortal (pcTake w.owner.portal).1)
      (w.log.see w.owner .take (.taken (pcTake w.owner.portal).2))
    rcases pcTake_cases w.owner.portal with ⟨heq, _⟩ | ⟨i, r, _, _, heq⟩
    · rw [heq]
      exact h
    · rw [heq]
      exact h.withPortal _ rfl rfl
  | settle t => exact h.withPortal _ (pcUpdate_incarnation _ _ _) (PcLog.see_status_emits _ _ _ _)
  | sealPortal => exact h.withPortal _ rfl rfl
  | bindCompletion =>
    show OdSteady (odBindCompletion w.owner).1 w.log
    rw [odBindCompletion]
    split_ifs
    · exact h
    · exact h
    · refine ⟨h.incarnation, h.busy, fun t ht => ?_⟩
      obtain ⟨_, hrest⟩ := h.keeps t ht
      exact ⟨rfl, hrest⟩
  | stepCompletion => exact h.stepCompletion
  | emitted answer => exact h.emitted answer
  | settlePendingCompletion => exact h.settlePendingCompletion

end Deliveries

variable {o : OdOwner} {p : PcPortal} {l : PcLog} {t : PcTicket}

/-- To its callers a portal and its owner end every operation once, and deliver its
result once. -/
structure PcOnce (o : OdOwner) (l : PcLog) : Prop where
  begun : l.tickets.Nodup
  reported : l.reported.Nodup
  later : ∀ t ∈ l.reported, ∃ e, (e = .ealready ∨ e = .estale) ∧
    (∀ status, pcFailStart o.portal t status = (o.portal, e)) ∧
    (∀ status, pcComplete o.portal t status = (o.portal, e)) ∧
    pcRequestCancel o.portal t = (o.portal, e) ∧ pcCancelQuiesced o.portal t = (o.portal, e)
  taken : l.takenTickets.Nodup
  result : ∀ t result, (t, result) ∈ l.taken → ∃ correlation report cancelled,
    (t, correlation) ∈ l.begun ∧ (t, report, cancelled) ∈ l.reports ∧
      result.correlation = correlation ∧
      (result.outcome = pcCancelled ↔ cancelled = true) ∧
      (result.completionObserved = 1 ↔ ∃ status, report = .complete status) ∧
      result.providerStatus = report.status
  kept : ∀ t ∈ l.reported, t ∉ l.takenTickets → ∃ e, (pcTake o.portal).2 = .ok e
  emits : (l.emits.map Prod.fst).Nodup ∧ l.emits.Sublist l.taken
  failed : ∀ t answer, o.emitting = some t → answer ≠ 0 → ∃ result, (t, result) ∈ l.emits ∧
    odPendingCompletion (odEmitted o answer).1 = .ok result ∧
    (odStepCompletion (odEmitted o answer).1).2 = .error .ebusy
  reused : ∀ correlation t, (pcBegin o.portal correlation).2 = .ok t →
    ∀ t' ∈ l.tickets, t'.slot = t.slot → t' ∈ l.settled ∧ t' ∈ l.takenTickets

theorem PcSound.later {f : PcRow → Except PcStatus PcRow} (h : PcSound p l) (ht : t ∈ l.reported)
    (hf : ∀ r, r.state = .ready ∨ r.state = .taken → f r = .error .ealready) :
    pcUpdate p t f = (p, if (pcFind p t).isSome then .ealready else .estale) := by
  rw [pcUpdate]
  cases hfind : pcFind p t with
  | none => rfl
  | some r =>
    have hstate : r.state = .ready ∨ r.state = .taken := by
      have hhas := h.has hfind
      cases hstate : r.state with
      | free => exact absurd hstate (pcFind_some hfind).2.2
      | inflight | cancelPending =>
        rw [hstate] at hhas
        exact absurd ht hhas.2.2
      | ready => exact .inl rfl
      | taken => exact .inr rfl
    dsimp only
    rw [hf r hstate]
    rfl

theorem PcSound.refusals (h : PcSound p l) (ht : t ∈ l.reported) :
    ∃ e, (e = .ealready ∨ e = .estale) ∧ (∀ status, pcFailStart p t status = (p, e)) ∧
      (∀ status, pcComplete p t status = (p, e)) ∧ pcRequestCancel p t = (p, e) ∧
      pcCancelQuiesced p t = (p, e) := by
  refine ⟨if (pcFind p t).isSome then .ealready else .estale, ?_, fun status => ?_,
    fun status => ?_, ?_, ?_⟩
  · split_ifs
    · exact .inl rfl
    · exact .inr rfl
  · refine h.later ht (fun r hstate => ?_)
    rcases hstate with hstate | hstate <;> simp [hstate]
  · refine h.later ht (fun r hstate => ?_)
    rcases hstate with hstate | hstate <;> simp [hstate]
  · refine h.later ht (fun r hstate => ?_)
    rcases hstate with hstate | hstate <;> simp [hstate]
  · refine h.later ht (fun r hstate => ?_)
    rcases hstate with hstate | hstate <;> simp [hstate]

theorem pcVerdict_outcome {report : PcReport} {cancelled : Bool}
    (hquiesced : report = .cancelQuiesced → cancelled = true) :
    report.outcome cancelled = pcCancelled ↔ cancelled = true := by
  cases cancelled with
  | true => cases report <;> simp [PcReport.outcome]
  | false =>
    cases report with
    | failStart status => simp [PcReport.outcome, pcStartFailed, pcCancelled]
    | complete status => simp [PcReport.outcome, pcCompleted, pcCancelled]
    | cancelQuiesced => exact absurd (hquiesced rfl) (by simp)

theorem PcHistory.result {generation : ℕ} {result : PcResult} (h : PcHistory generation l)
    (hmem : (t, result) ∈ l.taken) :
    ∃ correlation report cancelled,
      (t, correlation) ∈ l.begun ∧ (t, report, cancelled) ∈ l.reports ∧
        result.correlation = correlation ∧ (result.outcome = pcCancelled ↔ cancelled = true) ∧
        (result.completionObserved = 1 ↔ ∃ status, report = .complete status) ∧
        result.providerStatus = report.status := by
  obtain ⟨correlation, report, cancelled, hbegun, hreport, hres⟩ := h.judged _ hmem
  dsimp only at hbegun hreport hres
  rw [hres]
  refine ⟨correlation, report, cancelled, hbegun, hreport, rfl,
    pcVerdict_outcome (h.cancelled t report cancelled hreport).2, ?_, rfl⟩
  cases report <;> simp [pcVerdict, PcReport.observed]

theorem PcSound.kept (h : PcSound p l) (ht : t ∈ l.reported) (huntaken : t ∉ l.takenTickets) :
    ∃ e, (pcTake p).2 = .ok e := by
  rcases pcTake_cases p with ⟨_, hnone⟩ | ⟨i, r, _, _, heq⟩
  · have hopen : l.Open t :=
      ⟨h.history.reports t ht, fun hmem => huntaken (h.history.settles t hmem)⟩
    have hhas := h.states t
    rw [pcStateOf] at hhas
    cases hfind : pcFind p t with
    | none =>
      rw [hfind] at hhas
      exact absurd hopen hhas
    | some r =>
      obtain ⟨_, hrow, hused⟩ := pcFind_some hfind
      have hlt := ((h.inUse r (mem_of_getElem? hrow) hused).2).trans_le h.order
      have hready : r.state = .ready := by
        rw [hfind] at hhas
        dsimp only at hhas
        cases hstate : r.state with
        | free => exact absurd hstate hused
        | inflight | cancelPending =>
          rw [hstate] at hhas
          exact absurd ht hhas.2.2
        | ready => rfl
        | taken =>
          rw [hstate] at hhas
          exact absurd hhas.2 huntaken
      exact absurd (hnone r (mem_of_getElem? hrow) hready) (not_le.mpr hlt)
  · rw [heq]
    exact ⟨_, rfl⟩

/-- A row is given out again after the result of its last operation was settled. -/
theorem PcSound.reused {correlation : ℕ} {t' : PcTicket} (h : PcSound p l)
    (hbegin : (pcBegin p correlation).2 = .ok t) (ht' : t' ∈ l.tickets) (hslot : t'.slot = t.slot) :
    t' ∈ l.settled ∧ t' ∈ l.takenTickets := by
  have hsettled : t' ∈ l.settled := by
    by_contra hopen
    rcases pcBegin_cases p correlation with ⟨e, heq⟩ | ⟨i, r, hrow, hfree, _, heq⟩
    · rw [heq] at hbegin
      cases hbegin
    · rw [heq] at hbegin
      cases hbegin
      have hhas := h.states t'
      rw [pcStateOf] at hhas
      cases hfind : pcFind p t' with
      | none =>
        rw [hfind] at hhas
        exact hhas ⟨ht', hopen⟩
      | some r' =>
        obtain ⟨_, hrow', hused⟩ := pcFind_some hfind
        rw [hslot] at hrow'
        cases hrow.symm.trans hrow'
        exact hused hfree
  exact ⟨hsettled, h.history.settles t' hsettled⟩

/-- After a delivery that failed the result stays with the owner, who does not emit. -/
theorem OdSteady.failed {answer : ℤ} (h : OdSteady o l) (hemitting : o.emitting = some t)
    (hans : answer ≠ 0) :
    ∃ result, (t, result) ∈ l.emits ∧ odPendingCompletion (odEmitted o answer).1 = .ok result ∧
      (odStepCompletion (odEmitted o answer).1).2 = .error .ebusy := by
  obtain ⟨hbound, hpend, hinc, hmem⟩ := h.keeps t hemitting
  have heq : (odEmitted o answer).1 = { o with
      inStep := false
      emitting := none } := by
    rw [odEmitted, hemitting]
    dsimp only
    rw [if_pos hans]
  rw [heq]
  refine ⟨o.pendingTerminal, hmem, ?_, ?_⟩
  · rw [odPendingCompletion, if_neg (by simp), if_neg (by rw [hpend]; exact hinc)]
  · rw [odStepCompletion, if_neg (by simp [hbound]),
      if_pos (.inr (by rw [hpend]; exact hinc))]

theorem pcSound_create {cfg : PcConfig} {incarnation : ℕ} (h : pcCreate cfg incarnation = .ok p) :
    PcSound p freshPcLog ∧ p.incarnation ≠ 0 := by
  rw [pcCreate] at h
  split_ifs at h with hver hcfg hinc
  cases h
  have hrows : ∀ r ∈ replicate cfg.capacity zeroPcRow, r.state = .free := by
    intro r hr
    rw [eq_of_mem_replicate hr]
    rfl
  have hnone : ∀ t, pcFind ⟨incarnation, cfg.providerGeneration, 1,
      replicate cfg.capacity zeroPcRow, false⟩ t = none := by
    intro t
    cases hfind : pcFind ⟨incarnation, cfg.providerGeneration, 1,
        replicate cfg.capacity zeroPcRow, false⟩ t with
    | none => rfl
    | some r =>
      obtain ⟨_, hrow, hused⟩ := pcFind_some hfind
      exact absurd (hrows r (mem_of_getElem? hrow)) hused
  have hhist : PcHistory cfg.providerGeneration freshPcLog := by
    constructor <;> simp [freshPcLog, PcLog.tickets, PcLog.reported, PcLog.takenTickets]
  refine ⟨⟨hhist, fun t => ?_, ?_, ?_, fun r hr hused => absurd (hrows r hr) hused,
    fun t r hr => ?_, ?_⟩, (not_or.mp hinc).1⟩
  · rw [pcStateOf, hnone]
    exact fun hopen => absurd hopen.1 not_mem_nil
  · exact fun t ht => absurd ht not_mem_nil
  · exact fun t ht => absurd ht not_mem_nil
  · rw [hnone] at hr
    cases hr
  · show 1 ≤ Words.max64
    decide

/-- **Every completion is delivered once.**  For every run of calls on a new portal and
its owner, in any order, with any answers of the host. -/
theorem completion_once (cfg : PcConfig) (incarnation : ℕ) (portal : PcPortal)
    (hportal : pcCreate cfg incarnation = .ok portal) (ops : List PcOp) (w : PcWatched)
    (hw : w = pcMachine.run ⟨odNew portal, freshPcLog⟩ ops) : PcOnce w.owner w.log := by
  obtain ⟨hsound, hincarnation⟩ := pcSound_create hportal
  have hrun : PcSound w.owner.portal w.log ∧ OdSteady w.owner w.log := by
    rw [hw]
    refine pcMachine.run_invariant (P := fun w => PcSound w.owner.portal w.log ∧
      OdSteady w.owner w.log) (fun _ op h => ⟨h.1.step op, h.2.step op⟩) ⟨hsound, ?_⟩ ops
    exact ⟨hincarnation, rfl, fun t ht => by cases ht⟩
  obtain ⟨h, hsteady⟩ := hrun
  have hemits : (w.log.emits.map Prod.fst).Nodup :=
    h.history.taken.sublist (h.history.emits.map _)
  exact ⟨h.history.begun, h.history.reported, fun _ => h.refusals, h.history.taken,
    fun _ _ => h.history.result, fun _ => h.kept, ⟨hemits, h.history.emits⟩,
    fun _ _ => hsteady.failed, fun _ _ hbegin _ => h.reused hbegin⟩

/-- A completion wins over a cancel request in flight, and its delivery fails. -/
def onePcRow : PcConfig :=
  ⟨sizeofPcConfig, pcAbi, 1, 0, 3⟩

def failedDelivery : List PcOp :=
  [.bindCompletion, .begin 5, .requestCancel ⟨7, 0, 1⟩, .complete ⟨7, 0, 1⟩ 4,
    .cancelQuiesced ⟨7, 0, 1⟩, .stepCompletion, .emitted 1, .stepCompletion,
    .settlePendingCompletion, .begin 6]

theorem completion_once_failed :
    (pcMachine.run ⟨odNew ⟨7, 3, 1, [zeroPcRow], false⟩, freshPcLog⟩ failedDelivery).log.emits =
        [(⟨7, 0, 1⟩, ⟨sizeofPcResult, pcAbi, pcCancelled, 1, 5, 3, 4, 0⟩)] ∧
      PcOnce (pcMachine.run ⟨odNew ⟨7, 3, 1, [zeroPcRow], false⟩, freshPcLog⟩ failedDelivery).owner
        (pcMachine.run ⟨odNew ⟨7, 3, 1, [zeroPcRow], false⟩, freshPcLog⟩ failedDelivery).log :=
  ⟨by decide, completion_once onePcRow 7 _ rfl failedDelivery _ rfl⟩

end TurboMedia.StreamGraph
