import TurboMedia.DataChannel.Reassembly

/-!
# Only whole messages are delivered

What the receive callback hands on, against the messages that usrsctp transports.

**Input.**  Any sequence of fragments and notifications.  A message is the fragments with one
key up to the one that ends it; the abort of a message, an incoming reset of its stream and
the end of its association end it without completing it (`Transport.take`).

**Method.**  The slots of the code are compared with the messages in progress (`Tracked`): a
slot holds the bytes of its message, or its message can no longer be whole.  Every operation
exchanges one slot (`Tracked.exchange`) or clears some (`Tracked.filter`).
-/

namespace TurboMedia.DataChannel

open List Reassembly SlotTable Function
open Option hiding sequence

def bytesOf (fs : List Fragment) : List UInt8 :=
  fs.flatMap Fragment.bytes

/-- The messages in progress: the fragments of each key so far. -/
abbrev Transport : Type := MessageKey → List Fragment

/-- What one input does to the messages in progress, and the message that it completes. -/
def Transport.take (t : Transport) : SctpInput → Transport × Option (List Fragment)
  | .fragment f =>
    if f.eor then (update t f.key [], some (t f.key ++ [f]))
    else (update t f.key (t f.key ++ [f]), none)
  | .partialDelivery association stream sequence unordered aborted =>
    (if aborted then
      update t ⟨association, stream.toUInt16, sequence.toUInt16, unordered⟩ []
    else t, none)
  | .streamReset association streams incoming refused =>
    (if refused ∨ incoming = false then t
    else
      fun k =>
        if k.association = association ∧ (streams = [] ∨ k.streamId ∈ streams) then []
        else t k, none)
  | .restarted association => (fun k => if k.association = association then [] else t k, none)
  | .lost association => (fun k => if k.association = association then [] else t k, none)

/-- A message that is to be delivered: within the limit, of one kind, without empty fragments,
and with memory to collect it when it has several. -/
def Whole : List Fragment → Prop
  | [] => False
  | first :: rest =>
    (bytesOf (first :: rest)).length ≤ messageMax ∧
      (∀ f ∈ first :: rest, f.ppid = first.ppid ∧ f.bytes ≠ []) ∧
      (rest = [] ∨ first.memory = true)

instance : (fs : List Fragment) → Decidable (Whole fs)
  | [] => inferInstanceAs (Decidable False)
  | first :: rest =>
    inferInstanceAs (Decidable ((bytesOf (first :: rest)).length ≤ messageMax ∧
      (∀ f ∈ first :: rest, f.ppid = first.ppid ∧ f.bytes ≠ []) ∧
      (rest = [] ∨ first.memory = true)))

def handedOf (fs : List Fragment) : Option Handed :=
  match fs with
  | [] => none
  | first :: _ =>
    if Whole fs then dispatch first.key.streamId first.ppid (bytesOf fs) else none

/-- The code and the messages that usrsctp transports, side by side. -/
def sessionMachine :
    Machine (Reassembly × Transport) SctpInput (Option Handed × Option (List Fragment)) where
  step := fun state input =>
    (((state.1.inbound input).1, (state.2.take input).1),
      ((state.1.inbound input).2, (state.2.take input).2))

/-- No message is cleared with another one that is still in progress: an abort is for the only
message with its association, stream and sequence number, and an event about a whole
association comes while no other association has a message in progress. -/
def Spares (state : Reassembly × Transport) : SctpInput → Prop
  | .fragment _ => True
  | .partialDelivery association stream sequence unordered aborted =>
    aborted = true → state.2 ⟨association, stream.toUInt16, sequence.toUInt16, !unordered⟩ = []
  | .streamReset association streams incoming refused =>
    refused = false → incoming = true → streams = [] →
      ∀ k, k.association ≠ association → state.2 k = []
  | .restarted association => ∀ k, k.association ≠ association → state.2 k = []
  | .lost association => ∀ k, k.association ≠ association → state.2 k = []

/-- A message of several fragments that begins finds a free slot, and a message in progress does
not change its kind before its end. -/
def HasRoom (state : Reassembly × Transport) : SctpInput → Prop
  | .fragment f =>
    f.eor = false → (state.2 f.key = [] → state.1.free.isSome = true) ∧
        ∀ first ∈ (state.2 f.key).head?, f.isInvalid = true ∨ f.ppid = first.ppid
  | _ => True

section Tracking

/-- What makes a message in progress worthless. -/
def Spoiled (fs : List Fragment) : Prop :=
  messageMax < (bytesOf fs).length ∨ (∃ f ∈ fs, f.bytes = []) ∨
    ∃ first ∈ fs.head?, first.memory = false

/-- A slot holds what has arrived of a message. -/
structure HoldsMessage (slot : ReassemblySlot) (fs : List Fragment) : Prop where
  keys : ∀ f ∈ fs, f.key = slot.key
  first : ∃ f rest, fs = f :: rest ∧ f.ppid = slot.ppid
  intact : slot.discarding = false → slot.data = bytesOf fs ∧
    (bytesOf fs).length ≤ messageMax ∧ (∀ f ∈ fs, f.ppid = slot.ppid ∧ f.bytes ≠ []) ∧
    ∀ f ∈ fs.head?, f.memory = true
  spoiled : slot.discarding = true → Spoiled fs

/-- The used slots are those of the messages in progress. -/
structure Tracked (used : List ReassemblySlot) (t : Transport) : Prop where
  nodup : (used.map ReassemblySlot.key).Nodup
  holds : ∀ slot ∈ used, HoldsMessage slot (t slot.key)
  covers : ∀ k, t k ≠ [] → ∃ slot ∈ used, slot.key = k

variable {used used' rest : List ReassemblySlot} {t t' : Transport} {fs : List Fragment}
  {slot : ReassemblySlot} {k : MessageKey} {f : Fragment}

@[simp] theorem bytesOf_append (xs ys : List Fragment) :
    bytesOf (xs ++ ys) = bytesOf xs ++ bytesOf ys := by
  simp [bytesOf]

@[simp] theorem bytesOf_singleton (f : Fragment) : bytesOf [f] = f.bytes := by
  simp [bytesOf]

theorem HoldsMessage.ne_nil (h : HoldsMessage slot fs) : fs ≠ [] := by
  obtain ⟨f, rest, rfl, -⟩ := h.first
  simp

theorem Spoiled.append (h : Spoiled fs) (hne : fs ≠ []) (f : Fragment) : Spoiled (fs ++ [f]) := by
  rcases h with hlong | ⟨g, hg, hempty⟩ | ⟨first, hfirst, hmemory⟩
  · refine .inl ?_
    rw [bytesOf_append, length_append]
    omega
  · exact .inr (.inl ⟨g, by simp [hg], hempty⟩)
  · refine .inr (.inr ⟨first, ?_, hmemory⟩)
    rw [head?_append_of_ne_nil _ hne]
    exact hfirst

theorem Spoiled.not_whole (h : Spoiled (fs ++ [f])) (hne : fs ≠ []) : ¬ Whole (fs ++ [f]) := by
  obtain ⟨first, rest, rfl⟩ := exists_cons_of_ne_nil hne
  rintro ⟨hlen, hall, hmemory⟩
  rcases h with hlong | ⟨g, hg, hempty⟩ | ⟨g, hg, hno⟩
  · exact absurd hlen (by simpa using hlong)
  · exact (hall g hg).2 hempty
  · simp only [cons_append, head?_cons, mem_def, some.injEq] at hg
    subst hg
    rcases hmemory with hnil | hyes
    · simp at hnil
    · exact absurd (hno.symm.trans hyes) (by simp)

theorem Tracked.perm (h : Tracked used t) (hperm : used.Perm used') : Tracked used' t := by
  refine ⟨(hperm.map _).nodup_iff.mp h.nodup, ?_, ?_⟩
  · intro slot hslot
    exact h.holds slot (hperm.mem_iff.mpr hslot)
  · intro k hk
    obtain ⟨slot, hslot, hkey⟩ := h.covers k hk
    exact ⟨slot, hperm.mem_iff.mp hslot, hkey⟩

theorem Tracked.exchange {o o' : Option ReassemblySlot} (h : Tracked (o.toList ++ rest) t)
    (hold : (∃ slot, o = some slot ∧ slot.key = k) ∨ (o = none ∧ t k = []))
    (hnew : ∀ slot ∈ o', slot.key = k ∧ HoldsMessage slot fs) (hgone : o' = none → fs = []) :
    Tracked (o'.toList ++ rest) (update t k fs) := by
  have hother : ∀ slot ∈ rest, slot.key ≠ k := by
    intro slot hslot hkey
    rcases hold with ⟨old, rfl, hold⟩ | ⟨rfl, hnone⟩
    · have hnodup := h.nodup
      simp only [toList_some, singleton_append, map_cons, nodup_cons,
        List.mem_map, not_exists, not_and] at hnodup
      exact hnodup.1 slot hslot (hkey.trans hold.symm)
    · have hhold := h.holds slot (by simpa using hslot)
      rw [hkey, hnone] at hhold
      exact hhold.ne_nil rfl
  have hrest : (rest.map ReassemblySlot.key).Nodup := by
    have hnodup := h.nodup
    rw [map_append] at hnodup
    exact (List.nodup_append.mp hnodup).2.1
  refine ⟨?_, ?_, ?_⟩
  · cases o' with
    | none => simpa using hrest
    | some y =>
      simp only [toList_some, singleton_append, map_cons, nodup_cons,
        List.mem_map, not_exists, not_and]
      refine ⟨?_, hrest⟩
      rintro slot hslot hkey
      exact hother slot hslot (hkey.trans (hnew y rfl).1)
  · intro slot hslot
    rcases List.mem_append.mp hslot with hmem | hmem
    · obtain ⟨hkey, hhold⟩ := hnew slot (by simpa using hmem)
      rw [hkey, update_self]
      exact hhold
    · rw [update_of_ne (hother slot hmem)]
      exact h.holds slot (mem_append_right _ hmem)
  · intro k' hk'
    by_cases heq : k' = k
    · subst heq
      rw [update_self] at hk'
      cases o' with
      | none => exact absurd (hgone rfl) hk'
      | some y => exact ⟨y, by simp, (hnew y rfl).1⟩
    · rw [update_of_ne heq] at hk'
      obtain ⟨slot, hslot, hkey⟩ := h.covers k' hk'
      rcases List.mem_append.mp hslot with hmem | hmem
      · rcases hold with ⟨old, rfl, hold⟩ | ⟨rfl, -⟩
        · simp only [toList_some, mem_singleton] at hmem
          subst hmem
          exact absurd (hkey.symm.trans hold) heq
        · simp at hmem
      · exact ⟨slot, mem_append_right _ hmem, hkey⟩

theorem Tracked.filter (h : Tracked used t) (ends : MessageKey → Bool)
    (ht' : ∀ k, t' k = if ends k then [] else t k) :
    Tracked (used.filter (fun slot => !ends slot.key)) t' := by
  refine ⟨h.nodup.sublist (filter_sublist.map _), ?_, ?_⟩
  · intro slot hslot
    obtain ⟨hmem, hstays⟩ := mem_filter.mp hslot
    rw [ht', if_neg (by simpa using hstays)]
    exact h.holds slot hmem
  · intro k hk
    rw [ht'] at hk
    split at hk
    · exact absurd rfl hk
    next hstays =>
      obtain ⟨slot, hslot, hkey⟩ := h.covers k hk
      refine ⟨slot, mem_filter.mpr ⟨hslot, ?_⟩, hkey⟩
      simpa [hkey] using hstays

theorem Tracked.empty {t : Transport} (h : ∀ k, t k = []) :
    Tracked Reassembly.empty.slots.reduceOption t := by
  have hused : Reassembly.empty.slots.reduceOption = [] := rfl
  rw [hused]
  exact ⟨nodup_nil, by simp, fun k hk => absurd (h k) hk⟩

theorem HoldsMessage.whole_iff (h : HoldsMessage slot fs) (hintact : slot.discarding = false)
    (f : Fragment) :
    Whole (fs ++ [f]) ↔
      slot.data.length + f.bytes.length ≤ messageMax ∧ f.ppid = slot.ppid ∧ f.bytes ≠ [] := by
  obtain ⟨hdata, -, hall, hmemory⟩ := h.intact hintact
  obtain ⟨first, rest, rfl, hppid⟩ := h.first
  have hlen : (bytesOf (first :: (rest ++ [f]))).length =
      slot.data.length + f.bytes.length := by
    rw [hdata, ← cons_append, bytesOf_append, bytesOf_singleton, length_append]
  rw [cons_append]
  simp only [Whole, hlen, mem_cons, mem_append, not_mem_nil, or_false]
  constructor
  · rintro ⟨hfits, hsame, -⟩
    have hlast := hsame f (.inr (.inr rfl))
    exact ⟨hfits, hlast.1.trans hppid, hlast.2⟩
  · rintro ⟨hfits, hsame, hne⟩
    refine ⟨hfits, ?_, .inr (hmemory first rfl)⟩
    rintro g (rfl | hg | rfl)
    · exact ⟨rfl, (hall g (by simp)).2⟩
    · have hrest := hall g (by simp [hg])
      exact ⟨hrest.1.trans hppid.symm, hrest.2⟩
    · exact ⟨hsame.trans hppid.symm, hne⟩

theorem isInvalid_iff : f.isInvalid = true ↔ f.bytes = [] ∨ messageMax < f.bytes.length := by
  simp [Fragment.isInvalid]

theorem spoiled_of_invalid (h : f.isInvalid = true) (fs : List Fragment) : Spoiled (fs ++ [f]) := by
  rcases isInvalid_iff.mp h with hempty | hlong
  · exact .inr (.inl ⟨f, by simp, hempty⟩)
  · refine .inl ?_
    rw [bytesOf_append, bytesOf_singleton, length_append]
    omega

theorem whole_singleton_iff : Whole [f] ↔ f.isInvalid = false := by
  rw [← Bool.not_eq_true, isInvalid_iff, Whole]
  simp only [bytesOf_singleton, mem_singleton, forall_eq, true_and, true_or, and_true]
  rw [not_or, Nat.not_lt]
  exact and_comm

theorem HoldsMessage.discarding (h : HoldsMessage slot fs) (hkey : f.key = slot.key)
    (hspoiled : Spoiled (fs ++ [f])) :
    HoldsMessage { slot with data := [], discarding := true } (fs ++ [f]) := by
  obtain ⟨first, rest, rfl, hppid⟩ := h.first
  refine ⟨?_, ⟨first, rest ++ [f], rfl, hppid⟩, fun habsurd => absurd habsurd (by simp),
    fun _ => hspoiled⟩
  intro g hg
  rcases mem_append.mp hg with hmem | hmem
  · exact h.keys g hmem
  · rw [mem_singleton.mp hmem]
    exact hkey

theorem HoldsMessage.append (h : HoldsMessage slot fs) (hkey : f.key = slot.key)
    (hintact : slot.discarding = false) (hwhole : Whole (fs ++ [f])) :
    HoldsMessage { slot with data := slot.data ++ f.bytes } (fs ++ [f]) := by
  obtain ⟨hfits, hppid, hne⟩ := (h.whole_iff hintact f).mp hwhole
  obtain ⟨hdata, -, hall, hmemory⟩ := h.intact hintact
  have hnil := h.ne_nil
  obtain ⟨first, rest, hcons, hfirst⟩ := h.first
  refine ⟨?_, ⟨first, rest ++ [f], by rw [hcons]; rfl, hfirst⟩, fun _ => ⟨?_, ?_, ?_, ?_⟩,
    fun hdiscarding => absurd (hintact.symm.trans hdiscarding) (by simp)⟩
  · intro g hg
    rcases mem_append.mp hg with hmem | hmem
    · exact h.keys g hmem
    · rw [mem_singleton.mp hmem]
      exact hkey
  · rw [bytesOf_append, bytesOf_singleton, ← hdata]
  · rw [bytesOf_append, bytesOf_singleton, length_append, ← hdata]
    exact hfits
  · intro g hg
    rcases mem_append.mp hg with hmem | hmem
    · exact hall g hmem
    · rw [mem_singleton.mp hmem]
      exact ⟨hppid, hne⟩
  · rw [head?_append_of_ne_nil _ hnil]
    exact hmemory

theorem holdsMessage_first (hspoiled : f.isInvalid = true ∨ f.memory = false) :
    HoldsMessage ⟨f.key, f.ppid, [], true⟩ [f] := by
  refine ⟨by simp, ⟨f, [], rfl, rfl⟩, fun habsurd => absurd habsurd (by simp), fun _ => ?_⟩
  rcases hspoiled with hinv | hmemory
  · exact spoiled_of_invalid hinv []
  · exact .inr (.inr ⟨f, rfl, hmemory⟩)

end Tracking

section Fragments

variable {s : Reassembly} {t : Transport} {f : Fragment} {i : ℕ} {slot : ReassemblySlot}
  {k : MessageKey} {fs : List Fragment}

/-- What the callback hands on for the outcome of a fragment. -/
def resultOf (f : Fragment) : ReassemblyResult → Option Handed
  | .ready message => dispatch f.key.streamId f.ppid message
  | _ => none

/-- What a fragment is to lead to. -/
structure Reassembles (s : Reassembly) (t : Transport) (f : Fragment)
    (outcome : Reassembly × ReassemblyResult) : Prop where
  handed : resultOf f outcome.2 = if f.eor then handedOf (t f.key ++ [f]) else none
  tracked : outcome.1.blocked = false →
    Tracked outcome.1.slots.reduceOption (t.take (.fragment f)).1
  room : HasRoom (s, t) (.fragment f) → outcome.1.blocked = false

theorem Tracked.write {o o' : Option ReassemblySlot} (h : Tracked s.slots.reduceOption t)
    (hget : s.slots[i]? = some o)
    (hold : (∃ slot, o = some slot ∧ slot.key = k) ∨ (o = none ∧ t k = []))
    (hnew : ∀ slot ∈ o', slot.key = k ∧ HoldsMessage slot fs) (hgone : o' = none → fs = []) :
    Tracked (s.set i o').slots.reduceOption (update t k fs) := by
  have hexposed := h.perm (perm_expose hget)
  exact (hexposed.exchange hold hnew hgone).perm (perm_set hget o').symm

theorem take_fragment (t : Transport) (f : Fragment) :
    (t.take (.fragment f)).1 = update t f.key (if f.eor then [] else t f.key ++ [f]) := by
  rw [Transport.take]
  split <;> rfl

theorem handedOf_of_not_whole (h : ¬ Whole fs) : handedOf fs = none := by
  cases fs with
  | nil => rfl
  | cons first rest => exact if_neg h

variable (h : Tracked s.slots.reduceOption t)
include h

variable (hopen : s.blocked = false)
include hopen

theorem Reassembles.discard (hget : s.slots[i]? = some (some slot)) (hkey : slot.key = f.key)
    (hspoiled : Spoiled (t f.key ++ [f])) : Reassembles s t f (s.discard f i slot, .rejected) := by
  have hhold : HoldsMessage slot (t f.key) := by
    have := h.holds slot (mem_of_getElem? hget)
    rwa [hkey] at this
  refine ⟨?_, fun _ => ?_, fun _ => hopen⟩
  · rw [handedOf_of_not_whole (hspoiled.not_whole hhold.ne_nil), ite_self]
    rfl
  · rw [take_fragment]
    refine h.write hget (.inl ⟨slot, rfl, hkey⟩) ?_ ?_
    · intro slot' hslot'
      split at hslot'
      · simp at hslot'
      next hmore =>
        simp only [mem_def, some.injEq] at hslot'
        subst hslot'
        rw [if_neg hmore]
        exact ⟨hkey, hhold.discarding hkey.symm hspoiled⟩
    · intro hnone
      split at hnone
      next hend => rw [if_pos hend]
      · simp at hnone

theorem continueMessage_reassembles
    (hget : s.slots[i]? = some (some slot)) (hkey : slot.key = f.key) :
    Reassembles s t f (s.continueMessage f i slot) := by
  have hhold : HoldsMessage slot (t f.key) := by
    have := h.holds slot (mem_of_getElem? hget)
    rwa [hkey] at this
  obtain ⟨first, rest, hcons, hppid⟩ := hhold.first
  rw [continueMessage]
  split
  next hinv => exact .discard h hopen hget hkey (spoiled_of_invalid hinv _)
  next hvalid =>
    split
    next hchanged =>
      have hnot : ¬ Whole (t f.key ++ [f]) := by
        intro hwhole
        rw [hcons] at hwhole
        have hlast := (hwhole.2.1 f (by simp)).1
        exact hchanged (hppid.symm.trans hlast.symm)
      refine ⟨?_, fun hunblocked => ?_, fun hroom => ?_⟩
      · rw [handedOf_of_not_whole hnot, ite_self]
        rfl
      · have hend : f.eor = true := by simpa using hunblocked
        rw [take_fragment, if_pos hend]
        exact h.write hget (.inl ⟨slot, rfl, hkey⟩) (by simp) (fun _ => rfl)
      · cases hend : f.eor with
        | true => simp
        | false =>
          have hfirst : first ∈ (t f.key).head? := by rw [hcons]; rfl
          have hsame := (hroom hend).2 first hfirst
          rcases hsame with hinv | hsame
          · exact absurd hinv hvalid
          · exact absurd (hppid.symm.trans hsame.symm) hchanged
    next hsame =>
      rw [ne_eq, not_not] at hsame
      split
      next hdiscarding =>
        have hspoiled := (hhold.spoiled hdiscarding).append hhold.ne_nil f
        refine ⟨?_, fun _ => ?_, fun _ => ?_⟩
        · rw [handedOf_of_not_whole (hspoiled.not_whole hhold.ne_nil), ite_self]
          rfl
        · rw [take_fragment]
          split
          · exact h.write hget (.inl ⟨slot, rfl, hkey⟩) (by simp) (fun _ => rfl)
          · have hkept : s.set i (some slot) = s := by
              rw [Reassembly.set, set_getElem? hget]
            rw [← hkept]
            refine h.write hget (.inl ⟨slot, rfl, hkey⟩) ?_ (by simp)
            intro slot' hslot'
            simp only [mem_def, some.injEq] at hslot'
            subst hslot'
            have hlater := hhold.discarding hkey.symm hspoiled
            exact ⟨hkey, hlater.keys, hlater.first,
              fun hintact => absurd (hdiscarding.symm.trans hintact) (by simp),
              fun _ => hspoiled⟩
        · split <;> exact hopen
      next hintact =>
        rw [Bool.not_eq_true] at hintact
        have hiff := hhold.whole_iff hintact f
        have hfits := (hhold.intact hintact)
        rw [Reassembly.append]
        split
        next hlong =>
          refine .discard h hopen hget hkey (.inl ?_)
          rw [bytesOf_append, bytesOf_singleton, length_append, ← hfits.1]
          omega
        next hshort =>
          have hle : slot.data.length ≤ messageMax := by
            rw [hfits.1]
            exact hfits.2.1
          have hne : f.bytes ≠ [] := fun hempty =>
            hvalid (isInvalid_iff.mpr (.inl hempty))
          have hwhole : Whole (t f.key ++ [f]) :=
            hiff.mpr ⟨by omega, hsame.symm, hne⟩
          split
          next hend =>
            refine ⟨?_, fun _ => ?_, fun _ => hopen⟩
            · have hfirst : first.key = f.key := by
                have := hhold.keys first (by rw [hcons]; simp)
                exact this.trans hkey
              rw [if_pos hend, hcons, cons_append, handedOf, ← cons_append,
                ← hcons, if_pos hwhole, resultOf, hfirst, hppid, hsame, bytesOf_append,
                bytesOf_singleton, hfits.1]
            · rw [take_fragment, if_pos hend]
              exact h.write hget (.inl ⟨slot, rfl, hkey⟩) (by simp) (fun _ => rfl)
          next hmore =>
            refine ⟨by rw [if_neg hmore]; rfl, fun _ => ?_, fun _ => hopen⟩
            rw [take_fragment, if_neg hmore]
            refine h.write hget (.inl ⟨slot, rfl, hkey⟩) ?_ (by simp)
            intro slot' hslot'
            simp only [mem_def, some.injEq] at hslot'
            subst hslot'
            exact ⟨hkey, hhold.append hkey.symm hintact hwhole⟩

theorem startMessage_reassembles (hnone : t f.key = []) : Reassembles s t f (s.startMessage f) := by
  rw [startMessage]
  split
  next hend =>
    refine ⟨?_, fun _ => ?_, fun _ => hopen⟩
    · rw [if_pos hend, hnone, nil_append]
      split
      next hinv =>
        refine (handedOf_of_not_whole ?_).symm
        rw [whole_singleton_iff, hinv]
        simp
      next hvalid =>
        have hwhole : Whole [f] := whole_singleton_iff.mpr (by simpa using hvalid)
        rw [handedOf, if_pos hwhole, bytesOf_singleton, resultOf]
    · rw [take_fragment, if_pos hend, ← hnone, update_eq_self]
      exact h
  next hmore =>
    split
    next hfull =>
      refine ⟨by rw [if_neg hmore]; rfl, fun habsurd => absurd habsurd (by simp),
        fun hroom => ?_⟩
      have hfree := (hroom (by simpa using hmore)).1 hnone
      rw [hfull] at hfree
      exact absurd hfree (by simp)
    next i hfree =>
      obtain ⟨o, hget, hempty⟩ := findIdx?_getElem? hfree
      rw [isNone_iff_eq_none] at hempty
      subst hempty
      have hwrite : ∀ slot : ReassemblySlot, slot.key = f.key → HoldsMessage slot [f] →
          Tracked (s.set i (some slot)).slots.reduceOption (t.take (.fragment f)).1 := by
        intro slot hkey hhold
        rw [take_fragment, if_neg hmore, hnone, nil_append]
        refine h.write hget (.inr ⟨rfl, hnone⟩) ?_ (by simp)
        intro slot' hslot'
        simp only [mem_def, some.injEq] at hslot'
        subst hslot'
        exact ⟨hkey, hhold⟩
      split
      next hspoiled =>
        exact ⟨by rw [if_neg hmore]; rfl,
          fun _ => hwrite _ rfl (holdsMessage_first hspoiled), fun _ => hopen⟩
      next hfine =>
        rw [not_or, Bool.not_eq_true, Bool.not_eq_false] at hfine
        obtain ⟨hvalid, hmemory⟩ := hfine
        have hwhole : Whole [f] := whole_singleton_iff.mpr hvalid
        rw [append, if_neg, if_neg hmore]
        · refine ⟨by rw [if_neg hmore]; rfl, fun _ => hwrite _ rfl ?_, fun _ => hopen⟩
          refine ⟨by simp, ⟨f, [], rfl, rfl⟩, fun _ => ⟨by simp, hwhole.1, ?_, ?_⟩,
            fun habsurd => absurd habsurd (by simp)⟩
          · intro g hg
            exact ⟨by rw [mem_singleton.mp hg], (hwhole.2.1 g hg).2⟩
          · intro g hg
            simp only [head?_cons, mem_def, some.injEq] at hg
            rw [← hg]
            exact hmemory
        · have hfits := hwhole.1
          simpa using hfits

theorem reassemble_reassembles :
    Reassembles s t f (s.reassemble f) := by
  rw [reassemble, if_neg (by simp [hopen])]
  split
  next i slot hfind =>
    obtain ⟨hget, hkey⟩ := findOccupied_some hfind
    exact continueMessage_reassembles h hopen hget (by simpa using hkey)
  next hfind =>
    refine startMessage_reassembles h hopen ?_
    by_contra hne
    obtain ⟨slot, hslot, hkey⟩ := h.covers f.key hne
    have hno := findOccupied_none hfind slot hslot
    simp [hkey] at hno

end Fragments

/-- The slots are those of the messages in progress, unless the reassembly is blocked. -/
def Agrees (state : Reassembly × Transport) : Prop :=
  state.1.blocked = false → Tracked state.1.slots.reduceOption state.2

variable {state : Reassembly × Transport} {input : SctpInput} {inputs : List SctpInput}

theorem reduceOption_keep (s : Reassembly) (p : ReassemblySlot → Bool) :
    (s.keep p).slots.reduceOption = s.slots.reduceOption.filter p := by
  exact reduceOption_map_filter p s.slots

theorem clearStreams (s : Reassembly) (association : ℕ) (streams : List UInt16) :
    (streams.foldl (fun s streamId => s.clearStream association streamId) s).slots.reduceOption =
        s.slots.reduceOption.filter (fun slot =>
          !(slot.key.association == association && streams.contains slot.key.streamId)) ∧
      (streams.foldl (fun s streamId => s.clearStream association streamId) s).blocked =
        s.blocked := by
  induction streams generalizing s with
  | nil =>
    refine ⟨?_, rfl⟩
    simp
  | cons streamId streams ih =>
    obtain ⟨hslots, hblocked⟩ := ih (s.clearStream association streamId)
    refine ⟨?_, hblocked⟩
    rw [foldl_cons, hslots, clearStream, reduceOption_keep, List.filter_filter]
    apply filter_congr
    intro slot _
    rw [contains_cons, Bool.and_or_distrib_left, Bool.not_or, Bool.and_comm]

theorem agrees_notification (h : Agrees state) (hspares : Spares state input)
    (hnot : ∀ f, input ≠ .fragment f) : Agrees (sessionMachine.next state input) := by
  obtain ⟨s, t⟩ := state
  cases input with
  | fragment f => exact absurd rfl (hnot f)
  | partialDelivery association stream sequence unordered aborted =>
    intro hopen
    cases aborted with
    | false => exact h hopen
    | true =>
      have hother := hspares rfl
      have htrk := h hopen
      change Tracked (s.clearIdentity association _ _).slots.reduceOption (update t _ [])
      rw [clearIdentity, reduceOption_keep]
      refine htrk.filter (fun k => k.association == association &&
        k.streamId == stream.toUInt16 && k.streamSequence == sequence.toUInt16) ?_
      rintro ⟨association', streamId, streamSequence, unordered'⟩
      simp only [update_apply, MessageKey.mk.injEq, Bool.and_eq_true, beq_iff_eq]
      by_cases hsame : (association' = association ∧ streamId = stream.toUInt16) ∧
          streamSequence = sequence.toUInt16
      · obtain ⟨⟨rfl, rfl⟩, rfl⟩ := hsame
        by_cases horder : unordered' = unordered
        · simp [horder]
        · have hflip : unordered' = !unordered := by
            cases unordered <;> cases unordered' <;> simp_all
          rw [hflip]
          simpa using hother
      · rw [if_neg hsame, if_neg]
        rintro ⟨rfl, rfl, rfl, -⟩
        exact hsame ⟨⟨rfl, rfl⟩, rfl⟩
  | streamReset association streams incoming refused =>
    intro hopen
    change Tracked (inbound s _).1.slots.reduceOption (Transport.take t _).1
    change (inbound s _).1.blocked = false at hopen
    rw [inbound] at hopen ⊢
    rw [Transport.take]
    split at hopen
    next hignored =>
      rw [if_pos hignored, if_pos hignored]
      exact h hopen
    next htaken =>
      rw [if_neg htaken, if_neg htaken]
      rw [not_or, Bool.not_eq_true, Bool.not_eq_false] at htaken
      split at hopen
      next hall =>
        rw [if_pos hall]
        refine .empty (fun k => ?_)
        by_cases hk : k.association = association
        · exact if_pos ⟨hk, .inl hall⟩
        · rw [ite_eq_left_iff]
          exact fun _ => hspares htaken.1 htaken.2 hall k hk
      next hsome =>
        rw [if_neg hsome]
        obtain ⟨hslots, hblocked⟩ := clearStreams s association streams
        rw [hblocked] at hopen
        rw [hslots]
        refine (h hopen).filter (fun k =>
          k.association == association && streams.contains k.streamId) ?_
        intro k
        simp [hsome]
  | restarted association | lost association =>
    refine fun _ => .empty (fun k => ?_)
    by_cases hk : k.association = association
    · exact if_pos hk
    · rw [← hspares k hk]
      exact if_neg hk

theorem inbound_fragment (s : Reassembly) (f : Fragment) :
    s.inbound (.fragment f) = ((s.reassemble f).1, resultOf f (s.reassemble f).2) := by
  rw [inbound]
  split
  next s' message hready => rw [hready, resultOf]
  next s' result hnot hout =>
    rw [hout]
    cases result with
    | ready message => exact absurd rfl (hnot message)
    | pending => rfl
    | rejected => rfl

theorem answer_fragment (state : Reassembly × Transport) (f : Fragment) :
    sessionMachine.answer state (.fragment f) = (resultOf f (state.1.reassemble f).2,
        if f.eor then some (state.2 f.key ++ [f]) else none) := by
  change ((state.1.inbound _).2, (state.2.take _).2) = _
  rw [inbound_fragment, Transport.take]
  split <;> rfl

theorem answer_notification (hnot : ∀ f, input ≠ .fragment f) :
    sessionMachine.answer state input = (none, none) := by
  change ((state.1.inbound input).2, (state.2.take input).2) = _
  cases input with
  | fragment f => exact absurd rfl (hnot f)
  | partialDelivery | restarted | lost => rfl
  | streamReset association streams incoming refused =>
    rw [inbound, Transport.take]
    split
    · rfl
    · split <;> rfl

theorem open_notification (hnot : ∀ f, input ≠ .fragment f) (hopen : state.1.blocked = false) :
    (sessionMachine.next state input).1.blocked = false := by
  change (state.1.inbound input).1.blocked = false
  cases input with
  | fragment f => exact absurd rfl (hnot f)
  | partialDelivery association stream sequence unordered aborted => cases aborted <;> exact hopen
  | streamReset association streams incoming refused =>
    rw [inbound]
    split
    · exact hopen
    · split
      · rfl
      · exact (clearStreams _ _ _).2.trans hopen
  | restarted => rfl
  | lost => rfl

theorem reassemble_blocked {s : Reassembly} (h : s.blocked = true) (f : Fragment) :
    s.reassemble f = (s, .rejected) := by
  rw [reassemble, if_pos h]

theorem agrees_next (h : Agrees state) (hspares : Spares state input) :
    Agrees (sessionMachine.next state input) := by
  cases input with
  | fragment f =>
    intro hopen
    change (state.1.inbound _).1.blocked = false at hopen
    change Tracked (state.1.inbound _).1.slots.reduceOption _
    rw [inbound_fragment] at hopen ⊢
    cases hblocked : state.1.blocked with
    | false => exact (reassemble_reassembles (h hblocked) hblocked).tracked hopen
    | true =>
      rw [reassemble_blocked hblocked, hblocked] at hopen
      exact absurd hopen (by simp)
  | partialDelivery | streamReset | restarted | lost =>
    exact agrees_notification h hspares (by simp)

/-- What one input hands on is the message that it completes, or nothing while the reassembly is
blocked. -/
theorem answer_exact (h : Agrees state) :
    (state.1.blocked = true → (sessionMachine.answer state input).1 = none) ∧
      (state.1.blocked = false → (sessionMachine.answer state input).1 =
        (sessionMachine.answer state input).2.bind handedOf) := by
  cases input with
  | fragment f =>
    rw [answer_fragment]
    constructor
    · intro hblocked
      rw [reassemble_blocked hblocked, resultOf]
      simp
    · intro hopen
      rw [(reassemble_reassembles (h hopen) hopen).handed]
      split <;> rfl
  | partialDelivery | streamReset | restarted | lost => rw [answer_notification (by simp)]; simp

theorem open_next (h : Agrees state) (hopen : state.1.blocked = false)
    (hroom : HasRoom state input) : (sessionMachine.next state input).1.blocked = false := by
  cases input with
  | fragment f =>
    change (state.1.inbound _).1.blocked = false
    rw [inbound_fragment]
    exact (reassemble_reassembles (h hopen) hopen).room hroom
  | partialDelivery | streamReset | restarted | lost => exact open_notification (by simp) hopen

variable (state inputs)

def handedOn : List Handed :=
  (sessionMachine.transcript state inputs).filterMap (fun call => call.2.1)

/-- The messages that end in a run, in their order. -/
def completed : List (List Fragment) :=
  (sessionMachine.transcript state inputs).filterMap (fun call => call.2.2)

variable {state inputs}

theorem handedOn_cons :
    handedOn state (input :: inputs) = (sessionMachine.answer state input).1.toList ++
        handedOn (sessionMachine.next state input) inputs := by
  rw [handedOn, Machine.transcript, filterMap_cons]
  cases (sessionMachine.answer state input).1 <;> rfl

theorem completed_cons :
    completed state (input :: inputs) = (sessionMachine.answer state input).2.toList ++
        completed (sessionMachine.next state input) inputs := by
  rw [completed, Machine.transcript, filterMap_cons]
  cases (sessionMachine.answer state input).2 <;> rfl

theorem filterMap_toList {α β : Type*} (g : α → Option β) (o : Option α) :
    o.toList.filterMap g = (o.bind g).toList := by
  cases o with
  | none => rfl
  | some a => cases h : g a <;> simp [h]

theorem handedOn_sublist (h : Agrees state) (hspares : sessionMachine.Along Spares state inputs) :
    (handedOn state inputs).Sublist ((completed state inputs).filterMap handedOf) := by
  induction inputs generalizing state with
  | nil => exact .slnil
  | cons input inputs ih =>
    rw [handedOn_cons, completed_cons, filterMap_append, filterMap_toList]
    refine .append ?_ (ih (agrees_next h hspares.1) hspares.2)
    cases hblocked : state.1.blocked with
    | true =>
      rw [(answer_exact h).1 hblocked]
      exact nil_sublist _
    | false => rw [(answer_exact h).2 hblocked]

theorem handedOn_eq (h : Agrees state) (hopen : state.1.blocked = false)
    (hspares : sessionMachine.Along Spares state inputs)
    (hroom : sessionMachine.Along HasRoom state inputs) :
    handedOn state inputs = (completed state inputs).filterMap handedOf := by
  induction inputs generalizing state with
  | nil => rfl
  | cons input inputs ih =>
    rw [handedOn_cons, completed_cons, filterMap_append, filterMap_toList,
      (answer_exact h).2 hopen, ih (agrees_next h hspares.1) (open_next h hopen hroom.1)
      hspares.2 hroom.2]

theorem agrees_initial : Agrees (.empty, fun _ => []) :=
  fun _ => .empty (fun _ => rfl)

/-- Only whole messages are handed on, each once and in the order in which they end, along every
run in which no notification clears a message that is still in progress.  All of them are
handed on as long as there is room for the messages in progress; and the used slots are
always those of messages in progress. -/
theorem reassembly_exact (inputs : List SctpInput)
    (hspares : sessionMachine.Along Spares (.empty, fun _ => []) inputs) :
    (handedOn (.empty, fun _ => []) inputs).Sublist
        ((completed (.empty, fun _ => []) inputs).filterMap handedOf) ∧
      (sessionMachine.Along HasRoom (.empty, fun _ => []) inputs →
        handedOn (.empty, fun _ => []) inputs =
          (completed (.empty, fun _ => []) inputs).filterMap handedOf) ∧
      Agrees (sessionMachine.run (.empty, fun _ => []) inputs) := by
  refine ⟨handedOn_sublist agrees_initial hspares, fun hroom => ?_, ?_⟩
  · exact handedOn_eq agrees_initial rfl hspares hroom
  · refine sessionMachine.run_invariant_along ?_ agrees_initial hspares
    exact fun state input hspares h => agrees_next h hspares

/-- A fragment of a text message on stream 3. -/
def textFragment (sequence : UInt16) (unordered eor : Bool) (bytes : List UInt8) : SctpInput :=
  .fragment ⟨⟨1, 3, sequence, unordered⟩, 51, eor, bytes, true⟩

theorem reassembly_exact_interleaved :
    handedOn (.empty, fun _ => [])
        [textFragment 7 false false [1], textFragment 8 true false [2],
          .partialDelivery 1 3 8 true true, textFragment 7 false true [3]] =
      [.message 3 [1, 3] false] := by
  rw [(reassembly_exact _ ?_).2.1 ?_]
  · decide
  · exact ⟨trivial, trivial, fun _ => by decide, trivial, trivial⟩
  · exact ⟨fun _ => by decide, fun _ => by decide, trivial, fun _ => by decide, trivial⟩

/-- The abort of an unordered message with the stream and the sequence number of an ordered one
makes the tail of the ordered one a message. -/
theorem reassembly_delivers_tail :
    completed (.empty, fun _ => [])
        [textFragment 7 false false [1], textFragment 7 true false [2],
          .partialDelivery 1 3 7 true true, textFragment 7 false true [3]] =
      [[⟨⟨1, 3, 7, false⟩, 51, false, [1], true⟩, ⟨⟨1, 3, 7, false⟩, 51, true, [3], true⟩]] ∧
    handedOn (.empty, fun _ => [])
        [textFragment 7 false false [1], textFragment 7 true false [2],
          .partialDelivery 1 3 7 true true, textFragment 7 false true [3]] =
      [.message 3 [3] false] ∧ ¬ (handedOn (.empty, fun _ => [])
        [textFragment 7 false false [1], textFragment 7 true false [2],
          .partialDelivery 1 3 7 true true, textFragment 7 false true [3]]).Sublist
      ((completed (.empty, fun _ => [])
        [textFragment 7 false false [1], textFragment 7 true false [2],
          .partialDelivery 1 3 7 true true, textFragment 7 false true [3]]).filterMap
        handedOf) := by
  decide

end TurboMedia.DataChannel
