import Mathlib.Tactic

/-!
# Framing of a byte stream

A parser of one message looks at the beginning of a buffer and says that a message was found
and how long it is, that more bytes are needed, or that there will never be a message.  It is
stable when bytes behind the message do not matter and a part of the message is not enough.

* `findMark`: the first place where a mark occurs.
* `delimited`: a parser that looks for a mark, reads everything up to it, and learns from that
  how many bytes follow; it is stable whatever it reads (`delimited_stable`).
* `frames`: the messages at the beginning of a buffer.  Messages one after the other are found
  again (`frames_flatten`), and bytes that come later only add messages (`frames_append`).
-/

namespace Framing

open List Option

variable {β : Type}

section Marks

variable [DecidableEq β]

/-- The first offset at which the mark occurs. -/
def findMark (mark : List β) : List β → Option ℕ
  | [] => none
  | b :: bs => if mark <+: b :: bs then some 0 else (findMark mark bs).map (· + 1)

variable {mark b : List β} {i : ℕ}

/-- The mark is where it was found, and what is cut off before does not change that. -/
theorem findMark_cut (h : findMark mark b = some i) :
    mark <+: b.drop i ∧ i + mark.length ≤ b.length := by
  induction b generalizing i with
  | nil => cases h
  | cons x xs ih =>
    rw [findMark] at h
    split_ifs at h with hmark
    · cases h
      exact ⟨hmark, by simpa using hmark.length_le⟩
    · obtain ⟨j, hj, rfl⟩ := map_eq_some_iff.mp h
      obtain ⟨hcut, hle⟩ := ih hj
      refine ⟨hcut, ?_⟩
      rw [length_cons]
      omega

theorem findMark_append (h : findMark mark b = some i) (c : List β) :
    findMark mark (b ++ c) = some i := by
  induction b generalizing i with
  | nil => cases h
  | cons x xs ih =>
    rw [findMark] at h
    rw [cons_append, findMark]
    split_ifs at h with hmark
    · have hlonger : mark <+: x :: (xs ++ c) :=
        hmark.trans (prefix_append (x :: xs) c)
      rw [if_pos hlonger, h]
    · obtain ⟨j, hj, rfl⟩ := map_eq_some_iff.mp h
      have hle := (findMark_cut hj).2
      rw [if_neg, ih hj]
      · rfl
      · intro hlate
        refine hmark (prefix_of_prefix_length_le hlate (prefix_append (x :: xs) c) ?_)
        rw [length_cons]
        omega

theorem findMark_take {m : ℕ} (h : findMark mark b = some i) (hm : m < i + mark.length) :
    findMark mark (b.take m) = none := by
  cases hpart : findMark mark (b.take m) with
  | none => rfl
  | some j =>
    have hfound := findMark_append hpart (b.drop m)
    rw [take_append_drop, h, some.injEq] at hfound
    have hle := (findMark_cut hpart).2
    rw [length_take] at hle
    omega

/-- A part that reaches to the end of the mark has it in the same place. -/
theorem findMark_take_of_le {m : ℕ} (hmark : mark ≠ []) (h : findMark mark b = some i)
    (hm : i + mark.length ≤ m) : findMark mark (b.take m) = some i := by
  have hpos : 0 < mark.length := length_pos_iff.mpr hmark
  induction b generalizing i m with
  | nil => cases h
  | cons x xs ih =>
    obtain ⟨k, rfl⟩ : ∃ k, m = k + 1 := ⟨m - 1, by omega⟩
    rw [findMark] at h
    rw [take_succ_cons, findMark]
    split_ifs at h with hfirst
    · cases h
      rw [if_pos]
      rw [← take_succ_cons]
      refine prefix_of_prefix_length_le hfirst ?_ ?_
      · exact take_prefix _ _
      · rw [length_take]
        exact le_min (by omega) hfirst.length_le
    · obtain ⟨j, hj, rfl⟩ := map_eq_some_iff.mp h
      rw [if_neg, ih hj (by omega)]
      · rfl
      · rw [← take_succ_cons]
        exact fun hin => hfirst <| hin.trans <| take_prefix _ _

/-- Bytes before the mark that can not be its beginning are passed over. -/
theorem findMark_skip {skipped : List β} {x : β} {xs : List β} (h : x ∉ skipped) :
    findMark (x :: xs) (skipped ++ b) = (findMark (x :: xs) b).map (skipped.length + ·) := by
  induction skipped with
  | nil =>
    rw [nil_append]
    cases findMark (x :: xs) b with
    | none => rfl
    | some i => simp
  | cons y ys ih =>
    rw [mem_cons, not_or] at h
    rw [cons_append, findMark, if_neg, ih h.2]
    · cases findMark (x :: xs) b with
      | none => rfl
      | some i =>
        simp only [map_some, length_cons, some.injEq]
        omega
    · intro hprefix
      exact h.1 (cons_prefix_cons.mp hprefix).1

theorem findMark_longer (h : findMark mark b = some i) (more : List β) :
    findMark (mark ++ more) b = (findMark (mark ++ more) (b.drop i)).map (i + ·) := by
  induction b generalizing i with
  | nil => cases h
  | cons x xs ih =>
    rw [findMark] at h
    split_ifs at h with hmark
    · cases h
      rw [drop_zero]
      cases findMark (mark ++ more) (x :: xs) with
      | none => rfl
      | some j => simp
    · obtain ⟨j, hj, rfl⟩ := map_eq_some_iff.mp h
      rw [findMark, if_neg (fun hin => hmark ((prefix_append _ _).trans hin)), ih hj,
        drop_succ_cons]
      cases findMark (mark ++ more) (xs.drop j) with
      | none => rfl
      | some k =>
        simp only [map_some, some.injEq]
        omega

end Marks

section Parsers

variable {α : Type}

/-- What a parser says about the beginning of a buffer. -/
inductive Outcome (α : Type) where
  | ok (consumed : ℕ) (value : α)
  | incomplete
  | error
deriving DecidableEq

/-- The outcome depends on the message alone. -/
structure Stable (parse : List β → Outcome α) : Prop where
  fits : ∀ {b n a}, parse b = .ok n a → n ≤ b.length
  part : ∀ {b n a m}, parse b = .ok n a → m < n → parse (b.take m) = .incomplete
  longer : ∀ {b n a}, parse b = .ok n a → ∀ c, parse (b ++ c) = .ok n a
  failed : ∀ {b}, parse b = .error → ∀ c, parse (b ++ c) = .error

/-- The value of a message is turned into another. -/
def Outcome.map {γ : Type} (f : α → γ) : Outcome α → Outcome γ
  | .ok n a => .ok n (f a)
  | .incomplete => .incomplete
  | .error => .error

theorem map_eq_ok {γ : Type} {f : α → γ} {outcome : Outcome α} {n : ℕ} {c : γ} :
    outcome.map f = .ok n c ↔ ∃ a, outcome = .ok n a ∧ f a = c := by
  cases outcome with
  | ok m a =>
    constructor
    · intro h
      cases h
      exact ⟨a, rfl, rfl⟩
    · rintro ⟨a', h, rfl⟩
      cases h
      rfl
  | incomplete | error => simp [Outcome.map]

theorem map_eq_error {γ : Type} {f : α → γ} {outcome : Outcome α} :
    outcome.map f = .error ↔ outcome = .error := by
  cases outcome <;> simp [Outcome.map]

theorem map_eq_incomplete {γ : Type} {f : α → γ} {outcome : Outcome α} :
    outcome.map f = .incomplete ↔ outcome = .incomplete := by
  cases outcome <;> simp [Outcome.map]

theorem Stable.map {γ : Type} {parse : List β → Outcome α} (h : Stable parse) (f : α → γ) :
    Stable (fun b => (parse b).map f) where
  fits := by
    intro b n c hok
    obtain ⟨a, ha, _⟩ := map_eq_ok.mp hok
    exact h.fits ha
  part := by
    intro b n c m hok hm
    obtain ⟨a, ha, _⟩ := map_eq_ok.mp hok
    exact map_eq_incomplete.mpr (h.part ha hm)
  longer := by
    intro b n c hok more
    obtain ⟨a, ha, hc⟩ := map_eq_ok.mp hok
    exact map_eq_ok.mpr ⟨a, h.longer ha more, hc⟩
  failed := by
    intro b herr more
    exact map_eq_error.mpr (h.failed (map_eq_error.mp herr) more)

theorem Stable.choose {first second : List β → Outcome α} {p : β → Bool} (hfirst : Stable first)
    (hsecond : Stable second) (hempty : second [] = .incomplete) :
    Stable (fun b => if b.head?.any p then first b else second b) where
  fits := by
    intro b n a h
    split_ifs at h
    · exact hfirst.fits h
    · exact hsecond.fits h
  part := by
    intro b n a m h hm
    cases b with
    | nil =>
      rw [take_nil]
      exact hempty
    | cons x xs =>
      cases m with
      | zero => exact hempty
      | succ m =>
        have hhead : ((x :: xs).take (m + 1)).head? = (x :: xs).head? := rfl
        rw [hhead]
        split_ifs at h ⊢
        · exact hfirst.part h hm
        · exact hsecond.part h hm
  longer := by
    intro b n a h c
    cases b with
    | nil =>
      have hnone : second [] = .ok n a := h
      rw [hempty] at hnone
      cases hnone
    | cons x xs =>
      have hhead : (x :: xs ++ c).head? = (x :: xs).head? := rfl
      rw [hhead]
      split_ifs at h ⊢
      · exact hfirst.longer h c
      · exact hsecond.longer h c
  failed := by
    intro b h c
    cases b with
    | nil =>
      have hnone : second [] = .error := h
      rw [hempty] at hnone
      cases hnone
    | cons x xs =>
      have hhead : (x :: xs ++ c).head? = (x :: xs).head? := rfl
      rw [hhead]
      split_ifs at h ⊢
      · exact hfirst.failed h c
      · exact hsecond.failed h c

section Delimited

variable [DecidableEq β]

/-- Everything up to a mark is read, and then a number of bytes. -/
def delimited {γ : Type} (mark : List β) (read : List β → Option (ℕ × γ))
    (make : γ → List β → α) (b : List β) : Outcome α :=
  match findMark mark b with
  | none => .incomplete
  | some i =>
    let stop := i + mark.length
    match read (b.take stop) with
    | none => .error
    | some (size, head) =>
      if size > b.length - stop then .incomplete
      else .ok (stop + size) (make head ((b.drop stop).take size))

variable {γ : Type} {mark : List β} {read : List β → Option (ℕ × γ)}
variable {make : γ → List β → α}

theorem delimited_eq_ok {b : List β} {n : ℕ} {a : α} :
    delimited mark read make b = .ok n a ↔ ∃ i size head, findMark mark b = some i ∧
        read (b.take (i + mark.length)) = some (size, head) ∧
        i + mark.length + size ≤ b.length ∧ n = i + mark.length + size ∧
        a = make head ((b.drop (i + mark.length)).take size) := by
  rw [delimited]
  cases hfind : findMark mark b with
  | none => simp
  | some i =>
    have hcut := (findMark_cut hfind).2
    dsimp only
    cases hread : read (b.take (i + mark.length)) with
    | none => simp [hread]
    | some p =>
      obtain ⟨size, head⟩ := p
      dsimp only
      constructor
      · intro h
        split_ifs at h with hsize
        cases h
        exact ⟨i, size, head, rfl, hread, by omega, rfl, rfl⟩
      · rintro ⟨j, size', head', hj, hread', hle, rfl, rfl⟩
        cases hj
        rw [hread, some.injEq] at hread'
        cases hread'
        rw [if_neg (by omega)]

/-- The outcome of a delimited message is decided by the bytes up to the mark. -/
theorem delimited_of_mark {b c : List β} {i : ℕ} (h : findMark mark b = some i) :
    findMark mark (b ++ c) = some i ∧ (b ++ c).take (i + mark.length) = b.take (i + mark.length) ∧
      (b ++ c).drop (i + mark.length) = b.drop (i + mark.length) ++ c := by
  have hcut := (findMark_cut h).2
  exact ⟨findMark_append h c, take_append_of_le_length hcut, drop_append_of_le_length hcut⟩

theorem delimited_stable (hmark : mark ≠ []) :
    Stable (delimited mark read make) where
  fits := by
    intro b n a h
    obtain ⟨i, size, head, _, _, hle, rfl, _⟩ := delimited_eq_ok.mp h
    exact hle
  part := by
    intro b n a m h hm
    obtain ⟨i, size, head, hfind, hread, hle, rfl, _⟩ := delimited_eq_ok.mp h
    rw [delimited]
    by_cases hlate : m < i + mark.length
    · rw [findMark_take hfind hlate]
    · have hle' : i + mark.length ≤ m := not_lt.mp hlate
      rw [findMark_take_of_le hmark hfind hle']
      dsimp only
      rw [take_take, min_eq_left hle', hread]
      dsimp only
      rw [if_pos]
      rw [length_take]
      omega
  longer := by
    intro b n a h c
    obtain ⟨i, size, head, hfind, hread, hle, rfl, rfl⟩ := delimited_eq_ok.mp h
    obtain ⟨hfind', htake, hdrop⟩ := delimited_of_mark (c := c) hfind
    refine delimited_eq_ok.mpr ⟨i, size, head, hfind', ?_, ?_, rfl, ?_⟩
    · rw [htake]
      exact hread
    · rw [length_append]
      omega
    · rw [hdrop, take_append_of_le_length]
      rw [length_drop]
      omega
  failed := by
    intro b h c
    rw [delimited] at h ⊢
    cases hfind : findMark mark b with
    | none =>
      rw [hfind] at h
      cases h
    | some i =>
      obtain ⟨hfind', htake, _⟩ := delimited_of_mark (c := c) hfind
      rw [hfind] at h
      rw [hfind']
      dsimp only at h ⊢
      rw [htake]
      cases hread : read (b.take (i + mark.length)) with
      | none => rfl
      | some p =>
        rw [hread] at h
        dsimp only at h
        split_ifs at h

end Delimited

end Parsers

variable {α : Type} {parse : List β → Outcome α}

/-- The messages at the beginning of a buffer, and what is left behind them. -/
def framesFrom (parse : List β → Outcome α) : ℕ → List β → List α × List β
  | 0, b => ([], b)
  | fuel + 1, b =>
    match parse b with
    | .ok n a =>
      if n = 0 then ([], b)
      else (a :: (framesFrom parse fuel (b.drop n)).1, (framesFrom parse fuel (b.drop n)).2)
    | .incomplete => ([], b)
    | .error => ([], b)

def frames (parse : List β → Outcome α) (b : List β) : List α × List β :=
  framesFrom parse b.length b

def Progress (parse : List β → Outcome α) : Prop :=
  ∀ b n a, parse b = .ok n a → 0 < n

def Stuck (parse : List β → Outcome α) (b : List β) : Prop :=
  ∀ n a, parse b ≠ .ok n a

theorem framesFrom_ok {b : List β} {n fuel : ℕ} {a : α} (hprog : Progress parse)
    (h : parse b = .ok n a) :
    framesFrom parse (fuel + 1) b =
      (a :: (framesFrom parse fuel (b.drop n)).1, (framesFrom parse fuel (b.drop n)).2) := by
  rw [framesFrom, h]
  dsimp only
  rw [if_neg (hprog b n a h).ne']

theorem framesFrom_stuck {b : List β} {fuel : ℕ} (h : Stuck parse b) :
    framesFrom parse fuel b = ([], b) := by
  cases fuel with
  | zero => rfl
  | succ fuel =>
    rw [framesFrom]
    split
    · next n a hok =>
        exact absurd hok (h n a)
    · rfl
    · rfl

theorem framesFrom_congr (hstable : Stable parse) (hprog : Progress parse)
    {fuel fuel' : ℕ} {b : List β} (h : b.length ≤ fuel) (h' : b.length ≤ fuel') :
    framesFrom parse fuel b = framesFrom parse fuel' b := by
  induction fuel generalizing b fuel' with
  | zero =>
    have hstuck : Stuck parse b := by
      intro n a hok
      have hpos := hprog b n a hok
      have hfits := hstable.fits hok
      omega
    rw [framesFrom_stuck hstuck, framesFrom_stuck hstuck]
  | succ fuel ih =>
    by_cases hstuck : Stuck parse b
    · rw [framesFrom_stuck hstuck, framesFrom_stuck hstuck]
    · simp only [Stuck, not_forall, not_not] at hstuck
      obtain ⟨n, a, hok⟩ := hstuck
      have hpos := hprog b n a hok
      have hfits := hstable.fits hok
      obtain ⟨k, rfl⟩ : ∃ k, fuel' = k + 1 := ⟨fuel' - 1, by omega⟩
      have hlen : (b.drop n).length = b.length - n := length_drop
      rw [framesFrom_ok hprog hok, framesFrom_ok hprog hok,
        ih (b := b.drop n) (by omega) (show (b.drop n).length ≤ k by omega)]

theorem frames_ok (hstable : Stable parse) (hprog : Progress parse) {b : List β} {n : ℕ} {a : α}
    (h : parse b = .ok n a) :
    frames parse b = (a :: (frames parse (b.drop n)).1, (frames parse (b.drop n)).2) := by
  have hpos := hprog b n a h
  have hfits := hstable.fits h
  have hlen : (b.drop n).length = b.length - n := length_drop
  obtain ⟨k, hk⟩ : ∃ k, b.length = k + 1 := ⟨b.length - 1, by omega⟩
  rw [frames, hk, framesFrom_ok hprog h,
    framesFrom_congr hstable hprog (b := b.drop n) (by omega) le_rfl]
  rfl

theorem frames_stuck {b : List β} (h : Stuck parse b) : frames parse b = ([], b) :=
  framesFrom_stuck h

theorem frames_induction {P : List β → Prop} (hstable : Stable parse) (hprog : Progress parse)
    (hstuck : ∀ b, Stuck parse b → P b) (hok : ∀ b n a, parse b = .ok n a → P (b.drop n) → P b)
    (b : List β) : P b := by
  induction hn : b.length using Nat.strong_induction_on generalizing b with
  | _ n ih =>
    by_cases hb : Stuck parse b
    · exact hstuck b hb
    · simp only [Stuck, not_forall, not_not] at hb
      obtain ⟨m, a, hm⟩ := hb
      have hpos := hprog b m a hm
      have hfits := hstable.fits hm
      refine hok b m a hm (ih (b.drop m).length ?_ _ rfl)
      rw [length_drop]
      omega

theorem frames_left_length (hstable : Stable parse) (hprog : Progress parse) (b : List β) :
    (frames parse b).2.length ≤ b.length := by
  induction b using frames_induction hstable hprog with
  | hstuck b h => rw [frames_stuck h]
  | hok b n a h ih =>
    rw [frames_ok hstable hprog h]
    rw [length_drop] at ih
    exact ih.trans (Nat.sub_le _ _)

theorem frames_append (hstable : Stable parse) (hprog : Progress parse) (b c : List β) :
    frames parse (b ++ c) = ((frames parse b).1 ++ (frames parse ((frames parse b).2 ++ c)).1,
        (frames parse ((frames parse b).2 ++ c)).2) := by
  induction b using frames_induction hstable hprog with
  | hstuck b h =>
    rw [frames_stuck h]
    rfl
  | hok b n a h ih =>
    rw [frames_ok hstable hprog (hstable.longer h c), frames_ok hstable hprog h,
      drop_append_of_le_length (hstable.fits h), ih]
    rfl

theorem frames_flatten (hstable : Stable parse) (hprog : Progress parse)
    {messages : List (List β × α)} (h : ∀ m ∈ messages, parse m.1 = .ok m.1.length m.2) :
    frames parse (messages.map Prod.fst).flatten = (messages.map Prod.snd, []) := by
  induction messages with
  | nil => rfl
  | cons m ms ih =>
    have hm := h m mem_cons_self
    have hrest := ih (fun m' hm' => h m' (mem_cons_of_mem _ hm'))
    rw [map_cons, flatten_cons, frames_ok hstable hprog (hstable.longer hm _), drop_left, hrest]
    rfl

end Framing
