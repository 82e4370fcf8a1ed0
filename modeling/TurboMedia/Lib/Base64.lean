import Mathlib.Data.List.DropRight
import Mathlib.Tactic

/-!
# Base64

The standard alphabet, with padding to a multiple of four characters.  Text is
read in two layers: characters to numbers below 64 (`sextets`), and these, four
at a time, to bytes (`pack`).  The last group may be short; the bits of its last
number that no byte takes are its unused bits (`unused`).

A text decodes to the bytes it encodes (`decode_encode`), and bytes together
with the unused bits determine the text (`pack_injective`).  The unused bits are
not required to be zero.
-/

namespace Base64

open List Option

def digit (n : ℕ) : UInt8 :=
  if n < 26 then UInt8.ofNat (65 + n)
  else if n < 52 then UInt8.ofNat (71 + n)
  else if n < 62 then UInt8.ofNat (n - 4)
  else if n = 62 then 43
  else 47

def value (c : UInt8) : Option ℕ :=
  if 65 ≤ c.toNat ∧ c.toNat ≤ 90 then some (c.toNat - 65)
  else if 97 ≤ c.toNat ∧ c.toNat ≤ 122 then some (c.toNat - 71)
  else if 48 ≤ c.toNat ∧ c.toNat ≤ 57 then some (c.toNat + 4)
  else if c.toNat = 43 then some 62
  else if c.toNat = 47 then some 63
  else none

def padding : UInt8 := 61

variable {c : UInt8} {n : ℕ}

theorem value_lt (h : value c = some n) : n < 64 := by
  rw [value] at h
  split_ifs at h <;> simp only [some.injEq] at h <;> omega

theorem value_digit (h : n < 64) : value (digit n) = some n := by
  interval_cases n <;> decide

theorem value_injective {d : UInt8} (hc : value c = some n) (hd : value d = some n) :
    c = d := by
  apply UInt8.toNat_inj.mp
  rw [value] at hc hd
  split_ifs at hc hd <;> simp only [some.injEq] at hc hd <;> omega

theorem value_ne_padding (h : value c = some n) : c ≠ padding := by
  rintro rfl
  simp [value, padding] at h

/-- Numbers below 64 to bytes: three bytes of a full group, one or two of a short
last one. -/
def pack : List ℕ → Option (List UInt8)
  | [] => some []
  | [_] => none
  | [a, b] => some [UInt8.ofNat (a * 4 + b / 16)]
  | [a, b, c] => some [UInt8.ofNat (a * 4 + b / 16), UInt8.ofNat (b % 16 * 16 + c / 4)]
  | a :: b :: c :: d :: rest =>
    (pack rest).map (fun bytes =>
      UInt8.ofNat (a * 4 + b / 16) :: UInt8.ofNat (b % 16 * 16 + c / 4) ::
        UInt8.ofNat (c % 4 * 64 + d) :: bytes)

/-- Bytes to numbers below 64, with unused bits zero. -/
def unpack : List UInt8 → List ℕ
  | [] => []
  | [x] => [x.toNat / 4, x.toNat % 4 * 16]
  | [x, y] => [x.toNat / 4, x.toNat % 4 * 16 + y.toNat / 16, y.toNat % 16 * 4]
  | x :: y :: z :: rest =>
    x.toNat / 4 :: (x.toNat % 4 * 16 + y.toNat / 16) :: (y.toNat % 16 * 4 + z.toNat / 64) ::
      z.toNat % 64 :: unpack rest

/-- The bits of the last number that no byte takes. -/
def unused : List ℕ → ℕ
  | [_, b] => b % 16
  | [_, _, c] => c % 4
  | _ :: _ :: _ :: _ :: rest => unused rest
  | _ => 0

theorem ofNat_injective {m : ℕ} (hm : m < 256) (hn : n < 256)
    (h : UInt8.ofNat m = UInt8.ofNat n) : m = n := by
  rw [← UInt8.toNat_ofNat_of_lt' hm, ← UInt8.toNat_ofNat_of_lt' hn, h]

theorem ofNat_eq {x : UInt8} (h : n = x.toNat) : UInt8.ofNat n = x := by
  rw [h, UInt8.ofNat_toNat]

theorem unpack_lt (bytes : List UInt8) : ∀ n ∈ unpack bytes, n < 64 := by
  induction bytes using unpack.induct with
  | case1 => simp [unpack]
  | case2 x =>
    have hx := x.toNat_lt
    simp [unpack]
    omega
  | case3 x y =>
    have hx := x.toNat_lt
    have hy := y.toNat_lt
    simp [unpack]
    omega
  | case4 x y z rest ih =>
    have hx := x.toNat_lt
    have hy := y.toNat_lt
    have hz := z.toNat_lt
    simp only [unpack, mem_cons, forall_eq_or_imp]
    exact ⟨by omega, by omega, by omega, by omega, ih⟩

theorem pack_unpack (bytes : List UInt8) : pack (unpack bytes) = some bytes := by
  induction bytes using unpack.induct with
  | case1 => rfl
  | case2 x =>
    have hx := x.toNat_lt
    simp only [unpack, pack]
    rw [ofNat_eq (x := x) (by omega)]
  | case3 x y =>
    have hx := x.toNat_lt
    have hy := y.toNat_lt
    simp only [unpack, pack]
    rw [ofNat_eq (x := x) (by omega), ofNat_eq (x := y) (by omega)]
  | case4 x y z rest ih =>
    have hx := x.toNat_lt
    have hy := y.toNat_lt
    have hz := z.toNat_lt
    simp only [unpack, pack, ih, map_some]
    rw [ofNat_eq (x := x) (by omega), ofNat_eq (x := y) (by omega),
      ofNat_eq (x := z) (by omega)]

variable {ns : List ℕ} {bytes : List UInt8}

theorem length_pack (h : pack ns = some bytes) :
    bytes.length = ns.length * 3 / 4 := by
  induction ns using pack.induct generalizing bytes with
  | case1 | case3 a b | case4 a b c =>
    simp [pack] at h
    simp [← h]
  | case2 a => simp [pack] at h
  | case5 a b c d rest ih =>
    simp only [pack, map_eq_some_iff] at h
    obtain ⟨bytes', hrest, rfl⟩ := h
    simp only [length_cons, ih hrest]
    omega

theorem length_of_pack (h : pack ns = some bytes) :
    ns.length % 4 ≠ 1 := by
  induction ns using pack.induct generalizing bytes with
  | case1 | case3 a b | case4 a b c => simp
  | case2 a => simp [pack] at h
  | case5 a b c d rest ih =>
    simp only [pack, map_eq_some_iff] at h
    obtain ⟨bytes', hrest, _⟩ := h
    have := ih hrest
    simp only [length_cons]
    omega

theorem pack_injective_of_length {ms : List ℕ}
    (hlen : ns.length = ms.length) (hn : ∀ n ∈ ns, n < 64) (hm : ∀ m ∈ ms, m < 64)
    (hns : pack ns = some bytes) (hms : pack ms = some bytes) (hunused : unused ns = unused ms) :
    ns = ms := by
  induction ns using pack.induct generalizing ms bytes with
  | case1 =>
    rw [length_nil] at hlen
    rw [eq_nil_of_length_eq_zero hlen.symm]
  | case2 a => simp [pack] at hns
  | case3 a b =>
    obtain ⟨a', b', rfl⟩ := length_eq_two.mp hlen.symm
    simp only [mem_cons, forall_eq_or_imp, not_mem_nil, false_implies, implies_true,
      and_true] at hn hm
    simp only [pack, some.injEq] at hns hms
    simp only [unused] at hunused
    rw [← hns] at hms
    have hbyte := ofNat_injective (by omega) (by omega) (cons.inj hms).1
    have ha : a = a' := by omega
    have hb : b = b' := by omega
    rw [ha, hb]
  | case4 a b c =>
    obtain ⟨a', b', c', rfl⟩ := length_eq_three.mp hlen.symm
    simp only [mem_cons, forall_eq_or_imp, not_mem_nil, false_implies, implies_true,
      and_true] at hn hm
    simp only [pack, some.injEq] at hns hms
    simp only [unused] at hunused
    rw [← hns] at hms
    simp only [cons.injEq, and_true] at hms
    have hfirst := ofNat_injective (by omega) (by omega) hms.1
    have hsecond := ofNat_injective (by omega) (by omega) hms.2
    have ha : a = a' := by omega
    have hb : b = b' := by omega
    have hc : c = c' := by omega
    rw [ha, hb, hc]
  | case5 a b c d rest ih =>
    match ms, hlen with
    | a' :: b' :: c' :: d' :: rest', hlen =>
      simp only [mem_cons, forall_eq_or_imp] at hn hm
      simp only [pack, map_eq_some_iff] at hns hms
      obtain ⟨bytes₁, hrest, rfl⟩ := hns
      obtain ⟨bytes₂, hrest', heq⟩ := hms
      simp only [cons.injEq] at heq
      have hfirst := ofNat_injective (by omega) (by omega) heq.1
      have hsecond := ofNat_injective (by omega) (by omega) heq.2.1
      have hthird := ofNat_injective (by omega) (by omega) heq.2.2.1
      have ha : a = a' := by omega
      have hb : b = b' := by omega
      have hc : c = c' := by omega
      have hd : d = d' := by omega
      rw [heq.2.2.2] at hrest'
      simp only [length_cons, Nat.add_right_cancel_iff] at hlen
      have htail := ih hlen hn.2.2.2.2 hm.2.2.2.2 hrest hrest' hunused
      rw [ha, hb, hc, hd, htail]

theorem pack_injective {ms : List ℕ} (hn : ∀ n ∈ ns, n < 64)
    (hm : ∀ m ∈ ms, m < 64) (hns : pack ns = some bytes) (hms : pack ms = some bytes)
    (hunused : unused ns = unused ms) : ns = ms := by
  have hlen : ns.length = ms.length := by
    have hn3 := length_pack hns
    have hm3 := length_pack hms
    have hn1 : ns.length % 4 = 0 ∨ ns.length % 4 = 2 ∨ ns.length % 4 = 3 := by
      have := length_of_pack hns
      omega
    have hm1 : ms.length % 4 = 0 ∨ ms.length % 4 = 2 ∨ ms.length % 4 = 3 := by
      have := length_of_pack hms
      omega
    rcases hn1 with hn1 | hn1 | hn1 <;> rcases hm1 with hm1 | hm1 | hm1 <;> omega
  exact pack_injective_of_length hlen hn hm hns hms hunused

def sextets : List UInt8 → Option (List ℕ)
  | [] => some []
  | c :: text =>
    match value c, sextets text with
    | some n, some ns => some (n :: ns)
    | _, _ => none

/-- Padding characters behind `n` others. -/
def paddingFor (n : ℕ) : List UInt8 :=
  replicate ((4 - n % 4) % 4) padding

def encode (bytes : List UInt8) : List UInt8 :=
  (unpack bytes).map digit ++ paddingFor (unpack bytes).length

def decode (text : List UInt8) : Option (List UInt8) :=
  let body := text.rdropWhile (· == padding)
  if text.length % 4 ≠ 0 ∨ text ≠ body ++ paddingFor body.length then none
  else (sextets body).bind pack

variable {text : List UInt8}

theorem sextets_eq_some :
    sextets text = some ns ↔ List.Forall₂ (fun c n => value c = some n) text ns := by
  induction text generalizing ns with
  | nil => simp [sextets, eq_comm]
  | cons c text ih =>
    rw [sextets, forall₂_cons_left_iff]
    constructor
    · intro h
      split at h
      · next n ns' hc hrest =>
          simp only [some.injEq] at h
          exact ⟨n, ns', hc, ih.mp hrest, h.symm⟩
      · cases h
    · rintro ⟨n, ns', hc, hrest, rfl⟩
      rw [hc, ih.mpr hrest]

theorem sextets_lt (h : sextets text = some ns) :
    ∀ n ∈ ns, n < 64 := by
  rw [sextets_eq_some] at h
  induction h with
  | nil => simp
  | cons hc _ ih =>
    simp only [mem_cons, forall_eq_or_imp]
    exact ⟨value_lt hc, ih⟩

theorem sextets_injective {text' : List UInt8} (h : sextets text = some ns)
    (h' : sextets text' = some ns) : text = text' := by
  rw [sextets_eq_some] at h h'
  induction h generalizing text' with
  | nil =>
    rw [forall₂_nil_right_iff] at h'
    exact h'.symm
  | cons hc _ ih =>
    rw [forall₂_cons_right_iff] at h'
    obtain ⟨c', rest', hc', hrest', rfl⟩ := h'
    rw [value_injective hc hc', ih hrest']

theorem sextets_digits (h : ∀ n ∈ ns, n < 64) : sextets (ns.map digit) = some ns := by
  induction ns with
  | nil => rfl
  | cons n ns ih =>
    rw [map_cons, sextets, value_digit (h n (by simp)),
      ih (fun m hm => h m (by simp [hm]))]

theorem rdropWhile_padded {k : ℕ} (h : ∀ c ∈ text, c ≠ padding) :
    (text ++ replicate k padding).rdropWhile (· == padding) = text := by
  induction k with
  | zero =>
    rw [replicate_zero, append_nil, rdropWhile_eq_self_iff]
    intro hne hlast
    exact h _ (getLast_mem hne) (by simpa using hlast)
  | succ k ih =>
    rw [replicate_succ', ← append_assoc, rdropWhile_concat_pos _ _ _ (by simp), ih]

theorem decode_padded (h : ∀ c ∈ text, c ≠ padding) :
    decode (text ++ paddingFor text.length) = (sextets text).bind pack := by
  rw [decode, paddingFor, rdropWhile_padded h, if_neg]
  rintro (hmod | hne)
  · rw [length_append, length_replicate] at hmod
    omega
  · exact hne rfl

theorem sextets_ne_padding (h : sextets text = some ns) :
    ∀ c ∈ text, c ≠ padding := by
  rw [sextets_eq_some] at h
  induction h with
  | nil => simp
  | cons hc _ ih =>
    simp only [mem_cons, forall_eq_or_imp]
    exact ⟨value_ne_padding hc, ih⟩

theorem decode_encode (bytes : List UInt8) : decode (encode bytes) = some bytes := by
  have hdigits := sextets_digits (unpack_lt bytes)
  have hpadded := decode_padded (sextets_ne_padding hdigits)
  rw [length_map] at hpadded
  rw [encode, hpadded, hdigits, bind_some, pack_unpack]

end Base64
