import TurboMedia.DataChannel.Dcep

/-!
# The texts of the Data Channel Establishment Protocol

`dcep_text_valid` as it reads its bytes, by index.

**Result.**  `dcepTextScan_iff`: it reads no byte at or behind the length, and accepts the
concatenations of encoded characters.
-/

namespace TurboMedia.DataChannel

open List

/-- The loop of `dcep_text_valid` from an index on.  `none` stands for a byte read outside the
text, or for a loop that is not at its end when the fuel is. -/
def dcepTextScan (text : List UInt8) : ℕ → ℕ → Option Bool
  | 0, _ => none
  | fuel + 1, index =>
    if text.length ≤ index then some true
    else
      (text[index]?).bind (fun first =>
        let continuationCount :=
          if 0xc2 ≤ first ∧ first ≤ 0xdf then 1
          else if 0xe0 ≤ first ∧ first ≤ 0xef then 2
          else if 0xf0 ≤ first ∧ first ≤ 0xf4 then 3
          else 0
        if first ≤ 0x7f then dcepTextScan text fuel (index + 1)
        else if continuationCount = 0 then some false
        else if text.length - index ≤ continuationCount then some false
        else
          (text[index + 1]?).bind (fun second =>
            if !isContinuation second then some false
            else
              (if continuationCount < 2 then some true
                else (text[index + 2]?).map (fun third =>
                  isContinuation third && secondOfThree first second)).bind (fun third =>
                if !third then some false
                else
                  (if continuationCount ≠ 3 then some true
                    else (text[index + 3]?).map (fun fourth =>
                      isContinuation fourth && secondOfFour first second)).bind (fun fourth =>
                    if !fourth then some false
                    else dcepTextScan text fuel (index + (continuationCount + 1))))))

section Characters

variable {first second third fourth : UInt8}

theorem isContinuation_iff :
    isContinuation second = true ↔ 0x80 ≤ second.toNat ∧ second.toNat ≤ 0xbf := by
  rw [isContinuation, Bool.and_eq_true, decide_eq_true_eq, decide_eq_true_eq]
  rfl

theorem secondOfThree_iff : secondOfThree first second = true ↔
    (first.toNat = 0xe0 → 0xa0 ≤ second.toNat) ∧ (first.toNat = 0xed → second.toNat ≤ 0x9f) := by
  simp [secondOfThree, UInt8.lt_iff_toNat_lt, ← UInt8.toNat_inj, imp_iff_not_or]

theorem secondOfFour_iff : secondOfFour first second = true ↔
    (first.toNat = 0xf0 → 0x90 ≤ second.toNat) ∧ (first.toNat = 0xf4 → second.toNat ≤ 0x8f) := by
  simp [secondOfFour, UInt8.lt_iff_toNat_lt, ← UInt8.toNat_inj, imp_iff_not_or]

/-- The character of a scalar value. -/
theorem exists_char (v : ℕ) (hv : v < 0xd800 ∨ 0xdfff < v ∧ v < 0x110000) :
    ∃ c : Char, c.val.toNat = v := by
  have hvalid : v.isValidChar := hv
  refine ⟨Char.ofNat v, ?_⟩
  rw [Char.ofNat, dif_pos hvalid]
  rfl

theorem toNat_ofNat {n : ℕ} (hn : n < 256) : (UInt8.ofNat n).toNat = n := by
  rw [UInt8.toNat_ofNat', Nat.mod_eq_of_lt hn]

theorem dcepTextValid_encode (c : Char) (rest : List UInt8) :
    dcepTextValid (String.utf8EncodeChar c ++ rest) = dcepTextValid rest := by
  have hvalid : c.val.toNat < 0xd800 ∨ 0xdfff < c.val.toNat ∧ c.val.toNat < 0x110000 := c.valid
  have hmod : ∀ n, isContinuation (UInt8.ofNat (n % 0x40 + 0x80)) = true := by
    intro n
    rw [isContinuation_iff, toNat_ofNat (by omega)]
    omega
  rw [String.utf8EncodeChar]
  generalize c.val.toNat = v at hvalid
  split_ifs with hone htwo hthree <;> simp only [cons_append, nil_append] <;>
    rw [dcepTextValid.eq_def] <;>
    simp only [hmod, UInt8.le_iff_toNat_le, UInt8.toNat_ofNat', UInt8.toNat_ofNat, Bool.true_and]
  · rw [if_pos (by omega)]
  · rw [if_neg (by omega), if_pos (by omega)]
  · rw [if_neg (by omega), if_neg (by omega), if_pos (by omega), secondOfThree_iff.mpr]
    · rfl
    · rw [toNat_ofNat (by omega), toNat_ofNat (by omega)]
      omega
  · rw [if_neg (by omega), if_neg (by omega), if_neg (by omega), if_pos (by omega),
      secondOfFour_iff.mpr]
    · rfl
    · rw [toNat_ofNat (by omega), toNat_ofNat (by omega)]
      omega

/-- A character of this value, and then others. -/
theorem exists_chars_cons (v : ℕ) (bytes : List UInt8) {rest : List UInt8}
    (hv : v < 0xd800 ∨ 0xdfff < v ∧ v < 0x110000)
    (hbytes : ∀ c : Char, c.val.toNat = v → String.utf8EncodeChar c = bytes)
    (hrest : ∃ cs : List Char, rest = cs.flatMap String.utf8EncodeChar) :
    ∃ cs : List Char, bytes ++ rest = cs.flatMap String.utf8EncodeChar := by
  obtain ⟨c, hc⟩ := exists_char v hv
  obtain ⟨cs, rfl⟩ := hrest
  exact ⟨c :: cs, by rw [← hbytes c hc]; rfl⟩

theorem exists_chars {text : List UInt8} (hvalid : dcepTextValid text = true) :
    ∃ cs : List Char, text = cs.flatMap String.utf8EncodeChar := by
  fun_induction dcepTextValid text <;> simp only [Bool.and_eq_true, isContinuation_iff,
    secondOfThree_iff, secondOfFour_iff, UInt8.le_iff_toNat_le, UInt8.toNat_ofNat] at *
  case case1 => exact ⟨[], rfl⟩
  case case2 first rest ih hone =>
    refine exists_chars_cons first.toNat [first] (by omega) (fun c hc => ?_) (ih hvalid)
    rw [String.utf8EncodeChar, hc, if_pos (by omega), UInt8.ofNat_toNat]
  case case3 first second rest ih hone hfirst =>
    refine exists_chars_cons ((first.toNat - 0xc0) * 64 + (second.toNat - 0x80)) [first, second]
      (by omega) (fun c hc => ?_) (ih hvalid.2)
    rw [String.utf8EncodeChar, hc, if_neg (by omega), if_pos (by omega)]
    simp only [cons.injEq, ← UInt8.toNat_inj, UInt8.toNat_ofNat', and_true]
    omega
  case case5 first second third rest ih hone _ hfirst =>
    refine exists_chars_cons ((first.toNat - 0xe0) * 4096 + (second.toNat - 0x80) * 64 +
      (third.toNat - 0x80)) [first, second, third] (by omega) (fun c hc => ?_) (ih hvalid.2)
    rw [String.utf8EncodeChar, hc, if_neg (by omega), if_neg (by omega), if_pos (by omega)]
    simp only [cons.injEq, ← UInt8.toNat_inj, UInt8.toNat_ofNat', and_true]
    omega
  case case7 first second third fourth rest ih hone _ _ hfirst =>
    refine exists_chars_cons ((first.toNat - 0xf0) * 262144 + (second.toNat - 0x80) * 4096 +
      (third.toNat - 0x80) * 64 + (fourth.toNat - 0x80)) [first, second, third, fourth]
      (by omega) (fun c hc => ?_) (ih hvalid.2)
    rw [String.utf8EncodeChar, hc, if_neg (by omega), if_neg (by omega), if_neg (by omega)]
    simp only [cons.injEq, ← UInt8.toNat_inj, UInt8.toNat_ofNat', and_true]
    omega
  all_goals cases hvalid

theorem dcepTextValid_iff (text : List UInt8) :
    dcepTextValid text = true ↔ ∃ cs : List Char, text = cs.flatMap String.utf8EncodeChar := by
  refine ⟨exists_chars, ?_⟩
  rintro ⟨cs, rfl⟩
  induction cs with
  | nil => rfl
  | cons c cs ih => rw [flatMap_cons, dcepTextValid_encode, ih]

theorem dcepTextScan_eq (text : List UInt8) {fuel index : ℕ}
    (hfuel : text.length - index < fuel) :
    dcepTextScan text fuel index = some (dcepTextValid (text.drop index)) := by
  induction fuel generalizing index with
  | zero => exact absurd hfuel (Nat.not_lt_zero _)
  | succ fuel ih =>
    rw [dcepTextScan]
    by_cases hend : text.length ≤ index
    · rw [if_pos hend, drop_eq_nil_of_le hend, dcepTextValid]
    have hget : ∀ k, text[index + k]? = (text.drop index)[k]? := fun k => getElem?_drop.symm
    have hnext : ∀ n, 0 < n → dcepTextScan text fuel (index + n) =
        some (dcepTextValid ((text.drop index).drop n)) := by
      intro n hn
      rw [ih (by omega), drop_drop]
    have hlen : text.length - index = (text.drop index).length := length_drop.symm
    have hfirst := hget 0
    rw [Nat.add_zero] at hfirst
    rw [if_neg hend, hlen, hfirst, hget, hget, hget, hnext 1 (by decide)]
    obtain ⟨first, rest, htail⟩ := exists_cons_of_ne_nil (mt drop_eq_nil_iff.mp hend)
    rw [htail] at hnext ⊢
    by_cases hone : first ≤ 0x7f
    · simp [dcepTextValid.eq_def (first :: rest), hone]
    by_cases htwo : 0xc2 ≤ first ∧ first ≤ 0xdf
    · rcases rest with _ | ⟨second, rest⟩
      · simp [dcepTextValid, hone, htwo]
      · cases h : isContinuation second <;> simp [dcepTextValid, hone, htwo, hnext, h]
    by_cases hthree : 0xe0 ≤ first ∧ first ≤ 0xef
    · rcases rest with _ | ⟨second, _ | ⟨third, rest⟩⟩
      · simp [dcepTextValid, hone, htwo, hthree]
      · simp [dcepTextValid, hone, htwo, hthree]
      · cases h2 : isContinuation second <;> cases h3 : isContinuation third <;>
          cases hpair : secondOfThree first second <;>
          simp [dcepTextValid, hone, htwo, hthree, hnext, h2, h3, hpair]
    by_cases hfour : 0xf0 ≤ first ∧ first ≤ 0xf4
    · rcases rest with _ | ⟨second, _ | ⟨third, _ | ⟨fourth, rest⟩⟩⟩
      · simp [dcepTextValid, hone, htwo, hthree, hfour]
      · simp [dcepTextValid, hone, htwo, hthree, hfour]
      · simp [dcepTextValid, hone, htwo, hthree, hfour]
      · have hthird : secondOfThree first second = true := by
          have hlow : 0xf0 ≤ first.toNat := UInt8.le_iff_toNat_le.mp hfour.1
          rw [secondOfThree_iff]
          omega
        have hlong : ¬rest.length + 1 + 1 + 1 < 3 := by omega
        cases h2 : isContinuation second <;> cases h3 : isContinuation third <;>
          cases h4 : isContinuation fourth <;> cases hpair : secondOfFour first second <;>
          simp [dcepTextValid, hone, htwo, hthree, hfour, hnext, hlong, hthird, h2, h3, h4, hpair]
    · simp [dcepTextValid.eq_def (first :: rest), hone, htwo, hthree, hfour]

/-- Strict UTF-8: no byte is read outside the text, and the texts that are accepted are the
encoded strings of characters. -/
theorem dcepTextScan_iff (text : List UInt8) :
    ∃ valid, dcepTextScan text (text.length + 1) 0 = some valid ∧
      (valid = true ↔ ∃ cs : List Char, text = cs.flatMap String.utf8EncodeChar) := by
  refine ⟨dcepTextValid text, ?_, dcepTextValid_iff text⟩
  exact dcepTextScan_eq text (show text.length - 0 < text.length + 1 by omega)

end Characters

end TurboMedia.DataChannel
