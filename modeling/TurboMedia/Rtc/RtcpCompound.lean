import Mathlib.Tactic

/-!
# RTCP compound packets

Model of `rtcp_compound_t`: a buffer that packets are written into one after the
other, and the position after the last one.
-/

namespace TurboMedia.Rtcp

/-- `RTCP_RTPFB`. -/
def rtpfb : UInt8 := 205

/-- `rtcp_compound_t`; `buffer_len` is the length of the buffer. -/
structure Compound where
  buffer : List UInt8
  offset : ℕ
  offset_le : offset ≤ buffer.length

namespace Compound

/-- `rtcp_compound_init`. -/
def init (buffer : List UInt8) : Compound :=
  ⟨buffer, 0, Nat.zero_le _⟩

def remaining (compound : Compound) : ℕ :=
  compound.buffer.length - compound.offset

/-- Write a packet at the position, if it fits. -/
def write (compound : Compound) (packet : List UInt8) : Option Compound :=
  if h : packet.length ≤ compound.remaining then
    some
      { buffer := compound.buffer.take compound.offset ++ packet ++
          compound.buffer.drop (compound.offset + packet.length)
        offset := compound.offset + packet.length
        offset_le := by
          have := compound.offset_le
          simp only [List.length_append, List.length_take]
          omega }
  else none

/-- The bytes that were written since `before`. -/
def writtenSince (compound before : Compound) : List UInt8 :=
  (compound.buffer.drop before.offset).take (compound.offset - before.offset)

theorem write_spec {compound compound' : Compound} {packet : List UInt8}
    (h : compound.write packet = some compound') :
    compound'.writtenSince compound = packet ∧
      compound'.offset = compound.offset + packet.length := by
  unfold write at h
  split_ifs at h with hfits
  obtain rfl := Option.some.inj h
  have htake : (compound.buffer.take compound.offset).length = compound.offset := by
    rw [List.length_take, Nat.min_eq_left compound.offset_le]
  refine ⟨?_, rfl⟩
  rw [writtenSince]
  dsimp only
  rw [List.append_assoc, List.drop_left' htake, Nat.add_sub_cancel_left, List.take_left]

end Compound

end TurboMedia.Rtcp
