/-
Umqtt/Prefixes.lean

How much of a stream the decoder needs.

A verdict other than the request for more bytes is decided by the bytes at hand.
A request is never for more than is needed: with fewer bytes the decoder asks
again.  And a frame that is accepted is accepted no earlier than its last byte
(`read_prefixes`).
-/
import Umqtt.Packetview.Packet

namespace Umqtt

open Effects Wire

namespace Packet

variable {data : List UInt8} {max : Nat}

/-- Only the framing check asks for more bytes. -/
theorem read_eq_needMoreData {k : Nat} :
    read data max = .err (.needMoreData k) ↔ check data max = .err (.needMoreData k) := by
  constructor
  · intro h
    rcases check_cases data max with ⟨fh, -, -, -, -, -, -, hok⟩ | ⟨e, he, hc⟩ | ⟨n, hmore⟩
    · exact absurd h (read_ne_needMoreData hok max k)
    · have hnil := hc []
      rw [List.append_nil] at hnil
      rw [read, hnil] at h
      cases h
      cases he
    · rw [read, hmore] at h
      cases h
      exact hmore
  · intro h
    rw [read, h]
    rfl

/-- Before its last byte an accepted frame is not complete. -/
theorem read_of_strict_prefix {p : Packet} {n : Nat} (h : read data max = .ok (p, n))
    {pre : List UInt8} (hpre : pre <+: data.take n) (hne : pre ≠ data.take n) :
    ∃ k, read pre max = .err (.needMoreData k) := by
  obtain ⟨s, hs⟩ := hpre.trans (List.take_prefix n data)
  have hlt : pre.length < n := by
    have hle := hpre.length_le
    have htake := List.length_take_le n data
    rcases Nat.lt_or_ge pre.length n with hlt | hge
    · exact hlt
    · exact absurd (hpre.eq_of_length (by omega)) hne
  by_contra hno
  have hsettled := read_append s fun k hk => hno ⟨k, hk⟩
  rw [hs, h] at hsettled
  have hle := (read_eq_ok hsettled.symm).2.1
  omega

/-- Framing is decided by a prefix and never asks for too much. -/
theorem read_prefixes (data : List UInt8) (max : Nat) :
    (∀ s, (∀ k, read data max ≠ .err (.needMoreData k)) → read (data ++ s) max = read data max) ∧
    (∀ k, read data max = .err (.needMoreData k) → 1 ≤ k ∧ ∀ s : List UInt8, s.length < k →
      ∃ k', read (data ++ s) max = .err (.needMoreData k')) ∧
    ∀ p n, read data max = .ok (p, n) → 2 ≤ n ∧ n ≤ data.length ∧
      ∀ pre, pre <+: data.take n → pre ≠ data.take n →
        ∃ k, read pre max = .err (.needMoreData k) := by
  refine ⟨fun s h => read_append s h, fun k h => ?_, fun p n h => ?_⟩
  · obtain ⟨hpos, hmore⟩ := check_needMoreData (read_eq_needMoreData.mp h)
    refine ⟨hpos, fun s hs => ?_⟩
    obtain ⟨k', hk'⟩ := hmore s hs
    exact ⟨k', read_eq_needMoreData.mpr hk'⟩
  · obtain ⟨htwo, hle, -, -⟩ := read_eq_ok h
    exact ⟨htwo, hle, fun pre hpre hne => read_of_strict_prefix h hpre hne⟩

end Packet

end Umqtt
