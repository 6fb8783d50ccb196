/-
Umqtt/NanoClient/Publishing.lean

Publishing with little room.

Every other encoder says that there is no room, however short the buffer is.
The one that publishes in place first splits off the five bytes of the longest
fixed header, and panics on a buffer that does not have them; on all others it
does what its siblings do (`publish_reports`).
-/
import Umqtt.InPlace
import Umqtt.NanoClient.Operations

namespace Umqtt

open Effects Wire

/-- It is no panic, and if there is too little room it says so. -/
def Reports {ε α : Type} (full : ε) (small : Prop) (r : Outcome ε α) : Prop :=
  r ≠ .panic ∧ (small → r = .err full)

namespace OutPublish

/-- A buffer of `n` bytes is too small for a PUBLISH that could be encoded, and
whose closures pass errors on. -/
def TooSmall (self : OutPublish) (topic : TopicFn) (payload : PayloadFn) (n : Nat) : Prop :=
  ∃ (topicAdds : List TopicQuery) (payloadAdds : List PayloadQuery),
    topic = .all topicAdds ∧ payload = .all payloadAdds ∧
    self.Encodable (topicAdds.flatMap TopicQuery.bytes)
      (payloadAdds.flatMap PayloadQuery.bytes) ∧
    n < 5 + (self.bodyOf (topicAdds.flatMap TopicQuery.bytes)
      (payloadAdds.flatMap PayloadQuery.bytes)).length

variable {self : OutPublish} {topic : TopicFn} {payload : PayloadFn} {buf : List UInt8}

theorem write_of_tooSmall (h5 : 5 ≤ buf.length) (h : self.TooSmall topic payload buf.length) :
    (self.write topic payload buf).1 = .err .notEnoughCapacity := by
  obtain ⟨topicAdds, payloadAdds, rfl, rfl, henc, hlt⟩ := h
  have hfills := fills_writeVarHeaderAndPayload (emits_topic topicAdds)
    (emits_payload payloadAdds) henc.topic henc.pkid
  exact (write_of_fills h5 hfills).trans (if_neg (Nat.not_le.mpr hlt))

theorem write_ne_panic_iff : (self.write topic payload buf).1 ≠ .panic ↔ 5 ≤ buf.length := by
  constructor
  · intro h
    by_contra hshort
    rw [self.write_of_lt topic payload (Nat.lt_of_not_le hshort)] at h
    exact h rfl
  · intro h5
    rcases self.write_cases topic payload h5 with ⟨-, -, b, hb, -⟩ | ⟨e, b, hb, -⟩
    · rw [hb]
      nofun
    · rw [hb]
      nofun

end OutPublish

namespace NanoClient

section Operations

variable {σ E : Type} (p : Platform σ E)

/-- Publishing panics iff the tx buffer has no room for the longest fixed header. -/
theorem sendPublish_eq_panic (publish : OutPublish) (topic : TopicFn) (payload : PayloadFn)
    (w : World σ E) :
    (sendPublish p publish topic payload w).1 = .panic ↔ w.client.txBuffer.length < 5 := by
  constructor
  · intro hpanic
    have hsent := sendPublish_sent p publish topic payload w
    rw [hpanic] at hsent
    generalize (sendPublish p publish topic payload w).2 = w' at hsent
    cases hsent with
    | panicked hshort => exact hshort
    | encoded _ _ hw => cases hw
  · intro hshort
    have hpanic := onTx_apply (publish.write_of_lt topic payload hshort)
    rw [sendPublish, Act.bind_apply, hpanic]
    rfl

theorem sendPublish_reports (publish : OutPublish) (topic : TopicFn) (payload : PayloadFn)
    (w : World σ E) :
    Reports (.writeError .notEnoughCapacity)
        (publish.TooSmall topic payload w.client.txBuffer.length)
        (sendPublish p publish topic payload w).1 ↔ 5 ≤ w.client.txBuffer.length := by
  have hpanic := sendPublish_eq_panic p publish topic payload w
  constructor
  · rintro ⟨hne, -⟩
    exact Nat.le_of_not_lt (mt hpanic.mpr hne)
  · intro h5
    refine ⟨mt hpanic.mp (Nat.not_lt.mpr h5), fun hsmall => ?_⟩
    have hfull := OutPublish.write_of_tooSmall h5 hsmall
    rcases hwrite : publish.write topic payload w.client.txBuffer with ⟨r, b⟩
    rw [hwrite] at hfull
    subst hfull
    rw [sendPublish, Act.bind_of_err (onTx_apply hwrite)]

end Operations

/-- Publishing does not panic, and reports that there is no room, exactly if the
buffer has room for the longest fixed header. -/
theorem publish_reports {σ E : Type} (p : Platform σ E) (w : World σ E) (out : OutPublish)
    (packetId : UInt16) (topic : TopicFn) (payload : PayloadFn) (buf : List UInt8) :
    (Reports .notEnoughCapacity (out.TooSmall topic payload buf.length)
      (out.write topic payload buf).1 ↔ 5 ≤ buf.length) ∧
    (Reports (.writeError .notEnoughCapacity)
      (out.TooSmall topic payload w.client.txBuffer.length)
      (sendPublish p out topic payload w).1 ↔ 5 ≤ w.client.txBuffer.length) ∧
    (Reports (.writeError .notEnoughCapacity)
      ((⟨false, .atMostOnce, false, 0⟩ : OutPublish).TooSmall topic payload
        w.client.txBuffer.length)
      (sendPublishQos0 p topic payload w).1 ↔ 5 ≤ w.client.txBuffer.length) ∧
    (Reports (.writeError .notEnoughCapacity)
      ((⟨false, .atLeastOnce, false, packetId⟩ : OutPublish).TooSmall topic payload
        w.client.txBuffer.length)
      (sendPublishQos1 p packetId topic payload w).1 ↔ 5 ≤ w.client.txBuffer.length) := by
  refine ⟨⟨fun h => OutPublish.write_ne_panic_iff.mp h.1, fun h5 =>
    ⟨OutPublish.write_ne_panic_iff.mpr h5, OutPublish.write_of_tooSmall h5⟩⟩,
    sendPublish_reports p out topic payload w, sendPublish_reports p _ topic payload w,
    sendPublish_reports p _ topic payload w⟩

/-- Four bytes are too few for any PUBLISH; the sibling encoder says so. -/
theorem publish_reports_four :
    let out : OutPublish := ⟨false, .atMostOnce, false, 0⟩
    let client := new [0, 0, 0, 0] []
    (out.write (.all []) (.all []) [0, 0, 0, 0]).1 = .panic ∧
      out.TooSmall (.all []) (.all []) 4 ∧
      (sendPublishQos0 (streamPlatform 1) (.all []) (.all []) ⟨client, [], []⟩).1 = .panic ∧
      ((⟨false, .atMostOnce, false, "topic", 0, []⟩ : Publish).write [0, 0, 0, 0]).1 =
        .err .notEnoughCapacity := by
  refine ⟨rfl, ⟨[], [], rfl, rfl, ⟨by decide, by decide, by decide⟩, by decide⟩, rfl,
    by decide +kernel⟩

end NanoClient

end Umqtt
