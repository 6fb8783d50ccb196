/-
Umqtt/Limit.lean

What the size limit of a client does to a stream.

`check` compares the remaining length of a frame with the limit before it asks
for more bytes, and nothing else depends on the limit.  So a client with a
larger limit gives the same verdicts, but for frames above the smaller limit, at
which the client with the smaller limit gives up (`verdict_limit`).  Over a
whole stream the limit cuts and does nothing else (`limit_cuts`).
-/
import Umqtt.Inbound

namespace Umqtt

open Effects Wire

/-- A larger limit changes the result only for a frame that is above the smaller
one. -/
theorem check_limit {max max' : Nat} (h : max ≤ max') (data : List UInt8) :
    check data max' = check data max ∨
      ∃ fh, parseFixedHeader data = .ok fh ∧ max < fh.remainingLen ∧
        check data max = .err (.payloadSizeLimitExceeded fh.remainingLen) := by
  rcases hparse : parseFixedHeader data with fh | e | _
  · by_cases hmax : fh.remainingLen > max
    · exact .inr ⟨fh, rfl, hmax, by rw [check, hparse, Outcome.ok_bind, if_pos hmax]⟩
    · have hmax' : ¬fh.remainingLen > max' := fun hlt => hmax (Nat.lt_of_le_of_lt h hlt)
      exact .inl (by rw [check, check, hparse, Outcome.ok_bind, Outcome.ok_bind, if_neg hmax,
        if_neg hmax'])
  · exact .inl (by rw [check, check, hparse, Outcome.err_bind, Outcome.err_bind])
  · exact .inl (by rw [check, check, hparse, Outcome.panic_bind, Outcome.panic_bind])

theorem Packet.read_limit {max max' : Nat} (h : max ≤ max') (data : List UInt8) :
    Packet.read data max' = Packet.read data max ∨
      ∃ fh, parseFixedHeader data = .ok fh ∧ max < fh.remainingLen ∧
        Packet.read data max = .err (.payloadSizeLimitExceeded fh.remainingLen) := by
  rcases check_limit h data with heq | ⟨fh, hparse, hmax, herr⟩
  · exact .inl (by rw [Packet.read, Packet.read, heq])
  · exact .inr ⟨fh, hparse, hmax, by rw [Packet.read, herr, Outcome.err_bind]⟩

namespace TransportClient

/-- The same client with another limit. -/
def withLimit (max : Nat) (self : TransportClient) : TransportClient :=
  { self with maxPacketSize := max }

/-- Received bytes that decode to the same under both limits. -/
theorem onBytesReceived_withLimit {self : TransportClient} {max : Nat} {data : List UInt8}
    (h : Packet.read data max = Packet.read data self.maxPacketSize) :
    onBytesReceived data (self.withLimit max) =
      ((onBytesReceived data self).1, (onBytesReceived data self).2.withLimit max) := by
  obtain ⟨keepAlive, state, maxPacketSize, packetSendAt⟩ := self
  cases state with
  | disconnected => rfl
  | transportConnected =>
    simp only [onBytesReceived, withLimit, onHandshakeBytes, h]
    split <;> try rfl
    split <;> rfl
  | connected =>
    simp only [onBytesReceived, withLimit, onSessionBytes, h]
    split <;> rfl

/-- The client with the smaller limit gives the same verdict, or it gives up at a
frame above its limit. -/
theorem verdict_limit {self : TransportClient} {max : Nat} (hmax : self.maxPacketSize ≤ max)
    (data : List UInt8) :
    Verdict.Cut (fun t t' => t.maxPacketSize = self.maxPacketSize ∧ t' = t.withLimit max)
      (fun fin => ∃ fh, parseFixedHeader data = .ok fh ∧ self.maxPacketSize < fh.remainingLen ∧
        fin = .error (.payloadSizeLimitExceeded fh.remainingLen))
      (verdict self data) (verdict (self.withLimit max) data) := by
  have hkeeps := onBytesReceived_maxPacketSize self data
  by_cases hclosed : self.state = .disconnected
  · rw [verdict, verdict, onBytesReceived_of_disconnected hclosed,
      @onBytesReceived_of_disconnected (self.withLimit max) hclosed]
    exact .stop _ ⟨rfl, rfl⟩
  rcases Packet.read_limit hmax data with hread | ⟨fh, hparse, hlt, hread⟩
  · rw [verdict, verdict, onBytesReceived_withLimit hread]
    rcases hx : onBytesReceived data self with ⟨(_ | ⟨n, taken⟩) | e | _, client⟩ <;>
      rw [hx] at hkeeps
    · exact .wait
    · cases n <;> first
        | exact .stop _ ⟨hkeeps, rfl⟩
        | exact .take _ _ ⟨hkeeps, rfl⟩
    · exact .stop _ ⟨hkeeps, rfl⟩
    · exact .stop _ ⟨hkeeps, rfl⟩
  · have hfails : onBytesReceived data self =
        (.err (.payloadSizeLimitExceeded fh.remainingLen), self.onTransportClosed) := by
      rw [onBytesReceived]
      cases hs : self.state with
      | disconnected => exact absurd hs hclosed
      | transportConnected => simp only [onHandshakeBytes, hread, onTransportClosed]
      | connected => simp only [onSessionBytes, hread, onTransportClosed]
    rw [verdict, hfails]
    exact .cut ⟨fh, hparse, hlt, rfl⟩

/-- Two drivers that get one stream, each in its chunks, for clients that differ
in their limits.  The one with the smaller limit delivers the start of what the
other one delivers.  It comes to the same in all, unless it has given up at a
frame above its limit, which is the next one of the stream. -/
theorem limit_cuts (self : TransportClient) (options : ConnectOptions) {max : Nat}
    (hmax : self.maxPacketSize ≤ max) {chunks chunks' : List (List UInt8)}
    (h : chunks.flatten = chunks'.flatten) :
    ∃ fin fin' d d', Driver.feed chunks (.start self options) = (.ok fin, d) ∧
      Driver.feed chunks' (.start (self.withLimit max) options) = (.ok fin', d') ∧
      d.delivered <+: d'.delivered ∧
      (fin = fin' ∧ d.delivered = d'.delivered ∧ d.taken = d'.taken ∧
          d'.client = d.client.withLimit max ∨
        ∃ fh, parseFixedHeader (chunks.flatten.drop d.taken) = .ok fh ∧
          self.maxPacketSize < fh.remainingLen ∧
          fin = some (.error (.payloadSizeLimitExceeded fh.remainingLen))) := by
  obtain ⟨outs, k, fin, d, hfeed, hf, hdel, htaken⟩ :=
    Driver.feed_feeds chunks (.start self options)
  obtain ⟨outs', k', fin', d', hfeed', hf', hdel', htaken'⟩ :=
    Driver.feed_feeds chunks' (.start (self.withLimit max) options)
  obtain rfl : d.delivered = outs := hdel
  obtain rfl : d'.delivered = outs' := hdel'
  obtain rfl : d.taken = k := htaken.trans (Nat.zero_add _)
  obtain rfl : d'.taken = k' := htaken'.trans (Nat.zero_add _)
  have hdrains := hf.drains incremental_verdict rfl
  have hdrains' := hf'.drains incremental_verdict rfl
  rw [← h] at hdrains'
  have hstep : ∀ t t' data, t.maxPacketSize = self.maxPacketSize ∧ t' = t.withLimit max →
      Verdict.Cut (fun t t' => t.maxPacketSize = self.maxPacketSize ∧ t' = t.withLimit max)
        (fun fin => ∃ fh, parseFixedHeader data = .ok fh ∧ self.maxPacketSize < fh.remainingLen ∧
          fin = .error (.payloadSizeLimitExceeded fh.remainingLen))
        (verdict t data) (verdict t' data) := by
    rintro t _ data ⟨hlimit, rfl⟩
    have hverdict := @verdict_limit t max (hlimit.trans_le hmax) data
    rwa [hlimit] at hverdict
  refine ⟨fin, fin', d, d', hfeed, hfeed', ?_⟩
  rcases hdrains.cut hstep ⟨rfl, rfl⟩ hdrains' with
    ⟨hsame, htaken, ⟨-, hclient⟩, hfin⟩ | ⟨hpre, f, rfl, fh, hparse, hlt, rfl⟩
  · rw [hsame]
    exact ⟨List.prefix_rfl, .inl ⟨hfin, rfl, htaken, hclient⟩⟩
  · exact ⟨hpre, .inr ⟨fh, hparse, hlt, rfl⟩⟩

/-- A CONNACK, a PINGRESP and a publish that is above the limit of the first client,
which gives up at it. -/
theorem limit_cuts_publish :
    let stream : List UInt8 := [0x20, 2, 0, 0, 0xD0, 0, 0x30, 5, 0, 1, 0x61, 1, 2]
    let options : ConnectOptions := ⟨"", none, none, 0, true⟩
    let publish : Notification := .publish ⟨false, .atMostOnce, false, "a", 0, [1, 2]⟩
    ∃ d d', Driver.feed [stream] (.start (new 4) options) =
        (.ok (some (.error (.payloadSizeLimitExceeded 5))), d) ∧
      Driver.feed [stream.take 9, stream.drop 9] (.start (new 64) options) = (.ok none, d') ∧
      d.delivered = [.connAck ⟨false, .success⟩, .pingResponse] ∧ d.taken = 6 ∧
      d'.delivered = d.delivered ++ [publish] ∧ d.delivered <+: d'.delivered := by
  intro stream options publish
  have hcut : (Driver.feed [stream] (.start (new 4) options)).1 =
      .ok (some (.error (.payloadSizeLimitExceeded 5))) := by decide +kernel
  have hdelivered : (Driver.feed [stream] (.start (new 4) options)).2.delivered =
      [.connAck ⟨false, .success⟩, .pingResponse] := by decide +kernel
  have htaken : (Driver.feed [stream] (.start (new 4) options)).2.taken = 6 := by decide +kernel
  have hgoes : (Driver.feed [stream.take 9, stream.drop 9] (.start (new 64) options)).1 =
      .ok none := by decide +kernel
  have hdelivered' :
      (Driver.feed [stream.take 9, stream.drop 9] (.start (new 64) options)).2.delivered =
        [.connAck ⟨false, .success⟩, .pingResponse] ++ [publish] := by decide +kernel
  obtain ⟨fin, fin', d, d', hfeed, hfeed', hpre, -⟩ := limit_cuts (new 4) options
    (show 4 ≤ 64 by decide)
    (show [stream].flatten = [stream.take 9, stream.drop 9].flatten from rfl)
  have hrun : Driver.feed [stream.take 9, stream.drop 9] (.start (new 64) options) =
      (.ok fin', d') := hfeed'
  rw [hfeed] at hcut hdelivered htaken
  rw [hrun] at hgoes hdelivered'
  cases hcut
  cases hgoes
  exact ⟨d, d', hfeed, hrun, hdelivered, htaken, hdelivered'.trans (by rw [hdelivered]), hpre⟩

end TransportClient

end Umqtt
