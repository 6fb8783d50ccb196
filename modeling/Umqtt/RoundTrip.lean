/-
Umqtt/RoundTrip.lean

Reading back what was written, for packets of all kinds.

The two directions meet at `Framed p byte1 body q`: the writer of `p` produces
the frame with this first byte and this body, and the reader takes `q` off that
frame, which is `p` but for the storage of its lists.  `exists_framed` says that
every readable packet has such a frame; `read_write` is the round trip through
any buffer, whatever follows the packet in the stream.
-/
import Umqtt.Packetview.Packet

namespace Umqtt

open Effects Wire

namespace Packet

/-! ### The writer of a packet -/

/-- The `write` of the packet's kind. -/
def write : Packet → Act (List UInt8) WriteError Nat
  | connect p => p.write
  | connAck p => p.write
  | publish p => p.write
  | pubAck p => p.write
  | pubRec p => p.write
  | pubRel p => p.write
  | pubComp p => p.write
  | subscribe p => p.write
  | subAck p => p.write
  | unsubscribe p => p.write
  | unsubAck p => p.write
  | pingReq => PingReq.write
  | pingResp => PingResp.write
  | disconnect => Disconnect.write

/-- The length of the packet's body, as the `len` of its kind has it. -/
def len : Packet → Outcome Empty Nat
  | connect p => .ok p.len
  | connAck p => .ok p.len
  | publish p => .ok p.len
  | subscribe p => p.len
  | subAck p => .ok p.len
  | unsubscribe p => p.len
  | pubAck _ | pubRec _ | pubRel _ | pubComp _ | unsubAck _ => .ok 2
  | pingReq | pingResp | disconnect => .ok 0

/-- The packets that the reader can take back from their bytes. -/
def Readable : Packet → Prop
  | connect p => p.Readable
  | publish p => p.Readable
  | subscribe p => ∃ filters, p.filters.iter Subscribe.BytesIterator.next = .ok filters ∧
      filters ≠ [] ∧ ∀ f ∈ filters, f.Short
  | subAck p => ∃ codes, SubAck.Holds codes p.returnCodes ∧ codes ≠ []
  | unsubscribe p => ∃ topics, p.topics.iter Unsubscribe.WireBytesIter.next = .ok topics ∧
      ∀ t ∈ topics, Unsubscribe.Short t
  | _ => True

/-- Equality of packets, which compares lists by what they iterate to. -/
def Same : Packet → Packet → Prop
  | subscribe p, subscribe q => p.pkid = q.pkid ∧
      p.filters.iter Subscribe.BytesIterator.next = q.filters.iter Subscribe.BytesIterator.next
  | subAck p, subAck q => p.pkid = q.pkid ∧
      p.returnCodes.iter SubAck.BytesIterator.next = q.returnCodes.iter SubAck.BytesIterator.next
  | unsubscribe p, unsubscribe q => p.pkid = q.pkid ∧
      p.topics.iter Unsubscribe.WireBytesIter.next = q.topics.iter Unsubscribe.WireBytesIter.next
  | p, q => p = q

/-! ### The frame of a packet -/

/-- The writer of `p` produces this frame, and the reader takes `q` off it. -/
structure Framed (p : Packet) (byte1 : UInt8) (body : List UInt8) (q : Packet) : Prop where
  writes : Writes WriteError.notEnoughCapacity p.write (frame byte1 body)
  len : p.len = .ok body.length
  read : readExact (frameHeader byte1 body) (frame byte1 body) = .ok q
  same : Same p q

/-- The reader on a frame with a body.  The kind depends on the first byte only. -/
theorem readExact_of_type {byte1 : UInt8} {body : List UInt8} {t : PacketType}
    (ht : FixedHeader.packetType ⟨byte1, 0, 0⟩ = .ok t) (hne : body ≠ []) :
    readExact (frameHeader byte1 body) (frame byte1 body) =
      readPayload (frameHeader byte1 body) (frame byte1 body) t := by
  have hlen : ¬(frameHeader byte1 body).remainingLen = 0 := by
    rw [frameHeader, List.length_eq_zero_iff]
    exact hne
  have htype : (frameHeader byte1 body).packetType = .ok t := ht
  rw [readExact, htype, Outcome.ok_bind, if_neg hlen]

theorem framed_ack {p : Packet} {byte1 : UInt8} {pkid : UInt16} {t : PacketType}
    (hwrite : Writes WriteError.notEnoughCapacity p.write (frame byte1 (toBeBytes pkid)))
    (hlen : p.len = .ok 2) (ht : FixedHeader.packetType ⟨byte1, 0, 0⟩ = .ok t)
    (hread : readPayload (frameHeader byte1 (toBeBytes pkid)) (frame byte1 (toBeBytes pkid)) t =
      .ok p) (hsame : Same p p) : Framed p byte1 (toBeBytes pkid) p where
  writes := hwrite
  len := by rw [hlen, length_toBeBytes]
  read := by rw [readExact_of_type ht (by simp [toBeBytes]), hread]
  same := hsame

theorem framed_empty {p : Packet} {byte1 : UInt8}
    (hwrite : Writes WriteError.notEnoughCapacity p.write (frame byte1 []))
    (hlen : p.len = .ok 0) (hread : readExact (frameHeader byte1 []) (frame byte1 []) = .ok p)
    (hsame : Same p p) : Framed p byte1 [] p where
  writes := hwrite
  len := hlen
  read := hread
  same := hsame

/-- Every readable packet has a frame. -/
theorem exists_framed {p : Packet} (h : p.Readable) {n : Nat} (hlen : p.len = .ok n)
    (hn : n ≤ 268435455) : ∃ byte1 body q, Framed p byte1 body q := by
  cases p with
  | connect p =>
    obtain rfl : p.len = n := Outcome.ok.inj hlen
    refine ⟨0x10, p.body, connect p, Connect.writes hn, by rw [Connect.length_body]; rfl, ?_, rfl⟩
    rw [readExact_of_type (t := .connect) (by decide) (by simp [Connect.body])]
    simp only [readPayload, Connect.readExact_frame h hn]
    rfl
  | connAck p =>
    refine ⟨0x20, p.body, connAck p, p.writes, rfl, ?_, rfl⟩
    rw [readExact_of_type (t := .connAck) (by decide) (by simp [ConnAck.body])]
    simp only [readPayload, p.readExact_frame]
    rfl
  | publish p =>
    obtain rfl : p.len = n := Outcome.ok.inj hlen
    have hpkid : p.qos ≠ .atMostOnce → p.pkid ≠ 0 := fun hq => mt h.pkid.mp hq
    refine ⟨_, p.body, publish p, Publish.writes hpkid hn, by rw [Publish.length_body hpkid]; rfl,
      ?_, rfl⟩
    rw [readExact_of_type (t := .publish) ?_ (by simp [Publish.body, lenPrefixed, toBeBytes])]
    · simp only [readPayload, Publish.readExact_frame h hn]
      rfl
    · simp only [FixedHeader.packetType,
        (Publish.byte1_bits p.dup p.qos p.retain).2.2.2]
      rfl
  | pubAck p =>
    refine ⟨0x40, _, _,
      framed_ack (t := .pubAck) (writes_writeAck 0x40 p.pkid) rfl (by decide) ?_ rfl⟩
    simp only [readPayload, PubAck.readExact, readAck_frame]
    rfl
  | pubRec p =>
    refine ⟨0x50, _, _,
      framed_ack (t := .pubRec) (writes_writeAck 0x50 p.pkid) rfl (by decide) ?_ rfl⟩
    simp only [readPayload, PubRec.readExact_eq, readAck_frame]
    rfl
  | pubRel p =>
    refine ⟨0x62, _, _,
      framed_ack (t := .pubRel) (writes_writeAck 0x62 p.pkid) rfl (by decide) ?_ rfl⟩
    simp only [readPayload, PubRel.readExact, readAck_frame]
    rfl
  | pubComp p =>
    refine ⟨0x70, _, _,
      framed_ack (t := .pubComp) (writes_writeAck 0x70 p.pkid) rfl (by decide) ?_ rfl⟩
    simp only [readPayload, PubComp.readExact, readAck_frame]
    rfl
  | subscribe p =>
    obtain ⟨filters, hiter, hne, hshort⟩ := h
    obtain rfl := Outcome.ok.inj ((Subscribe.len_eq hiter).symm.trans hlen)
    refine ⟨0x82, Subscribe.body p.pkid filters,
      subscribe ⟨p.pkid, .wireBytes (filters.flatMap SubscribeFilter.entry)⟩,
      Subscribe.writes hiter hn,
      Subscribe.len_eq hiter, ?_, rfl, ?_⟩
    rotate_left
    · exact hiter.trans (congrArg Prod.fst (Subscribe.decodes.drain_flatMap hshort)).symm
    · rw [readExact_of_type (t := .subscribe) (by decide) (by simp [Subscribe.body, toBeBytes])]
      simp only [readPayload, Subscribe.readExact_frame hne hshort hn]
      rfl
  | subAck p =>
    obtain ⟨codes, hcodes, hne⟩ := h
    obtain rfl : p.len = n := Outcome.ok.inj hlen
    have hbody := hcodes.len
    refine ⟨0x90, SubAck.body p.pkid codes,
      subAck ⟨p.pkid, .wireBytes (codes.map SubscribeReasonCode.toU8)⟩,
      SubAck.writes hcodes (by omega),
      congrArg _ hbody, ?_, rfl, ?_⟩
    rotate_left
    · exact hcodes.iter.trans (@SubAck.Holds.iter codes (.wireBytes _) rfl).symm
    · rw [readExact_of_type (t := .subAck) (by decide) (by simp [SubAck.body, toBeBytes])]
      simp only [readPayload, SubAck.readExact_frame hne (hbody ▸ hn)]
      rfl
  | unsubscribe p =>
    obtain ⟨topics, hiter, hshort⟩ := h
    obtain rfl := Outcome.ok.inj ((Unsubscribe.len_eq hiter).symm.trans hlen)
    refine ⟨0xA2, Unsubscribe.body p.pkid topics,
      unsubscribe ⟨p.pkid, .wireBytes (topics.flatMap Unsubscribe.entry)⟩,
      Unsubscribe.writes hiter hn,
      Unsubscribe.len_eq hiter, ?_, rfl, ?_⟩
    rotate_left
    · exact hiter.trans (congrArg Prod.fst (Unsubscribe.decodes.drain_flatMap hshort)).symm
    · rw [readExact_of_type (t := .unsubscribe) (by decide) (by simp [Unsubscribe.body, toBeBytes])]
      simp only [readPayload, Unsubscribe.readExact_frame hshort hn]
      rfl
  | unsubAck p =>
    refine ⟨0xB0, _, _, framed_ack (t := .unsubAck) (writes_unsubAck p) rfl (by decide) ?_ rfl⟩
    simp only [readPayload, UnsubAck.readExact_frame]
    rfl
  | pingReq => exact ⟨0xC0, [], _, framed_empty (writes_writeEmpty 0xC0) rfl rfl rfl⟩
  | pingResp => exact ⟨0xD0, [], _, framed_empty (writes_writeEmpty 0xD0) rfl rfl rfl⟩
  | disconnect => exact ⟨0xE0, [], _, framed_empty (writes_writeEmpty 0xE0) rfl rfl rfl⟩

/-! ### The round trip -/

/-- What `write` puts into a buffer is read back, whatever follows it in the
stream, by a decoder that allows bodies of this length. -/
theorem read_write {p : Packet} (h : p.Readable) {len : Nat} (hlen : p.len = .ok len)
    (hbody : len ≤ 268435455) {buf : List UInt8} {n : Nat} (hwrite : (p.write buf).1 = .ok n)
    (s : List UInt8) {max : Nat} (hmax : len ≤ max) :
    ∃ q, read ((p.write buf).2.take n ++ s) max = .ok (q, n) ∧ Same p q := by
  obtain ⟨byte1, body, q, hf⟩ := exists_framed h hlen hbody
  obtain rfl : body.length = len := Outcome.ok.inj (hf.len.symm.trans hlen)
  obtain ⟨rfl, -, htake⟩ := hf.writes.of_ok hwrite
  refine ⟨q, ?_, hf.same⟩
  rw [htake]
  exact read_frame hbody hmax hf.read

/-- A PUBLISH and a further byte behind it. -/
theorem read_write_publish :
    let p := publish ⟨false, .atLeastOnce, true, "a/b", 7, [1, 2]⟩
    ∃ q, read ((p.write (List.replicate 16 0)).2.take 11 ++ [0xC0]) 9 = .ok (q, 11) ∧
      Same p q := by
  refine @read_write (publish ⟨false, .atLeastOnce, true, "a/b", 7, [1, 2]⟩)
    ⟨by decide, by decide⟩ 9 (by decide) (by decide) _ 11 ?_ [0xC0] _ (by decide)
  decide +kernel

end Packet

end Umqtt
