/-
Umqtt/Grammar.lean

The frames that the decoder accepts, for packets of all kinds.

`FrameOf p byte1 lenBytes fields ignored` says that a frame is one of the packet
`p`: its first byte announces the kind of `p`, its remaining length is well
formed, and its body is the fields of `p` and then bytes that nothing reads, of
which only some kinds admit any.  `read_eq_ok_iff` says that the decoder accepts
these frames and no others.

This is less than the standard asks for.  The decoder does not look at the low
half of the first byte outside PUBLISH, nor at the reserved bits of the flags of
CONNECT and CONNACK, it takes a password without a user name, and only five
kinds have their body read to the end.  `Conforms` has the demands it leaves
out.  What it keeps of a list are the bytes, which are decoded again as the list
is walked; nothing is lost on the way (`read_lists`).
-/
import Umqtt.Packetview.Packet

namespace Umqtt

open Effects Wire

/-- The number of a packet type in the high half of the first byte. -/
def PacketType.number : PacketType → UInt8
  | .connect => 1
  | .connAck => 2
  | .publish => 3
  | .pubAck => 4
  | .pubRec => 5
  | .pubRel => 6
  | .pubComp => 7
  | .subscribe => 8
  | .subAck => 9
  | .unsubscribe => 10
  | .unsubAck => 11
  | .pingReq => 12
  | .pingResp => 13
  | .disconnect => 14

/-- The readers that look at all bytes of the body. -/
def PacketType.readsToEnd : PacketType → Bool
  | .publish | .subscribe | .subAck | .unsubscribe | .unsubAck => true
  | _ => false

theorem FixedHeader.packetType_eq_ok {fh : FixedHeader} {t : PacketType} :
    fh.packetType = .ok t ↔ fh.byte1 >>> 4 = t.number := by
  have hnumber : ∀ b : UInt8, FixedHeader.packetType ⟨b, 0, 0⟩ = .ok t ↔ b >>> 4 = t.number := by
    intro b
    rw [← UInt8.ofNat_toNat (x := b)]
    generalize hn : b.toNat = n
    have hlt : n < 256 := hn ▸ b.toNat_lt
    clear hn b
    revert n
    cases t <;> decide +kernel
  exact hnumber fh.byte1

namespace Packet

/-! ### The grammar -/

/-- `fields` are the fields of the packet, in a frame with this first byte. -/
def Fields (byte1 : UInt8) (fields : List UInt8) : Packet → Prop
  | connect p => ∃ f, p.Layout f fields
  | connAck p => ∃ flags, fields = [flags, p.code.toU8] ∧
      p.sessionPresent = (flags &&& 0x01 == 1)
  | publish p => Publish.FlagsOf byte1 p ∧ p.Readable ∧ fields = p.body
  | pubAck p => fields = toBeBytes p.pkid
  | pubRec p => fields = toBeBytes p.pkid
  | pubRel p => fields = toBeBytes p.pkid
  | pubComp p => fields = toBeBytes p.pkid
  | subscribe p => ∃ filters, filters ≠ [] ∧ (∀ f ∈ filters, f.Short) ∧
      fields = Subscribe.body p.pkid filters ∧
      p.filters = .wireBytes (filters.flatMap SubscribeFilter.entry)
  | subAck p => ∃ codes : List SubscribeReasonCode, codes ≠ [] ∧
      fields = SubAck.body p.pkid codes ∧
      p.returnCodes = .wireBytes (codes.map SubscribeReasonCode.toU8)
  | unsubscribe p => ∃ topics : List String, (∀ t ∈ topics, Unsubscribe.Short t) ∧
      fields = Unsubscribe.body p.pkid topics ∧
      p.topics = .wireBytes (topics.flatMap Unsubscribe.entry)
  | unsubAck p => fields = toBeBytes p.pkid
  | pingReq | pingResp | disconnect => fields = []

/-- `byte1`, the remaining length `lenBytes`, and the body `fields ++ ignored` are
a frame of the packet `p`. -/
structure FrameOf (p : Packet) (byte1 : UInt8) (lenBytes fields ignored : List UInt8) :
    Prop where
  packetType : byte1 >>> 4 = p.packetType.number
  terminated : Terminated lenBytes
  short : lenBytes.length ≤ 4
  length : value128 lenBytes = (fields ++ ignored).length
  fields : Fields byte1 fields p
  toEnd : p.packetType.readsToEnd → ignored = []

/-! ### What the readers accept -/

section OnWire

variable {fh : FixedHeader} {lenBytes body : List UInt8} {p : Packet}

/-- What follows the fields is ignored, or there is nothing. -/
theorem exists_ignored {strict : Bool} {P : List UInt8 → Prop} :
    (∃ fields ignored, body = fields ++ ignored ∧ P fields ∧ (strict → ignored = [])) ↔
      if strict then P body else ∃ fields ignored, body = fields ++ ignored ∧ P fields := by
  cases strict with
  | false => simp
  | true =>
    constructor
    · rintro ⟨fields, ignored, rfl, hp, hnil⟩
      rw [hnil rfl, List.append_nil]
      exact hp
    · exact fun hp => ⟨body, [], (List.append_nil _).symm, hp, fun _ => rfl⟩

theorem return_eq_ok {α : Type} {x : Outcome Error α} {mk : α → Packet}
    (hmk : ∀ a b, mk a = mk b → a = b) (a : α) :
    (x >>= fun a => pure (mk a)) = .ok (mk a) ↔ x = .ok a := by
  cases x with
  | ok b =>
    exact ⟨fun h => congrArg _ (hmk b a (Outcome.ok.inj h)), fun h => by cases h; rfl⟩
  | err e => simp
  | panic => simp

/-- The reader of the packet's kind takes it off a body that starts with its
fields. -/
theorem readPayload_eq_ok (h : fh.OnWire lenBytes) (hbody : body.length = fh.remainingLen) :
    readPayload fh (fh.byte1 :: (lenBytes ++ body)) p.packetType = .ok p ↔
      ∃ fields ignored, body = fields ++ ignored ∧ Fields fh.byte1 fields p ∧
        (p.packetType.readsToEnd → ignored = []) := by
  rw [exists_ignored (P := fun fields => Fields fh.byte1 fields p)]
  have hack : ∀ {α : Type} {mk : UInt16 → α} (_ : ∀ m n, mk m = mk n → m = n) (pkid : UInt16),
      readAck mk fh (fh.byte1 :: (lenBytes ++ body)) = .ok (mk pkid) ↔
        ∃ fields ignored, body = fields ++ ignored ∧ fields = toBeBytes pkid := by
    intro α mk hmk pkid
    rw [readAck_eq_ok h]
    constructor
    · rintro ⟨pkid', ignored, rfl, heq⟩
      exact ⟨_, ignored, rfl, congrArg toBeBytes (hmk _ _ heq).symm⟩
    · rintro ⟨_, ignored, rfl, rfl⟩
      exact ⟨pkid, ignored, rfl, rfl⟩
  cases p with
  | connect p =>
    refine (return_eq_ok (fun _ _ => connect.inj) p).trans ((Connect.readExact_eq_ok h).trans ?_)
    constructor
    · rintro ⟨f, fields, ignored, hlayout, rfl⟩
      exact ⟨fields, ignored, rfl, f, hlayout⟩
    · rintro ⟨fields, ignored, rfl, f, hlayout⟩
      exact ⟨f, fields, ignored, hlayout, rfl⟩
  | connAck p =>
    refine (return_eq_ok (fun _ _ => connAck.inj) p).trans ((ConnAck.readExact_eq_ok h).trans ?_)
    constructor
    · rintro ⟨flags, ignored, rfl, hsession⟩
      exact ⟨_, ignored, rfl, flags, rfl, hsession⟩
    · rintro ⟨_, ignored, rfl, flags, rfl, hsession⟩
      exact ⟨flags, ignored, rfl, hsession⟩
  | publish p =>
    exact (return_eq_ok (fun _ _ => publish.inj) p).trans (Publish.readExact_eq_ok h)
  | pubAck p =>
    exact (return_eq_ok (fun _ _ => pubAck.inj) p).trans (hack (fun _ _ => PubAck.mk.inj) p.pkid)
  | pubRec p =>
    refine (return_eq_ok (fun _ _ => pubRec.inj) p).trans ?_
    rw [PubRec.readExact_eq]
    exact hack (fun _ _ => PubRec.mk.inj) p.pkid
  | pubRel p =>
    exact (return_eq_ok (fun _ _ => pubRel.inj) p).trans (hack (fun _ _ => PubRel.mk.inj) p.pkid)
  | pubComp p =>
    exact (return_eq_ok (fun _ _ => pubComp.inj) p).trans (hack (fun _ _ => PubComp.mk.inj) p.pkid)
  | subscribe p =>
    exact (return_eq_ok (fun _ _ => subscribe.inj) p).trans (Subscribe.readExact_eq_ok h)
  | subAck p =>
    exact (return_eq_ok (fun _ _ => subAck.inj) p).trans (SubAck.readExact_eq_ok h)
  | unsubscribe p =>
    exact (return_eq_ok (fun _ _ => unsubscribe.inj) p).trans (Unsubscribe.readExact_eq_ok h)
  | unsubAck p =>
    exact (return_eq_ok (fun _ _ => unsubAck.inj) p).trans (UnsubAck.readExact_eq_ok h hbody)
  | pingReq | pingResp | disconnect => exact ⟨fun _ => ⟨[], body, rfl, rfl⟩, fun _ => rfl⟩

/-- Only three kinds have no field. -/
theorem Fields.eq_nil {byte1 : UInt8} (h : Fields byte1 [] p) :
    p = pingReq ∨ p = pingResp ∨ p = disconnect := by
  cases p with
  | pingReq => exact .inl rfl
  | pingResp => exact .inr (.inl rfl)
  | disconnect => exact .inr (.inr rfl)
  | connect p =>
    obtain ⟨f, -, -, -, willField, loginField, -, -, hfields⟩ := h
    simp [lenPrefixed, toBeBytes] at hfields
  | connAck p =>
    obtain ⟨flags, hfields, -⟩ := h
    cases hfields
  | publish p =>
    obtain ⟨-, -, hfields⟩ := h
    simp [Publish.body, lenPrefixed, toBeBytes] at hfields
  | pubAck p | pubRec p | pubRel p | pubComp p | unsubAck p => cases h
  | subscribe p =>
    obtain ⟨filters, -, -, hfields, -⟩ := h
    cases hfields
  | subAck p =>
    obtain ⟨codes, -, hfields, -⟩ := h
    cases hfields
  | unsubscribe p =>
    obtain ⟨topics, -, hfields, -⟩ := h
    cases hfields

theorem readExact_eq_ok (h : fh.OnWire lenBytes) (hbody : body.length = fh.remainingLen) :
    readExact fh (fh.byte1 :: (lenBytes ++ body)) = .ok p ↔
      fh.packetType = .ok p.packetType ∧
        ∃ fields ignored, body = fields ++ ignored ∧ Fields fh.byte1 fields p ∧
          (p.packetType.readsToEnd → ignored = []) := by
  rw [← readPayload_eq_ok h hbody]
  have hexact : fh.packetType = .ok p.packetType →
      (readExact fh (fh.byte1 :: (lenBytes ++ body)) = .ok p ↔
        readPayload fh (fh.byte1 :: (lenBytes ++ body)) p.packetType = .ok p) := by
    intro ht
    rw [readExact, ht, Outcome.ok_bind]
    by_cases hzero : fh.remainingLen = 0
    · rw [if_pos hzero, readPayload_eq_ok h hbody,
        List.eq_nil_of_length_eq_zero (hbody.trans hzero)]
      -- a frame without a body is one of the three kinds without a field
      constructor
      · intro hempty
        cases p <;> cases hempty <;> exact ⟨[], [], rfl, rfl, fun _ => rfl⟩
      · rintro ⟨fields, ignored, hnil, hfields, -⟩
        obtain ⟨rfl, -⟩ := List.append_eq_nil_iff.mp hnil.symm
        rcases hfields.eq_nil with rfl | rfl | rfl <;> rfl
    · rw [if_neg hzero]
  constructor
  · intro hread
    have ht := packetType_of_readExact hread
    exact ⟨ht, (hexact ht).mp hread⟩
  · rintro ⟨ht, hread⟩
    exact (hexact ht).mpr hread

end OnWire

/-! ### What the decoder accepts -/

/-- The decoder accepts the frames of the grammar whose body keeps to the limit,
whatever follows them, and nothing else. -/
theorem read_eq_ok_iff {data : List UInt8} {max n : Nat} {p : Packet} :
    read data max = .ok (p, n) ↔ ∃ byte1 lenBytes fields ignored rest,
      FrameOf p byte1 lenBytes fields ignored ∧
        data = byte1 :: (lenBytes ++ (fields ++ ignored ++ rest)) ∧
        (fields ++ ignored).length ≤ max ∧
        n = (byte1 :: (lenBytes ++ (fields ++ ignored))).length := by
  constructor
  · intro hread
    obtain ⟨fh, hcheck, -⟩ := Outcome.bind_eq_ok.mp hread
    obtain ⟨lenBytes, body, rest, hw, rfl, hbody, hmax⟩ := check_eq_ok.mp hcheck
    rw [read_of_onWire hw hbody hmax] at hread
    obtain ⟨q, hexact, hq⟩ := Outcome.bind_eq_ok.mp hread
    cases hq
    obtain ⟨ht, fields, ignored, rfl, hfields, hend⟩ := (readExact_eq_ok hw hbody).mp hexact
    refine ⟨fh.byte1, lenBytes, fields, ignored, rest,
      ⟨FixedHeader.packetType_eq_ok.mp ht, hw.terminated, hw.short, ?_, hfields, hend⟩, rfl,
      by omega, ?_⟩
    · rw [← hw.remainingLen, hbody]
    · rw [List.length_cons, List.length_append, hw.fixedHeaderLen, hbody]
      omega
  · rintro ⟨byte1, lenBytes, fields, ignored, rest, hframe, rfl, hmax, rfl⟩
    have hw : FixedHeader.OnWire ⟨byte1, lenBytes.length + 1, value128 lenBytes⟩ lenBytes :=
      ⟨hframe.terminated, hframe.short, rfl, rfl⟩
    have hexact := (readExact_eq_ok (p := p) hw hframe.length.symm).mpr
      ⟨FixedHeader.packetType_eq_ok.mpr hframe.packetType, fields, ignored, rfl, hframe.fields,
        hframe.toEnd⟩
    refine (read_of_onWire hw hframe.length.symm (hframe.length ▸ hmax)).trans ?_
    rw [hexact, List.length_cons, List.length_append, ← hframe.length, Nat.add_right_comm]
    rfl

/-! ### The lists of a packet -/

/-- The readers of the packets that carry a list accept a packet id and the
concatenation of the entries, one or more of a SUBSCRIBE and a SUBACK, and
nothing else.  The list they return is the payload, and iterating it yields the
items of all entries. -/
theorem read_lists {fh : FixedHeader} {header : List UInt8}
    (h : header.length = fh.fixedHeaderLen) (body : List UInt8) :
    (∀ s, Subscribe.readExact fh (header ++ body) = .ok s ↔
      ∃ filters, filters ≠ [] ∧ (∀ f ∈ filters, f.Short) ∧
        body = toBeBytes s.pkid ++ filters.flatMap SubscribeFilter.entry ∧
        s.filters = .wireBytes (filters.flatMap SubscribeFilter.entry) ∧
        s.filters.iter Subscribe.BytesIterator.next = .ok filters) ∧
    (∀ s, Unsubscribe.readExact fh (header ++ body) = .ok s ↔
      ∃ topics : List String, (∀ t ∈ topics, (asBytes t).length ≤ 65535) ∧
        body = toBeBytes s.pkid ++ topics.flatMap (fun t => lenPrefixed (asBytes t)) ∧
        s.topics = .wireBytes (topics.flatMap fun t => lenPrefixed (asBytes t)) ∧
        s.topics.iter Unsubscribe.WireBytesIter.next = .ok topics) ∧
    ∀ s, SubAck.readExact fh (header ++ body) = .ok s ↔
      ∃ payload, payload ≠ [] ∧ (∀ b ∈ payload, b = 0 ∨ b = 1 ∨ b = 2 ∨ b = 128) ∧
        body = toBeBytes s.pkid ++ payload ∧ s.returnCodes = .wireBytes payload ∧
        ∃ codes, s.returnCodes.iter SubAck.BytesIterator.next = .ok codes ∧
          codes.map SubscribeReasonCode.toU8 = payload := by
  -- the readers look at the header for its length only
  have hw : FixedHeader.OnWire ⟨0, 2, 0⟩ [0] :=
    ⟨show (0 : UInt8).toNat < 128 by decide, by decide, rfl, rfl⟩
  have hbody : ∀ {α : Type} (x : Act Cursor Error α), readBody fh (header ++ body) x =
      readBody ⟨0, 2, 0⟩ ((0 : UInt8) :: ([0] ++ body)) x := fun x =>
    (readBody_append h).trans (readBody_onWire hw).symm
  refine ⟨fun s => ?_, fun s => ?_, fun s => ?_⟩
  · have hread : Subscribe.readExact fh (header ++ body) =
        Subscribe.readExact ⟨0, 2, 0⟩ (0 :: ([0] ++ body)) := hbody _
    rw [hread]
    refine (Subscribe.readExact_eq_ok hw).trans ?_
    constructor
    · rintro ⟨filters, hne, hshort, hfields, hfilters⟩
      refine ⟨filters, hne, hshort, hfields, hfilters, ?_⟩
      rw [hfilters, Storage.iter, Subscribe.decodes.drain_flatMap hshort]
    · rintro ⟨filters, hne, hshort, hfields, hfilters, -⟩
      exact ⟨filters, hne, hshort, hfields, hfilters⟩
  · have hread : Unsubscribe.readExact fh (header ++ body) =
        Unsubscribe.readExact ⟨0, 2, 0⟩ (0 :: ([0] ++ body)) := hbody _
    rw [hread]
    refine (Unsubscribe.readExact_eq_ok hw).trans ?_
    constructor
    · rintro ⟨topics, hshort, hfields, htopics⟩
      refine ⟨topics, hshort, hfields, htopics, ?_⟩
      rw [htopics, Storage.iter, Unsubscribe.decodes.drain_flatMap hshort]
    · rintro ⟨topics, hshort, hfields, htopics, -⟩
      exact ⟨topics, hshort, hfields, htopics⟩
  · have hread : SubAck.readExact fh (header ++ body) =
        SubAck.readExact ⟨0, 2, 0⟩ (0 :: ([0] ++ body)) := hbody _
    rw [hread]
    refine (SubAck.readExact_eq_ok hw).trans ?_
    constructor
    · rintro ⟨codes, hne, hfields, hcodes⟩
      refine ⟨codes.map SubscribeReasonCode.toU8, mt List.map_eq_nil_iff.mp hne,
        SubscribeReasonCode.exists_map_toU8.mp ⟨codes, rfl⟩, hfields, hcodes, codes, ?_, rfl⟩
      have hholds : SubAck.Holds codes s.returnCodes := by
        rw [hcodes]
        rfl
      exact hholds.iter
    · rintro ⟨payload, hne, -, hfields, hcodes, codes, -, rfl⟩
      exact ⟨codes, mt List.map_eq_nil_iff.mpr hne, hfields, hcodes⟩

/-- Two filters behind a header of two bytes. -/
theorem read_lists_two : ∃ filters : List SubscribeFilter, filters ≠ [] ∧
    [0, 7, 0, 1, 97, 0, 0, 1, 98, 1] = toBeBytes 7 ++ filters.flatMap SubscribeFilter.entry ∧
      (Storage.wireBytes [0, 1, 97, 0, 0, 1, 98, 1]).iter Subscribe.BytesIterator.next =
        .ok filters := by
  obtain ⟨filters, hne, -, hbody, -, hiter⟩ :=
    ((@read_lists ⟨0x82, 2, 10⟩ [0x82, 10] rfl [0, 7, 0, 1, 97, 0, 0, 1, 98, 1]).1
      ⟨7, .wireBytes [0, 1, 97, 0, 0, 1, 98, 1]⟩).mp (by decide +kernel)
  exact ⟨filters, hne, hbody, hiter⟩

/-! ### Where the decoder is more lenient than the standard -/

/-- The low half of the first byte, where the standard fixes it. -/
def lowNibble : PacketType → Option UInt8
  | .publish => none
  | .pubRel | .subscribe | .unsubscribe => some 0b0010
  | _ => some 0

/-- What the standard demands of the bits that the decoder does not look at.  The
flags of a CONNECT are the eighth byte of its body, those of a CONNACK the
first. -/
structure Conforms (p : Packet) (byte1 : UInt8) (body : List UInt8) : Prop where
  lowNibble : ∀ flags ∈ lowNibble p.packetType, byte1 &&& 0x0F = flags
  connectReserved : p.packetType = .connect → ∀ f ∈ body[7]?, f &&& 0b0000_0001 = 0
  connectPassword : p.packetType = .connect → ∀ f ∈ body[7]?,
    f &&& 0b0100_0000 ≠ 0 → f &&& 0b1000_0000 ≠ 0
  connAckReserved : p.packetType = .connAck → ∀ f ∈ body[0]?, f &&& 0b1111_1110 = 0

/-- The bytes that the decoder takes are a frame of the packet it returns. -/
theorem frame_of_read {data : List UInt8} {max n : Nat} {p : Packet}
    (h : read data max = .ok (p, n)) :
    ∃ byte1 lenBytes fields ignored, FrameOf p byte1 lenBytes fields ignored ∧
      data.take n = byte1 :: (lenBytes ++ (fields ++ ignored)) := by
  obtain ⟨byte1, lenBytes, fields, ignored, rest, hframe, rfl, -, rfl⟩ := read_eq_ok_iff.mp h
  have hdata : byte1 :: (lenBytes ++ (fields ++ ignored ++ rest)) =
      byte1 :: (lenBytes ++ (fields ++ ignored)) ++ rest := by simp
  exact ⟨byte1, lenBytes, fields, ignored, hframe, by rw [hdata, List.take_left]⟩

/-- A CONNACK with bytes behind its fields. -/
theorem frame_of_read_connAck : ∃ byte1 lenBytes fields ignored,
    FrameOf (connAck ⟨true, .notAuthorized⟩) byte1 lenBytes fields ignored ∧
      [0x25, 0x84, 0, 3, 5, 9, 9, 0xC0].take 7 = byte1 :: (lenBytes ++ (fields ++ ignored)) :=
  @frame_of_read [0x25, 0x84, 0, 3, 5, 9, 9, 0xC0] 4 7 (connAck ⟨true, .notAuthorized⟩) (by decide)

/-- A PUBACK with a bit of the low half set is accepted. -/
theorem not_forall_conforms :
    ¬∀ (data : List UInt8) (max n : Nat) (p : Packet), read data max = .ok (p, n) →
      ∃ byte1 lenBytes body, data.take n = byte1 :: (lenBytes ++ body) ∧
        FrameOf p byte1 lenBytes body [] ∧ Conforms p byte1 body := by
  intro h
  obtain ⟨byte1, lenBytes, body, hframe, -, hconforms⟩ :=
    h [0x41, 2, 0, 1] 2 4 (pubAck ⟨1⟩) (by decide)
  obtain rfl : 0x41 = byte1 := (List.cons.inj hframe).1
  exact absurd (hconforms.lowNibble 0 rfl) (by decide)

end Packet

end Umqtt
