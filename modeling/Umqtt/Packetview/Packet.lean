/-
Umqtt/Packetview/Packet.lean

All packets (`packetview/packet.rs`), and the decoder `Packet::read`.

The decoder frames the stream with `check` and reads the packet off the frame.
What holds of it for every stream is proved here: it never panics
(`read_ne_panic`), it takes at least two and at most all bytes (`read_eq_ok`),
and all its verdicts but the request for more bytes are decided by a prefix
(`read_append`).  So it can be called again and again on a stream, as `next`.
-/
import Umqtt.Lib.Stream
import Umqtt.Packetview.Acks
import Umqtt.Packetview.ConnAck
import Umqtt.Packetview.Connect
import Umqtt.Packetview.Publish
import Umqtt.Packetview.SubAck
import Umqtt.Packetview.Subscribe
import Umqtt.Packetview.Unsubscribe

namespace Umqtt

open Effects Wire

/-- Encapsulates all MQTT packet types -/
inductive Packet where
  | connect (packet : Connect)
  | connAck (packet : ConnAck)
  | publish (packet : Publish)
  | pubAck (packet : PubAck)
  | pubRec (packet : PubRec)
  | pubRel (packet : PubRel)
  | pubComp (packet : PubComp)
  | subscribe (packet : Subscribe)
  | subAck (packet : SubAck)
  | unsubscribe (packet : Unsubscribe)
  | unsubAck (packet : UnsubAck)
  | pingReq
  | pingResp
  | disconnect
  deriving DecidableEq

namespace Packet

/-- The packets without a body. -/
def readEmpty : PacketType → Outcome Error Packet
  | .pingReq => .ok pingReq
  | .pingResp => .ok pingResp
  | .disconnect => .ok disconnect
  | _ => .err .malformedPacket

/-- The packets with a body, and the others with a body that is not read. -/
def readPayload (fixedHeader : FixedHeader) (data : List UInt8) :
    PacketType → Outcome Error Packet
  | .connect => do return connect (← Connect.readExact fixedHeader data)
  | .connAck => do return connAck (← ConnAck.readExact fixedHeader data)
  | .publish => do return publish (← Publish.readExact fixedHeader data)
  | .pubAck => do return pubAck (← PubAck.readExact fixedHeader data)
  | .pubRec => do return pubRec (← PubRec.readExact fixedHeader data)
  | .pubRel => do return pubRel (← PubRel.readExact fixedHeader data)
  | .pubComp => do return pubComp (← PubComp.readExact fixedHeader data)
  | .subscribe => do return subscribe (← Subscribe.readExact fixedHeader data)
  | .subAck => do return subAck (← SubAck.readExact fixedHeader data)
  | .unsubscribe => do return unsubscribe (← Unsubscribe.readExact fixedHeader data)
  | .unsubAck => do return unsubAck (← UnsubAck.readExact fixedHeader data)
  | .pingReq => pure pingReq
  | .pingResp => pure pingResp
  | .disconnect => pure disconnect

def readExact (fixedHeader : FixedHeader) (data : List UInt8) : Outcome Error Packet := do
  let packetType ← fixedHeader.packetType
  if fixedHeader.remainingLen = 0 then
    -- no payload packets
    readEmpty packetType
  else
    readPayload fixedHeader data packetType

/-- Reads a stream of bytes and extracts next MQTT packet out of it -/
def read (data : List UInt8) (maxSize : Nat) : Outcome Error (Packet × Nat) := do
  let fixedHeader ← check data maxSize
  let frameLength ← fixedHeader.frameLength
  let packet ← slice data 0 frameLength
  let parsed ← readExact fixedHeader packet
  pure (parsed, packet.length)

def packetType : Packet → PacketType
  | connect _ => .connect
  | connAck _ => .connAck
  | publish _ => .publish
  | pubAck _ => .pubAck
  | pubRec _ => .pubRec
  | pubRel _ => .pubRel
  | pubComp _ => .pubComp
  | subscribe _ => .subscribe
  | subAck _ => .subAck
  | unsubscribe _ => .unsubscribe
  | unsubAck _ => .unsubAck
  | pingReq => .pingReq
  | pingResp => .pingResp
  | disconnect => .disconnect

/-! ### Reading a frame -/

section OnWire

variable {fh : FixedHeader} {lenBytes body : List UInt8}

/-- The readers of all kinds neither panic nor ask for more bytes. -/
theorem errsIn_readExact (h : fh.OnWire lenBytes) :
    (readExact fh (fh.byte1 :: (lenBytes ++ body))).ErrsIn Settled := by
  have hmk : ∀ {α : Type} {x : Outcome Error α} (mk : α → Packet), x.ErrsIn Settled →
      (x >>= fun a => pure (mk a)).ErrsIn Settled :=
    fun mk hx => hx.bind fun _ _ => trivial
  refine Outcome.ErrsIn.bind ?_ fun t _ => ?_
  · unfold FixedHeader.packetType
    dsimp only
    split
    all_goals first | exact trivial | exact rfl
  · split
    · cases t <;> first | exact trivial | exact rfl
    · cases t with
      | connect => exact hmk connect (Connect.errsIn_readExact h)
      | connAck => exact hmk connAck (ConnAck.errsIn_readExact h)
      | publish => exact hmk publish (Publish.errsIn_readExact h)
      | pubAck => exact hmk pubAck (errsIn_readAck _ h)
      | pubRec =>
        refine hmk pubRec ?_
        rw [PubRec.readExact_eq]
        exact errsIn_readAck _ h
      | pubRel => exact hmk pubRel (errsIn_readAck _ h)
      | pubComp => exact hmk pubComp (errsIn_readAck _ h)
      | subscribe => exact hmk subscribe (Subscribe.errsIn_readExact h)
      | subAck => exact hmk subAck (SubAck.errsIn_readExact h)
      | unsubscribe => exact hmk unsubscribe (Unsubscribe.errsIn_readExact h)
      | unsubAck => exact hmk unsubAck (UnsubAck.errsIn_readExact h)
      | pingReq => trivial
      | pingResp => trivial
      | disconnect => trivial

/-- The kind of a packet is the one its first byte announces. -/
theorem packetType_of_readExact {data : List UInt8} {p : Packet}
    (h : readExact fh data = .ok p) : fh.packetType = .ok p.packetType := by
  rw [readExact, Outcome.bind_eq_ok] at h
  obtain ⟨t, ht, h⟩ := h
  rw [ht]
  split at h
  · cases t <;> cases h <;> rfl
  · cases t <;> simp only [readPayload, Outcome.bind_eq_ok] at h
    all_goals first
      | (obtain ⟨_, -, hp⟩ := h; cases hp; rfl)
      | (cases h; rfl)

/-- The decoder on a stream that starts with a whole frame. -/
theorem read_of_onWire {rest : List UInt8} {max : Nat} (h : fh.OnWire lenBytes)
    (hbody : body.length = fh.remainingLen) (hmax : fh.remainingLen ≤ max) :
    read (fh.byte1 :: (lenBytes ++ (body ++ rest))) max =
      (readExact fh (fh.byte1 :: (lenBytes ++ body))).bind fun p =>
        .ok (p, fh.fixedHeaderLen + fh.remainingLen) := by
  have hcheck : check (fh.byte1 :: (lenBytes ++ (body ++ rest))) max = .ok fh :=
    check_eq_ok.mpr ⟨lenBytes, body, rest, h, rfl, hbody, hmax⟩
  have hlen : (fh.byte1 :: (lenBytes ++ body)).length = fh.fixedHeaderLen + fh.remainingLen := by
    rw [List.length_cons, List.length_append, h.fixedHeaderLen, hbody]
    omega
  have hslice : (slice (fh.byte1 :: (lenBytes ++ (body ++ rest))) 0
      (fh.fixedHeaderLen + fh.remainingLen) : Outcome Error _) =
        .ok (fh.byte1 :: (lenBytes ++ body)) := by
    have := @slice_middle UInt8 Error [] (fh.byte1 :: (lenBytes ++ body)) rest
    rw [hlen] at this
    simpa using this
  rw [read, hcheck, Outcome.ok_bind, h.frameLength_eq, Outcome.ok_bind, hslice,
    Outcome.ok_bind, hlen]
  rfl

end OnWire

/-! ### What the decoder makes of a stream -/

/-- The decoder accepts a packet, or rejects the stream whatever follows, or
asks for more bytes. -/
theorem read_cases (data : List UInt8) (max : Nat) :
    (∃ p n, 2 ≤ n ∧ n ≤ data.length ∧ n ≤ max + 5 ∧
      ∀ s, read (data.take n ++ s) max = .ok (p, n)) ∨
    (∃ e, Settled e ∧ ∀ s, read (data ++ s) max = .err e) ∨
    ∃ n, read data max = .err (.needMoreData n) := by
  rcases check_cases data max with ⟨fh, lenBytes, rest, hw, hd, hmax, hr, -⟩ | ⟨e, he, hc⟩ |
    ⟨n, hc⟩
  · have hb : (rest.take fh.remainingLen).length = fh.remainingLen := by
      rw [List.length_take]
      omega
    have hfl := hw.fixedHeaderLen
    have hshort := hw.short
    have hframe : (fh.byte1 :: (lenBytes ++ rest.take fh.remainingLen)).length =
        fh.fixedHeaderLen + fh.remainingLen := by
      rw [List.length_cons, List.length_append, hb]
      omega
    have hread := fun s => @read_of_onWire fh lenBytes _ s max hw hb hmax
    have hdata : data = fh.byte1 :: (lenBytes ++ (rest.take fh.remainingLen ++
        rest.drop fh.remainingLen)) := by
      rw [List.take_append_drop, hd]
    have hlen : data.length = fh.fixedHeaderLen + rest.length := by
      rw [hd, List.length_cons, List.length_append]
      omega
    have herrs := @errsIn_readExact fh lenBytes (rest.take fh.remainingLen) hw
    -- the frame is there as a whole, and its reader settles the matter
    rcases hx : readExact fh (fh.byte1 :: (lenBytes ++ rest.take fh.remainingLen)) with p | e | _
    · have hnonempty : 0 < lenBytes.length := by
        rw [List.length_pos_iff]
        rintro rfl
        exact hw.terminated
      refine .inl ⟨p, fh.fixedHeaderLen + fh.remainingLen, by omega, by omega, by omega,
        fun s => ?_⟩
      have htake : data.take (fh.fixedHeaderLen + fh.remainingLen) =
          fh.byte1 :: (lenBytes ++ rest.take fh.remainingLen) := by
        rw [← hframe, hdata, ← List.append_assoc, ← List.cons_append]
        exact List.take_left
      rw [htake, List.cons_append, List.append_assoc, hread, hx]
      rfl
    · rw [hx] at herrs
      refine .inr (.inl ⟨e, herrs, fun s => ?_⟩)
      rw [hdata, List.cons_append, List.append_assoc, List.append_assoc, hread, hx]
      rfl
    · rw [hx] at herrs
      exact herrs.elim
  · exact .inr (.inl ⟨e, he, fun s => by rw [read, hc]; rfl⟩)
  · exact .inr (.inr ⟨n, by rw [read, hc]; rfl⟩)

theorem read_ne_panic (data : List UInt8) (max : Nat) : read data max ≠ .panic := by
  rcases read_cases data max with ⟨p, n, -, -, -, h⟩ | ⟨e, -, h⟩ | ⟨n, h⟩
  · have := h (data.drop n)
    rw [List.take_append_drop] at this
    rw [this]
    simp
  · have := h []
    rw [List.append_nil] at this
    rw [this]
    simp
  · rw [h]
    simp

/-- What the decoder accepts, it accepts for a prefix, whatever follows. -/
theorem read_eq_ok {data : List UInt8} {max : Nat} {p : Packet} {n : Nat}
    (h : read data max = .ok (p, n)) :
    2 ≤ n ∧ n ≤ data.length ∧ n ≤ max + 5 ∧ ∀ s, read (data.take n ++ s) max = .ok (p, n) := by
  rcases read_cases data max with ⟨p', n', h2, hle, hmax, h'⟩ | ⟨e, -, h'⟩ | ⟨m, h'⟩
  · have := h' (data.drop n')
    rw [List.take_append_drop, h] at this
    cases this
    exact ⟨h2, hle, hmax, h'⟩
  · have := h' []
    rw [List.append_nil, h] at this
    cases this
  · rw [h] at h'
    cases h'

/-- The decoder is decided by a prefix. -/
theorem read_append {data : List UInt8} {max : Nat} (s : List UInt8)
    (h : ∀ n, read data max ≠ .err (.needMoreData n)) : read (data ++ s) max = read data max := by
  rcases read_cases data max with ⟨p, n, -, hle, -, hok⟩ | ⟨e, -, herr⟩ | ⟨n, hmore⟩
  · have h₁ := hok (data.drop n)
    have h₂ := hok (data.drop n ++ s)
    rw [← List.append_assoc, List.take_append_drop] at h₂
    rw [List.take_append_drop] at h₁
    rw [h₁, h₂]
  · have h₁ := herr []
    rw [List.append_nil] at h₁
    rw [h₁, herr]
  · exact absurd hmore (h n)

/-- The bytes that the decoder takes are all it needs. -/
theorem read_of_append {data rest : List UInt8} {max n : Nat} {p : Packet}
    (h : read (data ++ rest) max = .ok (p, n)) (hn : n ≤ data.length) :
    read data max = .ok (p, n) := by
  have hread := (read_eq_ok h).2.2.2 (data.drop n)
  rwa [List.take_append_of_le_length hn, List.take_append_drop] at hread

/-- Of a stream that starts with a whole frame the decoder does not ask for more
bytes, whatever its limit. -/
theorem read_ne_needMoreData {data : List UInt8} {cap : Nat} {fh : FixedHeader}
    (h : check data cap = .ok fh) (max n : Nat) : read data max ≠ .err (.needMoreData n) := by
  obtain ⟨lenBytes, body, rest, hw, rfl, hbody, -⟩ := check_eq_ok.mp h
  by_cases hmax : fh.remainingLen ≤ max
  · have herrs := @errsIn_readExact fh lenBytes body hw
    rw [read_of_onWire hw hbody hmax]
    rcases hx : readExact fh (fh.byte1 :: (lenBytes ++ body)) with p | e | _
    · exact nofun
    · rintro ⟨⟩
      rw [hx] at herrs
      cases herrs
    · exact nofun
  · rw [read, check_of_onWire hw, if_pos (Nat.lt_of_not_le hmax)]
    exact nofun

/-- What the decoder accepts starts with a whole frame, for every limit that the
bytes keep to. -/
theorem check_of_read {data : List UInt8} {max cap n : Nat} {p : Packet}
    (h : read data max = .ok (p, n)) (hcap : data.length ≤ cap) :
    ∃ fh, check data cap = .ok fh := by
  rw [read, Outcome.bind_eq_ok] at h
  obtain ⟨fh, hc, -⟩ := h
  obtain ⟨lenBytes, body, rest, hw, rfl, hbody, -⟩ := check_eq_ok.mp hc
  refine ⟨fh, check_eq_ok.mpr ⟨lenBytes, body, rest, hw, rfl, hbody, ?_⟩⟩
  simp only [List.length_cons, List.length_append] at hcap
  omega

/-- The next packet of a stream. -/
def next (maxSize : Nat) (data : List UInt8) : Option (Packet × Nat) :=
  match read data maxSize with
  | .ok x => some x
  | _ => none

theorem next_eq_some {maxSize : Nat} {data : List UInt8} {x : Packet × Nat} :
    next maxSize data = some x ↔ read data maxSize = .ok x := by
  unfold next
  rcases read data maxSize with y | e | _ <;> simp

theorem prefixed_next (maxSize : Nat) : Prefixed (next maxSize) where
  taken h := by
    have hr := read_eq_ok (next_eq_some.mp h)
    omega
  append s h := by
    have hr := next_eq_some.mp h
    rw [next_eq_some, read_append s fun n hn => by cases hr.symm.trans hn]
    exact hr

/-- A larger limit rejects less, and changes nothing else. -/
theorem next_mono {maxSize maxSize' : Nat} (h : maxSize ≤ maxSize') {data : List UInt8}
    {x : Packet × Nat} (hnext : next maxSize data = some x) : next maxSize' data = some x := by
  rw [next_eq_some, read, Outcome.bind_eq_ok] at hnext ⊢
  obtain ⟨fh, hcheck, hread⟩ := hnext
  obtain ⟨lenBytes, body, rest, hw, hdata, hbody, hmax⟩ := check_eq_ok.mp hcheck
  exact ⟨fh, check_eq_ok.mpr ⟨lenBytes, body, rest, hw, hdata, hbody, hmax.trans h⟩, hread⟩

/-- The decoder on a stream that starts with a frame. -/
theorem read_frame_eq {byte1 : UInt8} {body s : List UInt8} {max : Nat}
    (h : body.length ≤ 268435455) (hmax : body.length ≤ max) :
    read (frame byte1 body ++ s) max =
      (readExact (frameHeader byte1 body) (frame byte1 body)).bind fun p =>
        .ok (p, (frame byte1 body).length) := by
  have hl : (frame byte1 body).length = (frameHeader byte1 body).fixedHeaderLen +
      (frameHeader byte1 body).remainingLen := by
    simp only [frame, frameHeader, List.length_cons, List.length_append]
    omega
  have hread := @read_of_onWire (frameHeader byte1 body) _ body s max (onWire_frameHeader h) rfl
    hmax
  rw [hl]
  simp only [frame, frameHeader, List.cons_append, List.append_assoc] at hread ⊢
  exact hread

/-- A frame is read whole. -/
theorem read_frame {byte1 : UInt8} {body s : List UInt8} {max : Nat} {p : Packet}
    (h : body.length ≤ 268435455) (hmax : body.length ≤ max)
    (hread : readExact (frameHeader byte1 body) (frame byte1 body) = .ok p) :
    read (frame byte1 body ++ s) max = .ok (p, (frame byte1 body).length) := by
  rw [read_frame_eq h hmax, hread]
  rfl

end Packet

end Umqtt
