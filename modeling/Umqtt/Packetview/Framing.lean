/-
Umqtt/Packetview/Framing.lean

The fixed header and the framing check of `packetview/mod.rs`.

`usize` is a natural number here, but the sums of the framing code, whose
operands come from the peer, are checked against the smallest range a `usize`
may have: a sum that leaves it is a panic.

`check` accepts a stream iff it starts with a header and the body the header
announces (`check_eq_ok`); it never panics (`check_ne_panic`); and every
verdict but the request for more bytes is decided by a prefix
(`check_append`).
-/
import Mathlib.Tactic.Ring
import Umqtt.Packetview.Cursor

namespace Umqtt

open Effects Wire

variable {ε : Type}

/-- Addition on `usize`, which every target supports below `2 ^ 32`. -/
def usizeAdd (a b : Nat) : Outcome ε Nat :=
  if a + b < 2 ^ 32 then .ok (a + b) else .panic

theorem usizeAdd_of_lt {a b : Nat} (h : a + b < 2 ^ 32) :
    (usizeAdd a b : Outcome ε Nat) = .ok (a + b) := if_pos h

/-! ### The fixed header -/

/-- The first byte of a packet, the length of its fixed header, and the number
of bytes behind that. -/
structure FixedHeader where
  byte1 : UInt8
  fixedHeaderLen : Nat
  remainingLen : Nat
  deriving DecidableEq, Repr

namespace FixedHeader

def new (byte1 : UInt8) (remainingLenLen remainingLen : Nat) : Outcome ε FixedHeader := do
  let fixedHeaderLen ← usizeAdd remainingLenLen 1
  pure { byte1, fixedHeaderLen, remainingLen }

def packetType (fh : FixedHeader) : Outcome Error PacketType :=
  let num := fh.byte1 >>> 4
  match num.toNat with
  | 1 => .ok .connect
  | 2 => .ok .connAck
  | 3 => .ok .publish
  | 4 => .ok .pubAck
  | 5 => .ok .pubRec
  | 6 => .ok .pubRel
  | 7 => .ok .pubComp
  | 8 => .ok .subscribe
  | 9 => .ok .subAck
  | 10 => .ok .unsubscribe
  | 11 => .ok .unsubAck
  | 12 => .ok .pingReq
  | 13 => .ok .pingResp
  | 14 => .ok .disconnect
  | _ => .err (.invalidPacketType num)

/-- Returns the size of full packet (fixed header + variable header + payload) -/
def frameLength (fh : FixedHeader) : Outcome ε Nat :=
  usizeAdd fh.fixedHeaderLen fh.remainingLen

end FixedHeader

/-- The loop of `length`, over its accumulators. -/
def lengthLoop : List UInt8 → (len lenLen shift : Nat) → Outcome Error (Nat × Nat)
  | [], _, _, _ => .err (.needMoreData 1)
  | byte :: stream, len, lenLen, shift => do
      let lenLen ← usizeAdd lenLen 1
      let len ← usizeAdd len ((byte.toNat &&& 0x7F) <<< shift)
      if byte.toNat &&& 0x80 = 0 then
        pure (lenLen, len)
      else if shift + 7 > 21 then
        .err .malformedRemainingLength
      else
        lengthLoop stream len lenLen (shift + 7)

/-- Parses variable byte integer in the stream and returns the number of bytes
that make it and the length. -/
def length (stream : List UInt8) : Outcome Error (Nat × Nat) := lengthLoop stream 0 0 0

/-- Parses fixed header -/
def parseFixedHeader (data : List UInt8) : Outcome Error FixedHeader :=
  match data with
  | [] => .err (.needMoreData 2)
  | [_] => .err (.needMoreData 1)
  | byte1 :: stream => do
      let (lenLen, len) ← length stream
      FixedHeader.new byte1 lenLen len

/-- Checks if the stream has enough bytes to frame a packet. -/
def check (data : List UInt8) (maxPacketSize : Nat) : Outcome Error FixedHeader := do
  let fixedHeader ← parseFixedHeader data
  if fixedHeader.remainingLen > maxPacketSize then
    .err (.payloadSizeLimitExceeded fixedHeader.remainingLen)
  else
    let frameLength ← fixedHeader.frameLength
    if data.length < frameLength then
      .err (.needMoreData (frameLength - data.length))
    else
      pure fixedHeader

/-! ### The remaining length, decoded -/

theorem and_0x7F (n : Nat) : n &&& 0x7F = n % 128 := Nat.and_two_pow_sub_one_eq_mod n 7

theorem and_0x80 {n : Nat} (h : n < 256) : n &&& 0x80 = 0 ↔ n < 128 := by
  revert h n
  decide +kernel

/-- One turn of the loop of `length`, as arithmetic. -/
theorem lengthLoop_cons {b : UInt8} {stream : List UInt8} {len k : Nat} (hk : k ≤ 3)
    (hlen : len < 128 ^ k) :
    lengthLoop (b :: stream) len k (7 * k) =
      if b.toNat < 128 then .ok (k + 1, len + 128 ^ k * (b.toNat % 128))
      else if k = 3 then .err .malformedRemainingLength
      else lengthLoop stream (len + 128 ^ k * (b.toNat % 128)) (k + 1) (7 * (k + 1)) := by
  have hpow : (2 : Nat) ^ (7 * k) = 128 ^ k := by rw [Nat.pow_mul]
  have hk3 : (128 : Nat) ^ k ≤ 128 ^ 3 := Nat.pow_le_pow_right (by decide) hk
  have hmul : 128 ^ k * (b.toNat % 128) ≤ 128 ^ 3 * 127 := Nat.mul_le_mul hk3 (by omega)
  rw [lengthLoop, and_0x7F, Nat.shiftLeft_eq, hpow, Nat.mul_comm (b.toNat % 128),
    usizeAdd_of_lt (by omega), Outcome.ok_bind, usizeAdd_of_lt (by omega), Outcome.ok_bind]
  by_cases hb : b.toNat < 128
  · rw [if_pos ((and_0x80 b.toNat_lt).mpr hb), if_pos hb, Outcome.pure_eq]
  · rw [if_neg (mt (and_0x80 b.toNat_lt).mp hb), if_neg hb]
    by_cases h3 : k = 3
    · rw [if_pos (by omega), if_pos h3]
    · rw [if_neg (by omega), if_neg h3, Nat.mul_succ]

/-- The accumulator stays below the next power of 128. -/
theorem acc_lt {len k b : Nat} (hlen : len < 128 ^ k) :
    len + 128 ^ k * (b % 128) < 128 ^ (k + 1) := by
  have hb : b % 128 ≤ 127 := by omega
  have hmul : 128 ^ k * (b % 128) ≤ 128 ^ k * 127 := Nat.mul_le_mul_left _ hb
  rw [Nat.pow_succ]
  omega

theorem acc_step (len k b v : Nat) :
    len + 128 ^ k * b + 128 ^ (k + 1) * v = len + 128 ^ k * (b + 128 * v) := by
  ring

/-- A number of at most four bytes is read, whatever follows it. -/
theorem lengthLoop_terminated {bs : List UInt8} : ∀ {len k : Nat} (rest : List UInt8),
    Terminated bs → k + bs.length ≤ 4 → len < 128 ^ k →
    lengthLoop (bs ++ rest) len k (7 * k) =
      .ok (k + bs.length, len + 128 ^ k * value128 bs) := by
  induction bs with
  | nil => exact fun _ h => h.elim
  | cons b bs ih =>
    intro len k rest ht hk hlen
    rw [List.length_cons] at hk
    rw [List.cons_append, lengthLoop_cons (by omega) hlen]
    cases bs with
    | nil =>
      have hb : b.toNat < 128 := ht
      rw [if_pos hb]
      simp [value128]
    | cons c cs =>
      obtain ⟨hb, ht⟩ := ht
      have hcs : (c :: cs).length = cs.length + 1 := rfl
      have hv : value128 (b :: c :: cs) = b.toNat % 128 + 128 * value128 (c :: cs) := rfl
      rw [if_neg (by omega), if_neg (by omega), ih rest ht (by omega) (acc_lt hlen), acc_step,
        hv, List.length_cons (a := b), Nat.add_assoc, Nat.add_comm 1]

/-- Bytes that go on are taken in, up to the fourth. -/
theorem lengthLoop_continued {bs : List UInt8} : ∀ {len k : Nat} (rest : List UInt8),
    (∀ b ∈ bs, 128 ≤ b.toNat) → k + bs.length ≤ 3 → len < 128 ^ k →
    ∃ len', len' < 128 ^ (k + bs.length) ∧ lengthLoop (bs ++ rest) len k (7 * k) =
      lengthLoop rest len' (k + bs.length) (7 * (k + bs.length)) := by
  induction bs with
  | nil => exact fun rest _ _ hlen => ⟨_, hlen, rfl⟩
  | cons b bs ih =>
    intro len k rest hc hk hlen
    obtain ⟨hb, hc⟩ := List.forall_mem_cons.mp hc
    rw [List.length_cons, Nat.add_comm bs.length 1, ← Nat.add_assoc] at hk ⊢
    obtain ⟨len', hlen', hloop⟩ := ih rest hc hk (acc_lt (b := b.toNat) hlen)
    refine ⟨len', hlen', ?_⟩
    rw [List.cons_append, lengthLoop_cons (by omega) hlen, if_neg (by omega), if_neg (by omega),
      hloop]

theorem length_terminated {bs : List UInt8} (rest : List UInt8) (ht : Terminated bs)
    (h4 : bs.length ≤ 4) : length (bs ++ rest) = .ok (bs.length, value128 bs) := by
  have h := @lengthLoop_terminated bs 0 0 rest ht (by omega) (by decide)
  simpa only [length, Nat.mul_zero, Nat.zero_add, Nat.pow_zero, Nat.one_mul] using h

/-- Four bytes that go on are no length, whatever follows them: the limit on the
shift is checked before the end of the stream. -/
theorem length_overlong {bs : List UInt8} (rest : List UInt8) (h4 : bs.length = 4)
    (hc : ∀ b ∈ bs, 128 ≤ b.toNat) : length (bs ++ rest) = .err .malformedRemainingLength := by
  obtain ⟨init, b, rfl⟩ : ∃ init b, bs = init ++ [b] :=
    ⟨_, _, (List.dropLast_concat_getLast (List.ne_nil_of_length_pos (by omega))).symm⟩
  obtain ⟨hinit, hb⟩ := List.forall_mem_append.mp hc
  have h3 : init.length = 3 := by
    rw [List.length_append, List.length_singleton] at h4
    omega
  obtain ⟨len, hlen, hloop⟩ := @lengthLoop_continued init 0 0 ([b] ++ rest) hinit (by omega)
    (by decide)
  have hlast := hb b (List.mem_singleton_self b)
  rw [Nat.zero_add, h3] at hlen hloop
  rw [length, List.append_assoc]
  refine hloop.trans ?_
  rw [List.singleton_append, lengthLoop_cons (by decide) hlen, if_neg (by omega), if_pos rfl]

/-- A stream that ends before its length does. -/
theorem length_cut {bs : List UInt8} (h4 : bs.length < 4) (hc : ∀ b ∈ bs, 128 ≤ b.toNat) :
    length bs = .err (.needMoreData 1) := by
  obtain ⟨len, -, hloop⟩ := @lengthLoop_continued bs 0 0 [] hc (by omega) (by decide)
  rw [List.append_nil] at hloop
  exact hloop

/-! ### Framing -/

/-- A fixed header as it stands on the wire. -/
structure FixedHeader.OnWire (fh : FixedHeader) (lenBytes : List UInt8) : Prop where
  terminated : Terminated lenBytes
  short : lenBytes.length ≤ 4
  fixedHeaderLen : fh.fixedHeaderLen = lenBytes.length + 1
  remainingLen : fh.remainingLen = value128 lenBytes

namespace FixedHeader.OnWire

variable {fh : FixedHeader} {lenBytes : List UInt8}

theorem remainingLen_le (h : fh.OnWire lenBytes) : fh.remainingLen ≤ 268435455 := by
  have hv := @value128_lt lenBytes
  have hp : 128 ^ lenBytes.length ≤ 128 ^ 4 := Nat.pow_le_pow_right (by decide) h.short
  rw [h.remainingLen]
  omega

theorem frameLength_eq (h : fh.OnWire lenBytes) :
    (fh.frameLength : Outcome ε Nat) = .ok (fh.fixedHeaderLen + fh.remainingLen) := by
  have h₁ := h.remainingLen_le
  have h₂ := h.short
  have h₃ := h.fixedHeaderLen
  exact usizeAdd_of_lt (by omega)

/-- The header is read back, whatever follows it. -/
theorem parse (h : fh.OnWire lenBytes) (rest : List UInt8) :
    parseFixedHeader (fh.byte1 :: (lenBytes ++ rest)) = .ok fh := by
  have hs := h.short
  have hlen := length_terminated rest h.terminated hs
  rcases hcase : lenBytes ++ rest with _ | ⟨b, stream⟩
  · have := h.terminated
    rw [(List.append_eq_nil_iff.mp hcase).1] at this
    exact this.elim
  · rw [hcase] at hlen
    simp only [parseFixedHeader, hlen, Outcome.ok_bind, FixedHeader.new]
    rw [usizeAdd_of_lt (by omega), Outcome.ok_bind, ← h.fixedHeaderLen, ← h.remainingLen]
    rfl

end FixedHeader.OnWire

/-- What `parse_fixed_header` makes of a stream: it finds a header, or rejects
the stream whatever follows, or asks for more bytes: for one, or for two at the
start. -/
theorem parseFixedHeader_cases (data : List UInt8) :
    (∃ (fh : FixedHeader) (lenBytes rest : List UInt8), fh.OnWire lenBytes ∧
      data = fh.byte1 :: (lenBytes ++ rest)) ∨
    (∀ s, parseFixedHeader (data ++ s) = .err .malformedRemainingLength) ∨
    parseFixedHeader data = .err (.needMoreData (if data = [] then 2 else 1)) := by
  match data with
  | [] => exact .inr (.inr rfl)
  | [_] => exact .inr (.inr rfl)
  | byte1 :: b :: stream =>
    rcases terminated_or_continued (b :: stream) 4 with
      ⟨bs, rest, hs, ht, h4⟩ | ⟨bs, rest, hs, h4, hc⟩ | ⟨h4, hc⟩
    · exact .inl ⟨⟨byte1, bs.length + 1, value128 bs⟩, bs, rest,
        ⟨ht, by omega, rfl, rfl⟩, by rw [hs]⟩
    · refine .inr (.inl fun s => ?_)
      have hlen : length (b :: (stream ++ s)) = .err .malformedRemainingLength := by
        rw [← List.cons_append, hs, List.append_assoc]
        exact length_overlong _ h4 hc
      simp only [List.cons_append, parseFixedHeader, hlen, Outcome.err_bind]
    · have hlen : length (b :: stream) = .err (.needMoreData 1) := length_cut h4 hc
      refine .inr (.inr ?_)
      simp only [parseFixedHeader, hlen, Outcome.err_bind, reduceCtorEq, if_false]

/-- The verdict of `check` once the header is known. -/
theorem check_of_onWire {fh : FixedHeader} {lenBytes rest : List UInt8} {max : Nat}
    (h : fh.OnWire lenBytes) :
    check (fh.byte1 :: (lenBytes ++ rest)) max =
      if fh.remainingLen > max then .err (.payloadSizeLimitExceeded fh.remainingLen)
      else if rest.length < fh.remainingLen then
        .err (.needMoreData (fh.remainingLen - rest.length))
      else .ok fh := by
  have hlen : (fh.byte1 :: (lenBytes ++ rest)).length = fh.fixedHeaderLen + rest.length := by
    rw [List.length_cons, List.length_append, h.fixedHeaderLen]
    omega
  rw [check, h.parse, Outcome.ok_bind, h.frameLength_eq]
  split
  · rfl
  · rw [Outcome.ok_bind, hlen]
    by_cases hr : rest.length < fh.remainingLen
    · rw [if_pos (by omega), if_pos hr, Nat.add_sub_add_left]
    · rw [if_neg (by omega), if_neg hr, Outcome.pure_eq]

/-- The bytes of a packet: its first byte, the length of the body in the
shortest form, and the body. -/
def frame (byte1 : UInt8) (body : List UInt8) : List UInt8 :=
  byte1 :: (base128 body.length ++ body)

/-- A body below 128 bytes has a length of one byte. -/
theorem frame_of_lt {byte1 : UInt8} {body : List UInt8} (h : body.length < 128) :
    frame byte1 body = byte1 :: UInt8.ofNat body.length :: body := by
  rw [frame, base128_of_lt h]
  rfl

/-- The fixed header of `frame byte1 body`. -/
def frameHeader (byte1 : UInt8) (body : List UInt8) : FixedHeader :=
  ⟨byte1, (base128 body.length).length + 1, body.length⟩

theorem onWire_base128 {byte1 : UInt8} {len : Nat} (h : len ≤ 268435455) :
    FixedHeader.OnWire ⟨byte1, (base128 len).length + 1, len⟩ (base128 len) where
  terminated := terminated_base128 _
  short := length_base128_le (k := 3) (by omega)
  fixedHeaderLen := rfl
  remainingLen := (value128_base128 _).symm

theorem onWire_frameHeader {byte1 : UInt8} {body : List UInt8} (h : body.length ≤ 268435455) :
    (frameHeader byte1 body).OnWire (base128 body.length) := onWire_base128 h

theorem check_frame {byte1 : UInt8} {body s : List UInt8} {max : Nat}
    (h : body.length ≤ 268435455) (hmax : body.length ≤ max) :
    check (frame byte1 body ++ s) max = .ok (frameHeader byte1 body) := by
  have hw : (frameHeader byte1 body).OnWire _ := onWire_frameHeader h
  have hl : (frameHeader byte1 body).remainingLen = body.length := rfl
  have hd : frame byte1 body ++ s = (frameHeader byte1 body).byte1 ::
      (base128 body.length ++ (body ++ s)) := by
    simp [frame, frameHeader]
  rw [hd, check_of_onWire hw, if_neg (by omega),
    if_neg (by rw [List.length_append]; omega)]

theorem check_of_parse_err {data : List UInt8} {max : Nat} {e : Error}
    (h : parseFixedHeader data = .err e) : check data max = .err e := by
  rw [check, h, Outcome.err_bind]

/-- What `check` makes of a stream. -/
theorem check_cases (data : List UInt8) (max : Nat) :
    (∃ (fh : FixedHeader) (lenBytes rest : List UInt8), fh.OnWire lenBytes ∧
      data = fh.byte1 :: (lenBytes ++ rest) ∧ fh.remainingLen ≤ max ∧
      fh.remainingLen ≤ rest.length ∧ check data max = .ok fh) ∨
    (∃ e, e.isNeedMoreData = false ∧ ∀ s, check (data ++ s) max = .err e) ∨
    ∃ n, check data max = .err (.needMoreData n) := by
  rcases parseFixedHeader_cases data with ⟨fh, lenBytes, rest, hw, rfl⟩ | h | h
  · have hc := fun rest' => @check_of_onWire fh lenBytes rest' max hw
    by_cases hmax : fh.remainingLen > max
    · refine .inr (.inl ⟨.payloadSizeLimitExceeded fh.remainingLen, rfl, fun s => ?_⟩)
      rw [List.cons_append, List.append_assoc, hc, if_pos hmax]
    · by_cases hr : rest.length < fh.remainingLen
      · exact .inr (.inr ⟨_, by rw [hc, if_neg hmax, if_pos hr]⟩)
      · exact .inl ⟨fh, lenBytes, rest, hw, rfl, by omega, by omega,
          by rw [hc, if_neg hmax, if_neg hr]⟩
  · exact .inr (.inl ⟨.malformedRemainingLength, rfl, fun s => check_of_parse_err (h s)⟩)
  · exact .inr (.inr ⟨_, check_of_parse_err h⟩)

/-- A framed packet: the header and the body it announces, then the rest. -/
theorem check_eq_ok {data : List UInt8} {max : Nat} {fh : FixedHeader} :
    check data max = .ok fh ↔ ∃ lenBytes body rest, fh.OnWire lenBytes ∧
      data = fh.byte1 :: (lenBytes ++ (body ++ rest)) ∧ body.length = fh.remainingLen ∧
      fh.remainingLen ≤ max := by
  constructor
  · intro h
    rcases check_cases data max with ⟨fh', lenBytes, rest, hw, hd, hmax, hr, hc⟩ | ⟨e, -, hc⟩ |
      ⟨n, hc⟩
    · obtain rfl : fh' = fh := Outcome.ok.inj (hc.symm.trans h)
      refine ⟨lenBytes, rest.take fh'.remainingLen, rest.drop fh'.remainingLen, hw, ?_, ?_, hmax⟩
      · rw [List.take_append_drop, hd]
      · rw [List.length_take]; omega
    · have := hc []
      rw [List.append_nil, h] at this
      cases this
    · rw [h] at hc
      cases hc
  · rintro ⟨lenBytes, body, rest, hw, rfl, hb, hmax⟩
    rw [check_of_onWire hw, if_neg (by omega), if_neg (by rw [List.length_append]; omega)]

/-- Framing is decided by a prefix. -/
theorem check_append {data : List UInt8} {max : Nat} (s : List UInt8)
    (h : ∀ n, check data max ≠ .err (.needMoreData n)) :
    check (data ++ s) max = check data max := by
  rcases check_cases data max with ⟨fh, lenBytes, rest, hw, rfl, hmax, hr, hc⟩ | ⟨e, -, hc⟩ |
    ⟨n, hc⟩
  · rw [hc, List.cons_append, List.append_assoc, check_of_onWire hw, if_neg (by omega),
      if_neg (by rw [List.length_append]; omega)]
  · have := hc []
    rw [List.append_nil] at this
    rw [hc, this]
  · exact absurd hc (h n)

/-- The bytes that `check` asks for are needed: with fewer it asks again. -/
theorem check_needMoreData {data : List UInt8} {max k : Nat}
    (h : check data max = .err (.needMoreData k)) :
    1 ≤ k ∧ ∀ s : List UInt8, s.length < k →
      ∃ k', check (data ++ s) max = .err (.needMoreData k') := by
  rcases parseFixedHeader_cases data with ⟨fh, lenBytes, rest, hw, rfl⟩ | hno | hmore
  · have hc := fun rest' => @check_of_onWire fh lenBytes rest' max hw
    rw [hc] at h
    by_cases hmax : fh.remainingLen > max
    · rw [if_pos hmax] at h
      cases h
    · rw [if_neg hmax] at h
      by_cases hr : rest.length < fh.remainingLen
      · rw [if_pos hr] at h
        cases h
        refine ⟨by omega, fun s hs => ⟨fh.remainingLen - (rest ++ s).length, ?_⟩⟩
        rw [List.cons_append, List.append_assoc, hc, if_neg hmax,
          if_pos (by rw [List.length_append]; omega)]
      · rw [if_neg hr] at h
        cases h
  · have hnil := hno []
    rw [List.append_nil] at hnil
    cases h.symm.trans (check_of_parse_err hnil)
  · obtain rfl : k = if data = [] then 2 else 1 := by
      simpa using h.symm.trans (check_of_parse_err hmore)
    by_cases hdata : data = []
    · subst hdata
      refine ⟨by simp, fun s hs => ?_⟩
      -- neither no byte nor one byte makes a header
      rw [if_pos rfl] at hs
      rcases s with - | ⟨b, - | ⟨c, s⟩⟩
      · exact ⟨2, rfl⟩
      · exact ⟨1, rfl⟩
      · simp only [List.length_cons] at hs
        omega
    · rw [if_neg hdata] at h ⊢
      refine ⟨Nat.le_refl 1, fun s hs => ⟨1, ?_⟩⟩
      rwa [List.length_eq_zero_iff.mp (Nat.lt_one_iff.mp hs), List.append_nil]

theorem check_ne_panic (data : List UInt8) (max : Nat) : check data max ≠ .panic := by
  rcases check_cases data max with ⟨fh, lenBytes, rest, hw, hd, hmax, hr, hc⟩ | ⟨e, -, hc⟩ |
    ⟨n, hc⟩
  · rw [hc]; simp
  · have := hc []
    rw [List.append_nil] at this
    rw [this]; simp
  · rw [hc]; simp

end Umqtt
