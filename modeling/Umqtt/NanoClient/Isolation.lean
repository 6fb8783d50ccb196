/-
Umqtt/NanoClient/Isolation.lean

Nothing of an earlier session is left in a later one.

Two clients run side by side, each on its platform, and the platforms give the
same responses (`Platform.Matches`).  `Alike` relates what the two may become:
the transport clients are equal, the receive buffers hold the same bytes, and
the tx buffers agree in as many bytes as are about to be written.  Every
operation agrees on such worlds (`agrees_perform`).  A `connect` leads into this
relation from any two clients with buffers of the same sizes and the same limit
(`connect_alike`): of all that an earlier session left, it reads nothing.
-/
import Umqtt.NanoClient.Handshake
import Umqtt.StaleBytes

namespace Umqtt

open Effects Wire

/-! ### Receive buffers -/

namespace Buffer

/-- The same size and the same received bytes. -/
structure Alike (b b' : Buffer) : Prop where
  capacity : b.capacity = b'.capacity
  used : b.used = b'.used
  content : b.content = b'.content

variable {ε : Type} {b b' : Buffer}

theorem Alike.valid_iff (h : b.Alike b') : b.Valid ↔ b'.Valid := by
  show b.used ≤ b.capacity ↔ b'.used ≤ b'.capacity
  rw [h.used, h.capacity]

theorem Alike.usedSlice_eq (h : b.Alike b') :
    (b.usedSlice : Outcome ε (List UInt8)) = b'.usedSlice := by
  by_cases hv : b.Valid
  · rw [Buffer.usedSlice_eq hv, Buffer.usedSlice_eq (h.valid_iff.mp hv), h.content]
  · rw [usedSlice_of_not hv, usedSlice_of_not (mt h.valid_iff.mpr hv)]

theorem alike_reset (h : b.capacity = b'.capacity) : b.reset.Alike b'.reset := ⟨h, rfl, rfl⟩

/-- Reads that brought the same bytes. -/
theorem Alike.storeUnused (h : b.Alike b') (hv : b.Valid) {bytes bytes' : List UInt8}
    (hlen : bytes.length = b.capacity - b.used) (hlen' : bytes'.length = b'.capacity - b'.used) :
    (b.storeUnused bytes).Alike (b'.storeUnused bytes') where
  capacity := by
    rw [capacity_storeUnused hv hlen, capacity_storeUnused (h.valid_iff.mp hv) hlen', h.capacity]
  used := h.used
  content := by
    rw [content_storeUnused hv, content_storeUnused (h.valid_iff.mp hv), h.content]

theorem Alike.advance (h : b.Alike b') (hv : b.Valid) {bytes bytes' : List UInt8} {n : Nat}
    (hlen : bytes.length = b.capacity - b.used) (hlen' : bytes'.length = b'.capacity - b'.used)
    (hbytes : bytes.take n = bytes'.take n) :
    ((b.storeUnused bytes).advance n).Alike ((b'.storeUnused bytes').advance n) where
  capacity := (h.storeUnused hv hlen hlen').capacity
  used := congrArg (· + n) h.used
  content := by
    rw [content_advance hv, content_advance (h.valid_iff.mp hv), h.content, hbytes]

theorem agrees_removePrefix (len : Nat) :
    Act.Agrees Alike (removePrefix len : Act Buffer ε Unit) (removePrefix len) := by
  intro b b' h
  by_cases hlen : len ≥ b.used
  · have hlen' : len ≥ b'.used := h.used ▸ hlen
    rw [removePrefix, removePrefix, if_pos hlen, if_pos hlen']
    exact ⟨rfl, alike_reset h.capacity⟩
  · by_cases hv : b.Valid
    · obtain ⟨t, ht, hvt, hcontent, hcap⟩ := @removePrefix_spec ε b hv len
      obtain ⟨t', ht', hvt', hcontent', hcap'⟩ := @removePrefix_spec ε b' (h.valid_iff.mp hv) len
      have hsame : t.content = t'.content := by rw [hcontent, hcontent', h.content]
      rw [ht, ht']
      refine ⟨rfl, by rw [hcap, hcap', h.capacity], ?_, hsame⟩
      -- the used length is that of the received bytes
      rw [← length_content hvt, hsame, length_content hvt']
    · have hlen' : ¬len ≥ b'.used := h.used ▸ hlen
      have hv' : ¬b'.Valid := mt h.valid_iff.mpr hv
      have hpanic : (removePrefix len : Act Buffer ε Unit) b = (.panic, b) :=
        (if_neg hlen).trans (if_neg hv)
      have hpanic' : (removePrefix len : Act Buffer ε Unit) b' = (.panic, b') :=
        (if_neg hlen').trans (if_neg hv')
      rw [hpanic, hpanic']
      exact ⟨rfl, h⟩

end Buffer

/-! ### Platforms that give the same responses -/

/-- In states that `S` relates, the platforms give the same responses, and go on
in related states: the same result of a write of the same bytes, the same result
and the same received bytes of a read into slices of one length with the same
timeout, and the same time. -/
structure Platform.Matches {σ₁ σ₂ E : Type} (p₁ : Platform σ₁ E) (p₂ : Platform σ₂ E)
    (S : σ₁ → σ₂ → Prop) : Prop where
  writeAll : ∀ {s₁ s₂} buf, S s₁ s₂ →
    (p₁.writeAll buf s₁).1 = (p₂.writeAll buf s₂).1 ∧
      S (p₁.writeAll buf s₁).2 (p₂.writeAll buf s₂).2
  readSome : ∀ {s₁ s₂ buf₁ buf₂} timeout, S s₁ s₂ → buf₁.length = buf₂.length →
    (p₁.readSome buf₁ timeout s₁).1.1 = (p₂.readSome buf₂ timeout s₂).1.1 ∧
      (∀ n, (p₁.readSome buf₁ timeout s₁).1.1 = .ok (some n) →
        (p₁.readSome buf₁ timeout s₁).1.2.take n = (p₂.readSome buf₂ timeout s₂).1.2.take n) ∧
      S (p₁.readSome buf₁ timeout s₁).2 (p₂.readSome buf₂ timeout s₂).2
  now : ∀ {s₁ s₂}, S s₁ s₂ →
    (p₁.now s₁).1 = (p₂.now s₂).1 ∧ S (p₁.now s₁).2 (p₂.now s₂).2

/-- What comes from a byte stream does not depend on the slice it is read into. -/
theorem streamPlatform_matches (chunk : Nat) :
    (streamPlatform chunk).Matches (streamPlatform chunk) Eq where
  writeAll := by
    rintro s _ buf rfl
    exact ⟨rfl, rfl⟩
  readSome := by
    rintro s _ buf₁ buf₂ timeout rfl hlen
    have hread : ∀ buf, (streamPlatform chunk).readSome buf timeout s =
        if s = [] then ((.ok none, buf), s)
        else ((.ok (some (min chunk (min buf.length s.length))),
          s.take (min chunk (min buf.length s.length)) ++
            buf.drop (min chunk (min buf.length s.length))),
          s.drop (min chunk (min buf.length s.length))) := fun _ => rfl
    by_cases hs : s = []
    · rw [hread buf₁, hread buf₂, if_pos hs, if_pos hs]
      exact ⟨rfl, nofun, rfl⟩
    · rw [hread buf₁, hread buf₂, if_neg hs, if_neg hs, hlen]
      refine ⟨rfl, ?_, rfl⟩
      rintro n ⟨⟩
      have hn : (s.take (min chunk (min buf₂.length s.length))).length =
          min chunk (min buf₂.length s.length) := by
        rw [List.length_take]
        omega
      rw [List.take_left' hn, List.take_left' hn]
  now := by
    rintro s _ rfl
    exact ⟨rfl, rfl⟩

namespace NanoClient

/-! ### Records of the same calls -/

section Records

variable {E : Type}

/-- A call of the platform, without what is behind the bytes that a read
received. -/
def Event.seen : Event E → Event E
  | .read timeout result buf => .read timeout result (Event.read timeout result buf).received
  | e => e

/-- The records `log₁` and `log₂` continue `l₁` and `l₂` with the same calls. -/
def SameCalls (l₁ l₂ log₁ log₂ : List (Event E)) : Prop :=
  ∃ evs₁ evs₂, log₁ = l₁ ++ evs₁ ∧ log₂ = l₂ ++ evs₂ ∧ evs₁.map Event.seen = evs₂.map Event.seen

variable {l₁ l₂ log₁ log₂ : List (Event E)} {e₁ e₂ : Event E}

theorem SameCalls.start : SameCalls l₁ l₂ l₁ l₂ :=
  ⟨[], [], (List.append_nil _).symm, (List.append_nil _).symm, rfl⟩

/-- One more call. -/
theorem SameCalls.snoc (h : SameCalls l₁ l₂ log₁ log₂) (he : e₁.seen = e₂.seen) :
    SameCalls l₁ l₂ (log₁ ++ [e₁]) (log₂ ++ [e₂]) := by
  obtain ⟨evs₁, evs₂, rfl, rfl, hevs⟩ := h
  refine ⟨evs₁ ++ [e₁], evs₂ ++ [e₂], List.append_assoc _ _ _, List.append_assoc _ _ _, ?_⟩
  rw [List.map_append, List.map_append, hevs, List.map_singleton, List.map_singleton, he]

theorem written_seen (evs : List (Event E)) : written (evs.map Event.seen) = written evs := by
  have hseen : Event.written ∘ Event.seen = (Event.written : Event E → _) := by
    funext e
    cases e <;> rfl
  rw [written, List.filterMap_map, hseen, written]

theorem timeouts_seen (evs : List (Event E)) : timeouts (evs.map Event.seen) = timeouts evs := by
  have hseen : Event.timeout ∘ Event.seen = (Event.timeout : Event E → _) := by
    funext e
    cases e <;> rfl
  rw [timeouts, List.filterMap_map, hseen, timeouts]

end Records

/-! ### Worlds side by side -/

section Worlds

variable {σ₁ σ₂ E : Type} {ε α : Type}

/-- The same session so far, of which the records are those behind `l₁` and `l₂`.
The tx buffers agree in their first `n` bytes. -/
structure Alike (S : σ₁ → σ₂ → Prop) (l₁ l₂ : List (Event E)) (n : Nat) (w₁ : World σ₁ E)
    (w₂ : World σ₂ E) : Prop where
  transportClient : w₁.client.transportClient = w₂.client.transportClient
  txLength : w₁.client.txBuffer.length = w₂.client.txBuffer.length
  txFront : w₁.client.txBuffer.take n = w₂.client.txBuffer.take n
  rxBuffer : w₁.client.rxBuffer.Alike w₂.client.rxBuffer
  platform : S w₁.platform w₂.platform
  log : SameCalls l₁ l₂ w₁.log w₂.log

/-- Clients with buffers of the same sizes and the same limit of the decoder. -/
structure Sized (S : σ₁ → σ₂ → Prop) (l₁ l₂ : List (Event E)) (w₁ : World σ₁ E)
    (w₂ : World σ₂ E) : Prop where
  txLength : w₁.client.txBuffer.length = w₂.client.txBuffer.length
  capacity : w₁.capacity = w₂.capacity
  maxPacketSize :
    w₁.client.transportClient.maxPacketSize = w₂.client.transportClient.maxPacketSize
  platform : S w₁.platform w₂.platform
  log : SameCalls l₁ l₂ w₁.log w₂.log

variable {S : σ₁ → σ₂ → Prop} {l₁ l₂ : List (Event E)} {n : Nat} {w₁ : World σ₁ E}
  {w₂ : World σ₂ E}

theorem Alike.sized (h : Alike S l₁ l₂ n w₁ w₂) : Sized S l₁ l₂ w₁ w₂ :=
  ⟨h.txLength, h.rxBuffer.capacity, by rw [h.transportClient], h.platform, h.log⟩

/-- Once the tx buffers are written, what is in them does not matter. -/
theorem Alike.forget (h : Alike S l₁ l₂ n w₁ w₂) : Alike S l₁ l₂ 0 w₁ w₂ :=
  { h with txFront := rfl }

theorem Alike.isDisconnected (h : Alike S l₁ l₂ n w₁ w₂) :
    w₁.client.isDisconnected = w₂.client.isDisconnected :=
  congrArg TransportClient.isDisconnected h.transportClient

theorem Alike.withTx (h : Alike S l₁ l₂ n w₁ w₂) {b₁ b₂ : List UInt8} {m : Nat}
    (hlen : b₁.length = b₂.length) (hfront : b₁.take m = b₂.take m) :
    Alike S l₁ l₂ m (w₁.withTx b₁) (w₂.withTx b₂) :=
  ⟨h.transportClient, hlen, hfront, h.rxBuffer, h.platform, h.log⟩

/-! ### The parts of the client -/

theorem agrees_onTransport (x : Act TransportClient ε α) :
    Act.Agrees (Alike S l₁ l₂ n) (onTransport x) (onTransport x) :=
  (Act.Agrees.refl x).zoom (fun _ _ h => h.transportClient) fun _ _ _ _ h ht =>
    { h with transportClient := ht }

theorem agrees_onRx {x : Act Buffer ε α} (hx : Act.Agrees Buffer.Alike x x) :
    Act.Agrees (Alike S l₁ l₂ n) (onRx x) (onRx x) :=
  hx.zoom (fun _ _ h => h.rxBuffer) fun _ _ _ _ h hb => { h with rxBuffer := hb }

theorem agrees_usedSlice : Act.Agrees (Alike S l₁ l₂ n) usedSlice usedSlice :=
  fun _ _ h => ⟨h.rxBuffer.usedSlice_eq, h⟩

theorem agrees_onBytesReceived :
    Act.Agrees (Alike S l₁ l₂ n) onBytesReceived onBytesReceived :=
  agrees_usedSlice.bind fun _ => agrees_onTransport _

theorem agrees_isDisconnected {ε : Type} : Act.Agrees (Alike S l₁ l₂ n)
    (Act.gets fun w => w.client.isDisconnected : Act (World σ₁ E) ε Bool)
    (Act.gets fun w => w.client.isDisconnected) := .gets fun _ _ h => h.isDisconnected

theorem agrees_turns : Act.Agrees (Alike S l₁ l₂ n) turns turns :=
  .gets fun _ _ h => by rw [h.rxBuffer.capacity, h.rxBuffer.used]

theorem agrees_closed : Act.Agrees (Alike S l₁ l₂ n)
    (onTransport (Act.modify fun t => t.onTransportClosed) : Act (World σ₁ E) (Error E) Unit)
    (onTransport (Act.modify fun t => t.onTransportClosed)) := agrees_onTransport _

theorem agrees_fail_closed (e : Error E) : Act.Agrees (Alike S l₁ l₂ n)
    (do onTransport (Act.modify fun t => t.onTransportClosed)
        Act.fail e : Act (World σ₁ E) (Error E) α)
    (do onTransport (Act.modify fun t => t.onTransportClosed)
        Act.fail e) := agrees_closed.bind fun _ => .fail e

/-! ### Writing and reading -/

variable {p₁ : Platform σ₁ E} {p₂ : Platform σ₂ E} (hp : p₁.Matches p₂ S)

include hp

theorem agrees_platformWriteAll (buf : List UInt8) : Act.Agrees (Alike S l₁ l₂ n)
    (platformWriteAll p₁ buf) (platformWriteAll p₂ buf) := by
  intro w₁ w₂ h
  obtain ⟨hout, hs⟩ := hp.writeAll buf h.platform
  have hseen : (Event.wrote w₁.client.transportClient.state buf
      (p₁.writeAll buf w₁.platform).1).seen = (Event.wrote w₂.client.transportClient.state buf
      (p₂.writeAll buf w₂.platform).1).seen := by rw [h.transportClient, hout]
  exact ⟨congrArg Outcome.ok hout, h.transportClient, h.txLength, h.txFront, h.rxBuffer, hs,
    h.log.snoc hseen⟩

theorem agrees_platformNow :
    Act.Agrees (Alike S l₁ l₂ n) (platformNow p₁) (platformNow p₂) := by
  intro w₁ w₂ h
  obtain ⟨hout, hs⟩ := hp.now h.platform
  have hseen : (Event.clock (p₁.now w₁.platform).1 : Event E).seen =
      (Event.clock (p₂.now w₂.platform).1).seen := by rw [hout]
  exact ⟨congrArg Outcome.ok hout, h.transportClient, h.txLength, h.txFront, h.rxBuffer, hs,
    h.log.snoc hseen⟩

theorem agrees_writeBuffer (buf : List UInt8) :
    Act.Agrees (Alike S l₁ l₂ n) (writeBuffer p₁ buf) (writeBuffer p₂ buf) := by
  refine agrees_isDisconnected.bind fun _ => .ite (.fail _) ?_
  refine (agrees_platformWriteAll hp buf).bind fun result => ?_
  cases result with
  | ok => exact (agrees_platformNow hp).bind fun _ => agrees_onTransport _
  | error e => exact agrees_fail_closed _

omit hp in
theorem writeAll_of_not_le {σ : Type} (p : Platform σ E) {w : World σ E} {size : Nat}
    (h : ¬size ≤ w.client.txBuffer.length) : writeAll p size w = (.panic, w) := by
  have hslice : (slice w.client.txBuffer 0 size : Outcome (Error E) (List UInt8)) = .panic :=
    if_neg fun hle => h hle.2
  rw [writeAll, Act.bind_apply, Act.gets_apply]
  show Act.bind _ _ w = _
  rw [Act.bind, Act.lift_apply, hslice]

/-- What is written from the tx buffer is the part in which they agree. -/
theorem agrees_writeAll : Act.Agrees (Alike S l₁ l₂ n) (writeAll p₁ n) (writeAll p₂ n) := by
  intro w₁ w₂ h
  by_cases hn : n ≤ w₁.client.txBuffer.length
  · rw [writeAll_of_le p₁ hn, writeAll_of_le p₂ (h.txLength ▸ hn), h.txFront]
    exact agrees_writeBuffer hp _ w₁ w₂ h
  · rw [writeAll_of_not_le p₁ hn, writeAll_of_not_le p₂ (h.txLength ▸ hn)]
    exact ⟨rfl, h⟩

theorem agrees_readSomeWithTimeout (timeout : Option Duration) :
    Act.Agrees (Alike S l₁ l₂ n) (readSomeWithTimeout p₁ timeout)
      (readSomeWithTimeout p₂ timeout) := by
  intro w₁ w₂ h
  by_cases hv : w₁.Valid
  · have hv₂ : w₂.Valid := h.rxBuffer.valid_iff.mp hv
    have hfree : ∀ b : Buffer, (b.buffer.drop b.used).length = b.capacity - b.used :=
      fun b => List.length_drop
    have hread := hp.readSome timeout h.platform
      ((hfree w₁.client.rxBuffer).trans (by rw [h.rxBuffer.capacity, h.rxBuffer.used, hfree]))
    have hlen₁ := p₁.length_readSome (w₁.client.rxBuffer.buffer.drop w₁.client.rxBuffer.used)
      timeout w₁.platform
    have hlen₂ := p₂.length_readSome (w₂.client.rxBuffer.buffer.drop w₂.client.rxBuffer.used)
      timeout w₂.platform
    rcases hr₁ : p₁.readSome (w₁.client.rxBuffer.buffer.drop w₁.client.rxBuffer.used) timeout
      w₁.platform with ⟨⟨result, bytes₁⟩, s₁⟩
    rcases hr₂ : p₂.readSome (w₂.client.rxBuffer.buffer.drop w₂.client.rxBuffer.used) timeout
      w₂.platform with ⟨⟨result₂, bytes₂⟩, s₂⟩
    rw [hr₁] at hread hlen₁
    rw [hr₂] at hread hlen₂
    obtain ⟨rfl, hbytes, hs⟩ := hread
    rw [hfree] at hlen₁ hlen₂
    -- the slices may differ behind the received bytes, but these are not kept
    have hseen : (Event.read timeout result bytes₁).seen =
        (Event.read timeout result bytes₂).seen := by
      rcases result with e | - | m
      · rfl
      · rfl
      · exact congrArg (Event.read timeout (.ok (some m))) (hbytes m rfl)
    have hafter : Alike S l₁ l₂ n (w₁.afterRead timeout result bytes₁ s₁)
        (w₂.afterRead timeout result bytes₂ s₂) :=
      ⟨h.transportClient, h.txLength, h.txFront, h.rxBuffer.storeUnused hv hlen₁ hlen₂, hs,
        h.log.snoc hseen⟩
    rw [readSomeWithTimeout, readSomeWithTimeout, Act.bind_of_ok (platformReadSome_eq p₁ hv hr₁),
      Act.bind_of_ok (platformReadSome_eq p₂ hv₂ hr₂)]
    rcases result with e | - | m
    · exact agrees_fail_closed _ _ _ hafter
    · exact ⟨rfl, hafter⟩
    · by_cases hm : m = 0
      · simp only [if_pos hm]
        exact agrees_fail_closed _ _ _ hafter
      · simp only [if_neg hm]
        exact ⟨rfl, { hafter with rxBuffer := h.rxBuffer.advance hv hlen₁ hlen₂ (hbytes m rfl) }⟩
  · have hv₂ : ¬w₂.Valid := mt h.rxBuffer.valid_iff.mpr hv
    have hpanic : platformReadSome p₁ timeout w₁ = (.panic, w₁) := by
      rw [platformReadSome, Buffer.unusedSlice_of_not hv]
    have hpanic₂ : platformReadSome p₂ timeout w₂ = (.panic, w₂) := by
      rw [platformReadSome, Buffer.unusedSlice_of_not hv₂]
    rw [readSomeWithTimeout, readSomeWithTimeout, Act.bind_apply, Act.bind_apply, hpanic, hpanic₂]
    exact ⟨rfl, h⟩

/-! ### Sending -/

omit hp in
/-- An encoder, and what follows it, which may use as much of the tx buffer as
the encoder has written. -/
theorem agrees_encoded {write : Act (List UInt8) WriteError Nat} (hwrite : Blind write)
    {f₁ : Nat → Act (World σ₁ E) (Error E) α} {f₂ : Nat → Act (World σ₂ E) (Error E) α}
    (hf : ∀ m, Act.Agrees (Alike S l₁ l₂ m) (f₁ m) (f₂ m)) :
    Act.Agrees (Alike S l₁ l₂ 0) (onTx (write.mapErr .writeError) >>= f₁)
      (onTx (write.mapErr .writeError) >>= f₂) := by
  intro w₁ w₂ h
  obtain ⟨hout, hlen, hfront⟩ := hwrite _ _ h.txLength
  rcases hw₁ : write w₁.client.txBuffer with ⟨r, b₁⟩
  rcases hw₂ : write w₂.client.txBuffer with ⟨r₂, b₂⟩
  rw [hw₁, hw₂] at hout hlen hfront
  obtain rfl : r = r₂ := hout
  cases r with
  | ok m =>
    rw [Act.bind_of_ok (onTx_apply hw₁), Act.bind_of_ok (onTx_apply hw₂)]
    obtain ⟨hres, hafter⟩ := hf m _ _ (h.withTx hlen (hfront m rfl))
    exact ⟨hres, hafter.forget⟩
  | err e =>
    rw [Act.bind_of_err (onTx_apply hw₁), Act.bind_of_err (onTx_apply hw₂)]
    exact ⟨rfl, h.withTx hlen rfl⟩
  | panic =>
    rw [Act.bind_apply, Act.bind_apply, onTx_apply hw₁, onTx_apply hw₂]
    exact ⟨rfl, h.withTx hlen rfl⟩

theorem agrees_sendPacket {write : Act (List UInt8) WriteError Nat} (hwrite : Blind write) :
    Act.Agrees (Alike S l₁ l₂ 0) (sendPacket p₁ write) (sendPacket p₂ write) :=
  agrees_encoded hwrite fun _ => agrees_writeAll hp

theorem agrees_sendPublish (publish : OutPublish) (topic : TopicFn) (payload : PayloadFn) :
    Act.Agrees (Alike S l₁ l₂ 0) (sendPublish p₁ publish topic payload)
      (sendPublish p₂ publish topic payload) := by
  refine .bind ?_ fun packet => agrees_writeBuffer hp packet
  refine ((publish.agrees_write topic payload).mapErr _).zoom (fun _ _ h => h.txLength) ?_
  exact fun _ _ _ _ h hlen => { h with txLength := hlen, txFront := rfl }

theorem agrees_writeSubscribe (subscriptions : SubscribeFn) :
    Act.Agrees (Alike S l₁ l₂ 0) (writeSubscribe p₁ subscriptions)
      (writeSubscribe p₂ subscriptions) := by
  refine agrees_encoded (SubscribeWriter.blind_payload subscriptions) fun payloadLen => ?_
  -- the header is put together elsewhere, and leaves the payload in the tx buffer
  exact (Act.Agrees.lift _).bind fun _ => (agrees_writeBuffer hp _).bind fun _ =>
    agrees_writeAll hp

theorem agrees_performSend (packet : Send) :
    Act.Agrees (Alike S l₁ l₂ 0) (performSend p₁ packet) (performSend p₂ packet) := by
  cases packet with
  | pingRequest => exact agrees_sendPacket hp (writes_writeEmpty _).blind
  | pubAck | pubRec | pubComp => exact agrees_sendPacket hp (writes_writeAck _ _).blind
  | publish | publishQos0 | publishQos1 => exact agrees_sendPublish hp _ _ _

theorem agrees_completeNotification (completion : NotificationCompletion) :
    Act.Agrees (Alike S l₁ l₂ 0) (completeNotification p₁ completion)
      (completeNotification p₂ completion) := by
  obtain ⟨taken, action⟩ := completion
  refine .bind (.ite (agrees_onRx (Buffer.agrees_removePrefix taken)) (.pure ())) fun _ => ?_
  cases action with
  | none => exact .pure ()
  | pingReq => exact agrees_performSend hp .pingRequest
  | pubAck packetId => exact agrees_performSend hp (.pubAck packetId)
  | pubRec packetId => exact agrees_performSend hp (.pubRec packetId)
  | pubComp packetId => exact agrees_performSend hp (.pubComp packetId)

/-! ### Receiving -/

theorem agrees_readConnack :
    Act.Agrees (Alike S l₁ l₂ n) (readConnack p₁) (readConnack p₂) := by
  refine agrees_turns.bind fun turns => .loop ?_ turns
  refine (agrees_readSomeWithTimeout hp none).bind fun readResult => ?_
  cases readResult with
  | none => exact .panic
  | some read =>
    refine .ite (.fail _) (agrees_onBytesReceived.bind fun taken => ?_)
    rcases taken with - | ⟨notification, taken⟩
    · exact .pure none
    · cases notification with
      | connAck ack =>
        exact (agrees_onRx (Buffer.agrees_removePrefix taken)).bind fun _ => .pure _
      | _ => exact .fail _

theorem agrees_nextNotificationTurn : Act.Agrees (Alike S l₁ l₂ n)
    (nextNotificationTurn p₁) (nextNotificationTurn p₂) := by
  refine (agrees_platformNow hp).bind fun now => ?_
  refine .bind (.gets fun _ _ h => by rw [h.transportClient]) fun nextPing => ?_
  refine (agrees_readSomeWithTimeout hp nextPing).bind fun readResult => ?_
  cases readResult with
  | none => exact .pure _
  | some read =>
    refine agrees_usedSlice.bind fun used => ?_
    refine .bind (.gets fun _ _ h => h.rxBuffer.capacity) fun capacity => ?_
    cases check used capacity with
    | ok => exact .pure _
    | err => exact .pure _
    | panic => exact .panic

theorem agrees_nextNotification :
    Act.Agrees (Alike S l₁ l₂ n) (nextNotification p₁) (nextNotification p₂) := by
  refine agrees_isDisconnected.bind fun _ => .ite (.fail _) ?_
  refine agrees_turns.bind fun turns => ?_
  refine (Act.Agrees.loop (agrees_nextNotificationTurn hp) turns).bind fun notification => ?_
  cases notification with
  | some notification => exact .pure _
  | none =>
    refine agrees_onBytesReceived.bind fun taken => ?_
    cases taken with
    | none => exact .fail _
    | some taken => exact .pure _

/-! ### Connecting -/

theorem agrees_awaitConnack :
    Act.Agrees (Alike S l₁ l₂ n) (awaitConnack p₁) (awaitConnack p₂) :=
  (agrees_readConnack hp).bind fun _ =>
    .bind (.ite agrees_closed (.pure ())) fun _ => .pure _

omit hp in
/-- All that a new transport does not reset is of the same size. -/
theorem Sized.opened (options : ConnectOptions) (h : Sized S l₁ l₂ w₁ w₂) :
    Alike S l₁ l₂ 0 (w₁.opened options) (w₂.opened options) where
  transportClient := by
    show TransportClient.mk _ _ w₁.client.transportClient.maxPacketSize _ =
      TransportClient.mk _ _ w₂.client.transportClient.maxPacketSize _
    rw [h.maxPacketSize]
  txLength := h.txLength
  txFront := rfl
  rxBuffer := Buffer.alike_reset h.capacity
  platform := h.platform
  log := h.log

/-- A `connect` needs nothing but the sizes. -/
theorem connect_alike (options : ConnectOptions) (h : Sized S l₁ l₂ w₁ w₂) :
    (connect p₁ options w₁).1 = (connect p₂ options w₂).1 ∧
      Alike S l₁ l₂ 0 (connect p₁ options w₁).2 (connect p₂ options w₂).2 := by
  rw [connect_opened, connect_opened]
  exact agrees_encoded options.asConnect.blind_write
    (fun _ => (agrees_writeAll hp).bind fun _ => agrees_awaitConnack hp) _ _ (h.opened options)

theorem agrees_behindConnect (call : Call) (ack : ConnAck) : Act.Agrees (Alike S l₁ l₂ 0)
    (behindConnect p₁ call ack) (behindConnect p₂ call ack) := by
  cases call with
  | connectSubscribe _ subscriptions =>
    exact .bind (.ite (agrees_writeSubscribe hp subscriptions) (.pure ())) fun _ => .pure _
  | connect | nextNotification | completeNotification | send | isDisconnected => exact .pure _

theorem perform_alike {call : Call} {options : ConnectOptions} (hc : call.connects = some options)
    (h : Sized S l₁ l₂ w₁ w₂) :
    (perform p₁ call w₁).1 = (perform p₂ call w₂).1 ∧
      Alike S l₁ l₂ 0 (perform p₁ call w₁).2 (perform p₂ call w₂).2 := by
  rw [perform_of_connects p₁ hc, perform_of_connects p₂ hc]
  exact Act.Agrees.behind (connect_alike hp options h) (agrees_behindConnect hp call)

/-! ### Sessions -/

/-- Every operation agrees on worlds that are alike. -/
theorem agrees_perform (call : Call) :
    Act.Agrees (Alike S l₁ l₂ 0) (perform p₁ call) (perform p₂ call) := by
  cases hc : call.connects with
  | some options => exact fun _ _ h => perform_alike hp hc h.sized
  | none =>
    cases call with
    | connect | connectSubscribe => cases hc
    | nextNotification => exact (agrees_nextNotification hp).bind fun _ => .pure _
    | completeNotification completion =>
      exact (agrees_completeNotification hp completion).bind fun _ => .pure _
    | send packet => exact (agrees_performSend hp packet).bind fun _ => .pure _
    | isDisconnected => exact agrees_isDisconnected.bind fun _ => .pure _

/-- Two clients in any states, with buffers of the same sizes and the same limit
of the decoder, run on platforms that give the same responses.  Both connect
with the same options, and go on with the same user, who chooses each call from
the results since then and completes the notifications among them.  Then all
calls return the same, the same bytes are written, and all reads have the same
timeouts. -/
theorem session_isolation
    (htx : w₁.client.txBuffer.length = w₂.client.txBuffer.length)
    (hrx : w₁.client.rxBuffer.buffer.length = w₂.client.rxBuffer.buffer.length)
    (hmax : w₁.client.transportClient.maxPacketSize = w₂.client.transportClient.maxPacketSize)
    (hs : S w₁.platform w₂.platform) (options : ConnectOptions)
    (user : Except (Error E) Value → Dialogue Call (fun _ => Value) (Error E) α) :
    let session : Dialogue Call (fun _ => Value) (Error E) α := .ask (.connect options) user
    let run₁ := session.run (perform p₁) w₁
    let run₂ := session.run (perform p₂) w₂
    run₁.1 = run₂.1 ∧ session.asked (perform p₁) w₁ = session.asked (perform p₂) w₂ ∧
      ∃ evs₁ evs₂, run₁.2.log = w₁.log ++ evs₁ ∧ run₂.2.log = w₂.log ++ evs₂ ∧
        written evs₁ = written evs₂ ∧ timeouts evs₁ = timeouts evs₂ := by
  intro session run₁ run₂
  have hsized : Sized S w₁.log w₂.log w₁ w₂ := ⟨htx, hrx, hmax, hs, .start⟩
  have hconnect : (Call.connect options).connects = some options := rfl
  have hsession : session.Agrees (Alike S w₁.log w₂.log 0) (perform p₁) (perform p₂) w₁ w₂ :=
    .ask (perform_alike hp hconnect hsized) fun r => (user r).agrees (agrees_perform hp)
  obtain ⟨evs₁, evs₂, hlog₁, hlog₂, hevs⟩ := hsession.related.log
  refine ⟨hsession.outcome, hsession.asked, evs₁, evs₂, hlog₁, hlog₂, ?_, ?_⟩
  · rw [← written_seen evs₁, hevs, written_seen]
  · rw [← timeouts_seen evs₁, hevs, timeouts_seen]

end Worlds

/-- A new client, and one in the middle of a session, of which the buffers hold
other bytes. -/
theorem session_isolation_stale :
    let p := streamPlatform 3
    let options : ConnectOptions := ⟨"client", none, none, 10, true⟩
    let session : Dialogue Call (fun _ => Value) (Error Unit) Unit :=
      .ask (.connect options) fun _ => .ask .nextNotification fun _ =>
        .ask (.completeNotification ⟨9, .pubAck 7⟩) fun _ => .done (.ok ())
    let stream : List UInt8 := [0x20, 2, 0, 0, 0x32, 7, 0, 1, 0x61, 0, 7, 1, 2]
    let w₁ : World (List UInt8) Unit :=
      ⟨new (List.replicate 32 0) (List.replicate 16 0), stream, []⟩
    let w₂ : World (List UInt8) Unit :=
      ⟨⟨⟨Duration.fromSecs 7, .connected, 16, ⟨99⟩⟩, List.replicate 32 0xFF,
        ⟨List.replicate 16 0xAA, 9⟩⟩, stream, []⟩
    (session.run (perform p) w₁).1 = (session.run (perform p) w₂).1 ∧
      session.asked (perform p) w₁ = session.asked (perform p) w₂ := by
  intro p options session stream w₁ w₂
  obtain ⟨hout, hasked, -⟩ := @session_isolation _ _ _ _ _ w₁ w₂ p p (streamPlatform_matches 3)
    rfl rfl rfl rfl options fun _ => .ask .nextNotification fun _ =>
      .ask (.completeNotification ⟨9, .pubAck 7⟩) fun _ => .done (.ok ())
  exact ⟨hout, hasked⟩

end NanoClient

end Umqtt
