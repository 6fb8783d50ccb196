/-
Umqtt/NanoClient/Sizes.lean

No operation changes the size of a buffer or the limit of the decoder.

This holds whatever the platform does and however the operation ends, a panic
included: the encoders keep the length of the slice they are given, a read keeps
the length of the free part, and the limit is set when the client is made.
-/
import Umqtt.NanoClient.Bounded

namespace Umqtt

open Effects Wire

namespace NanoClient

section Sizes

variable {σ E : Type} {α : Type}

/-- The sizes of the buffers and the limit of the decoder are the same. -/
structure SameSizes (w w' : World σ E) : Prop where
  txLength : w'.client.txBuffer.length = w.client.txBuffer.length
  capacity : w'.capacity = w.capacity
  maxPacketSize : w'.client.transportClient.maxPacketSize = w.client.transportClient.maxPacketSize

theorem SameSizes.refl (w : World σ E) : SameSizes w w := ⟨rfl, rfl, rfl⟩

theorem SameSizes.trans (w t u : World σ E) (h : SameSizes w t) (h' : SameSizes t u) :
    SameSizes w u :=
  ⟨h'.txLength.trans h.txLength, h'.capacity.trans h.capacity,
    h'.maxPacketSize.trans h.maxPacketSize⟩

/-- What leads from worlds to worlds of the same sizes. -/
def KeepsSizes (x : Act (World σ E) (Error E) α) : Prop := Act.Leads SameSizes x

theorem KeepsSizes.bind {β : Type} {x : Act (World σ E) (Error E) α}
    {f : α → Act (World σ E) (Error E) β} (hx : KeepsSizes x) (hf : ∀ a, KeepsSizes (f a)) :
    KeepsSizes (x >>= f) := Act.Leads.bind SameSizes.trans hx hf

theorem KeepsSizes.pure (a : α) : KeepsSizes (Pure.pure a : Act (World σ E) (Error E) α) :=
  Act.Leads.pure SameSizes.refl a

theorem KeepsSizes.gets (f : World σ E → α) : KeepsSizes (Act.gets f) :=
  Act.Leads.gets SameSizes.refl f

theorem KeepsSizes.fail (e : Error E) : KeepsSizes (Act.fail e : Act (World σ E) (Error E) α) :=
  Act.Leads.fail SameSizes.refl e

theorem KeepsSizes.ite {c : Prop} [Decidable c] {x y : Act (World σ E) (Error E) α}
    (hx : KeepsSizes x) (hy : KeepsSizes y) : KeepsSizes (if c then x else y) :=
  Act.Leads.ite hx hy

theorem KeepsSizes.loop {body : Act (World σ E) (Error E) (Option α)} (h : KeepsSizes body)
    (n : Nat) : KeepsSizes (Act.loop body n) := Act.Leads.loop SameSizes.refl SameSizes.trans h n

/-! ### The parts of the client -/

/-- The encoder keeps the length of its slice. -/
def KeepsLength (write : Act (List UInt8) WriteError α) : Prop :=
  Act.Leads (fun buf buf' => buf'.length = buf.length) write

theorem keepsSizes_onTx {write : Act (List UInt8) WriteError α} (h : KeepsLength write) :
    KeepsSizes (onTx (write.mapErr .writeError) : Act (World σ E) (Error E) α) :=
  (Act.Leads.mapErr h _).zoom fun _ _ hlen => ⟨hlen, rfl, rfl⟩

theorem keepsSizes_onRx {x : Act Buffer (Error E) α}
    (h : Act.Leads (fun b b' => b'.capacity = b.capacity) x) :
    KeepsSizes (onRx x : Act (World σ E) (Error E) α) :=
  h.zoom fun _ _ hcap => ⟨rfl, hcap, rfl⟩

theorem keepsSizes_onTransport {x : Act TransportClient (Error E) α}
    (h : Act.Leads (fun c c' => c'.maxPacketSize = c.maxPacketSize) x) :
    KeepsSizes (onTransport x : Act (World σ E) (Error E) α) :=
  h.zoom fun _ _ hmax => ⟨rfl, rfl, hmax⟩

theorem keepsSizes_closed : KeepsSizes (onTransport (Act.modify fun t => t.onTransportClosed) :
    Act (World σ E) (Error E) Unit) := keepsSizes_onTransport fun _ => rfl

theorem keepsSizes_removePrefix (len : Nat) :
    KeepsSizes (onRx (Buffer.removePrefix len) : Act (World σ E) (Error E) Unit) := by
  refine keepsSizes_onRx fun b => ?_
  rw [Buffer.removePrefix]
  split
  · rfl
  · split
    · show (overwrite b.buffer 0 _).length = b.buffer.length
      refine length_overwrite ?_
      rw [List.length_drop, List.length_take]
      omega
    · rfl

theorem keepsSizes_usedSlice : KeepsSizes (usedSlice : Act (World σ E) (Error E) (List UInt8)) :=
  SameSizes.refl

theorem keepsSizes_onBytesReceived : KeepsSizes (onBytesReceived : Act (World σ E) (Error E) _) :=
  keepsSizes_usedSlice.bind fun data => keepsSizes_onTransport fun c =>
    TransportClient.onBytesReceived_maxPacketSize c data

theorem keepsLength_writes {write : Act (List UInt8) WriteError Nat} {bs : List UInt8}
    (h : Wire.Writes WriteError.notEnoughCapacity write bs) : KeepsLength write := by
  intro buf
  by_cases hle : bs.length ≤ buf.length
  · rw [(h buf).1 hle]
    exact length_overwrite ((Nat.zero_add _).trans_le hle)
  · obtain ⟨buf', hbuf, hlen⟩ := (h buf).2 (Nat.lt_of_not_le hle)
    rw [hbuf]
    exact hlen

theorem keepsLength_connect (self : Connect) : KeepsLength self.write := by
  intro buf
  by_cases hfits : self.Fits buf.length
  · rw [Connect.write_of_fits hfits]
    exact length_overwrite ((Nat.zero_add _).trans_le hfits.2)
  · obtain ⟨e, buf', hbuf, hlen⟩ := Connect.write_of_not_fits hfits
    rw [hbuf]
    exact hlen

theorem keepsLength_publish (self : OutPublish) (topic : TopicFn) (payload : PayloadFn) :
    KeepsLength (self.write topic payload) := by
  intro buf
  by_cases h5 : 5 ≤ buf.length
  · rcases self.write_cases topic payload h5 with ⟨-, -, b, hb, hlen⟩ | ⟨e, b, hb, hlen⟩
    · rw [hb]
      exact hlen
    · rw [hb]
      exact hlen
  · rw [self.write_of_lt topic payload (Nat.lt_of_not_le h5)]

theorem keepsLength_payload (subscriptions : SubscribeFn) : KeepsLength
    (onBuffer (do
      subscriptions.run SubscribeWriter.answer
      Act.gets Filled.len) : Act (List UInt8) WriteError Nat) := by
  intro buf
  obtain ⟨-, hcap, -⟩ := SubscribeWriter.run_grows subscriptions (Filled.empty buf)
  rw [onBuffer, Act.zoom_apply, Act.bind_apply]
  rcases hrun : subscriptions.run SubscribeWriter.answer (Filled.empty buf) with ⟨r, b⟩
  rw [hrun] at hcap
  cases r <;> exact hcap

/-! ### The operations -/

variable (p : Platform σ E)

theorem keepsSizes_writeBuffer (buf : List UInt8) : KeepsSizes (writeBuffer p buf) := by
  refine (KeepsSizes.gets _).bind fun closed => .ite (.fail _) ?_
  have hwrite : KeepsSizes (platformWriteAll p buf) := fun w => ⟨rfl, rfl, rfl⟩
  refine hwrite.bind fun result => ?_
  cases result with
  | ok =>
    have hnow : KeepsSizes (platformNow p) := fun w => ⟨rfl, rfl, rfl⟩
    exact hnow.bind fun now => keepsSizes_onTransport fun c => c.onPacketSent_maxPacketSize now
  | error e => exact keepsSizes_closed.bind fun _ => .fail _

theorem keepsSizes_writeAll (size : Nat) : KeepsSizes (writeAll p size) :=
  (KeepsSizes.gets _).bind fun _ =>
    KeepsSizes.bind SameSizes.refl fun _ => keepsSizes_writeBuffer p _

theorem keepsSizes_sendPacket {write : Act (List UInt8) WriteError Nat} (h : KeepsLength write) :
    KeepsSizes (sendPacket p write) := (keepsSizes_onTx h).bind fun _ => keepsSizes_writeAll p _

theorem keepsSizes_performSend (packet : Send) : KeepsSizes (performSend p packet) := by
  cases packet with
  | pingRequest => exact keepsSizes_sendPacket p (keepsLength_writes (writes_writeEmpty 0xC0))
  | pubAck id => exact keepsSizes_sendPacket p (keepsLength_writes (writes_writeAck 0x40 id))
  | pubRec id => exact keepsSizes_sendPacket p (keepsLength_writes (writes_writeAck 0x50 id))
  | pubComp id => exact keepsSizes_sendPacket p (keepsLength_writes (writes_writeAck 0x70 id))
  | publish | publishQos0 | publishQos1 =>
    exact (keepsSizes_onTx (keepsLength_publish _ _ _)).bind fun _ => keepsSizes_writeBuffer p _

theorem keepsSizes_readSomeWithTimeout (timeout : Option Duration) :
    KeepsSizes (readSomeWithTimeout p timeout) := by
  intro w
  have h := someRead p timeout w
  generalize (readSomeWithTimeout p timeout w).1 = r at h
  generalize (readSomeWithTimeout p timeout w).2 = w' at h ⊢
  -- the slice that a read leaves is as long as the one it was given
  have hstore : ∀ {result : Except E (Option Nat)} {buf : List UInt8} {s : σ}, w.Valid →
      p.readSome (w.client.rxBuffer.buffer.drop w.client.rxBuffer.used) timeout w.platform =
        ((result, buf), s) → (w.client.rxBuffer.storeUnused buf).capacity = w.capacity := by
    intro result buf s hv hread
    have hlen := p.length_readSome (w.client.rxBuffer.buffer.drop w.client.rxBuffer.used) timeout
      w.platform
    rw [hread, List.length_drop] at hlen
    exact Buffer.capacity_storeUnused hv hlen
  cases h with
  | invalid => exact .refl _
  | idle hv hread | eof hv hread | failed hv hread | bytes hv _ hread =>
    exact ⟨rfl, hstore hv hread, rfl⟩

theorem keepsSizes_turns : KeepsSizes (turns : Act (World σ E) (Error E) Nat) := .gets _

theorem keepsSizes_readConnack : KeepsSizes (readConnack p) := by
  refine keepsSizes_turns.bind fun n => .loop ?_ n
  refine (keepsSizes_readSomeWithTimeout p none).bind fun readResult => ?_
  cases readResult with
  | none => exact SameSizes.refl
  | some n =>
    refine .ite (.fail _) (keepsSizes_onBytesReceived.bind fun received => ?_)
    rcases received with - | ⟨⟨ack⟩ | _, taken⟩
    · exact .pure _
    · exact (keepsSizes_removePrefix taken).bind fun _ => .pure _
    all_goals exact .fail _

theorem keepsSizes_connect (options : ConnectOptions) : KeepsSizes (connect p options) := by
  refine (keepsSizes_onTransport fun _ => rfl).bind fun _ => ?_
  refine (keepsSizes_onRx fun _ => rfl).bind fun _ => ?_
  refine (keepsSizes_onTx (keepsLength_connect _)).bind fun _ => ?_
  refine (keepsSizes_writeAll p _).bind fun _ => ?_
  exact (keepsSizes_readConnack p).bind fun _ =>
    KeepsSizes.bind (.ite keepsSizes_closed (.pure ())) fun _ => .pure _

theorem keepsSizes_connectSubscribe (options : ConnectOptions) (subscriptions : SubscribeFn) :
    KeepsSizes (connectSubscribe p options subscriptions) := by
  have hsubscribe : KeepsSizes (writeSubscribe p subscriptions) := by
    refine (keepsSizes_onTx (keepsLength_payload subscriptions)).bind fun _ => ?_
    exact KeepsSizes.bind SameSizes.refl fun _ => (keepsSizes_writeBuffer p _).bind fun _ =>
      keepsSizes_writeAll p _
  exact (keepsSizes_connect p options).bind fun _ =>
    KeepsSizes.bind (.ite hsubscribe (.pure ())) fun _ => .pure _

theorem keepsSizes_nextNotification : KeepsSizes (nextNotification p) := by
  refine (KeepsSizes.gets _).bind fun _ => .ite (.fail _) (keepsSizes_turns.bind fun n => ?_)
  have hnow : KeepsSizes (platformNow p) := fun w => ⟨rfl, rfl, rfl⟩
  have hturn : KeepsSizes (nextNotificationTurn p) := by
    refine hnow.bind fun now => (KeepsSizes.gets _).bind fun nextPing => ?_
    refine (keepsSizes_readSomeWithTimeout p nextPing).bind fun readResult => ?_
    cases readResult with
    | none => exact .pure _
    | some n =>
      refine keepsSizes_usedSlice.bind fun used => (KeepsSizes.gets _).bind fun capacity => ?_
      cases check used capacity with
      | ok | err => exact .pure _
      | panic => exact SameSizes.refl
  refine (hturn.loop n).bind fun r => ?_
  cases r with
  | some notification => exact .pure _
  | none =>
    refine keepsSizes_onBytesReceived.bind fun received => ?_
    cases received with
    | none => exact .fail _
    | some received => exact .pure _

theorem keepsSizes_completeNotification (completion : NotificationCompletion) :
    KeepsSizes (completeNotification p completion) := by
  refine KeepsSizes.bind (.ite (keepsSizes_removePrefix _) (.pure ())) fun _ => ?_
  rcases completion with ⟨_, _ | _ | packetId | packetId | packetId⟩
  · exact .pure ()
  · exact keepsSizes_performSend p .pingRequest
  · exact keepsSizes_performSend p (.pubAck packetId)
  · exact keepsSizes_performSend p (.pubRec packetId)
  · exact keepsSizes_performSend p (.pubComp packetId)

/-- Every operation. -/
theorem keepsSizes_perform (call : Call) : KeepsSizes (perform p call) := by
  cases call with
  | connect options => exact (keepsSizes_connect p options).bind fun _ => .pure _
  | connectSubscribe options subscriptions =>
    exact (keepsSizes_connectSubscribe p options subscriptions).bind fun _ => .pure _
  | nextNotification => exact (keepsSizes_nextNotification p).bind fun _ => .pure _
  | completeNotification completion =>
    exact (keepsSizes_completeNotification p completion).bind fun _ => .pure _
  | send packet => exact (keepsSizes_performSend p packet).bind fun _ => .pure _
  | isDisconnected => exact (KeepsSizes.gets _).bind fun _ => .pure _

end Sizes

end NanoClient

end Umqtt
