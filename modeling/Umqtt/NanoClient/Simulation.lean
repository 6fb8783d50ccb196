/-
Umqtt/NanoClient/Simulation.lean

What it takes for one client to do what another does.

`Simulates P R` lists what a relation `R` between two worlds has to do: the
receive buffers are equal, and every step of the client that looks at anything
else is followed by the same step of the other one.  Then all operations are
followed that receive; those that send are followed if their encoders are.
-/
import Umqtt.Lib.Simulation
import Umqtt.NanoClient.Handshake

namespace Umqtt

open Effects Wire

namespace NanoClient

section Simulation

variable {σ₁ σ₂ E : Type}

/-- The steps of the client on `p₁` are followed by those of the client on `p₂`. -/
structure Simulates (P : Option (Error E) → Prop) (R : World σ₁ E → World σ₂ E → Prop)
    (p₁ : Platform σ₁ E) (p₂ : Platform σ₂ E) : Prop where
  isDisconnected : ∀ {w u}, R w u → w.client.isDisconnected = u.client.isDisconnected
  rxBuffer : ∀ {w u}, R w u → w.client.rxBuffer = u.client.rxBuffer
  withRx : ∀ {w u} b, R w u → R (w.withRx b) (u.withRx b)
  opened : ∀ {w u} options, R w u → R (w.opened options) (u.opened options)
  closed : ∀ {w u}, R w u → R w.closed u.closed
  received : ∀ data, Act.Follows P R
    (onTransport ((TransportClient.onBytesReceived data).mapErr .readError))
    (onTransport ((TransportClient.onBytesReceived data).mapErr .readError))
  written : ∀ buf, Act.Follows P R (platformWriteAll p₁ buf) (platformWriteAll p₂ buf)
  readSome : ∀ timeout,
    Act.Follows P R (platformReadSome p₁ timeout) (platformReadSome p₂ timeout)
  sent : Act.Follows P R
    (do let now ← platformNow p₁
        onTransport (Act.modify fun t => t.onPacketSent now))
    (do let now ← platformNow p₂
        onTransport (Act.modify fun t => t.onPacketSent now))
  due : Act.Follows P R
    (do let now ← platformNow p₁
        Act.gets fun w => w.client.transportClient.nextPingIn now)
    (do let now ← platformNow p₂
        Act.gets fun w => w.client.transportClient.nextPingIn now)

variable {P : Option (Error E) → Prop} {R : World σ₁ E → World σ₂ E → Prop}
  {p₁ : Platform σ₁ E} {p₂ : Platform σ₂ E} (h : Simulates P R p₁ p₂)

include h

/-! ### The parts of the client -/

theorem follows_isDisconnected : Act.Follows P R
    (Act.gets fun w => w.client.isDisconnected : Act (World σ₁ E) (Error E) Bool)
    (Act.gets fun w => w.client.isDisconnected) :=
  (Act.Agrees.gets fun _ _ hwu => h.isDisconnected hwu).follows

theorem follows_onRx {α : Type} (x : Act Buffer (Error E) α) :
    Act.Follows P R (onRx x) (onRx x) := by
  refine ((Act.Agrees.refl x).zoom (fun _ _ hwu => h.rxBuffer hwu) ?_).follows
  rintro w u b _ hwu rfl
  exact h.withRx b hwu

theorem follows_usedSlice : Act.Follows P R usedSlice usedSlice := fun _ _ hwu =>
  .inr ⟨congrArg Buffer.usedSlice (h.rxBuffer hwu), hwu⟩

theorem follows_onBytesReceived : Act.Follows P R onBytesReceived onBytesReceived :=
  (follows_usedSlice h).bind h.received

theorem follows_turns : Act.Follows P R turns turns :=
  (Act.Agrees.gets fun _ _ hwu => by rw [h.rxBuffer hwu]).follows

theorem follows_closed : Act.Follows P R
    (onTransport (Act.modify fun t => t.onTransportClosed) : Act (World σ₁ E) (Error E) Unit)
    (onTransport (Act.modify fun t => t.onTransportClosed)) :=
  fun _ _ hwu => .inr ⟨rfl, h.closed hwu⟩

omit h in
theorem follows_fail {α : Type} (e : Error E) :
    Act.Follows P R (Act.fail e : Act (World σ₁ E) (Error E) α) (Act.fail e) :=
  (Act.Agrees.fail e).follows

omit h in
theorem follows_pure {α : Type} (a : α) :
    Act.Follows P R (pure a : Act (World σ₁ E) (Error E) α) (pure a) := (Act.Agrees.pure a).follows

omit h in
theorem follows_panic {α : Type} :
    Act.Follows P R (Act.panic : Act (World σ₁ E) (Error E) α) Act.panic :=
  Act.Agrees.panic.follows

/-! ### Writing and reading -/

theorem follows_writeBuffer (buf : List UInt8) :
    Act.Follows P R (writeBuffer p₁ buf) (writeBuffer p₂ buf) := by
  refine (follows_isDisconnected h).bind fun _ => .ite (follows_fail _) ?_
  refine (h.written buf).bind fun result => ?_
  cases result with
  | ok => exact h.sent
  | error e => exact (follows_closed h).bind fun _ => follows_fail _

theorem follows_readSomeWithTimeout (timeout : Option Duration) :
    Act.Follows P R (readSomeWithTimeout p₁ timeout) (readSomeWithTimeout p₂ timeout) := by
  refine (h.readSome timeout).bind fun result => ?_
  rcases result with e | - | n
  · exact (follows_closed h).bind fun _ => follows_fail _
  · exact follows_pure none
  · exact .ite ((follows_closed h).bind fun _ => follows_fail _)
      ((follows_onRx h _).bind fun _ => follows_pure _)

/-! ### Receiving -/

theorem follows_takeConnack : Act.Follows P R takeConnack takeConnack := by
  refine (follows_onBytesReceived h).bind fun taken => ?_
  rcases taken with - | ⟨notification, taken⟩
  · exact follows_pure none
  · cases notification with
    | connAck ack => exact (follows_onRx h _).bind fun _ => follows_pure _
    | _ => exact follows_fail _

theorem follows_readConnack : Act.Follows P R (readConnack p₁) (readConnack p₂) := by
  refine (follows_turns h).bind fun n => .loop ?_ n
  refine (follows_readSomeWithTimeout h none).bind fun readResult => ?_
  cases readResult with
  | none => exact follows_panic
  | some n => exact .ite (follows_fail _) (follows_takeConnack h)

theorem follows_checkUsed : Act.Follows P R checkUsed checkUsed := by
  refine (follows_usedSlice h).bind fun used => ?_
  refine .bind (Act.Agrees.gets fun _ _ hwu => by rw [h.rxBuffer hwu]).follows fun capacity => ?_
  cases check used capacity with
  | ok => exact follows_pure _
  | err => exact follows_pure _
  | panic => exact follows_panic

omit h in
/-- The timeout of a turn is a step of its own. -/
theorem nextNotificationTurn_bind {σ : Type} (p : Platform σ E) : nextNotificationTurn p =
    (do let now ← platformNow p
        Act.gets fun w => w.client.transportClient.nextPingIn now) >>= fun nextPing =>
      readSomeWithTimeout p nextPing >>= behindRead := (Act.bind_assoc _ _ _).symm

theorem follows_nextNotificationTurn :
    Act.Follows P R (nextNotificationTurn p₁) (nextNotificationTurn p₂) := by
  rw [nextNotificationTurn_bind, nextNotificationTurn_bind]
  refine h.due.bind fun nextPing => ?_
  refine (follows_readSomeWithTimeout h nextPing).bind fun readResult => ?_
  cases readResult with
  | none => exact follows_pure _
  | some n => exact follows_checkUsed h

theorem follows_nextNotification :
    Act.Follows P R (nextNotification p₁) (nextNotification p₂) := by
  refine (follows_isDisconnected h).bind fun _ => .ite (follows_fail _) ?_
  refine (follows_turns h).bind fun n => ?_
  refine (Act.Follows.loop (follows_nextNotificationTurn h) n).bind fun notification => ?_
  cases notification with
  | some notification => exact follows_pure _
  | none =>
    refine (follows_onBytesReceived h).bind fun taken => ?_
    cases taken with
    | none => exact follows_fail _
    | some taken => exact follows_pure _

/-! ### Sending and connecting -/

/-- Completing a notification is followed, if the packet of its action is. -/
theorem follows_completeNotification (completion : NotificationCompletion)
    (hsend : ∀ packet, packetOf completion.action = some packet →
      Act.Follows P R (performSend p₁ packet) (performSend p₂ packet)) :
    Act.Follows P R (completeNotification p₁ completion) (completeNotification p₂ completion) := by
  obtain ⟨taken, action⟩ := completion
  refine .bind (.ite (follows_onRx h _) (follows_pure ())) fun _ => ?_
  cases action with
  | none => exact follows_pure ()
  | pingReq | pubAck | pubRec | pubComp => exact hsend _ rfl

theorem follows_awaitConnack : Act.Follows P R (awaitConnack p₁) (awaitConnack p₂) :=
  (follows_readConnack h).bind fun _ =>
    .bind (.ite (follows_closed h) (follows_pure ())) fun _ => follows_pure _

/-- A `connect` is followed, if the CONNECT is that is encoded and written. -/
theorem follows_connect (options : ConnectOptions)
    (hwrite : Act.Follows P R
      (onTx (options.asConnect.write.mapErr .writeError) >>= writeAll p₁)
      (onTx (options.asConnect.write.mapErr .writeError) >>= writeAll p₂)) :
    Act.Follows P R (connect p₁ options) (connect p₂ options) := by
  intro w u hwu
  rw [connect_opened, connect_opened]
  have hconnect := hwrite.bind (f := fun _ => awaitConnack p₁) (g := fun _ => awaitConnack p₂)
    fun _ => follows_awaitConnack h
  rw [Act.bind_assoc, Act.bind_assoc] at hconnect
  exact hconnect _ _ (h.opened options hwu)

theorem follows_connectSubscribe (options : ConnectOptions) (subscriptions : SubscribeFn)
    (hwrite : Act.Follows P R
      (onTx (options.asConnect.write.mapErr .writeError) >>= writeAll p₁)
      (onTx (options.asConnect.write.mapErr .writeError) >>= writeAll p₂))
    (hsubscribe : Act.Follows P R (writeSubscribe p₁ subscriptions)
      (writeSubscribe p₂ subscriptions)) :
    Act.Follows P R (connectSubscribe p₁ options subscriptions)
      (connectSubscribe p₂ options subscriptions) :=
  (follows_connect h options hwrite).bind fun _ =>
    .bind (.ite hsubscribe (follows_pure ())) fun _ => follows_pure _

/-- The packet that a call sends behind the handshake. -/
def Call.packet : Call → Option Send
  | .send packet => some packet
  | .completeNotification completion => packetOf completion.action
  | .connect _ | .connectSubscribe _ _ | .nextNotification | .isDisconnected => none

/-- A call is followed, if the packets are that it sends. -/
theorem follows_perform {call : Call}
    (hconnect : ∀ options : ConnectOptions, Act.Follows P R
      (onTx (options.asConnect.write.mapErr .writeError) >>= writeAll p₁)
      (onTx (options.asConnect.write.mapErr .writeError) >>= writeAll p₂))
    (hsubscribe : ∀ options subscriptions, call = .connectSubscribe options subscriptions →
      Act.Follows P R (writeSubscribe p₁ subscriptions) (writeSubscribe p₂ subscriptions))
    (hsend : ∀ packet, call.packet = some packet →
      Act.Follows P R (performSend p₁ packet) (performSend p₂ packet)) :
    Act.Follows P R (perform p₁ call) (perform p₂ call) := by
  cases call with
  | connect options =>
    exact (follows_connect h options (hconnect options)).bind fun _ => follows_pure _
  | connectSubscribe options subscriptions =>
    exact (follows_connectSubscribe h options subscriptions (hconnect options)
      (hsubscribe options subscriptions rfl)).bind fun _ => follows_pure _
  | nextNotification => exact (follows_nextNotification h).bind fun _ => follows_pure _
  | completeNotification completion =>
    exact (follows_completeNotification h completion hsend).bind fun _ => follows_pure _
  | send packet => exact (hsend packet rfl).bind fun _ => follows_pure _
  | isDisconnected => exact (follows_isDisconnected h).bind fun _ => follows_pure _

end Simulation

/-! ### Clients with another tx buffer -/

section OtherTx

variable {σ E α : Type}

/-- The same client, with a tx buffer that `L` relates to its own. -/
inductive OtherTx (L : List UInt8 → List UInt8 → Prop) (w : World σ E) : World σ E → Prop where
  | withTx {tx : List UInt8} : L w.client.txBuffer tx → OtherTx L w (w.withTx tx)

variable {L : List UInt8 → List UInt8 → Prop} {P : Option (Error E) → Prop}

theorem OtherTx.same {w u : World σ E} (h : OtherTx L w u) :
    w.client.transportClient = u.client.transportClient ∧ w.client.rxBuffer = u.client.rxBuffer ∧
      w.platform = u.platform ∧ w.log = u.log := by
  obtain ⟨-⟩ := h
  exact ⟨rfl, rfl, rfl, rfl⟩

theorem otherTx_onTransport {ε : Type} {P : Option ε → Prop} (x : Act TransportClient ε α) :
    Act.Follows P (OtherTx L) (onTransport x : Act (World σ E) ε α) (onTransport x) := by
  rintro w _ ⟨h⟩
  exact .inr ⟨rfl, .withTx (w := (onTransport x w).2) h⟩

variable (p : Platform σ E)

theorem otherTx_platformNow :
    Act.Follows P (OtherTx L) (platformNow p) (platformNow p) := by
  rintro w _ ⟨h⟩
  exact .inr ⟨rfl, .withTx (w := (platformNow p w).2) h⟩

/-- No step but an encoder looks at the tx buffer. -/
theorem simulates_otherTx : Simulates P (OtherTx L) p p where
  isDisconnected h := congrArg TransportClient.isDisconnected h.same.1
  rxBuffer h := h.same.2.1
  withRx b h := by
    obtain ⟨h⟩ := h
    exact .withTx (w := World.withRx b _) h
  opened options h := by
    obtain ⟨h⟩ := h
    exact .withTx (w := World.opened options _) h
  closed h := by
    obtain ⟨h⟩ := h
    exact .withTx (w := World.closed _) h
  received data := otherTx_onTransport _
  written buf := by
    rintro w _ ⟨h⟩
    exact .inr ⟨rfl, .withTx (w := (platformWriteAll p buf w).2) h⟩
  readSome timeout := by
    rintro w _ ⟨h⟩
    rw [platformReadSome, platformReadSome]
    cases hunused : (w.client.rxBuffer.unusedSlice : Outcome (Error E) (List UInt8)) with
    | ok unused =>
      simp only [World.withTx, hunused]
      exact .inr ⟨trivial, .withTx (w := ⟨_, _, _⟩) h⟩
    | err e =>
      simp only [World.withTx, hunused]
      exact .inr ⟨trivial, .withTx h⟩
    | panic =>
      simp only [World.withTx, hunused]
      exact .inr ⟨trivial, .withTx h⟩
  sent := (otherTx_platformNow p).bind fun _ => otherTx_onTransport _
  due := (otherTx_platformNow p).bind fun _ =>
    (Act.Agrees.gets fun _ _ h => by rw [h.same.1]).follows

end OtherTx

end NanoClient

end Umqtt
