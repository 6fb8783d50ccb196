/-
Umqtt/NanoClient/Epoch.lean

The epoch that a platform counts its time from does not show.

A platform may count from any point in time.  Two platforms that give the same
responses, of which the second counts from a point that is `d` milliseconds
earlier (`Platform.Earlier`), run the same client: it writes the same bytes and
waits as long, and only what it reads off the clock is different.  The deadline
of the keep-alive is the one thing that is counted from the epoch and kept; a
client that has sent nothing since the transport was opened has a deadline of
zero on both, which has passed on both.
-/
import Umqtt.NanoClient.Schedule
import Umqtt.NanoClient.Simulation

namespace Umqtt

open Effects Wire

/-! ### Points in time, counted from an earlier one -/

namespace Instant

/-- The same point in time, counted from `d` milliseconds earlier. -/
def shift (d : UInt64) (t : Instant) : Instant := ⟨t.milliseconds + d⟩

variable {d : UInt64} {t t' : Instant}

theorem toNat_shift (h : t.milliseconds.toNat + d.toNat < 2 ^ 64) :
    (t.shift d).milliseconds.toNat = t.milliseconds.toNat + d.toNat := by
  show (t.milliseconds + d).toNat = _
  rw [UInt64.toNat_add, Nat.mod_eq_of_lt h]

theorem add_shift {k : Duration} (h : t.milliseconds.toNat + d.toNat + k.asMillis < 2 ^ 64) :
    (t.shift d).add k = (t.add k).shift d := by
  have hd : t.milliseconds.toNat + d.toNat < 2 ^ 64 := by omega
  have hk : t.milliseconds.toNat + k.asMillis < 2 ^ 64 := by omega
  have hsum := toNat_add_of_lt hk
  have hsum' : ((t.shift d).add k).milliseconds.toNat =
      t.milliseconds.toNat + d.toNat + k.asMillis := by
    rw [toNat_add_of_lt (by rw [toNat_shift hd]; exact h), toNat_shift hd]
  have hmillis : ((t.shift d).add k).milliseconds = ((t.add k).shift d).milliseconds := by
    apply UInt64.toNat_inj.mp
    rw [hsum', toNat_shift (by rw [hsum]; omega), hsum]
    omega
  exact congrArg Instant.mk hmillis

/-- What is left until a point in time does not depend on the epoch. -/
theorem since_shift (h : t.milliseconds.toNat + d.toNat < 2 ^ 64)
    (h' : t'.milliseconds.toNat + d.toNat < 2 ^ 64) :
    (t.shift d).since (t'.shift d) = t.since t' := by
  have hmillis : saturatingSub (t.shift d).milliseconds (t'.shift d).milliseconds =
      saturatingSub t.milliseconds t'.milliseconds := by
    apply UInt64.toNat_inj.mp
    rw [toNat_saturatingSub, toNat_saturatingSub, toNat_shift h, toNat_shift h']
    omega
  exact congrArg Duration.fromMillis hmillis

/-- Nothing is left until the epoch. -/
theorem since_epoch (t : Instant) : epoch.since t = Duration.fromMillis 0 := by
  have hmillis : saturatingSub 0 t.milliseconds = 0 := by
    apply UInt64.toNat_inj.mp
    rw [toNat_saturatingSub]
    exact Nat.zero_sub _
  exact congrArg Duration.fromMillis hmillis

end Instant

/-- The platform `p₂` gives the same responses as `p₁`, and counts from `d`
milliseconds earlier.  Its clock is far enough from its end for every
keep-alive. -/
structure Platform.Earlier {σ₁ σ₂ E : Type} (p₁ : Platform σ₁ E) (p₂ : Platform σ₂ E)
    (S : σ₁ → σ₂ → Prop) (d : UInt64) : Prop where
  writeAll : ∀ {s₁ s₂} buf, S s₁ s₂ →
    (p₁.writeAll buf s₁).1 = (p₂.writeAll buf s₂).1 ∧
      S (p₁.writeAll buf s₁).2 (p₂.writeAll buf s₂).2
  readSome : ∀ {s₁ s₂} buf timeout, S s₁ s₂ →
    (p₁.readSome buf timeout s₁).1 = (p₂.readSome buf timeout s₂).1 ∧
      S (p₁.readSome buf timeout s₁).2 (p₂.readSome buf timeout s₂).2
  now : ∀ {s₁ s₂}, S s₁ s₂ →
    (p₂.now s₂).1 = (p₁.now s₁).1.shift d ∧ S (p₁.now s₁).2 (p₂.now s₂).2
  steady : ∀ {s₁ s₂}, S s₁ s₂ →
    (p₁.now s₁).1.milliseconds.toNat + d.toNat < 2 ^ 64 - 65535000

/-- The same platform, counting from `d` milliseconds earlier. -/
def Platform.shift {σ E : Type} (d : UInt64) (p : Platform σ E) : Platform σ E :=
  { p with now := fun s => ((p.now s).1.shift d, (p.now s).2) }

theorem Platform.earlier_shift {σ E : Type} {p : Platform σ E} {d : UInt64}
    (h : ∀ s, (p.now s).1.milliseconds.toNat + d.toNat < 2 ^ 64 - 65535000) :
    p.Earlier (p.shift d) Eq d where
  writeAll := by
    rintro s _ buf rfl
    exact ⟨rfl, rfl⟩
  readSome := by
    rintro s _ buf timeout rfl
    exact ⟨rfl, rfl⟩
  now := by
    rintro s _ rfl
    exact ⟨rfl, rfl⟩
  steady := by
    rintro s _ rfl
    exact h s

/-! ### Clients that count from an earlier point in time -/

namespace TransportClient

/-- The deadline of `t'` is that of `t`, or both have sent nothing since the
transport was opened.  All else is the same. -/
structure Earlier (d : UInt64) (t t' : TransportClient) : Prop where
  same : t' = { t with packetSendAt := t'.packetSendAt }
  short : t.keepAlive.asMillis ≤ 65535000
  sendAt : t.packetSendAt = .epoch ∧ t'.packetSendAt = .epoch ∨
    t'.packetSendAt = t.packetSendAt.shift d ∧
      t.packetSendAt.milliseconds.toNat + d.toNat < 2 ^ 64

variable {d : UInt64} {t t' : TransportClient}

theorem earlier_new (d : UInt64) (maxPacketSize : Nat) :
    (TransportClient.new maxPacketSize).Earlier d (TransportClient.new maxPacketSize) :=
  ⟨rfl, show (Duration.fromSecs 0).asMillis ≤ 65535000 by decide, .inl ⟨rfl, rfl⟩⟩

theorem Earlier.opened (h : t.Earlier d t') (options : ConnectOptions) :
    (t.onTransportOpened options).Earlier d (t'.onTransportOpened options) where
  same := by rw [h.same]; rfl
  short := by
    have hlt := options.keepAlive.toNat_lt
    have hmillis := Duration.asMillis_ofKeepAlive options.keepAlive
    show (Duration.ofKeepAlive options.keepAlive).asMillis ≤ _
    omega
  sendAt := .inl ⟨rfl, rfl⟩

theorem Earlier.closed (h : t.Earlier d t') : t.onTransportClosed.Earlier d t'.onTransportClosed :=
  ⟨by rw [h.same]; rfl, h.short, h.sendAt⟩

theorem Earlier.isDisconnected (h : t.Earlier d t') : t.isDisconnected = t'.isDisconnected := by
  rw [h.same]
  rfl

/-- The deadline of the next ping is as far away. -/
theorem Earlier.sent (h : t.Earlier d t') {now : Instant}
    (hnow : now.milliseconds.toNat + d.toNat < 2 ^ 64 - 65535000) :
    (t.onPacketSent now).Earlier d (t'.onPacketSent (now.shift d)) := by
  have hshort := h.short
  have hkeep : t'.keepAlive = t.keepAlive := by rw [h.same]
  rw [onPacketSent, onPacketSent, hkeep]
  split
  · have hsum := @Instant.toNat_add_of_lt now t.keepAlive (by omega)
    refine ⟨by rw [h.same], h.short, .inr ⟨Instant.add_shift (by omega), ?_⟩⟩
    show (now.add t.keepAlive).milliseconds.toNat + d.toNat < 2 ^ 64
    omega
  · exact h

theorem Earlier.nextPingIn (h : t.Earlier d t') {now : Instant}
    (hnow : now.milliseconds.toNat + d.toNat < 2 ^ 64 - 65535000) :
    t.nextPingIn now = t'.nextPingIn (now.shift d) := by
  have hkeep : t'.keepAlive = t.keepAlive := by rw [h.same]
  have hsince : t.packetSendAt.since now = t'.packetSendAt.since (now.shift d) := by
    rcases h.sendAt with ⟨hepoch, hepoch'⟩ | ⟨hshift, hlt⟩
    · rw [hepoch, hepoch', Instant.since_epoch, Instant.since_epoch]
    · rw [hshift, Instant.since_shift hlt (by omega)]
  rw [TransportClient.nextPingIn, TransportClient.nextPingIn, hkeep, hsince]

/-- What a call on received bytes does has nothing to do with the deadline. -/
theorem onBytesReceived_sendAt (t : TransportClient) (data : List UInt8) (sendAt : Instant) :
    onBytesReceived data { t with packetSendAt := sendAt } =
      ((onBytesReceived data t).1, { (onBytesReceived data t).2 with packetSendAt := sendAt }) := by
  obtain ⟨keepAlive, state, maxPacketSize, was⟩ := t
  cases state with
  | disconnected => rfl
  | transportConnected =>
    simp only [onBytesReceived, onHandshakeBytes]
    split <;> try rfl
    split <;> rfl
  | connected =>
    simp only [onBytesReceived, onSessionBytes]
    split <;> rfl

theorem agrees_onBytesReceived (data : List UInt8) :
    Act.Agrees (Earlier d) (onBytesReceived data) (onBytesReceived data) := by
  intro t t' h
  have hkeeps : (onBytesReceived data t).2.keepAlive = t.keepAlive ∧
      (onBytesReceived data t).2.packetSendAt = t.packetSendAt := by
    have hr := received t data
    generalize (onBytesReceived data t).1 = r at hr
    generalize (onBytesReceived data t).2 = u at hr ⊢
    cases hr <;> exact ⟨rfl, rfl⟩
  have hsame := onBytesReceived_sendAt t data t'.packetSendAt
  rw [← h.same] at hsame
  rw [hsame]
  refine ⟨rfl, rfl, ?_, ?_⟩
  · rw [hkeeps.1]
    exact h.short
  · rw [hkeeps.2]
    exact h.sendAt

end TransportClient

namespace NanoClient

/-- The same call of a platform that counts from an earlier point in time. -/
def Event.shift {E : Type} (d : UInt64) : Event E → Event E
  | .clock now => .clock (now.shift d)
  | e => e

theorem timeouts_shift {E : Type} (d : UInt64) (evs : List (Event E)) :
    timeouts (evs.map (Event.shift d)) = timeouts evs := by
  have hshift : Event.timeout ∘ Event.shift d = (Event.timeout : Event E → _) := by
    funext e
    cases e <;> rfl
  rw [timeouts, List.filterMap_map, hshift, timeouts]

section Epoch

variable {σ₁ σ₂ E α : Type} {S : σ₁ → σ₂ → Prop} {d : UInt64}

/-- The same session, on a platform that counts from an earlier point in time. -/
structure World.Earlier (S : σ₁ → σ₂ → Prop) (d : UInt64) (w : World σ₁ E) (u : World σ₂ E) :
    Prop where
  transportClient : w.client.transportClient.Earlier d u.client.transportClient
  txBuffer : w.client.txBuffer = u.client.txBuffer
  rxBuffer : w.client.rxBuffer = u.client.rxBuffer
  platform : S w.platform u.platform
  log : u.log = w.log.map (Event.shift d)

variable {p₁ : Platform σ₁ E} {p₂ : Platform σ₂ E} {w : World σ₁ E} {u : World σ₂ E}

theorem World.Earlier.log_snoc (h : w.Earlier S d u) (e : Event E) :
    u.log ++ [e.shift d] = (w.log ++ [e]).map (Event.shift d) := by
  rw [h.log, List.map_append, List.map_singleton]

theorem earlier_platformNow (hp : p₁.Earlier p₂ S d) {f : Instant → Act (World σ₁ E) (Error E) α}
    {g : Instant → Act (World σ₂ E) (Error E) α}
    (hf : ∀ now, now.milliseconds.toNat + d.toNat < 2 ^ 64 - 65535000 →
      Act.Agrees (World.Earlier S d) (f now) (g (now.shift d))) :
    Act.Agrees (World.Earlier S d) (platformNow p₁ >>= f) (platformNow p₂ >>= g) := by
  intro w u h
  obtain ⟨hnow, hs⟩ := hp.now h.platform
  have hclocked : (w.clocked (p₁.now w.platform).1 (p₁.now w.platform).2).Earlier S d
      (u.clocked (p₂.now u.platform).1 (p₂.now u.platform).2) := by
    refine ⟨h.transportClient, h.txBuffer, h.rxBuffer, hs, ?_⟩
    rw [hnow]
    exact h.log_snoc (.clock _)
  have hrest := hf _ (hp.steady h.platform) _ _ hclocked
  rw [← hnow] at hrest
  exact hrest

/-- The steps of a client are those on a platform that counts from an earlier point
in time. -/
theorem simulates_earlier (hp : p₁.Earlier p₂ S d) :
    Simulates (fun _ => False) (World.Earlier S d) p₁ p₂ where
  isDisconnected h := h.transportClient.isDisconnected
  rxBuffer h := h.rxBuffer
  withRx b h := { h with rxBuffer := rfl }
  opened options h := { h with
    transportClient := h.transportClient.opened options
    rxBuffer := congrArg Buffer.reset h.rxBuffer }
  closed h := { h with transportClient := h.transportClient.closed }
  received data := (((TransportClient.agrees_onBytesReceived data).mapErr _).zoom
    (fun _ _ h => h.transportClient) fun _ _ _ _ h ht => { h with transportClient := ht }).follows
  written buf := by
    refine Act.Agrees.follows fun w u h => ?_
    obtain ⟨hout, hs⟩ := hp.writeAll buf h.platform
    have hstate : w.client.transportClient.state = u.client.transportClient.state := by
      rw [h.transportClient.same]
    refine ⟨congrArg Outcome.ok hout, h.transportClient, h.txBuffer, h.rxBuffer, hs, ?_⟩
    show u.log ++ [.wrote u.client.transportClient.state buf (p₂.writeAll buf u.platform).1] = _
    rw [← hstate, ← hout]
    exact h.log_snoc (.wrote _ _ _)
  readSome timeout := by
    refine Act.Agrees.follows fun w u h => ?_
    rw [platformReadSome, platformReadSome, ← h.rxBuffer]
    cases hunused : (w.client.rxBuffer.unusedSlice : Outcome (Error E) (List UInt8)) with
    | ok unused =>
      obtain ⟨hout, hs⟩ := hp.readSome unused timeout h.platform
      simp only [← hout]
      exact ⟨trivial, h.transportClient, h.txBuffer, rfl, hs, h.log_snoc (.read _ _ _)⟩
    | err e => exact ⟨rfl, h⟩
    | panic => exact ⟨rfl, h⟩
  sent := (earlier_platformNow hp fun now hnow _ _ h =>
    ⟨rfl, { h with transportClient := h.transportClient.sent hnow }⟩).follows
  due := (earlier_platformNow hp fun now hnow =>
    .gets fun _ _ h => h.transportClient.nextPingIn hnow).follows

/-! ### Sending -/

theorem earlier_onTx {β : Type} (x : Act (List UInt8) (Error E) β) :
    Act.Agrees (World.Earlier S d : World σ₁ E → World σ₂ E → Prop) (onTx x) (onTx x) :=
  (Act.Agrees.refl x).zoom (fun _ _ h => h.txBuffer) fun _ _ _ _ h ht => { h with txBuffer := ht }

variable (hp : p₁.Earlier p₂ S d)

include hp

theorem earlier_writeBuffer (buf : List UInt8) :
    Act.Agrees (World.Earlier S d) (writeBuffer p₁ buf) (writeBuffer p₂ buf) :=
  (follows_writeBuffer (simulates_earlier hp) buf).agrees

theorem earlier_writeAll (size : Nat) :
    Act.Agrees (World.Earlier S d) (writeAll p₁ size) (writeAll p₂ size) :=
  .bind (.gets fun _ _ h => h.txBuffer) fun _ => .bind (.lift _) fun buf =>
    earlier_writeBuffer hp buf

theorem earlier_performSend (packet : Send) :
    Act.Agrees (World.Earlier S d) (performSend p₁ packet) (performSend p₂ packet) := by
  cases packet with
  | publish | publishQos0 | publishQos1 =>
    exact (earlier_onTx _).bind fun buf => earlier_writeBuffer hp buf
  | _ => exact (earlier_onTx _).bind fun size => earlier_writeAll hp size

theorem earlier_writeSubscribe (subscriptions : SubscribeFn) :
    Act.Agrees (World.Earlier S d) (writeSubscribe p₁ subscriptions)
      (writeSubscribe p₂ subscriptions) :=
  (earlier_onTx _).bind fun size => .bind (.lift _) fun header =>
    (earlier_writeBuffer hp header).bind fun _ => earlier_writeAll hp size

/-! ### Sessions -/

theorem earlier_perform (call : Call) :
    Act.Agrees (World.Earlier S d) (perform p₁ call) (perform p₂ call) := by
  refine (follows_perform (simulates_earlier hp) (fun options => ?_) ?_ ?_).agrees
  · exact ((earlier_onTx _).bind fun size => earlier_writeAll hp size).follows
  · exact fun _ subscriptions _ => (earlier_writeSubscribe hp subscriptions).follows
  · exact fun packet _ => (earlier_performSend hp packet).follows

/-- A new client on two platforms that give the same responses, of which the second
counts its time from an earlier point.  A user who chooses each call from the
results so far cannot tell them apart: all calls return the same, the same bytes
are written, all reads have the same timeouts and receive the same, and only the
times that are read off the clock differ, by what lies between the epochs. -/
theorem epoch_invisible (tx rx : List UInt8) {s₁ : σ₁} {s₂ : σ₂} (hs : S s₁ s₂)
    (user : Dialogue Call (fun _ => Value) (Error E) α) :
    let run := user.run (perform p₁) ⟨new tx rx, s₁, []⟩
    let run' := user.run (perform p₂) ⟨new tx rx, s₂, []⟩
    run.1 = run'.1 ∧ user.asked (perform p₁) ⟨new tx rx, s₁, []⟩ =
        user.asked (perform p₂) ⟨new tx rx, s₂, []⟩ ∧
      run'.2.log = run.2.log.map (Event.shift d) ∧
      run.2.client.rxBuffer = run'.2.client.rxBuffer ∧
      run.2.client.transportClient.state = run'.2.client.transportClient.state := by
  intro run run'
  have hstart : World.Earlier S d (⟨new tx rx, s₁, []⟩ : World σ₁ E) ⟨new tx rx, s₂, []⟩ :=
    ⟨TransportClient.earlier_new d _, rfl, rfl, hs, rfl⟩
  obtain ⟨hasked, hout, hrelated⟩ := user.agrees (earlier_perform hp) _ _ hstart
  refine ⟨hout, hasked, hrelated.log, hrelated.rxBuffer, ?_⟩
  rw [hrelated.transportClient.same]

end Epoch

/-- A client that waits for its keep-alive, on a platform that counts from a million
seconds earlier: it sends its pings as late. -/
theorem epoch_invisible_silence :
    let p := waitingPlatform 4 2
    let options : ConnectOptions := ⟨"client", none, none, 10, true⟩
    let user : Dialogue Call (fun _ => Value) (Error Unit) Unit :=
      .ask (.connect options) fun _ => .ask .nextNotification fun _ =>
        .ask (.completeNotification ⟨0, .pingReq⟩) fun _ => .ask .nextNotification fun _ =>
          .done (.ok ())
    let w : World (Fin 1000000 × List UInt8) Unit :=
      ⟨new (List.replicate 32 0) (List.replicate 16 0), (5, [0x20, 2, 0, 0]), []⟩
    user.asked (perform (p.shift 1000000000)) w = user.asked (perform p) w ∧
      timeouts (user.run (perform (p.shift 1000000000)) w).2.log =
        [none, some (.fromMillis 9998), some (.fromMillis 10000)] := by
  intro p options user w
  have hsteady : ∀ s, (p.now s).1.milliseconds.toNat + (1000000000 : UInt64).toNat <
      2 ^ 64 - 65535000 := by
    intro s
    have hnow : (p.now s).1.milliseconds.toNat = s.1.val := ((punctual_waitingPlatform 4 2).now s).1
    have hlt := s.1.isLt
    show _ + 1000000000 < _
    omega
  obtain ⟨-, hasked, hlog, -⟩ := epoch_invisible (Platform.earlier_shift hsteady)
    (List.replicate 32 0) (List.replicate 16 0) (rfl : w.platform = w.platform) user
  refine ⟨hasked.symm, ?_⟩
  have hshift : (user.run (perform (p.shift 1000000000)) w).2.log =
      (user.run (perform p) w).2.log.map (Event.shift 1000000000) := hlog
  rw [hshift, timeouts_shift]
  decide +kernel

end NanoClient

end Umqtt
