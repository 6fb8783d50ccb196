/-
Umqtt/NanoClient/Reconnect.lean

The program of `examples/basic.rs`, which connects again whenever `run_client`
returns.

It makes one client and goes on with it for ever.  Each turn of its loop makes a
new platform, which may fail, connects with the same options and the same
subscriptions, and runs the client until a call fails.  Nothing passes from one
turn to the next but the client, and a turn makes the same of a client with any
past as of a new one (`reconnect_afresh`).

A client may also be taken apart between its calls, and put together again
around other buffers, which is of no consequence as long as nothing is left in
the receive buffer (`handover_invisible`).
-/
import Umqtt.NanoClient.Isolation
import Umqtt.NanoClient.RunClient
import Umqtt.NanoClient.Sizes

namespace Umqtt

open Effects Wire

namespace NanoClient

section Reconnect

variable {σ σ₁ σ₂ E : Type}

/-- One turn of the loop of `main` on the platform it has made.  `run_client`
returns when a call fails, here in one of its first `n` turns or later. -/
def attempt (p : Platform σ E) (options : ConnectOptions) (subscriptions : SubscribeFn) (n : Nat) :
    Act (World σ E) (Error E) Unit := do
  let connack ← connectSubscribe p options subscriptions
  if connack.code.isSuccess then
    runClient p n
  else
    pure ()

/-- The client behind some turns of the loop of `main`.  Of each turn there is the
state of the platform it has made, if it has, and the number of turns of
`run_client`. -/
def reconnect (p : Platform σ E) (options : ConnectOptions) (subscriptions : SubscribeFn) :
    List (Option (σ × Nat)) → NanoClient → NanoClient
  | [], client => client
  | none :: turns, client => reconnect p options subscriptions turns client
  | some (s, n) :: turns, client =>
      reconnect p options subscriptions turns
        (attempt p options subscriptions n ⟨client, s, []⟩).2.client

/-! ### Sizes -/

theorem keepsSizes_runClient (p : Platform σ E) (n : Nat) : KeepsSizes (runClient p n) := by
  induction n with
  | zero => exact .pure ()
  | succ n ih =>
    refine KeepsSizes.bind ?_ fun _ => ih
    exact (keepsSizes_nextNotification p).bind fun _ => keepsSizes_completeNotification p _

theorem keepsSizes_attempt (p : Platform σ E) (options : ConnectOptions)
    (subscriptions : SubscribeFn) (n : Nat) :
    KeepsSizes (attempt p options subscriptions n) :=
  (keepsSizes_connectSubscribe p options subscriptions).bind fun _ =>
    .ite (keepsSizes_runClient p n) (.pure ())

/-- The turns of `main` change neither the sizes of the buffers nor the limit of
the decoder. -/
theorem reconnect_sizes (p : Platform σ E) (options : ConnectOptions) (subscriptions : SubscribeFn)
    (turns : List (Option (σ × Nat))) : ∀ client : NanoClient,
    let client' := reconnect p options subscriptions turns client
    client'.txBuffer.length = client.txBuffer.length ∧
      client'.rxBuffer.capacity = client.rxBuffer.capacity ∧
      client'.transportClient.maxPacketSize = client.transportClient.maxPacketSize := by
  induction turns with
  | nil => exact fun _ => ⟨rfl, rfl, rfl⟩
  | cons turn turns ih =>
    intro client
    rcases turn with - | ⟨s, n⟩
    · exact ih client
    · obtain ⟨htx, hcap, hmax⟩ := ih (attempt p options subscriptions n ⟨client, s, []⟩).2.client
      have h := keepsSizes_attempt p options subscriptions n ⟨client, s, []⟩
      exact ⟨htx.trans h.txLength, hcap.trans h.capacity, hmax.trans h.maxPacketSize⟩

/-! ### Turns side by side -/

section Agrees

variable {S : σ₁ → σ₂ → Prop} {l₁ l₂ : List (Event E)} {p₁ : Platform σ₁ E} {p₂ : Platform σ₂ E}
  {w₁ : World σ₁ E} {w₂ : World σ₂ E} (hp : p₁.Matches p₂ S)

include hp

theorem agrees_runClient (n : Nat) :
    Act.Agrees (Alike S l₁ l₂ 0) (runClient p₁ n) (runClient p₂ n) := by
  induction n with
  | zero => exact .pure ()
  | succ n ih =>
    refine Act.Agrees.bind ?_ fun _ => ih
    exact (agrees_nextNotification hp).bind fun _ => agrees_completeNotification hp _

/-- A turn needs nothing but the sizes, since it begins with a `connect`. -/
theorem attempt_alike (options : ConnectOptions) (subscriptions : SubscribeFn) (n : Nat)
    (h : Sized S l₁ l₂ w₁ w₂) :
    (attempt p₁ options subscriptions n w₁).1 = (attempt p₂ options subscriptions n w₂).1 ∧
      Alike S l₁ l₂ 0 (attempt p₁ options subscriptions n w₁).2
        (attempt p₂ options subscriptions n w₂).2 := by
  have hsubscribe : (connectSubscribe p₁ options subscriptions w₁).1 =
      (connectSubscribe p₂ options subscriptions w₂).1 ∧
        Alike S l₁ l₂ 0 (connectSubscribe p₁ options subscriptions w₁).2
          (connectSubscribe p₂ options subscriptions w₂).2 := by
    refine Act.Agrees.behind (connect_alike hp options h) fun ack => .bind ?_ fun _ => .pure ack
    exact .ite (agrees_writeSubscribe hp subscriptions) (.pure ())
  exact Act.Agrees.behind hsubscribe fun ack => .ite (agrees_runClient hp n) (.pure ())

/-- A turn of the loop of `main` behind any earlier turns, and the same turn of a
new client with buffers of the same sizes.  The earlier turns may have ended in
any way, and in the middle of a packet.  Both turns end alike, make the same
calls of platforms that give the same responses, so that they write the same
bytes and wait as long, and leave the same client but for the bytes behind the
received ones. -/
theorem reconnect_afresh (options : ConnectOptions) (subscriptions : SubscribeFn)
    (turns : List (Option (σ₁ × Nat))) (n : Nat) {tx tx' rx rx' : List UInt8}
    (htx : tx.length = tx'.length) (hrx : rx.length = rx'.length) {s₁ : σ₁} {s₂ : σ₂}
    (hs : S s₁ s₂) :
    let client := reconnect p₁ options subscriptions turns (new tx rx)
    let later := attempt p₁ options subscriptions n ⟨client, s₁, []⟩
    let first := attempt p₂ options subscriptions n ⟨new tx' rx', s₂, []⟩
    later.1 = first.1 ∧ later.2.log.map Event.seen = first.2.log.map Event.seen ∧
      written later.2.log = written first.2.log ∧ timeouts later.2.log = timeouts first.2.log ∧
      later.2.client.transportClient = first.2.client.transportClient ∧
      later.2.content = first.2.content := by
  intro client later first
  obtain ⟨hctx, hcap, hmax⟩ := reconnect_sizes p₁ options subscriptions turns (new tx rx)
  have hsized : Sized S [] [] (⟨client, s₁, []⟩ : World σ₁ E) ⟨new tx' rx', s₂, []⟩ := by
    refine ⟨hctx.trans htx, hcap.trans hrx, hmax.trans ?_, hs, .start⟩
    show (TransportClient.new rx.length).maxPacketSize =
      (TransportClient.new rx'.length).maxPacketSize
    rw [hrx]
  obtain ⟨hout, halike⟩ := attempt_alike hp options subscriptions n hsized
  obtain ⟨evs₁, evs₂, hlog₁, hlog₂, hevs⟩ := halike.log
  have hseen : later.2.log.map Event.seen = first.2.log.map Event.seen := by
    rw [show later.2.log = evs₁ from hlog₁, show first.2.log = evs₂ from hlog₂, hevs]
  refine ⟨hout, hseen, ?_, ?_, halike.transportClient, halike.rxBuffer.content⟩
  · rw [← written_seen later.2.log, hseen, written_seen]
  · rw [← timeouts_seen later.2.log, hseen, timeouts_seen]

end Agrees

/-- Behind a turn that lost its connection in the middle of a packet, and one that
found no platform: the client subscribes, and acknowledges a publish. -/
theorem reconnect_afresh_acknowledges :
    let p := streamPlatform 3
    let options : ConnectOptions := ⟨"client", none, none, 10, true⟩
    let subscriptions : SubscribeFn := .ask (.addStr "a/b" .atMostOnce) fun _ => .done (.ok ())
    let stream : List UInt8 := [0x20, 2, 0, 0, 0x32, 7, 0, 1, 0x61, 0, 7, 1, 2]
    let client := reconnect p options subscriptions [some ([0x20, 2, 0, 0, 0x32, 7], 2), none]
      (new (List.replicate 32 0xFF) (List.replicate 16 0xAA))
    let later := attempt p options subscriptions 1 ⟨client, stream, []⟩
    later.1 = .ok () ∧ ∃ log : List (Event Unit), written later.2.log = written log ∧
      [0x40, 2, 0, 7] ∈ written log := by
  intro p options subscriptions stream client later
  obtain ⟨hout, -, hwritten, -⟩ := reconnect_afresh (streamPlatform_matches 3) options subscriptions
    [some ([0x20, 2, 0, 0, 0x32, 7], 2), none] 1
    (show (List.replicate 32 0xFF).length = (List.replicate 32 0).length by decide)
    (show (List.replicate 16 0xAA).length = (List.replicate 16 0).length by decide)
    (rfl : stream = stream)
  refine ⟨hout.trans ?_, _, hwritten, ?_⟩
  · decide +kernel
  · decide +kernel

/-! ### Handing over -/

/-- A client that has nothing in its receive buffer, and the client that is made of
its transport client and other buffers of the same sizes.  On platforms that
give the same responses a user cannot tell them apart, in whatever state the
session is: all calls return the same, and ask the same of the platform. -/
theorem handover_invisible {α : Type} {S : σ₁ → σ₂ → Prop} {p₁ : Platform σ₁ E}
    {p₂ : Platform σ₂ E} (hp : p₁.Matches p₂ S) {client : NanoClient}
    (hused : client.rxBuffer.used = 0) {tx rx : List UInt8}
    (htx : client.txBuffer.length = tx.length) (hrx : client.rxBuffer.buffer.length = rx.length)
    {s₁ : σ₁} {s₂ : σ₂} (hs : S s₁ s₂)
    (user : Dialogue Call (fun _ => Value) (Error E) α) :
    let other := fromTransportClient client.intoInner tx rx
    let run := user.run (perform p₁) ⟨client, s₁, []⟩
    let run' := user.run (perform p₂) ⟨other, s₂, []⟩
    run.1 = run'.1 ∧ user.asked (perform p₁) ⟨client, s₁, []⟩ =
        user.asked (perform p₂) ⟨other, s₂, []⟩ ∧
      run.2.log.map Event.seen = run'.2.log.map Event.seen := by
  intro other run run'
  have hbuffers : client.rxBuffer.Alike (Buffer.new rx) := by
    refine ⟨hrx, hused, ?_⟩
    rw [Buffer.content, hused]
    rfl
  have halike : Alike S [] [] 0 (⟨client, s₁, []⟩ : World σ₁ E) ⟨other, s₂, []⟩ :=
    ⟨rfl, htx, rfl, hbuffers, hs, .start⟩
  obtain ⟨hasked, hout, hrelated⟩ := user.agrees (agrees_perform hp) _ _ halike
  obtain ⟨evs, evs', hlog, hlog', hevs⟩ := hrelated.log
  refine ⟨hout, hasked, ?_⟩
  rw [show run.2.log = evs from hlog, show run'.2.log = evs' from hlog', hevs]

/-- A connected client with stale bytes in both buffers, which is handed over and
acknowledges a publish. -/
theorem handover_invisible_publish :
    let p := streamPlatform 9
    let client : NanoClient := ⟨⟨Duration.fromSecs 7, .connected, 16, ⟨99⟩⟩,
      List.replicate 32 0xFF, ⟨List.replicate 16 0xAA, 0⟩⟩
    let other := fromTransportClient client.intoInner (List.replicate 32 0) (List.replicate 16 0)
    let stream : List UInt8 := [0x32, 7, 0, 1, 0x61, 0, 7, 1, 2]
    let user : Dialogue Call (fun _ => Value) (Error Unit) Unit :=
      .ask .nextNotification fun _ => .ask (.completeNotification ⟨9, .pubAck 7⟩) fun _ =>
        .done (.ok ())
    user.asked (perform p) ⟨client, stream, []⟩ = user.asked (perform p) ⟨other, stream, []⟩ := by
  intro p client other stream user
  exact (handover_invisible (streamPlatform_matches 9)
    (rfl : client.rxBuffer.used = 0) (by decide) (by decide) rfl user).2.1

end Reconnect

end NanoClient

end Umqtt
