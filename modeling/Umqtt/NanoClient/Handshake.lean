/-
Umqtt/NanoClient/Handshake.lean

What `connect` can do (`Connected`), and what it leaves when it fails.

`connect` tells the transport client of the new transport before it encodes the
CONNECT.  When the tx buffer has no room for it, it returns at once, and leaves
a client that takes itself for connected to the transport; every other error
leaves a closed client (`connect_fails_closed`).  A CONNACK that refuses the
connection is not returned as such, but as an error (`connect_connack`).
-/
import Umqtt.NanoClient.Receiving

namespace Umqtt

open Effects Wire

namespace NanoClient

section Connect

variable {σ E : Type}

/-! ### The ways in which `connect` ends -/

/-- The bytes of the CONNECT. -/
def connectBytes (options : ConnectOptions) : List UInt8 := frame 0x10 options.asConnect.body

/-- The client is told of a new transport, and forgets what it has received. -/
def World.opened (options : ConnectOptions) (w : World σ E) : World σ E :=
  { w with client := { w.client with
      transportClient := w.client.transportClient.onTransportOpened options
      rxBuffer := w.client.rxBuffer.reset } }

/-- The CONNECT is in the tx buffer. -/
def World.encoded (options : ConnectOptions) (w : World σ E) : World σ E :=
  (w.opened options).withTx (overwrite w.client.txBuffer 0 (connectBytes options))

/-- The CONNECT is written. -/
def World.greeted (options : ConnectOptions) (now : Instant) (s s' : σ) (w : World σ E) :
    World σ E :=
  (((w.encoded options).wrote (connectBytes options) (.ok ()) s).clocked now s').packetSent now

variable (p : Platform σ E) (options : ConnectOptions)

/-- The ways in which `connect` ends. -/
inductive Connected (w : World σ E) : Outcome (Error E) ConnAck → World σ E → Prop where
  | notEncoded {e : WriteError} {b : List UInt8} :
      ¬options.asConnect.Fits w.client.txBuffer.length → b.length = w.client.txBuffer.length →
      Connected w (.err (.writeError e)) ((w.opened options).withTx b)
  | broken {e : E} {s : σ} : options.asConnect.Fits w.client.txBuffer.length →
      p.writeAll (connectBytes options) w.platform = (.error e, s) →
      Connected w (.err (.io e))
        ((w.encoded options).wrote (connectBytes options) (.error e) s).closed
  | greeted {now : Instant} {s s' : σ} {r : Outcome (Error E) ConnAck} {w' : World σ E} :
      options.asConnect.Fits w.client.txBuffer.length →
      p.writeAll (connectBytes options) w.platform = (.ok (), s) → p.now s = (now, s') →
      ConnackRead (w.greeted options now s s') r w' → Connected w r w'

variable {options} {w : World σ E}

theorem valid_greeted {now : Instant} {s s' : σ} : (w.greeted options now s s').Valid :=
  Nat.zero_le _

theorem state_greeted {now : Instant} {s s' : σ} :
    (w.greeted options now s s').state = .transportConnected := World.state_packetSent _ _

@[simp] theorem content_greeted {now : Instant} {s s' : σ} :
    (w.greeted options now s s').content = [] := rfl

theorem log_greeted {now : Instant} {s s' : σ} : (w.greeted options now s s').log =
    w.log ++ [.wrote .transportConnected (connectBytes options) (.ok ()), .clock now] :=
  List.append_assoc _ _ _

theorem maxPacketSize_greeted {now : Instant} {s s' : σ} :
    (w.greeted options now s s').client.transportClient.maxPacketSize =
      w.client.transportClient.maxPacketSize := TransportClient.onPacketSent_maxPacketSize _ _

/-- `connect` behind its write. -/
def awaitConnack : Act (World σ E) (Error E) ConnAck := do
  let connack ← readConnack p
  (if connack.code ≠ .success then
    onTransport (Act.modify fun t => t.onTransportClosed)
  else
    pure ())
  pure connack

theorem connect_opened (options : ConnectOptions) (w : World σ E) :
    connect p options w =
      (do let outSize ← onTx (options.asConnect.write.mapErr .writeError)
          writeAll p outSize
          awaitConnack p : Act (World σ E) (Error E) ConnAck) (w.opened options) := rfl

/-- A CONNACK that `read_connack` returns accepts the connection: `connect` has
nothing to close. -/
theorem awaitConnack_eq (hv : w.Valid) (hs : w.state = .transportConnected) :
    awaitConnack p w = readConnack p w := by
  have hread := connackRead p hv hs
  rcases hr : readConnack p w with ⟨ack | e | _, w'⟩
  · rw [hr] at hread
    have hcode : ack.code = .success := by
      generalize hok : (Outcome.ok ack : Outcome (Error E) ConnAck) = r at hread
      -- of all the ways to end, only an accepted CONNACK is a value
      cases hread with
      | took _ _ _ htaken hr =>
        cases htaken with
        | more => exact absurd rfl hr
        | accepted _ hcode => cases hok; exact hcode
        | refused | rejected => cases hok
      | panicked | broke => cases hok
    rw [awaitConnack, Act.bind_of_ok hr, if_neg (not_not.mpr hcode)]
    rfl
  · rw [awaitConnack, Act.bind_of_err hr]
  · rw [awaitConnack, Act.bind_apply, hr]

/-- The CONNECT is encoded and written. -/
theorem connect_of_fits (h : options.asConnect.Fits w.client.txBuffer.length) :
    connect p options w =
      (do writeBuffer p (connectBytes options)
          awaitConnack p : Act (World σ E) (Error E) ConnAck) (w.encoded options) := by
  have hx := @onTx_apply σ E (w.opened options) _ _ _ _ (Connect.write_of_fits h)
  have hwrite := @writeAll_overwrite σ E p (w.opened options) (connectBytes options) h.2
  rw [connect_opened, Act.bind_of_ok hx]
  exact Act.bind_congr hwrite _

/-- A CONNECT that was written is waited on. -/
theorem connect_of_sent {s : σ} (h : options.asConnect.Fits w.client.txBuffer.length)
    (hsent : p.writeAll (connectBytes options) w.platform = (.ok (), s)) :
    connect p options w = readConnack p (w.greeted options (p.now s).1 s (p.now s).2) := by
  have hwrite : writeBuffer p (connectBytes options) (w.encoded options) =
      (.ok (), w.greeted options (p.now s).1 s (p.now s).2) := writeBuffer_of_ok p nofun hsent
  rw [connect_of_fits p h, Act.bind_of_ok hwrite]
  exact awaitConnack_eq p valid_greeted state_greeted

/-- The CONNECT is not encoded, or its write fails, or a CONNACK is waited on. -/
theorem connect_cases (options : ConnectOptions) (w : World σ E) :
    (¬options.asConnect.Fits w.client.txBuffer.length ∧ ∃ e b,
      b.length = w.client.txBuffer.length ∧
      connect p options w = (.err (.writeError e), (w.opened options).withTx b)) ∨
    options.asConnect.Fits w.client.txBuffer.length ∧
      ((∃ e s, p.writeAll (connectBytes options) w.platform = (.error e, s) ∧
        connect p options w = (.err (.io e),
          ((w.encoded options).wrote (connectBytes options) (.error e) s).closed)) ∨
      ∃ s, p.writeAll (connectBytes options) w.platform = (.ok (), s) ∧
        connect p options w = readConnack p (w.greeted options (p.now s).1 s (p.now s).2)) := by
  by_cases h : options.asConnect.Fits w.client.txBuffer.length
  · rcases hwrite : p.writeAll (connectBytes options) w.platform with ⟨e | ⟨⟩, s⟩
    · have hbroken := @writeBuffer_of_error _ _ p _ (w.encoded options) _ _ nofun hwrite
      refine .inr ⟨h, .inl ⟨e, s, rfl, ?_⟩⟩
      rw [connect_of_fits p h, Act.bind_of_err hbroken]
    · exact .inr ⟨h, .inr ⟨s, rfl, connect_of_sent p h hwrite⟩⟩
  · obtain ⟨e, b, hb, hlen⟩ := Connect.write_of_not_fits h
    have hx := @onTx_apply σ E (w.opened options) _ _ _ _ hb
    refine .inl ⟨h, e, b, hlen, ?_⟩
    rw [connect_opened, Act.bind_of_err hx]

theorem connected (options : ConnectOptions) (w : World σ E) :
    Connected p options w (connect p options w).1 (connect p options w).2 := by
  rcases connect_cases p options w with
    ⟨hno, e, b, hlen, hc⟩ | ⟨hfits, ⟨e, s, hwrite, hc⟩ | ⟨s, hwrite, hc⟩⟩
  · rw [hc]
    exact .notEncoded hno hlen
  · rw [hc]
    exact .broken hfits hwrite
  · rw [hc]
    exact .greeted hfits hwrite rfl (connackRead p valid_greeted state_greeted)

/-- A CONNECT that does not fit is not written. -/
theorem connect_of_not_fits (h : ¬options.asConnect.Fits w.client.txBuffer.length) :
    ∃ e w', connect p options w = (.err (.writeError e), w') ∧ w'.state = .transportConnected := by
  rcases connect_cases p options w with ⟨-, e, b, -, hc⟩ | ⟨hfits, -⟩
  · exact ⟨e, _, hc, rfl⟩
  · exact absurd hfits h

/-! ### The record of a connect -/

theorem logged_greeted {now : Instant} {s s' : σ} :
    Logged w [.wrote .transportConnected (connectBytes options) (.ok ()), .clock now]
      (w.greeted options now s s') :=
  ⟨log_greeted, valid_greeted, rfl, maxPacketSize_greeted⟩

/-- A `connect` that returns `ack` has written its CONNECT, and then received the
bytes of `evs` and `chunk`.  The last chunk brought the end of the CONNACK, and
what is behind it is in the receive buffer. -/
structure Accepted (options : ConnectOptions) (w : World σ E) (ack : ConnAck)
    (evs chunk : List (Event E)) (n : Nat) (w' : World σ E) : Prop extends
    Logged w (.wrote .transportConnected (connectBytes options) (.ok ()) :: (evs ++ chunk)) w' where
  fits : options.asConnect.Fits w.client.txBuffer.length
  quiet : ∀ e ∈ evs ++ chunk, e.Quiet
  last : ∃ pre e, chunk = pre ++ [e] ∧ received pre = [] ∧ e.IsRead ∧ e.received ≠ []
  early : ∀ x, Packet.read (received evs) w.client.transportClient.maxPacketSize ≠ .ok x
  read : Packet.read (received (evs ++ chunk)) w.client.transportClient.maxPacketSize =
    .ok (.connAck ack, n)
  success : ack.code = .success
  content : w'.content = (received (evs ++ chunk)).drop n
  state : w'.state = .connected
  txLength : w'.client.txBuffer.length = w.client.txBuffer.length

theorem Accepted.settled {w' : World σ E} {ack : ConnAck} {evs chunk : List (Event E)} {n : Nat}
    (h : Accepted options w ack evs chunk n w') : w'.state ≠ .transportConnected := by
  rw [h.state]
  decide

/-- A `connect` writes its CONNECT and nothing else. -/
theorem Accepted.wrote {w' : World σ E} {ack : ConnAck} {evs chunk : List (Event E)} {n : Nat}
    (h : Accepted options w ack evs chunk n w') :
    written (.wrote .transportConnected (connectBytes options) (.ok ()) :: (evs ++ chunk)) =
      [connectBytes options] := by
  have hreads := written_of_not_isWrite fun e he => (h.quiet e he).1
  exact congrArg (connectBytes options :: ·) hreads

/-- The ways in which a `connect` ends that encodes its CONNECT: behind the
CONNECT nothing else is written. -/
inductive Opened (options : ConnectOptions) (w : World σ E) :
    Outcome (Error E) ConnAck → World σ E → Prop where
  | failed {result : Except E Unit} {evs : List (Event E)} {e : Error E} {w' : World σ E} :
      Logged w (.wrote .transportConnected (connectBytes options) result :: evs) w' →
      (∀ e ∈ evs, ¬e.IsWrite) → w'.state = .disconnected → Opened options w (.err e) w'
  | accepted {evs chunk : List (Event E)} {ack : ConnAck} {n : Nat} {w' : World σ E} :
      Accepted options w ack evs chunk n w' → Opened options w (.ok ack) w'

/-- The bytes before the chunk that brought the CONNACK are not read as a packet. -/
theorem early_of_gathered {now : Instant} {s s' : σ} {t : World σ E} {evs : List (Event E)}
    (hg : Gathered (w.greeted options now s s') evs t)
    (hmore : t = w.greeted options now s s' ∨ ∃ k, t.read = .err (.needMoreData k)) :
    ∀ x, Packet.read (received (.clock now :: evs)) w.client.transportClient.maxPacketSize ≠
      .ok x := by
  have hcontent : t.content = received (.clock now :: evs) := hg.content
  have hsize : t.client.transportClient.maxPacketSize = w.client.transportClient.maxPacketSize :=
    (logged_greeted.trans hg.toLogged).maxPacketSize
  rw [← hcontent, ← hsize]
  intro x hx
  rcases hmore with rfl | ⟨k, hk⟩
  · -- nothing was received yet, and a packet has two bytes
    obtain ⟨h2, hle, -⟩ := Packet.read_eq_ok hx
    rw [content_greeted] at hle
    exact absurd (h2.trans hle) (by decide)
  · cases hk.symm.trans hx

/-- A CONNACK that is taken behind the CONNECT. -/
theorem accepted_of_taken {now : Instant} {s s' : σ} {t u w' : World σ E} {ack : ConnAck}
    {evs chunk : List (Event E)} (hfits : options.asConnect.Fits w.client.txBuffer.length)
    (hg : Gathered (w.greeted options now s s') evs t)
    (hmore : t = w.greeted options now s s' ∨ ∃ k, t.read = .err (.needMoreData k))
    (hc : Chunk t chunk u) (htaken : ConnackTaken u (.ok (some ack)) w') :
    ∃ n, Accepted options w ack (.clock now :: evs) chunk n w' := by
  cases htaken with
  | @accepted _ n _ hread hcode htransport htx hvalid hcap hdrop _ hlog' =>
    have hu := hg.trans hc.gathered
    have hlog := logged_greeted.trans hu.toLogged
    have hcontent : u.content = received (.clock now :: (evs ++ chunk)) := hu.content
    refine ⟨n, { log := hlog'.trans hlog.log
                 valid := hvalid
                 capacity := hcap.trans hlog.capacity
                 maxPacketSize := ?_
                 fits := hfits
                 quiet := List.forall_mem_cons.mpr ⟨⟨id, id⟩, hu.quiet⟩
                 last := hc.last
                 early := early_of_gathered hg hmore
                 read := ?_
                 success := hcode
                 content := hdrop.trans (congrArg _ hcontent)
                 state := ?_
                 txLength := ?_ }⟩
    · rw [htransport]
      exact hlog.maxPacketSize
    · rw [← hlog.maxPacketSize]
      exact (congrArg (Packet.read · _) hcontent).symm.trans hread
    · rw [World.state, htransport]
    · have hgreeted : (w.greeted options now s s').client.txBuffer.length =
          w.client.txBuffer.length := length_overwrite ((Nat.zero_add _).trans_le hfits.2)
      rw [htx, hu.txLength, hgreeted]

theorem opened {w' : World σ E} {r : Outcome (Error E) ConnAck}
    (h : connect p options w = (r, w')) (hpanic : r ≠ .panic)
    (henc : ∀ e, r ≠ .err (.writeError e)) : Opened options w r w' := by
  have hc := connected p options w
  rw [h] at hc
  cases hc with
  | notEncoded => exact absurd rfl (henc _)
  | @broken e s =>
    exact @Opened.failed _ _ _ _ (.error e) [] _ _ ⟨rfl, Nat.zero_le _, rfl, rfl⟩
      (List.forall_mem_nil _) rfl
  | @greeted now s s' _ _ hfits _ _ hread =>
    have hclock : (Event.clock now : Event E).Quiet := ⟨id, id⟩
    cases hread with
    | panicked => exact absurd rfl hpanic
    | @broke evs e _ hb =>
      have hreads : ∀ e' ∈ Event.clock now :: evs, ¬e'.IsWrite :=
        List.forall_mem_cons.mpr ⟨hclock.1, hb.not_isWrite⟩
      exact .failed (logged_greeted.trans hb.toLogged) hreads hb.state
    | @took evs chunk t u _ r₀ hg hmore hc htaken hr₀ =>
      have hu := hg.trans hc.gathered
      have hlog := logged_greeted.trans hu.toLogged
      have hreads : ∀ e ∈ Event.clock now :: (evs ++ chunk), ¬e.IsWrite :=
        List.forall_mem_cons.mpr ⟨hclock.1, fun e he => (hu.quiet e he).1⟩
      have hclosed : Logged w (.wrote .transportConnected (connectBytes options) (.ok ()) ::
          .clock now :: (evs ++ chunk)) u.closed :=
        ⟨hlog.log, hlog.valid, hlog.capacity, hlog.maxPacketSize⟩
      rcases r₀ with (- | ack) | e | _
      · exact absurd rfl hr₀
      · obtain ⟨n, ha⟩ := accepted_of_taken hfits hg hmore hc htaken
        exact .accepted ha
      · cases htaken with
        | refused | rejected => exact .failed hclosed hreads rfl
      · cases htaken

/-- A `connect` that returns has had a CONNACK that accepts the connection. -/
theorem accepted_of_ok {w' : World σ E} {ack : ConnAck} (h : connect p options w = (.ok ack, w')) :
    ∃ evs chunk n, Accepted options w ack evs chunk n w' := by
  cases opened p h nofun nofun with
  | accepted ha => exact ⟨_, _, _, ha⟩

/-- What an operation that connects does behind its `connect`. -/
def behindConnect : Call → ConnAck → Act (World σ E) (Error E) Value
  | .connectSubscribe _ subscriptions, ack => do
      (if ack.code.isSuccess then writeSubscribe p subscriptions else pure ())
      return .connAck ack
  | _, ack => return .connAck ack

theorem perform_of_connects {call : Call} (h : call.connects = some options) :
    perform p call = connect p options >>= behindConnect p call := by
  cases call with
  | connect =>
    cases h
    rfl
  | connectSubscribe o subscriptions =>
    cases h
    show (connectSubscribe p options subscriptions >>= fun ack => pure (Value.connAck ack)) = _
    rw [connectSubscribe, Act.bind_assoc]
    refine congrArg _ (funext fun ack => ?_)
    rw [Act.bind_assoc]
    rfl
  | nextNotification | completeNotification | send | isDisconnected => cases h

/-! ### A connect that fails -/

theorem ConnackRead.state_of_err {w w' : World σ E} {e : Error E}
    (h : ConnackRead w (.err e) w') : w'.state = .disconnected := by
  generalize herr : (Outcome.err e : Outcome (Error E) ConnAck) = r at h
  cases h with
  | panicked => cases herr
  | broke hb => exact hb.state
  | took _ _ _ htaken =>
    cases htaken with
    | more | accepted => cases herr
    | refused | rejected => rfl

/-- A `connect` that encodes its CONNECT, and fails, closes the client. -/
theorem state_of_connect_err {w' : World σ E} {e : Error E}
    (hfits : options.asConnect.Fits w.client.txBuffer.length)
    (h : connect p options w = (.err e, w')) : w'.state = .disconnected := by
  have hc := connected p options w
  rw [h] at hc
  cases hc with
  | notEncoded hno => exact absurd hfits hno
  | broken => rfl
  | greeted _ _ _ hread => exact hread.state_of_err

theorem connect_ne_writeError (hfits : options.asConnect.Fits w.client.txBuffer.length)
    (e : WriteError) : (connect p options w).1 ≠ .err (.writeError e) := by
  have hc := connected p options w
  generalize (connect p options w).1 = r at hc ⊢
  generalize (connect p options w).2 = w' at hc
  cases hc with
  | notEncoded hno => exact absurd hfits hno
  | broken => nofun
  | greeted _ _ _ hread =>
    cases hread with
    | panicked => nofun
    | broke _ hgone =>
      rintro ⟨⟩
      rcases hgone with hgone | ⟨x, hgone⟩ <;> cases hgone
    | took _ _ _ htaken =>
      cases htaken with
      | more | accepted | refused | rejected => nofun

/-- The world behind a run of calls. -/
def performAll : List Call → World σ E → World σ E
  | [], w => w
  | call :: calls, w => performAll calls (perform p call w).2

theorem performAll_untouched : ∀ {calls : List Call} {w : World σ E},
    (∀ call ∈ calls, call.connects = none) → w.state = .disconnected →
    Untouched w (performAll p calls w) := by
  intro calls
  induction calls with
  | nil => exact fun _ hs => .refl hs
  | cons call calls ih =>
    intro w hcalls hs
    obtain ⟨hcall, hcalls⟩ := List.forall_mem_cons.mp hcalls
    have hfirst := @perform_untouched _ _ p w call hcall hs
    exact hfirst.trans (ih hcalls hfirst.state)

/-- A `connect` that fails leaves a closed client, of which no later call asks
anything of the platform, iff the tx buffer has room for the CONNECT. -/
theorem connect_fails_closed (options : ConnectOptions) (w : World σ E) :
    (∀ e w', connect p options w = (.err e, w') → w'.client.isDisconnected = true ∧
      ∀ calls, (∀ call ∈ calls, Call.connects call = none) →
        (performAll p calls w').platform = w'.platform ∧ (performAll p calls w').log = w'.log) ↔
      options.asConnect.Fits w.client.txBuffer.length := by
  constructor
  -- a CONNECT that does not fit leaves a client in the middle of a handshake
  · intro hclosed
    by_contra hfits
    obtain ⟨e, w', hw', hs⟩ := connect_of_not_fits p hfits
    have hd := isDisconnected_iff.mp (hclosed _ w' hw').1
    cases hs.symm.trans hd
  · intro hfits e w' hw'
    have hs := state_of_connect_err p hfits hw'
    refine ⟨isDisconnected_iff.mpr hs, fun calls hcalls => ?_⟩
    have hall := performAll_untouched p hcalls hs
    exact ⟨hall.platform, hall.log⟩

/-- A tx buffer of four bytes, and a `connect` that leaves a client in the
middle of a handshake. -/
theorem connect_fails_closed_small_tx :
    ¬∀ (σ E : Type) (p : Platform σ E) (options : ConnectOptions) (w : World σ E) (e : Error E)
        (w' : World σ E), connect p options w = (.err e, w') → w'.client.isDisconnected = true := by
  intro hclosed
  have hfits : ¬(⟨"client", none, none, 10, true⟩ : ConnectOptions).asConnect.Fits
      [(0 : UInt8), 0, 0, 0].length := fun h => absurd h.le (by decide)
  obtain ⟨e, w', hw', hs⟩ := @connect_of_not_fits (List UInt8) Unit (streamPlatform 64)
    ⟨"client", none, none, 10, true⟩ ⟨new [0, 0, 0, 0] [0, 0, 0, 0, 0, 0, 0, 0], [], []⟩ hfits
  have hd := isDisconnected_iff.mp (hclosed _ _ _ _ _ _ w' hw')
  cases hs.symm.trans hd

/-! ### A CONNACK that arrives -/

/-- A platform in the state `s` has `stream` left to read, by `D`: as long as
there is some of it, every read without a timeout brings some of it. -/
def Delivers (D : σ → List UInt8 → Prop) : Prop :=
  ∀ s stream buf, D s stream → stream ≠ [] → buf ≠ [] →
    ∃ k buf' s', p.readSome buf none s = ((.ok (some k), buf'), s') ∧ 0 < k ∧
      k ≤ buf.length ∧ buf'.take k = stream.take k ∧ D s' (stream.drop k)

theorem delivers_streamPlatform {chunk : Nat} (h : 0 < chunk) :
    Delivers (streamPlatform chunk) Eq := by
  rintro s stream buf rfl hs hbuf
  have hslen := List.length_pos_iff.mpr hs
  have hblen := List.length_pos_iff.mpr hbuf
  have hk : min chunk (min buf.length s.length) ≤ s.length := by omega
  refine ⟨min chunk (min buf.length s.length), _, _, if_neg hs, by omega, by omega, ?_, rfl⟩
  have hlen : (s.take (min chunk (min buf.length s.length))).length =
      min chunk (min buf.length s.length) := by
    rw [List.length_take, Nat.min_eq_left hk]
  rw [List.take_append_of_le_length hlen.ge, List.take_of_length_le hlen.le]

section Delivered

variable {p} {D : σ → List UInt8 → Prop} {stream : List UInt8} {ack : ConnAck} {n : Nat}

/-- A turn of the loop of `read_connack` while the stream goes on. -/
theorem readConnackTurn_of_delivers (hD : Delivers p D) {t : World σ E} {rest : List UInt8}
    (hv : t.Valid) (hrest : D t.platform rest) (hne : rest ≠ [])
    (hroom : t.content.length < t.capacity) :
    ∃ evs u k, Chunk t evs u ∧ D u.platform (rest.drop k) ∧
      u.content = t.content ++ rest.take k ∧ readConnackTurn p t = takeConnack u := by
  -- there is room for the read, so that the platform has to bring something
  have hbuf : t.client.rxBuffer.buffer.drop t.client.rxBuffer.used ≠ [] := by
    apply List.ne_nil_of_length_pos
    rw [List.length_drop]
    have hused := (length_content hv).1
    have hcap : t.capacity = t.client.rxBuffer.buffer.length := rfl
    omega
  obtain ⟨k, buf, s, hread, hk, hle, htake, hD'⟩ := hD _ _ _ hrest hne hbuf
  have hsome := readEnd p (.refl hv) rfl none
  have hrun : readSomeWithTimeout p none t =
      (.ok (some k), (t.afterRead none (.ok (some k)) buf s).advanced k) := by
    rw [readSomeWithTimeout, Act.bind_of_ok (platformReadSome_eq p hv hread)]
    simp only [if_neg hk.ne']
    rfl
  have hlen := length_readSome p hread
  have htrace := @Trace.advanced σ E t buf none s k hv hlen (by
    rw [List.length_drop] at hle
    exact hle.trans_eq hlen.symm)
  rw [hrun] at hsome
  cases hsome with
  | bytes evs _ hchunk =>
    refine ⟨evs, _, k, hchunk htrace.valid, hD', ?_, ?_⟩
    · rw [htrace.content, received, List.flatMap_singleton, Event.received, htake]
    · rw [readConnackTurn, Act.bind_of_ok hrun]
      simp only [if_neg hk.ne']

/-- The received bytes hold a CONNACK once they reach to its end. -/
theorem read_of_prefix {t : World σ E} {rest : List UInt8} (h : t.content ++ rest = stream)
    (hread : Packet.read stream t.client.transportClient.maxPacketSize = .ok (.connAck ack, n)) :
    t.read = .ok (.connAck ack, n) ∨
      t.content.length < n ∧ ∃ k, t.read = .err (.needMoreData k) := by
  by_cases hmore : ∃ k, t.read = .err (.needMoreData k)
  · refine .inr ⟨Nat.lt_of_not_le fun hle => ?_, hmore⟩
    obtain ⟨k, hk⟩ := hmore
    rw [← h] at hread
    cases hk.symm.trans (Packet.read_of_append hread hle)
  · have happend := Packet.read_append rest fun k hk => hmore ⟨k, hk⟩
    rw [h, hread] at happend
    exact .inl happend.symm

/-- What `read_connack` makes of a CONNACK that is there as a whole. -/
theorem takeConnack_of_read {u : World σ E} (hv : u.Valid) (hs : u.state = .transportConnected)
    (hread : u.read = .ok (.connAck ack, n)) :
    (ack.code = .success ∧ ∃ w', takeConnack u = (.ok (some ack), w') ∧ w'.log = u.log ∧
      w'.state = .connected ∧ w'.Valid ∧ w'.content = u.content.drop n) ∨
    (ack.code ≠ .success ∧ ∃ w', takeConnack u = (.err .unexpectedPacket, w')) := by
  have htaken := connackTaken hv hs
  rcases hrun : takeConnack u with ⟨r, w'⟩
  rw [hrun] at htaken
  cases htaken with
  | more hmore => cases hmore.symm.trans hread
  | accepted hok hcode htransport _ hvalid _ hcontent _ hlog =>
    cases hok.symm.trans hread
    refine .inl ⟨hcode, w', rfl, hlog, ?_, hvalid, hcontent⟩
    rw [World.state, htransport]
  | refused hok hcode =>
    cases hok.symm.trans hread
    exact .inr ⟨hcode, _, rfl⟩
  | rejected _ hnot => exact absurd hread (hnot ack n)

/-- In the loop of `read_connack`, behind `g`: some of the stream is received, the
rest is still to come. -/
def Arriving (D : σ → List UInt8 → Prop) (stream : List UInt8) (g t : World σ E) : Prop :=
  ∃ evs rest, Gathered g evs t ∧ D t.platform rest ∧ t.content ++ rest = stream

/-- As long as the CONNACK has not arrived as a whole, a turn receives more of it. -/
theorem Arriving.turn (hD : Delivers p D) {g t : World σ E} (hs : g.state = .transportConnected)
    (hread : Packet.read stream g.client.transportClient.maxPacketSize = .ok (.connAck ack, n))
    (hn : n ≤ g.capacity) (ht : Arriving D stream g t) (hlt : t.content.length < n) :
    ∃ u, Arriving D stream g u ∧
      ((u.content.length < n ∧ u.capacity - u.content.length < t.capacity - t.content.length ∧
          readConnackTurn p t = (.ok none, u)) ∨
        (u.read = .ok (.connAck ack, n) ∧ readConnackTurn p t = takeConnack u)) := by
  obtain ⟨evs, rest, ht, hrest, hstream⟩ := ht
  have hlen := congrArg List.length hstream
  have hnlen := (Packet.read_eq_ok hread).2.1
  have hcap := ht.capacity
  rw [List.length_append] at hlen
  have hne : rest ≠ [] := List.ne_nil_of_length_pos (by omega)
  obtain ⟨evs', u, k, hc, hrest', hcontent, hrun⟩ := readConnackTurn_of_delivers hD ht.valid
    hrest hne (by omega)
  have hu := ht.trans hc.gathered
  have hstream' : u.content ++ rest.drop k = stream := by
    rw [hcontent, List.append_assoc, List.take_append_drop, hstream]
  refine ⟨u, ⟨_, _, hu, hrest', hstream'⟩, ?_⟩
  rw [← hu.transportClient] at hread
  rcases read_of_prefix hstream' hread with hok | ⟨hlt', m, hmore⟩
  · exact .inr ⟨hok, hrun⟩
  · have htaken := connackTaken hu.valid (hu.state.trans hs)
    refine .inl ⟨hlt', hc.room_lt, hrun.trans ?_⟩
    rcases htake : takeConnack u with ⟨r, w'⟩
    rw [htake] at htaken
    cases htaken with
    | more => rfl
    | accepted hok | refused hok => cases hmore.symm.trans hok
    | rejected hno => exact absurd hmore (hno m)

/-- How `read_connack` ends on a stream that begins with a CONNACK. -/
theorem readConnack_of_delivers (hD : Delivers p D) {g : World σ E} (hv : g.Valid)
    (hs : g.state = .transportConnected) (hnil : g.content = []) (hg : D g.platform stream)
    (hread : Packet.read stream g.client.transportClient.maxPacketSize = .ok (.connAck ack, n))
    (hn : n ≤ g.capacity) :
    (ack.code = .success ∧ ∃ evs w', readConnack p g = (.ok ack, w') ∧
      w'.log = g.log ++ evs ∧ w'.state = .connected ∧ w'.Valid ∧
      w'.content = (received evs).drop n) ∨
    (ack.code ≠ .success ∧ ∃ w', readConnack p g = (.err .unexpectedPacket, w')) := by
  have hstep : ∀ t t', Arriving D stream g t ∧ t.content.length < n →
      readConnackTurn p t = (.ok none, t') →
      (Arriving D stream g t' ∧ t'.content.length < n) ∧
        t'.capacity - t'.content.length < t.capacity - t.content.length := by
    rintro t t' ⟨ht, hlt⟩ hnone
    obtain ⟨u, hu, ⟨hlt', hroom, hrun⟩ | ⟨hok, hrun⟩⟩ := ht.turn hD hs hread hn hlt
    · cases hnone.symm.trans hrun
      exact ⟨⟨hu, hlt'⟩, hroom⟩
    · obtain ⟨evs, rest, hu, -, -⟩ := hu
      rcases takeConnack_of_read hu.valid (hu.state.trans hs) hok with
        ⟨-, w', htake, -⟩ | ⟨-, w', htake⟩
      · cases hnone.symm.trans (hrun.trans htake)
      · cases hnone.symm.trans (hrun.trans htake)
  have hstart : Arriving D stream g g ∧ g.content.length < n := by
    have h2 := (Packet.read_eq_ok hread).1
    rw [hnil]
    exact ⟨⟨[], stream, .refl hv, hg, by rw [hnil, List.nil_append]⟩,
      Nat.lt_of_lt_of_le Nat.zero_lt_two h2⟩
  -- the last turn is the one that completes the CONNACK
  obtain ⟨t, ⟨ht, hlt⟩, hlast, hloop⟩ := Act.loop_ends hstep
    (g.capacity - g.content.length + 1) g hstart (Nat.lt_succ_self _)
  rw [readConnack, Act.bind_of_ok (turns_apply hv), hloop]
  obtain ⟨u, hu, ⟨-, -, hrun⟩ | ⟨hok, hrun⟩⟩ := ht.turn hD hs hread hn hlt
  · exact absurd hrun (hlast u)
  · obtain ⟨evs, rest, hu, -, -⟩ := hu
    have hcontent : u.content = received evs := by rw [hu.content, hnil, List.nil_append]
    have hend := takeConnack_of_read hu.valid (hu.state.trans hs) hok
    rw [hrun]
    refine hend.imp (And.imp_right ?_) (And.imp_right ?_)
    · rintro ⟨w', htake, hlog, hstate, hvalid, hdrop⟩
      refine ⟨evs, w', by rw [htake]; rfl, hlog.trans hu.log, hstate, hvalid, hdrop.trans ?_⟩
      rw [hcontent]
    · rintro ⟨w', htake⟩
      exact ⟨w', by rw [htake]; rfl⟩

variable (hD : Delivers p D) {s : σ} (hfits : options.asConnect.Fits w.client.txBuffer.length)
  (hsent : p.writeAll (connectBytes options) w.platform = (.ok (), s))
  (hstream : D (p.now s).2 stream)
  (hread : Packet.read stream w.client.transportClient.maxPacketSize = .ok (.connAck ack, n))
  (hn : n ≤ w.capacity)

include hD hfits hsent hstream hread hn

/-- How `connect` ends on a stream that begins with a CONNACK. -/
theorem connect_of_delivers :
    (ack.code = .success ∧ ∃ evs w', connect p options w = (.ok ack, w') ∧
      w'.log = w.log ++ evs ∧ w'.state = .connected ∧ w'.Valid ∧
      w'.content = (received evs).drop n) ∨
    (ack.code ≠ .success ∧ ∃ w', connect p options w = (.err .unexpectedPacket, w')) := by
  rw [connect_of_sent p hfits hsent]
  have hread' := readConnack_of_delivers hD (@valid_greeted _ _ options w (p.now s).1 s (p.now s).2)
    state_greeted content_greeted hstream (maxPacketSize_greeted.symm ▸ hread) hn
  refine hread'.imp (And.imp_right ?_) id
  rintro ⟨evs, w', hrun, hlog, hstate, hvalid, hcontent⟩
  refine ⟨[.wrote .transportConnected (connectBytes options) (.ok ()), .clock (p.now s).1] ++ evs,
    w', hrun, ?_, hstate, hvalid, hcontent⟩
  rw [hlog, log_greeted, List.append_assoc]

/-- The broker's answer: `connect` returns it, with a client that is connected
iff the answer is a success, iff it is one. -/
theorem connect_connack :
    (∃ w', connect p options w = (.ok ack, w') ∧
      (w'.state = .connected ↔ ack.code = .success) ∧
      (ack.code = .success → ∃ evs, w'.log = w.log ++ evs ∧
        (w'.client.rxBuffer.usedSlice : Outcome (Error E) _) = .ok ((received evs).drop n))) ↔
      ack.code = .success := by
  rcases connect_of_delivers hD hfits hsent hstream hread hn with
    ⟨hcode, evs, w', hrun, hlog, hstate, hvalid, hcontent⟩ | ⟨hcode, w', hrun⟩
  · refine iff_of_true ⟨w', hrun, iff_of_true hstate hcode, fun _ => ⟨evs, hlog, ?_⟩⟩ hcode
    rw [Buffer.usedSlice_eq hvalid]
    exact congrArg Outcome.ok hcontent
  · refine iff_of_false ?_ hcode
    rintro ⟨w'', hok, -⟩
    cases hrun.symm.trans hok

end Delivered

/-- A CONNACK that accepts the connection, in pieces and with a packet behind it. -/
theorem connect_connack_accepted :
    (∃ w', connect (streamPlatform 3) ⟨"client", none, none, 10, true⟩
        ⟨new (List.replicate 64 0) (List.replicate 16 0), [0x20, 2, 0, 0, 0xD0, 0], []⟩ =
          (.ok ⟨false, .success⟩, w') ∧
      (w'.state = .connected ↔ ConnectReturnCode.success = .success) ∧
      (ConnectReturnCode.success = .success → ∃ evs, w'.log = [] ++ evs ∧
        (w'.client.rxBuffer.usedSlice : Outcome (Error Unit) _) = .ok ((received evs).drop 4))) :=
  (@connect_connack (List UInt8) Unit (streamPlatform 3) ⟨"client", none, none, 10, true⟩
    ⟨new (List.replicate 64 0) (List.replicate 16 0), [0x20, 2, 0, 0, 0xD0, 0], []⟩ Eq
    [0x20, 2, 0, 0, 0xD0, 0] ⟨false, .success⟩ 4 (delivers_streamPlatform (by decide))
    [0x20, 2, 0, 0, 0xD0, 0] (by decide +kernel) rfl rfl (by decide) (by decide)).mpr rfl

/-- A CONNACK with the return code 5. -/
theorem connect_connack_refused :
    ¬∀ (σ E : Type) (p : Platform σ E) (D : σ → List UInt8 → Prop) (options : ConnectOptions)
        (w : World σ E) (s : σ) (stream : List UInt8) (ack : ConnAck) (n : Nat), Delivers p D →
      options.asConnect.Fits w.client.txBuffer.length →
      p.writeAll (connectBytes options) w.platform = (.ok (), s) → D (p.now s).2 stream →
      Packet.read stream w.client.transportClient.maxPacketSize = .ok (.connAck ack, n) →
      n ≤ w.capacity → ∃ w', connect p options w = (.ok ack, w') := by
  intro hclaim
  have hd := @delivers_streamPlatform 64 (by decide)
  let w : World (List UInt8) Unit :=
    ⟨new (List.replicate 64 0) (List.replicate 16 0), [0x20, 2, 0, 5], []⟩
  have hfits : (⟨"client", none, none, 10, true⟩ : ConnectOptions).asConnect.Fits
      w.client.txBuffer.length := by decide +kernel
  have hread : Packet.read [0x20, 2, 0, 5] w.client.transportClient.maxPacketSize =
      .ok (.connAck ⟨false, .notAuthorized⟩, 4) := by decide
  have hn : 4 ≤ w.capacity := by decide
  obtain ⟨w', hok⟩ := hclaim _ _ _ _ _ w _ _ _ _ hd hfits rfl rfl hread hn
  rcases connect_of_delivers hd hfits rfl rfl hread hn with ⟨hcode, -⟩ | ⟨-, w'', herr⟩
  · cases hcode
  · cases herr.symm.trans hok

end Connect

end NanoClient

end Umqtt
