/-
Umqtt/NanoClient/Subscription.lean

The SUBSCRIBE that `connect_subscribe` writes.

What the closure leaves in the tx buffer is the payload, behind a header that
is put together from its length alone.  So the packet is well formed iff the
closure left the entries of at least one filter and nothing else
(`subscribes_frame`).  Neither is checked: a closure that adds nothing writes a
SUBSCRIBE without filters, which `Subscribe::read_exact` rejects, and one that
ignores the error of an add may leave a part of an entry behind.
`connectSubscribe_subscribes` says for which closures this does not happen.  If
all adds succeed, the two writes together are the bytes of the packet encoder
(`streamed_subscribe`).
-/
import Umqtt.RoundTrip
import Umqtt.Packetview.SubscribeWriter
import Umqtt.NanoClient.Handshake

namespace Umqtt

open Effects Wire

namespace NanoClient

/-! ### The header -/

theorem setIndex_append {ε : Type} {pre post : List UInt8} (b byte : UInt8) :
    (setIndex pre.length byte (pre ++ b :: post) : Outcome ε Unit × List UInt8) =
      (.ok (), pre ++ byte :: post) := by
  have hlt : pre.length < (pre ++ b :: post).length := by
    rw [List.length_append, List.length_cons]
    omega
  rw [setIndex, if_pos hlt, List.set_append_right _ _ (Nat.le_refl _), Nat.sub_self,
    List.set_cons_zero]

/-- The header of a SUBSCRIBE: its first byte, the remaining length, and the
packet id 1. -/
theorem subscribeHeader_eq (n : Nat) :
    (subscribeHeader n [0, 0, 0, 0, 0, 0, 0]).1 =
      if n + 2 ≤ 268435455 then .ok (0x82 :: (base128 (n + 2) ++ toBeBytes 1))
      else .err .payloadTooLong := by
  have hfirst : (setIndex 0 0x82 [0, 0, 0, 0, 0, 0, 0] : Outcome WriteError Unit × List UInt8) =
      (.ok (), [0x82, 0, 0, 0, 0, 0, 0]) := rfl
  rw [subscribeHeader, Act.bind_of_ok hfirst]
  by_cases h : n + 2 ≤ 268435455
  · rw [if_pos h]
    have hshort : (base128 (n + 2)).length ≤ 4 := length_base128_le (k := 3) (by omega)
    generalize hbs : base128 (n + 2) = bs at hshort
    -- two bytes are left of the array behind the remaining length
    obtain ⟨rest, hrest⟩ :
        ∃ rest, [0, 0, 0, 0, 0, 0].drop bs.length = (0 : UInt8) :: 0 :: rest := by
      refine ⟨List.replicate (4 - bs.length) 0, ?_⟩
      show (List.replicate 6 0).drop bs.length = List.replicate (4 - bs.length + 2) 0
      rw [List.drop_replicate]
      exact congrArg (List.replicate · 0) (by omega)
    have hlen : (Act.zoom (List.drop 1) (fun rest header => header.take 1 ++ rest)
        (onBuffer (writeRemainingLength (n + 2)))) [0x82, 0, 0, 0, 0, 0, 0] =
          (.ok bs.length, 0x82 :: bs ++ 0 :: 0 :: rest) := by
      have hroom : (base128 (n + 2)).length ≤ (Filled.empty [(0 : UInt8), 0, 0, 0, 0, 0]).room := by
        rw [hbs]
        exact hshort.trans (by decide)
      have hemits := (emits_writeRemainingLength h (Filled.empty [0, 0, 0, 0, 0, 0])).1 hroom
      have hbuf := Filled.buffer_extend hroom
      rw [hbs] at hemits hbuf
      simp only [Act.zoom_apply, onBuffer, List.drop_one, List.tail_cons, hemits, hbuf]
      show (_, [0x82] ++ overwrite [0, 0, 0, 0, 0, 0] 0 bs) = _
      rw [overwrite_zero, hrest]
      rfl
    have hzero : (setIndex (bs.length + 1) 0 (0x82 :: bs ++ 0 :: 0 :: rest) :
        Outcome WriteError Unit × List UInt8) = (.ok (), 0x82 :: bs ++ 0 :: 0 :: rest) :=
      @setIndex_append _ (0x82 :: bs) _ 0 0
    have hone : (setIndex (bs.length + 2) 1 (0x82 :: bs ++ 0 :: 0 :: rest) :
        Outcome WriteError Unit × List UInt8) = (.ok (), 0x82 :: bs ++ [0] ++ 1 :: rest) := by
      have hset := @setIndex_append WriteError (0x82 :: bs ++ [0]) rest 0 1
      rw [List.length_append] at hset
      simpa using hset
    have hslice : (slice (0x82 :: bs ++ [0] ++ 1 :: rest) 0 (bs.length + 3) :
        Outcome WriteError _) = .ok (0x82 :: (bs ++ toBeBytes 1)) := by
      have hmiddle := @slice_middle UInt8 WriteError [] (0x82 :: (bs ++ toBeBytes 1)) rest
      simpa [toBeBytes] using hmiddle
    rw [Act.bind_of_ok hlen, Act.bind_of_ok hzero, Act.bind_of_ok hone]
    exact hslice
  · have hlong : writeRemainingLength (n + 2) = Act.fail .payloadTooLong := by
      rw [writeRemainingLength, if_pos (Nat.lt_of_not_le h)]
    rw [if_neg h, hlong]
    rfl

/-! ### Well-formed SUBSCRIBEs -/

/-- The decoder takes these bytes whole, and finds a SUBSCRIBE with the packet id
1 and these filters. -/
def Subscribes (bytes : List UInt8) (filters : List SubscribeFilter) : Prop :=
  ∃ s : Subscribe, (∀ max, bytes.length ≤ max →
      Packet.read bytes max = .ok (.subscribe s, bytes.length)) ∧
    s.pkid = 1 ∧ s.filters.iter Subscribe.BytesIterator.next = .ok filters

/-- The decoder on a frame that announces a SUBSCRIBE. -/
theorem read_subscribe {payload : List UInt8} {max : Nat}
    (h : (toBeBytes 1 ++ payload).length ≤ 268435455)
    (hmax : (frame 0x82 (toBeBytes 1 ++ payload)).length ≤ max) :
    Packet.read (frame 0x82 (toBeBytes 1 ++ payload)) max =
      (Subscribe.readExact (frameHeader 0x82 (toBeBytes 1 ++ payload))
        (frame 0x82 (toBeBytes 1 ++ payload))).bind fun s =>
          .ok (.subscribe s, (frame 0x82 (toBeBytes 1 ++ payload)).length) := by
  have hle : (toBeBytes 1 ++ payload).length ≤ max := by
    refine Nat.le_trans ?_ hmax
    simp only [frame, List.length_cons, List.length_append]
    omega
  have htype := @Packet.readExact_of_type 0x82 (toBeBytes 1 ++ payload) .subscribe (by decide)
    (by simp [toBeBytes])
  have hread := @Packet.read_frame_eq 0x82 _ [] max h hle
  rw [List.append_nil, htype] at hread
  rw [hread, Packet.readPayload]
  cases Subscribe.readExact (frameHeader 0x82 (toBeBytes 1 ++ payload))
    (frame 0x82 (toBeBytes 1 ++ payload)) <;> rfl

/-- The payloads that make a well-formed SUBSCRIBE. -/
theorem subscribes_frame {payload : List UInt8} {filters : List SubscribeFilter}
    (h : (toBeBytes 1 ++ payload).length ≤ 268435455) :
    Subscribes (frame 0x82 (toBeBytes 1 ++ payload)) filters ↔
      filters ≠ [] ∧ (∀ f ∈ filters, f.Short) ∧
        payload = filters.flatMap SubscribeFilter.entry := by
  constructor
  · rintro ⟨s, hread, -, hiter⟩
    have hread := hread _ (Nat.le_refl _)
    rw [read_subscribe h (Nat.le_refl _)] at hread
    obtain ⟨s', hs', heq⟩ := Outcome.bind_eq_ok.mp hread
    cases heq
    obtain ⟨filters', hne, hshort, rfl, rfl⟩ := (Subscribe.readExact_frame_eq_ok h).mp hs'
    have hdrain := Subscribe.decodes.drain_flatMap hshort
    rw [Storage.iter, hdrain] at hiter
    cases hiter
    exact ⟨hne, hshort, rfl⟩
  · rintro ⟨hne, hshort, rfl⟩
    refine ⟨⟨1, .wireBytes (filters.flatMap SubscribeFilter.entry)⟩, fun max hmax => ?_, rfl,
      congrArg Prod.fst (Subscribe.decodes.drain_flatMap hshort)⟩
    rw [read_subscribe h hmax]
    exact Outcome.bind_eq_ok.mpr ⟨_, Subscribe.readExact_frame hne hshort h, rfl⟩

/-! ### What is written -/

section Written

variable {σ E : Type} {p : Platform σ E} {options : ConnectOptions} {subscriptions : SubscribeFn}
  {w w' : World σ E} {ack : ConnAck}

/-- The tx buffer behind the closure. -/
def subscribed (subscriptions : SubscribeFn) (w : World σ E) : BorrowedBuf :=
  (subscriptions.run SubscribeWriter.answer (Filled.empty w.client.txBuffer)).2

/-- A `write_buffer` that returns has written its bytes. -/
theorem writeBuffer_written {buf : List UInt8} (h : writeBuffer p buf w = (.ok (), w')) :
    (∃ evs, w'.log = w.log ++ evs ∧ written evs = [buf]) ∧
      w'.client.txBuffer = w.client.txBuffer := by
  have hw := bufferWritten p buf w
  rw [h] at hw
  cases hw with
  | @sent s s' now =>
    exact ⟨⟨[.wrote w.state buf (.ok ()), .clock now], List.append_assoc _ _ _, rfl⟩, rfl⟩

/-- Behind a closure that fails, nothing is written. -/
theorem writeSubscribe_of_err {b : BorrowedBuf} {e : WriteError}
    (h : subscriptions.run SubscribeWriter.answer (Filled.empty w.client.txBuffer) = (.err e, b)) :
    writeSubscribe p subscriptions w = (.err (.writeError e), w.withTx b.buffer) := by
  have hfill : onBuffer (do
      subscriptions.run SubscribeWriter.answer
      Act.gets Filled.len) w.client.txBuffer = (.err e, b.buffer) := by
    rw [onBuffer, Act.zoom_apply, Act.bind_apply, h]
  rw [writeSubscribe, Act.bind_of_err (onTx_apply hfill)]

/-- Behind a closure that returns, the two pieces of one frame are written, unless
the payload is too long. -/
theorem writeSubscribe_of_run {b : BorrowedBuf}
    (h : subscriptions.run SubscribeWriter.answer (Filled.empty w.client.txBuffer) = (.ok (), b)) :
    writeSubscribe p subscriptions w =
      if b.len + 2 ≤ 268435455 then
        (do writeBuffer p (0x82 :: (base128 (b.len + 2) ++ toBeBytes 1))
            writeBuffer p b.written : Act (World σ E) (Error E) Unit) (w.withTx b.buffer)
      else (.err (.writeError .payloadTooLong), w.withTx b.buffer) := by
  have hfill : onBuffer (do
      subscriptions.run SubscribeWriter.answer
      Act.gets Filled.len) w.client.txBuffer = (.ok b.len, b.buffer) := by
    rw [onBuffer, Act.zoom_apply, Act.bind_apply, h]
    rfl
  rw [writeSubscribe, Act.bind_of_ok (onTx_apply hfill), subscribeHeader_eq]
  split
  · show (writeBuffer p _ >>= fun _ => writeAll p b.len : Act (World σ E) (Error E) Unit) _ = _
    rw [Act.bind_apply, Act.bind_apply]
    generalize 0x82 :: (base128 (b.len + 2) ++ toBeBytes 1) = header
    rcases hfirst : writeBuffer p header (w.withTx b.buffer) with ⟨⟨⟩ | _ | _, t⟩
    · obtain ⟨-, htx⟩ := writeBuffer_written hfirst
      have hle : b.len ≤ t.client.txBuffer.length := b.le.trans_eq (congrArg _ htx.symm)
      show writeAll p b.len t = writeBuffer p b.written t
      rw [writeAll_of_le p hle, htx]
      rfl
    all_goals rfl
  · rfl

/-- The header and the payload of a SUBSCRIBE make one frame. -/
theorem header_append_written (b : BorrowedBuf) :
    (0x82 :: (base128 (b.len + 2) ++ toBeBytes 1)) ++ b.written =
      frame 0x82 (toBeBytes 1 ++ b.written) := by
  have hlen : (toBeBytes 1 ++ b.written).length = b.len + 2 := by
    rw [List.length_append, length_toBeBytes, Filled.length_written, Nat.add_comm]
  rw [frame, hlen, ← List.append_assoc]
  rfl

/-- A `write_subscribe` that returns has written a frame around what the closure
left. -/
theorem writeSubscribe_of_ok (h : writeSubscribe p subscriptions w = (.ok (), w')) :
    (toBeBytes 1 ++ (subscribed subscriptions w).written).length ≤ 268435455 ∧
      ∃ evs, w'.log = w.log ++ evs ∧ (written evs).flatten =
        frame 0x82 (toBeBytes 1 ++ (subscribed subscriptions w).written) := by
  rcases hrun : subscriptions.run SubscribeWriter.answer (Filled.empty w.client.txBuffer) with
    ⟨⟨⟩ | e | _, b⟩
  · have hb : subscribed subscriptions w = b := congrArg Prod.snd hrun
    rw [writeSubscribe_of_run hrun] at h
    rw [hb, ← header_append_written, List.length_append, length_toBeBytes, Filled.length_written,
      Nat.add_comm]
    split at h
    · obtain ⟨⟨⟩, t, hfirst, hsecond⟩ := Act.bind_eq_ok.mp h
      obtain ⟨⟨evs, hlog, hevs⟩, -⟩ := writeBuffer_written hfirst
      obtain ⟨⟨evs', hlog', hevs'⟩, -⟩ := writeBuffer_written hsecond
      refine ⟨‹_›, evs ++ evs', ?_, ?_⟩
      · rw [hlog', hlog, List.append_assoc]
        rfl
      · rw [written_append, hevs, hevs']
        simp
    · cases h
  · rw [writeSubscribe_of_err hrun] at h
    cases h
  · have hne := (SubscribeWriter.run_grows subscriptions (Filled.empty w.client.txBuffer)).2.2
    rw [hrun] at hne
    exact absurd rfl hne

/-- The filters of the adds that returned `Ok`, when `connect_subscribe` runs the
closure. -/
def acceptedFilters (p : Platform σ E) (options : ConnectOptions) (subscriptions : SubscribeFn)
    (w : World σ E) : List SubscribeFilter :=
  SubscribeWriter.accepted (subscriptions.asked SubscribeWriter.answer
    (Filled.empty (connect p options w).2.client.txBuffer))

/-- What a `connect_subscribe` that returns has written: the CONNECT, and a frame
around what the closure left. -/
theorem connectSubscribe_of_ok (h : connectSubscribe p options subscriptions w = (.ok ack, w')) :
    (toBeBytes 1 ++ (subscribed subscriptions (connect p options w).2).written).length ≤
        268435455 ∧
      (connect p options w).2.client.txBuffer.length = w.client.txBuffer.length ∧
      ∃ rest, written (w'.log.drop w.log.length) = connectBytes options :: rest ∧
        rest.flatten = frame 0x82
          (toBeBytes 1 ++ (subscribed subscriptions (connect p options w).2).written) := by
  obtain ⟨ack', w₁, hconnect, h⟩ := Act.bind_eq_ok.mp h
  obtain ⟨⟨⟩, u, hwrite, h⟩ := Act.bind_eq_ok.mp h
  cases h
  obtain ⟨got, chunk, n, ha⟩ := accepted_of_ok p hconnect
  rw [if_pos ((ConnectReturnCode.isSuccess_iff _).mpr ha.success)] at hwrite
  obtain ⟨hle, evs, hlog, hevs⟩ := writeSubscribe_of_ok hwrite
  rw [hconnect]
  refine ⟨hle, ha.txLength, written evs, ?_, hevs⟩
  rw [hlog, ha.log, List.append_assoc, List.drop_left, written_append, ha.wrote]
  rfl

/-- The CONNECT is followed by nothing, or by a SUBSCRIBE with one filter or
more, which are those of the adds that returned `Ok`. -/
def WellSubscribed (p : Platform σ E) (options : ConnectOptions) (subscriptions : SubscribeFn)
    (w w' : World σ E) : Prop :=
  ∃ rest, written (w'.log.drop w.log.length) = connectBytes options :: rest ∧
    (rest.flatten = [] ∨ acceptedFilters p options subscriptions w ≠ [] ∧
      Subscribes rest.flatten (acceptedFilters p options subscriptions w))

/-- What `connect_subscribe` wrote is well formed iff the closure left the
entries of the filters that were accepted, of which there is one. -/
theorem wellSubscribed_iff (h : connectSubscribe p options subscriptions w = (.ok ack, w')) :
    WellSubscribed p options subscriptions w w' ↔
      acceptedFilters p options subscriptions w ≠ [] ∧
      (∀ f ∈ acceptedFilters p options subscriptions w, f.Short) ∧
      (subscribed subscriptions (connect p options w).2).written =
        (acceptedFilters p options subscriptions w).flatMap SubscribeFilter.entry := by
  obtain ⟨hle, -, rest, hrest, hflat⟩ := connectSubscribe_of_ok h
  constructor
  · rintro ⟨rest', hrest', hsub⟩
    cases hrest.symm.trans hrest'
    rw [hflat] at hsub
    rcases hsub with hnil | ⟨-, hsub⟩
    · cases hnil
    · exact (subscribes_frame hle).mp hsub
  · intro hwell
    refine ⟨rest, hrest, .inr ⟨hwell.1, ?_⟩⟩
    rw [hflat]
    exact (subscribes_frame hle).mpr hwell

/-- A `connect_subscribe` that returns has written a well-formed SUBSCRIBE iff
its closure adds a filter, and no add fails behind its first bytes. -/
theorem connectSubscribe_subscribes
    (h : connectSubscribe p options subscriptions w = (.ok ack, w')) :
    WellSubscribed p options subscriptions w w' ↔
      ∃ filters, filters ≠ [] ∧
        SubscribeWriter.plan subscriptions w.client.txBuffer.length = some filters := by
  refine (wellSubscribed_iff h).trans ?_
  obtain ⟨-, htx, -⟩ := connectSubscribe_of_ok h
  let b₀ : BorrowedBuf := Filled.empty (connect p options w).2.client.txBuffer
  have hroom : b₀.room = w.client.txBuffer.length := htx
  rw [← hroom]
  constructor
  · rintro ⟨hne, -, hpayload⟩
    cases hplan : SubscribeWriter.plan subscriptions b₀.room with
    | none =>
      have hlt := SubscribeWriter.run_of_plan_none subscriptions hplan
      have hlen := congrArg List.length hpayload
      rw [Filled.length_written] at hlen
      exact absurd hlen.symm (Nat.ne_of_lt ((Nat.zero_add _).symm.trans_lt hlt))
    | some filters =>
      obtain ⟨hacc, -⟩ := SubscribeWriter.run_plan subscriptions hplan
      exact ⟨filters, fun hnil => hne (hacc.trans hnil), rfl⟩
  · rintro ⟨filters, hne, hplan⟩
    obtain ⟨hacc, hshort, hle, hrun⟩ := SubscribeWriter.run_plan subscriptions hplan
    have hacc : acceptedFilters p options subscriptions w = filters := hacc
    rw [hacc]
    refine ⟨hne, hshort, ?_⟩
    show ((subscriptions.run SubscribeWriter.answer b₀).2).written = _
    rw [hrun, Filled.written_extend hle]
    rfl

/-- A closure that adds one filter. -/
theorem connectSubscribe_subscribes_one :
    let p := streamPlatform 64
    let options : ConnectOptions := ⟨"client", none, none, 10, true⟩
    let w : World (List UInt8) Unit :=
      ⟨new (List.replicate 64 0) (List.replicate 16 0), [0x20, 2, 0, 0], []⟩
    let subscriptions : SubscribeFn := .ask (.addStr "a" .atMostOnce) fun _ => .done (.ok ())
    WellSubscribed p options subscriptions w (connectSubscribe p options subscriptions w).2 := by
  intro p options w subscriptions
  have h : connectSubscribe p options subscriptions w =
      (.ok ⟨false, .success⟩, (connectSubscribe p options subscriptions w).2) :=
    Prod.ext (by decide +kernel) rfl
  exact (connectSubscribe_subscribes h).mpr ⟨[⟨"a", .atMostOnce⟩], nofun, by decide⟩

/-- A closure that adds nothing. -/
theorem connectSubscribe_subscribes_nothing :
    ¬∀ (σ E : Type) (p : Platform σ E) (options : ConnectOptions) (subscriptions : SubscribeFn)
        (w w' : World σ E) (ack : ConnAck),
      connectSubscribe p options subscriptions w = (.ok ack, w') →
      WellSubscribed p options subscriptions w w' := by
  intro hclaim
  let w : World (List UInt8) Unit :=
    ⟨new (List.replicate 64 0) (List.replicate 16 0), [0x20, 2, 0, 0], []⟩
  have h : connectSubscribe (streamPlatform 64) ⟨"client", none, none, 10, true⟩
      (.done (.ok ())) w = (.ok ⟨false, .success⟩, _) := Prod.ext (by decide +kernel) rfl
  exact ((wellSubscribed_iff h).mp (hclaim _ _ _ _ _ _ _ _ h)).1 rfl

/-! ### The same SUBSCRIBE from the encoder -/

/-- Of two buffers that are written one behind the other, both are handed over, or
fewer than two.  It is both iff the client is open and the platform takes the
first, and so in any case in which both writes return. -/
theorem writeBuffer_writeBuffer_log (p : Platform σ E) (buf buf' : List UInt8) (w : World σ E) :
    ∃ evs, ((do writeBuffer p buf; writeBuffer p buf' : Act (World σ E) (Error E) Unit) w).2.log =
        w.log ++ evs ∧
      (written evs = [buf, buf'] ∧ w.state ≠ .disconnected ∧
          (∃ s, p.writeAll buf w.platform = (.ok (), s)) ∨
        (written evs).length < 2 ∧
          ¬(w.state ≠ .disconnected ∧ ∃ s, p.writeAll buf w.platform = (.ok (), s)) ∧
          ((do writeBuffer p buf; writeBuffer p buf' : Act (World σ E) (Error E) Unit) w).1 ≠
            .ok ()) := by
  have h := pairWritten p buf buf' w
  generalize ((do writeBuffer p buf; writeBuffer p buf' : Act (World σ E) (Error E) Unit) w).1 = r
    at h ⊢
  generalize ((do writeBuffer p buf; writeBuffer p buf' : Act (World σ E) (Error E) Unit) w).2 = w'
    at h ⊢
  cases h with
  | first hw hr =>
    cases hw with
    | closed hs => exact ⟨[], (List.append_nil _).symm, .inr ⟨Nat.zero_lt_two, fun h => h.1 hs, hr⟩⟩
    | sent => exact absurd rfl hr
    | @broken e s hs hsent =>
      refine ⟨[.wrote w.state buf (.error e)], rfl, .inr ⟨Nat.one_lt_two, ?_, hr⟩⟩
      rintro ⟨-, s', hok⟩
      cases hok.symm.trans hsent
  | second hw ht hw' =>
    cases hw with
    | @sent s s' now hs hsent _ =>
      have hlog : (((w.wrote buf (.ok ()) s).clocked now s').packetSent now).log =
          w.log ++ [.wrote w.state buf (.ok ()), .clock now] := List.append_assoc _ _ _
      generalize ((w.wrote buf (.ok ()) s).clocked now s').packetSent now = t at hlog ht hw'
      cases hw' with
      | closed hclosed => exact absurd hclosed ht
      | @sent _ _ now' =>
        refine ⟨[.wrote w.state buf (.ok ()), .clock now] ++
          [.wrote t.state buf' (.ok ()), .clock now'], ?_, .inl ⟨rfl, hs, s, hsent⟩⟩
        rw [← List.append_assoc, ← hlog]
        exact List.append_assoc _ _ _
      | @broken e =>
        refine ⟨[.wrote w.state buf (.ok ()), .clock now] ++ [.wrote t.state buf' (.error e)], ?_,
          .inl ⟨rfl, hs, s, hsent⟩⟩
        rw [← List.append_assoc, ← hlog]
        rfl

/-- `write_subscribe` hands over two buffers iff the closure returns `Ok`, the payload
is within the limit of a remaining length, the client is open, and the platform
takes the header. -/
theorem writeSubscribe_both (p : Platform σ E) (subscriptions : SubscribeFn) (w : World σ E) :
    (∃ header payload,
      written ((writeSubscribe p subscriptions w).2.log.drop w.log.length) = [header, payload]) ↔
    (subscriptions.run SubscribeWriter.answer (Filled.empty w.client.txBuffer)).1 = .ok () ∧
      (subscribed subscriptions w).len + 2 ≤ 268435455 ∧ w.state ≠ .disconnected ∧
      ∃ s, p.writeAll (0x82 :: (base128 ((subscribed subscriptions w).len + 2) ++ toBeBytes 1))
        w.platform = (.ok (), s) := by
  -- where the closure fails or its payload is too long, nothing is handed over
  have hunsent : ∀ b, ¬∃ header payload,
      written ((w.withTx b).log.drop w.log.length) = [header, payload] := by
    rintro b ⟨header, payload, hboth⟩
    rw [show (w.withTx b).log = w.log from rfl, List.drop_length] at hboth
    cases hboth
  rcases hrun : subscriptions.run SubscribeWriter.answer (Filled.empty w.client.txBuffer) with
    ⟨⟨⟩ | e | _, b⟩
  · have hb : subscribed subscriptions w = b := congrArg Prod.snd hrun
    rw [writeSubscribe_of_run hrun, hb]
    by_cases hle : b.len + 2 ≤ 268435455
    · obtain ⟨evs, hlog, hevs⟩ := writeBuffer_writeBuffer_log p
        (0x82 :: (base128 (b.len + 2) ++ toBeBytes 1)) b.written (w.withTx b.buffer)
      rw [if_pos hle, hlog, show (w.withTx b.buffer).log = w.log from rfl, List.drop_left]
      rcases hevs with ⟨hboth, hhanded⟩ | ⟨hshort, hno, -⟩
      · exact iff_of_true ⟨_, _, hboth⟩ ⟨rfl, hle, hhanded⟩
      · refine iff_of_false ?_ fun h => hno h.2.2
        rintro ⟨header, payload, hboth⟩
        rw [hboth] at hshort
        exact absurd hshort (Nat.lt_irrefl 2)
    · rw [if_neg hle]
      exact iff_of_false (hunsent _) fun h => hle h.2.1
  · rw [writeSubscribe_of_err hrun]
    refine iff_of_false (hunsent _) ?_
    rintro ⟨⟨⟩, -⟩
  · have hne := (SubscribeWriter.run_grows subscriptions (Filled.empty w.client.txBuffer)).2.2
    rw [hrun] at hne
    exact absurd rfl hne

/-- If all adds of the closure return `Ok`, the two buffers that `write_subscribe`
hands over, as it does when it returns, are together the bytes that the encoder
writes for the filters that were added.  It hands them over iff the closure returns
`Ok`, what it left is not too long, the client is open, and the platform takes the
header.  Adding the parts of a path comes to the same as adding the joined path,
whatever the buffer. -/
theorem streamed_subscribe (p : Platform σ E) (subscriptions : SubscribeFn) (w : World σ E) :
    (∀ r w',
      (∀ x ∈ subscriptions.asked SubscribeWriter.answer (Filled.empty w.client.txBuffer),
        x.2.isOk) →
      writeSubscribe p subscriptions w = (r, w') →
      (r = .ok () → ∃ header payload,
        written (w'.log.drop w.log.length) = [header, payload]) ∧
      ∀ header payload, written (w'.log.drop w.log.length) = [header, payload] →
        Writes WriteError.notEnoughCapacity
          (Subscribe.new 1 (SubscribeWriter.accepted (subscriptions.asked SubscribeWriter.answer
            (Filled.empty w.client.txBuffer)))).write (header ++ payload)) ∧
    ((∃ header payload,
      written ((writeSubscribe p subscriptions w).2.log.drop w.log.length) = [header, payload]) ↔
      (subscriptions.run SubscribeWriter.answer (Filled.empty w.client.txBuffer)).1 = .ok () ∧
        (subscribed subscriptions w).len + 2 ≤ 268435455 ∧ w.state ≠ .disconnected ∧
        ∃ s, p.writeAll (0x82 :: (base128 ((subscribed subscriptions w).len + 2) ++ toBeBytes 1))
          w.platform = (.ok (), s)) ∧
    ∀ (parts : List String) (separator : String) (qos : QoS) (b b' : BorrowedBuf),
      SubscribeWriter.addSeparated parts separator qos b = (.ok (), b') ↔
        SubscribeWriter.addStr (separator.intercalate parts) qos b = (.ok (), b') := by
  refine ⟨fun r w' hall h => ?_, writeSubscribe_both p subscriptions w,
    fun _ _ _ _ _ => SubscribeWriter.addSeparated_eq_ok⟩
  obtain ⟨-, -, hfit, hpayload⟩ :=
    SubscribeWriter.run_plan subscriptions (SubscribeWriter.plan_of_ok subscriptions hall)
  generalize SubscribeWriter.accepted _ = filters at hfit hpayload ⊢
  -- an error before the first write
  have hunsent : ∀ (b : List UInt8) (r : Outcome (Error E) Unit), r ≠ .ok () →
      (r = .ok () → ∃ header payload,
        written ((w.withTx b).log.drop w.log.length) = [header, payload]) ∧
      ∀ header payload, written ((w.withTx b).log.drop w.log.length) = [header, payload] →
        Writes WriteError.notEnoughCapacity (Subscribe.new 1 filters).write
          (header ++ payload) := by
    intro b r hr
    rw [show (w.withTx b).log = w.log from rfl, List.drop_length]
    exact ⟨fun hok => absurd hok hr, fun header payload hboth => by cases hboth⟩
  rcases hrun : subscriptions.run SubscribeWriter.answer (Filled.empty w.client.txBuffer) with
    ⟨⟨⟩ | e | _, b⟩
  · rw [hrun] at hpayload
    have hwritten : b.written = filters.flatMap SubscribeFilter.entry := by
      rw [show b = _ from hpayload, Filled.written_extend hfit]
      rfl
    rw [writeSubscribe_of_run hrun] at h
    split at h
    · rename_i hle
      obtain ⟨evs, hlog, hevs⟩ := writeBuffer_writeBuffer_log p
        (0x82 :: (base128 (b.len + 2) ++ toBeBytes 1)) b.written (w.withTx b.buffer)
      rw [h] at hlog hevs
      rw [hlog, show (w.withTx b.buffer).log = w.log from rfl, List.drop_left]
      rcases hevs with ⟨hevs, -⟩ | ⟨hshort, -, hr⟩
      · refine ⟨fun _ => ⟨_, _, hevs⟩, fun header payload hboth => ?_⟩
        cases hevs.symm.trans hboth
        rw [header_append_written, hwritten]
        refine Subscribe.writes rfl ?_
        rw [Subscribe.body, ← hwritten, List.length_append, length_toBeBytes,
          Filled.length_written, Nat.add_comm]
        exact hle
      · refine ⟨fun hok => absurd hok hr, fun header payload hboth => ?_⟩
        rw [hboth] at hshort
        exact absurd hshort (Nat.lt_irrefl 2)
    · cases h
      exact hunsent _ _ (by rintro ⟨⟩)
  · rw [writeSubscribe_of_err hrun] at h
    cases h
    exact hunsent _ _ (by rintro ⟨⟩)
  · have hne := (SubscribeWriter.run_grows subscriptions (Filled.empty w.client.txBuffer)).2.2
    rw [hrun] at hne
    exact absurd rfl hne

/-- Two filters, one of them in parts: `write_subscribe` returns, and the header and
the payload that it has handed over are what the encoder writes. -/
theorem streamed_subscribe_two :
    let p := streamPlatform 64
    let subscriptions : SubscribeFn :=
      .all [.addStr "a" .atMostOnce, .addSeparated ["b", "c"] "/" .atLeastOnce]
    let w : World (List UInt8) Unit := (connect p ⟨"client", none, none, 10, true⟩
      ⟨new (List.replicate 32 0) (List.replicate 16 0), [0x20, 2, 0, 0], []⟩).2
    (writeSubscribe p subscriptions w).1 = .ok () ∧
      written ((writeSubscribe p subscriptions w).2.log.drop w.log.length) =
        [[0x82, 12, 0, 1], [0, 1, 97, 0, 0, 3, 98, 47, 99, 1]] ∧
      Writes WriteError.notEnoughCapacity
        (Subscribe.new 1 [⟨"a", .atMostOnce⟩, ⟨"b/c", .atLeastOnce⟩]).write
        ([0x82, 12, 0, 1] ++ [0, 1, 97, 0, 0, 3, 98, 47, 99, 1]) := by
  intro p subscriptions w
  have hwritten : written ((writeSubscribe p subscriptions w).2.log.drop w.log.length) =
      [[0x82, 12, 0, 1], [0, 1, 97, 0, 0, 3, 98, 47, 99, 1]] := by decide +kernel
  have haccepted : SubscribeWriter.accepted (subscriptions.asked SubscribeWriter.answer
      (Filled.empty w.client.txBuffer)) = [⟨"a", .atMostOnce⟩, ⟨"b/c", .atLeastOnce⟩] := by
    decide +kernel
  have h := (streamed_subscribe p subscriptions w).1 (writeSubscribe p subscriptions w).1
    (writeSubscribe p subscriptions w).2 (by decide +kernel) rfl
  rw [haccepted] at h
  exact ⟨by decide +kernel, hwritten, h.2 _ _ hwritten⟩

end Written

end NanoClient

end Umqtt
