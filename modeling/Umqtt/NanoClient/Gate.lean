/-
Umqtt/NanoClient/Gate.lean

The handshake gate: over any run of calls, the client writes nothing but its
CONNECT before the broker has accepted the connection, and nothing behind a
failure that ended it (`handshake_gate`).

`Progress` is what an operation of a connected client can do to the connection:
it goes on, or it ends with an error.  It is proved for the parts of the
operations and composed along `>>=` (`Keeps.bind`).  A run is recorded as a list
of items, the calls with what they asked of the platform and what they
returned; `Live` says of such a record that its last handshake has succeeded
and nothing has failed since.
-/
import Umqtt.NanoClient.Handshake

namespace Umqtt

open Effects Wire

namespace NanoClient

section Progress

variable {σ E : Type} {α β : Type}

/-! ### The operations of a connected client -/

/-- If the call is a write, the transport client is connected. -/
def Event.InSession : Event E → Prop
  | .wrote state _ _ => state = .connected
  | _ => True

/-- The client is connected. -/
structure Ready (w : World σ E) : Prop where
  valid : w.Valid
  maxPacketSize : w.client.transportClient.maxPacketSize = w.capacity
  state : w.state = .connected

/-- The ways in which an operation of a connected client ends. -/
inductive Progress (w : World σ E) : Outcome (Error E) α → World σ E → Prop where
  | panicked {w' : World σ E} : Progress w .panic w'
  | going {evs : List (Event E)} {r : Outcome (Error E) α} {w' : World σ E} :
      Logged w evs w' → Ready w' → (∀ e ∈ evs, e.InSession ∧ ¬e.Fails) →
      (∀ e, r ≠ .err (.readError e)) → Progress w r w'
  | ended {evs : List (Event E)} {last : Option (Event E)} {e : Error E} {w' : World σ E} :
      Logged w (evs ++ last.toList) w' → w'.state = .disconnected →
      (∀ e ∈ evs, e.InSession ∧ ¬e.Fails) → (∀ e ∈ last, e.InSession) →
      Progress w (.err e) w'

/-- What comes behind a part that went on. -/
theorem Progress.behind {w t w' : World σ E} {evs : List (Event E)} {r : Outcome (Error E) α}
    (hlog : Logged w evs t) (hevs : ∀ e ∈ evs, e.InSession ∧ ¬e.Fails) (h : Progress t r w') :
    Progress w r w' := by
  have happend : ∀ evs' : List (Event E), (∀ e ∈ evs', e.InSession ∧ ¬e.Fails) →
      ∀ e ∈ evs ++ evs', e.InSession ∧ ¬e.Fails := fun evs' h' e he =>
    (List.mem_append.mp he).elim (hevs e) (h' e)
  cases h with
  | panicked => exact .panicked
  | going hlog' hw hevs' hr => exact .going (hlog.trans hlog') hw (happend _ hevs') hr
  | ended hlog' hs hevs' hlast =>
    have hall := hlog.trans hlog'
    rw [← List.append_assoc] at hall
    exact .ended hall hs (happend _ hevs') hlast

/-- `x` keeps a connected client connected, or ends with an error. -/
def Keeps (x : Act (World σ E) (Error E) α) : Prop := ∀ w, Ready w → Progress w (x w).1 (x w).2

theorem Progress.unchanged {w : World σ E} (hw : Ready w) {r : Outcome (Error E) α}
    (hr : ∀ e, r ≠ .err (.readError e)) : Progress w r w :=
  .going (.refl hw.valid) hw (fun _ h => nomatch h) hr

theorem Keeps.pure (a : α) : Keeps (Pure.pure a : Act (World σ E) (Error E) α) := fun _ hw =>
  .unchanged hw nofun

theorem Keeps.gets (f : World σ E → α) : Keeps (Act.gets f : Act (World σ E) (Error E) α) :=
  fun _ hw => .unchanged hw nofun

theorem Keeps.lift {x : Outcome (Error E) α} (hx : ∀ e, x ≠ .err (.readError e)) :
    Keeps (Act.lift x : Act (World σ E) (Error E) α) := fun _ hw => .unchanged hw hx

theorem Keeps.bind {x : Act (World σ E) (Error E) α} {f : α → Act (World σ E) (Error E) β}
    (hx : Keeps x) (hf : ∀ a, Keeps (f a)) : Keeps (x >>= f) := by
  intro w hw
  have h := hx w hw
  rw [Act.bind_apply]
  rcases hxw : x w with ⟨a | e | _, t⟩
  all_goals rw [hxw] at h
  · cases h with
    | going hlog ht hevs _ => exact .behind hlog hevs (hf a t ht)
  · cases h with
    | going hlog ht hevs hr => exact .going hlog ht hevs fun e' he => hr e' (by cases he; rfl)
    | ended hlog hs hevs hlast => exact .ended hlog hs hevs hlast
  · exact .panicked

theorem Keeps.ite {c : Prop} [Decidable c] {x y : Act (World σ E) (Error E) α} (hx : Keeps x)
    (hy : Keeps y) : Keeps (if c then x else y) := by
  split
  · exact hx
  · exact hy

theorem keeps_onTx (write : Act (List UInt8) WriteError α) :
    Keeps (onTx (write.mapErr .writeError) : Act (World σ E) (Error E) α) := by
  intro w hw
  rcases hx : write w.client.txBuffer with ⟨r, b⟩
  rw [onTx_apply hx]
  refine .going ⟨(List.append_nil _).symm, hw.valid, rfl, rfl⟩
      ⟨hw.valid, hw.maxPacketSize, hw.state⟩
    (fun _ h => nomatch h) fun e he => ?_
  obtain ⟨e', -, h⟩ := Outcome.mapErr_eq_err.mp he
  cases h

theorem keeps_removePrefix (n : Nat) :
    Keeps (onRx (Buffer.removePrefix n) : Act (World σ E) (Error E) Unit) := by
  intro w hw
  obtain ⟨b, hb, hvalid, -, hcap⟩ := @Buffer.removePrefix_spec (Error E) _ hw.valid n
  rw [onRx, Act.zoom_apply, hb]
  refine .going ⟨(List.append_nil _).symm, hvalid, hcap, rfl⟩
    ⟨hvalid, hw.maxPacketSize.trans hcap.symm, hw.state⟩ (List.forall_mem_nil _) ?_
  rintro e ⟨⟩

variable (p : Platform σ E)

theorem keeps_writeBuffer (buf : List UInt8) : Keeps (writeBuffer p buf) := by
  intro w hw
  have h := bufferWritten p buf w
  generalize (writeBuffer p buf w).1 = r at h ⊢
  generalize (writeBuffer p buf w).2 = w' at h ⊢
  cases h with
  | closed hs => cases hs.symm.trans hw.state
  | @sent s s' now =>
    have hwrote := Trace.wrote hw.valid buf (.ok ()) s
    have ht := (hwrote.trans (.clocked hwrote.valid now s')).packetSent now
    refine .going ht.toLogged ⟨ht.valid, ?_, (World.state_packetSent _ _).trans hw.state⟩ ?_ nofun
    · rw [ht.maxPacketSize, ht.capacity, hw.maxPacketSize]
    · intro e he
      rcases List.mem_cons.mp he with rfl | he
      · exact ⟨hw.state, id⟩
      · obtain rfl := List.mem_singleton.mp he
        exact ⟨trivial, id⟩
  | @broken e s =>
    have ht := (Trace.wrote hw.valid buf (.error e) s).closed
    refine @Progress.ended _ _ _ _ [] (some _) _ _ ht.toLogged rfl (fun _ h => nomatch h) ?_
    rintro e ⟨⟩
    exact hw.state

theorem keeps_writeAll (size : Nat) : Keeps (writeAll p size) := by
  refine .bind (.gets _) fun txBuffer => .bind (.lift ?_) fun buf => keeps_writeBuffer p buf
  unfold slice
  split <;> exact nofun

theorem keeps_sendPacket (write : Act (List UInt8) WriteError Nat) : Keeps (sendPacket p write) :=
  .bind (keeps_onTx write) (keeps_writeAll p)

theorem keeps_sendPublish (publish : OutPublish) (topic : TopicFn) (payload : PayloadFn) :
    Keeps (sendPublish p publish topic payload) :=
  .bind (keeps_onTx _) (keeps_writeBuffer p)

theorem keeps_performSend (packet : Send) : Keeps (performSend p packet) := by
  cases packet with
  | pingRequest | pubAck | pubRec | pubComp => exact keeps_sendPacket p _
  | publish | publishQos0 | publishQos1 => exact keeps_sendPublish p _ _ _

theorem keeps_completeNotification (completion : NotificationCompletion) :
    Keeps (completeNotification p completion) := by
  refine .bind (.ite (keeps_removePrefix _) (.pure ())) fun _ => ?_
  cases completion.action with
  | none => exact .pure ()
  | pingReq | pubAck | pubRec | pubComp => exact keeps_sendPacket p _

theorem keeps_writeSubscribe (subscriptions : SubscribeFn) :
    Keeps (writeSubscribe p subscriptions) := by
  refine .bind (keeps_onTx _) fun payloadLen => .bind (.lift fun e he => ?_) fun header =>
    .bind (keeps_writeBuffer p header) fun _ => keeps_writeAll p payloadLen
  obtain ⟨e', -, h⟩ := Outcome.mapErr_eq_err.mp he
  cases h

theorem Event.Quiet.inSession {e : Event E} (h : e.Quiet) : e.InSession ∧ ¬e.Fails := by
  refine ⟨?_, h.2⟩
  cases e with
  | wrote => exact absurd trivial h.1
  | read | clock => trivial

theorem Event.IsRead.inSession {e : Event E} (h : e.IsRead) : e.InSession := by
  cases e with
  | read => trivial
  | wrote | clock => cases h

theorem Gathered.ready {w t : World σ E} {evs : List (Event E)} (h : Gathered w evs t)
    (hw : Ready w) : Ready t where
  valid := h.valid
  maxPacketSize := by rw [h.maxPacketSize, h.capacity, hw.maxPacketSize]
  state := h.state.trans hw.state

theorem keeps_nextNotification : Keeps (nextNotification p) := by
  intro w hw
  have h := notified p hw.valid
  generalize (nextNotification p w).1 = r at h ⊢
  generalize (nextNotification p w).2 = w' at h ⊢
  cases h with
  | closed hs => cases hs.symm.trans hw.state
  | panicked => exact .panicked
  | broke _ hb =>
    obtain ⟨pre, e, rfl, hpre, hread, -⟩ := hb.last
    refine @Progress.ended _ _ _ _ pre (some e) _ _ hb.toLogged hb.state
      (fun e' he => (hpre e' he).inSession) ?_
    rintro e' ⟨⟩
    exact hread.inSession
  | ping _ hg _ hg' =>
    have ht := hg.trans hg'
    refine .going ht.toLogged (ht.ready hw) (fun e he => (ht.quiet e he).inSession) ?_
    rintro e ⟨⟩
  | @decoded evs evs' t u _ hg _ hc hf =>
    have ht := hg.trans hc.gathered
    have hu := ht.ready hw
    have hevs := fun e he => (ht.quiet e he).inSession
    have hr := TransportClient.received u.client.transportClient u.content
    generalize (TransportClient.onBytesReceived u.content u.client.transportClient).1 = r at hr ⊢
    generalize (TransportClient.onBytesReceived u.content u.client.transportClient).2 = c at hr ⊢
    have hended : ∀ e, Progress w (.err (.readError e) : Outcome (Error E) ClientNotification)
        (u.withTransport u.client.transportClient.onTransportClosed) := by
      intro e
      refine @Progress.ended _ _ _ _ (evs ++ evs') none _ _ ?_ rfl hevs ?_
      · rw [Option.toList_none, List.append_nil]
        exact ht.toTrace.closed.toLogged
      · rintro e' ⟨⟩
    cases hr with
    | closed hs => cases hs.symm.trans hu.state
    -- the loop ends with a whole frame, of which the decoder does not ask for more
    | needMore _ hread =>
      obtain ⟨fh, hcheck⟩ := hf
      exact absurd hread (Packet.read_ne_needMoreData hcheck _ _)
    | malformed | unexpected => exact hended _
    | accepted hs | refused hs => cases hs.symm.trans hu.state
    | packet =>
      refine .going ht.toLogged hu hevs ?_
      rintro e ⟨⟩

end Progress

section Opening

variable {σ E : Type} (p : Platform σ E)

/-! ### The operations that connect -/

/-- The operations that connect go on in a connected client. -/
theorem perform_connects {call : Call} {options : ConnectOptions}
    (h : call.connects = some options) :
    ∃ next : ConnAck → Act (World σ E) (Error E) Value, (∀ ack, Keeps (next ack)) ∧
      perform p call = connect p options >>= next := by
  refine ⟨behindConnect p call, fun ack => ?_, perform_of_connects p h⟩
  cases call with
  | connectSubscribe _ subscriptions =>
    exact .bind (.ite (keeps_writeSubscribe p subscriptions) (.pure ())) fun _ => .pure _
  | connect | nextNotification | completeNotification | send | isDisconnected => exact .pure _

/-- The other operations of a connected client. -/
theorem keeps_perform {call : Call} (h : call.connects = none) : Keeps (perform p call) := by
  cases call with
  | connect | connectSubscribe => cases h
  | nextNotification => exact .bind (keeps_nextNotification p) fun _ => .pure _
  | completeNotification completion =>
    exact .bind (keeps_completeNotification p completion) fun _ => .pure _
  | send packet => exact .bind (keeps_performSend p packet) fun _ => .pure _
  | isDisconnected => exact .bind (.gets _) fun _ => .pure _

end Opening

section Gate

variable {σ E : Type}

/-! ### Runs -/

/-- An item of the record of a run. -/
inductive Item (E : Type) where
  | call (call : Call)
  | io (event : Event E)
  | ret (result : Outcome (Error E) Value)

namespace Item

/-- A call that opens a new epoch. -/
def Opens : Item E → Prop
  | call c => c.connects ≠ none
  | _ => False

/-- A read or write that failed, or a decode error that is returned. -/
def Closes : Item E → Prop
  | io e => e.Fails
  | ret (.err (.readError _)) => True
  | _ => False

def received : Item E → List UInt8
  | io e => e.received
  | _ => []

end Item

/-- The items of one call. -/
def items (call : Call) (w : World σ E) (r : Outcome (Error E) Value) (w' : World σ E) :
    List (Item E) :=
  .call call :: ((w'.log.drop w.log.length).map .io ++ [.ret r])

/-- The client has received a CONNACK that accepts the connection since the last
call that connects, and nothing has failed since. -/
def Live (maxPacketSize : Nat) (h : List (Item E)) : Prop :=
  ∃ earlier call epoch ack n, h = earlier ++ .call call :: epoch ∧ call.connects ≠ none ∧
    (∀ item ∈ epoch, ¬item.Opens ∧ ¬item.Closes) ∧
    Packet.read (epoch.flatMap Item.received) maxPacketSize = .ok (.connAck ack, n) ∧
    ack.code = .success

/-- The bytes are the CONNECT of the call that has just begun. -/
def IsConnect (h : List (Item E)) (buf : List UInt8) : Prop :=
  ∃ earlier call options, h = earlier ++ [.call call] ∧ call.connects = some options ∧
    buf = connectBytes options

/-- A run of calls that all return, none of which fails to encode its CONNECT. -/
inductive Run (p : Platform σ E) (w₀ : World σ E) : List (Item E) → World σ E → Prop where
  | nil : Run p w₀ [] w₀
  | call {h : List (Item E)} {w w' : World σ E} {call : Call} {r : Outcome (Error E) Value} :
      Run p w₀ h w → perform p call w = (r, w') → r ≠ .panic →
      (∀ options e, call.connects = some options → (connect p options w).1 ≠ .err (.writeError e)) →
      Run p w₀ (h ++ items call w r w') w'

/-! ### What holds of the record of a run -/

/-- Every write of the record is the CONNECT of its call, or made in a live
connection. -/
def Gated (maxPacketSize : Nat) (h : List (Item E)) : Prop :=
  ∀ earlier state buf result later, h = earlier ++ .io (.wrote state buf result) :: later →
    IsConnect earlier buf ∨ state = .connected ∧ Live maxPacketSize earlier

section Record

variable {max : Nat} {h : List (Item E)}

theorem Live.append {more : List (Item E)} (hl : Live max h)
    (hmore : ∀ item ∈ more, ¬item.Opens ∧ ¬item.Closes) : Live max (h ++ more) := by
  obtain ⟨earlier, call, epoch, ack, n, rfl, hcall, hepoch, hread, hcode⟩ := hl
  refine ⟨earlier, call, epoch ++ more, ack, n, List.append_assoc _ _ _, hcall, ?_, ?_, hcode⟩
  · exact fun item hi => (List.mem_append.mp hi).elim (hepoch item) (hmore item)
  -- what comes behind the CONNACK does not change how it is read
  · rw [List.flatMap_append, Packet.read_append _ fun k hk => by cases hread.symm.trans hk]
    exact hread

theorem Gated.snoc {item : Item E} (hg : Gated max h)
    (hitem : ∀ state buf result, item = .io (.wrote state buf result) →
      IsConnect h buf ∨ state = .connected ∧ Live max h) : Gated max (h ++ [item]) := by
  intro earlier state buf result later heq
  -- the write is the new item, or was in the record before
  rcases List.eq_nil_or_concat later with rfl | ⟨init, last, rfl⟩
  · obtain ⟨rfl, hlast⟩ := List.append_inj' heq rfl
    exact hitem state buf result (List.singleton_inj.mp hlast)
  · rw [List.concat_eq_append, ← List.cons_append, ← List.append_assoc] at heq
    exact hg earlier state buf result init (List.append_inj' heq rfl).1

/-- Items that are no writes. -/
theorem Gated.append {more : List (Item E)} : ∀ {h : List (Item E)}, Gated max h →
    (∀ item ∈ more, ∀ e, item = .io e → ¬e.IsWrite) → Gated max (h ++ more) := by
  induction more with
  | nil =>
    intro h hg _
    rwa [List.append_nil]
  | cons item more ih =>
    intro h hg hmore
    obtain ⟨hitem, hmore⟩ := List.forall_mem_cons.mp hmore
    rw [← List.singleton_append, ← List.append_assoc]
    refine ih (hg.snoc fun state buf result heq => ?_) hmore
    exact absurd trivial (hitem _ heq)

/-- Calls of the platform in a live connection. -/
theorem Live.gated {evs : List (Event E)} : ∀ {h : List (Item E)}, Live max h → Gated max h →
    (∀ e ∈ evs, e.InSession ∧ ¬e.Fails) →
    Live max (h ++ evs.map .io) ∧ Gated max (h ++ evs.map .io) := by
  induction evs with
  | nil =>
    intro h hl hg _
    rw [List.map_nil, List.append_nil]
    exact ⟨hl, hg⟩
  | cons e evs ih =>
    intro h hl hg hevs
    obtain ⟨he, hevs⟩ := List.forall_mem_cons.mp hevs
    rw [List.map_cons, ← List.singleton_append, ← List.append_assoc]
    refine ih (hl.append fun item hi => ?_) (hg.snoc fun state buf result heq => ?_) hevs
    · obtain rfl := List.mem_singleton.mp hi
      exact ⟨id, he.2⟩
    · cases heq
      exact .inr ⟨he.1, hl⟩

end Record

/-- What holds between the calls of a run. -/
structure GateInv (max : Nat) (h : List (Item E)) (w : World σ E) : Prop where
  valid : w.Valid
  capacity : w.capacity = max
  maxPacketSize : w.client.transportClient.maxPacketSize = max
  gated : Gated max h
  settled : w.state = .disconnected ∨ w.state = .connected ∧ Live max h

section Step

variable (p : Platform σ E) {max : Nat} {h : List (Item E)} {w w' : World σ E}
  {r : Outcome (Error E) Value}

theorem gateInv_progress (hw : Ready w) (hcap : w.capacity = max) (hl : Live max h)
    (hg : Gated max h) (hp : Progress w r w') (hr : r ≠ .panic) :
    ∃ evs, w'.log = w.log ++ evs ∧ GateInv max (h ++ (evs.map .io ++ [.ret r])) w' := by
  have hret : ∀ item ∈ [Item.ret r], ∀ e, item = .io e → ¬e.IsWrite := by
    intro item hi e he
    rw [List.mem_singleton.mp hi] at he
    cases he
  have hmax := hw.maxPacketSize.trans hcap
  cases hp with
  | panicked => exact absurd rfl hr
  | @going evs _ _ hlog hw' hevs hread =>
    obtain ⟨hl', hg'⟩ := hl.gated hg hevs
    refine ⟨evs, hlog.log, hlog.valid, hlog.capacity.trans hcap, hlog.maxPacketSize.trans hmax, ?_,
      .inr ⟨hw'.state, ?_⟩⟩
    all_goals rw [← List.append_assoc]
    · exact hg'.append hret
    · refine hl'.append fun item hi => ?_
      obtain rfl := List.mem_singleton.mp hi
      refine ⟨id, ?_⟩
      rcases r with a | (- | - | - | e | -) | -
      case err.readError => exact absurd rfl (hread e)
      all_goals exact id
  -- the last call of the platform may have closed the connection, but it is the last
  | @ended evs last e _ hlog hs hevs hlast =>
    obtain ⟨hl', hg'⟩ := hl.gated hg hevs
    refine ⟨_, hlog.log, hlog.valid, hlog.capacity.trans hcap, hlog.maxPacketSize.trans hmax, ?_,
      .inl hs⟩
    rw [← List.append_assoc, List.map_append, ← List.append_assoc]
    refine Gated.append ?_ hret
    cases last with
    | none =>
      rw [Option.toList_none, List.map_nil, List.append_nil]
      exact hg'
    | some e =>
      refine hg'.snoc fun state buf result heq => ?_
      cases heq
      exact .inr ⟨hlast _ rfl, hl'⟩

theorem items_of_log {call : Call} {evs : List (Event E)} (hlog : w'.log = w.log ++ evs) :
    items call w r w' = .call call :: (evs.map .io ++ [.ret r]) := by
  rw [items, hlog, List.drop_left]

section Call

variable {call : Call} {options : ConnectOptions}

theorem GateInv.called (hinv : GateInv max h w) : Gated max (h ++ [.call call]) :=
  hinv.gated.snoc fun _ _ _ heq => by cases heq

/-- A call of a closed client that does not connect. -/
theorem GateInv.perform_closed (hinv : GateInv max h w) (hs : w.state = .disconnected)
    (hc : call.connects = none) (hp : perform p call w = (r, w')) :
    GateInv max (h ++ items call w r w') w' := by
  have hu := @perform_untouched _ _ p w call hc hs
  rw [hp] at hu
  have hlog := hu.logged hinv.valid
  rw [items_of_log hlog.log]
  refine ⟨hlog.valid, hlog.capacity.trans hinv.capacity,
    hlog.maxPacketSize.trans hinv.maxPacketSize, ?_, .inl hu.state⟩
  refine hinv.gated.append fun item hi e he => ?_
  rcases List.mem_cons.mp hi with rfl | hi
  · cases he
  · cases (List.mem_singleton.mp hi).symm.trans he

/-- A call of a connected client that does not connect. -/
theorem GateInv.perform_live (hinv : GateInv max h w) (hs : w.state = .connected)
    (hl : Live max h) (hc : call.connects = none) (hp : perform p call w = (r, w'))
    (hr : r ≠ .panic) : GateInv max (h ++ items call w r w') w' := by
  have hready : Ready w := ⟨hinv.valid, hinv.maxPacketSize.trans hinv.capacity.symm, hs⟩
  have hl' : Live max (h ++ [.call call]) := hl.append fun item hi => by
    obtain rfl := List.mem_singleton.mp hi
    exact ⟨fun hopens => hopens hc, id⟩
  have hprogress := keeps_perform p hc w hready
  rw [hp] at hprogress
  obtain ⟨evs, hlog, hinv'⟩ := gateInv_progress hready hinv.capacity hl' hinv.called hprogress hr
  rw [items_of_log hlog, ← List.singleton_append, ← List.append_assoc]
  exact hinv'

/-- The CONNECT of a call that connects. -/
theorem GateInv.greeted (hinv : GateInv max h w) (hc : call.connects = some options)
    (result : Except E Unit) : Gated max (h ++ [.call call] ++
      [.io (.wrote .transportConnected (connectBytes options) result)]) :=
  hinv.called.snoc fun state buf result' heq => by
    cases heq
    exact .inl ⟨h, call, options, rfl, hc, rfl⟩

/-- A call that connects, and does not get a CONNACK that accepts the connection. -/
theorem GateInv.perform_failed {result : Except E Unit} {evs : List (Event E)}
    (hinv : GateInv max h w) (hc : call.connects = some options)
    (hlog : Logged w (.wrote .transportConnected (connectBytes options) result :: evs) w')
    (hevs : ∀ e ∈ evs, ¬e.IsWrite) (hs : w'.state = .disconnected) :
    GateInv max (h ++ items call w r w') w' := by
  rw [items_of_log hlog.log, List.append_cons h, List.map_cons, List.cons_append,
    List.append_cons (h ++ [_])]
  refine ⟨hlog.valid, hlog.capacity.trans hinv.capacity,
    hlog.maxPacketSize.trans hinv.maxPacketSize, ?_, .inl hs⟩
  refine (hinv.greeted hc result).append fun item hi e' he => ?_
  rcases List.mem_append.mp hi with hi | hi
  · obtain ⟨e'', he'', rfl⟩ := List.mem_map.mp hi
    cases he
    exact hevs _ he''
  · cases (List.mem_singleton.mp hi).symm.trans he

/-- The record behind the CONNACK that accepts the connection. -/
theorem GateInv.accepted {ack : ConnAck} {evs chunk : List (Event E)} {n : Nat} {t : World σ E}
    (hinv : GateInv max h w) (hc : call.connects = some options)
    (ha : Accepted options w ack evs chunk n t) :
    Live max (h ++ [.call call] ++ (.wrote .transportConnected (connectBytes options) (.ok ()) ::
        (evs ++ chunk)).map .io) ∧
      Gated max (h ++ [.call call] ++ (.wrote .transportConnected (connectBytes options) (.ok ()) ::
        (evs ++ chunk)).map .io) := by
  constructor
  · refine ⟨h, call, _, ack, n, (List.append_cons _ _ _).symm, by rw [hc]; exact nofun, ?_, ?_,
      ha.success⟩
    · intro item hi
      obtain ⟨e, he, rfl⟩ := List.mem_map.mp hi
      refine ⟨id, ?_⟩
      rcases List.mem_cons.mp he with rfl | he
      · exact id
      · exact (ha.quiet e he).2
    · rw [List.flatMap_map, ← hinv.maxPacketSize]
      exact ha.read
  · rw [List.map_cons, List.append_cons (h ++ [_])]
    refine (hinv.greeted hc _).append fun item hi e he => ?_
    obtain ⟨e', he', rfl⟩ := List.mem_map.mp hi
    cases he
    exact (ha.quiet _ he').1

/-- A call that connects, if it is not its CONNECT that does not fit. -/
theorem GateInv.perform_connects (hinv : GateInv max h w) (hc : call.connects = some options)
    (hp : perform p call w = (r, w')) (hr : r ≠ .panic)
    (henc : ∀ e, (connect p options w).1 ≠ .err (.writeError e)) :
    GateInv max (h ++ items call w r w') w' := by
  obtain ⟨next, hnext, hperform⟩ := NanoClient.perform_connects p hc
  rw [hperform] at hp
  rcases hconn : connect p options w with ⟨r₁, t⟩
  rw [hconn] at henc
  have hpanic : r₁ ≠ .panic := by
    rintro rfl
    rw [Act.bind_apply, hconn] at hp
    exact hr (Prod.ext_iff.mp hp).1.symm
  cases opened p hconn hpanic henc with
  | failed hlog hevs hs =>
    rw [Act.bind_of_err hconn] at hp
    cases hp
    exact hinv.perform_failed hc hlog hevs hs
  | @accepted evs chunk ack n _ ha =>
    -- what follows the CONNACK is part of the same call, in a connection that is live by now
    rw [Act.bind_of_ok hconn] at hp
    have hlog := ha.toLogged
    have hcap := hlog.capacity.trans hinv.capacity
    have hmax := hlog.maxPacketSize.trans hinv.maxPacketSize
    have hready : Ready t := ⟨ha.valid, hmax.trans hcap.symm, ha.state⟩
    have hprogress := hnext ack t hready
    rw [hp] at hprogress
    obtain ⟨hl, hg⟩ := hinv.accepted hc ha
    obtain ⟨evs', hlog', hinv'⟩ := gateInv_progress hready hcap hl hg hprogress hr
    rw [hlog.log, List.append_assoc] at hlog'
    rw [items_of_log hlog', List.append_cons h, List.map_append, List.append_assoc (List.map _ _),
      ← List.append_assoc (h ++ [_])]
    exact hinv'

/-- One call of a run. -/
theorem GateInv.perform (hinv : GateInv max h w) (hp : perform p call w = (r, w'))
    (hr : r ≠ .panic) (henc : ∀ options e, call.connects = some options →
      (connect p options w).1 ≠ .err (.writeError e)) :
    GateInv max (h ++ items call w r w') w' := by
  cases hc : call.connects with
  | none =>
    rcases hinv.settled with hs | ⟨hs, hl⟩
    · exact hinv.perform_closed p hs hc hp
    · exact hinv.perform_live p hs hl hc hp hr
  | some options => exact hinv.perform_connects p hc hp hr fun e => henc options e hc

end Call

/-- A run of calls. -/
theorem Run.gateInv {w₀ : World σ E} (hw₀ : GateInv max [] w₀) (hrun : Run p w₀ h w) :
    GateInv max h w := by
  induction hrun with
  | nil => exact hw₀
  | call _ hp hr henc ih => exact ih.perform p hp hr henc

end Step

theorem gateInv_new (txBuffer rxBuffer : List UInt8) (s : σ) :
    GateInv rxBuffer.length [] (⟨new txBuffer rxBuffer, s, []⟩ : World σ E) where
  valid := Nat.zero_le _
  capacity := rfl
  maxPacketSize := rfl
  gated earlier _ _ _ _ h := by cases earlier <;> cases h
  settled := .inl rfl

/-- Every write of a run is the CONNECT of its call, or is made by a connected
client in a live connection; and a closed client asks nothing of its platform
and stays closed, until a call that connects. -/
theorem handshake_gate {p : Platform σ E} {txBuffer rxBuffer : List UInt8} {s : σ}
    {h : List (Item E)} {w : World σ E} (hrun : Run p ⟨new txBuffer rxBuffer, s, []⟩ h w) :
    (∀ earlier state buf result later, h = earlier ++ .io (.wrote state buf result) :: later →
      IsConnect earlier buf ∨ state = .connected ∧ Live rxBuffer.length earlier) ∧
    (w.client.isDisconnected = true → ∀ call, call.connects = none →
      (perform p call w).2.client.isDisconnected = true ∧
      (perform p call w).2.platform = w.platform ∧ (perform p call w).2.log = w.log) := by
  refine ⟨(hrun.gateInv p (gateInv_new txBuffer rxBuffer s)).gated, fun hd call hcall => ?_⟩
  have hu := @perform_untouched _ _ p w call hcall (isDisconnected_iff.mp hd)
  exact ⟨isDisconnected_iff.mpr hu.state, hu.platform, hu.log⟩

/-- A handshake and a ping behind it. -/
theorem handshake_gate_ping :
    let p := streamPlatform 64
    let options : ConnectOptions := ⟨"client", none, none, 10, true⟩
    let w₀ : World (List UInt8) Unit :=
      ⟨new (List.replicate 32 0) (List.replicate 16 0), [0x20, 2, 0, 0], []⟩
    let r₁ := perform p (.connect options) w₀
    let r₂ := perform p (.send .pingRequest) r₁.2
    ∀ earlier state buf result later,
      items (.connect options) w₀ r₁.1 r₁.2 ++ items (.send .pingRequest) r₁.2 r₂.1 r₂.2 =
        earlier ++ .io (.wrote state buf result) :: later →
      IsConnect earlier buf ∨ state = .connected ∧ Live 16 earlier := by
  intro p options w₀ r₁ r₂
  have hok : (connect p options w₀).1 = .ok ⟨false, .success⟩ := by decide +kernel
  have hrun : Run p w₀ (items (.connect options) w₀ r₁.1 r₁.2) r₁.2 := by
    refine Run.call .nil Prod.mk.eta.symm (by decide +kernel) fun o e ho => ?_
    cases ho
    rw [hok]
    exact nofun
  have hrun' : Run p w₀ (items (.connect options) w₀ r₁.1 r₁.2 ++
      items (.send .pingRequest) r₁.2 r₂.1 r₂.2) r₂.2 :=
    hrun.call Prod.mk.eta.symm (by decide +kernel) fun o e ho => by cases ho
  exact (handshake_gate hrun').1

end Gate

end NanoClient

end Umqtt
