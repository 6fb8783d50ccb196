/-
Umqtt/NanoClient/Receiving.lean

What the two loops that read from the platform can do.

A turn of a loop that goes on brings at least one byte (`Chunk`), so that no
loop takes more turns than there are free bytes.  `Polls` is a sequence of such
turns, one read each, and `readConnack_polls` and `nextNotification_polls` take
a call apart into the turns that went on and the last one.  `ConnackRead` and
`Notified` list the ways in which `read_connack` and `next_notification` end.
-/
import Umqtt.NanoClient.Operations

namespace Umqtt

open Effects Wire

/-- A read never reports more bytes than the slice has. -/
def Platform.Honest {σ E : Type} (p : Platform σ E) : Prop :=
  ∀ buf timeout s n, (p.readSome buf timeout s).1.1 = .ok (some n) → n ≤ buf.length

namespace NanoClient

/-- Neither a write nor a failure. -/
def Event.Quiet {E : Type} (e : Event E) : Prop := ¬e.IsWrite ∧ ¬e.Fails

/-- The bytes start with a whole frame. -/
def Framed (content : List UInt8) (capacity : Nat) : Prop :=
  ∃ fh, check content capacity = .ok fh

section Receiving

variable {σ E : Type}

/-! ### Traces of reads -/

section Read

variable {w : World σ E} {buf : List UInt8} (timeout : Option Duration)
  (result : Except E (Option Nat)) (s : σ)

/-- A read that brings no bytes leaves the received bytes alone. -/
theorem Trace.afterRead (hv : w.Valid)
    (hbuf : buf.length = w.client.rxBuffer.capacity - w.client.rxBuffer.used)
    (hnone : (Event.read timeout result buf).received = []) :
    Trace w [.read timeout result buf] (w.afterRead timeout result buf s) where
  log := rfl
  content := by
    show (w.client.rxBuffer.storeUnused buf).content = _
    rw [Buffer.content_storeUnused hv, received, List.flatMap_singleton, hnone, List.append_nil]
    rfl
  valid := Buffer.valid_storeUnused hv hbuf
  capacity := Buffer.capacity_storeUnused hv hbuf
  maxPacketSize := rfl
  txLength := rfl

/-- A read that brings bytes appends them, unless it reports too many. -/
theorem Trace.advanced {n : Nat} (hv : w.Valid)
    (hbuf : buf.length = w.client.rxBuffer.capacity - w.client.rxBuffer.used)
    (hn : n ≤ buf.length) :
    Trace w [.read timeout (.ok (some n)) buf]
      ((w.afterRead timeout (.ok (some n)) buf s).advanced n) where
  log := rfl
  content := by
    show ((w.client.rxBuffer.storeUnused buf).advance n).content = _
    rw [Buffer.content_advance hv, received, List.flatMap_singleton]
    rfl
  valid := (Buffer.valid_advance hv hbuf).mpr hn
  capacity := Buffer.capacity_storeUnused hv hbuf
  maxPacketSize := rfl
  txLength := rfl

end Read

/-- A turn of a loop that made the calls `evs` and brought bytes, with the last
call. -/
structure Chunk (w : World σ E) (evs : List (Event E)) (t : World σ E) : Prop extends
    Trace w evs t where
  quiet : ∀ e ∈ evs, e.Quiet
  transportClient : t.client.transportClient = w.client.transportClient
  last : ∃ pre e, evs = pre ++ [e] ∧ received pre = [] ∧ e.IsRead ∧ e.received ≠ []

/-- Calls that brought bytes, or none at all. -/
structure Gathered (w : World σ E) (evs : List (Event E)) (t : World σ E) : Prop extends
    Trace w evs t where
  quiet : ∀ e ∈ evs, e.Quiet
  transportClient : t.client.transportClient = w.client.transportClient

theorem Gathered.refl {w : World σ E} (h : w.Valid) : Gathered w [] w :=
  ⟨.refl h, fun _ h => (nomatch h), rfl⟩

theorem Chunk.gathered {w t : World σ E} {evs : List (Event E)} (h : Chunk w evs t) :
    Gathered w evs t := ⟨h.toTrace, h.quiet, h.transportClient⟩

theorem Gathered.state {w t : World σ E} {evs : List (Event E)} (h : Gathered w evs t) :
    t.state = w.state := congrArg TransportClient.state h.transportClient

theorem Gathered.trans {w t u : World σ E} {evs evs' : List (Event E)} (h : Gathered w evs t)
    (h' : Gathered t evs' u) : Gathered w (evs ++ evs') u where
  toTrace := h.toTrace.trans h'.toTrace
  quiet e he := (List.mem_append.mp he).elim (h.quiet e) (h'.quiet e)
  transportClient := h'.transportClient.trans h.transportClient

theorem length_content {w : World σ E} (h : w.Valid) :
    w.content.length = w.client.rxBuffer.used ∧ w.content.length ≤ w.capacity := by
  have hlen : w.content.length = w.client.rxBuffer.used := Buffer.length_content h
  exact ⟨hlen, hlen.trans_le h⟩

/-- A turn that brings bytes leaves less room. -/
theorem Chunk.room_lt {w t : World σ E} {evs : List (Event E)} (h : Chunk w evs t) :
    t.capacity - t.content.length < w.capacity - w.content.length := by
  obtain ⟨pre, e, rfl, -, -, hne⟩ := h.last
  have hpos := List.length_pos_iff.mpr hne
  have hle := (length_content h.valid).2
  have hcontent := congrArg List.length h.content
  rw [received_append, received, received, List.flatMap_singleton] at hcontent
  simp only [List.length_append] at hcontent
  rw [h.capacity] at hle ⊢
  omega

/-- A trace that ends with a read that failed. -/
structure Broke (w : World σ E) (evs : List (Event E)) (w' : World σ E) : Prop extends
    Trace w evs w' where
  transportClient : w'.client.transportClient = w.client.transportClient.onTransportClosed
  last : ∃ pre e, evs = pre ++ [e] ∧ (∀ e' ∈ pre, e'.Quiet) ∧ e.IsRead ∧ e.Fails

theorem Broke.state {w w' : World σ E} {evs : List (Event E)} (h : Broke w evs w') :
    w'.state = .disconnected := congrArg TransportClient.state h.transportClient

theorem Broke.fails {w w' : World σ E} {pre : List (Event E)} {e : Event E}
    (h : Broke w (pre ++ [e]) w') : e.Fails := by
  obtain ⟨pre', e', heq, -, -, hfails⟩ := h.last
  obtain ⟨-, hlast⟩ := List.append_inj' heq rfl
  rwa [(List.cons.inj hlast).1]

theorem Event.IsRead.not_isWrite {e : Event E} (h : e.IsRead) : ¬e.IsWrite := by
  cases e with
  | read => exact id
  | wrote | clock => exact h.elim

theorem Broke.not_isWrite {w w' : World σ E} {evs : List (Event E)} (h : Broke w evs w') :
    ∀ e ∈ evs, ¬e.IsWrite := by
  obtain ⟨pre, last, rfl, hpre, hlast, -⟩ := h.last
  intro e he
  rcases List.mem_append.mp he with he | he
  · exact (hpre e he).1
  · rw [List.mem_singleton.mp he]
    exact hlast.not_isWrite

/-! ### One read -/

/-- An error that the transport is gone. -/
def Error.Gone (e : Error E) : Prop := e = .connectionClosed ∨ ∃ x, e = .io x

variable (p : Platform σ E)

/-- The ways in which a read ends that returns `result` and leaves `buf` in the
free part of the buffer, seen from the world `w` the calls `pre` before. -/
inductive Polled (w : World σ E) (pre : List (Event E)) (timeout : Option Duration) :
    Except E (Option Nat) → List UInt8 → Outcome (Error E) (Option Nat) → World σ E → Prop where
  | idle {buf : List UInt8} {w' : World σ E} :
      Gathered w (pre ++ [.read timeout (.ok none) buf]) w' →
      Polled w pre timeout (.ok none) buf (.ok none) w'
  | broke {result : Except E (Option Nat)} {buf : List UInt8} {e : Error E} {w' : World σ E} :
      Broke w (pre ++ [.read timeout result buf]) w' → e.Gone →
      Polled w pre timeout result buf (.err e) w'
  | bytes {n : Nat} {buf : List UInt8} {w' : World σ E} : n ≠ 0 → n ≤ buf.length →
      Chunk w (pre ++ [.read timeout (.ok (some n)) buf]) w' →
      Polled w pre timeout (.ok (some n)) buf (.ok (some n)) w'
  -- the platform claims more bytes than the buffer holds
  | overrun {n : Nat} {buf : List UInt8} {w' : World σ E} : n ≠ 0 → ¬p.Honest → ¬w'.Valid →
      w'.log = w.log ++ (pre ++ [.read timeout (.ok (some n)) buf]) →
      Polled w pre timeout (.ok (some n)) buf (.ok (some n)) w'

theorem length_readSome {w : World σ E} {timeout : Option Duration}
    {result : Except E (Option Nat)} {buf : List UInt8} {s : σ}
    (h : p.readSome (w.client.rxBuffer.buffer.drop w.client.rxBuffer.used) timeout w.platform =
      ((result, buf), s)) :
    buf.length = w.client.rxBuffer.capacity - w.client.rxBuffer.used := by
  have hlen := p.length_readSome (w.client.rxBuffer.buffer.drop w.client.rxBuffer.used) timeout
    w.platform
  rwa [h, List.length_drop] at hlen

/-- A read fills the free part of the buffer. -/
theorem polled {w t : World σ E} {pre : List (Event E)} (h : Gathered w pre t)
    (hpre : received pre = []) (timeout : Option Duration) :
    ∃ result buf, buf.length = w.capacity - w.content.length ∧
      Polled p w pre timeout result buf (readSomeWithTimeout p timeout t).1
        (readSomeWithTimeout p timeout t).2 := by
  have hread := someRead p timeout t
  generalize (readSomeWithTimeout p timeout t).1 = r at hread ⊢
  generalize (readSomeWithTimeout p timeout t).2 = w' at hread ⊢
  have hroom : t.client.rxBuffer.capacity - t.client.rxBuffer.used =
      w.capacity - w.content.length := by
    have hcontent : t.content = w.content := by rw [h.content, hpre, List.append_nil]
    rw [← hcontent, (length_content h.valid).1, ← h.capacity]
    rfl
  have hquiet : ∀ e : Event E, e.Quiet → ∀ e' ∈ pre ++ [e], e'.Quiet := fun e he e' he' =>
    (List.mem_append.mp he').elim (h.quiet e') fun h' => List.mem_singleton.mp h' ▸ he
  have hbroke : ∀ (result : Except E (Option Nat)) (buf : List UInt8) (s : σ),
      Trace t [.read timeout result buf] (t.afterRead timeout result buf s) →
      (Event.read timeout result buf).Fails →
      Broke w (pre ++ [.read timeout result buf]) (t.afterRead timeout result buf s).closed :=
    fun result buf s ht hfails => ⟨(h.toTrace.trans ht).closed,
      congrArg TransportClient.onTransportClosed h.transportClient, pre, _, rfl, h.quiet, trivial,
      hfails⟩
  cases hread with
  | invalid hv => exact absurd h.valid hv
  | @idle buf s hv hr =>
    have hlen := length_readSome p hr
    have ht := Trace.afterRead timeout (.ok none) s hv hlen rfl
    exact ⟨_, _, hlen.trans hroom,
      .idle ⟨h.toTrace.trans ht, hquiet _ ⟨id, id⟩, h.transportClient⟩⟩
  | @eof buf s hv hr =>
    have hlen := length_readSome p hr
    have ht := Trace.afterRead timeout (.ok (some 0)) s hv hlen rfl
    exact ⟨_, _, hlen.trans hroom, .broke (hbroke _ _ _ ht trivial) (.inl rfl)⟩
  | @failed e buf s hv hr =>
    have hlen := length_readSome p hr
    have ht := Trace.afterRead timeout (.error e) s hv hlen rfl
    exact ⟨_, _, hlen.trans hroom, .broke (hbroke _ _ _ ht trivial) (.inr ⟨e, rfl⟩)⟩
  | @bytes n buf s hv hn hr =>
    have hlen := length_readSome p hr
    refine ⟨.ok (some n), buf, hlen.trans hroom, ?_⟩
    by_cases hle : n ≤ buf.length
    · have hfails : ¬(Event.read timeout (.ok (some n)) buf : Event E).Fails := by
        cases n with
        | zero => exact absurd rfl hn
        | succ n => exact id
      have ht := Trace.advanced timeout s hv hlen hle
      refine .bytes hn hle ⟨h.toTrace.trans ht, hquiet _ ⟨id, hfails⟩, h.transportClient, pre, _,
        rfl, hpre, trivial, fun hnil => ?_⟩
      have hzero := congrArg List.length hnil
      rw [Event.received, List.length_take, List.length_nil] at hzero
      omega
    · refine .overrun hn (fun hhonest => hle ?_)
        (fun hvalid => hle ((Buffer.valid_advance hv hlen).mp hvalid)) ?_
      · have hclaim := hhonest (t.client.rxBuffer.buffer.drop t.client.rxBuffer.used) timeout
          t.platform n (by rw [hr])
        rw [List.length_drop] at hclaim
        exact hclaim.trans_eq hlen.symm
      · rw [← List.append_assoc, ← h.log]
        rfl

/-- The ways in which a read ends, seen from the world `w` some calls before. -/
inductive ReadEnd (w : World σ E) : Outcome (Error E) (Option Nat) → World σ E → Prop where
  | idle {evs : List (Event E)} {w' : World σ E} : Gathered w evs w' → received evs = [] →
      (∃ e ∈ evs, e.IsRead) → ReadEnd w (.ok none) w'
  | broke {evs : List (Event E)} {e : Error E} {w' : World σ E} : Broke w evs w' → e.Gone →
      ReadEnd w (.err e) w'
  | bytes (evs : List (Event E)) {n : Nat} {w' : World σ E} : n ≠ 0 →
      (w'.Valid → Chunk w evs w') → (p.Honest → w'.Valid) → ReadEnd w (.ok (some n)) w'

theorem readEnd {w t : World σ E} {evs : List (Event E)} (h : Gathered w evs t)
    (hevs : received evs = []) (timeout : Option Duration) :
    ReadEnd p w (readSomeWithTimeout p timeout t).1 (readSomeWithTimeout p timeout t).2 := by
  obtain ⟨result, buf, -, hread⟩ := polled p h hevs timeout
  generalize (readSomeWithTimeout p timeout t).1 = r at hread ⊢
  generalize (readSomeWithTimeout p timeout t).2 = w' at hread ⊢
  cases hread with
  | idle hg =>
    refine .idle hg ?_ ⟨_, List.mem_append_right _ (List.mem_singleton_self _), trivial⟩
    rw [received_append, hevs]
    rfl
  | broke hb he => exact .broke hb he
  | bytes hn _ hc => exact .bytes _ hn (fun _ => hc) fun _ => hc.valid
  | overrun hn hhonest hvalid _ =>
    exact .bytes [] hn (fun h => absurd h hvalid) fun h => absurd h hhonest

/-- Turns of a loop that each brought bytes and went on.  What a turn calls before
its read, and the timeout of the read, are as `lead` says; the world behind the
turn is as `goes` says. -/
inductive Polls (lead : World σ E → List (Event E) → Option Duration → Prop)
    (goes : World σ E → Prop) (w : World σ E) : List (Event E) → World σ E → Prop where
  | nil : w.Valid → Polls lead goes w [] w
  | more {evs pre : List (Event E)} {timeout : Option Duration} {n : Nat} {buf : List UInt8}
      {t t' : World σ E} : Polls lead goes w evs t → lead t pre timeout →
      buf.length = t.capacity - t.content.length → n ≠ 0 → n ≤ buf.length →
      Chunk t (pre ++ [.read timeout (.ok (some n)) buf]) t' → goes t' →
      Polls lead goes w (evs ++ (pre ++ [.read timeout (.ok (some n)) buf])) t'

section Polls

variable {lead : World σ E → List (Event E) → Option Duration → Prop} {goes : World σ E → Prop}
  {w t : World σ E} {evs : List (Event E)}

theorem Polls.gathered (h : Polls lead goes w evs t) : Gathered w evs t := by
  induction h with
  | nil hv => exact .refl hv
  | more _ _ _ _ _ hc _ ih => exact ih.trans hc.gathered

theorem Polls.goes_or (h : Polls lead goes w evs t) : t = w ∨ goes t := by
  cases h with
  | nil => exact .inl rfl
  | more _ _ _ _ _ _ hgoes => exact .inr hgoes

end Polls

/-! ### What is made of the received bytes -/

/-- The outcome of `next_notification`, from that of `on_bytes_received`. -/
def notify : Outcome Umqtt.Error (Option (Notification × Nat)) →
    Outcome (Error E) ClientNotification
  | .ok none => .err (.readError .malformedPacket)
  | .ok (some (notification, taken)) => .ok (.transportNotification { notification, taken })
  | .err e => .err (.readError e)
  | .panic => .panic

theorem notify_ne_sendPing (r : Outcome Umqtt.Error (Option (Notification × Nat))) :
    notify r ≠ (.ok .sendPing : Outcome (Error E) ClientNotification) := by
  rcases r with (_ | _) | _ | _ <;> rintro ⟨⟩

def World.withTransport (transportClient : TransportClient) (w : World σ E) : World σ E :=
  { w with client := { w.client with transportClient } }

theorem onBytesReceived_eq {w : World σ E} (hv : w.Valid) :
    onBytesReceived w =
      ((TransportClient.onBytesReceived w.content w.client.transportClient).1.mapErr .readError,
        w.withTransport
          (TransportClient.onBytesReceived w.content w.client.transportClient).2) := by
  have hused : (usedSlice : Act (World σ E) (Error E) (List UInt8)) w = (.ok w.content, w) := by
    rw [usedSlice, Buffer.usedSlice_eq hv]
    rfl
  rw [onBytesReceived, Act.bind_of_ok hused]
  rfl

theorem takeNotification_eq {w : World σ E} (hv : w.Valid) :
    takeNotification w =
      (notify (TransportClient.onBytesReceived w.content w.client.transportClient).1,
        w.withTransport
          (TransportClient.onBytesReceived w.content w.client.transportClient).2) := by
  rw [takeNotification, Act.bind_apply, onBytesReceived_eq hv]
  rcases (TransportClient.onBytesReceived w.content w.client.transportClient).1 with
    ⟨- | ⟨notification, taken⟩⟩ | e | _ <;> rfl

/-- The packet that the decoder makes of the received bytes. -/
def World.read (w : World σ E) : Outcome Umqtt.Error (Packet × Nat) :=
  Packet.read w.content w.client.transportClient.maxPacketSize

/-- The ways in which `read_connack` takes the received bytes. -/
inductive ConnackTaken (w : World σ E) :
    Outcome (Error E) (Option ConnAck) → World σ E → Prop where
  | more {k : Nat} : w.read = .err (.needMoreData k) → ConnackTaken w (.ok none) w
  | accepted {ack : ConnAck} {taken : Nat} {w' : World σ E} :
      w.read = .ok (.connAck ack, taken) → ack.code = .success →
      w'.client.transportClient = { w.client.transportClient with state := .connected } →
      w'.client.txBuffer = w.client.txBuffer → w'.Valid → w'.capacity = w.capacity →
      w'.content = w.content.drop taken → w'.platform = w.platform → w'.log = w.log →
      ConnackTaken w (.ok (some ack)) w'
  | refused {ack : ConnAck} {taken : Nat} : w.read = .ok (.connAck ack, taken) →
      ack.code ≠ .success → ConnackTaken w (.err .unexpectedPacket) w.closed
  | rejected {e : Umqtt.Error} : (∀ k, w.read ≠ .err (.needMoreData k)) →
      (∀ ack taken, w.read ≠ .ok (.connAck ack, taken)) →
      ConnackTaken w (.err (.readError e)) w.closed

theorem connackTaken {w : World σ E} (hv : w.Valid) (hs : w.state = .transportConnected) :
    ConnackTaken w (takeConnack w).1 (takeConnack w).2 := by
  have hr := TransportClient.received w.client.transportClient w.content
  rw [takeConnack, Act.bind_apply, onBytesReceived_eq hv]
  generalize (TransportClient.onBytesReceived w.content w.client.transportClient).1 = r at hr ⊢
  generalize (TransportClient.onBytesReceived w.content w.client.transportClient).2 = c at hr ⊢
  cases hr with
  | closed hs' => cases hs.symm.trans hs'
  | needMore _ hread => exact .more hread
  | malformed _ he hread =>
    refine .rejected (fun k hk => ?_) fun ack taken h => ?_
    · cases hread.symm.trans hk
      cases he
    · cases hread.symm.trans h
  | @accepted ack taken _ hread hcode =>
    obtain ⟨b, hb, hvalid, hcontent, hcap⟩ := @Buffer.removePrefix_spec (Error E)
      w.client.rxBuffer hv taken
    simp only [Outcome.mapErr_ok, Act.bind_apply, onRx, Act.zoom_apply, World.withTransport, hb,
      Act.pure_apply]
    exact .accepted hread hcode rfl rfl hvalid hcap hcontent rfl rfl
  | refused _ hread hcode => exact .refused hread hcode
  | unexpected _ hread hack =>
    refine .rejected (fun k h => ?_) fun ack taken h => ?_
    · cases hread.symm.trans h
    · cases hread.symm.trans h
      exact hack hs ack rfl
  | packet hs' => cases hs.symm.trans hs'

/-! ### The loop of `read_connack` -/

/-- The ways in which a turn of the loop ends. -/
inductive ConnackTurn (w : World σ E) : Outcome (Error E) (Option ConnAck) → World σ E → Prop where
  | panicked {w' : World σ E} : ConnackTurn w .panic w'
  | broke {evs : List (Event E)} {e : Error E} {w' : World σ E} : Broke w evs w' → e.Gone →
      ConnackTurn w (.err e) w'
  | took {evs : List (Event E)} {t w' : World σ E} {r : Outcome (Error E) (Option ConnAck)} :
      Chunk w evs t → ConnackTaken t r w' → ConnackTurn w r w'

theorem takeConnack_of_not_valid {w : World σ E} (hv : ¬w.Valid) :
    (takeConnack w).1 = .panic := by
  have hused : (usedSlice : Act (World σ E) (Error E) (List UInt8)) w = (.panic, w) := by
    rw [usedSlice, Buffer.usedSlice_of_not hv]
  simp only [takeConnack, onBytesReceived, Act.bind_apply, hused]

/-- The ways in which a turn ends whose read returns `result` and leaves `buf` in
the free part of the buffer. -/
inductive ConnackPoll (w : World σ E) : Except E (Option Nat) → List UInt8 →
    Outcome (Error E) (Option ConnAck) → World σ E → Prop where
  | idle {buf : List UInt8} {w' : World σ E} : Gathered w [.read none (.ok none) buf] w' →
      ConnackPoll w (.ok none) buf .panic w'
  | broke {result : Except E (Option Nat)} {buf : List UInt8} {e : Error E} {w' : World σ E} :
      Broke w [.read none result buf] w' → e.Gone → ConnackPoll w result buf (.err e) w'
  | took {n : Nat} {buf : List UInt8} {t w' : World σ E} {r : Outcome (Error E) (Option ConnAck)} :
      n ≠ 0 → n ≤ buf.length → Chunk w [.read none (.ok (some n)) buf] t →
      takeConnack t = (r, w') → ConnackPoll w (.ok (some n)) buf r w'
  | overrun {n : Nat} {buf : List UInt8} {w' : World σ E} : n ≠ 0 → ¬p.Honest →
      ConnackPoll w (.ok (some n)) buf .panic w'

theorem connackPoll {w : World σ E} (hv : w.Valid) :
    ∃ result buf, buf.length = w.capacity - w.content.length ∧
      ConnackPoll p w result buf (readConnackTurn p w).1 (readConnackTurn p w).2 := by
  obtain ⟨result, buf, hlen, hread⟩ := polled p (.refl hv) rfl none
  refine ⟨result, buf, hlen, ?_⟩
  rw [readConnackTurn, Act.bind_apply]
  generalize readSomeWithTimeout p none w = r at hread ⊢
  rcases r with ⟨r, t⟩
  cases hread with
  | idle hg => exact .idle hg
  | broke hb he => exact .broke hb he
  | bytes hn hle hc =>
    simp only [if_neg hn]
    exact .took hn hle hc rfl
  | overrun hn hhonest ht _ =>
    simp only [if_neg hn, takeConnack_of_not_valid ht]
    exact .overrun hn hhonest

theorem connackTurn {w : World σ E} (hv : w.Valid) (hs : w.state = .transportConnected) :
    ConnackTurn w (readConnackTurn p w).1 (readConnackTurn p w).2 := by
  obtain ⟨result, buf, -, h⟩ := connackPoll p hv
  generalize (readConnackTurn p w).1 = r at h ⊢
  generalize (readConnackTurn p w).2 = w' at h ⊢
  cases h with
  | idle | overrun => exact .panicked
  | broke hb he => exact .broke hb he
  | took _ _ hc htake =>
    have htaken := connackTaken hc.valid (hc.gathered.state.trans hs)
    rw [htake] at htaken
    exact .took hc htaken

/-- The ways in which the last turn of `read_connack` ends. -/
inductive ConnackEnd (t : World σ E) : Except E (Option Nat) → List UInt8 →
    Outcome (Error E) ConnAck → World σ E → Prop where
  | panicked {result : Except E (Option Nat)} {buf : List UInt8} {w' : World σ E} :
      ConnackEnd t result buf .panic w'
  | broke {result : Except E (Option Nat)} {buf : List UInt8} {e : Error E} {w' : World σ E} :
      Broke t [.read none result buf] w' → e.Gone → ConnackEnd t result buf (.err e) w'
  | took {n : Nat} {buf : List UInt8} {u w' : World σ E} {r : Outcome (Error E) (Option ConnAck)} :
      n ≠ 0 → n ≤ buf.length → Chunk t [.read none (.ok (some n)) buf] u →
      takeConnack u = (r, w') → r ≠ .ok none →
      ConnackEnd t (.ok (some n)) buf (Act.lastTurn r) w'

theorem turns_apply {w : World σ E} (hv : w.Valid) :
    (turns : Act (World σ E) (Error E) Nat) w =
      (.ok (w.capacity - w.content.length + 1), w) := by
  rw [turns, Act.gets_apply, (length_content hv).1]
  rfl

/-- A turn of `read_connack` calls nothing before its read, which waits. -/
def ConnackLead (_ : World σ E) (pre : List (Event E)) (timeout : Option Duration) : Prop :=
  pre = [] ∧ timeout = none

/-- The received bytes are not a packet yet. -/
def World.Short (w : World σ E) : Prop := ∃ k, w.read = .err (.needMoreData k)

/-- The record of `read_connack`. -/
theorem readConnack_polls {w : World σ E} (hv : w.Valid) (hs : w.state = .transportConnected) :
    ∃ evs t result buf, Polls ConnackLead World.Short w evs t ∧
      buf.length = t.capacity - t.content.length ∧
      ConnackEnd t result buf (readConnack p w).1 (readConnack p w).2 := by
  have hstep : ∀ t t' : World σ E, (∃ evs, Polls ConnackLead World.Short w evs t) →
      readConnackTurn p t = (.ok none, t') →
      (∃ evs, Polls ConnackLead World.Short w evs t') ∧
        t'.capacity - t'.content.length < t.capacity - t.content.length := by
    -- a turn that goes on has received some bytes, and they were not enough
    rintro t t' ⟨evs, ht⟩ hturn
    obtain ⟨result, buf, hlen, h⟩ := connackPoll p ht.gathered.valid
    rw [hturn] at h
    cases h with
    | took hn hle hc htake =>
      have htaken := connackTaken hc.valid ((ht.gathered.trans hc.gathered).state.trans hs)
      rw [htake] at htaken
      cases htaken with
      | more hread => exact ⟨⟨_, ht.more ⟨rfl, rfl⟩ hlen hn hle hc ⟨_, hread⟩⟩, hc.room_lt⟩
  obtain ⟨t, ⟨evs, ht⟩, hlast, hloop⟩ := Act.loop_ends hstep
    (w.capacity - w.content.length + 1) w ⟨[], .nil hv⟩ (Nat.lt_succ_self _)
  obtain ⟨result, buf, hlen, h⟩ := connackPoll p ht.gathered.valid
  refine ⟨evs, t, result, buf, ht, hlen, ?_⟩
  rw [readConnack, Act.bind_of_ok (turns_apply hv), hloop]
  have hne : (readConnackTurn p t).1 ≠ .ok none := fun hr => hlast _ (Prod.ext hr rfl)
  generalize (readConnackTurn p t).1 = r at h hne ⊢
  generalize (readConnackTurn p t).2 = t' at h ⊢
  cases h with
  | idle | overrun => exact .panicked
  | broke hb he => exact .broke hb he
  | took hn hle hc htake => exact .took hn hle hc htake hne

/-- The ways in which `read_connack` ends.  The bytes before the last chunk do
not decide anything, unless they are those at the start. -/
inductive ConnackRead (w : World σ E) : Outcome (Error E) ConnAck → World σ E → Prop where
  | panicked {w' : World σ E} : ConnackRead w .panic w'
  | broke {evs : List (Event E)} {e : Error E} {w' : World σ E} : Broke w evs w' → e.Gone →
      ConnackRead w (.err e) w'
  | took {evs evs' : List (Event E)} {t u w' : World σ E}
      {r : Outcome (Error E) (Option ConnAck)} : Gathered w evs t →
      (t = w ∨ ∃ k, t.read = .err (.needMoreData k)) → Chunk t evs' u → ConnackTaken u r w' →
      r ≠ .ok none → ConnackRead w (Act.lastTurn r) w'

theorem Broke.of_gathered {w t w' : World σ E} {evs evs' : List (Event E)}
    (h : Gathered w evs t) (h' : Broke t evs' w') : Broke w (evs ++ evs') w' where
  toTrace := h.toTrace.trans h'.toTrace
  transportClient := by rw [h'.transportClient, h.transportClient]
  last := by
    obtain ⟨pre, e, rfl, hpre, hread, hfails⟩ := h'.last
    exact ⟨evs ++ pre, e, (List.append_assoc _ _ _).symm,
      fun e' he => (List.mem_append.mp he).elim (h.quiet e') (hpre e'), hread, hfails⟩

theorem connackRead {w : World σ E} (hv : w.Valid) (hs : w.state = .transportConnected) :
    ConnackRead w (readConnack p w).1 (readConnack p w).2 := by
  obtain ⟨evs, t, result, buf, ht, -, h⟩ := readConnack_polls p hv hs
  generalize (readConnack p w).1 = r at h ⊢
  generalize (readConnack p w).2 = w' at h ⊢
  cases h with
  | panicked => exact .panicked
  | broke hb he => exact .broke (.of_gathered ht.gathered hb) he
  | took _ _ hc htake hne =>
    have htaken := connackTaken hc.valid ((ht.gathered.trans hc.gathered).state.trans hs)
    rw [htake] at htaken
    exact .took ht.gathered ht.goes_or hc htaken hne

/-! ### The loop of `next_notification` -/

/-- The ways in which a turn of the loop ends. -/
inductive NextTurn (w : World σ E) :
    Outcome (Error E) (Option (Option ClientNotification)) → World σ E → Prop where
  | panicked {w' : World σ E} : ¬p.Honest → NextTurn w .panic w'
  | idle {evs : List (Event E)} {w' : World σ E} : Gathered w evs w' → received evs = [] →
      (∃ e ∈ evs, e.IsRead) → NextTurn w (.ok (some (some .sendPing))) w'
  | broke {evs : List (Event E)} {e : Error E} {w' : World σ E} : Broke w evs w' → e.Gone →
      NextTurn w (.err e) w'
  | framed {evs : List (Event E)} {t : World σ E} : Chunk w evs t → Framed t.content t.capacity →
      NextTurn w (.ok (some none)) t
  | more {evs : List (Event E)} {t : World σ E} : Chunk w evs t →
      ¬Framed t.content t.capacity → NextTurn w (.ok none) t

/-- The end of a turn that read some bytes. -/
def checkUsed : Act (World σ E) (Error E) (Option (Option ClientNotification)) := do
  let used ← usedSlice
  let capacity ← Act.gets fun w => w.client.rxBuffer.capacity
  match check used capacity with
  | .ok _ => pure (some none)
  | .err _ => pure none
  | .panic => Act.panic

/-- What a turn does behind its read. -/
def behindRead : Option Nat → Act (World σ E) (Error E) (Option (Option ClientNotification))
  | none => pure (some (some .sendPing))
  | some _ => checkUsed

/-- A turn looks at the clock, reads until the next ping, and looks at the bytes. -/
theorem nextNotificationTurn_eq {w : World σ E} {now : Instant} {s : σ}
    (hnow : p.now w.platform = (now, s)) : nextNotificationTurn p w =
      (readSomeWithTimeout p (w.client.transportClient.nextPingIn now) >>= behindRead)
        (w.clocked now s) := by
  have hclock : platformNow p w = (.ok now, w.clocked now s) := by
    rw [platformNow, hnow]
    rfl
  rw [nextNotificationTurn, Act.bind_of_ok hclock]
  rfl

theorem checkUsed_eq {w : World σ E} (hv : w.Valid) :
    (Framed w.content w.capacity ∧ checkUsed w = (.ok (some none), w)) ∨
      ¬Framed w.content w.capacity ∧ checkUsed w = (.ok none, w) := by
  have hused : (usedSlice : Act (World σ E) (Error E) (List UInt8)) w = (.ok w.content, w) := by
    rw [usedSlice, Buffer.usedSlice_eq hv]
    rfl
  have hrun : checkUsed w = (match check w.content w.capacity with
      | .ok _ => pure (some none)
      | .err _ => pure none
      | .panic => Act.panic :
        Act (World σ E) (Error E) (Option (Option ClientNotification))) w := by
    rw [checkUsed, Act.bind_of_ok hused]
    rfl
  cases hc : check w.content w.capacity with
  | ok fh => exact .inl ⟨⟨fh, hc⟩, by rw [hrun, hc]; rfl⟩
  | err e =>
    refine .inr ⟨?_, by rw [hrun, hc]; rfl⟩
    rintro ⟨fh, hfh⟩
    cases hc.symm.trans hfh
  | panic => exact absurd hc (check_ne_panic _ _)

/-- The record of a turn: it looks at the clock, and reads until the next ping. -/
def World.poll (w : World σ E) (now : Instant) (result : Except E (Option Nat))
    (buf : List UInt8) : List (Event E) :=
  [.clock now, .read (w.client.transportClient.nextPingIn now) result buf]

/-- The ways in which a turn ends that finds the clock at `now`, and whose read
returns `result` and leaves `buf` in the free part of the buffer. -/
inductive NextPoll (w : World σ E) (now : Instant) : Except E (Option Nat) → List UInt8 →
    Outcome (Error E) (Option (Option ClientNotification)) → World σ E → Prop where
  | idle {buf : List UInt8} {w' : World σ E} : Gathered w (w.poll now (.ok none) buf) w' →
      NextPoll w now (.ok none) buf (.ok (some (some .sendPing))) w'
  | broke {result : Except E (Option Nat)} {buf : List UInt8} {e : Error E} {w' : World σ E} :
      Broke w (w.poll now result buf) w' → e.Gone → NextPoll w now result buf (.err e) w'
  | framed {n : Nat} {buf : List UInt8} {t : World σ E} : n ≠ 0 → n ≤ buf.length →
      Chunk w (w.poll now (.ok (some n)) buf) t → Framed t.content t.capacity →
      NextPoll w now (.ok (some n)) buf (.ok (some none)) t
  | more {n : Nat} {buf : List UInt8} {t : World σ E} : n ≠ 0 → n ≤ buf.length →
      Chunk w (w.poll now (.ok (some n)) buf) t → ¬Framed t.content t.capacity →
      NextPoll w now (.ok (some n)) buf (.ok none) t
  | overrun {n : Nat} {buf : List UInt8} {w' : World σ E} : n ≠ 0 → ¬p.Honest →
      w'.log = w.log ++ w.poll now (.ok (some n)) buf →
      NextPoll w now (.ok (some n)) buf .panic w'

theorem nextPoll {w : World σ E} (hv : w.Valid) :
    ∃ now result buf, buf.length = w.capacity - w.content.length ∧
      NextPoll p w now result buf (nextNotificationTurn p w).1 (nextNotificationTurn p w).2 := by
  rcases hn : p.now w.platform with ⟨now, s⟩
  have hgathered : Gathered w [.clock now] (w.clocked now s) :=
    ⟨.clocked hv now s, fun e he => List.mem_singleton.mp he ▸ ⟨id, id⟩, rfl⟩
  obtain ⟨result, buf, hlen, hread⟩ :=
    polled p hgathered rfl (w.client.transportClient.nextPingIn now)
  refine ⟨now, result, buf, hlen, ?_⟩
  rw [nextNotificationTurn_eq p hn, Act.bind_apply]
  generalize readSomeWithTimeout p (w.client.transportClient.nextPingIn now) (w.clocked now s) = r
    at hread ⊢
  rcases r with ⟨r, t⟩
  cases hread with
  | idle hg => exact .idle hg
  | broke hb he => exact .broke hb he
  | bytes hn hle hc =>
    rcases checkUsed_eq hc.valid with ⟨hf, hcheck⟩ | ⟨hf, hcheck⟩
    · simp only [behindRead, hcheck]
      exact .framed hn hle hc hf
    · simp only [behindRead, hcheck]
      exact .more hn hle hc hf
  | overrun hn hhonest ht hlog =>
    have hpanic : checkUsed t = (.panic, t) := by
      rw [checkUsed, Act.bind_apply, usedSlice, Buffer.usedSlice_of_not ht]
    simp only [behindRead, hpanic]
    exact .overrun hn hhonest hlog

theorem nextTurn {w : World σ E} (hv : w.Valid) :
    NextTurn p w (nextNotificationTurn p w).1 (nextNotificationTurn p w).2 := by
  obtain ⟨now, result, buf, -, h⟩ := nextPoll p hv
  generalize (nextNotificationTurn p w).1 = r at h ⊢
  generalize (nextNotificationTurn p w).2 = w' at h ⊢
  cases h with
  | idle hg => exact .idle hg rfl ⟨_, List.mem_cons_of_mem _ (List.mem_singleton_self _), trivial⟩
  | broke hb he => exact .broke hb he
  | framed _ _ hc hf => exact .framed hc hf
  | more _ _ hc hf => exact .more hc hf
  | overrun _ hhonest _ => exact .panicked hhonest

/-- The ways in which the last turn of `next_notification` ends. -/
inductive NextEnd (t : World σ E) (now : Instant) : Except E (Option Nat) → List UInt8 →
    Outcome (Error E) ClientNotification → World σ E → Prop where
  | idle {buf : List UInt8} {w' : World σ E} : Gathered t (t.poll now (.ok none) buf) w' →
      NextEnd t now (.ok none) buf (.ok .sendPing) w'
  | broke {result : Except E (Option Nat)} {buf : List UInt8} {e : Error E} {w' : World σ E} :
      Broke t (t.poll now result buf) w' → e.Gone → NextEnd t now result buf (.err e) w'
  | framed {n : Nat} {buf : List UInt8} {u : World σ E} : n ≠ 0 → n ≤ buf.length →
      Chunk t (t.poll now (.ok (some n)) buf) u → Framed u.content u.capacity →
      NextEnd t now (.ok (some n)) buf
        (notify (TransportClient.onBytesReceived u.content u.client.transportClient).1)
        (u.withTransport (TransportClient.onBytesReceived u.content u.client.transportClient).2)
  | overrun {n : Nat} {buf : List UInt8} {w' : World σ E} : n ≠ 0 → ¬p.Honest →
      w'.log = t.log ++ t.poll now (.ok (some n)) buf →
      NextEnd t now (.ok (some n)) buf .panic w'

theorem NextEnd.log {t w' : World σ E} {now : Instant} {result : Except E (Option Nat)}
    {buf : List UInt8} {r : Outcome (Error E) ClientNotification}
    (h : NextEnd p t now result buf r w') : w'.log = t.log ++ t.poll now result buf := by
  cases h with
  | idle hg => exact hg.log
  | broke hb => exact hb.log
  | framed _ _ hc => exact hc.log
  | overrun _ _ hlog => exact hlog

/-- A turn of `next_notification` looks at the clock, and reads until the next
ping. -/
def NextLead (w : World σ E) (pre : List (Event E)) (timeout : Option Duration) : Prop :=
  ∃ now, pre = [.clock now] ∧ timeout = w.client.transportClient.nextPingIn now

/-- The received bytes do not start with a frame. -/
def World.Unframed (w : World σ E) : Prop := ¬Framed w.content w.capacity

/-- The record of `next_notification`. -/
theorem nextNotification_polls {w : World σ E} (hv : w.Valid) (hs : w.state ≠ .disconnected) :
    ∃ evs t now result buf, Polls NextLead World.Unframed w evs t ∧
      buf.length = t.capacity - t.content.length ∧
      NextEnd p t now result buf (nextNotification p w).1 (nextNotification p w).2 := by
  have hstep : ∀ t t' : World σ E, (∃ evs, Polls NextLead World.Unframed w evs t) →
      nextNotificationTurn p t = (.ok none, t') →
      (∃ evs, Polls NextLead World.Unframed w evs t') ∧
        t'.capacity - t'.content.length < t.capacity - t.content.length := by
    -- a turn that goes on has received some bytes, and no frame is there yet
    rintro t t' ⟨evs, ht⟩ hturn
    obtain ⟨now, result, buf, hlen, h⟩ := nextPoll p ht.gathered.valid
    rw [hturn] at h
    cases h with
    | more hn hle hc hf => exact ⟨⟨_, ht.more ⟨now, rfl, rfl⟩ hlen hn hle hc hf⟩, hc.room_lt⟩
  obtain ⟨t, ⟨evs, ht⟩, hlast, hloop⟩ := Act.loop_ends hstep
    (w.capacity - w.content.length + 1) w ⟨[], .nil hv⟩ (Nat.lt_succ_self _)
  obtain ⟨now, result, buf, hlen, h⟩ := nextPoll p ht.gathered.valid
  have hopen : w.client.isDisconnected = false :=
    Bool.eq_false_iff.mpr fun h => hs (isDisconnected_iff.mp h)
  refine ⟨evs, t, now, result, buf, ht, hlen, ?_⟩
  rw [nextNotification, Act.bind_apply, Act.gets_apply]
  simp only [hopen, Bool.false_eq_true, if_false]
  rw [Act.bind_of_ok (turns_apply hv), Act.bind_apply, hloop]
  rcases hturn : nextNotificationTurn p t with ⟨r, t'⟩
  rw [hturn] at h
  cases h with
  | idle hg => exact .idle hg
  | broke hb he => exact .broke hb he
  | framed hn hle hc hf =>
    simp only [Act.lastTurn, takeNotification_eq hc.valid]
    exact .framed hn hle hc hf
  | more => exact absurd hturn (hlast t')
  | overrun hn hhonest hlog => exact .overrun hn hhonest hlog

/-- The ways in which `next_notification` ends.  The bytes before the last read
do not start with a frame, unless they are those at the start. -/
inductive Notified (w : World σ E) : Outcome (Error E) ClientNotification → World σ E → Prop where
  | closed : w.state = .disconnected → Notified w (.err .connectionClosed) w
  | panicked {w' : World σ E} : w.state ≠ .disconnected → ¬p.Honest → Notified w .panic w'
  | broke {evs : List (Event E)} {e : Error E} {w' : World σ E} : w.state ≠ .disconnected →
      Broke w evs w' → e.Gone → Notified w (.err e) w'
  | ping {evs evs' : List (Event E)} {t w' : World σ E} : w.state ≠ .disconnected →
      Gathered w evs t → (t = w ∨ ¬Framed t.content t.capacity) → Gathered t evs' w' →
      received evs' = [] → (∃ e ∈ evs', e.IsRead) → Notified w (.ok .sendPing) w'
  | decoded {evs evs' : List (Event E)} {t u : World σ E} : w.state ≠ .disconnected →
      Gathered w evs t → (t = w ∨ ¬Framed t.content t.capacity) → Chunk t evs' u →
      Framed u.content u.capacity →
      Notified w (notify (TransportClient.onBytesReceived u.content u.client.transportClient).1)
        (u.withTransport (TransportClient.onBytesReceived u.content u.client.transportClient).2)

theorem nextNotification_of_disconnected {w : World σ E} (hs : w.state = .disconnected) :
    nextNotification p w = (.err .connectionClosed, w) := by
  rw [nextNotification, Act.bind_apply, Act.gets_apply]
  simp only [isDisconnected_iff.mpr hs, if_true]
  rfl

theorem notified {w : World σ E} (hv : w.Valid) :
    Notified p w (nextNotification p w).1 (nextNotification p w).2 := by
  by_cases hs : w.state = .disconnected
  · rw [nextNotification_of_disconnected p hs]
    exact .closed hs
  · obtain ⟨evs, t, now, result, buf, ht, -, h⟩ := nextNotification_polls p hv hs
    generalize (nextNotification p w).1 = r at h ⊢
    generalize (nextNotification p w).2 = w' at h ⊢
    cases h with
    | idle hg =>
      exact .ping hs ht.gathered ht.goes_or hg rfl
        ⟨_, List.mem_cons_of_mem _ (List.mem_singleton_self _), trivial⟩
    | broke hb he => exact .broke hs (.of_gathered ht.gathered hb) he
    | framed _ _ hc hf => exact .decoded hs ht.gathered ht.goes_or hc hf
    | overrun _ hhonest _ => exact .panicked hs hhonest

end Receiving

end NanoClient

end Umqtt
