/-
Umqtt/Inbound.lean

The inbound side of `TransportClient` over whole runs.

The first half is about the calls in any order: what one epoch, which an opened
transport begins, can deliver (`inbound_protocol`).  The second half is about
the driver that the documentation of `on_bytes_received` shows, which appends
each chunk to a buffer and removes what is taken: its verdicts are decided by a
prefix (`incremental_verdict`), so that the chunks in which a stream arrives do
not matter (`chunk_independence`).
-/
import Umqtt.Lib.Stream
import Umqtt.TransportClient

namespace Umqtt

open Effects Wire

/-- The packet that a notification carries. -/
def Notification.packet : Notification → Option Packet
  | .connAck p => some (.connAck p)
  | .publish p => some (.publish p)
  | .pubAck p => some (.pubAck p)
  | .pubRec p => some (.pubRec p)
  | .pubRel p => some (.pubRel p)
  | .pubComp p => some (.pubComp p)
  | .subAck p => some (.subAck p)
  | .unsubAck p => some (.unsubAck p)
  | .pingResponse => some .pingResp
  | .disconnected => none

theorem Notification.packet_of_ofPacket {p : Packet} {n : Notification}
    (h : Notification.ofPacket p = some n) : n.packet = some p := by
  cases p <;> cases h <;> rfl

/-- The packets that only a client sends. -/
def PacketType.isClientOnly : PacketType → Bool
  | .connect | .subscribe | .unsubscribe | .pingReq | .disconnect => true
  | _ => false

namespace TransportClient

/-! ### Runs of calls -/

/-- The calls that the owner of a transport makes. -/
inductive Call where
  | opened (options : ConnectOptions)
  | packetSent (now : Instant)
  | closed
  | bytesReceived (data : List UInt8)

/-- What a call returns, if it returns anything, and the client behind it. -/
def perform : Call → TransportClient →
    Option (Outcome Error (Option (Notification × Nat))) × TransportClient
  | .opened options, self => (none, self.onTransportOpened options)
  | .packetSent now, self => (none, self.onPacketSent now)
  | .closed, self => (none, self.onTransportClosed)
  | .bytesReceived data, self =>
      (some (onBytesReceived data self).1, (onBytesReceived data self).2)

/-- A call in a run, with the client in front of it. -/
structure Entry where
  before : TransportClient
  call : Call

namespace Entry

def result (e : Entry) : Option (Outcome Error (Option (Notification × Nat))) :=
  (perform e.call e.before).1

def after (e : Entry) : TransportClient := (perform e.call e.before).2

/-- The call ended the epoch: it closed the transport, failed, or said that the
client is disconnected. -/
def Closes (e : Entry) : Prop :=
  e.call = .closed ∨ (∃ err, e.result = some (.err err)) ∨
    ∃ taken, e.result = some (.ok (some (.disconnected, taken)))

/-- The packet notification that the call delivered. -/
def delivered (e : Entry) : Option Notification :=
  match e.result with
  | some (.ok (some (n, _))) => if n = .disconnected then none else some n
  | _ => none

end Entry

/-- The entries of a run. -/
def history : TransportClient → List Call → List Entry
  | _, [] => []
  | self, call :: calls => ⟨self, call⟩ :: history (perform call self).2 calls

/-- The client behind a run. -/
def afterCalls : TransportClient → List Call → TransportClient
  | self, [] => self
  | self, call :: calls => afterCalls (perform call self).2 calls

theorem history_split {e : Entry} {h₁ h₂ : List Entry} : ∀ {self : TransportClient}
    {calls : List Call}, history self calls = h₁ ++ e :: h₂ →
    ∃ calls₂, calls₂ ⊆ calls ∧ h₂ = history e.after calls₂ := by
  induction h₁ with
  | nil =>
    rintro self (_ | ⟨call, calls⟩) h
    · cases h
    · cases h
      exact ⟨calls, List.subset_cons_self _ _, rfl⟩
  | cons e' h₁ ih =>
    rintro self (_ | ⟨call, calls⟩) h
    · cases h
    · rw [history, List.cons_append, List.cons.injEq] at h
      obtain ⟨calls₂, hsub, rfl⟩ := ih h.2
      exact ⟨calls₂, fun c hc => List.mem_cons_of_mem _ (hsub hc), rfl⟩

/-! ### A closed client -/

theorem onBytesReceived_of_disconnected {self : TransportClient}
    (h : self.state = .disconnected) (data : List UInt8) :
    onBytesReceived data self = (.ok (some (.disconnected, 0)), self) := by
  rw [onBytesReceived, h]

/-- A closed client stays closed until the next transport is opened. -/
theorem perform_of_disconnected {self : TransportClient} (h : self.state = .disconnected)
    {call : Call} (hcall : ∀ o, call ≠ .opened o) :
    (perform call self).2.state = .disconnected := by
  cases call with
  | opened o => exact absurd rfl (hcall o)
  | packetSent now => exact (self.onPacketSent_state now).trans h
  | closed => rfl
  | bytesReceived data =>
    rw [perform, onBytesReceived_of_disconnected h]
    exact h

theorem result_of_disconnected : ∀ {calls : List Call} {self : TransportClient},
    self.state = .disconnected → (∀ call ∈ calls, ∀ o, call ≠ .opened o) →
    ∀ e ∈ history self calls, ∀ data, e.call = .bytesReceived data →
      e.result = some (.ok (some (.disconnected, 0))) := by
  intro calls
  induction calls with
  | nil => exact fun _ _ _ h => nomatch h
  | cons call calls ih =>
    intro self hself hcalls e he data hdata
    obtain ⟨hcall, hcalls⟩ := List.forall_mem_cons.mp hcalls
    rcases List.mem_cons.mp he with rfl | he
    -- the first entry is the call itself, and later ones are calls of a client still closed
    · obtain rfl : call = .bytesReceived data := hdata
      rw [Entry.result, perform, onBytesReceived_of_disconnected hself]
    · exact ih (perform_of_disconnected hself hcall) hcalls e he data hdata

theorem Entry.Closes.state {e : Entry} (h : e.Closes) : e.after.state = .disconnected := by
  obtain ⟨self, call⟩ := e
  cases call with
  | opened o => rcases h with h | ⟨_, h⟩ | ⟨_, h⟩ <;> cases h
  | packetSent now => rcases h with h | ⟨_, h⟩ | ⟨_, h⟩ <;> cases h
  | closed => rfl
  | bytesReceived data =>
    have hr := received self data
    simp only [Closes, result, after, perform, reduceCtorEq, false_or, Option.some.injEq] at h ⊢
    generalize (onBytesReceived data self).1 = r at h hr
    generalize (onBytesReceived data self).2 = c at h hr ⊢
    cases hr with
    | closed hs => exact hs
    | refused | malformed | unexpected => rfl
    | needMore => rcases h with ⟨_, h⟩ | ⟨_, h⟩ <;> cases h
    | accepted => rcases h with ⟨_, h⟩ | ⟨_, h⟩ <;> cases h
    -- no packet is reported as a disconnect
    | @packet p _ n _ _ hp =>
      rcases h with ⟨_, h⟩ | ⟨_, h⟩
      · cases h
      · obtain ⟨rfl, -⟩ : n = .disconnected ∧ _ := by simpa using h
        have := Notification.packet_of_ofPacket hp
        cases this

/-! ### The packets of an epoch -/

/-- Nothing, or the CONNACK that accepts the connection and then packets of
other kinds. -/
def Admissible (ns : List Notification) : Prop :=
  ns = [] ∨ ∃ ack rest, ns = .connAck ack :: rest ∧ ack.code = .success ∧
    ∀ n ∈ rest, ∀ a, n ≠ .connAck a

/-- What has been delivered in the epoch, by the state of the client. -/
structure EpochInv (client : TransportClient) (ns : List Notification) : Prop where
  admissible : Admissible ns
  handshake : client.state = .transportConnected → ns = []
  session : client.state = .connected → ns ≠ []

theorem EpochInv.perform {self : TransportClient} {ns : List Notification}
    (h : EpochInv self ns) {call : Call} (hcall : ∀ o, call ≠ .opened o) :
    EpochInv (TransportClient.perform call self).2
      (ns ++ (Entry.mk self call).delivered.toList) := by
  cases call with
  | opened o => exact absurd rfl (hcall o)
  | packetSent now =>
    have hs := self.onPacketSent_state now
    simp only [Entry.delivered, Entry.result, TransportClient.perform, Option.toList_none,
      List.append_nil]
    exact ⟨h.admissible, fun h' => h.handshake (hs ▸ h'), fun h' => h.session (hs ▸ h')⟩
  | closed =>
    simp only [Entry.delivered, Entry.result, TransportClient.perform, Option.toList_none,
      List.append_nil]
    exact ⟨h.admissible, nofun, nofun⟩
  | bytesReceived data =>
    have hr := received self data
    simp only [Entry.delivered, Entry.result, TransportClient.perform]
    generalize (onBytesReceived data self).1 = r at hr ⊢
    generalize (onBytesReceived data self).2 = c at hr ⊢
    cases hr with
    | closed => simpa using h
    | needMore => simpa using h
    | malformed | refused | unexpected =>
      simp only [if_true, Option.toList_none, List.append_nil]
      exact ⟨h.admissible, nofun, nofun⟩
    -- the CONNACK: by the invariant nothing was delivered before it
    | @accepted ack taken hs hread hcode =>
      obtain rfl := h.handshake hs
      refine ⟨.inr ⟨ack, [], by simp, hcode, by simp⟩, nofun, fun _ => by simp⟩
    -- a packet in a session: some CONNACK came before it, and this is none
    | @packet p taken n hs hread hp =>
      have hpacket := Notification.packet_of_ofPacket hp
      have hne : n ≠ .disconnected := by rintro rfl; cases hpacket
      have hack : ∀ a, n ≠ .connAck a := by
        rintro a rfl
        cases hpacket
        cases hp
      simp only [if_neg hne, Option.toList_some]
      refine ⟨.inr ?_, (nomatch hs.symm.trans ·), fun _ => by simp⟩
      rcases h.admissible with rfl | ⟨ack, rest, rfl, hcode, hrest⟩
      · exact absurd rfl (h.session hs)
      · refine ⟨ack, rest ++ [n], by simp, hcode, fun m hm => ?_⟩
        rcases List.mem_append.mp hm with hm | hm
        · exact hrest m hm
        · obtain rfl := List.mem_singleton.mp hm
          exact hack

theorem EpochInv.history {calls : List Call} : ∀ {self : TransportClient}
    {ns : List Notification}, EpochInv self ns → (∀ call ∈ calls, ∀ o, call ≠ .opened o) →
    Admissible (ns ++ (history self calls).filterMap Entry.delivered) := by
  induction calls with
  | nil =>
    intro self ns h _
    rw [TransportClient.history, List.filterMap_nil, List.append_nil]
    exact h.admissible
  | cons call calls ih =>
    intro self ns h hcalls
    obtain ⟨hcall, hcalls⟩ := List.forall_mem_cons.mp hcalls
    have hnext := ih (h.perform hcall) hcalls
    rw [TransportClient.history, List.filterMap_cons]
    cases hd : (Entry.mk self call).delivered with
    | none => simpa [hd] using hnext
    | some n => simpa [hd] using hnext

/-! ### The inbound protocol -/

/-- What a call on received bytes says about the state it leaves. -/
theorem Entry.state_of_result (e : Entry) :
    e.result ≠ some .panic ∧ (∀ err, e.result = some (.err err) → e.after.state = .disconnected) ∧
      (e.result = some (.ok none) → e.after = e.before) := by
  obtain ⟨self, call⟩ := e
  cases call with
  | opened o => exact ⟨nofun, nofun, nofun⟩
  | packetSent now => exact ⟨nofun, nofun, nofun⟩
  | closed => exact ⟨nofun, nofun, nofun⟩
  | bytesReceived data =>
    have hr := received self data
    simp only [result, after, perform]
    generalize (onBytesReceived data self).1 = r at hr ⊢
    generalize (onBytesReceived data self).2 = c at hr ⊢
    cases hr with
    | closed | accepted | packet => exact ⟨nofun, nofun, nofun⟩
    | needMore => exact ⟨nofun, nofun, fun _ => rfl⟩
    | malformed | unexpected => exact ⟨nofun, fun _ _ => rfl, nofun⟩
    | refused => exact ⟨nofun, nofun, nofun⟩

/-- A packet notification carries the packet that the decoder reads. -/
theorem Entry.packet_of_result {e : Entry} {data : List UInt8} {n : Notification} {taken : Nat}
    (hcall : e.call = .bytesReceived data) (h : e.result = some (.ok (some (n, taken))))
    (hn : n ≠ .disconnected) :
    ∃ p, n.packet = some p ∧ Packet.read data e.before.maxPacketSize = .ok (p, taken) ∧
      2 ≤ taken ∧ taken ≤ data.length ∧ p.packetType.isClientOnly = false := by
  obtain ⟨self, call⟩ := e
  obtain rfl : call = .bytesReceived data := hcall
  have hr := received self data
  simp only [result, perform, Option.some.injEq] at h
  rw [h] at hr
  generalize (onBytesReceived data self).2 = c at hr
  cases hr with
  | closed | refused => exact absurd rfl hn
  | @accepted ack _ hs hread hcode =>
    obtain ⟨h2, hle, -⟩ := Packet.read_eq_ok hread
    exact ⟨.connAck ack, rfl, hread, h2, hle, rfl⟩
  | @packet p _ _ hs hread hp =>
    obtain ⟨h2, hle, -⟩ := Packet.read_eq_ok hread
    refine ⟨p, Notification.packet_of_ofPacket hp, hread, h2, hle, ?_⟩
    cases p <;> first | rfl | cases hp

/-- The epoch that `on_transport_opened` begins, behind any calls and up to the
next such call. -/
theorem inbound_protocol (self : TransportClient) (earlier : List Call)
    (options : ConnectOptions) (epoch : List Call)
    (hepoch : ∀ call ∈ epoch, ∀ o, call ≠ .opened o) :
    let entries := history (afterCalls self (earlier ++ [.opened options])) epoch
    Admissible (entries.filterMap Entry.delivered) ∧
    (∀ before e behind, entries = before ++ e :: behind → e.Closes →
      ∀ e' ∈ behind, ∀ data, e'.call = .bytesReceived data →
        e'.result = some (.ok (some (.disconnected, 0)))) ∧
    (∀ e ∈ entries, e.result ≠ some .panic ∧
      (∀ err, e.result = some (.err err) → e.after.state = .disconnected) ∧
      (e.result = some (.ok none) → e.after = e.before)) ∧
    (∀ e ∈ entries, ∀ data n taken, e.call = .bytesReceived data →
      e.result = some (.ok (some (n, taken))) → n ≠ .disconnected →
      ∃ p, n.packet = some p ∧ Packet.read data e.before.maxPacketSize = .ok (p, taken) ∧
        2 ≤ taken ∧ taken ≤ data.length ∧ p.packetType.isClientOnly = false) := by
  intro entries
  refine ⟨?_, ?_, fun e _ => e.state_of_result, fun e _ data n taken => Entry.packet_of_result⟩
  · have hopened : ∀ (calls : List Call) (client : TransportClient),
        (afterCalls client (calls ++ [.opened options])).state = .transportConnected := by
      intro calls
      induction calls with
      | nil => exact fun _ => rfl
      | cons call calls ih => exact fun client => ih _
    have hstart := hopened earlier self
    have hinv : EpochInv (afterCalls self (earlier ++ [.opened options])) [] :=
      ⟨.inl rfl, fun _ => rfl, (nomatch hstart.symm.trans ·)⟩
    exact hinv.history hepoch
  · intro before e behind hsplit hcloses e' he' data hdata
    obtain ⟨calls₂, hsub, rfl⟩ := history_split hsplit
    exact result_of_disconnected hcloses.state (fun call hcall => hepoch call (hsub hcall)) e' he'
      data hdata

/-- A CONNACK and a publish are delivered.  A second CONNACK ends the epoch, and the
PINGRESP behind it is not read any more. -/
theorem inbound_protocol_second_connAck :
    let options : ConnectOptions := ⟨"", none, none, 0, true⟩
    let e₁ : Entry := ⟨(new 256).onTransportOpened options, .bytesReceived [0x20, 2, 0, 0]⟩
    let e₂ : Entry := ⟨e₁.after, .bytesReceived [0x30, 4, 0, 1, 97, 7]⟩
    let e₃ : Entry := ⟨e₂.after, .bytesReceived [0x20, 2, 0, 0]⟩
    let e₄ : Entry := ⟨e₃.after, .bytesReceived [0xD0, 0]⟩
    let connAck : Notification := .connAck ⟨false, .success⟩
    let publish : Notification := .publish ⟨false, .atMostOnce, false, "a", 0, [7]⟩
    [e₁, e₂, e₃, e₄].filterMap Entry.delivered = [connAck, publish] ∧
      Admissible [connAck, publish] ∧
      e₃.result = some (.err (.unexpectedPacket .connAck)) ∧ e₃.after.state = .disconnected ∧
      e₄.result = some (.ok (some (.disconnected, 0))) ∧
      ∃ q, publish.packet = some q ∧ Packet.read [0x30, 4, 0, 1, 97, 7] 256 = .ok (q, 6) ∧
        q.packetType.isClientOnly = false := by
  intro options e₁ e₂ e₃ e₄ connAck publish
  have hdelivered : [e₁, e₂, e₃, e₄].filterMap Entry.delivered = [connAck, publish] := by
    decide +kernel
  have hpublish : e₂.result = some (.ok (some (publish, 6))) := by decide +kernel
  have herr : e₃.result = some (.err (.unexpectedPacket .connAck)) := by decide +kernel
  have hlimit : e₂.before.maxPacketSize = 256 := by decide +kernel
  obtain ⟨hadmissible, hclosed, hentries, hpackets⟩ := inbound_protocol (new 256) [] options
    [e₁.call, e₂.call, e₃.call, e₄.call] (by simp [e₁, e₂, e₃, e₄])
  obtain ⟨q, hq, hread, -, -, hserver⟩ := hpackets e₂ (.tail _ (.head _)) _ publish 6 rfl hpublish
    (by decide)
  rw [hlimit] at hread
  refine ⟨hdelivered, ?_, herr, ?_, ?_, q, hq, hread, hserver⟩
  · rw [← hdelivered]
    exact hadmissible
  · exact (hentries e₃ (.tail _ (.tail _ (.head _)))).2.1 _ herr
  · exact hclosed [e₁, e₂] e₃ [e₄] rfl (.inr (.inl ⟨_, herr⟩)) e₄ (.head _) _ rfl

/-! ### Streams in chunks -/

/-- How the driver of a client ends: with an error, or told that the client is
disconnected. -/
inductive End where
  | error (e : Error)
  | disconnected
  deriving DecidableEq

/-- A client with the buffer of its driver, what it delivered, and how many
bytes it took. -/
structure Driver where
  client : TransportClient
  buffer : List UInt8
  delivered : List Notification
  taken : Nat

namespace Driver

/-- Call `on_bytes_received` on the whole buffer, and remove what is taken. -/
def turn : Act Driver Empty (Option (Option End)) := fun self =>
  match onBytesReceived self.buffer self.client with
  | (.ok none, client) => (.ok (some none), { self with client })
  | (.ok (some (.disconnected, _)), client) =>
      (.ok (some (some .disconnected)), { self with client })
  | (.ok (some (n, taken)), client) =>
      if taken ≤ self.buffer.length then
        (.ok none, { client, buffer := self.buffer.drop taken,
                     delivered := self.delivered ++ [n], taken := self.taken + taken })
      else (.panic, { self with client })
  | (.err e, client) => (.ok (some (some (.error e))), { self with client })
  | (.panic, client) => (.panic, { self with client })

/-- Append a chunk and drain the buffer, one chunk after the other, until the
client is done for good. -/
def feed : List (List UInt8) → Act Driver Empty (Option End)
  | [] => pure none
  | chunk :: chunks => do
      Act.modify fun self => { self with buffer := self.buffer ++ chunk }
      let len ← Act.gets fun self => self.buffer.length
      match ← Act.loop turn (len + 1) with
      | some e => pure (some e)
      | none => feed chunks

/-- A driver with an empty buffer, for a client that was told of a new
transport. -/
def start (client : TransportClient) (options : ConnectOptions) : Driver where
  client := client.onTransportOpened options
  buffer := []
  delivered := []
  taken := 0

end Driver

/-- The verdict of a client on a buffer. -/
def verdict (self : TransportClient) (data : List UInt8) :
    Verdict TransportClient Notification End :=
  match onBytesReceived data self with
  | (.ok none, _) => .wait
  | (.ok (some (.disconnected, _)), client) => .stop .disconnected client
  | (.ok (some (n, taken)), client) => .take taken n client
  | (.err e, client) => .stop (.error e) client
  | (.panic, client) => .stop .disconnected client

theorem onBytesReceived_append {self : TransportClient} {data : List UInt8} (t : List UInt8)
    (h : ∀ k, Packet.read data self.maxPacketSize ≠ .err (.needMoreData k)) :
    onBytesReceived (data ++ t) self = onBytesReceived data self := by
  have hread := Packet.read_append t h
  simp only [onBytesReceived, onHandshakeBytes, onSessionBytes, hread]

/-- Every verdict but waiting is decided by a prefix. -/
theorem verdict_append {self : TransportClient} {data : List UInt8} (t : List UInt8)
    (h : verdict self data ≠ .wait) : verdict self (data ++ t) = verdict self data := by
  have happend : onBytesReceived (data ++ t) self = onBytesReceived data self := by
    have hr := received self data
    rcases hx : onBytesReceived data self with ⟨r, c⟩
    rw [hx] at hr
    cases hr with
    | closed hs => exact onBytesReceived_of_disconnected hs _
    -- for more bytes the client waits, which is excluded
    | needMore => exact absurd (by rw [verdict, hx]) h
    | malformed hs he hread =>
      refine (onBytesReceived_append t fun k hk => ?_).trans hx
      rw [hread] at hk
      cases hk
      cases he
    | accepted hs hread | refused hs hread | unexpected hs hread | packet hs hread =>
      exact (onBytesReceived_append t fun k hk => nomatch hread.symm.trans hk).trans hx
  rw [verdict, verdict, happend]

/-- What `on_bytes_received` does, by the verdict that this comes to. -/
inductive Judged (self : TransportClient) (data : List UInt8) :
    Verdict TransportClient Notification End →
      Outcome Error (Option (Notification × Nat)) × TransportClient → Prop where
  | wait : Judged self data .wait (.ok none, self)
  | take {n : Nat} {out : Notification} {client : TransportClient} : out ≠ .disconnected →
      2 ≤ n → n ≤ data.length →
      Judged self data (.take n out client) (.ok (some (out, n)), client)
  | told {n : Nat} {client : TransportClient} :
      Judged self data (.stop .disconnected client) (.ok (some (.disconnected, n)), client)
  | failed {e : Error} {client : TransportClient} :
      Judged self data (.stop (.error e) client) (.err e, client)

theorem judged (self : TransportClient) (data : List UInt8) :
    Judged self data (verdict self data) (onBytesReceived data self) := by
  have hr := received self data
  rcases hx : onBytesReceived data self with ⟨r, c⟩
  rw [hx] at hr
  rw [verdict, hx]
  cases hr with
  | closed | refused => exact .told
  | needMore => exact .wait
  | malformed | unexpected => exact .failed
  | accepted _ hread =>
    obtain ⟨h2, hle, -⟩ := Packet.read_eq_ok hread
    exact .take nofun h2 hle
  | @packet p taken m _ hread hp =>
    obtain ⟨h2, hle, -⟩ := Packet.read_eq_ok hread
    have := Notification.packet_of_ofPacket hp
    cases m with
    | disconnected => cases this
    | _ => exact .take nofun h2 hle

theorem incremental_verdict : Incremental verdict where
  take t hs := (verdict_append t (by rw [hs]; nofun)).trans hs
  stop t hs := (verdict_append t (by rw [hs]; nofun)).trans hs
  taken {self s' data n out} hs := by
    have hj := judged self data
    rw [hs] at hj
    generalize onBytesReceived data self = x at hj
    cases hj with
    | take _ h2 hle => exact ⟨by omega, hle⟩

/-! ### The driver does what the verdicts say -/

namespace Driver

theorem turn_of_wait {self : Driver} (h : verdict self.client self.buffer = .wait) :
    turn self = (.ok (some none), self) := by
  have hj := judged self.client self.buffer
  rw [h] at hj
  rw [turn]
  generalize onBytesReceived self.buffer self.client = x at hj ⊢
  cases hj
  rfl

theorem turn_of_stop {self : Driver} {fin : End} {client : TransportClient}
    (h : verdict self.client self.buffer = .stop fin client) :
    turn self = (.ok (some (some fin)), { self with client }) := by
  have hj := judged self.client self.buffer
  rw [h] at hj
  rw [turn]
  generalize onBytesReceived self.buffer self.client = x at hj ⊢
  cases hj <;> rfl

theorem turn_of_take {self : Driver} {n : Nat} {out : Notification} {client : TransportClient}
    (h : verdict self.client self.buffer = .take n out client) :
    turn self = (.ok none,
      { client, buffer := self.buffer.drop n,
        delivered := self.delivered ++ [out], taken := self.taken + n }) := by
  have hj := judged self.client self.buffer
  rw [h] at hj
  rw [turn]
  generalize onBytesReceived self.buffer self.client = x at hj ⊢
  cases hj with
  | take hout _ hle =>
    cases out with
    | disconnected => exact absurd rfl hout
    | _ => exact if_pos hle

/-- The loop drains the buffer; its bound does not run out, since every turn
that goes on takes something. -/
theorem loop_turn {s s' : TransportClient} {data : List UInt8} {outs : List Notification}
    {k : Nat} {fin : Option End} (h : Drains verdict s data outs k s' fin) :
    ∀ {self : Driver} {n : Nat}, self.client = s → self.buffer = data → data.length < n →
      Act.loop turn n self = (.ok fin,
        { client := s', buffer := data.drop k,
          delivered := self.delivered ++ outs, taken := self.taken + k }) := by
  induction h with
  | wait hs =>
    rintro self (_ | n) rfl rfl hn
    · exact absurd hn (Nat.not_lt_zero _)
    · rw [Act.loop_succ_of_last (by rw [turn_of_wait hs]; simp), turn_of_wait hs]
      simp [Act.lastTurn]
  | stop hs =>
    rintro self (_ | n) rfl rfl hn
    · exact absurd hn (Nat.not_lt_zero _)
    · rw [Act.loop_succ_of_last (by rw [turn_of_stop hs]; simp), turn_of_stop hs]
      simp [Act.lastTurn]
  -- the verdict takes something, so that the bound of one turn less is enough for the rest
  | @take s t s' data m k out outs fin hs hd ih =>
    rintro self (_ | n) rfl rfl hn
    · exact absurd hn (Nat.not_lt_zero _)
    · have htaken := incremental_verdict.taken hs
      rw [Act.loop_succ_of_none (turn_of_take hs),
        ih rfl rfl (by rw [List.length_drop]; omega)]
      simp [Nat.add_assoc]

/-- Feeding chunks to the driver. -/
theorem feed_feeds (chunks : List (List UInt8)) : ∀ self : Driver,
    ∃ outs k fin self', feed chunks self = (.ok fin, self') ∧
      Feeds verdict self.client self.buffer chunks outs k self'.client fin ∧
      self'.delivered = self.delivered ++ outs ∧ self'.taken = self.taken + k := by
  induction chunks with
  | nil => exact fun self => ⟨[], 0, none, self, rfl, .nil, by simp, rfl⟩
  | cons chunk chunks ih =>
    intro self
    -- the buffer with the new chunk is drained, and the driver waits or is done for good
    obtain ⟨outs, k, s', fin, hd⟩ := exists_drains incremental_verdict self.client
      (self.buffer ++ chunk)
    have hloop := @loop_turn _ _ _ _ _ _ hd { self with buffer := self.buffer ++ chunk }
      ((self.buffer ++ chunk).length + 1) rfl rfl (Nat.lt_succ_self _)
    cases fin with
    | some e =>
      refine ⟨outs, k, some e, ⟨s', (self.buffer ++ chunk).drop k, self.delivered ++ outs,
        self.taken + k⟩, ?_, .stop hd, rfl, rfl⟩
      simp only [feed, Act.bind_apply, Act.modify_apply, Act.gets_apply, hloop, Act.pure_apply]
    | none =>
      obtain ⟨outs', k', fin, self', hfeed, hfeeds, hdel, htaken⟩ := ih
        ⟨s', (self.buffer ++ chunk).drop k, self.delivered ++ outs, self.taken + k⟩
      refine ⟨outs ++ outs', k + k', fin, self', ?_, .cons hd hfeeds, ?_, ?_⟩
      · simp only [feed, Act.bind_apply, Act.modify_apply, Act.gets_apply, hloop, hfeed]
      · rw [hdel, List.append_assoc]
      · rw [htaken, Nat.add_assoc]

end Driver

/-- Two drivers that get the same stream in different chunks deliver the same
notifications and end in the same way, with the same client and the same number
of bytes taken.  Both runs return: no drain loop goes on forever. -/
theorem chunk_independence (self : TransportClient) (options : ConnectOptions)
    {chunks₁ chunks₂ : List (List UInt8)} (h : chunks₁.flatten = chunks₂.flatten) :
    ∃ fin d₁ d₂, Driver.feed chunks₁ (.start self options) = (.ok fin, d₁) ∧
      Driver.feed chunks₂ (.start self options) = (.ok fin, d₂) ∧
      d₁.delivered = d₂.delivered ∧ d₁.client = d₂.client ∧ d₁.taken = d₂.taken := by
  obtain ⟨outs₁, k₁, fin₁, d₁, hfeed₁, hf₁, hdel₁, htaken₁⟩ :=
    Driver.feed_feeds chunks₁ (.start self options)
  obtain ⟨outs₂, k₂, fin₂, d₂, hfeed₂, hf₂, hdel₂, htaken₂⟩ :=
    Driver.feed_feeds chunks₂ (.start self options)
  have hwait : verdict (self.onTransportOpened options) [] = .wait := rfl
  obtain ⟨rfl, rfl, hclient, rfl⟩ := hf₁.unique incremental_verdict hwait hf₂ h
  exact ⟨fin₁, d₁, d₂, hfeed₁, hfeed₂, by rw [hdel₁, hdel₂], hclient, by rw [htaken₁, htaken₂]⟩

/-- A CONNACK and a PINGRESP, in one piece and cut inside both packets: both are
delivered, and the client goes on. -/
theorem chunk_independence_connAck_pingResp :
    let start := Driver.start (new 64) ⟨"", none, none, 0, true⟩
    ∃ d₁ d₂, Driver.feed [[0x20, 2, 0, 0, 0xD0, 0]] start = (.ok none, d₁) ∧
      Driver.feed [[0x20], [2, 0], [0, 0xD0], [0]] start = (.ok none, d₂) ∧
      d₁.delivered = [.connAck ⟨false, .success⟩, .pingResponse] ∧
      d₁.delivered = d₂.delivered ∧ d₁.client = d₂.client ∧ d₁.taken = 6 ∧ d₂.taken = 6 := by
  intro start
  have hwhole : (Driver.feed [[0x20, 2, 0, 0, 0xD0, 0]] start).1 = .ok none := by decide +kernel
  have hdelivered : (Driver.feed [[0x20, 2, 0, 0, 0xD0, 0]] start).2.delivered =
      [.connAck ⟨false, .success⟩, .pingResponse] := by decide +kernel
  have htaken : (Driver.feed [[0x20, 2, 0, 0, 0xD0, 0]] start).2.taken = 6 := by decide +kernel
  obtain ⟨fin, d₁, d₂, hfeed₁, hfeed₂, hdel, hclient, htake⟩ :=
    @chunk_independence (new 64) ⟨"", none, none, 0, true⟩ [[0x20, 2, 0, 0, 0xD0, 0]]
      [[0x20], [2, 0], [0, 0xD0], [0]] rfl
  have hrun : Driver.feed [[0x20, 2, 0, 0, 0xD0, 0]] start = (.ok fin, d₁) := hfeed₁
  rw [hrun] at hwhole hdelivered htaken
  cases hwhole
  exact ⟨d₁, d₂, hfeed₁, hfeed₂, hdelivered, hdel, hclient, htaken, htake.symm.trans htaken⟩

end TransportClient

end Umqtt
