/-
Umqtt/NanoClient/Promptness.lean

When `next_notification` withholds a packet.

The loop of `next_notification` reads from the platform before it looks at the
receive buffer, so that a packet that is in the buffer already is not delivered
until more bytes arrive (`prompt_iff`).  A session is spared this if every
notification is completed and no read brings bytes of more than one packet:
then nothing that could be delivered is ever left in the buffer
(`prompt_of_aligned`).
-/
import Umqtt.NanoClient.Session

namespace Umqtt

open Effects Wire

namespace NanoClient

section Prompt

variable {σ E : Type} (p : Platform σ E)

/-- If the receive buffer starts with a whole frame, `next_notification` returns
what is made of it, and does not read from the platform. -/
def Prompt (w : World σ E) : Prop :=
  Framed w.content w.capacity → ∃ evs, (nextNotification p w).2.log = w.log ++ evs ∧
    (∀ e ∈ evs, ¬e.IsRead) ∧ (nextNotification p w).1 =
      notify (TransportClient.onBytesReceived w.content w.client.transportClient).1

theorem notify_ne_panic (self : TransportClient) (data : List UInt8) :
    notify (TransportClient.onBytesReceived data self).1 ≠
      (.panic : Outcome (Error E) ClientNotification) := by
  have hr := TransportClient.received self data
  generalize (TransportClient.onBytesReceived data self).1 = r at hr
  generalize (TransportClient.onBytesReceived data self).2 = c at hr
  cases hr <;> exact nofun

variable {p} {w : World σ E}

/-- A call on a connected client reads from the platform, whatever is in the
buffer. -/
theorem nextNotification_reads (hv : w.Valid) (hs : w.state = .connected) :
    (nextNotification p w).1 = .panic ∨
      ∃ evs, (nextNotification p w).2.log = w.log ++ evs ∧ ∃ e ∈ evs, e.IsRead := by
  have h := notified p hv
  generalize (nextNotification p w).1 = r at h ⊢
  generalize (nextNotification p w).2 = w' at h ⊢
  cases h with
  | closed hs' => cases hs.symm.trans hs'
  | panicked => exact .inl rfl
  | broke _ hb =>
    obtain ⟨pre, e, rfl, -, hread, -⟩ := hb.last
    exact .inr ⟨_, hb.log, e, List.mem_append_right _ (List.mem_singleton_self e), hread⟩
  | ping _ hg _ hg' _ hread =>
    obtain ⟨e, he, hread⟩ := hread
    exact .inr ⟨_, (hg.trans hg').log, e, List.mem_append_right _ he, hread⟩
  | decoded _ hg _ hc _ =>
    obtain ⟨pre, e, rfl, -, hread, -⟩ := hc.last
    exact .inr ⟨_, (hg.toTrace.trans hc.toTrace).log, e,
      List.mem_append_right _ (List.mem_append_right _ (List.mem_singleton_self e)), hread⟩

/-- A connected client is prompt iff there is no packet in its buffer. -/
theorem prompt_iff (hv : w.Valid) (hs : w.state = .connected) :
    Prompt p w ↔ ¬Framed w.content w.capacity := by
  refine ⟨fun hprompt hf => ?_, fun hf hf' => absurd hf' hf⟩
  obtain ⟨evs, hlog, hno, hresult⟩ := hprompt hf
  rcases @nextNotification_reads _ _ p w hv hs with hpanic | ⟨evs', hlog', e, he, hread⟩
  · exact notify_ne_panic _ _ (hresult.symm.trans hpanic)
  · obtain rfl := List.append_cancel_left (hlog.symm.trans hlog')
    exact hno e he hread

/-! ### Reads that keep to the packets -/

/-- No packet ends in the middle of what one read brings: where packets are read
off the bytes received so far, either nothing is left, or at least all that the
last read brought. -/
def Aligned (max : Nat) (evs : List (Event E)) : Prop :=
  ∀ before e behind items rest, evs = before ++ e :: behind →
    Reads (Packet.next max) (received before ++ e.received) items rest →
    rest = [] ∨ e.received.length ≤ rest.length

section Aligned

variable {max : Nat} {evs chunk : List (Event E)} {items : List (List UInt8 × Packet)}
  {rest : List UInt8}

theorem Aligned.of_append {more : List (Event E)} (h : Aligned max (evs ++ more)) :
    Aligned max evs := by
  rintro before e behind items rest rfl
  apply h before e (behind ++ more)
  rw [List.append_assoc, List.cons_append]

theorem aligned_nil : Aligned max ([] : List (Event E)) := by
  rintro (- | ⟨e, before⟩) e' behind items rest h <;> cases h

theorem Aligned.snoc {e : Event E} (h : Aligned max evs)
    (he : ∀ items rest, Reads (Packet.next max) (received evs ++ e.received) items rest →
      rest = [] ∨ e.received.length ≤ rest.length) : Aligned max (evs ++ [e]) := by
  intro before e' behind items rest heq
  rcases List.eq_nil_or_concat behind with rfl | ⟨init, last, rfl⟩
  · obtain ⟨rfl, hlast⟩ := List.append_inj' heq rfl
    obtain rfl := List.singleton_inj.mp hlast
    exact he items rest
  · rw [List.concat_eq_append, ← List.cons_append, ← List.append_assoc] at heq
    exact h before e' init items rest (List.append_inj' heq rfl).1

/-- If a packet ends in the chunk, it ends with the chunk. -/
theorem Aligned.rest_eq_nil {old : List UInt8} {n : Nat} {q : Packet}
    (h : Aligned max (evs ++ chunk)) (hlast : ∃ pre e, chunk = pre ++ [e] ∧ received pre = [] ∧
      e.IsRead ∧ e.received ≠ [])
    (hreads : Reads (Packet.next max) (received (evs ++ chunk)) items (old ++ received chunk))
    (hread : Packet.read (old ++ received chunk) max = .ok (q, n))
    (hold : ∀ x, Packet.read old max ≠ .ok x) : (old ++ received chunk).drop n = [] := by
  obtain ⟨pre, e, rfl, hpre, -, -⟩ := hlast
  have hchunk : received (pre ++ [e]) = e.received := by
    rw [received_append, hpre, received, List.flatMap_singleton, List.nil_append]
  have hsnoc := hreads.snoc (Packet.next_eq_some.mpr hread)
  rw [received_append, hchunk] at hsnoc
  rw [hchunk] at hread ⊢
  rcases h (evs ++ pre) e [] _ _ (List.append_assoc _ _ _).symm
      (by rwa [received_append, hpre, List.append_nil]) with hnil | hle
  · exact hnil
  · rw [List.length_drop, List.length_append] at hle
    have hn := (Packet.read_eq_ok hread).2.1
    rw [List.length_append] at hn
    exact absurd (Packet.read_of_append hread (by omega)) (hold _)

end Aligned

theorem not_framed_nil (cap : Nat) : ¬Framed [] cap := fun ⟨_, h⟩ => by cases h

/-- Nothing that could be delivered is left in the buffer, behind the packet that
is outstanding. -/
def Tight (w : World σ E) : Option TransportNotification → Prop
  | none => ¬Framed w.content w.capacity
  | some n => w.content.drop n.taken = []

section Tight

variable {w₀ w₁ : World σ E} {ack : ConnAck} {start evs : List (Event E)}
  {items : List (List UInt8 × Packet)} {del : List Notification}
  {out : Option TransportNotification}

theorem Accepted.tight {options : ConnectOptions} {got chunk : List (Event E)} {n : Nat}
    (h : Accepted options w₀ ack got chunk n w₁)
    (halign : Aligned w₀.client.transportClient.maxPacketSize
      (.wrote .transportConnected (connectBytes options) (.ok ()) :: (got ++ chunk))) :
    Tight w₁ none := by
  have hreceived : received (got ++ chunk) = received got ++ received chunk := received_append _ _
  have hread := h.read
  rw [hreceived] at hread
  have halign' : Aligned w₀.client.transportClient.maxPacketSize
    ((.wrote .transportConnected (connectBytes options) (.ok ()) :: got) ++ chunk) := halign
  have hreads : Reads (Packet.next w₀.client.transportClient.maxPacketSize)
      (received (.wrote .transportConnected (connectBytes options) (.ok ()) :: got ++ chunk)) []
      (received got ++ received chunk) := by
    rw [← hreceived]
    exact .nil _
  have hnil := halign'.rest_eq_nil h.last hreads hread h.early
  show ¬Framed w₁.content w₁.capacity
  rw [h.content, hreceived, hnil]
  exact not_framed_nil _

theorem Silent.tight {sent : List (Event E)} {t w' : World σ E} (h : Silent t sent w')
    (ht : Tight t out) : Tight w' out := by
  have hcontent : w'.content = t.content := by
    rw [h.content, h.received, List.append_nil]
  cases out with
  | none =>
    show ¬Framed w'.content w'.capacity
    rw [hcontent, h.capacity]
    exact ht
  | some n =>
    show w'.content.drop n.taken = []
    rw [hcontent]
    exact ht

theorem Consumed.tight {n : TransportNotification} {w t : World σ E} (h : Consumed n.taken w t)
    (ht : Tight w (some n)) : Tight t none := by
  have hnil : w.content.drop n.taken = [] := ht
  show ¬Framed t.content t.capacity
  rw [h.content, hnil]
  exact not_framed_nil _

theorem Consumed.tight_zero {w t : World σ E} (h : Consumed 0 w t) (ht : Tight w out) :
    Tight t out := by
  have hcontent : t.content = w.content := by rw [h.content, List.drop_zero]
  cases out with
  | none =>
    show ¬Framed t.content t.capacity
    rw [hcontent, h.capacity]
    exact ht
  | some n =>
    show t.content.drop n.taken = []
    rw [hcontent]
    exact ht

/-- In a session whose reads keep to the packets, nothing that could be
delivered is left in the buffer. -/
theorem Course.tight {answers : ClientNotification → NotificationCompletion → Prop}
    {sends : Send → Prop}
    (hanswers : ∀ n completion, answers n completion → completion.taken = n.taken)
    (hacc : Account w₀ ack start items [] [] none w₁) (htight : Tight w₁ none)
    (h : Course answers sends w₁ evs del out w)
    (halign : Aligned w₀.client.transportClient.maxPacketSize (start ++ evs))
    (hs : w.state = .connected) : Tight w out := by
  induction h with
  | start => exact htight
  | @delivered evs got chunk del w t w' q n hcourse hconn hg hmore hc hread _ ih =>
    rw [← List.append_assoc] at halign
    have hw := ih halign.of_append hconn
    obtain ⟨items', pending, ha⟩ := hcourse.account hanswers hacc
    have hg' := ha.trace (hg.trans hc.gathered).toTrace
    -- there was no packet yet before the last read: so the one that is delivered ends in
    -- what that read brought, and by alignment it ends with it
    have hold : ∀ x, Packet.read t.content w₀.client.transportClient.maxPacketSize ≠ .ok x := by
      rintro ⟨q', m⟩ hx
      have hframed : Framed t.content t.capacity :=
        Packet.check_of_read hx (length_content hg.valid).2
      rcases hmore with rfl | hno
      · exact hw hframed
      · exact hno hframed
    have hcontent : w'.content = t.content ++ received chunk := hc.content
    have hreads := hg'.reads
    have hread' : Packet.read w'.content w₀.client.transportClient.maxPacketSize =
        .ok (q, n.taken) := by
      rw [← hg'.maxPacketSize]
      exact hread
    rw [hcontent, ← List.append_assoc] at hreads
    rw [hcontent] at hread'
    rw [← List.append_assoc] at halign
    show w'.content.drop n.taken = []
    rw [hcontent]
    exact halign.rest_eq_nil hc.last hreads hread' hold
  | @idle evs got waited del w t w' _ hg hmore hg' hnil ih =>
    -- the last turn brought nothing, and the turns before it would have ended the loop if
    -- there had been a frame
    rw [← List.append_assoc] at halign
    have hstate := hg'.state.trans hg.state
    have hw := ih halign.of_append (hstate.symm.trans hs)
    have hcontent : w'.content = t.content := by rw [hg'.content, hnil, List.append_nil]
    show ¬Framed w'.content w'.capacity
    rw [hcontent, hg'.capacity]
    rcases hmore with rfl | hno
    · exact hw
    · exact hno
  | failed _ _ _ hclosed => cases hclosed.symm.trans hs
  | completed _ hanswer hc ha ih =>
    rw [← List.append_assoc] at halign
    have hsilent := ha.silent hc.valid
    have hw := ih halign.of_append (hc.state.symm.trans (hsilent.connected hs))
    rw [hanswers _ _ hanswer] at hc
    exact hsilent.tight (hc.tight hw)
  | pinged _ hanswer hc ha ih =>
    rw [← List.append_assoc] at halign
    have hsilent := ha.silent hc.valid
    have hw := ih halign.of_append (hc.state.symm.trans (hsilent.connected hs))
    rw [hanswers _ _ hanswer] at hc
    exact hsilent.tight (hc.tight_zero hw)
  | sent _ _ hsend ih =>
    rw [← List.append_assoc] at halign
    exact hsend.silent.tight (ih halign.of_append (hsend.silent.connected hs))

end Tight

/-- In every state, a connected client is prompt iff there is no packet in its
buffer.  In a session whose reads keep to the packets, it is prompt whenever no
notification is outstanding, and has delivered all packets that it has received. -/
theorem prompt_of_aligned (p : Platform σ E) :
    (∀ w, w.Valid → w.state = .connected → (Prompt p w ↔ ¬Framed w.content w.capacity)) ∧
    ∀ options w₀ ack w₁ del w, connect p options w₀ = (.ok ack, w₁) →
      Session p ClientNotification.Completes (fun _ => True) w₁ del none w →
      w.state = .connected →
      Aligned w₀.client.transportClient.maxPacketSize (w.log.drop w₀.log.length) →
      Prompt p w ∧ ∃ items used, w.client.rxBuffer.usedSlice = (.ok used : Outcome (Error E) _) ∧
        Reads (Packet.next w₀.client.transportClient.maxPacketSize)
          (received (w.log.drop w₀.log.length)) items used ∧
        Packet.next w₀.client.transportClient.maxPacketSize used = none ∧
        (items.map Prod.snd).map some =
          (Notification.connAck ack :: del).map Notification.packet := by
  refine ⟨fun w hv hs => prompt_iff hv hs, ?_⟩
  intro options w₀ ack w₁ del w hconnect hsession hs halign
  obtain ⟨got, chunk, n, ha⟩ := accepted_of_ok p hconnect
  obtain ⟨evs, hcourse⟩ := hsession.course ha.valid ha.settled
  have hv := (hcourse.settled ha.valid ha.settled).1
  have hanswers : ∀ n completion, ClientNotification.Completes n completion →
      completion.taken = n.taken := fun _ _ hc => hc.taken
  obtain ⟨items, pending, hacc⟩ := hcourse.account hanswers ha.account
  rw [hacc.log, List.drop_left] at halign ⊢
  have htight : ¬Framed w.content w.capacity :=
    hcourse.tight hanswers ha.account (ha.tight halign.of_append) halign hs
  refine ⟨(prompt_iff hv hs).mpr htight, items, w.content, Buffer.usedSlice_eq hv, hacc.reads,
    ?_, ?_⟩
  · rcases hnext : Packet.next w₀.client.transportClient.maxPacketSize w.content with - | ⟨q, m⟩
    · rfl
    · have hcheck := Packet.check_of_read (Packet.next_eq_some.mp hnext) (length_content hv).2
      exact absurd hcheck htight
  · obtain rfl : pending = [] := hacc.outstanding
    have hdel := hacc.delivered
    rwa [List.append_nil] at hdel

/-- Reads that bring the CONNACK, and then a PUBACK, which is delivered and
completed: the client is prompt, and the PINGRESP behind it is not received yet. -/
theorem prompt_of_aligned_connAck :
    let p := streamPlatform 4
    let options : ConnectOptions := ⟨"client", none, none, 10, true⟩
    let w₀ : World (List UInt8) Unit := ⟨new (List.replicate 32 0) (List.replicate 4 0),
      [0x20, 2, 0, 0, 0x40, 2, 0, 10, 0xD0, 0], []⟩
    let w₂ := (nextNotification p (connect p options w₀).2).2
    let pubAck : TransportNotification := ⟨.pubAck ⟨10⟩, 4⟩
    let w := (completeNotification p (ClientNotification.transportNotification pubAck).complete
      w₂).2
    w.platform = [0xD0, 0] ∧ Prompt p w ∧
      ∃ items used, w.client.rxBuffer.usedSlice = (.ok used : Outcome (Error Unit) _) ∧
        Reads (Packet.next 4) [0x20, 2, 0, 0, 0x40, 2, 0, 10] items used ∧
        Packet.next 4 used = none ∧
        (items.map Prod.snd).map some =
          [Notification.connAck ⟨false, .success⟩, pubAck.notification].map
            Notification.packet := by
  intro p options w₀ w₂ pubAck w
  have hconnect : connect p options w₀ = (.ok ⟨false, .success⟩, (connect p options w₀).2) :=
    Prod.ext (by decide +kernel) rfl
  have hnext : nextNotification p (connect p options w₀).2 =
      (.ok (.transportNotification pubAck), w₂) := Prod.ext (by decide +kernel) rfl
  have hlog : w.log = [] ++ [.wrote .transportConnected (connectBytes options) (.ok ())] ++
      [.clock Instant.epoch] ++ [.read none (.ok (some 4)) [0x20, 2, 0, 0]] ++
      [.clock Instant.epoch] ++
      [.read (some (Duration.fromSecs 10)) (.ok (some 4)) [0x40, 2, 0, 10]] := by decide +kernel
  have hconnAck : ∀ {x}, Packet.next 4 [0x20, 2, 0, 0] = some x →
      x = (.connAck ⟨false, .success⟩, 4) := fun h => (Option.some.inj h).symm
  have hboth : ∀ {x}, Packet.next 4 [0x20, 2, 0, 0, 0x40, 2, 0, 10] = some x →
      x = (.connAck ⟨false, .success⟩, 4) := fun h => (Option.some.inj h).symm
  have hpubAck : ∀ {x}, Packet.next 4 [0x40, 2, 0, 10] = some x → x = (.pubAck ⟨10⟩, 4) :=
    fun h => (Option.some.inj h).symm
  have halign : Aligned 4 (w.log.drop 0) := by
    rw [List.drop_zero, hlog]
    refine ((((aligned_nil.snoc ?_).snoc ?_).snoc ?_).snoc ?_).snoc ?_
    · exact fun _ _ _ => .inr (Nat.zero_le _)
    · exact fun _ _ _ => .inr (Nat.zero_le _)
    · rintro items rest (- | ⟨hread, hreads⟩)
      · exact .inr (Nat.le_refl _)
      · cases hconnAck hread
        cases hreads with
        | nil => exact .inl rfl
        | cons hread => cases hread
    · exact fun _ _ _ => .inr (Nat.zero_le _)
    · rintro items rest (- | ⟨hread, hreads⟩)
      · exact .inr (show 4 ≤ 8 by decide)
      · cases hboth hread
        rcases hreads with - | ⟨hread, hreads⟩
        · exact .inr (Nat.le_refl _)
        · cases hpubAck hread
          cases hreads with
          | nil => exact .inl rfl
          | cons hread => cases hread
  obtain ⟨hprompt, items, used, hused, hreads, hdrained, hitems⟩ :=
    (prompt_of_aligned p).2 _ _ _ _ _ w hconnect (.completed (.delivered .start hnext) .complete)
      (by decide +kernel) halign
  have hreceived : received (w.log.drop w₀.log.length) =
      [0x20, 2, 0, 0, 0x40, 2, 0, 10] := by decide +kernel
  rw [hreceived] at hreads
  exact ⟨by decide +kernel, hprompt, items, used, hused, hreads, hdrained, hitems⟩

/-- A PINGRESP that comes with the CONNACK. -/
theorem prompt_of_aligned_coalesced :
    ¬∀ (σ E : Type) (p : Platform σ E) (options : ConnectOptions) (w₀ w₁ : World σ E)
        (ack : ConnAck), connect p options w₀ = (.ok ack, w₁) → w₁.state = .connected →
      Prompt p w₁ := by
  intro hclaim
  let p := streamPlatform 64
  let w₀ : World (List UInt8) Unit :=
    ⟨new (List.replicate 32 0) (List.replicate 16 0), [0x20, 2, 0, 0, 0xD0, 0], []⟩
  let w₁ := (connect p ⟨"client", none, none, 10, true⟩ w₀).2
  have hconnect : connect p ⟨"client", none, none, 10, true⟩ w₀ = (.ok ⟨false, .success⟩, w₁) :=
    Prod.ext (by decide +kernel) rfl
  have hs : w₁.state = .connected := by decide +kernel
  have hv : w₁.client.rxBuffer.used ≤ w₁.client.rxBuffer.buffer.length := by decide +kernel
  have hcontent : w₁.content = [0xD0, 0] := by decide +kernel
  have hframed : Framed w₁.content w₁.capacity := by
    rw [hcontent]
    have hcap : w₁.capacity = 16 := by decide +kernel
    rw [hcap]
    exact ⟨_, rfl⟩
  exact (prompt_iff hv hs).mp (hclaim _ _ _ _ _ _ _ hconnect hs) hframed

end Prompt

end NanoClient

end Umqtt
