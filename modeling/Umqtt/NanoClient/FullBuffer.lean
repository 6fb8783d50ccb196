/-
Umqtt/NanoClient/FullBuffer.lean

Reads into a receive buffer that is full.

The limit of the decoder is the size of the receive buffer, but it is compared
with the remaining length of a frame, and the buffer has to hold its header too.
A frame whose header makes the difference is waited for until the buffer is
full, and then read into an empty slice, for which a platform may report the end
of the stream.  The same becomes of larger frames in `next_notification`, which
does not look at the error of the check.

No slice is empty if all frames fit into the buffer, and the caller does not ask
for more notifications while a full buffer starts with one that is not completed
(`Served`): this is `full_buffer`.
-/
import Umqtt.NanoClient.Across
import Umqtt.NanoClient.Room

namespace Umqtt

open Effects Wire

namespace NanoClient

/-! ### Calls that do not read -/

section Mute

variable {σ E : Type}

/-- Calls that read nothing, leave the received bytes alone and do not open a
closed client. -/
structure Mute (w : World σ E) (evs : List (Event E)) (w' : World σ E) : Prop extends
    Logged w evs w' where
  content : w'.content = w.content
  noReads : ∀ e ∈ evs, ¬e.IsRead
  state : w.state = .disconnected → w'.state = .disconnected

/-- From a valid receive buffer on, nothing is read. -/
def Mutes (w w' : World σ E) : Prop := w.Valid → ∃ evs, Mute w evs w'

theorem Mutes.refl (w : World σ E) : Mutes w w := fun hv => ⟨[], .refl hv, rfl, nofun, id⟩

theorem Mutes.trans (w t u : World σ E) (h : Mutes w t) (h' : Mutes t u) : Mutes w u := by
  intro hv
  obtain ⟨evs, hevs⟩ := h hv
  obtain ⟨evs', hevs'⟩ := h' hevs.valid
  exact ⟨evs ++ evs', hevs.toLogged.trans hevs'.toLogged, hevs'.content.trans hevs.content,
    List.forall_mem_append.mpr ⟨hevs.noReads, hevs'.noReads⟩, fun hs => hevs'.state (hevs.state hs)⟩

theorem mutes_onTx {α : Type} (write : Act (List UInt8) WriteError α) :
    Act.Leads Mutes (onTx (write.mapErr .writeError) : Act (World σ E) (Error E) α) :=
  fun _ hv => ⟨[], ⟨(List.append_nil _).symm, hv, rfl, rfl⟩, rfl, nofun, id⟩

variable (p : Platform σ E)

theorem mutes_writeBuffer (buf : List UInt8) : Act.Leads Mutes (writeBuffer p buf) := by
  intro w hv
  have h := bufferWritten p buf w
  generalize (writeBuffer p buf w).1 = r at h
  generalize (writeBuffer p buf w).2 = w' at h ⊢
  cases h with
  | closed => exact Mutes.refl w hv
  | @sent s s' now hs =>
    exact ⟨_, logged_sent hv, rfl, List.forall_mem_cons.mpr ⟨id, List.forall_mem_singleton.mpr id⟩,
      fun h => absurd h hs⟩
  | @broken e s =>
    exact ⟨_, (Trace.wrote hv buf (.error e) s).closed.toLogged, rfl,
      List.forall_mem_singleton.mpr id, fun _ => rfl⟩

theorem mutes : Across p Mutes := ⟨Mutes.refl, Mutes.trans, mutes_onTx, mutes_writeBuffer p⟩

/-- A completion that takes nothing. -/
theorem mutes_completeNotification {completion : NotificationCompletion}
    (h : completion.taken = 0) (w : World σ E) :
    Mutes w (completeNotification p completion w).2 := by
  intro hv
  rcases completeNotification_cases p completion w with ⟨hno, -⟩ | ⟨b, hb, hc⟩
  · exact absurd hv hno
  · obtain ⟨hvalid, hcontent, hcap⟩ := hb hv
    have hsame : Mutes w (w.withRx b) := fun _ =>
      ⟨[], ⟨(List.append_nil _).symm, hvalid, hcap, rfl⟩, by rw [h] at hcontent; exact hcontent,
        nofun, id⟩
    rw [hc]
    exact hsame.trans _ _ _ ((mutes p).performAction completion.action _) hv

end Mute

/-! ### Runs -/

section Served

variable {σ E : Type}

/-- A run of calls, with the world in which its last call that connects began and
the notification that the caller has not completed yet.  A completion is one of
that notification, or takes nothing; and while there is such a notification, the
caller asks for the next only if the receive buffer is not full. -/
inductive Served (p : Platform σ E) (w₀ : World σ E) :
    World σ E → Option TransportNotification → World σ E → Prop where
  | start : Served p w₀ w₀ none w₀
  | opened {start w w' : World σ E} {out : Option TransportNotification} {call : Call}
      {r : Outcome (Error E) Value} : Served p w₀ start out w → call.connects ≠ none →
      perform p call w = (r, w') → r ≠ .panic → Served p w₀ w none w'
  | delivered {start w w' : World σ E} {out : Option TransportNotification}
      {n : TransportNotification} : Served p w₀ start out w →
      (out ≠ none → w.content.length < w.capacity) →
      nextNotification p w = (.ok (.transportNotification n), w') →
      Served p w₀ start (some n) w'
  | other {start w w' : World σ E} {out : Option TransportNotification}
      {r : Outcome (Error E) ClientNotification} : Served p w₀ start out w →
      (out ≠ none → w.content.length < w.capacity) → nextNotification p w = (r, w') →
      (∀ n, r ≠ .ok (.transportNotification n)) → r ≠ .panic → Served p w₀ start out w'
  | completed {start w : World σ E} {n : TransportNotification}
      {completion : NotificationCompletion} : Served p w₀ start (some n) w →
      completion.taken = n.taken → Served p w₀ start none (completeNotification p completion w).2
  | pinged {start w : World σ E} {out : Option TransportNotification}
      {completion : NotificationCompletion} : Served p w₀ start out w → completion.taken = 0 →
      Served p w₀ start out (completeNotification p completion w).2
  | sent {start w : World σ E} {out : Option TransportNotification} {packet : Send} :
      Served p w₀ start out w → Served p w₀ start out (performSend p packet w).2

/-- What holds between the calls of a run, `evs` being the calls of the platform
since `start`. -/
structure Serving (max : Nat) (start : World σ E) (evs : List (Event E))
    (out : Option TransportNotification) (w : World σ E) : Prop extends Logged start evs w where
  size : w.capacity = max
  limit : w.client.transportClient.maxPacketSize = max
  roomy : Fits max (received evs) → (∀ e ∈ evs, ¬e.IsEmptyRead) ∧
    (w.state ≠ .disconnected → out = none → w.content.length < max)
  reads : w.state ≠ .disconnected →
    ∃ items, Reads (Packet.next max) (received evs) items w.content
  outstanding : w.state ≠ .disconnected →
    ∀ n ∈ out, ∃ q, Packet.read w.content max = .ok (q, n.taken)

section Serving

variable {p : Platform σ E} {max : Nat} {start w w' : World σ E} {evs evs' : List (Event E)}
  {out : Option TransportNotification}

/-- What is left behind some packets fits. -/
theorem Fits.reads {data rest : List UInt8} {items : List (List UInt8 × Packet)}
    (hreads : Reads (Packet.next max) data items rest) (h : Fits max data) : Fits max rest := by
  induction hreads with
  | nil => exact h
  | cons hnext _ ih => exact ih (h.drop (Packet.next_eq_some.mp hnext))

theorem Serving.mute (h : Serving max start evs out w) (hm : Mute w evs' w') :
    Serving max start (evs ++ evs') out w' := by
  have hreceived : received (evs ++ evs') = received evs := by
    rw [received_append, received_of_not_isRead hm.noReads, List.append_nil]
  have hopen : w'.state ≠ .disconnected → w.state ≠ .disconnected := fun hs hw => hs (hm.state hw)
  refine ⟨h.toLogged.trans hm.toLogged, hm.capacity.trans h.size, hm.maxPacketSize.trans h.limit,
    ?_, ?_, ?_⟩
  all_goals rw [hm.content]
  · rw [hreceived]
    intro hfits
    obtain ⟨hevs, hroom⟩ := h.roomy hfits
    exact ⟨List.forall_mem_append.mpr ⟨hevs, fun e he hempty => hm.noReads e he hempty.isRead⟩,
      fun hs => hroom (hopen hs)⟩
  · rw [hreceived]
    exact fun hs => h.reads (hopen hs)
  · exact fun hs => h.outstanding (hopen hs)

/-- The bytes of the packet that is outstanding leave the buffer. -/
theorem Serving.completed {n : TransportNotification} {completion : NotificationCompletion}
    (h : Serving max start evs (some n) w) (htaken : completion.taken = n.taken) :
    ∃ evs', Serving max start evs' none (completeNotification p completion w).2 := by
  rcases completeNotification_cases p completion w with ⟨hno, -⟩ | ⟨b, hb, hc⟩
  · exact absurd h.valid hno
  obtain ⟨hvalid, hcontent, hcap⟩ := hb h.valid
  have hdropped : Serving max start evs none (w.withRx b) := by
    refine ⟨⟨h.log, hvalid, hcap.trans h.capacity, h.maxPacketSize⟩, hcap.trans h.size, h.limit,
      fun hfits => ⟨(h.roomy hfits).1, fun hs _ => ?_⟩, fun hs => ?_,
      fun _ n hn => absurd hn (Option.not_mem_none n)⟩
    · obtain ⟨q, hq⟩ := h.outstanding hs n rfl
      obtain ⟨h2, hle, -⟩ := Packet.read_eq_ok hq
      have hcap := (length_content h.valid).2
      show b.content.length < max
      rw [hcontent, htaken, List.length_drop, ← h.size]
      omega
    · obtain ⟨q, hq⟩ := h.outstanding hs n rfl
      obtain ⟨items, hitems⟩ := h.reads hs
      show ∃ items, Reads (Packet.next max) (received evs) items b.content
      rw [hcontent, htaken]
      exact ⟨_, hitems.snoc (Packet.next_eq_some.mpr hq)⟩
  obtain ⟨evs', hevs'⟩ := (mutes p).performAction completion.action (w.withRx b) hvalid
  rw [hc]
  exact ⟨_, hdropped.mute hevs'⟩

/-- A call for a notification that leaves the client open: it returns what it
has read off the buffer, or asks for a ping, having received nothing or no frame. -/
theorem nextNotification_open (hv : w.Valid) (hlimit : w.client.transportClient.maxPacketSize = max)
    {r : Outcome (Error E) ClientNotification} (h : nextNotification p w = (r, w'))
    (hr : r ≠ .panic) :
    ∃ evs, Logged w evs w' ∧ (w'.state ≠ .disconnected → w.state ≠ .disconnected ∧
      w'.content = w.content ++ received evs ∧
      ((∃ n q, r = .ok (.transportNotification n) ∧
          Packet.read w'.content max = .ok (q, n.taken)) ∨
        r = .ok .sendPing ∧ (w'.content = w.content ∨ ¬Framed w'.content w'.capacity))) := by
  have hn := notified p hv
  rw [h] at hn
  cases hn with
  | closed hs => exact ⟨[], .refl hv, fun hopen => absurd hs hopen⟩
  | panicked => exact absurd rfl hr
  | broke _ hb => exact ⟨_, hb.toLogged, fun hopen => absurd hb.state hopen⟩
  | @ping evs evs' t _ hs hg hmore hg' hnone =>
    have ht := hg.trans hg'
    have hcontent : w'.content = t.content := by rw [hg'.content, hnone, List.append_nil]
    refine ⟨_, ht.toLogged, fun _ => ⟨hs, ht.content, .inr ⟨rfl, ?_⟩⟩⟩
    rw [hcontent, hg'.capacity]
    exact hmore.imp (congrArg World.content) id
  | @decoded evs evs' t u hs hg _ hc hf =>
    have hu := hg.trans hc.gathered
    have hmax := TransportClient.onBytesReceived_maxPacketSize u.client.transportClient u.content
    have hlog : Logged w (evs ++ evs') (u.withTransport
        (TransportClient.onBytesReceived u.content u.client.transportClient).2) :=
      ⟨hu.log, hu.valid, hu.capacity, hmax.trans hu.maxPacketSize⟩
    refine ⟨_, hlog, fun hopen => ⟨hs, hu.content, .inl ?_⟩⟩
    have hread : ∀ {x}, Packet.read u.content u.client.transportClient.maxPacketSize = x →
        Packet.read u.content max = x := fun hx => by rwa [← hlimit, ← hu.maxPacketSize]
    have hr := TransportClient.received u.client.transportClient u.content
    rcases hb : TransportClient.onBytesReceived u.content u.client.transportClient with ⟨r, c⟩
    rw [hb] at hr hopen
    cases hr with
    | closed hclosed => exact absurd (hu.state.symm.trans hclosed) hs
    | needMore _ hmore =>
      obtain ⟨fh, hfh⟩ := hf
      exact absurd hmore (Packet.read_ne_needMoreData hfh _ _)
    | malformed | refused | unexpected => exact absurd rfl hopen
    | accepted _ hok | packet _ hok => exact ⟨_, _, rfl, hread hok⟩

/-- A call for a notification, with the notification that is then outstanding. -/
theorem Serving.next {out' : Option TransportNotification} (h : Serving max start evs out w)
    (hpos : 0 < max) (hroom : out ≠ none → w.content.length < w.capacity)
    {r : Outcome (Error E) ClientNotification} (hnext : nextNotification p w = (r, w'))
    (hr : r ≠ .panic) (hout : (∃ n, r = .ok (.transportNotification n) ∧ out' = some n) ∨
      (∀ n, r ≠ .ok (.transportNotification n)) ∧ out' = out) :
    ∃ evs', Serving max start evs' out' w' := by
  obtain ⟨got, hlog, hopen⟩ := nextNotification_open h.valid h.limit hnext hr
  have hfitsOf : w.state ≠ .disconnected → Fits max (received (evs ++ got)) →
      Fits w.capacity (w.content ++ received got) := fun hs hfits => by
    obtain ⟨items, hreads⟩ := h.reads hs
    rw [received_append] at hfits
    rw [h.size]
    exact hfits.reads (hreads.append (Packet.prefixed_next _) _)
  refine ⟨evs ++ got, h.toLogged.trans hlog, hlog.capacity.trans h.size,
    hlog.maxPacketSize.trans h.limit, fun hfits => ⟨?_, fun hs hnone => ?_⟩, fun hs => ?_,
    fun hs n hn => ?_⟩
  · have hbefore := hfits
    rw [received_append] at hbefore
    obtain ⟨hevs, hroom'⟩ := h.roomy hbefore.of_append
    refine List.forall_mem_append.mpr ⟨hevs, ?_⟩
    by_cases hs : w.state = .disconnected
    · rw [nextNotification_of_disconnected p hs] at hnext
      obtain ⟨-, rfl⟩ := Prod.mk.inj hnext
      obtain rfl : got = [] := List.append_right_eq_self.mp hlog.log.symm
      exact nofun
    · have hlt : w.content.length < w.capacity := by
        cases out with
        | none =>
          rw [h.size]
          exact hroom' hs rfl
        | some n => exact hroom (Option.some_ne_none n)
      have hgot : (nextNotification p w).2.log = w.log ++ got := by rw [hnext, hlog.log]
      exact nextNotification_not_isEmptyRead h.valid hs hlt hgot (hfitsOf hs hfits)
  · obtain ⟨hs', hcontent, ⟨n, q, hn, -⟩ | ⟨hping, hsame | hf⟩⟩ := hopen hs
    · rcases hout with ⟨n', -, rfl⟩ | ⟨hno, -⟩
      · cases hnone
      · exact absurd hn (hno n)
    · have hbefore := hfits
      rw [received_append] at hbefore
      obtain rfl : out = none := by
        rcases hout with ⟨n', -, rfl⟩ | ⟨-, rfl⟩
        · cases hnone
        · exact hnone
      rw [hsame]
      exact (h.roomy hbefore.of_append).2 hs' rfl
    · have hall := hfitsOf hs' hfits
      rw [← hcontent, ← hlog.capacity] at hall
      rw [← h.size, ← hlog.capacity]
      exact hall.lt hf (by rw [hlog.capacity, h.size]; exact hpos)
  · obtain ⟨hs', hcontent, -⟩ := hopen hs
    obtain ⟨items, hreads⟩ := h.reads hs'
    rw [received_append, hcontent]
    exact ⟨items, hreads.append (Packet.prefixed_next _) _⟩
  · obtain ⟨hs', hcontent, hresult⟩ := hopen hs
    rcases hout with ⟨n', hr', rfl⟩ | ⟨-, rfl⟩
    · obtain rfl := Option.some.inj hn
      rcases hresult with ⟨m, q, hm, hq⟩ | ⟨hping, -⟩
      · cases hr'.symm.trans hm
        exact ⟨q, hq⟩
      · cases hr'.symm.trans hping
    · obtain ⟨q, hq⟩ := h.outstanding hs' n hn
      refine ⟨q, ?_⟩
      rw [hcontent, Packet.read_append _ fun k hk => by cases hq.symm.trans hk]
      exact hq

/-- An operation that connects. -/
theorem serving_opened {call : Call} {options : ConnectOptions} {r : Outcome (Error E) Value}
    (hsize : w.capacity = max) (hlimit : w.client.transportClient.maxPacketSize = max)
    (h5 : 5 ≤ max) (hc : call.connects = some options) (hp : perform p call w = (r, w'))
    (hr : r ≠ .panic) : ∃ evs, Serving max w evs none w' := by
  have hgreeting := @connect_greeting _ _ p w options (hlimit.trans hsize.symm)
  rw [perform_of_connects p hc, Act.bind_apply] at hp
  rcases hconnect : connect p options w with ⟨r₁, t⟩
  rw [hconnect] at hgreeting hp
  have hserving : r₁ ≠ .panic → ∃ evs, Serving max w evs none t := fun hr₁ => by
    obtain ⟨evs, hlog, hevs⟩ := hgreeting hr₁
    rw [hsize] at hevs
    refine ⟨evs, hlog, hlog.capacity.trans hsize, hlog.maxPacketSize.trans hlimit,
      fun hfits => ⟨hevs.roomy h5 (.inl hfits), fun hs _ => ?_⟩, fun hs => (hevs.going hs).1,
      fun _ n hn => absurd hn (Option.not_mem_none n)⟩
    have hlt := (hevs.going hs).2 (by omega)
    rwa [hlog.capacity, hsize] at hlt
  cases r₁ with
  | ok ack =>
    obtain ⟨evs, hevs⟩ := hserving nofun
    obtain ⟨evs', hevs'⟩ := (mutes p).behindConnect call ack t hevs.valid
    have hw' : (behindConnect p call ack t).2 = w' := congrArg Prod.snd hp
    rw [hw'] at hevs'
    exact ⟨_, hevs.mute hevs'⟩
  | err e =>
    obtain ⟨-, rfl⟩ := Prod.mk.inj hp
    exact hserving nofun
  | panic =>
    obtain ⟨rfl, -⟩ := Prod.mk.inj hp
    exact absurd rfl hr

theorem Served.serving {txBuffer rxBuffer : List UInt8} {s : σ} (h5 : 5 ≤ rxBuffer.length)
    (h : Served p ⟨new txBuffer rxBuffer, s, []⟩ start out w) :
    ∃ evs, Serving rxBuffer.length start evs out w := by
  have hpos : 0 < rxBuffer.length := by omega
  induction h with
  | start =>
    exact ⟨[], .refl (Nat.zero_le _), rfl, rfl, fun _ => ⟨nofun, fun _ _ => hpos⟩,
      fun hs => absurd rfl hs, fun hs => absurd rfl hs⟩
  | opened _ hc hp hr ih =>
    obtain ⟨evs, hevs⟩ := ih
    obtain ⟨options, hoptions⟩ := Option.ne_none_iff_exists'.mp hc
    exact serving_opened hevs.size hevs.limit h5 hoptions hp hr
  | delivered _ hroom hnext ih =>
    obtain ⟨evs, hevs⟩ := ih
    exact hevs.next hpos hroom hnext nofun (.inl ⟨_, rfl, rfl⟩)
  | other _ hroom hnext hno hr ih =>
    obtain ⟨evs, hevs⟩ := ih
    exact hevs.next hpos hroom hnext hr (.inr ⟨hno, rfl⟩)
  | completed _ htaken ih =>
    obtain ⟨evs, hevs⟩ := ih
    exact hevs.completed htaken
  | pinged _ htaken ih =>
    obtain ⟨evs, hevs⟩ := ih
    obtain ⟨evs', hevs'⟩ := mutes_completeNotification p htaken _ hevs.valid
    exact ⟨_, hevs.mute hevs'⟩
  | sent _ ih =>
    obtain ⟨evs, hevs⟩ := ih
    obtain ⟨evs', hevs'⟩ := (mutes p).performSend _ _ hevs.valid
    exact ⟨_, hevs.mute hevs'⟩

end Serving

/-- The frames that the check does not reject as too large fit into the buffer,
but for those of which the header makes the difference. -/
theorem frame_fits_iff {fh : FixedHeader} {lenBytes rest : List UInt8} {max : Nat}
    (hw : fh.OnWire lenBytes) :
    ((∀ k, check (fh.byte1 :: (lenBytes ++ rest)) max ≠ .err (.payloadSizeLimitExceeded k)) →
        fh.fixedHeaderLen + fh.remainingLen ≤ max) ↔
      fh.fixedHeaderLen + fh.remainingLen ≤ max ∨ max < fh.remainingLen := by
  rw [check_of_onWire hw]
  constructor
  · intro h
    by_cases hlt : max < fh.remainingLen
    · exact .inr hlt
    · refine .inl (h fun k => ?_)
      rw [if_neg hlt]
      split <;> nofun
  · rintro (hle | hlt) h
    · exact hle
    · exact absurd (if_pos hlt) (h _)

/-- Let the receive buffer have at least five bytes.  In every run, as long as
the frames received since the last call that connects began fit into it, no read
had an empty slice.  If the first frame that a `connect` receives has a
remaining length above the size of the buffer, no read had an empty slice either,
and the error is reported.  The frames that fall between the two are those that
do not fit, although the check does not reject them. -/
theorem full_buffer {p : Platform σ E} {txBuffer rxBuffer : List UInt8} {s : σ}
    {start w : World σ E} {out : Option TransportNotification} (h5 : 5 ≤ rxBuffer.length)
    (hrun : Served p ⟨new txBuffer rxBuffer, s, []⟩ start out w) :
    (Fits rxBuffer.length (received (w.log.drop start.log.length)) →
      ∀ e ∈ w.log.drop start.log.length, ¬e.IsEmptyRead) ∧
    (∀ options r w', connect p options w = (r, w') → r ≠ .panic →
      TooLarge rxBuffer.length (received (w'.log.drop w.log.length)) →
      (∀ e ∈ w'.log.drop w.log.length, ¬e.IsEmptyRead) ∧
      ∀ k, check (received (w'.log.drop w.log.length)) rxBuffer.length =
        .err (.payloadSizeLimitExceeded k) → r = .err (.readError (.payloadSizeLimitExceeded k))) ∧
    ∀ (fh : FixedHeader) (lenBytes rest : List UInt8), fh.OnWire lenBytes →
      (((∀ k, check (fh.byte1 :: (lenBytes ++ rest)) rxBuffer.length ≠
            .err (.payloadSizeLimitExceeded k)) →
          fh.fixedHeaderLen + fh.remainingLen ≤ rxBuffer.length) ↔
        fh.fixedHeaderLen + fh.remainingLen ≤ rxBuffer.length ∨
          rxBuffer.length < fh.remainingLen) := by
  obtain ⟨evs, hevs⟩ := hrun.serving h5
  refine ⟨?_, fun options r w' hconnect hr => ?_, fun _ _ _ => frame_fits_iff⟩
  · rw [hevs.log, List.drop_left]
    exact fun hfits => (hevs.roomy hfits).1
  · have hgreeting := @connect_greeting _ _ p w options (hevs.limit.trans hevs.size.symm)
    rw [hconnect, hevs.size] at hgreeting
    obtain ⟨got, hlog, hgot⟩ := hgreeting hr
    rw [hlog.log, List.drop_left]
    exact fun hlarge => ⟨hgot.roomy h5 (.inr hlarge), fun k => hgot.reports _ rfl⟩

/-- A PUBLISH that fits, behind the CONNACK. -/
theorem full_buffer_fits :
    let p := streamPlatform 64
    let w₀ : World (List UInt8) Unit := ⟨new (List.replicate 32 0) (List.replicate 6 0),
      [0x20, 2, 0, 0, 0x30, 4, 0, 1, 97, 98], []⟩
    let w₁ := (perform p (.connect ⟨"client", none, none, 10, true⟩) w₀).2
    let w₂ := (nextNotification p w₁).2
    ∀ e ∈ w₂.log.drop w₀.log.length, ¬e.IsEmptyRead := by
  intro p w₀ w₁ w₂
  have hopened : Served p w₀ w₀ none w₁ :=
    @Served.opened _ _ _ _ _ _ _ _ (.connect ⟨"client", none, none, 10, true⟩) _ .start
      (Option.some_ne_none _) Prod.mk.eta.symm (by decide +kernel)
  have hnext : nextNotification p w₁ = (.ok (.transportNotification
      ⟨.publish ⟨false, .atMostOnce, false, "a", 0, [98]⟩, 6⟩), w₂) :=
    Prod.ext (by decide +kernel) rfl
  have hrun : Served p w₀ w₀ (some ⟨_, 6⟩) w₂ :=
    hopened.delivered (fun h => absurd rfl h) hnext
  have hreceived : received (w₂.log.drop w₀.log.length) =
      frame 0x20 [0, 0] ++ (frame 0x30 [0, 1, 97, 98] ++ []) := by decide +kernel
  refine (full_buffer (by decide) hrun).1 ?_
  rw [hreceived]
  exact (fits_nil.frame_append (by decide) (by decide +kernel)).frame_append (by decide)
    (by decide +kernel)

/-- A buffer of five bytes, and a PUBLISH of six behind the CONNACK: a read into
an empty slice, and a client that takes the stream for ended. -/
theorem full_buffer_publish :
    ¬∀ (σ E : Type) (p : Platform σ E) (txBuffer rxBuffer : List UInt8) (s : σ)
        (start w : World σ E) (out : Option TransportNotification), 5 ≤ rxBuffer.length →
      Served p ⟨new txBuffer rxBuffer, s, []⟩ start out w →
      (∃ more items, Reads (nextFrame 268435455)
        (received (w.log.drop start.log.length) ++ more) items []) →
      ∀ e ∈ w.log.drop start.log.length, ¬e.IsEmptyRead := by
  intro h
  let p := streamPlatform 64
  let w₀ : World (List UInt8) Unit := ⟨new (List.replicate 32 0) (List.replicate 5 0),
    [0x20, 2, 0, 0, 0x30, 4, 0, 1, 97, 98], []⟩
  let w₁ := (perform p (.connect ⟨"client", none, none, 10, true⟩) w₀).2
  let w₂ := (nextNotification p w₁).2
  have hnext : nextNotification p w₁ = (.err .connectionClosed, w₂) :=
    Prod.ext (by decide +kernel) rfl
  have hopened : Served p w₀ w₀ none w₁ :=
    @Served.opened _ _ _ _ _ _ _ _ (.connect ⟨"client", none, none, 10, true⟩) _ .start
      (Option.some_ne_none _) Prod.mk.eta.symm (by decide +kernel)
  have hrun : Served p w₀ w₀ none w₂ := hopened.other (fun h => absurd rfl h) hnext nofun nofun
  have hreceived : received (w₂.log.drop w₀.log.length) ++ [98] =
      frame 0x20 [0, 0] ++ frame 0x30 [0, 1, 97, 98] := by decide +kernel
  have hwhole : WholeFrames (frame 0x20 [0, 0] ++ frame 0x30 [0, 1, 97, 98]) :=
    (wholeFrames_frame (by decide)).append (wholeFrames_frame (by decide))
  obtain ⟨items, hitems⟩ := hwhole _ (Nat.le_refl _)
  rw [← hreceived] at hitems
  have hempty : Event.read (some ⟨10, 0, by decide⟩) (.ok (some 0)) [] ∈
      w₂.log.drop w₀.log.length := by decide +kernel
  exact h _ _ p _ _ _ w₀ w₂ none (by decide) hrun ⟨[98], items, hitems⟩ _ hempty rfl

end Served

end NanoClient

end Umqtt
