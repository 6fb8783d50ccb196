/-
Umqtt/FieldLengths.lean

Strings and byte fields that are too long for the 16-bit length in front of them.

`write_mqtt_bytes` casts the length of a field to 16 bits without a check, so
that of a field of 65536 bytes or more it announces the length modulo 65536.
Nothing else stops such a field: the packet is written whenever its body keeps
to the limit and the buffer has room (`field_lengths`).
-/
import Umqtt.RoundTrip

namespace Umqtt

open Effects Wire

/-! ### The fields of a packet -/

/-- The fields of a login that are written, which are those that are not empty. -/
def Login.prefixed (self : Login) : List (List UInt8) :=
  (if !(asBytes self.username).isEmpty then [asBytes self.username] else []) ++
    (if !self.password.isEmpty then [self.password] else [])

def LastWill.prefixed (self : LastWill) : List (List UInt8) :=
  [asBytes self.topic, self.message]

namespace Packet

/-- The strings and byte fields that are written behind a 16-bit length. -/
def prefixed : Packet → List (List UInt8)
  | connect p => asBytes p.clientId ::
      (p.lastWill.elim [] LastWill.prefixed ++ p.login.elim [] Login.prefixed)
  | publish p => [asBytes p.topic]
  | subscribe p =>
      match p.filters.iter Subscribe.BytesIterator.next with
      | .ok filters => filters.map fun f => asBytes f.path
      | _ => []
  | unsubscribe p =>
      match p.topics.iter Unsubscribe.WireBytesIter.next with
      | .ok topics => topics.map asBytes
      | _ => []
  | _ => []

/-- Some field is too long for a 16-bit length. -/
def HasLongField (p : Packet) : Prop := ∃ f ∈ p.prefixed, 65535 < f.length

/-- A PUBLISH above quality of service 0 has a packet id. -/
def Numbered : Packet → Prop
  | publish p => p.qos ≠ .atMostOnce → p.pkid ≠ 0
  | _ => True

/-- The packet can be encoded into `room` bytes, whatever the lengths of its
fields. -/
def Encodes (p : Packet) (room : Nat) : Prop :=
  p.Numbered ∧ ∃ len, p.len = .ok len ∧ len ≤ 268435455 ∧ 1 + (base128 len).length + len ≤ room

end Packet

/-! ### The fields in the frame -/

theorem infix_ite {c : Prop} [Decidable c] {f g : List UInt8} (hf : f ∈ if c then [g] else []) :
    lenPrefixed f <:+: if c then lenPrefixed g else [] := by
  by_cases hc : c
  · rw [if_pos hc] at hf ⊢
    obtain rfl := List.mem_singleton.mp hf
    exact List.infix_rfl
  · rw [if_neg hc] at hf
    cases hf

theorem Login.infix_fields {self : Login} {f : List UInt8} (hf : f ∈ self.prefixed) :
    lenPrefixed f <:+: self.fields := by
  rcases List.mem_append.mp hf with hf | hf
  · exact (infix_ite hf).trans (List.prefix_append _ _).isInfix
  · exact (infix_ite hf).trans (List.suffix_append _ _).isInfix

theorem LastWill.infix_fields {self : LastWill} {f : List UInt8} (hf : f ∈ self.prefixed) :
    lenPrefixed f <:+: self.fields := by
  rcases List.mem_cons.mp hf with rfl | hf
  · exact (List.prefix_append _ _).isInfix
  · obtain rfl := List.mem_singleton.mp hf
    exact (List.suffix_append _ _).isInfix

theorem infix_elim {α : Type} {o : Option α} {fields : α → List (List UInt8)}
    {bytes : α → List UInt8} {f : List UInt8}
    (h : ∀ a, f ∈ fields a → lenPrefixed f <:+: bytes a) (hf : f ∈ o.elim [] fields) :
    lenPrefixed f <:+: o.elim [] bytes := by
  cases o with
  | none => cases hf
  | some a => exact h a hf

theorem Connect.infix_body {self : Connect} {f : List UInt8}
    (hf : f ∈ (Packet.connect self).prefixed) : lenPrefixed f <:+: self.body := by
  have hbody : self.body = [lenPrefixed (asBytes "MQTT") ++ [level self.protocol] ++
      [self.connectFlags], toBeBytes self.keepAlive, lenPrefixed (asBytes self.clientId),
      self.lastWill.elim [] LastWill.fields, self.login.elim [] Login.fields].flatten := by
    simp [body, afterFlags]
  rw [hbody]
  rcases List.mem_cons.mp hf with rfl | hf
  · exact List.infix_of_mem_flatten (by simp)
  rcases List.mem_append.mp hf with hf | hf
  · exact (infix_elim (fun _ => LastWill.infix_fields) hf).trans
      (List.infix_of_mem_flatten (by simp))
  · exact (infix_elim (fun _ => Login.infix_fields) hf).trans
      (List.infix_of_mem_flatten (by simp))

namespace Packet

/-- The writer of `p` produces a frame in which each field stands behind its
length cast to 16 bits, or fails on every buffer. -/
structure Framing (p : Packet) (len : Nat) : Prop where
  len_eq : p.len = .ok len
  frames : p.Numbered → len ≤ 268435455 → ∃ byte1 body,
    Writes WriteError.notEnoughCapacity p.write (frame byte1 body) ∧ body.length = len ∧
      ∀ f ∈ p.prefixed, lenPrefixed f <:+: body
  refuses : ¬(p.Numbered ∧ len ≤ 268435455) → ∀ buf, ∃ e, (p.write buf).1 = .err e

theorem framing_connect (p : Connect) : (connect p).Framing p.len where
  len_eq := rfl
  frames _ hle := ⟨0x10, p.body, Connect.writes hle, p.length_body, fun _ => p.infix_body⟩
  refuses h buf := by
    obtain ⟨e, buf', hbuf, -⟩ :=
      @Connect.write_of_not_fits p buf fun hfits => h ⟨trivial, hfits.1⟩
    exact ⟨e, congrArg Prod.fst hbuf⟩

theorem framing_publish (p : Publish) : (publish p).Framing p.len where
  len_eq := rfl
  frames hid hle := by
    refine ⟨_, p.body, Publish.writes hid hle, Publish.length_body hid, fun f hf => ?_⟩
    obtain rfl := List.mem_singleton.mp hf
    exact (List.prefix_append _ _).isInfix
  refuses h buf := by
    obtain ⟨e, buf', hbuf, -⟩ := Publish.refuses h buf
    exact ⟨e, congrArg Prod.fst hbuf⟩

theorem framing_subscribe (p : Subscribe) : ∃ len, (subscribe p).Framing len := by
  obtain ⟨filters, hiter⟩ := p.filters.exists_iter Subscribe.decodes
  have hlen := Subscribe.len_eq hiter
  refine ⟨_, hlen, fun _ hle => ⟨0x82, _, Subscribe.writes hiter hle, rfl, fun f hf => ?_⟩,
    fun h buf => ?_⟩
  · rw [prefixed, hiter] at hf
    obtain ⟨filter, hmem, rfl⟩ := List.mem_map.mp hf
    have hentry : filter.entry <:+: filters.flatMap SubscribeFilter.entry :=
      List.infix_of_mem_flatten (List.mem_map_of_mem hmem)
    exact ((List.prefix_append _ _).isInfix.trans hentry).trans (List.suffix_append _ _).isInfix
  · obtain ⟨e, buf', hbuf, -⟩ := Subscribe.refuses hlen
      (Nat.lt_of_not_le fun hle => h ⟨trivial, hle⟩) buf
    exact ⟨e, congrArg Prod.fst hbuf⟩

theorem framing_unsubscribe (p : Unsubscribe) : ∃ len, (unsubscribe p).Framing len := by
  obtain ⟨topics, hiter⟩ := p.topics.exists_iter Unsubscribe.decodes
  have hlen := Unsubscribe.len_eq hiter
  refine ⟨_, hlen, fun _ hle => ⟨0xA2, _, Unsubscribe.writes hiter hle, rfl, fun f hf => ?_⟩,
    fun h buf => ?_⟩
  · rw [prefixed, hiter] at hf
    obtain ⟨topic, hmem, rfl⟩ := List.mem_map.mp hf
    have hentry : Unsubscribe.entry topic <:+: topics.flatMap Unsubscribe.entry :=
      List.infix_of_mem_flatten (List.mem_map_of_mem hmem)
    exact hentry.trans (List.suffix_append _ _).isInfix
  · obtain ⟨e, buf', hbuf, -⟩ := Unsubscribe.refuses hlen
      (Nat.lt_of_not_le fun hle => h ⟨trivial, hle⟩) buf
    exact ⟨e, congrArg Prod.fst hbuf⟩

/-- The packets without such fields aside, all packets are framed. -/
theorem exists_framing (p : Packet) : p.prefixed = [] ∨ ∃ len, p.Framing len := by
  cases p with
  | connect p => exact .inr ⟨_, framing_connect p⟩
  | publish p => exact .inr ⟨_, framing_publish p⟩
  | subscribe p => exact .inr (framing_subscribe p)
  | unsubscribe p => exact .inr (framing_unsubscribe p)
  | connAck | pubAck | pubRec | pubRel | pubComp | subAck | unsubAck => exact .inl rfl
  | pingReq | pingResp | disconnect => exact .inl rfl

/-! ### Lengths that are cast -/

/-- The writer does not truncate a length: it refuses a field that is too long,
and every field that it writes stands behind its own length. -/
def KeepsLengths (p : Packet) (buf : List UInt8) : Prop :=
  (p.HasLongField → ∃ e, (p.write buf).1 = .err e) ∧
    ∀ n, (p.write buf).1 = .ok n → ∀ f ∈ p.prefixed, ∃ len : UInt16,
      len.toNat = f.length ∧ toBeBytes len ++ f <:+: (p.write buf).2.take n

theorem Framing.fails_iff {p : Packet} {len : Nat} (h : p.Framing len) (buf : List UInt8) :
    (∃ e, (p.write buf).1 = .err e) ↔ ¬p.Encodes buf.length := by
  by_cases hok : p.Numbered ∧ len ≤ 268435455
  · obtain ⟨byte1, body, hw, hbody, -⟩ := h.frames hok.1 hok.2
    have hlen : (frame byte1 body).length = 1 + (base128 len).length + len := by
      rw [frame, List.length_cons, List.length_append, hbody]
      omega
    have hfits : p.Encodes buf.length ↔ (frame byte1 body).length ≤ buf.length := by
      rw [hlen]
      constructor
      · rintro ⟨-, len', hlen', -, hle⟩
        rwa [Outcome.ok.inj (h.len_eq.symm.trans hlen')]
      · exact fun hle => ⟨hok.1, len, h.len_eq, hok.2, hle⟩
    rw [hfits, ← hw.ok_iff]
    constructor
    · rintro ⟨e, he⟩ ⟨n, hn⟩
      cases he.symm.trans hn
    · intro hno
      obtain ⟨buf', hbuf, -⟩ :=
        (hw buf).2 (Nat.lt_of_not_le fun hle => hno ((hw.ok_iff buf).mpr hle))
      exact ⟨_, congrArg Prod.fst hbuf⟩
  · refine ⟨?_, fun _ => h.refuses hok buf⟩
    rintro - ⟨hid, len', hlen', hle, -⟩
    exact hok ⟨hid, Outcome.ok.inj (h.len_eq.symm.trans hlen') ▸ hle⟩

/-- Lengths are kept iff no field is too long, or the packet cannot be encoded
for another reason. -/
theorem field_lengths (p : Packet) (buf : List UInt8) :
    p.KeepsLengths buf ↔ (p.HasLongField → ¬p.Encodes buf.length) := by
  rcases p.exists_framing with hnil | ⟨len, h⟩
  · have hno : ¬p.HasLongField := by
      rintro ⟨f, hf, -⟩
      rw [hnil] at hf
      cases hf
    refine ⟨fun _ hlong => absurd hlong hno, fun _ => ⟨fun hlong => absurd hlong hno, ?_⟩⟩
    intro n _ f hf
    rw [hnil] at hf
    cases hf
  · refine ⟨fun hkeeps hlong => (h.fails_iff buf).mp (hkeeps.1 hlong), fun hlong =>
      ⟨fun hl => (h.fails_iff buf).mpr (hlong hl), fun n hn f hf => ?_⟩⟩
    have hencodes : p.Encodes buf.length := by
      by_contra hno
      obtain ⟨e, he⟩ := (h.fails_iff buf).mpr hno
      cases he.symm.trans hn
    -- a packet that is written has no field that is too long
    have hshort : f.length ≤ 65535 := Nat.le_of_not_lt fun hlt => hlong ⟨f, hf, hlt⟩ hencodes
    obtain ⟨hid, len', hlen', hle, -⟩ := hencodes
    obtain rfl := Outcome.ok.inj (h.len_eq.symm.trans hlen')
    obtain ⟨byte1, body, hw, -, hwithin⟩ := h.frames hid hle
    refine ⟨UInt16.ofNat f.length, toNat_ofNat_length hshort, ?_⟩
    rw [(hw.of_ok hn).2.2]
    refine (hwithin f hf).trans (.trans ?_ (List.suffix_cons _ _).isInfix)
    exact (List.suffix_append _ _).isInfix

theorem len_connect_password {password : List UInt8} (hne : password.isEmpty = false) :
    Connect.len ⟨.v4, 10, "", true, none, some ⟨"u", password⟩⟩ = 17 + password.length := by
  have hmqtt : (asBytes "MQTT").length = 4 ∧ asBytes "" = [] ∧ asBytes "u" = [0x75] := by decide
  simp only [Connect.len, Login.len, hmqtt, hne, List.length_nil, List.length_singleton,
    List.isEmpty_cons, Bool.not_false, if_true]
  omega

/-- A password of 65536 bytes: the length in front of it is 0. -/
theorem field_lengths_password :
    ¬∀ (p : Packet) (buf : List UInt8), p.HasLongField → ∃ e, (p.write buf).1 = .err e := by
  intro hclaim
  have hpassword := @List.length_replicate UInt8 65536 0
  have hbuf := @List.length_replicate UInt8 65557 0
  generalize List.replicate 65536 (0 : UInt8) = password at hpassword
  generalize List.replicate 65557 (0 : UInt8) = buf at hbuf
  have hne : password.isEmpty = false := by
    rw [List.isEmpty_eq_false_iff, ← List.length_pos_iff]
    omega
  have hlong : (connect ⟨.v4, 10, "", true, none, some ⟨"u", password⟩⟩).HasLongField :=
    ⟨password, by simp [prefixed, Login.prefixed, hne], by omega⟩
  obtain ⟨e, he⟩ := hclaim _ buf hlong
  refine ((framing_connect _).fails_iff buf).mp ⟨e, he⟩ ⟨trivial, _, rfl, ?_⟩
  have hbase : (base128 (17 + 65536)).length ≤ 3 := length_base128_le (k := 2) (by omega)
  rw [len_connect_password hne, hpassword, hbuf]
  omega

end Packet

end Umqtt
