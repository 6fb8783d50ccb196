/-
Umqtt/Reencoding.lean

Writing what was read.

The decoder accepts many frames that no encoder produces: a remaining length with
needless bytes, bytes behind the fields, a login that is announced and empty.  The
packet it returns is readable all the same (`Fields.readable`), and its fields
take no more room than those it was read from (`Fields.exists_len`), so that it
can be written to the room of the frame it came from, and is read back from there
as it was (`write_of_read`).
-/
import Umqtt.Grammar
import Umqtt.RoundTrip

namespace Umqtt

open Effects Wire

/-! ### The fields of a CONNECT -/

namespace Connect

variable {self : Connect} {f bit : UInt8} {bs field fields : List UInt8}
  {will : Option LastWill} {login : Option Login}

theorem Announced.short (h : Announced f bit bs field) : bs.length ≤ 65535 := by
  rcases h with ⟨-, rfl, -⟩ | ⟨-, hshort, -⟩
  · exact Nat.zero_le _
  · exact hshort

/-- A field takes its room only if it is announced. -/
theorem Announced.length_le (h : Announced f bit bs field) :
    (if !bs.isEmpty then 2 + bs.length else 0) ≤ field.length := by
  rcases h with ⟨-, rfl, rfl⟩ | ⟨-, -, rfl⟩
  · exact Nat.le_refl _
  · rw [length_lenPrefixed]
    split <;> omega

theorem WillField.short (h : WillField f will field) : ∀ w ∈ will, w.Short := by
  rcases h with ⟨-, -, rfl, -⟩ | ⟨-, w, -, -, hshort, rfl, -⟩
  · nofun
  · rintro w ⟨⟩
    exact hshort

theorem WillField.length_eq (h : WillField f will field) :
    field.length = (will.elim [] LastWill.fields).length := by
  rcases h with ⟨-, -, rfl, rfl⟩ | ⟨-, w, -, -, -, rfl, rfl⟩ <;> rfl

theorem LoginField.short (h : LoginField f login field) : ∀ l ∈ login, l.Short := by
  obtain ⟨username, password, userField, passField, huser, hpass, rfl, -⟩ := h
  intro l hl
  by_cases hempty : ((asBytes username).isEmpty && password.isEmpty) = true
  · rw [if_pos hempty] at hl
    cases hl
  · rw [if_neg hempty] at hl
    cases hl
    rw [Bool.and_eq_true, isEmpty_asBytes, List.isEmpty_iff] at hempty
    exact ⟨huser.short, hpass.short, hempty⟩

theorem LoginField.length_le (h : LoginField f login field) :
    (login.elim [] Login.fields).length ≤ field.length := by
  obtain ⟨username, password, userField, passField, huser, hpass, rfl, rfl⟩ := h
  split
  · exact Nat.zero_le _
  · rw [Option.elim_some, Login.length_fields, List.length_append]
    exact Nat.add_le_add huser.length_le hpass.length_le

theorem Layout.readable (h : self.Layout f fields) : self.Readable := by
  obtain ⟨hprotocol, -, hclient, willField, loginField, hwill, hlogin, -⟩ := h
  exact ⟨hprotocol, hclient, hwill.short, hlogin.short⟩

theorem Layout.len_le (h : self.Layout f fields) : self.len ≤ fields.length := by
  obtain ⟨-, -, -, willField, loginField, hwill, hlogin, rfl⟩ := h
  have hw := hwill.length_eq
  have hl := hlogin.length_le
  rw [← length_body]
  simp only [body, afterFlags, List.length_append, List.length_cons, List.length_nil,
    length_lenPrefixed, length_toBeBytes]
  omega

end Connect

namespace Packet

variable {p : Packet} {byte1 : UInt8} {fields : List UInt8}

/-! ### What the decoder returns -/

theorem Fields.readable (h : Fields byte1 fields p) : p.Readable := by
  cases p with
  | connect p =>
    obtain ⟨f, hlayout⟩ := h
    exact hlayout.readable
  | publish p => exact h.2.1
  | subscribe p =>
    obtain ⟨filters, hne, hshort, -, hfilters⟩ := h
    refine ⟨filters, ?_, hne, hshort⟩
    rw [hfilters]
    exact congrArg Prod.fst (Subscribe.decodes.drain_flatMap hshort)
  | subAck p =>
    obtain ⟨codes, hne, -, hcodes⟩ := h
    refine ⟨codes, ?_, hne⟩
    rw [hcodes]
    rfl
  | unsubscribe p =>
    obtain ⟨topics, hshort, -, htopics⟩ := h
    refine ⟨topics, ?_, hshort⟩
    rw [htopics]
    exact congrArg Prod.fst (Unsubscribe.decodes.drain_flatMap hshort)
  | _ => trivial

/-- The fields of a packet, as they are written, take no more room than those it
was read from. -/
theorem Fields.exists_len (h : Fields byte1 fields p) :
    ∃ len, p.len = .ok len ∧ len ≤ fields.length := by
  have hreadable := h.readable
  cases p with
  | connect p =>
    obtain ⟨f, hlayout⟩ := h
    exact ⟨p.len, rfl, hlayout.len_le⟩
  | connAck p =>
    obtain ⟨flags, rfl, -⟩ := h
    exact ⟨2, rfl, Nat.le_refl _⟩
  | publish p =>
    obtain ⟨-, hp, rfl⟩ := h
    exact ⟨p.len, rfl, (Publish.length_body fun hq => mt hp.pkid.mp hq).ge⟩
  | pubAck p | pubRec p | pubRel p | pubComp p | unsubAck p =>
    obtain rfl := h
    exact ⟨2, rfl, Nat.le_refl _⟩
  | subscribe p =>
    obtain ⟨filters, -, hshort, rfl, hfilters⟩ := h
    refine ⟨_, @Subscribe.len_eq p filters ?_, Nat.le_refl _⟩
    rw [hfilters]
    exact congrArg Prod.fst (Subscribe.decodes.drain_flatMap hshort)
  | subAck p =>
    obtain ⟨codes, -, rfl, hcodes⟩ := h
    have hholds : SubAck.Holds codes p.returnCodes := by
      rw [hcodes]
      rfl
    exact ⟨p.len, rfl, hholds.len.le⟩
  | unsubscribe p =>
    obtain ⟨topics, hshort, rfl, htopics⟩ := h
    refine ⟨_, @Unsubscribe.len_eq p topics ?_, Nat.le_refl _⟩
    rw [htopics]
    exact congrArg Prod.fst (Unsubscribe.decodes.drain_flatMap hshort)
  | pingReq | pingResp | disconnect => exact ⟨0, rfl, Nat.zero_le _⟩

/-- Of two packets that were both read, the lists agree byte for byte if they
iterate to the same items. -/
theorem Same.eq_of_fields {q : Packet} {byte1' : UInt8} {fields' : List UInt8}
    (hsame : Same p q) (hp : Fields byte1 fields p) (hq : Fields byte1' fields' q) : p = q := by
  cases p with
  | subscribe p =>
    cases q with
    | subscribe q =>
      obtain ⟨hpkid, hiter⟩ := hsame
      obtain ⟨filters, -, hshort, -, hfilters⟩ := hp
      obtain ⟨filters', -, hshort', -, hfilters'⟩ := hq
      obtain ⟨pkid, storage⟩ := p
      obtain ⟨pkid', storage'⟩ := q
      obtain rfl : pkid = pkid' := hpkid
      obtain rfl : storage = _ := hfilters
      obtain rfl : storage' = _ := hfilters'
      rw [Subscribe.decodes.eq_of_drainAll hshort hshort' hiter]
    | _ => exact hsame
  | subAck p =>
    cases q with
    | subAck q =>
      obtain ⟨hpkid, hiter⟩ := hsame
      obtain ⟨codes, -, -, hcodes⟩ := hp
      obtain ⟨codes', -, -, hcodes'⟩ := hq
      obtain ⟨pkid, storage⟩ := p
      obtain ⟨pkid', storage'⟩ := q
      obtain rfl : pkid = pkid' := hpkid
      obtain rfl : storage = _ := hcodes
      obtain rfl : storage' = _ := hcodes'
      rw [@SubAck.Holds.iter codes (.wireBytes _) rfl,
        @SubAck.Holds.iter codes' (.wireBytes _) rfl] at hiter
      rw [Outcome.ok.inj hiter]
    | _ => exact hsame
  | unsubscribe p =>
    cases q with
    | unsubscribe q =>
      obtain ⟨hpkid, hiter⟩ := hsame
      obtain ⟨topics, hshort, -, htopics⟩ := hp
      obtain ⟨topics', hshort', -, htopics'⟩ := hq
      obtain ⟨pkid, storage⟩ := p
      obtain ⟨pkid', storage'⟩ := q
      obtain rfl : pkid = pkid' := hpkid
      obtain rfl : storage = _ := htopics
      obtain rfl : storage' = _ := htopics'
      rw [Unsubscribe.decodes.eq_of_drainAll hshort hshort' hiter]
    | _ => exact hsame
  | _ => exact hsame

/-! ### Writing it again -/

/-- What was read can be written to the room of the frame it came from, and is
read back from there. -/
theorem write_of_read {data : List UInt8} {max n : Nat} (h : read data max = .ok (p, n))
    {buf : List UInt8} (hbuf : buf.length = n) :
    ∃ m, m ≤ n ∧ (p.write buf).1 = .ok m ∧
      read ((p.write buf).2.take m) max = .ok (p, m) := by
  obtain ⟨b, lenBytes, fields, ignored, rest, hframe, -, hmax, rfl⟩ := read_eq_ok_iff.mp h
  obtain ⟨len, hlen, hle⟩ := hframe.fields.exists_len
  have hlength := hframe.length
  rw [List.length_append] at hlength hmax
  have hlimit : len ≤ 268435455 := by
    have hw : FixedHeader.OnWire ⟨b, lenBytes.length + 1, value128 lenBytes⟩ lenBytes :=
      ⟨hframe.terminated, hframe.short, rfl, rfl⟩
    have hvalue : value128 lenBytes ≤ 268435455 := hw.remainingLen_le
    omega
  obtain ⟨byte1', body, q, hf⟩ := exists_framed hframe.fields.readable hlen hlimit
  obtain rfl : body.length = len := Outcome.ok.inj (hf.len.symm.trans hlen)
  -- the packet that the encoded frame is read as is the same, byte for byte
  have hread := fun s => @read_frame byte1' body s max q hlimit (by omega) hf.read
  obtain rfl : p = q := by
    obtain ⟨_, _, fields', _, _, hframe', -⟩ := read_eq_ok_iff.mp (hread [])
    exact hf.same.eq_of_fields hframe.fields hframe'.fields
  have hbase := length_base128_le_of_terminated (n := body.length) hframe.terminated (by omega)
  have hm : (frame byte1' body).length ≤ buf.length := by
    rw [hbuf]
    simp only [frame, List.length_cons, List.length_append]
    omega
  have hwrite := (hf.writes buf).1 hm
  refine ⟨(frame byte1' body).length, hbuf ▸ hm, by rw [hwrite], ?_⟩
  have htake := (hf.writes.of_ok (by rw [hwrite])).2.2
  have hpacket := hread []
  rw [List.append_nil] at hpacket
  rw [htake, hpacket]

/-- A CONNECT with an announced and empty login, a remaining length of two bytes
and a byte behind its fields. -/
theorem write_of_read_connect :
    let p := connect ⟨.v4, 10, "a", true, none, none⟩
    ∃ m, m ≤ 21 ∧ (p.write (List.replicate 21 0)).1 = .ok m ∧
      read ((p.write (List.replicate 21 0)).2.take m) 18 = .ok (p, m) :=
  @write_of_read (connect ⟨.v4, 10, "a", true, none, none⟩)
    [0x10, 0x92, 0, 0, 4, 0x4D, 0x51, 0x54, 0x54, 4, 0xC2, 0, 10, 0, 1, 0x61, 0, 0, 0, 0, 7] 18 21
    (by decide +kernel) (List.replicate 21 0) rfl

end Packet

end Umqtt
