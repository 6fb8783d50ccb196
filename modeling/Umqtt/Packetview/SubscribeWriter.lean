/-
Umqtt/Packetview/SubscribeWriter.lean

The writer that a closure fills the payload of a SUBSCRIBE with
(`SubscribeWriter` in `packetview/subscribe.rs`).

An add that does not fit copies its parts until the first one that does not,
and leaves what it copied in the buffer.  `fate` says from the number of free
bytes alone what becomes of an add: it fits, or it is refused and leaves
nothing, or it spoils the payload.  `plan` follows a whole closure in this way,
and `run_plan` shows that the closure leaves the entries of the filters that
were accepted, unless an add spoils the payload, which then is longer than
these entries.  An add that spoils the payload is the one that is not all or
nothing (`add_allOrNothing`).
-/
import Umqtt.Packetview.OutPublish
import Umqtt.Packetview.Subscribe

namespace Umqtt

open Effects Wire

/-- The methods of `SubscribeWriter`. -/
inductive SubscribeQuery where
  | addStr (topic : String) (qos : QoS)
  | addSeparated (parts : List String) (separator : String) (qos : QoS)

/-- A closure that adds subscriptions. -/
abbrev SubscribeFn := Dialogue SubscribeQuery (fun _ => Unit) WriteError Unit

namespace SubscribeWriter

def addStr (topic : String) (qos : QoS) : Act BorrowedBuf WriteError Unit :=
  let len := (asBytes topic).length
  if len > 65535 then
    Act.fail .payloadTooLong
  else do
    BorrowedBuf.addSlice (toBeBytes (UInt16.ofNat len))
    BorrowedBuf.addSlice (asBytes topic)
    BorrowedBuf.addSlice [qos.toU8]

/-- The loop over the parts, of which `i` are done. -/
def addParts (partsLen : Nat) (separator : String) : List String → (i : Nat) →
    Act BorrowedBuf WriteError Unit
  | [], _ => pure ()
  | part :: parts, i => do
      BorrowedBuf.addSlice (asBytes part)
      (if i ≠ partsLen - 1 then BorrowedBuf.addSlice (asBytes separator) else pure ())
      addParts partsLen separator parts (i + 1)

def addSeparated (parts : List String) (separator : String) (qos : QoS) :
    Act BorrowedBuf WriteError Unit := do
  let startLen ← Act.gets Filled.len
  BorrowedBuf.addSlice [0, 0] -- To be filled in later
  addParts parts.length separator parts 0
  let len := (← Act.gets Filled.len) - startLen - 2
  if len > 65535 then
    Act.fail .payloadTooLong
  else do
    let len := UInt16.ofNat len
    Filled.patch startLen (UInt8.ofNat (len.toNat / 256))
    Filled.patch (startLen + 1) (UInt8.ofNat (len.toNat % 256))
    BorrowedBuf.addSlice [qos.toU8]

def answer : SubscribeQuery → Act BorrowedBuf WriteError Unit
  | .addStr topic qos => addStr topic qos
  | .addSeparated parts separator qos => addSeparated parts separator qos

end SubscribeWriter

/-! ### What becomes of an add -/

/-- The filter that an add is about. -/
def SubscribeQuery.filter : SubscribeQuery → SubscribeFilter
  | addStr topic qos => ⟨topic, qos⟩
  | addSeparated parts separator qos => ⟨separator.intercalate parts, qos⟩

inductive Fate where
  | fits
  | refused (e : WriteError)
  | spoils
  deriving DecidableEq

/-- What becomes of an add when `room` bytes are free. -/
def SubscribeQuery.fate : SubscribeQuery → (room : Nat) → Fate
  | addStr topic _, room =>
      let len := (asBytes topic).length
      if len > 65535 then .refused .payloadTooLong
      else if room < 2 then .refused .notEnoughCapacity
      else if 2 + len + 1 ≤ room then .fits
      else .spoils
  | addSeparated parts separator _, room =>
      let len := (asBytes (separator.intercalate parts)).length
      if room < 2 then .refused .notEnoughCapacity
      else if len ≤ 65535 ∧ 2 + len + 1 ≤ room then .fits
      else .spoils

namespace SubscribeWriter

/-- The filters that a closure adds when `room` bytes are free; `none` if an add
spoils the payload. -/
def plan : SubscribeFn → (room : Nat) → Option (List SubscribeFilter)
  | .done _, _ => some []
  | .ask q next, room =>
      match q.fate room with
      | .fits => (plan (next (.ok ())) (room - q.filter.len)).map (q.filter :: ·)
      | .refused e => plan (next (.error e)) room
      | .spoils => none

/-- The filters of the adds that returned `Ok`. -/
def accepted (asked : List ((_ : SubscribeQuery) × Except WriteError Unit)) :
    List SubscribeFilter :=
  asked.filterMap fun
    | ⟨q, .ok _⟩ => some q.filter
    | ⟨_, .error _⟩ => none

/-! ### Adding parts -/

theorem emits_addParts (separator : String) : ∀ (parts : List String) (i : Nat),
    Emits WriteError.notEnoughCapacity (addParts (i + parts.length) separator parts i)
      (asBytes (separator.intercalate parts)) () := by
  intro parts
  induction parts with
  | nil =>
    intro i
    rw [String.intercalate_nil]
    exact .pure
  | cons part parts ih =>
    intro i
    have hlen : i + (part :: parts).length = i + 1 + parts.length := by
      rw [List.length_cons]
      omega
    rw [hlen, addParts]
    cases parts with
    | nil =>
      -- the last part has no separator behind it
      have hlast : ¬i ≠ i + 1 + ([] : List String).length - 1 := by simp
      rw [if_neg hlast, String.intercalate_singleton]
      exact ((emits_addSlice _).bind (f := fun _ => _) (Emits.pure.bind (f := fun _ => _)
        .pure)).congr (by simp)
    | cons next parts =>
      have hmore : i ≠ i + 1 + (next :: parts).length - 1 := by
        rw [List.length_cons]
        omega
      rw [if_pos hmore, String.intercalate_cons_cons, asBytes_append, asBytes_append,
        List.append_assoc]
      exact (emits_addSlice _).bind ((emits_addSlice _).bind (ih (i + 1)))

/-- What is in the buffer only grows. -/
def Grows (b b' : BorrowedBuf) : Prop := b.len ≤ b'.len ∧ b'.capacity = b.capacity

theorem Grows.refl (b : BorrowedBuf) : Grows b b := ⟨Nat.le_refl _, rfl⟩

theorem Grows.trans (b c d : BorrowedBuf) (h : Grows b c) (h' : Grows c d) : Grows b d :=
  ⟨h.1.trans h'.1, h'.2.trans h.2⟩

theorem grows_extend (b : BorrowedBuf) (bs : List UInt8) : Grows b (b.extend bs) := by
  refine ⟨?_, Filled.capacity_extend _ _⟩
  by_cases h : bs.length ≤ b.room
  · rw [Filled.len_extend h]
    exact Nat.le_add_right _ _
  · rw [Filled.extend, dif_neg h]

theorem leads_addSlice (bs : List UInt8) : Act.Leads Grows (BorrowedBuf.addSlice bs) := by
  intro b
  unfold BorrowedBuf.addSlice
  split
  · exact grows_extend b bs
  · exact .refl b

theorem leads_addParts (partsLen : Nat) (separator : String) : ∀ (parts : List String) (i : Nat),
    Act.Leads Grows (addParts partsLen separator parts i) := by
  intro parts
  induction parts with
  | nil => exact fun _ => .pure Grows.refl ()
  | cons part parts ih =>
    intro i
    have hsep : Act.Leads Grows (if i ≠ partsLen - 1 then BorrowedBuf.addSlice (asBytes separator)
        else pure () : Act BorrowedBuf WriteError Unit) :=
      .ite (leads_addSlice _) (.pure Grows.refl ())
    exact (leads_addSlice _).bind Grows.trans fun _ => hsep.bind Grows.trans fun _ => ih (i + 1)

theorem leads_patch (i : Nat) (b : UInt8) :
    Act.Leads Grows (Filled.patch i b : Act BorrowedBuf WriteError Unit) := by
  intro w
  unfold Filled.patch
  split
  · exact ⟨Nat.le_refl _, List.length_set⟩
  · exact .refl w

/-! ### The adds do what their fate says -/

/-- An add that has written its first two bytes and fails then leaves them. -/
theorem spoils_of_err {y : Act BorrowedBuf WriteError Unit} {b c : UInt8} {w w' : BorrowedBuf}
    {e : WriteError} (hy : Act.Leads Grows y) (hroom : 2 ≤ w.room)
    (hx : (do BorrowedBuf.addSlice [b, c]; y : Act BorrowedBuf WriteError Unit) w = (.err e, w')) :
    w.len < w'.len ∧ w'.capacity = w.capacity := by
  have hfirst : BorrowedBuf.addSlice [b, c] w = (.ok (), w.extend [b, c]) :=
    BorrowedBuf.addSlice_of_le hroom
  have hlen : (w.extend [b, c]).len = w.len + 2 := @Filled.len_extend _ w [b, c] hroom
  rw [Act.bind_of_ok hfirst] at hx
  obtain ⟨hle, hcap⟩ := hy (w.extend [b, c])
  rw [hx, hlen] at hle
  rw [hx, Filled.capacity_extend] at hcap
  exact ⟨Nat.lt_of_lt_of_le (by omega) hle, hcap⟩

theorem addStr_fate (topic : String) (qos : QoS) (w : BorrowedBuf) :
    match (SubscribeQuery.addStr topic qos).fate w.room with
    | .fits => addStr topic qos w = (.ok (), w.extend (SubscribeFilter.entry ⟨topic, qos⟩))
    | .refused e => addStr topic qos w = (.err e, w)
    | .spoils => ∃ e w', addStr topic qos w = (.err e, w') ∧ w.len < w'.len ∧
        w'.capacity = w.capacity := by
  have hemits : Emits WriteError.notEnoughCapacity
      (do BorrowedBuf.addSlice (toBeBytes (UInt16.ofNat (asBytes topic).length))
          BorrowedBuf.addSlice (asBytes topic)
          BorrowedBuf.addSlice [qos.toU8]) (SubscribeFilter.entry ⟨topic, qos⟩) () :=
    ((emits_addSlice _).bind ((emits_addSlice _).bind (emits_addSlice _))).congr
      (List.append_assoc _ _ _).symm
  have hentry : (SubscribeFilter.entry ⟨topic, qos⟩).length = 2 + (asBytes topic).length + 1 :=
    SubscribeFilter.length_entry _
  simp only [SubscribeQuery.fate, addStr]
  by_cases hlong : (asBytes topic).length > 65535
  · rw [if_pos hlong, if_pos hlong]
    rfl
  · rw [if_neg hlong, if_neg hlong]
    by_cases h2 : w.room < 2
    · rw [if_pos h2]
      exact Act.bind_of_err (BorrowedBuf.addSlice_of_lt h2)
    · rw [if_neg h2]
      by_cases hfit : 2 + (asBytes topic).length + 1 ≤ w.room
      · rw [if_pos hfit]
        exact (hemits w).1 (by rw [hentry]; exact hfit)
      · rw [if_neg hfit]
        obtain ⟨w', hw', -⟩ := (hemits w).2 (by rw [hentry]; omega)
        have hrest := (leads_addSlice (asBytes topic)).bind Grows.trans
          fun _ => leads_addSlice [qos.toU8]
        exact ⟨_, w', hw', spoils_of_err hrest (by omega) hw'⟩

/-- What follows the two reserved bytes of `add_separated`. -/
def addSeparatedTail (startLen : Nat) (parts : List String) (separator : String) (qos : QoS) :
    Act BorrowedBuf WriteError Unit := do
  addParts parts.length separator parts 0
  let len := (← Act.gets Filled.len) - startLen - 2
  if len > 65535 then
    Act.fail .payloadTooLong
  else do
    let len := UInt16.ofNat len
    Filled.patch startLen (UInt8.ofNat (len.toNat / 256))
    Filled.patch (startLen + 1) (UInt8.ofNat (len.toNat % 256))
    BorrowedBuf.addSlice [qos.toU8]

theorem leads_addSeparatedTail (startLen : Nat) (parts : List String) (separator : String)
    (qos : QoS) : Act.Leads Grows (addSeparatedTail startLen parts separator qos) := by
  refine (leads_addParts _ _ _ _).bind Grows.trans fun _ =>
    (Act.Leads.gets Grows.refl _).bind Grows.trans fun len => ?_
  refine .ite (.fail Grows.refl _) ?_
  exact (leads_patch _ _).bind Grows.trans fun _ =>
    (leads_patch _ _).bind Grows.trans fun _ => leads_addSlice _

/-- Once the parts are in, their length is filled in. -/
theorem addSeparatedTail_of_le {parts : List String} {separator : String} {qos : QoS}
    {w : BorrowedBuf} (h : 2 + (asBytes (separator.intercalate parts)).length ≤ w.room) :
    addSeparatedTail w.len parts separator qos (w.extend [0, 0]) =
      if (asBytes (separator.intercalate parts)).length > 65535 then
        (.err .payloadTooLong, w.extend ([0, 0] ++ asBytes (separator.intercalate parts)))
      else BorrowedBuf.addSlice [qos.toU8]
        (w.extend (lenPrefixed (asBytes (separator.intercalate parts)))) := by
  generalize hpath : asBytes (separator.intercalate parts) = path at h
  have h2 : ([0, 0] : List UInt8).length ≤ w.room := by
    show 2 ≤ w.room
    omega
  have hfit : ([0, 0] ++ path).length ≤ w.room := by
    rw [List.length_append]
    exact h
  have hparts : addParts parts.length separator parts 0 (w.extend [0, 0]) =
      (.ok (), w.extend ([0, 0] ++ path)) := by
    have hemits := emits_addParts separator parts 0
    rw [Nat.zero_add, hpath] at hemits
    have hroom : path.length ≤ (w.extend [0, 0]).room := by
      rw [Filled.room_extend h2]
      show path.length ≤ w.room - 2
      omega
    rw [(hemits _).1 hroom, Filled.extend_extend (by rwa [← List.length_append])]
  have hlen : (w.extend ([0, 0] ++ path)).len - w.len - 2 = path.length := by
    rw [Filled.len_extend hfit, List.length_append]
    simp only [List.length_cons, List.length_nil]
    omega
  rw [addSeparatedTail, Act.bind_of_ok hparts, Act.bind_apply, Act.gets_apply]
  simp only [hlen]
  split
  · rfl
  · have hcap : w.len + 2 ≤ (w.extend ([0, 0] ++ path)).capacity := by
      have := Filled.len_add_le hfit
      rw [List.length_append] at this
      rw [Filled.capacity_extend, Filled.capacity]
      simp only [List.length_cons] at this
      omega
    have hpatch := @Filled.patch_patch _ (w.extend ([0, 0] ++ path)) WriteError w.len
      (UInt8.ofNat ((UInt16.ofNat path.length).toNat / 256))
      (UInt8.ofNat ((UInt16.ofNat path.length).toNat % 256)) hcap
    have hslice := @Filled.patchSlice_extend _ w [0, 0] (toBeBytes (UInt16.ofNat path.length))
      WriteError path rfl hfit
    rw [← Act.bind_assoc, Act.bind_of_ok (hpatch.trans hslice)]
    rfl

theorem addSeparated_fate (parts : List String) (separator : String) (qos : QoS)
    (w : BorrowedBuf) :
    match (SubscribeQuery.addSeparated parts separator qos).fate w.room with
    | .fits => addSeparated parts separator qos w =
        (.ok (), w.extend (SubscribeFilter.entry ⟨separator.intercalate parts, qos⟩))
    | .refused e => addSeparated parts separator qos w = (.err e, w)
    | .spoils => ∃ e w', addSeparated parts separator qos w = (.err e, w') ∧ w.len < w'.len ∧
        w'.capacity = w.capacity := by
  have hstart : addSeparated parts separator qos w =
      (do BorrowedBuf.addSlice [0, 0]
          addSeparatedTail w.len parts separator qos : Act BorrowedBuf WriteError Unit) w := rfl
  have hspoils : ∀ e w', 2 ≤ w.room → addSeparated parts separator qos w = (.err e, w') →
      ∃ e w', addSeparated parts separator qos w = (.err e, w') ∧ w.len < w'.len ∧
        w'.capacity = w.capacity := fun e w' h2 hw' =>
    ⟨e, w', hw', spoils_of_err (leads_addSeparatedTail _ _ _ _) h2 (hstart.symm.trans hw')⟩
  simp only [SubscribeQuery.fate]
  by_cases h2 : w.room < 2
  · rw [if_pos h2]
    show addSeparated parts separator qos w = _
    exact hstart.trans (Act.bind_of_err (BorrowedBuf.addSlice_of_lt h2))
  · rw [if_neg h2]
    have hroom : ([0, 0] : List UInt8).length ≤ w.room := by
      show 2 ≤ w.room
      omega
    rw [Act.bind_of_ok (BorrowedBuf.addSlice_of_le hroom)] at hstart
    -- the path may fit and be too long for its length, or leave no room for the QoS
    by_cases hpath : 2 + (asBytes (separator.intercalate parts)).length ≤ w.room
    · rw [addSeparatedTail_of_le hpath] at hstart
      by_cases hlong : (asBytes (separator.intercalate parts)).length > 65535
      · rw [if_pos hlong] at hstart
        rw [if_neg (by omega)]
        exact hspoils _ _ (by omega) hstart
      · rw [if_neg hlong] at hstart
        have hlen := length_lenPrefixed (asBytes (separator.intercalate parts))
        have hfit : (lenPrefixed (asBytes (separator.intercalate parts))).length ≤ w.room := by
          omega
        by_cases hall : 2 + (asBytes (separator.intercalate parts)).length + 1 ≤ w.room
        · have hlast : [qos.toU8].length ≤
              (w.extend (lenPrefixed (asBytes (separator.intercalate parts)))).room := by
            rw [Filled.room_extend hfit, hlen, List.length_singleton]
            omega
          rw [if_pos ⟨by omega, hall⟩]
          show addSeparated parts separator qos w = _
          rw [hstart, BorrowedBuf.addSlice_of_le hlast, Filled.extend_extend (by
            rw [hlen, List.length_singleton]
            exact hall)]
          rfl
        · rw [if_neg fun h => hall h.2]
          refine hspoils _ _ (by omega) (hstart.trans (BorrowedBuf.addSlice_of_lt ?_))
          rw [Filled.room_extend hfit, hlen, List.length_singleton]
          omega
    · have hemits := emits_addParts separator parts 0
      rw [Nat.zero_add] at hemits
      obtain ⟨w', hw', -⟩ := (hemits (w.extend [0, 0])).2 (by
        rw [Filled.room_extend hroom]
        simp only [List.length_cons, List.length_nil]
        omega)
      rw [if_neg (by omega)]
      exact hspoils _ w' (by omega) (hstart.trans (Act.bind_of_err hw'))

/-- An add does what its fate says. -/
theorem answer_fate (q : SubscribeQuery) (w : BorrowedBuf) :
    match q.fate w.room with
    | .fits => answer q w = (.ok (), w.extend q.filter.entry)
    | .refused e => answer q w = (.err e, w)
    | .spoils => ∃ e w', answer q w = (.err e, w') ∧ w.len < w'.len ∧
        w'.capacity = w.capacity := by
  cases q with
  | addStr topic qos => exact addStr_fate topic qos w
  | addSeparated parts separator qos => exact addSeparated_fate parts separator qos w

/-- An add fits iff its path is short and there is room for its entry. -/
theorem fate_eq_fits {q : SubscribeQuery} {room : Nat} :
    q.fate room = .fits ↔ q.filter.Short ∧ q.filter.entry.length ≤ room := by
  rw [SubscribeFilter.length_entry]
  cases q with
  | addStr topic qos =>
    simp only [SubscribeQuery.fate, SubscribeQuery.filter, SubscribeFilter.Short,
      SubscribeFilter.len]
    split
    · exact iff_of_false (by rintro ⟨⟩) fun h => absurd h.1 (Nat.not_le.mpr ‹_›)
    · split
      · exact iff_of_false (by rintro ⟨⟩) fun h => by omega
      · split
        · exact iff_of_true rfl ⟨Nat.le_of_not_lt ‹_›, ‹_›⟩
        · exact iff_of_false (by rintro ⟨⟩) fun h => absurd h.2 ‹_›
  | addSeparated parts separator qos =>
    simp only [SubscribeQuery.fate, SubscribeQuery.filter, SubscribeFilter.Short,
      SubscribeFilter.len]
    split
    · exact iff_of_false (by rintro ⟨⟩) fun h => by omega
    · split
      · exact iff_of_true rfl ‹_›
      · exact iff_of_false (by rintro ⟨⟩) ‹_›

/-- An add returns `Ok` iff it fits, and then appends the entry of its filter. -/
theorem answer_eq_ok {q : SubscribeQuery} {w w' : BorrowedBuf} :
    answer q w = (.ok (), w') ↔ q.fate w.room = .fits ∧ w' = w.extend q.filter.entry := by
  have hanswer := answer_fate q w
  cases hfate : q.fate w.room with
  | fits =>
    rw [hfate] at hanswer
    rw [hanswer]
    exact ⟨fun h => ⟨rfl, (Prod.mk.inj h).2.symm⟩, fun h => by rw [h.2]⟩
  | refused e =>
    rw [hfate] at hanswer
    rw [hanswer]
    exact ⟨nofun, nofun⟩
  | spoils =>
    rw [hfate] at hanswer
    obtain ⟨e, t, ht, -⟩ := hanswer
    rw [ht]
    exact ⟨nofun, nofun⟩

/-- The parts of a path may be joined first. -/
theorem addSeparated_eq_ok {parts : List String} {separator : String} {qos : QoS}
    {w w' : BorrowedBuf} :
    addSeparated parts separator qos w = (.ok (), w') ↔
      addStr (separator.intercalate parts) qos w = (.ok (), w') := by
  have hseparated := @answer_eq_ok (.addSeparated parts separator qos) w w'
  have hstr := @answer_eq_ok (.addStr (separator.intercalate parts) qos) w w'
  rw [fate_eq_fits] at hseparated hstr
  exact hseparated.trans hstr.symm

/-! ### A whole closure -/

/-- A closure that spoils nothing leaves the entries of the filters it adds. -/
theorem run_plan (d : SubscribeFn) : ∀ {w : BorrowedBuf} {filters : List SubscribeFilter},
    plan d w.room = some filters →
    accepted (d.asked answer w) = filters ∧ (∀ f ∈ filters, f.Short) ∧
      (filters.flatMap SubscribeFilter.entry).length ≤ w.room ∧
      (d.run answer w).2 = w.extend (filters.flatMap SubscribeFilter.entry) := by
  induction d with
  | done r =>
    intro w filters h
    obtain rfl : [] = filters := by simpa [plan] using h
    cases r <;> exact ⟨rfl, by simp, Nat.zero_le _, (Filled.extend_nil w).symm⟩
  | ask q next ih =>
    intro w filters h
    have hanswer := answer_fate q w
    rw [plan] at h
    cases hfate : q.fate w.room with
    | fits =>
      obtain ⟨hshort, hle⟩ := fate_eq_fits.mp hfate
      rw [hfate] at hanswer h
      have hroom : (w.extend q.filter.entry).room = w.room - q.filter.len := by
        rw [Filled.room_extend hle, SubscribeFilter.length_entry]
      simp only [← hroom, Option.map_eq_some_iff] at h
      obtain ⟨fs, hfs, rfl⟩ := h
      obtain ⟨hacc, hall, hlen, hrun⟩ := ih (.ok ()) hfs
      rw [Filled.room_extend hle] at hlen
      simp only [Dialogue.asked, Dialogue.run, hanswer]
      refine ⟨congrArg (q.filter :: ·) hacc, List.forall_mem_cons.mpr ⟨hshort, hall⟩, ?_, ?_⟩
      · rw [List.flatMap_cons, List.length_append]
        omega
      · rw [hrun, List.flatMap_cons, Filled.extend_extend (by omega)]
    | refused e =>
      rw [hfate] at hanswer h
      obtain ⟨hacc, hall, hlen, hrun⟩ := ih (.error e) h
      simp only [Dialogue.asked, Dialogue.run, hanswer]
      exact ⟨hacc, hall, hlen, hrun⟩
    | spoils => rw [hfate] at h; cases h

/-- A closure of which no add fails spoils nothing. -/
theorem plan_of_ok (d : SubscribeFn) : ∀ {w : BorrowedBuf},
    (∀ x ∈ d.asked answer w, x.2.isOk) →
    plan d w.room = some (accepted (d.asked answer w)) := by
  induction d with
  | done r => exact fun _ => rfl
  | ask q next ih =>
    intro w h
    rcases hq : answer q w with ⟨⟨⟩ | e | _, w'⟩
    · obtain ⟨hfate, rfl⟩ := answer_eq_ok.mp hq
      obtain ⟨-, hle⟩ := fate_eq_fits.mp hfate
      have hroom : (w.extend q.filter.entry).room = w.room - q.filter.len := by
        rw [Filled.room_extend hle, SubscribeFilter.length_entry]
      simp only [Dialogue.asked, hq] at h ⊢
      have hnext := ih (.ok ()) (List.forall_mem_cons.mp h).2
      rw [hroom] at hnext
      rw [plan, hfate]
      simp only [hnext, Option.map_some]
      rfl
    · simp only [Dialogue.asked, hq] at h
      exact absurd (List.forall_mem_cons.mp h).1 Bool.false_ne_true
    · have hanswer := answer_fate q w
      rw [hq] at hanswer
      cases hfate : q.fate w.room <;> rw [hfate] at hanswer
      · cases hanswer
      · cases hanswer
      · obtain ⟨e, t, ht, -⟩ := hanswer
        cases ht

/-- Every closure leaves at least the entries of the filters that were
accepted, and does not panic. -/
theorem run_grows (d : SubscribeFn) (w : BorrowedBuf) :
    w.len + ((accepted (d.asked answer w)).flatMap SubscribeFilter.entry).length ≤
        (d.run answer w).2.len ∧
      (d.run answer w).2.capacity = w.capacity ∧ (d.run answer w).1 ≠ .panic := by
  induction d generalizing w with
  | done r =>
    cases r <;> exact ⟨Nat.le_refl _, rfl, nofun⟩
  | ask q next ih =>
    have hanswer := answer_fate q w
    cases hfate : q.fate w.room with
    | fits =>
      obtain ⟨-, hle⟩ := fate_eq_fits.mp hfate
      rw [hfate] at hanswer
      obtain ⟨hlen, hcap, hne⟩ := ih (.ok ()) (w.extend q.filter.entry)
      rw [Filled.len_extend hle, Nat.add_assoc, ← List.length_append, ← List.flatMap_cons] at hlen
      rw [Filled.capacity_extend] at hcap
      simp only [Dialogue.asked, Dialogue.run, hanswer]
      exact ⟨hlen, hcap, hne⟩
    | refused e =>
      rw [hfate] at hanswer
      simp only [Dialogue.asked, Dialogue.run, hanswer]
      exact ih (.error e) w
    | spoils =>
      rw [hfate] at hanswer
      obtain ⟨e, w', hw', hlt, hcap'⟩ := hanswer
      obtain ⟨hlen, hcap, hne⟩ := ih (.error e) w'
      simp only [Dialogue.asked, Dialogue.run, hw']
      exact ⟨Nat.le_trans (Nat.add_le_add_right (Nat.le_of_lt hlt) _) hlen, hcap.trans hcap', hne⟩

/-- A closure that spoils the payload leaves more than the entries of the
filters that were accepted. -/
theorem run_of_plan_none (d : SubscribeFn) : ∀ {w : BorrowedBuf}, plan d w.room = none →
    w.len + ((accepted (d.asked answer w)).flatMap SubscribeFilter.entry).length <
      (d.run answer w).2.len := by
  -- up to the add that spoils the payload it is exact, and from there on it only grows
  induction d with
  | done r => exact fun h => nomatch h
  | ask q next ih =>
    intro w h
    have hanswer := answer_fate q w
    rw [plan] at h
    cases hfate : q.fate w.room with
    | fits =>
      obtain ⟨-, hle⟩ := fate_eq_fits.mp hfate
      rw [hfate] at hanswer h
      have hroom : (w.extend q.filter.entry).room = w.room - q.filter.len := by
        rw [Filled.room_extend hle, SubscribeFilter.length_entry]
      simp only [← hroom, Option.map_eq_none_iff] at h
      have hlen := ih (.ok ()) h
      rw [Filled.len_extend hle, Nat.add_assoc, ← List.length_append, ← List.flatMap_cons] at hlen
      simp only [Dialogue.asked, Dialogue.run, hanswer]
      exact hlen
    | refused e =>
      rw [hfate] at hanswer h
      simp only [Dialogue.asked, Dialogue.run, hanswer]
      exact ih (.error e) h
    | spoils =>
      rw [hfate] at hanswer
      obtain ⟨e, w', hw', hlt, -⟩ := hanswer
      obtain ⟨hlen, -, -⟩ := run_grows (next (.error e)) w'
      simp only [Dialogue.asked, Dialogue.run, hw']
      exact Nat.lt_of_lt_of_le (Nat.add_lt_add_right hlt _) hlen

/-! ### What a failed add leaves -/

/-- If `x` fails, the buffer holds what it held before. -/
def AllOrNothing (x : Act BorrowedBuf WriteError Unit) (w : BorrowedBuf) : Prop :=
  ∀ e w', x w = (.err e, w') → w'.len = w.len ∧ w'.written = w.written

/-- An add that fails leaves nothing behind iff it does not spoil the payload. -/
theorem allOrNothing_answer (q : SubscribeQuery) (w : BorrowedBuf) :
    AllOrNothing (answer q) w ↔ q.fate w.room ≠ .spoils := by
  have hanswer := answer_fate q w
  unfold AllOrNothing
  cases hfate : q.fate w.room with
  | fits =>
    rw [hfate] at hanswer
    refine ⟨fun _ => nofun, fun _ e w' h => ?_⟩
    cases hanswer.symm.trans h
  | refused e =>
    rw [hfate] at hanswer
    refine ⟨fun _ => nofun, fun _ e' w' h => ?_⟩
    cases hanswer.symm.trans h
    exact ⟨rfl, rfl⟩
  | spoils =>
    rw [hfate] at hanswer
    obtain ⟨e, w', hw', hlt, -⟩ := hanswer
    refine ⟨fun h => ?_, fun h => absurd rfl h⟩
    exact absurd (h e w' hw').1 (Nat.ne_of_gt hlt)

/-- A failed `add_str` leaves the buffer as it was iff it fails before its first
append, or does not fail: its length is checked first.  `add_separated` checks
the length when the parts are in, and a failed one leaves the buffer as it was
iff there is no room even for the two bytes in front of them. -/
theorem add_allOrNothing (w : BorrowedBuf) (qos : QoS) :
    (∀ topic : String, AllOrNothing (addStr topic qos) w ↔
      65535 < (asBytes topic).length ∨ w.room < 2 ∨
        2 + (asBytes topic).length + 1 ≤ w.room) ∧
    ∀ (parts : List String) (separator : String),
      AllOrNothing (addSeparated parts separator qos) w ↔
        w.room < 2 ∨ (asBytes (separator.intercalate parts)).length ≤ 65535 ∧
          2 + (asBytes (separator.intercalate parts)).length + 1 ≤ w.room := by
  constructor
  · intro topic
    refine (allOrNothing_answer (.addStr topic qos) w).trans ?_
    simp only [SubscribeQuery.fate]
    generalize (asBytes topic).length = len
    by_cases hlong : len > 65535
    · simp [hlong]
    · by_cases h2 : w.room < 2
      · simp [hlong, h2]
      · by_cases hfit : 2 + len + 1 ≤ w.room
        · simp [hlong, h2, hfit]
        · simp [hlong, h2, hfit]
  · intro parts separator
    refine (allOrNothing_answer (.addSeparated parts separator qos) w).trans ?_
    simp only [SubscribeQuery.fate]
    generalize (asBytes (separator.intercalate parts)).length = len
    by_cases h2 : w.room < 2
    · simp [h2]
    · by_cases hfit : len ≤ 65535 ∧ 2 + len + 1 ≤ w.room
      · simp [h2, hfit]
      · simp [h2]

/-- With four free bytes, the length of a path of three bytes stays behind. -/
theorem add_allOrNothing_four :
    ¬AllOrNothing (addStr "abc" .atMostOnce) (Filled.empty [0, 0, 0, 0]) ∧
      (addStr "abc" .atMostOnce (Filled.empty [0, 0, 0, 0])).2.written = [0, 3] := by
  constructor
  · intro h
    cases (h .notEnoughCapacity _ rfl).1
  · rfl

end SubscribeWriter

end Umqtt
