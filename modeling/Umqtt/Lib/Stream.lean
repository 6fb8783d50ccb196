/-
Umqtt/Lib/Stream.lean

Reading items off a stream that arrives in pieces.

`Reads read data items rest` says that a decoder, called again and again, takes
`items` off `data`, each with the bytes it took, and leaves `rest`.  For a
decoder that is decided by the bytes it takes, more bytes behind the data only
lengthen the rest (`Reads.append`).

A consumer also has a state, and may stop for good.  `Drains` is what it makes
of a buffer, `Feeds` what it makes of a stream that arrives in chunks, each
appended to what the last one left.  If its verdicts are decided by a prefix, a
stream in chunks comes to what the same stream comes to in one piece
(`Feeds.drains`), so that the cut does not matter (`Feeds.unique`).  A consumer
that gives up where another one may go on delivers the start of what the other
one does (`Drains.cut`).
-/
import Mathlib.Tactic.Common

namespace Wire

variable {β α S N F : Type}

/-! ### Decoders -/

/-- What the decoder accepts is not empty and decided by the bytes it takes. -/
structure Prefixed (read : List β → Option (α × Nat)) : Prop where
  taken : ∀ {data : List β} {a : α} {n : Nat}, read data = some (a, n) →
    0 < n ∧ n ≤ data.length
  append : ∀ {data : List β} {a : α} {n : Nat} (s : List β), read data = some (a, n) →
    read (data ++ s) = some (a, n)

/-- The decoder takes `items` off `data`, one after the other, and leaves
`rest`. -/
inductive Reads (read : List β → Option (α × Nat)) :
    List β → List (List β × α) → List β → Prop where
  | nil (data : List β) : Reads read data [] data
  | cons {data rest : List β} {a : α} {n : Nat} {items : List (List β × α)} :
      read data = some (a, n) → Reads read (data.drop n) items rest →
      Reads read data ((data.take n, a) :: items) rest

section Reads

variable {read : List β → Option (α × Nat)} {data rest : List β} {items : List (List β × α)}
  {a : α} {n : Nat}

theorem Reads.append (h : Prefixed read) (hr : Reads read data items rest) (s : List β) :
    Reads read (data ++ s) items (rest ++ s) := by
  induction hr with
  | nil data => exact .nil _
  | @cons data rest a n items hread _ ih =>
    obtain ⟨-, hn⟩ := h.taken hread
    have hcons := Reads.cons (h.append s hread)
      (by rw [List.drop_append_of_le_length hn]; exact ih)
    rwa [List.take_append_of_le_length hn] at hcons

/-- One more item off the rest. -/
theorem Reads.snoc (hr : Reads read data items rest) (hread : read rest = some (a, n)) :
    Reads read data (items ++ [(rest.take n, a)]) (rest.drop n) := by
  induction hr with
  | nil data => exact .cons hread (.nil _)
  | cons hfirst _ ih => exact .cons hfirst (ih hread)

/-- More items off the rest. -/
theorem Reads.trans {items' : List (List β × α)} {rest' : List β}
    (hr : Reads read data items rest) (hr' : Reads read rest items' rest') :
    Reads read data (items ++ items') rest' := by
  induction hr with
  | nil => exact hr'
  | cons hread _ ih => exact .cons hread (ih hr')

/-- The data is what the items took, and the rest. -/
theorem Reads.eq_append (hr : Reads read data items rest) :
    data = (items.map Prod.fst).flatten ++ rest := by
  induction hr with
  | nil data => rfl
  | @cons data rest a n items _ _ ih =>
    rw [List.map_cons, List.flatten_cons, List.append_assoc, ← ih, List.take_append_drop]

/-- A decoder that accepts more reads what one that accepts less does. -/
theorem Reads.mono {read' : List β → Option (α × Nat)}
    (hle : ∀ {data : List β} {x : α × Nat}, read data = some x → read' data = some x)
    (hr : Reads read data items rest) : Reads read' data items rest := by
  induction hr with
  | nil data => exact .nil data
  | cons hread _ ih => exact .cons (hle hread) ih

/-- Of two readings of one stream, each as far as it has arrived, the shorter is
the start of the longer. -/
theorem Reads.comparable (h : Prefixed read) {items' : List (List β × α)} {s rest' : List β}
    (hr : Reads read data items rest) :
    Reads read (data ++ s) items' rest' → items <+: items' ∨ items' <+: items := by
  induction hr generalizing items' with
  | nil data => exact fun _ => .inl (List.nil_prefix)
  | @cons data rest a n items hread _ ih =>
    intro hr'
    obtain ⟨-, hn⟩ := h.taken hread
    cases hr' with
    | nil => exact .inr (List.nil_prefix)
    | cons hread' hr' =>
      cases (h.append s hread).symm.trans hread'
      rw [List.drop_append_of_le_length hn] at hr'
      rw [List.take_append_of_le_length hn]
      rcases ih hr' with hpre | hpre
      · exact .inl ((List.prefix_cons_inj _).mpr hpre)
      · exact .inr ((List.prefix_cons_inj _).mpr hpre)

/-- What is read behind some items is read off the rest of them. -/
theorem Reads.behind {items' : List (List β × α)} {rest' : List β}
    (hr : Reads read data items rest) :
    Reads read data (items ++ items') rest' → Reads read rest items' rest' := by
  induction hr with
  | nil data => exact id
  | @cons data _ a n items hread _ ih =>
    intro hr'
    generalize hall : (data.take n, a) :: items ++ items' = all at hr'
    cases hr' with
    | nil => cases hall
    | cons hread' hr' =>
      cases hread.symm.trans hread'
      cases hall
      exact ih hr'

end Reads

/-! ### Consumers -/

/-- What a consumer says to a buffer: it waits for more, it takes some items off
the front and goes on in a new state, or it stops for good. -/
inductive Verdict (S N F : Type) where
  | wait
  | take (n : Nat) (out : N) (s : S)
  | stop (fin : F) (s : S)

/-- Every verdict but waiting is decided by a prefix, and taking takes
something. -/
structure Incremental (step : S → List β → Verdict S N F) : Prop where
  taken : ∀ {s s' : S} {data : List β} {n : Nat} {out : N},
    step s data = .take n out s' → 0 < n ∧ n ≤ data.length
  take : ∀ {s s' : S} {data : List β} {n : Nat} {out : N} (t : List β),
    step s data = .take n out s' → step s (data ++ t) = .take n out s'
  stop : ∀ {s s' : S} {data : List β} {fin : F} (t : List β),
    step s data = .stop fin s' → step s (data ++ t) = .stop fin s'

/-- From the state `s`, the consumer delivers `outs` from the buffer `data`,
takes `k` of its items and ends in `s'`, waiting (`none`) or stopped. -/
inductive Drains (step : S → List β → Verdict S N F) :
    S → List β → List N → Nat → S → Option F → Prop where
  | wait {s : S} {data : List β} : step s data = .wait → Drains step s data [] 0 s none
  | stop {s s' : S} {data : List β} {fin : F} : step s data = .stop fin s' →
      Drains step s data [] 0 s' (some fin)
  | take {s t s' : S} {data : List β} {n k : Nat} {out : N} {outs : List N} {fin : Option F} :
      step s data = .take n out t → Drains step t (data.drop n) outs k s' fin →
      Drains step s data (out :: outs) (n + k) s' fin

/-- The chunks of a stream are appended to the buffer `data` one by one, and
the buffer drained each time, until the consumer stops. -/
inductive Feeds (step : S → List β → Verdict S N F) :
    S → List β → List (List β) → List N → Nat → S → Option F → Prop where
  | nil {s : S} {data : List β} : Feeds step s data [] [] 0 s none
  | stop {s s' : S} {data chunk : List β} {chunks : List (List β)} {outs : List N} {k : Nat}
      {fin : F} : Drains step s (data ++ chunk) outs k s' (some fin) →
      Feeds step s data (chunk :: chunks) outs k s' (some fin)
  | cons {s t s' : S} {data chunk : List β} {chunks : List (List β)} {outs outs' : List N}
      {k k' : Nat} {fin : Option F} : Drains step s (data ++ chunk) outs k t none →
      Feeds step t ((data ++ chunk).drop k) chunks outs' k' s' fin →
      Feeds step s data (chunk :: chunks) (outs ++ outs') (k + k') s' fin

section Consumers

variable {step : S → List β → Verdict S N F} {s s' t : S} {data : List β} {outs outs' : List N}
  {k k' : Nat} {fin fin' : Option F}

theorem Drains.unique (h : Drains step s data outs k s' fin)
    (h' : Drains step s data outs' k' t fin') :
    outs = outs' ∧ k = k' ∧ s' = t ∧ fin = fin' := by
  induction h generalizing outs' k' with
  | wait hs =>
    cases h' with
    | wait => exact ⟨rfl, rfl, rfl, rfl⟩
    | stop hs' | take hs' => rw [hs] at hs'; cases hs'
  | stop hs =>
    cases h' with
    | stop hs' => rw [hs] at hs'; cases hs'; exact ⟨rfl, rfl, rfl, rfl⟩
    | wait hs' | take hs' => rw [hs] at hs'; cases hs'
  | take hs _ ih =>
    cases h' with
    | take hs' h' =>
      rw [hs] at hs'
      cases hs'
      obtain ⟨rfl, rfl, rfl, rfl⟩ := ih h'
      exact ⟨rfl, rfl, rfl, rfl⟩
    | wait hs' | stop hs' => rw [hs] at hs'; cases hs'

theorem exists_drains (h : Incremental step) (s : S) (data : List β) :
    ∃ outs k s' fin, Drains step s data outs k s' fin := by
  induction hn : data.length using Nat.strongRecOn generalizing s data with
  | ind n ih =>
    rcases hs : step s data with _ | ⟨m, out, t⟩ | ⟨fin, t⟩
    · exact ⟨[], 0, s, none, .wait hs⟩
    · have hlt : (data.drop m).length < n := by
        have := h.taken hs
        rw [List.length_drop]
        omega
      obtain ⟨outs, k, s', fin, hd⟩ := ih _ hlt t (data.drop m) rfl
      exact ⟨out :: outs, m + k, s', fin, .take hs hd⟩
    · exact ⟨[], 0, t, some fin, .stop hs⟩

/-- A consumer that takes, in the state `s`, what a decoder reads: it drains the
items that the decoder finds, and then the rest. -/
theorem Drains.of_reads {read : List β → Option (α × Nat)} {accept : α → Option N}
    (htake : ∀ {data : List β} {a : α} {n : Nat} {out : N}, read data = some (a, n) →
      accept a = some out → step s data = .take n out s)
    {items : List (List β × α)} {rest : List β} (hr : Reads read data items rest) :
    ∀ {outs : List N}, items.map (accept ∘ Prod.snd) = outs.map some →
      Drains step s rest outs' k s' fin → ∃ k', Drains step s data (outs ++ outs') k' s' fin := by
  induction hr with
  | nil data =>
    intro outs houts hd
    obtain rfl := List.map_eq_nil_iff.mp houts.symm
    exact ⟨k, hd⟩
  | cons hread _ ih =>
    intro outs houts hd
    cases outs with
    | nil => cases houts
    | cons out outs =>
      obtain ⟨hout, houts⟩ := List.cons.inj houts
      obtain ⟨k', hd'⟩ := ih houts hd
      exact ⟨_, .take (htake hread hout) hd'⟩

/-- A consumer waits in the state in which it stops draining. -/
theorem Drains.waits (h : Drains step s data outs k s' none) :
    step s' (data.drop k) = .wait := by
  generalize hfin : (none : Option F) = fin at h
  induction h with
  | wait hs => rwa [List.drop_zero]
  | stop hs => cases hfin
  | take hs _ ih => rw [← List.drop_drop]; exact ih hfin

theorem Drains.append_stop {f : F} (hi : Incremental step)
    (h : Drains step s data outs k s' (some f)) (t : List β) :
    Drains step s (data ++ t) outs k s' (some f) := by
  generalize hfin : some f = fin at h
  induction h with
  | wait hs => cases hfin
  | stop hs =>
    cases hfin
    exact .stop (hi.stop t hs)
  | take hs _ ih =>
    have hn := (hi.taken hs).2
    exact .take (hi.take t hs) (by rw [List.drop_append_of_le_length hn]; exact ih hfin)

/-- More data behind a drained buffer is drained from where the consumer
waits. -/
theorem Drains.append_wait (hi : Incremental step) (h : Drains step s data outs k s' none)
    {more : List β} (hmore : Drains step s' (data.drop k ++ more) outs' k' t fin) :
    Drains step s (data ++ more) (outs ++ outs') (k + k') t fin := by
  generalize hfin : (none : Option F) = f at h
  induction h with
  | wait hs =>
    rw [List.drop_zero] at hmore
    rw [List.nil_append, Nat.zero_add]
    exact hmore
  | stop hs => cases hfin
  | take hs _ ih =>
    have hn := (hi.taken hs).2
    rw [← List.drop_drop] at hmore
    rw [Nat.add_assoc]
    exact .take (hi.take more hs) (by
      rw [List.drop_append_of_le_length hn]
      exact ih hmore hfin)

/-- A stream in chunks comes to what it comes to in one piece. -/
theorem Feeds.drains (hi : Incremental step) {chunks : List (List β)}
    (h : Feeds step s data chunks outs k s' fin) (hwait : step s data = .wait) :
    Drains step s (data ++ chunks.flatten) outs k s' fin := by
  induction h with
  | nil =>
    rw [List.flatten_nil, List.append_nil]
    exact .wait hwait
  | stop hd =>
    rw [List.flatten_cons, ← List.append_assoc]
    exact hd.append_stop hi _
  | cons hd _ ih =>
    rw [List.flatten_cons, ← List.append_assoc]
    exact hd.append_wait hi (ih hd.waits)

/-- Two ways to cut a stream come to the same. -/
theorem Feeds.unique (hi : Incremental step) {chunks chunks' : List (List β)}
    (hwait : step s data = .wait) (h : Feeds step s data chunks outs k s' fin)
    (h' : Feeds step s data chunks' outs' k' t fin') (heq : chunks.flatten = chunks'.flatten) :
    outs = outs' ∧ k = k' ∧ s' = t ∧ fin = fin' := by
  have hd := h.drains hi hwait
  rw [heq] at hd
  exact hd.unique (h'.drains hi hwait)

end Consumers

/-! ### A consumer that gives up where another goes on -/

section Cut

variable {S' : Type} {step : S → List β → Verdict S N F} {step' : S' → List β → Verdict S' N F}

/-- The first verdict is the second one, or it is to stop as `E` says. -/
inductive Verdict.Cut (R : S → S' → Prop) (E : F → Prop) : Verdict S N F → Verdict S' N F → Prop
  where
  | wait : Cut R E .wait .wait
  | take {s : S} {s' : S'} (n : Nat) (out : N) : R s s' → Cut R E (.take n out s) (.take n out s')
  | stop {s : S} {s' : S'} (fin : F) : R s s' → Cut R E (.stop fin s) (.stop fin s')
  | cut {s : S} {fin : F} {v : Verdict S' N F} : E fin → Cut R E (.stop fin s) v

/-- A consumer that gives up where another one may go on delivers the start of
what the other one delivers, or the same. -/
theorem Drains.cut {R : S → S' → Prop} {E : F → List β → Prop}
    (hstep : ∀ s s' data, R s s' → Verdict.Cut R (E · data) (step s data) (step' s' data))
    {s t : S} {data : List β} {outs : List N} {k : Nat} {fin : Option F}
    (h : Drains step s data outs k t fin) :
    ∀ {s' t' : S'} {outs' : List N} {k' : Nat} {fin' : Option F}, R s s' →
      Drains step' s' data outs' k' t' fin' →
      outs = outs' ∧ k = k' ∧ R t t' ∧ fin = fin' ∨
        outs <+: outs' ∧ ∃ f, fin = some f ∧ E f (data.drop k) := by
  induction h with
  | @wait s data hs =>
    intro s' t' outs' k' fin' hR h'
    have hcut := hstep s s' data hR
    rw [hs] at hcut
    generalize hs' : step' s' data = v at hcut
    cases hcut with
    | wait =>
      obtain ⟨rfl, rfl, rfl, rfl⟩ := (Drains.wait hs').unique h'
      exact .inl ⟨rfl, rfl, hR, rfl⟩
  | @stop s t data fin hs =>
    intro s' t' outs' k' fin' hR h'
    have hcut := hstep s s' data hR
    rw [hs] at hcut
    generalize hs' : step' s' data = v at hcut
    cases hcut with
    | stop _ ht =>
      obtain ⟨rfl, rfl, rfl, rfl⟩ := (Drains.stop hs').unique h'
      exact .inl ⟨rfl, rfl, ht, rfl⟩
    | cut hE => exact .inr ⟨List.nil_prefix, fin, rfl, hE⟩
  | @take s u t data n k out outs fin hs _ ih =>
    intro s' t' outs' k' fin' hR h'
    have hcut := hstep s s' data hR
    rw [hs] at hcut
    generalize hs' : step' s' data = v at hcut
    cases hcut with
    | take _ _ hu =>
      cases h' with
      | wait hw | stop hw => cases hs'.symm.trans hw
      | take hw h' =>
        cases hs'.symm.trans hw
        rw [← List.drop_drop]
        rcases ih hu h' with ⟨rfl, rfl, ht, rfl⟩ | ⟨hpre, hf⟩
        · exact .inl ⟨rfl, rfl, ht, rfl⟩
        · exact .inr ⟨(List.prefix_cons_inj _).mpr hpre, hf⟩

end Cut

end Wire
