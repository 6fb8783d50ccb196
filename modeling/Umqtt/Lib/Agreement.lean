/-
Umqtt/Lib/Agreement.lean

Two runs side by side.

`Agrees R x y` says that `x` and `y`, from states that `R` relates, come to the
same outcome and leave related states.  It holds of a computation if it holds of
its parts, of a loop if it holds of its body, and of user code if it holds of
the methods that the user is handed (`Agrees.run`).

A buffer that is used again still holds what was written to it before.  Two
`Filled` buffers are `Alike` if they have the same size and the same written
part, whatever is behind it.  The primitives of a writer do not tell such
buffers apart, back-patching included, so that an encoder built from them is
`Blind`: what it returns, and the bytes that it counts as written, depend on the
size of its buffer alone.
-/
import Umqtt.Lib.Wire

namespace Effects

/-! ### Two runs of a computation -/

namespace Act

variable {σ τ σ' τ' ε ε' α β : Type}

/-- From related states, `x` and `y` come to the same outcome, and leave related
states. -/
def Agrees (R : σ → τ → Prop) (x : Act σ ε α) (y : Act τ ε α) : Prop :=
  ∀ s t, R s t → (x s).1 = (y t).1 ∧ R (x s).2 (y t).2

section Agrees

variable {R : σ → τ → Prop}

theorem Agrees.refl (x : Act σ ε α) : Agrees Eq x x := by
  rintro s _ rfl
  exact ⟨rfl, rfl⟩

theorem Agrees.pure (a : α) :
    Agrees R (Pure.pure a : Act σ ε α) (Pure.pure a) := fun _ _ h => ⟨rfl, h⟩

theorem Agrees.fail (e : ε) : Agrees R (fail e : Act σ ε α) (fail e) := fun _ _ h => ⟨rfl, h⟩

theorem Agrees.panic : Agrees R (panic : Act σ ε α) panic := fun _ _ h => ⟨rfl, h⟩

theorem Agrees.lift (x : Outcome ε α) : Agrees R (lift x) (lift x) := fun _ _ h => ⟨rfl, h⟩

theorem Agrees.gets {f : σ → α} {g : τ → α} (h : ∀ s t, R s t → f s = g t) :
    Agrees R (gets f : Act σ ε α) (gets g) := fun s t hst => ⟨congrArg _ (h s t hst), hst⟩

theorem Agrees.mapErr {x : Act σ ε α} {y : Act τ ε α} (g : ε → ε') (h : Agrees R x y) :
    Agrees R (x.mapErr g) (y.mapErr g) := by
  intro s t hst
  obtain ⟨hout, hst'⟩ := h s t hst
  rw [mapErr_apply, mapErr_apply, hout]
  exact ⟨rfl, hst'⟩

/-- What follows two parts that came to the same. -/
theorem Agrees.behind {x : Act σ ε α} {y : Act τ ε α} {f : α → Act σ ε β} {g : α → Act τ ε β}
    {s : σ} {t : τ} (h : (x s).1 = (y t).1 ∧ R (x s).2 (y t).2)
    (hf : ∀ a, Agrees R (f a) (g a)) :
    ((x >>= f) s).1 = ((y >>= g) t).1 ∧ R ((x >>= f) s).2 ((y >>= g) t).2 := by
  rw [bind_apply, bind_apply]
  rcases hx : x s with ⟨r, s'⟩
  rcases hy : y t with ⟨r', t'⟩
  rw [hx, hy] at h
  obtain ⟨rfl, hst⟩ := h
  cases r with
  | ok a => exact hf a s' t' hst
  | err | panic => exact ⟨rfl, hst⟩

theorem Agrees.bind {x : Act σ ε α} {y : Act τ ε α} {f : α → Act σ ε β} {g : α → Act τ ε β}
    (h : Agrees R x y) (hf : ∀ a, Agrees R (f a) (g a)) : Agrees R (x >>= f) (y >>= g) :=
  fun s t hst => Agrees.behind (h s t hst) hf

theorem Agrees.ite {c : Prop} [Decidable c] {x x' : Act σ ε α} {y y' : Act τ ε α}
    (h : Agrees R x y) (h' : Agrees R x' y') :
    Agrees R (if c then x else x') (if c then y else y') := by
  split
  · exact h
  · exact h'

/-- A computation on a part of the state, of which `T` relates the values. -/
theorem Agrees.zoom {T : σ' → τ' → Prop} {get : σ → σ'} {set : σ' → σ → σ} {get' : τ → τ'}
    {set' : τ' → τ → τ} {x : Act σ' ε α} {y : Act τ' ε α} (h : Agrees T x y)
    (hget : ∀ s t, R s t → T (get s) (get' t))
    (hset : ∀ s t u v, R s t → T u v → R (set u s) (set' v t)) :
    Agrees R (x.zoom get set) (y.zoom get' set') := by
  intro s t hst
  obtain ⟨hout, hpart⟩ := h _ _ (hget s t hst)
  exact ⟨hout, hset s t _ _ hst hpart⟩

theorem Agrees.loop {body : Act σ ε (Option α)} {body' : Act τ ε (Option α)}
    (h : Agrees R body body') (n : Nat) : Agrees R (loop body n) (loop body' n) := by
  induction n with
  | zero => exact .panic
  | succ n ih =>
    refine h.bind fun a => ?_
    cases a with
    | some a => exact .pure a
    | none => exact ih

end Agrees

end Act

/-! ### Two runs of user code -/

namespace Dialogue

variable {Q : Type} {A : Q → Type} {σ τ ε α : Type}

/-- From `s` and `t`, the user asks the same, gets the same answers, comes to
the same outcome, and leaves related states. -/
structure Agrees (R : σ → τ → Prop) (handler : (q : Q) → Act σ ε (A q))
    (handler' : (q : Q) → Act τ ε (A q)) (d : Dialogue Q A ε α) (s : σ) (t : τ) : Prop where
  asked : d.asked handler s = d.asked handler' t
  outcome : (d.run handler s).1 = (d.run handler' t).1
  related : R (d.run handler s).2 (d.run handler' t).2

variable {R : σ → τ → Prop} {handler : (q : Q) → Act σ ε (A q)}
  {handler' : (q : Q) → Act τ ε (A q)}

/-- What follows two answers that came to the same. -/
theorem Agrees.ask {q : Q} {next : Except ε (A q) → Dialogue Q A ε α} {s : σ} {t : τ}
    (hq : (handler q s).1 = (handler' q t).1 ∧ R (handler q s).2 (handler' q t).2)
    (hnext : ∀ r s t, R s t → Agrees R handler handler' (next r) s t) :
    Agrees R handler handler' (.ask q next) s t := by
  rcases hs : handler q s with ⟨r, s'⟩
  rcases ht : handler' q t with ⟨r', t'⟩
  rw [hs, ht] at hq
  obtain ⟨rfl, hst⟩ := hq
  cases r with
  | ok a =>
    obtain ⟨hasked, houtcome, hrelated⟩ := hnext (.ok a) s' t' hst
    constructor
    · simpa only [Dialogue.asked, hs, ht] using congrArg _ hasked
    all_goals simpa only [run, hs, ht]
  | err e =>
    obtain ⟨hasked, houtcome, hrelated⟩ := hnext (.error e) s' t' hst
    constructor
    · simpa only [Dialogue.asked, hs, ht] using congrArg _ hasked
    all_goals simpa only [run, hs, ht]
  | panic => constructor <;> simp only [Dialogue.asked, run, hs, ht, hst]

/-- Users of methods that agree come to the same. -/
theorem agrees (h : ∀ q, Act.Agrees R (handler q) (handler' q)) (d : Dialogue Q A ε α) :
    ∀ s t, R s t → Agrees R handler handler' d s t := by
  induction d with
  | done r => cases r <;> exact fun s t hst => ⟨rfl, rfl, hst⟩
  | ask q next ih => exact fun s t hst => .ask (h q s t hst) ih

theorem agrees_run (h : ∀ q, Act.Agrees R (handler q) (handler' q)) (d : Dialogue Q A ε α) :
    Act.Agrees R (d.run handler) (d.run handler') := fun s t hst =>
  ⟨(d.agrees h s t hst).outcome, (d.agrees h s t hst).related⟩

end Dialogue

end Effects

namespace Wire

open Effects

variable {β ε α : Type}

/-! ### Buffers with the same written part -/

/-- What `overwrite` leaves in the first `n` places depends on what was there. -/
theorem take_overwrite_congr {l l' bs : List β} {i n : Nat} (h : l.take n = l'.take n)
    (hi : i + bs.length ≤ l.length) (hi' : i + bs.length ≤ l'.length) :
    (overwrite l i bs).take n = (overwrite l' i bs).take n := by
  by_cases hn : n ≤ i
  · rw [take_overwrite_of_le hn (by omega), take_overwrite_of_le hn (by omega), h]
  · have hfront : l.take i = l'.take i := by
      have htake := congrArg (List.take i) h
      rwa [List.take_take, List.take_take, Nat.min_eq_left (by omega)] at htake
    have hback : (l.drop (i + bs.length)).take (n - (i + bs.length)) =
        (l'.drop (i + bs.length)).take (n - (i + bs.length)) := by
      rw [← List.drop_take, ← List.drop_take, h]
    have hlen : (l'.take i ++ bs).length = i + bs.length := by
      rw [List.length_append, List.length_take]
      omega
    rw [overwrite, overwrite, hfront, @List.take_append _ (l'.take i ++ bs) _ n,
      @List.take_append _ (l'.take i ++ bs) _ n, hlen, hback]

namespace Filled

/-- The same size and the same written part. -/
structure Alike (w w' : Filled β) : Prop where
  capacity : w.capacity = w'.capacity
  written : w.written = w'.written

variable {w w' : Filled β}

theorem Alike.len (h : w.Alike w') : w.len = w'.len := by
  rw [← length_written w, h.written, length_written]

theorem Alike.room (h : w.Alike w') : w.room = w'.room := by
  rw [Filled.room, Filled.room, h.capacity, h.len]

theorem alike_empty {buf buf' : List β} (h : buf.length = buf'.length) :
    (empty buf).Alike (empty buf') := ⟨h, rfl⟩

theorem Alike.extend (h : w.Alike w') (bs : List β) : (w.extend bs).Alike (w'.extend bs) := by
  refine ⟨by rw [capacity_extend, capacity_extend, h.capacity], ?_⟩
  by_cases hbs : bs.length ≤ w.room
  · rw [written_extend hbs, written_extend (h.room ▸ hbs), h.written]
  · rw [Filled.extend, Filled.extend, dif_neg hbs, dif_neg (h.room ▸ hbs), h.written]

theorem agrees_len : Act.Agrees Alike (Act.gets Filled.len : Act (Filled β) ε Nat)
    (Act.gets Filled.len) := .gets fun _ _ h => h.len

theorem agrees_capacity : Act.Agrees Alike (Act.gets Filled.capacity : Act (Filled β) ε Nat)
    (Act.gets Filled.capacity) := .gets fun _ _ h => h.capacity

theorem agrees_patch (i : Nat) (b : β) :
    Act.Agrees Alike (patch i b : Act (Filled β) ε Unit) (patch i b) := by
  intro w w' h
  by_cases hi : i < w.capacity
  · rw [patch, patch, if_pos hi, if_pos (h.capacity ▸ hi)]
    refine ⟨rfl, ?_, ?_⟩
    · show (w.buffer.set i b).length = (w'.buffer.set i b).length
      rw [List.length_set, List.length_set]
      exact h.capacity
    · show (w.buffer.set i b).take w.len = (w'.buffer.set i b).take w'.len
      rw [List.take_set, List.take_set]
      exact congrArg (List.set · i b) h.written
  · rw [patch, patch, if_neg hi, if_neg (h.capacity ▸ hi)]
    exact ⟨rfl, h⟩

theorem agrees_patchSlice (i : Nat) (bs : List β) :
    Act.Agrees Alike (patchSlice i bs : Act (Filled β) ε Unit) (patchSlice i bs) := by
  intro w w' h
  by_cases hi : i + bs.length ≤ w.capacity
  · have hi' : i + bs.length ≤ w'.capacity := h.capacity ▸ hi
    rw [patchSlice, patchSlice, dif_pos hi, dif_pos hi']
    refine ⟨rfl, ?_, ?_⟩
    · show (overwrite w.buffer i bs).length = (overwrite w'.buffer i bs).length
      rw [length_overwrite hi, length_overwrite hi']
      exact h.capacity
    · show (overwrite w.buffer i bs).take w.len = (overwrite w'.buffer i bs).take w'.len
      have hwritten : w.buffer.take w.len = w'.buffer.take w'.len := h.written
      rw [h.len] at hwritten ⊢
      exact take_overwrite_congr hwritten hi hi'
  · rw [patchSlice, patchSlice, dif_neg hi, dif_neg (h.capacity ▸ hi)]
    exact ⟨rfl, h⟩

end Filled

/-! ### Encoders that do not look at their buffer -/

/-- `x` returns the number of items that are written in the end. -/
def Counts (x : Act (Filled β) ε Nat) : Prop :=
  ∀ w n w', x w = (.ok n, w') → n = w'.len

theorem counts_len : Counts (Act.gets Filled.len : Act (Filled β) ε Nat) := by
  rintro w n w' ⟨⟩
  rfl

theorem Counts.bind {x : Act (Filled β) ε α} {f : α → Act (Filled β) ε Nat}
    (h : ∀ a, Counts (f a)) : Counts (x >>= f) := by
  intro w n w' hw
  obtain ⟨a, t, -, hf⟩ := Act.bind_eq_ok.mp hw
  exact h a t n w' hf

theorem Counts.le {x : Act (Filled β) ε Nat} (h : Counts x) {buf buf' : List β} {n : Nat}
    (hx : onBuffer x buf = (.ok n, buf')) : n ≤ buf'.length := by
  rw [onBuffer, Act.zoom_apply] at hx
  rcases hw : x (Filled.empty buf) with ⟨r, w⟩
  rw [hw] at hx
  obtain ⟨rfl, rfl⟩ := Prod.mk.inj hx
  rw [h _ _ _ hw]
  exact w.le

/-- What `write` returns, and the items that it counts, depend on the size of its
buffer alone. -/
def Blind (write : Act (List β) ε Nat) : Prop :=
  ∀ buf buf', buf.length = buf'.length → (write buf).1 = (write buf').1 ∧
    (write buf).2.length = (write buf').2.length ∧
    ∀ n, (write buf).1 = .ok n → (write buf).2.take n = (write buf').2.take n

theorem blind_onBuffer {x : Act (Filled β) ε Nat} (h : Act.Agrees Filled.Alike x x)
    (hn : Counts x) : Blind (onBuffer x) := by
  intro buf buf' hbuf
  have hx := h _ _ (Filled.alike_empty hbuf)
  rw [onBuffer, Act.zoom_apply, Act.zoom_apply]
  rcases hw : x (Filled.empty buf) with ⟨r, w⟩
  rcases hw' : x (Filled.empty buf') with ⟨r', w'⟩
  rw [hw, hw'] at hx
  obtain ⟨rfl, halike⟩ := hx
  refine ⟨rfl, halike.capacity, ?_⟩
  rintro n rfl
  obtain rfl := hn _ _ _ hw
  have hwritten : w.buffer.take w.len = w'.buffer.take w'.len := halike.written
  rwa [← halike.len] at hwritten

theorem Writes.blind {full : ε} {write : Act (List β) ε Nat} {bs : List β}
    (h : Writes full write bs) : Blind write := by
  intro buf buf' hbuf
  by_cases hle : bs.length ≤ buf.length
  · have hle' : bs.length ≤ buf'.length := hbuf ▸ hle
    have hout : (write buf).1 = (write buf').1 := by
      rw [(h buf).1 hle, (h buf').1 hle']
    refine ⟨hout, ?_, fun n hn => ?_⟩
    · rw [(h buf).1 hle, (h buf').1 hle']
      exact (length_overwrite (by omega)).trans (hbuf.trans (length_overwrite (by omega)).symm)
    · rw [(h.of_ok hn).2.2, (h.of_ok (hout ▸ hn)).2.2]
  · obtain ⟨b, hb, hlen⟩ := (h buf).2 (Nat.lt_of_not_le hle)
    obtain ⟨b', hb', hlen'⟩ := (h buf').2 (hbuf ▸ Nat.lt_of_not_le hle)
    rw [hb, hb']
    exact ⟨rfl, by rw [hlen, hlen', hbuf], nofun⟩

end Wire
