/-
Umqtt/Lib/Simulation.lean

A run that another one follows.

`Follows P R x y` says that `y` does what `x` does, unless `x` fails as `P`
says: from states that `R` relates, they come to the same outcome and leave
related states, or `x` ends with an excused error.  With nothing excused this is
`Agrees`.  It holds of a computation if it holds of its parts, and of user code
that passes every error on (`Passes`) if it holds of the methods that the user
is handed.

`Wider` is the relation of two buffers with the same written part, the second of
which has as much room as the first, or more.  A writer that does not ask for
the capacity does in the second what it does in the first, unless the first is
full.
-/
import Umqtt.Lib.Agreement

namespace Effects

/-- An error that `P` excuses, or a panic if `P` excuses `none`. -/
def Outcome.Excused {ε α : Type} (P : Option ε → Prop) : Outcome ε α → Prop
  | .ok _ => False
  | .err e => P (some e)
  | .panic => P none

/-- Every failure is excused. -/
def anyFailure {ε : Type} : Option ε → Prop := fun _ => True

/-! ### One-sided agreement -/

namespace Act

variable {σ τ σ' τ' ε ε' α β : Type}

/-- From related states, `x` ends with an excused error, or it comes to the same
as `y` and they leave related states. -/
def Follows (P : Option ε → Prop) (R : σ → τ → Prop) (x : Act σ ε α) (y : Act τ ε α) : Prop :=
  ∀ s t, R s t → (x s).1.Excused P ∨ (x s).1 = (y t).1 ∧ R (x s).2 (y t).2

section Follows

variable {P : Option ε → Prop} {R : σ → τ → Prop}

theorem Agrees.follows {x : Act σ ε α} {y : Act τ ε α} (h : Agrees R x y) : Follows P R x y :=
  fun s t hst => .inr (h s t hst)

/-- With nothing excused, they agree. -/
theorem Follows.agrees {x : Act σ ε α} {y : Act τ ε α} (h : Follows (fun _ => False) R x y) :
    Agrees R x y := by
  intro s t hst
  rcases h s t hst with hexcused | hsame
  · cases hr : (x s).1 <;> rw [hr] at hexcused <;> exact hexcused.elim
  · exact hsame

theorem Follows.bind {x : Act σ ε α} {y : Act τ ε α} {f : α → Act σ ε β} {g : α → Act τ ε β}
    (h : Follows P R x y) (hf : ∀ a, Follows P R (f a) (g a)) :
    Follows P R (x >>= f) (y >>= g) := by
  intro s t hst
  rw [bind_apply, bind_apply]
  have hxy := h s t hst
  rcases hx : x s with ⟨r, s'⟩
  rcases hy : y t with ⟨r', t'⟩
  rw [hx, hy] at hxy
  rcases hxy with hexcused | ⟨hr, hst'⟩
  · cases r with
    | ok => exact hexcused.elim
    | err | panic => exact .inl hexcused
  · obtain rfl : r = r' := hr
    cases r with
    | ok a => exact hf a s' t' hst'
    | err | panic => exact .inr ⟨rfl, hst'⟩

theorem Follows.ite {c : Prop} [Decidable c] {x x' : Act σ ε α} {y y' : Act τ ε α}
    (h : Follows P R x y) (h' : Follows P R x' y') :
    Follows P R (if c then x else x') (if c then y else y') := by
  split
  · exact h
  · exact h'

theorem Follows.mapErr {P' : Option ε' → Prop} {x : Act σ ε α} {y : Act τ ε α} {g : ε → ε'}
    (h : Follows P R x y) (herr : ∀ e, P (some e) → P' (some (g e))) (hpanic : P none → P' none) :
    Follows P' R (x.mapErr g) (y.mapErr g) := by
  intro s t hst
  rw [mapErr_apply, mapErr_apply]
  rcases h s t hst with hexcused | ⟨hout, hst'⟩
  · refine .inl ?_
    cases hr : (x s).1 with
    | ok => rw [hr] at hexcused; exact hexcused.elim
    | err e => rw [hr] at hexcused; exact herr e hexcused
    | panic => rw [hr] at hexcused; exact hpanic hexcused
  · rw [hout]
    exact .inr ⟨rfl, hst'⟩

/-- A computation on a part of the state, of which `T` relates the values. -/
theorem Follows.zoom {T : σ' → τ' → Prop} {get : σ → σ'} {set : σ' → σ → σ} {get' : τ → τ'}
    {set' : τ' → τ → τ} {x : Act σ' ε α} {y : Act τ' ε α} (h : Follows P T x y)
    (hget : ∀ s t, R s t → T (get s) (get' t))
    (hset : ∀ s t u v, R s t → T u v → R (set u s) (set' v t)) :
    Follows P R (x.zoom get set) (y.zoom get' set') := by
  intro s t hst
  rcases h _ _ (hget s t hst) with hexcused | ⟨hout, hpart⟩
  · exact .inl hexcused
  · exact .inr ⟨hout, hset s t _ _ hst hpart⟩

theorem Follows.loop {body : Act σ ε (Option α)} {body' : Act τ ε (Option α)}
    (h : Follows P R body body') (n : Nat) : Follows P R (loop body n) (loop body' n) := by
  induction n with
  | zero => exact Agrees.panic.follows
  | succ n ih =>
    refine h.bind fun a => ?_
    cases a with
    | some a => exact (Agrees.pure a).follows
    | none => exact ih

end Follows

end Act

/-! ### User code that passes errors on -/

namespace Dialogue

variable {Q : Type} {A : Q → Type} {σ τ ε α : Type}

/-- All calls are of methods in `C`, and a call that fails is the last: it ends the
dialogue with its error. -/
inductive Passes (C : Q → Prop) : Dialogue Q A ε α → Prop where
  | done (r : Except ε α) : Passes C (done r)
  | ask {q : Q} {next : Except ε (A q) → Dialogue Q A ε α} : C q →
      (∀ a, Passes C (next (.ok a))) → (∀ e, next (.error e) = done (.error e)) →
      Passes C (ask q next)

/-- To ask for all of a list passes the errors on. -/
theorem passes_all {C : Q → Prop} : ∀ {qs : List Q}, (∀ q ∈ qs, C q) →
    (all qs : Dialogue Q A ε Unit).Passes C := by
  intro qs
  induction qs with
  | nil => exact fun _ => .done _
  | cons q qs ih =>
    intro h
    obtain ⟨hq, hqs⟩ := List.forall_mem_cons.mp h
    exact .ask hq (fun _ => ih hqs) fun _ => rfl

variable {P : Option ε → Prop} {R : σ → τ → Prop} {C : Q → Prop}
  {handler : (q : Q) → Act σ ε (A q)} {handler' : (q : Q) → Act τ ε (A q)}

theorem Passes.follows {d : Dialogue Q A ε α} (hd : d.Passes C)
    (h : ∀ q, C q → Act.Follows P R (handler q) (handler' q)) :
    Act.Follows P R (d.run handler) (d.run handler') := by
  induction hd with
  | done r => cases r <;> exact fun s t hst => .inr ⟨rfl, hst⟩
  | @ask q next hq _ herr ih =>
    intro s t hst
    have hasked := h q hq s t hst
    rcases hs : handler q s with ⟨r, s'⟩
    rcases ht : handler' q t with ⟨r', t'⟩
    rw [hs, ht] at hasked
    rcases hasked with hexcused | ⟨hr, hst'⟩
    -- the excused error is that of the dialogue
    · cases r with
      | ok a => exact hexcused.elim
      | err e =>
        refine .inl ?_
        simp only [run, hs, herr]
        exact hexcused
      | panic =>
        refine .inl ?_
        simp only [run, hs]
        exact hexcused
    · obtain rfl : r = r' := hr
      cases r with
      | ok a =>
        simp only [run, hs, ht]
        exact ih a s' t' hst'
      | err e =>
        refine .inr ?_
        simp only [run, hs, ht, herr]
        exact ⟨trivial, hst'⟩
      | panic =>
        refine .inr ?_
        simp only [run, hs, ht]
        exact ⟨trivial, hst'⟩

/-- What follows a method that returned the same in both. -/
theorem Agrees.ask_ok {q : Q} {next : Except ε (A q) → Dialogue Q A ε α} {s s' : σ} {t t' : τ}
    {a : A q} (hs : handler q s = (.ok a, s')) (ht : handler' q t = (.ok a, t'))
    (h : (next (.ok a)).Agrees R handler handler' s' t') :
    (Dialogue.ask q next).Agrees R handler handler' s t := by
  constructor
  · simpa only [Dialogue.asked, hs, ht] using congrArg _ h.asked
  · simpa only [run, hs, ht] using h.outcome
  · simpa only [run, hs, ht] using h.related

/-- What follows a method that failed with the same error in both. -/
theorem Agrees.ask_err {q : Q} {next : Except ε (A q) → Dialogue Q A ε α} {s s' : σ} {t t' : τ}
    {e : ε} (hs : handler q s = (.err e, s')) (ht : handler' q t = (.err e, t'))
    (h : (next (.error e)).Agrees R handler handler' s' t') :
    (Dialogue.ask q next).Agrees R handler handler' s t := by
  constructor
  · simpa only [Dialogue.asked, hs, ht] using congrArg _ h.asked
  · simpa only [run, hs, ht] using h.outcome
  · simpa only [run, hs, ht] using h.related

/-- User code that gets no excused error, and calls methods in `C`, does not
notice which of the two it is run with. -/
theorem follows (h : ∀ q, C q → Act.Follows P R (handler q) (handler' q))
    (d : Dialogue Q A ε α) : ∀ s t, R s t →
    (∀ x ∈ d.asked handler s, C x.1 ∧ ∀ e, x.2 = .error e → ¬P (some e)) →
    (d.run handler s).1 ≠ .panic → d.Agrees R handler handler' s t := by
  induction d with
  | done r => cases r <;> exact fun s t hst _ _ => ⟨rfl, rfl, hst⟩
  | ask q next ih =>
    intro s t hst hasked hrun
    rcases hs : handler q s with ⟨a | e | _, s'⟩ <;>
      simp only [Dialogue.asked, run, hs] at hasked hrun
    · obtain ⟨⟨hq, -⟩, hrest⟩ := List.forall_mem_cons.mp hasked
      have hstep := h q hq s t hst
      rcases ht : handler' q t with ⟨r', t'⟩
      rw [hs, ht] at hstep
      obtain hexcused | ⟨rfl, hst'⟩ := hstep
      · exact hexcused.elim
      · exact .ask_ok hs ht (ih (.ok a) s' t' hst' hrest hrun)
    · obtain ⟨⟨hq, hno⟩, hrest⟩ := List.forall_mem_cons.mp hasked
      have hstep := h q hq s t hst
      rcases ht : handler' q t with ⟨r', t'⟩
      rw [hs, ht] at hstep
      obtain hexcused | ⟨rfl, hst'⟩ := hstep
      · exact absurd hexcused (hno e rfl)
      · exact .ask_err hs ht (ih (.error e) s' t' hst' hrest hrun)
    · exact absurd rfl hrun

end Dialogue

end Effects

namespace Wire

open Effects

variable {β ε : Type}

/-! ### Buffers with more room -/

namespace Filled

/-- The same written part, and as much room or more behind it. -/
structure Wider (w w' : Filled β) : Prop where
  capacity : w.capacity ≤ w'.capacity
  written : w.written = w'.written

variable {w w' : Filled β} {P : Option ε → Prop}

theorem Wider.len (h : w.Wider w') : w.len = w'.len := by
  rw [← length_written w, h.written, length_written]

theorem Wider.room (h : w.Wider w') : w.room ≤ w'.room := by
  rw [Filled.room, Filled.room, h.len]
  exact Nat.sub_le_sub_right h.capacity _

theorem wider_empty {buf buf' : List β} (h : buf.length ≤ buf'.length) :
    (empty buf).Wider (empty buf') := ⟨h, rfl⟩

/-- What fits into the first fits into the second. -/
theorem Wider.extend (h : w.Wider w') {bs : List β} (hbs : bs.length ≤ w.room) :
    (w.extend bs).Wider (w'.extend bs) := by
  refine ⟨by rw [capacity_extend, capacity_extend]; exact h.capacity, ?_⟩
  rw [written_extend hbs, written_extend (Nat.le_trans hbs h.room), h.written]

theorem follows_len : Act.Follows P Wider (Act.gets Filled.len : Act (Filled β) ε Nat)
    (Act.gets Filled.len) := (Act.Agrees.gets fun _ _ h => h.len).follows

/-- A patch behind the end of the first panics. -/
theorem follows_patch (hP : P none) (i : Nat) (b : β) :
    Act.Follows P Wider (patch i b : Act (Filled β) ε Unit) (patch i b) := by
  intro w w' h
  by_cases hi : i < w.capacity
  · rw [patch, patch, if_pos hi, if_pos (Nat.lt_of_lt_of_le hi h.capacity)]
    refine .inr ⟨rfl, ?_, ?_⟩
    · show (w.buffer.set i b).length ≤ (w'.buffer.set i b).length
      rw [List.length_set, List.length_set]
      exact h.capacity
    · show (w.buffer.set i b).take w.len = (w'.buffer.set i b).take w'.len
      rw [List.take_set, List.take_set]
      exact congrArg (List.set · i b) h.written
  · rw [patch, if_neg hi]
    exact .inl hP

theorem follows_patchSlice (hP : P none) (i : Nat) (bs : List β) :
    Act.Follows P Wider (patchSlice i bs : Act (Filled β) ε Unit) (patchSlice i bs) := by
  intro w w' h
  by_cases hi : i + bs.length ≤ w.capacity
  · have hi' : i + bs.length ≤ w'.capacity := Nat.le_trans hi h.capacity
    rw [patchSlice, patchSlice, dif_pos hi, dif_pos hi']
    refine .inr ⟨rfl, ?_, ?_⟩
    · show (overwrite w.buffer i bs).length ≤ (overwrite w'.buffer i bs).length
      rw [length_overwrite hi, length_overwrite hi']
      exact h.capacity
    · show (overwrite w.buffer i bs).take w.len = (overwrite w'.buffer i bs).take w'.len
      have hwritten : w.buffer.take w.len = w'.buffer.take w'.len := h.written
      rw [h.len] at hwritten ⊢
      exact take_overwrite_congr hwritten hi hi'
  · rw [patchSlice, dif_neg hi]
    exact .inl hP

end Filled

end Wire
