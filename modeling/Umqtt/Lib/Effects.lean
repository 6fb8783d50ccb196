/-
Umqtt/Lib/Effects.lean

Computations that can fail or panic, over a mutable state.

`Outcome ε α` is what a piece of code comes to: a value, an error it returns,
or a panic.  `Act σ ε α` runs over a state of type `σ` and ends in an outcome
*and* a state: unlike in `StateT σ (Except ε)`, what was written before an
error is returned stays written, as it does behind a mutable reference.
-/
import Mathlib.Tactic.Common

namespace Effects

/-- What a piece of code comes to. -/
inductive Outcome (ε α : Type) where
  | ok (a : α)
  | err (e : ε)
  | panic
  deriving DecidableEq, Repr

namespace Outcome

variable {ε ε' α β : Type}

protected def bind (x : Outcome ε α) (f : α → Outcome ε β) : Outcome ε β :=
  match x with
  | ok a => f a
  | err e => err e
  | panic => panic

instance : Monad (Outcome ε) where
  pure := ok
  bind := Outcome.bind

@[simp] theorem pure_eq (a : α) : (pure a : Outcome ε α) = ok a := rfl

@[simp] theorem ok_bind (a : α) (f : α → Outcome ε β) : ok a >>= f = f a := rfl

@[simp] theorem err_bind (e : ε) (f : α → Outcome ε β) :
    (err e : Outcome ε α) >>= f = err e := rfl

@[simp] theorem panic_bind (f : α → Outcome ε β) :
    (panic : Outcome ε α) >>= f = panic := rfl

@[simp] theorem bind_eq_ok {x : Outcome ε α} {f : α → Outcome ε β} {b : β} :
    x >>= f = ok b ↔ ∃ a, x = ok a ∧ f a = ok b := by
  cases x <;> simp

/-- Translate the error, as `map_err` does. -/
def mapErr (g : ε → ε') : Outcome ε α → Outcome ε' α
  | ok a => ok a
  | err e => err (g e)
  | panic => panic

@[simp] theorem mapErr_ok (g : ε → ε') (a : α) : (ok a : Outcome ε α).mapErr g = ok a := rfl

theorem ok_ne_panic (a : α) : (ok a : Outcome ε α) ≠ panic := nofun

theorem err_ne_panic (e : ε) : (err e : Outcome ε α) ≠ panic := nofun

@[simp] theorem mapErr_eq_err {g : ε → ε'} {x : Outcome ε α} {e' : ε'} :
    x.mapErr g = err e' ↔ ∃ e, x = err e ∧ g e = e' := by
  cases x <;> simp [mapErr]

/-- No panic, and no error outside `P`. -/
def ErrsIn (P : ε → Prop) : Outcome ε α → Prop
  | ok _ => True
  | err e => P e
  | panic => False

theorem ErrsIn.bind {P : ε → Prop} {x : Outcome ε α} {f : α → Outcome ε β}
    (hx : x.ErrsIn P) (hf : ∀ a, x = ok a → (f a).ErrsIn P) : (x >>= f).ErrsIn P := by
  cases x with
  | ok a => exact hf a rfl
  | err e => exact hx
  | panic => exact hx

end Outcome

/-- A computation over a mutable state that may fail or panic. -/
def Act (σ ε α : Type) : Type := σ → Outcome ε α × σ

namespace Act

variable {σ τ ε ε' α β : Type}

protected def pure (a : α) : Act σ ε α := fun s => (.ok a, s)

protected def bind (x : Act σ ε α) (f : α → Act σ ε β) : Act σ ε β := fun s =>
  match x s with
  | (.ok a, s') => f a s'
  | (.err e, s') => (.err e, s')
  | (.panic, s') => (.panic, s')

instance : Monad (Act σ ε) where
  pure := Act.pure
  bind := Act.bind

/-- Return the error `e`. -/
def fail (e : ε) : Act σ ε α := fun s => (.err e, s)

def panic : Act σ ε α := fun s => (.panic, s)

/-- Read a part of the state. -/
def gets (f : σ → α) : Act σ ε α := fun s => (.ok (f s), s)

def modify (f : σ → σ) : Act σ ε Unit := fun s => (.ok (), f s)

/-- A computation that leaves the state alone. -/
def lift (x : Outcome ε α) : Act σ ε α := fun s => (x, s)

/-- A computation that leaves the state alone and returns no error. -/
def liftTotal (x : Outcome Empty α) : Act σ ε α := lift (x.mapErr Empty.elim)

def mapErr (g : ε → ε') (x : Act σ ε α) : Act σ ε' α := fun s =>
  ((x s).1.mapErr g, (x s).2)

/-- Run `x` on the part of the state that `get` and `set` name. -/
def zoom (get : σ → τ) (set : τ → σ → σ) (x : Act τ ε α) : Act σ ε α := fun s =>
  ((x (get s)).1, set (x (get s)).2 s)

/-! ### Running a computation -/

theorem bind_apply (x : Act σ ε α) (f : α → Act σ ε β) (s : σ) :
    (x >>= f) s = match x s with
      | (.ok a, s') => f a s'
      | (.err e, s') => (.err e, s')
      | (.panic, s') => (.panic, s') := rfl

@[simp] theorem pure_apply (a : α) (s : σ) : (pure a : Act σ ε α) s = (.ok a, s) := rfl

@[simp] theorem fail_apply (e : ε) (s : σ) : (fail e : Act σ ε α) s = (.err e, s) := rfl

@[simp] theorem panic_apply (s : σ) : (panic : Act σ ε α) s = (.panic, s) := rfl

@[simp] theorem gets_apply (f : σ → α) (s : σ) : (gets f : Act σ ε α) s = (.ok (f s), s) := rfl

@[simp] theorem modify_apply (f : σ → σ) (s : σ) :
    (modify f : Act σ ε Unit) s = (.ok (), f s) := rfl

@[simp] theorem lift_apply (x : Outcome ε α) (s : σ) : (lift x : Act σ ε α) s = (x, s) := rfl

@[simp] theorem liftTotal_ok (a : α) (s : σ) :
    (liftTotal (.ok a) : Act σ ε α) s = (.ok a, s) := rfl

@[simp] theorem mapErr_apply (g : ε → ε') (x : Act σ ε α) (s : σ) :
    x.mapErr g s = ((x s).1.mapErr g, (x s).2) := rfl

@[simp] theorem zoom_apply (get : σ → τ) (set : τ → σ → σ) (x : Act τ ε α) (s : σ) :
    zoom get set x s = ((x (get s)).1, set (x (get s)).2 s) := rfl

protected theorem bind_assoc {γ : Type} (x : Act σ ε α) (f : α → Act σ ε β)
    (g : β → Act σ ε γ) : (x >>= f) >>= g = x >>= fun a => f a >>= g := by
  funext s
  simp only [bind_apply]
  rcases x s with ⟨a | e | _, t⟩ <;> rfl

/-- What follows a computation that returned. -/
theorem bind_of_ok {x : Act σ ε α} {f : α → Act σ ε β} {s s' : σ} {a : α}
    (h : x s = (.ok a, s')) : (x >>= f) s = f a s' := by
  rw [bind_apply, h]

theorem bind_of_err {x : Act σ ε α} {f : α → Act σ ε β} {s s' : σ} {e : ε}
    (h : x s = (.err e, s')) : (x >>= f) s = (.err e, s') := by
  rw [bind_apply, h]

/-- What follows depends on what comes first only through its outcome. -/
theorem bind_congr {x y : Act σ ε α} {s t : σ} (h : x s = y t) (f : α → Act σ ε β) :
    (x >>= f) s = (y >>= f) t := by
  rw [bind_apply, bind_apply, h]

/-- A sequence returns iff both parts do. -/
theorem bind_eq_ok {x : Act σ ε α} {f : α → Act σ ε β} {s s' : σ} {b : β} :
    (x >>= f) s = (.ok b, s') ↔ ∃ a t, x s = (.ok a, t) ∧ f a t = (.ok b, s') := by
  rw [bind_apply]
  rcases h : x s with ⟨a | e | _, t⟩ <;> simp

/-- A sequence fails iff one of its parts does. -/
theorem bind_eq_err {x : Act σ ε α} {f : α → Act σ ε β} {s s' : σ} {e : ε} :
    (x >>= f) s = (.err e, s') ↔
      x s = (.err e, s') ∨ ∃ a t, x s = (.ok a, t) ∧ f a t = (.err e, s') := by
  rw [bind_apply]
  rcases h : x s with ⟨a | e | _, t⟩ <;> simp

/-- A sequence panics only if one of its parts does. -/
theorem bind_ne_panic {x : Act σ ε α} {f : α → Act σ ε β} {s : σ} (hx : (x s).1 ≠ .panic)
    (hf : ∀ a t, x s = (.ok a, t) → (f a t).1 ≠ .panic) : ((x >>= f) s).1 ≠ .panic := by
  rw [bind_apply]
  rcases h : x s with ⟨a | e | _, t⟩
  · exact hf a t h
  · nofun
  · rw [h] at hx
    exact absurd rfl hx

/-- To make something of the value leaves the state alone. -/
theorem bind_pure_snd {x : Act σ ε α} {f : α → β} {s : σ} :
    ((x >>= fun a => pure (f a)) s).2 = (x s).2 := by
  rw [bind_apply]
  rcases x s with ⟨a | e | _, t⟩ <;> rfl

/-- To make something of the value is no reason to panic. -/
theorem bind_pure_eq_panic {x : Act σ ε α} {f : α → β} {s : σ} :
    ((x >>= fun a => pure (f a)) s).1 = .panic ↔ (x s).1 = .panic := by
  rw [bind_apply]
  rcases x s with ⟨a | e | _, t⟩ <;> simp

theorem fst_eq_ok {x : Act σ ε α} {s : σ} {a : α} :
    (x s).1 = .ok a ↔ ∃ s', x s = (.ok a, s') :=
  ⟨fun h => ⟨(x s).2, Prod.ext h rfl⟩, fun ⟨_, h⟩ => congrArg Prod.fst h⟩

/-! ### What a computation cannot come to -/

/-- `x` does not panic, and returns no error outside `P`. -/
def Errs (P : ε → Prop) (x : Act σ ε α) : Prop := ∀ s, (x s).1.ErrsIn P

section Errs

variable {P : ε → Prop}

theorem Errs.pure (a : α) : Errs P (Pure.pure a : Act σ ε α) := fun _ => trivial

theorem Errs.fail {e : ε} (he : P e) : Errs P (fail e : Act σ ε α) := fun _ => he

theorem Errs.gets (f : σ → α) : Errs P (gets f : Act σ ε α) := fun _ => trivial

theorem Errs.lift {x : Outcome ε α} (hx : x.ErrsIn P) : Errs P (lift x : Act σ ε α) :=
  fun _ => hx

theorem Errs.bind {x : Act σ ε α} {f : α → Act σ ε β} (hx : Errs P x)
    (hf : ∀ a, Errs P (f a)) : Errs P (x >>= f) := by
  intro s
  have h := hx s
  rw [bind_apply]
  rcases hxs : x s with ⟨a | e | _, t⟩
  · exact hf a t
  · rwa [hxs] at h
  · rwa [hxs] at h

theorem Errs.ite {c : Prop} [Decidable c] {x y : Act σ ε α} (hx : Errs P x) (hy : Errs P y) :
    Errs P (if c then x else y) := by
  split
  · exact hx
  · exact hy

end Errs

/-! ### Where a computation leads -/

/-- `x` takes every state to one that `R` relates to it. -/
def Leads (R : σ → σ → Prop) (x : Act σ ε α) : Prop := ∀ s, R s (x s).2

section Leads

variable {R : σ → σ → Prop}

theorem Leads.pure (hrefl : ∀ s, R s s) (a : α) : Leads R (Pure.pure a : Act σ ε α) := hrefl

theorem Leads.fail (hrefl : ∀ s, R s s) (e : ε) : Leads R (fail e : Act σ ε α) := hrefl

theorem Leads.gets (hrefl : ∀ s, R s s) (f : σ → α) : Leads R (gets f : Act σ ε α) := hrefl

theorem Leads.bind (htrans : ∀ s t u, R s t → R t u → R s u) {x : Act σ ε α}
    {f : α → Act σ ε β} (hx : Leads R x) (hf : ∀ a, Leads R (f a)) : Leads R (x >>= f) := by
  intro s
  have h := hx s
  rw [bind_apply]
  rcases hxs : x s with ⟨a | e | _, t⟩
  · rw [hxs] at h
    exact htrans _ _ _ h (hf a t)
  · rwa [hxs] at h
  · rwa [hxs] at h

theorem Leads.ite {c : Prop} [Decidable c] {x y : Act σ ε α} (hx : Leads R x)
    (hy : Leads R y) : Leads R (if c then x else y) := by
  split
  · exact hx
  · exact hy

theorem Leads.mapErr {x : Act σ ε α} (hx : Leads R x) (g : ε → ε') : Leads R (x.mapErr g) := hx

/-- Where a part of the state leads, if `R` looks at no more than that. -/
theorem Leads.zoom {Q : τ → τ → Prop} {get : σ → τ} {set : τ → σ → σ} {x : Act τ ε α}
    (hx : Leads Q x) (hset : ∀ s t, Q (get s) t → R s (set t s)) : Leads R (zoom get set x) :=
  fun s => hset s _ (hx (get s))

end Leads

/-! ### Pre- and postconditions -/

/-- Begun where `P` holds, `x` ends as `Q` says. -/
def Meets (P : σ → Prop) (x : Act σ ε α) (Q : Outcome ε α → σ → Prop) : Prop :=
  ∀ s, P s → Q (x s).1 (x s).2

section Meets

variable {P : σ → Prop} {Q : Outcome ε α → σ → Prop} {R : Outcome ε β → σ → Prop}

theorem Meets.bind {x : Act σ ε α} {f : α → Act σ ε β} (hx : Meets P x Q)
    (hf : ∀ a, Meets (Q (.ok a)) (f a) R) (herr : ∀ e s, Q (.err e) s → R (.err e) s)
    (hpanic : ∀ s, Q .panic s → R .panic s) : Meets P (x >>= f) R := by
  intro s hs
  have h := hx s hs
  rw [bind_apply]
  rcases hxs : x s with ⟨a | e | _, t⟩ <;> rw [hxs] at h
  · exact hf a t h
  · exact herr e t h
  · exact hpanic t h

theorem Meets.ite {c : Prop} [Decidable c] {x y : Act σ ε α} (hx : c → Meets P x Q)
    (hy : ¬c → Meets P y Q) : Meets P (if c then x else y) Q := by
  split
  · exact hx ‹_›
  · exact hy ‹_›

end Meets

end Act

end Effects
