/-
Umqtt/Lib/Loops.lean

Loops over a mutable state.

`loop` repeats a body until it breaks, and `drain` calls an iterator until it
has no more items.  Both take a bound on the number of turns and panic when it
runs out.  The bound is not part of what they mean: with a measure that every
turn lowers, a bound above the measure never runs out, and the loop ends as its
last turn does (`loop_ends`); an iterator yields all its items, of which there
are fewer than the bound (`Yields.drain`).
-/
import Umqtt.Lib.Effects

namespace Effects

namespace Act

variable {σ ε α : Type}

/-- Call `f` on every item, in order. -/
def forEach (f : α → Act σ ε Unit) : List α → Act σ ε Unit
  | [] => pure ()
  | a :: as => do
      f a
      forEach f as

/-- Repeat `body` until it breaks with a value, at most `fuel` times. -/
def loop (body : Act σ ε (Option α)) : Nat → Act σ ε α
  | 0 => panic
  | n + 1 => do
      match ← body with
      | some a => pure a
      | none => loop body n

/-- Call `next` until it has no more items, at most `fuel` times. -/
def drain (next : Act σ ε (Option α)) : Nat → Act σ ε (List α)
  | 0 => panic
  | n + 1 => do
      match ← next with
      | some a => do
          let as ← drain next n
          pure (a :: as)
      | none => pure []

/-! ### The end of a loop -/

/-- What a loop makes of the outcome of its last turn. -/
def lastTurn : Outcome ε (Option α) → Outcome ε α
  | .ok (some a) => .ok a
  | .ok none => .panic
  | .err e => .err e
  | .panic => .panic

section Loop

variable {body : Act σ ε (Option α)}

theorem loop_succ_of_none {n : Nat} {s s' : σ} (h : body s = (.ok none, s')) :
    loop body (n + 1) s = loop body n s' := by
  rw [loop, bind_of_ok h]

theorem loop_succ_of_last {n : Nat} {s : σ} (h : ∀ s', body s ≠ (.ok none, s')) :
    loop body (n + 1) s = (lastTurn (body s).1, (body s).2) := by
  rw [loop, bind_apply]
  rcases hb : body s with ⟨(- | a) | e | _, s'⟩
  · exact absurd hb (h s')
  all_goals rfl

/-- If every turn that does not break keeps the invariant `I` and lowers the
measure `m`, then a loop with more turns than `m` ends with a turn that starts
in `I`. -/
theorem loop_ends {I : σ → Prop} {m : σ → Nat}
    (hstep : ∀ s s', I s → body s = (.ok none, s') → I s' ∧ m s' < m s) :
    ∀ (n : Nat) (s : σ), I s → m s < n →
      ∃ t, I t ∧ (∀ t', body t ≠ (.ok none, t')) ∧
        loop body n s = (lastTurn (body t).1, (body t).2) := by
  intro n
  induction n with
  | zero => exact fun _ _ h => absurd h (Nat.not_lt_zero _)
  | succ n ih =>
    intro s hs hm
    by_cases hb : ∃ s', body s = (.ok none, s')
    · obtain ⟨s', hb⟩ := hb
      obtain ⟨hs', hlt⟩ := hstep s s' hs hb
      obtain ⟨t, ht, hlast, hloop⟩ := ih s' hs' (by omega)
      exact ⟨t, ht, hlast, by rw [loop_succ_of_none hb, hloop]⟩
    · have hlast : ∀ s', body s ≠ (.ok none, s') := fun s' h => hb ⟨s', h⟩
      exact ⟨s, hs, hlast, loop_succ_of_last hlast⟩

/-- A loop with enough turns panics only if its body does. -/
theorem loop_ne_panic {I : σ → Prop} {m : σ → Nat}
    (hstep : ∀ s s', I s → body s = (.ok none, s') → I s' ∧ m s' < m s)
    (hbody : ∀ s, I s → (body s).1 ≠ .panic) {n : Nat} {s : σ} (hs : I s) (hm : m s < n) :
    (loop body n s).1 ≠ .panic := by
  obtain ⟨t, ht, hlast, hloop⟩ := loop_ends hstep n s hs hm
  have hne := hbody t ht
  rw [hloop]
  rcases hb : body t with ⟨(- | a) | e | _, t'⟩
  · exact absurd hb (hlast t')
  · nofun
  · nofun
  · rw [hb] at hne
    exact absurd rfl hne

/-- With enough turns, more of them change nothing. -/
theorem loop_of_le {I : σ → Prop} {m : σ → Nat}
    (hstep : ∀ s s', I s → body s = (.ok none, s') → I s' ∧ m s' < m s) :
    ∀ (n : Nat) (s : σ), I s → m s < n → ∀ n', n ≤ n' → loop body n' s = loop body n s := by
  intro n
  induction n with
  | zero => exact fun _ _ h => absurd h (Nat.not_lt_zero _)
  | succ n ih =>
    rintro s hs hm (- | n') hn
    · exact absurd hn (Nat.not_succ_le_zero _)
    · by_cases hb : ∃ s', body s = (.ok none, s')
      · obtain ⟨s', hb⟩ := hb
        obtain ⟨hs', hlt⟩ := hstep s s' hs hb
        rw [loop_succ_of_none hb, loop_succ_of_none hb]
        exact ih s' hs' (by omega) n' (Nat.le_of_succ_le_succ hn)
      · have hlast : ∀ s', body s ≠ (.ok none, s') := fun s' h => hb ⟨s', h⟩
        rw [loop_succ_of_last hlast, loop_succ_of_last hlast]

/-- A loop with enough turns panics and fails only as its body does. -/
theorem errsIn_loop {P : ε → Prop} {m : σ → Nat} (hbody : Errs P body)
    (hstep : ∀ s s', body s = (.ok none, s') → m s' < m s) {n : Nat} {s : σ} (hn : m s < n) :
    (loop body n s).1.ErrsIn P := by
  obtain ⟨t, -, hlast, hloop⟩ := loop_ends (I := fun _ => True) (m := m)
    (fun s s' _ h => ⟨trivial, hstep s s' h⟩) n s trivial hn
  have ht := hbody t
  rw [hloop]
  rcases hb : body t with ⟨(- | a) | e | _, t'⟩
  · exact absurd hb (hlast t')
  all_goals
    rw [hb] at ht
    exact ht

theorem Leads.loop {R : σ → σ → Prop} (hrefl : ∀ s, R s s)
    (htrans : ∀ s t u, R s t → R t u → R s u) (hbody : Leads R body) (n : Nat) :
    Leads R (loop body n) := by
  induction n with
  | zero => exact hrefl
  | succ n ih =>
    refine hbody.bind htrans fun r => ?_
    cases r with
    | some a => exact .pure hrefl a
    | none => exact ih

/-- A loop keeps an invariant of its body until it ends. -/
theorem Meets.loop {I : σ → Prop} {Q : Outcome ε (Option α) → σ → Prop}
    {R : Outcome ε α → σ → Prop} (hbody : Meets I body Q) (hgo : ∀ s, Q (.ok none) s → I s)
    (hend : ∀ a s, Q (.ok (some a)) s → R (.ok a) s) (herr : ∀ e s, Q (.err e) s → R (.err e) s)
    (hpanic : ∀ s, Q .panic s → R .panic s) (hfuel : ∀ s, I s → R .panic s) (n : Nat) :
    Meets I (loop body n) R := by
  induction n with
  | zero => exact hfuel
  | succ n ih =>
    refine hbody.bind (fun r => ?_) herr hpanic
    cases r with
    | some a => exact hend a
    | none => exact fun s hs => ih s (hgo s hs)

theorem Errs.forEach {P : ε → Prop} {f : α → Act σ ε Unit} (hf : ∀ a, Errs P (f a))
    (as : List α) : Errs P (forEach f as) := by
  induction as with
  | nil => exact .pure ()
  | cons a as ih => exact (hf a).bind fun _ => ih

end Loop

/-! ### The items of an iterator -/

section Drain

variable {next : Act σ ε (Option α)}

/-- From `s`, the iterator yields `as` and then no more, which takes it to
`s'`. -/
inductive Yields (next : Act σ ε (Option α)) : σ → List α → σ → Prop where
  | nil {s s' : σ} : next s = (.ok none, s') → Yields next s [] s'
  | cons {s t s' : σ} {a : α} {as : List α} :
      next s = (.ok (some a), t) → Yields next t as s' → Yields next s (a :: as) s'

theorem Yields.drain {s s' : σ} {as : List α} (h : Yields next s as s') :
    ∀ {fuel : Nat}, as.length < fuel → drain next fuel s = (.ok as, s') := by
  induction h with
  | nil hnext =>
    rintro (_ | fuel) hf
    · exact absurd hf (Nat.not_lt_zero _)
    · rw [Act.drain, bind_of_ok hnext]
      rfl
  | cons hnext _ ih =>
    rintro (_ | fuel) hf
    · exact absurd hf (Nat.not_lt_zero _)
    · have hdrain := ih (Nat.lt_of_succ_lt_succ hf)
      rw [Act.drain, bind_of_ok hnext]
      exact bind_of_ok hdrain

end Drain

end Act

end Effects
