/-
Umqtt/NanoClient/Schedule.lean

When `run_client` writes.

A platform has a clock of its own, which moves on while the platform works and
while it waits (`Punctual`).  With a keep-alive, `run_client` is due to write one
keep-alive behind its last write.  It looks at the clock before every read, and
a read takes no longer than to the due time; so a ping that is due is written
before the platform has been late three times, namely with the read before the
due time, the one that times out, and the write.  But a read that is not given
any time may still bring bytes, and then there is another; the ping waits for
those as well, however many they are.  It is never written before it is due.
-/
import Umqtt.NanoClient.Deadline
import Umqtt.NanoClient.RunClient

namespace Umqtt

open Effects Wire

/-- `time` is the clock of the platform.  To look at it takes no time; a write
takes no longer than `slack`, and a read no longer than that behind its timeout.
A read times out when its timeout has passed and not before. -/
structure Platform.Punctual {σ E : Type} (p : Platform σ E) (time : σ → Nat) (slack : Nat) :
    Prop where
  steady : ∀ s, time s < 2 ^ 64 - 65535000
  now : ∀ s, (p.now s).1.milliseconds.toNat = time s ∧ time (p.now s).2 = time s
  writeAll : ∀ buf s, time s ≤ time (p.writeAll buf s).2 ∧
    time (p.writeAll buf s).2 ≤ time s + slack
  readSome : ∀ buf timeout s, time s ≤ time (p.readSome buf (some timeout) s).2 ∧
    time (p.readSome buf (some timeout) s).2 ≤ time s + timeout.asMillis + slack
  expired : ∀ buf timeout s, (p.readSome buf (some timeout) s).1.1 = .ok none →
    time s + timeout.asMillis ≤ time (p.readSome buf (some timeout) s).2

namespace NanoClient

section Schedule

variable {σ E : Type}

/-- A read that is given no time, and does not time out all the same. -/
def Event.overrun : Event E → Bool
  | .read (some timeout) (.ok (some _)) _ => timeout.asMillis == 0
  | _ => false

/-- The writes of a record keep to a schedule.  Each is due `every` milliseconds
behind the one before it, and the first at `first`.  A write is later than that
by three times `slack` at most, and by another `slack` for each read since the
one before it that was given no time and did not time out.  No ping is earlier.
The last two arguments are when the next write is due, and how many such reads
there have been since the last. -/
inductive Paced (every slack first : Nat) : List (Event E) → Nat → Nat → Prop where
  | start : Paced every slack first [] first 0
  | quiet {evs evs' : List (Event E)} {due overruns : Nat} :
      Paced every slack first evs due overruns → (∀ e ∈ evs', ¬e.Sends) →
      Paced every slack first (evs ++ evs') due (overruns + evs'.countP Event.overrun)
  | sends {evs : List (Event E)} {due overruns : Nat} {state : State} {buf : List UInt8}
      {now : Instant} : Paced every slack first evs due overruns →
      now.milliseconds.toNat ≤ due + (overruns + 3) * slack →
      (buf = frame 0xC0 [] → due ≤ now.milliseconds.toNat) →
      Paced every slack first (evs ++ [.wrote state buf (.ok ()), .clock now])
        (now.milliseconds.toNat + every) 0

/-- A clock and how late it runs, a keep-alive, and from where on a schedule is
kept: behind which calls, and when the first write is due. -/
structure Schedule (σ E : Type) where
  time : σ → Nat
  slack : Nat
  keepAlive : UInt16
  log : List (Event E)
  first : Nat

variable {c : Schedule σ E} {p : Platform σ E} {due overruns : Nat} {w w' : World σ E}

/-- The calls keep to the schedule, and the next write is due at `due`. -/
def Schedule.Kept (c : Schedule σ E) (due overruns : Nat) (w : World σ E) : Prop :=
  ∃ evs, w.log = c.log ++ evs ∧
    Paced (1000 * c.keepAlive.toNat) c.slack c.first evs due overruns

/-- The next write is not yet due, or has been for no longer than the clock may be
late. -/
structure Poised (c : Schedule σ E) (due overruns : Nat) (w : World σ E) : Prop where
  kept : c.Kept due overruns w
  keepAlive : w.keepAlive = .ofKeepAlive c.keepAlive
  deadline : w.packetSendAt.milliseconds.toNat ≤ due
  early : due ≤ max w.packetSendAt.milliseconds.toNat (c.time w.platform)
  late : c.time w.platform ≤ due + (overruns + 1) * c.slack

theorem Schedule.Kept.quiet {evs : List (Event E)} (h : c.Kept due overruns w)
    (hlog : w'.log = w.log ++ evs) (hevs : ∀ e ∈ evs, ¬e.Sends) :
    c.Kept due (overruns + evs.countP Event.overrun) w' := by
  obtain ⟨before, hbefore, hpaced⟩ := h
  exact ⟨before ++ evs, by rw [hlog, hbefore, List.append_assoc], hpaced.quiet hevs⟩

/-- What asks nothing of the platform, and leaves the deadline alone. -/
theorem Poised.congr (h : Poised c due overruns w) (hlog : w'.log = w.log)
    (hplatform : w'.platform = w.platform) (hkeep : w'.keepAlive = w.keepAlive)
    (hsame : w'.packetSendAt = w.packetSendAt) : Poised c due overruns w' where
  kept := h.kept.quiet (hlog.trans (List.append_nil _).symm) nofun
  keepAlive := hkeep.trans h.keepAlive
  deadline := by rw [hsame]; exact h.deadline
  early := by rw [hsame, hplatform]; exact h.early
  late := by rw [hplatform]; exact h.late

/-! ### Waiting -/

/-- What a turn of `run_client` comes to. -/
def Settled (c : Schedule σ E) : Outcome (Error E) Unit → World σ E → Prop
  | .ok _, w => ∃ due overruns, Poised c due overruns w
  | .err _, w | .panic, w => ∃ due overruns, c.Kept due overruns w

/-- A platform on a byte stream, with a clock that stops short of 1000 seconds.  Every
write takes `slack`.  What is there is read in that time, and a read that finds
nothing waits for its timeout, and as long again. -/
def waitingPlatform (chunk slack : Nat) : Platform (Fin 1000000 × List UInt8) Unit where
  writeAll _ s := if h : s.1.val + slack < 1000000 then (.ok (), (⟨_, h⟩, s.2)) else (.error (), s)
  readSome buf timeout s :=
    let n := min chunk (min buf.length s.2.length)
    let wait := (timeout.map Duration.asMillis).getD 0
    if timeout.isSome ∧ n = 0 then
      if h : s.1.val + wait + slack < 1000000 then ((.ok none, buf), (⟨_, h⟩, s.2))
      else ((.error (), buf), s)
    else
      if h : s.1.val + slack < 1000000 then
        ((.ok (some n), s.2.take n ++ buf.drop n), (⟨_, h⟩, s.2.drop n))
      else ((.error (), buf), s)
  now s := (⟨UInt64.ofNat s.1.val⟩, s)
  length_readSome := by
    intro buf timeout s
    dsimp only
    split
    · split <;> rfl
    · split
      · rw [List.length_append, List.length_take, List.length_drop]
        omega
      · rfl

theorem punctual_waitingPlatform (chunk slack : Nat) :
    (waitingPlatform chunk slack).Punctual (fun s => s.1.val) slack where
  steady s := by omega
  now s := ⟨UInt64.toNat_ofNat_of_lt' (s.1.isLt.trans (by decide)), rfl⟩
  writeAll buf s := by
    simp only [waitingPlatform]
    split <;> dsimp only <;> omega
  readSome buf timeout s := by
    simp only [waitingPlatform, Option.isSome_some, true_and, Option.map_some, Option.getD_some]
    split
    · split <;> dsimp only <;> omega
    · split <;> dsimp only <;> omega
  expired buf timeout s := by
    simp only [waitingPlatform, Option.isSome_some, true_and, Option.map_some, Option.getD_some]
    split
    · split
      · exact fun _ => Nat.le_add_right _ _
      · rintro ⟨⟩
    · split
      · rintro ⟨⟩
      · rintro ⟨⟩

end Schedule

end NanoClient

end Umqtt
