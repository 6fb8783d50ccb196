/-
Umqtt/NanoClient/Platform.lean

The platform that the client runs on (`nano_client/platform.rs`), as what each
of its three methods does to a state of the platform's own.  Nothing else is
known of it.  `Event` is the record of one call of a method.
-/
import Umqtt.TransportClient

namespace Umqtt

/-- What the client runs on. -/
structure Platform (σ E : Type) where
  /-- Write all the data in `buf` to the underlying transport. -/
  writeAll (buf : List UInt8) (s : σ) : Except E Unit × σ
  /-- Read some data into `buf`: what is returned, and the slice behind the call. -/
  readSome (buf : List UInt8) (timeout : Option Duration) (s : σ) :
    (Except E (Option Nat) × List UInt8) × σ
  /-- Get the current time -/
  now (s : σ) : Instant × σ
  /-- A slice keeps its length. -/
  length_readSome : ∀ buf timeout s, (readSome buf timeout s).1.2.length = buf.length

/-- A platform on a byte stream, the state being what is left of it: it accepts
all writes, a read brings at most `chunk` bytes, and times out behind the end of
the stream. -/
def streamPlatform (chunk : Nat) : Platform (List UInt8) Unit where
  writeAll _ stream := (.ok (), stream)
  readSome buf _ stream :=
    let n := min chunk (min buf.length stream.length)
    if stream = [] then ((.ok none, buf), stream)
    else ((.ok (some n), stream.take n ++ buf.drop n), stream.drop n)
  now stream := (Instant.epoch, stream)
  length_readSome := by
    intro buf timeout stream
    dsimp only
    split
    · rfl
    · rw [List.length_append, List.length_take, List.length_drop]
      omega

namespace NanoClient

/-- The error type used by `NanoClient` -/
inductive Error (E : Type) where
  | connectionClosed
  | unexpectedPacket
  | io (e : E)
  | readError (e : Umqtt.Error)
  | writeError (e : WriteError)
  deriving DecidableEq

/-- A call of the platform and what came of it. -/
inductive Event (E : Type) where
  /-- `write_all`, while the transport client is in `state` -/
  | wrote (state : State) (buf : List UInt8) (result : Except E Unit)
  /-- `read_some`, which leaves `buf` in the slice -/
  | read (timeout : Option Duration) (result : Except E (Option Nat)) (buf : List UInt8)
  | clock (now : Instant)
  deriving DecidableEq

namespace Event

variable {E : Type}

/-- The bytes that a read received. -/
def received : Event E → List UInt8
  | read _ (.ok (some n)) buf => buf.take n
  | _ => []

/-- A write that failed, or a read that failed or found the end of the stream. -/
def Fails : Event E → Prop
  | wrote _ _ (.error _) => True
  | read _ (.error _) _ => True
  | read _ (.ok (some 0)) _ => True
  | _ => False

def IsRead : Event E → Prop
  | read _ _ _ => True
  | _ => False

def IsWrite : Event E → Prop
  | wrote _ _ _ => True
  | _ => False

/-- The bytes that a write handed over. -/
def written : Event E → Option (List UInt8)
  | wrote _ buf _ => some buf
  | _ => none

/-- The timeout of a read. -/
def timeout : Event E → Option (Option Duration)
  | read timeout _ _ => some timeout
  | _ => none

end Event

/-- The bytes that all reads of a record received. -/
def received {E : Type} (log : List (Event E)) : List UInt8 := log.flatMap Event.received

/-- What all writes of a record handed over. -/
def written {E : Type} (log : List (Event E)) : List (List UInt8) := log.filterMap Event.written

/-- The timeouts of all reads of a record. -/
def timeouts {E : Type} (log : List (Event E)) : List (Option Duration) :=
  log.filterMap Event.timeout

@[simp] theorem received_append {E : Type} (log log' : List (Event E)) :
    received (log ++ log') = received log ++ received log' := List.flatMap_append

@[simp] theorem written_append {E : Type} (log log' : List (Event E)) :
    written (log ++ log') = written log ++ written log' := List.filterMap_append

@[simp] theorem timeouts_append {E : Type} (log log' : List (Event E)) :
    timeouts (log ++ log') = timeouts log ++ timeouts log' := List.filterMap_append

theorem written_of_not_isWrite {E : Type} {evs : List (Event E)} (h : ∀ e ∈ evs, ¬e.IsWrite) :
    written evs = [] := by
  apply List.filterMap_eq_nil_iff.mpr
  intro e he
  have hno := h e he
  cases e with
  | wrote => exact absurd trivial hno
  | read | clock => rfl

end NanoClient

end Umqtt
