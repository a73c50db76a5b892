import CreditFlow.Inlet.Basic

/-!
# Reading from an inlet

What the reader does.  A call that finds nothing to take has to wait; it is then
described by {lit}`none`, and is tried again when something has changed.  A call
that finds something is one step, followed by its reactions.

Reading takes at most one chunk per call and remembers the rest of it.  Taking a
chunk gives its credit back, so the reactions of a read may ask the publisher for
the next chunk.

Main results:

- {lit}`Inlet.read_zero`: reading into nothing does nothing.
- {lit}`Inlet.refill_of_complete`, {lit}`Inlet.refill_of_failed`: an end that was
  seen is the answer for good.
- {lit}`Inlet.readByte_eq_read`: a byte-wise read is a read of one byte.
- {lit}`Inlet.refill_interrupted`: the interrupt token decides nothing but whether
  a call that would wait fails instead.
-/

namespace CreditFlow
namespace Inlet

variable {ι : Type} {α β : Type}

/-- What a reading call answers, the inlet it leaves, and its reactions. -/
structure Answer (ι α : Type) where
  value : α
  after : Inlet ι
  reactions : List (Reaction ι) := []

/-- Change an answer in the light of the inlet that it leaves. -/
def Answer.andThen (a : Answer ι α) (f : α → Inlet ι → β × Inlet ι) : Answer ι β :=
  let changed := f a.value a.after
  { value := changed.1, after := changed.2, reactions := a.reactions }

/-! ## Taking a chunk -/

/-- Take the next element out of the queue.  `true` means that `current` now holds
a chunk, `false` that the stream is complete. -/
def refill (interrupted : Bool) (b : Inlet ι) : Option (Answer ι (Except Failure Bool)) :=
  match b.verdict with
  | some (.ok _) => some { value := .ok false, after := b }
  | some (.error f) => some { value := .error f, after := b }
  | none =>
      match b.queue with
      | .data chunk :: rest =>
          match b.slot with
          | .installed handle =>
              some
                { value := .ok true
                  after := { b with queue := rest, current := chunk, credit := b.credit + 1 }
                  reactions := [.note .requestingNextChunk, .control handle (.request 1)] }
          | _ => some { value := .ok true, after := { b with queue := rest, current := chunk } }
      | .finish :: rest =>
          some
            { value := .ok false
              after := { b with queue := rest, drained := true, verdict := some (.ok ()) }
              reactions := [.note .reachedEnd] }
      | .failure f :: rest =>
          some
            { value := .error f
              after := { b with queue := rest, drained := true, verdict := some (.error f) }
              reactions := [.note (.readFailed f)] }
      | [] =>
          match b.slot with
          | .closed => some { value := .error (.condition .closed), after := b }
          | _ =>
              if interrupted then
                some { value := .error (.condition (.interrupted .data)), after := b }
              else none

/-- Make sure that `current` holds something, if anything is left. -/
def hold (interrupted : Bool) (b : Inlet ι) : Option (Answer ι (Except Failure Bool)) :=
  if b.current.isEmpty then b.refill interrupted else some { value := .ok true, after := b }

/-- Take up to `n` bytes of `current`, unless the stream had nothing more. -/
def takeUpTo (n : Nat) (held : Except Failure Bool) (b : Inlet ι) :
    Except Failure Octets × Inlet ι :=
  match held with
  | .ok true => (.ok (b.current.take n), { b with current := b.current.drop n })
  | .ok false => (.ok [], b)
  | .error f => (.error f, b)

/-- Take the first byte of `current`, unless the stream had nothing more. -/
def takeByte (held : Except Failure Bool) (b : Inlet ι) :
    Except Failure (Option UInt8) × Inlet ι :=
  match held with
  | .ok true => (.ok b.current.head?, { b with current := b.current.tail })
  | .ok false => (.ok none, b)
  | .error f => (.error f, b)

/-! ## Reading calls -/

/-- Read up to `n` bytes.  No bytes mean the end of the stream, unless none were
asked for. -/
def read (n : Nat) (interrupted : Bool) (b : Inlet ι) :
    Option (Answer ι (Except Failure Octets)) :=
  if n = 0 then some { value := .ok [], after := b }
  else (b.hold interrupted).map fun a => a.andThen (takeUpTo n)

/-- Read all that is left of a chunk.  No bytes mean the end of the stream. -/
def readChunk (interrupted : Bool) (b : Inlet ι) : Option (Answer ι (Except Failure Octets)) :=
  (b.hold interrupted).map fun a => a.andThen fun held after => takeUpTo after.current.length held after

/-- Read one byte.  No byte means the end of the stream. -/
def readByte (interrupted : Bool) (b : Inlet ι) :
    Option (Answer ι (Except Failure (Option UInt8))) :=
  (b.hold interrupted).map fun a => a.andThen takeByte

/-- Block until the metadata is there. -/
def awaitMetadata (interrupted : Bool) (b : Inlet ι) :
    Option (Answer ι (Except Failure String)) :=
  (b.metadata.wait interrupted).map fun r => { value := r, after := b }

/-- The metadata, if it is there. -/
def metadata? (b : Inlet ι) : Option (Except Failure String) :=
  b.metadata.result?

/-! ## Debug texts -/

/-- The debug text of the end that a reader has seen, if any. -/
def verdictDebug : Option (Except Failure Unit) → String
  | none => "None"
  | some (.ok _) => "Some(Ok(()))"
  | some (.error f) => "Some(Err(" ++ f.debug ++ "))"

/-- The debug text of the reading side. -/
def debug (b : Inlet ι) : String :=
  "ReadBridge \x7b buffered: " ++ toString b.current.length ++ ", finished: " ++
    verdictDebug b.verdict ++ ", .. \x7d"

/-- The debug text of the delivering side. -/
def subscriberDebug : String := "ReadSubscriber \x7b .. \x7d"

/-- The debug text of a closer. -/
def closerDebug : String := "ReadCloser \x7b .. \x7d"

/-! ## Basic laws -/

/-- Reading into nothing does nothing. -/
@[simp]
theorem read_zero (interrupted : Bool) (b : Inlet ι) :
    b.read 0 interrupted = some { value := .ok [], after := b } := rfl

/-- A completion that was seen is the answer for good. -/
theorem refill_of_complete {b : Inlet ι} (hend : b.verdict = some (.ok ())) (interrupted : Bool) :
    b.refill interrupted = some { value := .ok false, after := b } := by
  simp [refill, hend]

/-- A failure that was seen is the answer for good. -/
theorem refill_of_failed {b : Inlet ι} {f : Failure} (hend : b.verdict = some (.error f))
    (interrupted : Bool) :
    b.refill interrupted = some { value := .error f, after := b } := by
  simp [refill, hend]

/-- A byte-wise read leaves what a read of one byte leaves, with the same reactions,
and its byte is the only byte of that read. -/
theorem readByte_eq_read (interrupted : Bool) (b : Inlet ι) :
    b.readByte interrupted =
      (b.read 1 interrupted).map fun a => { a with value := a.value.map List.head? } := by
  simp only [readByte, read, Nat.one_ne_zero, if_false, Option.map_map]
  congr 1
  funext a
  obtain ⟨value, after, reactions⟩ := a
  match value with
  | .ok true =>
      cases hcurrent : after.current <;>
        simp [Answer.andThen, takeByte, takeUpTo, hcurrent, Except.map]
  | .ok false => rfl
  | .error f => rfl

/-- The interrupt token decides nothing but whether a call that would wait fails
instead, and then leaves the inlet as it was. -/
theorem refill_interrupted (b : Inlet ι) :
    b.refill true =
      some ((b.refill false).getD
        { value := .error (.condition (.interrupted .data)), after := b }) := by
  unfold refill
  split
  · rfl
  · rfl
  · split
    · split <;> rfl
    · rfl
    · rfl
    · split <;> rfl

end Inlet
end CreditFlow
