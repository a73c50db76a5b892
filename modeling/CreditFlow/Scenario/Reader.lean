import CreditFlow.Cell
import CreditFlow.Scenario.Calling

/-!
# A reader in a scenario

The steps of a thread that reads from an inlet, in any world that has an inlet in it.

A reading call takes what it finds in one step.  The longer ones (filling a buffer,
reading byte by byte, reading to the end) make several calls, and the world may go on
between them.

Main results:

- {lit}`Reader.fill_zero`: filling an empty buffer does not read.
- {lit}`Reader.step_of_dropped`: a reader that is gone does nothing, and nobody acts on
  its behalf.
- {lit}`Reader.awake_nil`: a future that nobody wakes is not polled again.
-/

namespace CreditFlow

/-- A world with an inlet in it. -/
class HasInlet (ω : Type) (ι : outParam Type) where
  inlet? : ω → Option (Inlet ι)
  /-- Whether the interrupt token was fired. -/
  interrupted : ω → Bool
  /-- Put a changed inlet in place and carry out the reactions that came with it. -/
  commit : Inlet ι → List (Reaction ι) → ω → ω

/-- What a reader does in one step of a scenario. -/
inductive ReaderStep where
  | read (n : Nat)
  | readByte
  /-- Read up to `n` bytes, one by one. -/
  | readBytes (n : Nat)
  /-- Fill a buffer of `n` bytes. -/
  | readExact (n : Nat)
  | readToEnd
  | seek
  | metadata
  | tryMetadata
  /-- Poll for the metadata until it is there, whenever someone has woken the poller. -/
  | pollMetadata
  | close
  /-- `n` closers close the inlet. -/
  | closeMany (n : Nat)
  | drop
  | debug
  | debugSubscriber
  | debugCloser
  deriving DecidableEq, Repr

namespace Reader

variable {ω ι α : Type} [HasInlet ω ι]

/-- One try of a call at the inlet. -/
def attempt (call : Bool → Inlet ι → Option (Inlet.Answer ι α)) (w : ω) : Option (α × ω) :=
  (HasInlet.inlet? w).bind fun b =>
    (call (HasInlet.interrupted w) b).map fun a =>
      (a.value, HasInlet.commit a.after a.reactions w)

/-- Change the inlet at once. -/
def change (f : Inlet ι → Inlet ι × List (Reaction ι)) (w : ω) : ω :=
  match HasInlet.inlet? w with
  | some b => HasInlet.commit (f b).1 (f b).2 w
  | none => w

/-! ## Several calls -/

/-- Read up to `n` bytes, one by one; also how that ended. -/
def bytewise : Nat → Calling ω (Octets × Reply)
  | 0 => pure ([], .done)
  | n + 1 => do
      match ← await (attempt Inlet.readByte) with
      | .ok (some b) =>
          let rest ← bytewise n
          pure (b :: rest.1, rest.2)
      | .ok none => pure ([], .endOfStream)
      | .error f => pure ([], .ioFailed (.stream f))

/-- Fill a buffer that has `want` bytes left.  Each call brings at least one, so the
calls are at most as many. -/
def fill : (calls want : Nat) → Octets → Calling ω Reply
  | _, 0, got => pure (.bytes got)
  | 0, _ + 1, _ => pure (.ioFailed .endedEarly)
  | calls + 1, want + 1, got => do
      match ← await (attempt (Inlet.read (want + 1))) with
      | .ok [] => pure (.ioFailed .endedEarly)
      | .ok bytes => fill calls (want + 1 - bytes.length) (got ++ bytes)
      | .error f => pure (.ioFailed (.stream f))

/-- Read chunk by chunk to the end; `supply` bounds the chunks that can still come. -/
def toEnd : (supply : Nat) → Octets → Calling ω Reply
  | 0, _ => failure
  | supply + 1, got => do
      match ← await (attempt Inlet.readChunk) with
      | .ok [] => pure (.gathered got (.accepted (some got.length)))
      | .ok bytes => toEnd supply (got ++ bytes)
      | .error f => pure (.gathered got (.ioFailed (.stream f)))

/-- Something that needs a buffer of `n` bytes. -/
def withBuffer (n : Nat) (call : Calling ω Reply) : Calling ω Reply :=
  if n ≤ Octets.capacity then call else pure (.broken .tooLong)

/-! ## The metadata -/

/-- The metadata of the inlet. -/
def cell (w : ω) : Cell String :=
  ((HasInlet.inlet? w).map Inlet.metadata).getD .pending

/-- What a waiter hears of a change of the world. -/
def overhear (before after : ω) (waiter : Waiter) : Waiter :=
  if (cell before).isPending && !(cell after).isPending then waiter.notify else waiter

/-- Others act until the waiter is woken; then it polls again. -/
def awake : List (ω → ω) → Waiter → ω → List Reply × Assisted ω
  | [], _, w => ([], ⟨w, []⟩)
  | helper :: rest, waiter, w =>
      let heard := overhear w (helper w) waiter
      if heard.isWoken then
        let polled := heard.poll (cell (helper w))
        match polled.2 with
        | some r => ([Reply.ofCall .metadata r], ⟨helper w, rest⟩)
        | none =>
            let later := awake rest polled.1 (helper w)
            (.pending :: later.1, later.2)
      else awake rest heard (helper w)

/-- Poll for the metadata until it is there. -/
def pollMetadata : Calling ω Reply := fun s =>
  let polled := Waiter.idle.poll (cell s.world)
  match polled.2 with
  | some r => some (.many [Reply.ofCall .metadata r], s)
  | none =>
      let later := awake s.helpers polled.1 s.world
      some (.many (.pending :: later.1), later.2)

/-! ## Steps -/

/-- Whether a step needs the reader itself: closers are made from it, while those that
exist already, and the delivering side, live on without it. -/
def needsReader : ReaderStep → Bool
  | .debugSubscriber => false
  | .debugCloser => false
  | _ => true

/-- What a reader does that exists. -/
def perform (supply : Nat) : ReaderStep → Calling ω Reply
  | .read n => withBuffer n do
      let r ← await (attempt (Inlet.read n))
      pure (Reply.ofIo .bytes r)
  | .readByte => do
      let r ← await (attempt Inlet.readByte)
      pure (Reply.ofIo .byte r)
  | .readBytes n => do
      let r ← bytewise n
      pure (.gathered r.1 r.2)
  | .readExact n => withBuffer n (fill n n [])
  | .readToEnd => toEnd supply []
  | .seek => pure (.ioFailed .notSeekable)
  | .metadata => do
      let r ← await (attempt Inlet.awaitMetadata)
      pure (Reply.ofCall .metadata r)
  | .tryMetadata => atOnce fun w =>
      ((((HasInlet.inlet? w).bind Inlet.metadata?).map (Reply.ofCall .metadata)).getD .done, w)
  | .pollMetadata => pollMetadata
  | .close => atOnce fun w => (.done, change Inlet.close w)
  | .closeMany n => atOnce fun w => (.done, if n = 0 then w else change Inlet.close w)
  | .drop => atOnce fun w => (.done, change Inlet.dropReader w)
  | .debug => atOnce fun w => (.text (((HasInlet.inlet? w).map Inlet.debug).getD ""), w)
  | .debugSubscriber => pure (.text Inlet.subscriberDebug)
  | .debugCloser => pure (.text Inlet.closerDebug)

/-- Whether the world has an inlet whose reader exists. -/
def isHeld (w : ω) : Bool :=
  (HasInlet.inlet? w).any Inlet.readerHeld

/-- A step of a reader.  Dropping a reader that is gone is nothing; any other step is
refused, and nobody acts while a refused step would have waited. -/
def step (supply : Nat) (s : ReaderStep) : Calling ω Reply := fun w =>
  if isHeld w.world || (!needsReader s && (HasInlet.inlet? w.world).isSome) then
    perform supply s w
  else if s = .drop then some (.done, w)
  else some (.refused .dropped, w.alone)

/-! ## Basic laws -/

/-- Filling an empty buffer does not read. -/
@[simp]
theorem fill_zero (calls : Nat) (got : Octets) (s : Assisted ω) :
    fill calls 0 got s = some (.bytes got, s) := by
  cases calls <;> rfl

/-- A reader that is gone does nothing, and nobody acts on its behalf. -/
theorem step_of_dropped {s : Assisted ω} (hgone : isHeld s.world = false) {r : ReaderStep}
    (hneeds : needsReader r = true) (hdrop : r ≠ .drop) (supply : Nat) :
    step supply r s = some (.refused .dropped, s.alone) := by
  simp [step, hgone, hneeds, hdrop]

/-- A future that nobody wakes is not polled again. -/
@[simp]
theorem awake_nil (waiter : Waiter) (w : ω) : awake [] waiter w = ([], ⟨w, []⟩) := rfl

end Reader
end CreditFlow
