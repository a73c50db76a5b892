import CreditFlow.Demand
import CreditFlow.Signal

/-!
# Outlet

An outlet is where a thread writes bytes that a consumer receives item by item.
The consumer grants credit; every item that is pushed uses one grant, and a push
without credit has to wait.  The writer ends the stream by closing it; a writer
that goes away without closing leaves the stream abandoned.

An outlet has two parts that are never looked at in one step: the *ledger*, which
the consumer's handle and the writer share, and the *downstream*, where the
consumer is kept while it may be signalled.  Each operation here is one step on one
of the two parts.  A push, an end or a subscription is a sequence of such steps,
with whatever the consumer does in between.

Main results:

- {lit}`Ledger.take_items`: a push takes exactly one item of credit, or none.
- {lit}`Ledger.request_cancelled`: a cancelled stream is granted nothing.
- {lit}`Ledger.cancel_cancelled`, {lit}`Ledger.cancel_cancel`: cancelling holds from
  the first time on.
- {lit}`Outlet.control_eq`: a control reaches nothing but the ledger.
- {lit}`Outlet.conclude_done`, {lit}`Outlet.conclude_conclude`: an end is delivered
  at most once.
-/

namespace CreditFlow

/-- What the writer and the consumer's handle share. -/
structure Ledger where
  /-- Items granted by the consumer and not yet pushed. -/
  demand : Demand := .zero
  /-- The consumer has cancelled. -/
  cancelled : Bool := false
  /-- How the writer has ended the stream, if it has. -/
  finish : Option Finish := none
  deriving DecidableEq, Repr

namespace Ledger

/-- Take one item of credit.  `none` means that the push has to wait. -/
def take (interrupted : Bool) (l : Ledger) : Option (Except Failure Ledger) :=
  if l.cancelled then some (.error (.condition .cancelled))
  else if 0 < l.demand.items then some (.ok { l with demand := l.demand.spend })
  else if interrupted then some (.error (.condition (.interrupted .demand)))
  else none

/-- Grant `n` more items.  A grant of nothing is ignored, and so is any grant after
cancelling. -/
def request (n : Nat) (l : Ledger) : Ledger × List Notice :=
  if n = 0 then (l, [.zeroRequestIgnored])
  else if l.cancelled then (l, [])
  else
    let demand := l.demand.grant n
    ({ l with demand := demand }, [.demandGranted n demand.items])

/-- Cancel the stream; all credit is gone. -/
def cancel (l : Ledger) : Ledger × List Notice :=
  if l.cancelled then (l, [])
  else ({ l with cancelled := true, demand := .zero }, [.cancelledByConsumer])

/-- The debug text of a ledger. -/
def debug (l : Ledger) : String :=
  let finish := match l.finish with
    | none => "None"
    | some f => "Some(" ++ f.debug ++ ")"
  "WriteState \x7b demand: " ++ toString l.demand.items ++ ", cancelled: " ++
    (if l.cancelled then "true" else "false") ++ ", finish: " ++ finish ++ " \x7d"

/-- A push that gets credit takes exactly one item of it. -/
theorem take_items {interrupted : Bool} {l l' : Ledger} (htake : l.take interrupted = some (.ok l')) :
    l.cancelled = false ∧ l'.demand.items + 1 = l.demand.items ∧
      l' = { l with demand := l.demand.spend } := by
  unfold take at htake
  split at htake
  · simp at htake
  · split at htake
    · rename_i hopen hpos
      simp only [Option.some.injEq, Except.ok.injEq] at htake
      subst htake
      refine ⟨by simpa using hopen, ?_, rfl⟩
      simp only [Demand.spend_items]
      omega
    · split at htake <;> simp at htake

/-- A cancelled stream is granted nothing. -/
theorem request_cancelled {l : Ledger} (hcancelled : l.cancelled = true) (n : Nat) :
    (l.request n).1 = l := by
  unfold request
  split
  · rfl
  · simp

/-- A request leaves everything but the demand as it was. -/
theorem request_parts (n : Nat) (l : Ledger) :
    (l.request n).1.cancelled = l.cancelled ∧ (l.request n).1.finish = l.finish := by
  unfold request
  split
  · exact ⟨rfl, rfl⟩
  · split <;> exact ⟨rfl, rfl⟩

/-- A cancellation is not an end. -/
@[simp]
theorem cancel_finish (l : Ledger) : l.cancel.1.finish = l.finish := by
  unfold cancel
  split <;> rfl

/-- Cancelling twice is cancelling once. -/
theorem cancel_cancel (l : Ledger) : l.cancel.1.cancel = (l.cancel.1, []) := by
  unfold cancel
  split <;> simp_all

/-- After cancelling, the stream is cancelled. -/
@[simp]
theorem cancel_cancelled (l : Ledger) : l.cancel.1.cancelled = true := by
  unfold cancel
  split <;> simp_all

end Ledger

/-- Where an outlet keeps its consumer. -/
inductive Downstream where
  /-- None has subscribed yet. -/
  | waiting
  /-- A consumer that may be signalled. -/
  | attached
  /-- No signal will follow any more. -/
  | done
  deriving DecidableEq, Repr

/-- The state of an outlet. -/
structure Outlet where
  /-- How many bytes the writer has promised. -/
  contentLength : Nat
  /-- How many bytes it has pushed. -/
  written : Nat := 0
  /-- The writer has closed the stream. -/
  closed : Bool := false
  ledger : Ledger := {}
  downstream : Downstream := .waiting
  /-- The writer exists. -/
  writerHeld : Bool := true
  /-- The body to which a consumer can subscribe exists. -/
  bodyHeld : Bool := true
  deriving DecidableEq, Repr

namespace Outlet

/-! ## The consumer's side -/

/-- A control that comes through the consumer's handle.  The handle does not keep the
outlet alive: once writer and body are gone it has no effect. -/
def control (c : Control) (o : Outlet) : Outlet × List Notice :=
  if o.writerHeld || o.bodyHeld then
    match c with
    | .request n => ({ o with ledger := (o.ledger.request n).1 }, (o.ledger.request n).2)
    | .cancel => ({ o with ledger := o.ledger.cancel.1 }, o.ledger.cancel.2)
    | .release => (o, [])
  else (o, [])

/-- A consumer subscribes: it is greeted with its handle. -/
def greet (o : Outlet) : Outlet × List Notice × List Emission :=
  (o, [.writerSubscribed o.contentLength], [.signal (.subscribed ())])

/-- What is reported and signalled when the stream ends in a given way. -/
def farewell : Finish → List Notice × List Emission
  | .complete => ([.writerComplete], [.signal .complete, .hangUp])
  | .abandoned =>
      ([.writerAbandoned], [.signal (.error (.condition .abandoned)), .hangUp])

/-- After the greeting: the consumer is attached, unless it has cancelled already or
the writer has ended the stream before.  `seen` is the ledger as it was looked at. -/
def attach (seen : Ledger) (o : Outlet) : Outlet × List Notice × List Emission :=
  if seen.cancelled then ({ o with downstream := .done }, [], [.hangUp])
  else
    match seen.finish with
    | some f => ({ o with downstream := .done }, farewell f)
    | none => ({ o with downstream := .attached }, [], [])

/-- The body goes away, unused or used up. -/
def dropBody (o : Outlet) : Outlet :=
  { o with bodyHeld := false }

/-! ## The writer's side -/

/-- Hand an item to the attached consumer.  `none` means that nobody is attached. -/
def deliver (item : Octets) (o : Outlet) : Option (List Emission) :=
  match o.downstream with
  | .attached => some [.signal (.next item)]
  | _ => none

/-- Count an item that was handed over. -/
def counted (length : Nat) (o : Outlet) : Outlet × List Notice :=
  ({ o with written := o.written + length }, [.itemPushed length (o.written + length)])

/-- The writer closes: it will push nothing more. -/
def shut (o : Outlet) : Outlet × List Notice :=
  ({ o with closed := true },
    if o.written = o.contentLength then [] else [.lengthMismatch o.written o.contentLength])

/-- Put down how the writer ends the stream. -/
def putDown (f : Finish) (o : Outlet) : Outlet :=
  { o with ledger := { o.ledger with finish := some f } }

/-- Deliver the end, or leave it for the consumer that is still to come.  `silent`
means that the consumer had cancelled when the end was put down. -/
def conclude (f : Finish) (silent : Bool) (o : Outlet) : Outlet × List Notice × List Emission :=
  match o.downstream with
  | .waiting => (o, [.finishedBeforeSubscription f], [])
  | .attached => ({ o with downstream := .done }, if silent then ([], [.hangUp]) else farewell f)
  | .done => (o, [], [])

/-- The writer goes away. -/
def dropWriter (o : Outlet) : Outlet :=
  { o with writerHeld := false }

/-! ## Debug texts -/

/-- The debug text of the writer. -/
def debug (o : Outlet) : String :=
  "WriteBridge \x7b content_length: " ++ toString o.contentLength ++ ", written: " ++
    toString o.written ++ ", closed: " ++ (if o.closed then "true" else "false") ++
    ", state: " ++ o.ledger.debug ++ " \x7d"

/-- The debug text of the body. -/
def bodyDebug (o : Outlet) : String :=
  "WriteBody \x7b content_length: " ++ toString o.contentLength ++ ", .. \x7d"

/-! ## Basic laws -/

/-- A control leaves everything but the ledger as it was, and takes neither a cancellation
nor an end back. -/
theorem control_eq (c : Control) (o : Outlet) :
    ∃ ledger : Ledger, (o.control c).1 = { o with ledger := ledger } ∧
      ledger.finish = o.ledger.finish ∧
        (o.ledger.cancelled = true → ledger.cancelled = true) := by
  unfold control
  split
  · cases c with
    | request n =>
        obtain ⟨hcancelled, hfinish⟩ := Ledger.request_parts n o.ledger
        exact ⟨_, rfl, hfinish, fun hc => hcancelled.trans hc⟩
    | cancel => exact ⟨_, rfl, Ledger.cancel_finish _, fun _ => Ledger.cancel_cancelled _⟩
    | release => exact ⟨o.ledger, rfl, rfl, id⟩
  · exact ⟨o.ledger, rfl, rfl, id⟩

/-- Nothing is delivered once the stream has been concluded. -/
theorem conclude_done {o : Outlet} (hdone : o.downstream = .done) (f : Finish) (silent : Bool) :
    o.conclude f silent = (o, [], []) := by
  simp [conclude, hdone]

/-- An end is delivered at most once. -/
theorem conclude_conclude {o : Outlet} (hattached : o.downstream = .attached)
    (f g : Finish) (silent silent' : Bool) :
    (o.conclude f silent).1.conclude g silent' = ((o.conclude f silent).1, [], []) := by
  simp [conclude, hattached]

end Outlet
end CreditFlow
