import CreditFlow.Inlet.Reading
import CreditFlow.PullStream
import CreditFlow.Recorder
import CreditFlow.Rehearsal.Cue

/-!
# Replies

A scenario is a list of steps that are carried out one after the other in some
world.  Every step gets a reply; together with the calls and the notices that were
put down since the step before, the replies make up the transcript of the scenario.

Main results:

- {lit}`transcript_length`: every step has its entry.
- {lit}`transcript_append`: what the first steps leave is what the later ones start
  from.
- {lit}`report_eq_ok_iff`: a scenario is reported exactly if no step broke down.
-/

namespace CreditFlow

/-- Why a step was not carried out. -/
inductive Refusal where
  /-- What the step is about was dropped, or never was there. -/
  | dropped
  /-- The body of the writer was used up or dropped. -/
  | bodyGone
  /-- The listener holds no handle. -/
  | noHandle
  /-- The recorder was not subscribed. -/
  | notSubscribed
  /-- A counter would have gone past its ceiling. -/
  | overflow
  deriving DecidableEq, Repr

/-- Why a scenario was broken off. -/
inductive Breakdown where
  /-- A sum did not fit its counter. -/
  | overflow
  /-- A buffer would have been too long. -/
  | tooLong
  deriving DecidableEq, Repr

/-- What is told about a scenario that was broken off. -/
def Breakdown.message : Breakdown → String
  | .overflow => ControlLog.overflowed
  | .tooLong => Octets.tooLong

/-- What a step of a scenario answers. -/
inductive Reply where
  /-- Nothing to tell. -/
  | done
  | truth (b : Bool)
  /-- A small number. -/
  | number (n : Nat)
  /-- A counter of sixty-four bits. -/
  | counter (n : Nat)
  | text (s : String)
  /-- Bytes that were read, or an item that was pulled. -/
  | bytes (o : Octets)
  /-- A byte that was read; none at the end of the stream. -/
  | byte (b : Option UInt8)
  /-- A call went through; it may say how many bytes it took. -/
  | accepted (n : Option Nat)
  /-- Metadata that arrived. -/
  | metadata (value : String)
  | failed (f : Failure)
  /-- A byte-stream call failed. -/
  | ioFailed (f : IoFailure)
  /-- A pull stream yielded a failure. -/
  | cause (c : Cause)
  | pending
  /-- A pull stream has ended. -/
  | ended
  /-- A reader came to the end of its stream. -/
  | endOfStream
  /-- Bytes that were gathered by several calls, and how that ended. -/
  | gathered (o : Octets) (ending : Reply)
  /-- Chunks that were gathered by several calls, and how that ended. -/
  | parts (os : List Octets) (ending : Reply)
  /-- How many of several pushes failed. -/
  | tally (total failed : Nat)
  | log (l : ControlLog)
  /-- The step broke down, and the scenario with it. -/
  | broken (b : Breakdown)
  | view (v : Recorder.View)
  | many (rs : List Reply)
  /-- A reply, and how much a source has yielded so far. -/
  | pulled (r : Reply) (count : Nat)
  | refused (r : Refusal)
  /-- The call would wait for ever. -/
  | stuck

namespace Reply

/-- The reply to a poll of a pull stream. -/
def ofPull : Pull → Reply
  | .pending => .pending
  | .item chunk => .bytes chunk
  | .failed c => .cause c
  | .ended => .ended

/-- The reply of a byte-stream call. -/
def ofIo {α : Type} (ok : α → Reply) : Except Failure α → Reply
  | .ok a => ok a
  | .error f => .ioFailed (.stream f)

/-- The reply to a question for a log, whose sum has to fit a counter. -/
def ofLog (l : ControlLog) : Reply :=
  if l.fits then .log l else .broken .overflow

/-- The reply to a question for several logs. -/
def ofLogs (ls : List ControlLog) : Reply :=
  if ls.all ControlLog.fits then .many (ls.map .log) else .broken .overflow

/-- How the step broke down, if it did. -/
def breakdown? : Reply → Option Breakdown
  | .broken b => some b
  | _ => none

/-- The reply of any other call. -/
def ofCall {α : Type} (ok : α → Reply) : Except Failure α → Reply
  | .ok a => ok a
  | .error f => .failed f

end Reply

/-- What is told about one step. -/
structure Entry where
  reply : Reply
  calls : List Call := []
  journal : List Notice := []

/-- Worlds that put down what happens in them. -/
class Chronicle (ω : Type) where
  /-- The calls that reached counterparts. -/
  calls : ω → List Call
  /-- The notices of all parties. -/
  journal : ω → List Notice
  /-- Start on a fresh page. -/
  turnPage : ω → ω

/-- Carry out the steps of a scenario.  What was put down before the first step is told
with it. -/
def transcript {ω σ : Type} [Chronicle ω] (carry : σ → ω → Reply × ω) : List σ → ω → List Entry
  | [], _ => []
  | step :: rest, w =>
      let carried := carry step w
      { reply := carried.1
        calls := Chronicle.calls carried.2
        journal := Chronicle.journal carried.2 } ::
        transcript carry rest (Chronicle.turnPage carried.2)

/-- The transcript of a scenario that went through.  One in which a step broke down has
none. -/
def report (entries : List Entry) : Except Breakdown (List Entry) :=
  match entries.findSome? fun e => e.reply.breakdown? with
  | some b => .error b
  | none => .ok entries

/-- The world that the steps of a scenario leave. -/
def worldAfter {ω σ : Type} [Chronicle ω] (carry : σ → ω → Reply × ω) : List σ → ω → ω
  | [], w => w
  | step :: rest, w => worldAfter carry rest (Chronicle.turnPage (carry step w).2)

/-- Every step has its entry. -/
@[simp]
theorem transcript_length {ω σ : Type} [Chronicle ω] (carry : σ → ω → Reply × ω)
    (steps : List σ) (w : ω) : (transcript carry steps w).length = steps.length := by
  induction steps generalizing w with
  | nil => rfl
  | cons step rest ih => simp [transcript, ih]

/-- A scenario is reported exactly if no step broke down. -/
theorem report_eq_ok_iff {entries told : List Entry} :
    report entries = .ok told ↔
      told = entries ∧ ∀ e ∈ entries, e.reply.breakdown? = none := by
  unfold report
  cases hbroken : entries.findSome? fun e => e.reply.breakdown? with
  | some b =>
      obtain ⟨e, hmem, he⟩ := List.exists_of_findSome?_eq_some hbroken
      simp only [reduceCtorEq, false_iff, not_and]
      intro _ hnone
      rw [hnone e hmem] at he
      cases he
  | none =>
      rw [List.findSome?_eq_none_iff] at hbroken
      simp only [Except.ok.injEq]
      exact ⟨fun h => ⟨h.symm, hbroken⟩, fun h => h.1.symm⟩

/-- What the first steps leave is what the later ones start from. -/
theorem transcript_append {ω σ : Type} [Chronicle ω] (carry : σ → ω → Reply × ω)
    (first later : List σ) (w : ω) :
    transcript carry (first ++ later) w =
      transcript carry first w ++ transcript carry later (worldAfter carry first w) := by
  induction first generalizing w with
  | nil => rfl
  | cons step rest ih => simp [transcript, worldAfter, ih]

end CreditFlow
