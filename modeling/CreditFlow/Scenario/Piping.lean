import CreditFlow.Line.Running
import CreditFlow.Scenario.Pumping
import CreditFlow.Scenario.Reader
import CreditFlow.Scenario.Writer

/-!
# Piping scenarios

All the pieces connected: a writer or a pumped source, any number of hops, and a
reader or a pull stream at the end.  The tasks run until the line is idle after it has
been put together and after every step.

Main results:

- {lit}`PipeScenario.carry_isIdle`: after every step the line is idle.
- {lit}`PipeScenario.start_isIdle`: the line is idle when the first step begins.
-/

namespace CreditFlow

/-! ## What can still reach the end of a line -/

/-- The bytes of a chunk, and one for the chunk itself. -/
def Octets.volume (o : Octets) : Nat :=
  o.length + 1

/-- The volume of what a signal carries. -/
def Signal.volume {ι : Type} : Signal ι → Nat
  | .next chunk => chunk.volume
  | _ => 0

/-- The volume of what a source will yield. -/
def Item.volume : Item → Nat
  | .chunk bytes => bytes.volume
  | _ => 0

/-- The volume of what a script will signal. -/
def Step.volume : Step → Nat
  | .chunk bytes => bytes.volume
  | _ => 0

/-- The volume of what waits for a reader. -/
def Element.volume : Element → Nat
  | .data chunk => chunk.volume
  | _ => 0

/-- The volume of everything in a list. -/
def volumeOf {α : Type} (volume : α → Nat) : List α → Nat
  | [] => 0
  | x :: rest => volume x + volumeOf volume rest

/-- The volume of all chunks in a chain. -/
def Chain.volume : Chain → Nat
  | writer _ => 0
  | source s _ => volumeOf Item.volume s.items
  | player p => volumeOf Step.volume p.script
  | hop before s _ => before.volume + volumeOf Signal.volume s.inbox

/-- The volume of all chunks in a sink. -/
def Sink.volume : Sink → Nat
  | inlet b => b.current.volume + volumeOf Element.volume b.queue
  | stream s => volumeOf Signal.volume s.inbox
  | _ => 0

/-- The volume of all chunks in a line; it bounds the bytes, and the items, that can
still be taken at the end. -/
def Line.volume (l : Line) : Nat :=
  l.chain.volume + l.sink.volume

/-! ## The reader of a line -/

instance : HasInlet Line Unit where
  inlet? l := l.sink.inlet?
  interrupted := Line.interrupted
  commit := Line.commit

/-! ## The puller of a line -/

namespace Puller

/-- Whether the line ends in a stream that exists. -/
def isHeld (l : Line) : Bool :=
  l.sink.stream?.any fun s => !s.dropped

/-- Do something with the stream at the end, if it exists. -/
def ifHeld (f : Line → Reply × Line) (l : Line) : Reply × Line :=
  if isHeld l then f l else (.refused .dropped, l)

/-- Drop the stream at the end, if it exists. -/
def drop (l : Line) : Line :=
  if isHeld l then l.dropStream else l

/-- Let the tasks run, then poll the stream; if it is pending, once more. -/
def settlePoll (l : Line) : Pull × Line :=
  let first := l.settle.poll
  if first.1 = .pending then first.2.settle.poll else first

/-- Poll again and again, until the answer is no item. -/
def collect : (supply : Nat) → Line → List Reply × Line
  | 0, l => ([], l)
  | supply + 1, l =>
      let polled := settlePoll l
      if polled.1.isItem then
        let later := collect supply polled.2
        (Reply.ofPull polled.1 :: later.1, later.2)
      else ([Reply.ofPull polled.1], polled.2)

end Puller

/-! ## Scenarios -/

/-- What stands at the beginning of a pipe. -/
inductive PipeHead where
  | writer (contentLength : Nat)
  | source (items : List Item) (isOpen : Bool)

/-- What stands at the end of a pipe. -/
inductive PipeEnd where
  | reader
  | stream
  deriving DecidableEq, Repr

/-- One step of a piping scenario. -/
inductive PipeStep where
  | writer (s : WriterStep)
  | reader (s : ReaderStep)
  | source (a : SourceAct)
  | interrupt
  | poll
  /-- Whether the poller was woken since it last tried to poll. -/
  | woken
  | dropStream
  /-- Let the tasks run and read up to `n` bytes, again and again. -/
  | drain (n : Nat)
  /-- Let the tasks run and poll, again and again. -/
  | collect

/-- A piping scenario. -/
structure PipeScenario where
  head : PipeHead := .writer 0
  hops : Nat := 0
  ending : PipeEnd := .reader
  steps : List PipeStep := []

namespace PipeScenario

/-- Let the tasks run and read, until there is nothing more; `supply` bounds the bytes
that can still come. -/
def drain (n : Nat) : (supply : Nat) → Line → List Octets × Reply × Line
  | 0, l => ([], .stuck, l)
  | supply + 1, l =>
      match Reader.attempt (Inlet.read n) l.settle with
      | some (.ok [], l) => ([], .endOfStream, l)
      | some (.ok bytes, l) =>
          let later := drain n supply l
          (bytes :: later.1, later.2.1, later.2.2)
      | some (.error f, l) => ([], .ioFailed (.stream f), l)
      | none => ([], .stuck, l.settle)

/-- Carry out one step, before the tasks run. -/
def perform (s : PipeStep) (l : Line) : Reply × Line :=
  match s with
  | .writer s => (Writer.step s).carry [] l
  | .reader s => (Reader.step (l.volume + 2) s).carry [] l
  | .source a => a.perform l
  | .interrupt => (.done, l.react .interrupt)
  | .poll => Puller.ifHeld (fun l => (Reply.ofPull l.poll.1, l.poll.2)) l.unwoken
  | .woken => (.truth l.woken, l)
  | .dropStream => (.done, Puller.drop l)
  | .drain n =>
      if Reader.isHeld l && Octets.capacity < n then (.broken .tooLong, l)
      else if Reader.isHeld l then
        let drained := drain n (l.volume + 2) l
        (.parts drained.1 drained.2.1, drained.2.2)
      else (.refused .dropped, l)
  | .collect =>
      Puller.ifHeld (fun l =>
        (.many (Puller.collect (l.volume + 2) l).1, (Puller.collect (l.volume + 2) l).2)) l

/-- Carry out one step, and let the tasks run. -/
def carry (s : PipeStep) (l : Line) : Reply × Line :=
  ((perform s l).1, (perform s l).2.settle)

/-- The pieces of a pipe: its chain, and its end. -/
def pieces (s : PipeScenario) : Line :=
  let chain := Chain.extend s.hops <| match s.head with
    | .writer contentLength => .writer { contentLength := contentLength }
    | .source items isOpen => .source { items := items, isOpen := isOpen } {}
  { chain := chain
    sink := match s.ending with
      | .reader => .inlet {}
      | .stream => .stream {}
    ready := chain.tasks
    interrupted := true }

/-- The pipe when it has been put together: the writer, if there is one, has greeted
its consumer, and the tasks have run. -/
def start (s : PipeScenario) : Line :=
  (match s.head with
    | .writer _ => s.pieces.subscribe
    | .source _ _ => s.pieces).settle

/-- The transcript of a scenario. -/
def run (s : PipeScenario) : List Entry :=
  transcript carry s.steps s.start

/-- After every step the line is idle. -/
theorem carry_isIdle (s : PipeStep) (l : Line) : (carry s l).2.isIdle = true :=
  Line.settle_isIdle _

/-- The line is idle when the first step begins. -/
theorem start_isIdle (s : PipeScenario) : s.start.isIdle = true :=
  Line.settle_isIdle _

end PipeScenario
end CreditFlow
