import CreditFlow.Outlet
import CreditFlow.Player
import CreditFlow.PullStream
import CreditFlow.Rehearsal.Source

/-!
# Chain

A publisher at the end of any number of adapters.  A chain starts with a writer, a
pumped source or a player.  A hop pulls from the chain before it and pumps what it
pulled, so a chain with a hop is again a publisher.

The parties of a chain talk to their neighbours only, and never wait for an answer.
A control goes to the last publisher of the chain and stops there.  What a publisher
emits goes to its consumer: the next hop, or whoever stands behind the chain.  The
tasks in a chain are numbered from the beginning of the chain; a turn is one move of
one task.

Main results:

- {lit}`Chain.control_hops`, {lit}`Chain.turn_hops`: a chain never changes its length.
-/

namespace CreditFlow

/-- A publisher at the end of any number of adapters. -/
inductive Chain where
  | writer (o : Outlet)
  | source (s : Source) (p : Pump)
  | player (p : Player)
  /-- Pull from the chain before, and pump what was pulled. -/
  | hop (before : Chain) (s : PullStream Unit) (p : Pump)

/-- What one step inside a chain gives to the world outside it. -/
structure Burst where
  notes : List Notice := []
  /-- What the consumer behind the chain is told. -/
  emissions : List Emission := []
  /-- What the listener behind the chain is made to do. -/
  acts : List Act := []
  /-- The tasks that were woken. -/
  wakes : List Nat := []
  /-- The task that took the turn goes on. -/
  goesOn : Bool := false

namespace Chain

/-- The number of adapters, and of the last task. -/
def hops : Chain → Nat
  | writer _ => 0
  | source _ _ => 0
  | player _ => 0
  | hop before _ _ => before.hops + 1

/-- The tasks of a chain that are to run when it has been put together, the first
first. -/
def tasks : Chain → List Nat
  | writer _ => []
  | source _ _ => [0]
  | player _ => [0]
  | hop before _ _ => before.tasks ++ [before.hops + 1]

/-- Task `k`, if it was woken. -/
def wakeIf (woken : Bool) (k : Nat) : List Nat :=
  if woken then [k] else []

/-! ## Controls -/

/-- The last publisher is told something through its handle. -/
def control (c : Control) : Chain → Chain × List Notice × List Nat
  | writer o => (writer (o.control c).1, (o.control c).2, [])
  | source s p => (source s (p.control c).1, [], wakeIf (p.control c).2 0)
  | player p => (player (p.control c).1, [], wakeIf (p.control c).2 0)
  | hop before s p =>
      (hop before s (p.control c).1, [], wakeIf (p.control c).2 (before.hops + 1))

/-- The last publisher is told several things. -/
def controls : List Control → Chain → Chain × List Notice × List Nat
  | [], c => (c, [], [])
  | first :: rest, c =>
      let told := c.control first
      let others := controls rest told.1
      (others.1, told.2.1 ++ others.2.1, told.2.2 ++ others.2.2)

/-! ## A hop and the chain before it -/

/-- The stream of a hop is told something by the chain before it. -/
def hopHear (before : Chain) (s : PullStream Unit) (p : Pump) : Emission → Chain × Burst
  | .signal sig =>
      let heard := s.hear sig
      let woken := if heard.2.1 then p.streamReady else (p, false)
      let told := before.controls (heard.2.2.map fun _ => .release)
      (hop told.1 heard.1 woken.1,
        { notes := told.2.1, wakes := told.2.2 ++ wakeIf woken.2 (before.hops + 1) })
  | .hangUp =>
      let heard := s.hangUp
      let woken := if heard.2 then p.streamReady else (p, false)
      (hop before heard.1 woken.1, { wakes := wakeIf woken.2 (before.hops + 1) })

/-- The stream of the last hop is told several things. -/
def hear : List Emission → Chain → Chain × Burst
  | e :: rest, hop before s p =>
      let first := hopHear before s p e
      let others := hear rest first.1
      (others.1,
        { notes := first.2.notes ++ others.2.notes
          wakes := first.2.wakes ++ others.2.wakes })
  | _, c => (c, {})

/-- A burst of the chain before a hop reaches the stream of the hop, and no further. -/
def absorb (s : PullStream Unit) (p : Pump) (burst : Chain × Burst) : Chain × Burst :=
  let heard := hear burst.2.emissions (hop burst.1 s p)
  (heard.1,
    { notes := burst.2.notes ++ heard.2.notes
      acts := burst.2.acts
      wakes := burst.2.wakes ++ heard.2.wakes
      goesOn := burst.2.goesOn })

/-- A hop lets go of its stream. -/
def dropStream (before : Chain) (s : PullStream Unit) (p : Pump) (notes : List Notice) :
    Chain × Burst :=
  let dropped := s.drop
  let told := before.controls (dropped.2.2.map Prod.snd)
  (hop told.1 dropped.1 p,
    { notes := notes ++ dropped.2.1 ++ told.2.1
      emissions := [.hangUp]
      wakes := told.2.2 })

/-! ## Turns -/

/-- A move that signals the consumer, if there is anything to signal. -/
def signalling (notes : List Notice) (s : Option (Signal Unit)) : Burst :=
  { notes := notes, emissions := s.toList.map .signal, goesOn := true }

/-- A turn of a pump over a source. -/
def sourceTurn (s : Source) (p : Pump) : Chain × Burst :=
  let moved := p.advance
  match moved.2.2 with
  | .deliver sig => (source s moved.1, signalling moved.2.1 (some sig))
  | .again => (source s moved.1, { notes := moved.2.1, goesOn := true })
  | .park => (source s moved.1, { notes := moved.2.1 })
  | .leave => (source s.unpark moved.1, { notes := moved.2.1, emissions := [.hangUp] })
  | .fetch =>
      let polled := s.poll
      match polled.2 with
      | .item r =>
          let received := moved.1.receive (some r)
          (source polled.1 received.1, signalling received.2.1 received.2.2)
      | .exhausted =>
          let received := moved.1.receive none
          (source polled.1 received.1, signalling received.2.1 received.2.2)
      | .pending wakesItself =>
          let woken := if wakesItself then moved.1.pending.streamReady else (moved.1.pending, false)
          (source polled.1 woken.1, { wakes := wakeIf woken.2 0 })
      | .act a => (source polled.1 moved.1, { acts := [a], goesOn := true })

/-- A turn of the thread of a player. -/
def playerTurn (p : Player) : Chain × Burst :=
  let moved := p.advance
  match moved.2.2 with
  | .deliver sig => (player moved.1, signalling moved.2.1 (some sig))
  | .again => (player moved.1, { notes := moved.2.1, goesOn := true })
  | .leave => (player moved.1, { notes := moved.2.1, emissions := [.hangUp] })
  | _ => (player moved.1, { notes := moved.2.1 })

/-- What a pump over a pull stream is given when a poll of the stream is answered.
`none` means that the poll is pending.  A cause is handed on as a relayed one. -/
def pulled : Pull → Option (Option (Except Cause Octets))
  | .pending => none
  | .item chunk => some (some (.ok chunk))
  | .failed cause => some (some (.error cause.relayed))
  | .ended => some none

/-- A turn of a pump over the chain before it. -/
def hopTurn (before : Chain) (s : PullStream Unit) (p : Pump) : Chain × Burst :=
  let moved := p.advance
  match moved.2.2 with
  | .deliver sig => (hop before s moved.1, signalling moved.2.1 (some sig))
  | .again => (hop before s moved.1, { notes := moved.2.1, goesOn := true })
  | .park => (hop before s moved.1, { notes := moved.2.1 })
  | .leave => dropStream before s moved.1 moved.2.1
  | .fetch =>
      let attended := s.attend
      match attended.2.2 with
      | .asks _ =>
          let told := before.control (.request 1)
          (hop told.1 attended.1 moved.1,
            { notes := attended.2.1 ++ told.2.1, wakes := told.2.2, goesOn := true })
      | .answer answer =>
          match pulled answer with
          | none => (hop before attended.1 moved.1.pending, { notes := attended.2.1 })
          | some r =>
              let received := moved.1.receive r
              (hop before attended.1 received.1,
                signalling (attended.2.1 ++ received.2.1) received.2.2)

/-- A turn of task `k`. -/
def turn (k : Nat) : Chain → Chain × Burst
  | writer o => (writer o, {})
  | source s p => if k = 0 then sourceTurn s p else (source s p, {})
  | player p => if k = 0 then playerTurn p else (player p, {})
  | hop before s p =>
      if k = before.hops + 1 then hopTurn before s p else absorb s p (turn k before)

/-! ## The beginning of a chain -/

/-- Do something at the writer, and let what it emits pass through the chain. -/
def atWriter (f : Outlet → Outlet × List Notice × List Emission) : Chain → Chain × Burst
  | writer o => (writer (f o).1, { notes := (f o).2.1, emissions := (f o).2.2 })
  | hop before s p => absorb s p (atWriter f before)
  | c => (c, {})

/-- Do something at the source; the task that sleeps for it is woken on demand. -/
def atSource (f : Source → Source) (wake : Bool) : Chain → Chain × List Nat
  | source s p =>
      let changed := f s
      let woken := if wake && changed.parked then p.streamReady else (p, false)
      (source (if wake then changed.unpark else changed) woken.1, wakeIf woken.2 0)
  | hop before s p => (hop (atSource f wake before).1 s p, (atSource f wake before).2)
  | c => (c, [])

/-- The writer at the beginning, if there is one. -/
def writer? : Chain → Option Outlet
  | writer o => some o
  | hop before _ _ => before.writer?
  | _ => none

/-- The source at the beginning, if there is one. -/
def source? : Chain → Option Source
  | source s _ => some s
  | hop before _ _ => before.source?
  | _ => none

/-- The player at the beginning, if there is one. -/
def player? : Chain → Option Player
  | player p => some p
  | hop before _ _ => before.player?
  | _ => none

/-- Put a chain together: `n` hops behind a publisher. -/
def extend : Nat → Chain → Chain
  | 0, c => c
  | n + 1, c => extend n (hop c {} {})

/-! ## Length -/

/-- A control never changes the length of a chain. -/
@[simp]
theorem control_hops (c : Control) (chain : Chain) : (chain.control c).1.hops = chain.hops := by
  cases chain <;> rfl

@[simp]
theorem controls_hops (cs : List Control) (chain : Chain) :
    (chain.controls cs).1.hops = chain.hops := by
  induction cs generalizing chain with
  | nil => rfl
  | cons c cs ih => simp [controls, ih]

@[simp]
theorem hopHear_hops (before : Chain) (s : PullStream Unit) (p : Pump) (e : Emission) :
    (hopHear before s p e).1.hops = before.hops + 1 := by
  cases e <;> simp [hopHear, hops]

@[simp]
theorem hear_hops (es : List Emission) (chain : Chain) : (hear es chain).1.hops = chain.hops := by
  induction es generalizing chain with
  | nil => simp [hear]
  | cons e es ih =>
      cases chain with
      | hop before s p => simp [hear, ih, hops]
      | _ => rfl

@[simp]
theorem absorb_hops (s : PullStream Unit) (p : Pump) (burst : Chain × Burst) :
    (absorb s p burst).1.hops = burst.1.hops + 1 := by
  simp [absorb, hops]

@[simp]
theorem sourceTurn_hops (s : Source) (p : Pump) : (sourceTurn s p).1.hops = 0 := by
  unfold sourceTurn
  dsimp only
  split <;> try rfl
  split <;> rfl

@[simp]
theorem playerTurn_hops (p : Player) : (playerTurn p).1.hops = 0 := by
  unfold playerTurn
  dsimp only
  split <;> rfl

@[simp]
theorem hopTurn_hops (before : Chain) (s : PullStream Unit) (p : Pump) :
    (hopTurn before s p).1.hops = before.hops + 1 := by
  unfold hopTurn
  dsimp only
  split
  · rfl
  · rfl
  · rfl
  · simp [dropStream, hops]
  · split
    · simp [hops]
    · split <;> rfl

/-- A turn never changes the length of a chain. -/
@[simp]
theorem turn_hops (k : Nat) (chain : Chain) : (chain.turn k).1.hops = chain.hops := by
  induction chain with
  | writer o => rfl
  | source s p =>
      unfold turn
      split <;> simp [hops]
  | player p =>
      unfold turn
      split <;> simp [hops]
  | hop before s p ih =>
      unfold turn
      split <;> simp [hops, ih]

@[simp]
theorem extend_hops (n : Nat) (chain : Chain) : (extend n chain).hops = chain.hops + n := by
  induction n generalizing chain with
  | zero => rfl
  | succ n ih =>
      simp only [extend, ih, hops]
      omega

end Chain
end CreditFlow
