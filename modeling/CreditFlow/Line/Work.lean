import CreditFlow.Line.Basic

/-!
# The work left in a line

A number that bounds how many moves a line can still make before it is idle.  Every
move uses some of it up, so a line always comes to rest.

An item that still has hops before it is worth more than one that has not: at each
hop it wakes a task, is signalled once, and makes the hop ask for the next one.  So
the worth of what a party holds depends on how far from the sink it stands.

Main results:

- {lit}`Chain.control_work`: a control adds a constant amount at most.
- {lit}`Chain.turn_work`: a turn pays for everything that it causes.
- {lit}`Line.tick_work`: every move of a line uses some of its work up.
-/

namespace CreditFlow

/-! ## Worth -/

/-- What a signal costs that reaches a consumer `h` hops before the sink. -/
def signalCost (h : Nat) : Nat := 10 * h + 3

/-- What an item is worth to a publisher whose consumer stands `h` hops before the
sink. -/
def itemWorth (h : Nat) : Nat := 10 * h + 10

/-- What is left to a task that stands somewhere. -/
def Stage.work (h : Nat) : Stage → Nat
  | .fresh => 30 * h + 18
  | .greeted => 20 * h + 14
  | .between => 20 * h + 13
  | .polling => 20 * h + 13
  | .signalled => 20 * h + 14
  | .leaving => 10 * h + 9
  | .over => 0

/-- What is left to a pump. -/
def Pump.work (h : Nat) (p : Pump) : Nat :=
  p.stage.work h + p.grants.length

/-- What is left to a thread that plays a script. -/
def Performance.work (h : Nat) : Performance → Nat
  | .fresh => 30 * h + 18
  | .playing => 20 * h + 13
  | .leaving => 10 * h + 9
  | .over => 0

/-- What is left to a player. -/
def Player.work (h : Nat) (p : Player) : Nat :=
  p.performance.work h + itemWorth h * p.script.length

/-- What is left to a pull stream for asking, and for what it has not looked at. -/
def PullStream.work {ι : Type} (h : Nat) (s : PullStream ι) : Nat :=
  (match s.requested with
    | true => 0
    | false => 4) + itemWorth h * s.inbox.length

/-- What the answer of a pull stream costs. -/
def attentionCost {ι : Type} (h : Nat) : Attention ι → Nat
  | .answer (.item _) => 10 * h + 6
  | .answer (.failed _) => 10 * h + 5
  | .answer .pending => 0
  | .answer .ended => 0
  | .asks _ => 4

/-- What it costs that a task goes on. -/
def goesOnCost : Bool → Nat
  | true => 1
  | false => 0

/-- What is left in a chain whose consumer stands `h` hops before the sink. -/
def Chain.work (h : Nat) : Chain → Nat
  | writer _ => 0
  | source s p => p.work h + itemWorth h * s.items.length
  | player p => p.work h
  | hop before s p => before.work (h + 1) + p.work h + s.work h

/-- What a burst costs the world outside the chain. -/
def Burst.cost (h : Nat) (b : Burst) : Nat :=
  2 * b.wakes.length + signalCost h * b.emissions.length + 3 * b.acts.length +
    goesOnCost b.goesOn

/-- What is left in the scripts of a sink. -/
def Sink.work : Sink → Nat
  | listener l =>
      3 * (l.onSubscribe.length + l.onNext.flatten.length + l.onEnd.length)
  | _ => 0

/-- What is left in a line. -/
def Line.work (l : Line) : Nat :=
  l.chain.work 0 + l.sink.work + 2 * l.ready.length + goesOnCost l.running.isSome

/-! ## Controls -/

namespace Chain

/-- One flag wakes at most one task. -/
theorem wakeIf_length_le (woken : Bool) (k : Nat) : (wakeIf woken k).length ≤ 1 := by
  cases woken <;> simp [wakeIf]

/-- A control at a pump costs at most three: it leaves at most one unit of work in the pump, and
a task that it wakes costs two. -/
theorem pump_control_work (h : Nat) (c : Control) (p : Pump) (k : Nat) :
    (p.control c).1.work h + 2 * (wakeIf (p.control c).2 k).length ≤ p.work h + 3 := by
  have hwake := wakeIf_length_le (p.control c).2 k
  have hwork : (p.control c).1.work h ≤ p.work h + 1 := by
    unfold Pump.control
    split
    · simp
    · cases c with
      | request n => dsimp only; split <;> simp [Pump.work] <;> omega
      | cancel => dsimp only; split <;> simp [Pump.work]
      | release => dsimp only; split <;> simp [Pump.work]
  omega

/-- A control adds a constant amount at most. -/
theorem control_work (h : Nat) (c : Control) (chain : Chain) :
    (chain.control c).1.work h + 2 * (chain.control c).2.2.length ≤ chain.work h + 3 := by
  cases chain with
  | writer o => simp [control, work]
  | source s p =>
      have hp := pump_control_work h c p 0
      simp only [control, work]
      omega
  | player p =>
      have hwake := wakeIf_length_le (p.control c).2 0
      have hwork := p.control_script c
      simp only [control, work, Player.work, hwork.1, hwork.2]
      omega
  | hop before s p =>
      have hp := pump_control_work h c p (before.hops + 1)
      simp only [control, work]
      omega

/-- Every control at a chain costs at most three, with the tasks that it wakes. -/
theorem controls_work (h : Nat) (cs : List Control) (chain : Chain) :
    (chain.controls cs).1.work h + 2 * (chain.controls cs).2.2.length ≤
      chain.work h + 3 * cs.length := by
  induction cs generalizing chain with
  | nil => simp [controls]
  | cons c cs ih =>
      have hfirst := control_work h c chain
      have hrest := ih (chain.control c).1
      simp only [controls, List.length_append, List.length_cons]
      omega

/-! ## Signals to a hop -/

/-- Being woken for its stream leaves a pump with as much work as before. -/
theorem streamReady_work (h : Nat) (p : Pump) : p.streamReady.1.work h = p.work h := by
  unfold Pump.streamReady
  split <;> rfl

/-- What a hop hears leaves it with no more work than the signal costs. -/
theorem hopHear_work (h : Nat) (before : Chain) (s : PullStream Unit) (p : Pump) (e : Emission) :
    (hopHear before s p e).1.work h + 2 * (hopHear before s p e).2.wakes.length ≤
      (hop before s p).work h + signalCost (h + 1) := by
  have hready := streamReady_work h p
  cases e with
  | signal sig =>
      simp only [hopHear]
      have hwoken : ∀ b : Bool, (if b then p.streamReady else (p, false)).1.work h = p.work h := by
        intro b
        cases b
        · rfl
        · exact hready
      have hlen : ∀ woken k, (wakeIf woken k).length ≤ 1 := wakeIf_length_le
      unfold PullStream.hear
      split
      · have hone := sig.handles_length_le
        have hcontrols := controls_work (h + 1) (sig.handles.map fun _ => Control.release) before
        simp only [work, wakeIf, List.length_append, List.length_map, signalCost,
          Bool.false_eq_true, if_false, List.length_nil] at hcontrols ⊢
        omega
      · split
        · have hw := hwoken s.parked
          have hl := hlen (if s.parked then p.streamReady else (p, false)).2 (before.hops + 1)
          simp only [work, PullStream.work, hw, List.length_append, List.length_cons,
            List.length_nil, List.map_nil, controls, Nat.mul_add, signalCost, itemWorth] at hl ⊢
          omega
        · simp [work, controls, wakeIf, signalCost]
  | hangUp =>
      simp only [hopHear]
      unfold PullStream.hangUp
      split
      · have hl := wakeIf_length_le (if s.parked then p.streamReady else (p, false)).2 (before.hops + 1)
        have hw : (if s.parked then p.streamReady else (p, false)).1.work h = p.work h := by
          split
          · exact hready
          · rfl
        simp only [work, PullStream.work, hw, signalCost]
        omega
      · simp [work, wakeIf, signalCost]

/-- What a hop hears, signal after signal, leaves it with no more work than the signals cost. -/
theorem hear_work (h : Nat) (es : List Emission) (before : Chain) (s : PullStream Unit) (p : Pump) :
    (hear es (hop before s p)).1.work h + 2 * (hear es (hop before s p)).2.wakes.length ≤
      (hop before s p).work h + signalCost (h + 1) * es.length := by
  induction es generalizing before s p with
  | nil => simp [hear]
  | cons e es ih =>
      have hfirst := hopHear_work h before s p e
      obtain ⟨before', s', p', hhop⟩ : ∃ b s' p', (hopHear before s p e).1 = hop b s' p' := by
        cases e <;> exact ⟨_, _, _, rfl⟩
      have hrest := ih before' s' p'
      rw [← hhop] at hrest
      simp only [hear, List.length_append, List.length_cons, Nat.mul_add, Nat.mul_one]
      omega

/-! ## Letting go of a stream -/

/-- An inbox brings at most one handle with each signal. -/
theorem handles_length_le (inbox : List (Signal Unit)) :
    (inbox.flatMap Signal.handles).length ≤ inbox.length := by
  induction inbox with
  | nil => simp
  | cons s inbox ih =>
      have hone := s.handles_length_le
      simp only [List.flatMap_cons, List.length_append, List.length_cons]
      omega

/-- What is granted is worth at least three units of work for each item. -/
theorem mul_itemWorth_le (h n : Nat) : 3 * n ≤ itemWorth h * n :=
  Nat.mul_le_mul_right n (by unfold itemWorth; omega)

/-- A hop that lets go of its stream pays for the cancellation with what it had left. -/
theorem dropStream_work (h : Nat) (before : Chain) (s : PullStream Unit) (p : Pump)
    (notes : List Notice) :
    (dropStream before s p notes).1.work h + (dropStream before s p notes).2.cost h ≤
      (hop before s p).work h + signalCost h + 6 := by
  have hcontrols := controls_work (h + 1) (s.drop.2.2.map Prod.snd) before
  have hhandles := handles_length_le s.inbox
  have hworth := mul_itemWorth_le h s.inbox.length
  have hlen : (s.drop.2.2.map Prod.snd).length ≤ s.inbox.length + 2 := by
    simp only [PullStream.drop, PullStream.discard, List.length_map, List.length_append]
    unfold PullStream.cancelEarly
    split
    · rename_i handle hsubscription
      split <;> simp only [hsubscription, Option.toList, List.length_cons, List.length_nil] <;> omega
    · rename_i hsubscription
      simp only [hsubscription, Option.toList, List.length_nil]
      omega
  have hstream : s.drop.1.requested = s.requested ∧ s.drop.1.inbox = [] := by
    simp only [PullStream.drop, PullStream.discard, and_true]
    unfold PullStream.cancelEarly
    split
    · split <;> rfl
    · rfl
  simp only [dropStream, work, PullStream.work, Burst.cost, goesOnCost, hstream.1, hstream.2,
    List.length_cons, List.length_nil, Nat.mul_zero]
  omega

/-! ## Turns -/

theorem fold_length (grants : List Nat) (demand : Demand) :
    (Pump.fold grants demand).2.1.length ≤ grants.length := by
  induction grants generalizing demand with
  | nil => simp [Pump.fold]
  | cons n rest ih =>
      cases n with
      | zero => simp [Pump.fold]
      | succ n =>
          have h := ih (demand.grant (n + 1))
          simp only [Pump.fold, List.length_cons]
          omega

/-- What a move of a pump costs, apart from what it does with its stream. -/
def moveCost (h : Nat) : Move → Nat
  | .deliver _ => signalCost h + 1
  | .fetch => 0
  | .again => 1
  | .park => 0
  | .leave => signalCost h + 6

/-- A pump that looks at its grants pays for that with what it has left. -/
theorem idle_work (h : Nat) {p : Pump} (hstage : p.stage = .between) :
    p.idle.1.work h + moveCost h p.idle.2.2 ≤ p.work h := by
  unfold Pump.idle
  split
  · simp only [Pump.work, Stage.work, moveCost, hstage]
    omega
  · split
    · rename_i hgrants
      simp only [Pump.refuseZero, Pump.work, Stage.work, moveCost, hstage, hgrants,
        List.length_cons, signalCost]
      omega
    · rename_i hgrants
      simp only [Pump.work, moveCost, hstage, hgrants, List.length_cons]
      omega
    · split
      · simp [Pump.work, moveCost]
      · simp only [Pump.work, Stage.work, moveCost, hstage]
        omega

/-- A move of a pump pays for itself; a fetch leaves the pump in the middle of a poll. -/
theorem advance_work (h : Nat) (p : Pump) :
    p.advance.1.work h + moveCost h p.advance.2.2 ≤ p.work h ∧
      (p.advance.2.2 = .fetch → p.advance.1.stage = .polling) := by
  unfold Pump.advance
  split
  · rename_i hstage
    refine ⟨?_, by simp⟩
    simp only [Pump.work, Stage.work, moveCost, hstage, signalCost]
    omega
  · rename_i hstage
    refine ⟨?_, by simp⟩
    simp only [Pump.work, Stage.work, moveCost, hstage]
    omega
  · rename_i hstage
    split
    · refine ⟨idle_work h hstage, ?_⟩
      unfold Pump.idle
      split
      · simp
      · split
        · simp [Pump.refuseZero]
        · simp
        · split <;> simp
    · split
      · refine ⟨?_, by simp⟩
        simp only [Pump.work, Stage.work, moveCost, hstage]
        omega
      · refine ⟨?_, by simp⟩
        simp [Pump.work, Stage.work, moveCost, hstage]
  · rename_i hstage
    exact ⟨by simp [moveCost], fun _ => hstage⟩
  · rename_i hstage
    have hfold := fold_length p.grants p.demand
    dsimp only
    split
    · refine ⟨?_, by simp [Pump.refuseZero]⟩
      simp only [Pump.refuseZero, Pump.work, Stage.work, moveCost, hstage, signalCost]
      omega
    · refine ⟨?_, by simp⟩
      simp only [Pump.work, Stage.work, moveCost, hstage]
      omega
  · rename_i hstage
    refine ⟨?_, by simp⟩
    simp only [Pump.work, Stage.work, moveCost, hstage, signalCost]
    omega
  · exact ⟨by simp [moveCost], by simp⟩

/-- What an item costs beyond what the pump pays by itself. -/
def yieldCost (h : Nat) : Option (Except Cause Octets) → Nat
  | some _ => 10 * h + 5
  | none => 0

/-- Whatever a stream yields, the pump pays for signalling it, except for what an item
costs. -/
theorem receive_work (h : Nat) {p : Pump} (hstage : p.stage = .polling)
    (yielded : Option (Except Cause Octets)) (notes : List Notice) :
    (p.receive yielded).1.work h + (signalling notes (p.receive yielded).2.2).cost h ≤
      p.work h + yieldCost h yielded := by
  unfold Pump.receive
  split
  · cases yielded <;>
      simp only [Pump.work, Stage.work, hstage, signalling, Burst.cost, Option.toList,
        List.map_nil, List.length_nil, goesOnCost] <;> omega
  · cases yielded with
    | none =>
        simp only [Pump.work, Stage.work, hstage, signalling, Burst.cost, Option.toList,
          List.map_cons, List.map_nil, List.length_cons, List.length_nil, goesOnCost, signalCost]
        omega
    | some r =>
        cases r <;>
          simp only [Pump.work, Stage.work, hstage, signalling, Burst.cost, Option.toList,
            List.map_cons, List.map_nil, List.length_cons, List.length_nil, goesOnCost,
            signalCost, yieldCost] <;> omega

/-- A pumped source pays for its moves with what it has left. -/
theorem sourceTurn_work (h : Nat) (s : Source) (p : Pump) :
    (sourceTurn s p).1.work h + (sourceTurn s p).2.cost h ≤ (source s p).work h := by
  obtain ⟨hmove, hfetch⟩ := advance_work h p
  unfold sourceTurn
  dsimp only
  split
  · rename_i heq
    simp only [heq, moveCost] at hmove
    simp only [work, signalling, Burst.cost, Option.toList, List.map_cons, List.map_nil,
      List.length_cons, List.length_nil, goesOnCost]
    omega
  · rename_i heq
    simp only [heq, moveCost] at hmove
    simp only [work, Burst.cost, List.length_nil, goesOnCost]
    omega
  · rename_i heq
    simp only [heq, moveCost] at hmove
    simp only [work, Burst.cost, List.length_nil, goesOnCost]
    omega
  · rename_i heq
    simp only [heq, moveCost] at hmove
    simp only [work, Source.unpark, Burst.cost, List.length_cons, List.length_nil,
      goesOnCost]
    omega
  · rename_i heq
    have hstage := hfetch heq
    simp only [heq, moveCost] at hmove
    have hpending : p.advance.1.pending.work h = p.advance.1.work h := by
      simp [Pump.pending, Pump.work, Stage.work, hstage]
    have hready := streamReady_work h p.advance.1.pending
    have hused := Nat.mul_le_mul_left (itemWorth h) s.poll_used
    rw [Nat.mul_add] at hused
    split
    · rename_i r hr
      have hreceive := receive_work h hstage (some r) (p.advance.1.receive (some r)).2.1
      simp only [hr, Yield.used, Nat.mul_one] at hused
      simp only [work, yieldCost] at hreceive ⊢
      simp only [itemWorth] at hused ⊢
      omega
    · rename_i hr
      have hreceive := receive_work h hstage none (p.advance.1.receive none).2.1
      simp only [hr, Yield.used, Nat.mul_zero] at hused
      simp only [work, yieldCost] at hreceive ⊢
      omega
    · rename_i wakesItself hr
      simp only [hr, Yield.used] at hused
      cases wakesItself with
      | false =>
          simp only [work, Burst.cost, wakeIf, Bool.false_eq_true, if_false, List.length_nil,
            goesOnCost, Nat.mul_zero, hpending] at hused ⊢
          omega
      | true =>
          have hwake := wakeIf_length_le p.advance.1.pending.streamReady.2 0
          simp only [if_true, Nat.mul_one] at hused
          simp only [work, Burst.cost, List.length_nil, goesOnCost, Nat.mul_zero, if_true, hready,
            hpending]
          simp only [itemWorth] at hused ⊢
          omega
    · rename_i a hr
      simp only [hr, Yield.used, Nat.mul_one] at hused
      simp only [work, Burst.cost, List.length_cons, List.length_nil, goesOnCost]
      simp only [itemWorth] at hused ⊢
      omega

/-- A move of a player pays for itself. -/
theorem player_advance_work (h : Nat) (p : Player) :
    p.advance.1.work h + moveCost h p.advance.2.2 ≤ p.work h := by
  unfold Player.advance
  split
  · rename_i hperf
    simp only [Player.work, Performance.work, moveCost, hperf, signalCost]
    omega
  · rename_i hperf
    split
    · simp only [Player.work, Performance.work, moveCost, hperf]
      omega
    · rename_i bytes rest hscript
      split
      · simp only [Player.work, Performance.work, moveCost, hperf]
        omega
      · split
        · simp [Player.work, moveCost]
        · simp only [Player.work, moveCost, hscript, List.length_cons, Nat.mul_add, Nat.mul_one,
            itemWorth, signalCost]
          omega
    · unfold Player.finishWith
      split <;> simp only [Player.work, Performance.work, moveCost, hperf, signalCost] <;> omega
    · unfold Player.finishWith
      split <;> simp only [Player.work, Performance.work, moveCost, hperf, signalCost] <;> omega
  · rename_i hperf
    simp only [Player.work, Performance.work, moveCost, hperf, signalCost]
    omega
  · simp [moveCost]

/-- A player pays for its moves with what is left of its script. -/
theorem playerTurn_work (h : Nat) (p : Player) :
    (playerTurn p).1.work h + (playerTurn p).2.cost h ≤ (player p).work h := by
  have hmove := player_advance_work h p
  unfold playerTurn
  dsimp only
  split
  · rename_i heq
    simp only [heq, moveCost] at hmove
    simp only [work, signalling, Burst.cost, Option.toList, List.map_cons, List.map_nil,
      List.length_cons, List.length_nil, goesOnCost]
    omega
  · rename_i heq
    simp only [heq, moveCost] at hmove
    simp only [work, Burst.cost, List.length_nil, goesOnCost]
    omega
  · rename_i heq
    simp only [heq, moveCost] at hmove
    simp only [work, Burst.cost, List.length_cons, List.length_nil, goesOnCost]
    omega
  · simp only [work, Burst.cost, List.length_nil, goesOnCost]
    omega

/-- A pull stream that is looked through spends a signal for each item it yields, and
its one question for asking. -/
theorem attendTo_work (h : Nat) (s : PullStream Unit) (inbox : List (Signal Unit)) :
    (s.attendTo inbox).1.work h + attentionCost h (s.attendTo inbox).2.2 ≤
      { s with inbox := inbox }.work h := by
  induction inbox generalizing s with
  | nil =>
      unfold PullStream.attendTo
      split
      · split
        · rename_i hrequested hsubscription
          simp [PullStream.work, attentionCost, hrequested]
        · simp [PullStream.work, attentionCost]
      · simp [PullStream.work, attentionCost]
  | cons sig rest ih =>
      cases sig with
      | subscribed handle =>
          have hrest := ih { s with subscription := some handle }
          simp only [PullStream.attendTo]
          refine Nat.le_trans hrest ?_
          simp only [PullStream.work, List.length_cons, Nat.mul_add]
          omega
      | next chunk =>
          simp only [PullStream.attendTo, PullStream.work, attentionCost, List.length_cons,
            Nat.mul_add, Nat.mul_one, itemWorth]
          omega
      | error cause =>
          simp only [PullStream.attendTo, PullStream.work, attentionCost, List.length_cons,
            Nat.mul_add, Nat.mul_one, itemWorth]
          omega
      | complete =>
          simp only [PullStream.attendTo, PullStream.work, attentionCost, List.length_cons,
            Nat.mul_add, Nat.mul_one, itemWorth]
          omega

/-- A pull stream pays for what it answers with what it has not looked at, or has not asked for. -/
theorem attend_work (h : Nat) (s : PullStream Unit) :
    s.attend.1.work h + attentionCost h s.attend.2.2 ≤ s.work h := by
  unfold PullStream.attend
  split
  · simp [attentionCost]
  · exact attendTo_work h s s.inbox

/-- A hop pays for its moves with what it has left. -/
theorem hopTurn_work (h : Nat) (before : Chain) (s : PullStream Unit) (p : Pump) :
    (hopTurn before s p).1.work h + (hopTurn before s p).2.cost h ≤ (hop before s p).work h := by
  obtain ⟨hmove, hfetch⟩ := advance_work h p
  unfold hopTurn
  dsimp only
  split
  · rename_i heq
    simp only [heq, moveCost] at hmove
    simp only [work, signalling, Burst.cost, Option.toList, List.map_cons, List.map_nil,
      List.length_cons, List.length_nil, goesOnCost]
    omega
  · rename_i heq
    simp only [heq, moveCost] at hmove
    simp only [work, Burst.cost, List.length_nil, goesOnCost]
    omega
  · rename_i heq
    simp only [heq, moveCost] at hmove
    simp only [work, Burst.cost, List.length_nil, goesOnCost]
    omega
  · rename_i heq
    have hdrop := dropStream_work h before s p.advance.1 p.advance.2.1
    simp only [heq, moveCost] at hmove
    simp only [work] at hdrop ⊢
    omega
  · rename_i heq
    have hstage := hfetch heq
    have hattend := attend_work h s
    simp only [heq, moveCost] at hmove
    split
    · rename_i handle hasks
      have hcontrol := control_work (h + 1) (.request 1) before
      simp only [hasks, attentionCost] at hattend
      simp only [work, Burst.cost, List.length_nil, goesOnCost]
      omega
    · rename_i answer hanswer
      simp only [hanswer] at hattend
      have hpending : p.advance.1.pending.work h = p.advance.1.work h := by
        simp [Pump.pending, Pump.work, Stage.work, hstage]
      split
      · simp only [work, hpending, Burst.cost, List.length_nil, goesOnCost]
        omega
      · rename_i r hr
        have hreceive := receive_work h hstage r (s.attend.2.1 ++ (p.advance.1.receive r).2.1)
        cases answer with
        | pending => simp [pulled] at hr
        | item chunk =>
            simp only [pulled, Option.some.injEq] at hr
            subst hr
            simp only [work, yieldCost, attentionCost] at hreceive hattend ⊢
            omega
        | failed cause =>
            simp only [pulled, Option.some.injEq] at hr
            subst hr
            simp only [work, yieldCost, attentionCost] at hreceive hattend ⊢
            omega
        | ended =>
            simp only [pulled, Option.some.injEq] at hr
            subst hr
            simp only [work, yieldCost, attentionCost] at hreceive hattend ⊢
            omega

/-- What the chain before a hop gives is paid for when it has reached the hop. -/
theorem absorb_work (h : Nat) (s : PullStream Unit) (p : Pump) (burst : Chain × Burst) :
    (absorb s p burst).1.work h + (absorb s p burst).2.cost h ≤
      burst.1.work (h + 1) + burst.2.cost (h + 1) + p.work h + s.work h := by
  have hheard := hear_work h burst.2.emissions burst.1 s p
  simp only [absorb, work, Burst.cost, List.length_append, List.length_nil, Nat.mul_add,
    Nat.mul_zero] at hheard ⊢
  omega

/-- A turn pays for everything that it causes. -/
theorem turn_work (h k : Nat) (chain : Chain) :
    (chain.turn k).1.work h + (chain.turn k).2.cost h ≤ chain.work h := by
  induction chain generalizing h with
  | writer o => simp [turn, Burst.cost, goesOnCost]
  | source s p =>
      unfold turn
      split
      · exact sourceTurn_work h s p
      · simp [Burst.cost, goesOnCost]
  | player p =>
      unfold turn
      split
      · exact playerTurn_work h p
      · simp [Burst.cost, goesOnCost]
  | hop before s p ih =>
      unfold turn
      split
      · exact hopTurn_work h before s p
      · have habsorb := absorb_work h s p (before.turn k)
        have hbefore := ih (h + 1)
        simp only [work]
        omega

end Chain

/-! ## Lines -/

namespace Sink

/-- Whether a reaction is a control. -/
def isControl : Reaction Unit → Bool
  | .control _ _ => true
  | _ => false

/-- A signal makes an inlet use its handle at most once. -/
theorem inlet_signal_controls (s : Signal Unit) (b : Inlet Unit) :
    (b.signal s).2.countP isControl ≤ 1 := by
  have hfail : ∀ (b : Inlet Unit) (f : Failure), (b.failStream f).2.countP isControl = 0 := by
    intro b f
    unfold Inlet.failStream
    split
    · simp [isControl]
    · split
      · split <;> simp [isControl]
      · simp
  have hcomplete : ∀ b : Inlet Unit, b.completeStream.2.countP isControl = 0 := by
    intro b
    unfold Inlet.completeStream
    split <;> simp [isControl]
  cases s with
  | subscribed handle =>
      simp only [Inlet.signal, Inlet.subscribed]
      split <;> simp [isControl]
  | next chunk =>
      simp only [Inlet.signal, Inlet.next]
      split
      · split
        · simp [isControl]
        · split <;> simp [isControl]
      · simp [isControl]
  | error cause =>
      simp only [Inlet.signal, Inlet.error, Inlet.resolveMetadata, List.countP_append,
        List.countP_cons, List.countP_nil, hfail]
      simp [isControl]
  | complete =>
      simp only [Inlet.signal, Inlet.complete, Inlet.resolveMetadata, List.countP_append,
        List.countP_cons, List.countP_nil, hcomplete]
      simp [isControl]

/-- A listener does at most one thing for each act, and keeps its scripts. -/
theorem performAll_length (acts : List Act) (l : Listener) :
    (l.performAll acts).2.length ≤ acts.length ∧
      (l.performAll acts).1.onSubscribe = l.onSubscribe ∧
      (l.performAll acts).1.onNext = l.onNext ∧ (l.performAll acts).1.onEnd = l.onEnd := by
  induction acts generalizing l with
  | nil => exact ⟨Nat.le_refl _, rfl, rfl, rfl⟩
  | cons a rest ih =>
      have hone : (l.perform a).2.length ≤ 1 ∧ (l.perform a).1.onSubscribe = l.onSubscribe ∧
          (l.perform a).1.onNext = l.onNext ∧ (l.perform a).1.onEnd = l.onEnd := by
        unfold Listener.perform
        split
        · exact ⟨Nat.le_refl _, rfl, rfl, rfl⟩
        · split
          · exact ⟨Nat.le_refl _, rfl, rfl, rfl⟩
          · exact ⟨Nat.zero_le _, rfl, rfl, rfl⟩
      obtain ⟨hlen, hsub, hnext, hend⟩ := ih (l.perform a).1
      simp only [Listener.performAll, List.length_append, List.length_cons]
      exact ⟨by omega, hsub.trans hone.2.1, hnext.trans hone.2.2.1, hend.trans hone.2.2.2⟩

/-- A listener pays for its controls with the script that the signal uses up. -/
theorem listener_hear_work (l : Listener) (s : Signal Unit) :
    (listener (l.hear s).1).work + 3 * (l.hear s).2.2.countP isControl ≤ (listener l).work := by
  have hcount : ∀ acts (l : Listener), (l.performAll acts).2.countP isControl ≤ acts.length :=
    fun acts l => Nat.le_trans List.countP_le_length (performAll_length acts l).1
  cases s with
  | subscribed handle =>
      have hlen := hcount l.onSubscribe { l with onSubscribe := [], holds := true }
      have hkeep := (performAll_length l.onSubscribe { l with onSubscribe := [], holds := true }).2
      simp only [Listener.hear, work, hkeep, List.length_nil]
      omega
  | next chunk =>
      have hlen := hcount (l.onNext.headD []) { l with onNext := l.onNext.tail }
      have hkeep := (performAll_length (l.onNext.headD []) { l with onNext := l.onNext.tail }).2
      have hsum : (l.onNext.headD []).length + l.onNext.tail.flatten.length =
          l.onNext.flatten.length := by
        cases l.onNext <;> simp
      simp only [Listener.hear, work, hkeep]
      omega
  | error cause =>
      have hlen := hcount l.onEnd { l with onEnd := [] }
      have hkeep := (performAll_length l.onEnd { l with onEnd := [] }).2
      simp only [Listener.hear, work, hkeep, List.length_nil]
      omega
  | complete =>
      have hlen := hcount l.onEnd { l with onEnd := [] }
      have hkeep := (performAll_length l.onEnd { l with onEnd := [] }).2
      simp only [Listener.hear, work, hkeep, List.length_nil]
      omega

/-- A signal costs a sink at most one control beside what its script says. -/
theorem hear_work (e : Emission) (k : Sink) :
    (k.hear e).1.work + 3 * (k.hear e).2.reactions.countP isControl ≤ k.work + 3 := by
  cases k with
  | nobody => simp [hear]
  | inlet b =>
      cases e with
      | hangUp => simp [hear]
      | signal s =>
          have hone := inlet_signal_controls s b
          simp only [hear, work]
          omega
  | stream p =>
      cases e with
      | hangUp => simp [hear, work]
      | signal s =>
          have hone : (p.hear s).2.2.length ≤ 1 := by
            unfold PullStream.hear
            split
            · exact s.handles_length_le
            · split <;> simp
          have hcount := List.countP_le_length (p := isControl)
            (l := (p.hear s).2.2.map fun _ => Reaction.control () Control.release)
          simp only [List.length_map] at hcount
          simp only [hear, work]
          omega
  | listener l =>
      cases e with
      | hangUp => simp [hear]
      | signal s =>
          have hlisten := listener_hear_work l s
          simp only [hear]
          omega
  | recorder r =>
      cases e with
      | hangUp => simp [hear]
      | signal s =>
          cases s with
          | subscribed handle =>
              simp only [hear, Recorder.hear, work]
              split <;> simp [isControl]
          | next chunk => simp [hear, Recorder.hear, work]
          | error cause => simp [hear, Recorder.hear, work]
          | complete => simp [hear, Recorder.hear, work]

end Sink

namespace Line

theorem enqueue_length (task : Nat) (ready : List Nat) :
    (enqueue task ready).length ≤ ready.length + 1 := by
  unfold enqueue
  split <;> simp

/-- Waking tasks makes at most so many more of them ready. -/
theorem wake_ready_length (tasks : List Nat) (l : Line) :
    (l.wake tasks).ready.length ≤ l.ready.length + tasks.length := by
  have hfold : ∀ (tasks ready : List Nat),
      (tasks.foldl (fun ready task => enqueue task ready) ready).length ≤
        ready.length + tasks.length := by
    intro tasks
    induction tasks with
    | nil => simp
    | cons task tasks ih =>
        intro ready
        have hone := enqueue_length task ready
        have hrest := ih (enqueue task ready)
        simp only [List.foldl_cons, List.length_cons]
        omega
  exact hfold tasks l.ready

/-- Waking a task costs its coming to run. -/
theorem wake_work (tasks : List Nat) (l : Line) :
    (l.wake tasks).work ≤ l.work + 2 * tasks.length := by
  have hready := wake_ready_length tasks l
  have hkeep : (l.wake tasks).chain = l.chain ∧ (l.wake tasks).sink = l.sink ∧
      (l.wake tasks).running = l.running := ⟨rfl, rfl, rfl⟩
  simp only [work, hkeep]
  omega

/-- A reaction of the sink costs nothing unless it is a control. -/
theorem react_work (r : Reaction Unit) (l : Line) :
    (l.react r).work ≤ l.work + 3 * [r].countP Sink.isControl := by
  cases r with
  | note n => simp [react, note, work]
  | interrupt => simp [react, work]
  | control handle c =>
      have hcontrol := Chain.control_work 0 c l.chain
      have hwake := wake_work (l.chain.control c).2.2
        (({ l with chain := (l.chain.control c).1 }).note (l.chain.control c).2.1)
      simp only [react, List.countP_cons, List.countP_nil, Sink.isControl, if_true] at hwake ⊢
      simp only [note, work] at hwake ⊢
      omega

/-- Reactions of the sink cost nothing but for the controls among them. -/
theorem reactAll_work (rs : List (Reaction Unit)) (l : Line) :
    (l.reactAll rs).work ≤ l.work + 3 * rs.countP Sink.isControl := by
  induction rs generalizing l with
  | nil => simp [reactAll]
  | cons r rs ih =>
      have hfirst := react_work r l
      have hrest := ih (l.react r)
      have hcount : (r :: rs).countP Sink.isControl =
          [r].countP Sink.isControl + rs.countP Sink.isControl := by
        rw [← List.countP_append, List.singleton_append]
      simp only [reactAll, List.foldl_cons, hcount] at hrest ⊢
      omega

/-- A signal costs a line at most one control. -/
theorem hear_work (e : Emission) (l : Line) : (l.hear e).work ≤ l.work + 3 := by
  have hsink := Sink.hear_work e l.sink
  have hreact := reactAll_work (l.sink.hear e).2.reactions
    { l with
      sink := (l.sink.hear e).1
      calls := l.calls ++ (l.sink.hear e).2.calls
      woken := l.woken || (l.sink.hear e).2.woken }
  simp only [hear]
  simp only [work] at hreact ⊢
  omega

/-- What the sink hears costs at most three units a signal. -/
theorem hearAll_work (es : List Emission) (l : Line) :
    (es.foldl hear l).work ≤ l.work + 3 * es.length := by
  induction es generalizing l with
  | nil => simp
  | cons e es ih =>
      have hfirst := hear_work e l
      have hrest := ih (l.hear e)
      simp only [List.foldl_cons, List.length_cons]
      omega

theorem sink_perform_work (a : Act) (k : Sink) :
    (k.perform a).1.work = k.work ∧ (k.perform a).2.length ≤ 1 := by
  cases k with
  | listener l =>
      simp only [Sink.perform, Listener.perform]
      split
      · simp
      · split <;> simp [Sink.work]
  | _ => simp [Sink.perform]

/-- An act of the listener costs at most three units. -/
theorem perform_work (a : Act) (l : Line) : (l.perform a).work ≤ l.work + 3 := by
  have hsink := sink_perform_work a l.sink
  have hreact := reactAll_work (l.sink.perform a).2 { l with sink := (l.sink.perform a).1 }
  have hcount := List.countP_le_length (p := Sink.isControl) (l := (l.sink.perform a).2)
  simp only [perform]
  simp only [work, hsink.1] at hreact ⊢
  omega

theorem performAll_work (acts : List Act) (l : Line) :
    (acts.foldl perform l).work ≤ l.work + 3 * acts.length := by
  induction acts generalizing l with
  | nil => simp
  | cons a acts ih =>
      have hfirst := perform_work a l
      have hrest := ih (l.perform a)
      simp only [List.foldl_cons, List.length_cons]
      omega

/-- What a burst gives to the outside of a chain costs no more than the burst. -/
theorem absorb_work (change : Chain × Burst) (l : Line) :
    (l.absorb change).work + goesOnCost change.2.goesOn ≤
      { l with chain := change.1 }.work + change.2.cost 0 := by
  have hheard := hearAll_work change.2.emissions (({ l with chain := change.1 }).note change.2.notes)
  have hdone := performAll_work change.2.acts
    (change.2.emissions.foldl hear (({ l with chain := change.1 }).note change.2.notes))
  have hwoken := wake_work change.2.wakes
    (change.2.acts.foldl perform
      (change.2.emissions.foldl hear (({ l with chain := change.1 }).note change.2.notes)))
  have hnote : (({ l with chain := change.1 }).note change.2.notes).work =
      { l with chain := change.1 }.work := rfl
  simp only [absorb, Burst.cost, signalCost]
  omega

/-- Every move of a line uses some of its work up. -/
theorem tick_work {l l' : Line} (htick : l.tick = some l') : l'.work < l.work := by
  unfold tick at htick
  split at htick
  · rename_i task hrunning
    have hturn := Chain.turn_work 0 task l.chain
    have habsorb := absorb_work (l.chain.turn task)
      { l with running := if (l.chain.turn task).2.goesOn then some task else none }
    simp only [Option.some.injEq] at htick
    subst htick
    cases hgoes : (l.chain.turn task).2.goesOn <;>
      simp only [work, hrunning, hgoes, goesOnCost, Option.isSome, if_true, Bool.false_eq_true,
        if_false] at habsorb ⊢ <;> omega
  · rename_i hrunning
    split at htick
    · simp at htick
    · rename_i task rest hready
      simp only [Option.some.injEq] at htick
      subst htick
      simp only [work, hrunning, hready, goesOnCost, Option.isSome, List.length_cons]
      omega

end Line
end CreditFlow
