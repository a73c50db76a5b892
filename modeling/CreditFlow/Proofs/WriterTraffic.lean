import CreditFlow.Proofs.OutletWriting
import CreditFlow.Proofs.PumpTraffic
import CreditFlow.Scenario.Writing

/-!
# A writer opposite a listener

A thread that writes, and a listener that may ask, cancel and let go of its handle inside
everything that it hears, and while a push waits for credit.  Every step of such a scenario is
one of the runs of an outlet under traffic: what the listener does inside a call is what
happens between two steps of that call.

Main results:

- {lit}`Line.Hears.hears`: what a listener does when it hears something is traffic.
- {lit}`Line.Rests.push`, {lit}`Line.Rests.subscribe`, {lit}`Line.Rests.closeWriter`,
  {lit}`Line.Rests.dropWriter`: so is everything that writer and listener do.
- {lit}`Writing.run_plays`: a run of a writing scenario is a run of traffic.
- {lit}`Writing.Plays.waits`: when a write waits for ever.
- {lit}`writing_is_faithful`: what arrives, what is counted, and what failures leave behind.
-/

namespace CreditFlow

/-- What a control that comes through the handle is to an outlet under traffic. -/
def Control.event? : Control → Option OutletEvent
  | .request n => some (.request 0 n)
  | .cancel => some .cancel
  | .release => none

namespace OutletTraffic

variable {t : OutletTraffic}

/-- The consumer gives several controls. -/
def relay (cs : List Control) (t : OutletTraffic) : OutletTraffic :=
  t.run (cs.filterMap Control.event?)

theorem relay_cons (c : Control) (cs : List Control) (t : OutletTraffic) :
    t.relay (c :: cs) = (t.relay [c]).relay cs := by
  cases c <;> rfl

/-- What the consumer does stands between what came before and what comes after. -/
theorem run_relay (before after : List OutletEvent) (cs : List Control) (t : OutletTraffic) :
    t.run (before ++ cs.filterMap Control.event? ++ after) =
      ((t.run before).relay cs).run after := by
  rw [run_append, run_append]
  rfl

/-- Controls reach nothing but the ledger. -/
theorem relay_eq (hhandle : t.hasHandle = true) (cs : List Control) :
    ∃ ledger grants, t.relay cs =
        { t with outlet := { t.outlet with ledger := ledger }, grants := grants } ∧
      ((Chain.writer t.outlet).controls cs).1 = .writer { t.outlet with ledger := ledger } := by
  induction cs generalizing t with
  | nil => exact ⟨t.outlet.ledger, t.grants, rfl, rfl⟩
  | cons c cs ih =>
      obtain ⟨ledger, hcontrol, -⟩ := t.outlet.control_eq c
      obtain ⟨grants, hfirst⟩ : ∃ grants, t.relay [c] =
          { t with outlet := (t.outlet.control c).1, grants := grants } := by
        cases c with
        | request n =>
            refine ⟨t.grants ++ [(0, n)], ?_⟩
            simp [relay, Control.event?, run_cons, step, hhandle]
        | cancel =>
            refine ⟨t.grants, ?_⟩
            simp [relay, Control.event?, run_cons, step, hhandle]
        | release =>
            have hsame : (t.outlet.control .release).1 = t.outlet := by
              unfold Outlet.control
              split <;> rfl
            exact ⟨t.grants, by rw [hsame]; rfl⟩
      have hstill : (t.relay [c]).hasHandle = true := by
        rw [hfirst]
        exact hhandle
      obtain ⟨last, granted, hrest, hchain⟩ := ih hstill
      refine ⟨last, granted, ?_, ?_⟩
      · rw [relay_cons, hrest, hfirst, hcontrol]
      · have hwriter : ((Chain.writer t.outlet).controls (c :: cs)).1 =
            ((Chain.writer (t.relay [c]).outlet).controls cs).1 := by
          rw [hfirst]
          rfl
        rw [hwriter, hchain, hfirst, hcontrol]

end OutletTraffic

namespace Line

open OutletTraffic (start_sound)

variable {l : Line} {t t' : OutletTraffic} {es : List Emission}

/-! ## What the listener does -/

/-- A listener is about to hear what traffic has written down as heard. -/
structure Hears (es : List Emission) (l : Line) (t : OutletTraffic) : Prop where
  chain : l.chain = .writer t.outlet
  sink : ∃ k, l.sink = .listener k
  handle : t.hasHandle = true
  heard : l.calls.filterMap Call.chunk? ++ es.filterMap Emission.item? = t.delivered

/-- Reactions do not write down calls. -/
@[simp]
theorem reactAll_calls (rs : List (Reaction Unit)) (l : Line) :
    (l.reactAll rs).calls = l.calls := by
  induction rs generalizing l with
  | nil => rfl
  | cons r rs ih =>
      refine (ih (l.react r)).trans ?_
      cases r <;> rfl

/-- Reactions of the listener reach the writer as controls of the consumer. -/
theorem Hears.reactAll (h : Hears es l t) (rs : List (Reaction Unit)) :
    Hears es (l.reactAll rs) (t.relay (Reaction.controls rs)) := by
  obtain ⟨hchain, hsink, -⟩ := reactAll_parts rs l
  obtain ⟨ledger, grants, hrelay, hcontrols⟩ :=
    OutletTraffic.relay_eq h.handle (Reaction.controls rs)
  constructor
  · rw [hchain, h.chain, hcontrols, hrelay]
  · rw [hsink]
    exact h.sink
  · rw [hrelay]
    exact h.handle
  · rw [reactAll_calls, hrelay]
    exact h.heard

/-- The item of a call is the item of what was emitted. -/
theorem chunk_call (e : Emission) :
    e.call?.toList.filterMap Call.chunk? = [e].filterMap Emission.item? := by
  cases e with
  | hangUp => rfl
  | signal s => cases s <;> rfl

/-- A listener puts down what it hears, and does what it does then. -/
theorem Hears.hear {e : Emission} (h : Hears (e :: es) l t) :
    ∃ cs, Hears es (l.hear e) (t.relay cs) := by
  obtain ⟨k, hk⟩ := h.sink
  have hsink : l.sink.hear e = (.listener (k.answer e).1,
      { calls := e.call?.toList, reactions := (k.answer e).2 }) := by
    rw [hk]
    cases e with
    | hangUp => rfl
    | signal s => cases s <;> rfl
  have hline : l.hear e =
      ({ l with
          sink := .listener (k.answer e).1
          calls := l.calls ++ e.call?.toList
          woken := l.woken || false } : Line).reactAll (k.answer e).2 := by
    simp only [Line.hear, hsink]
  have hstart : Hears es { l with
      sink := .listener (k.answer e).1
      calls := l.calls ++ e.call?.toList
      woken := l.woken || false } t := by
    refine ⟨h.chain, ⟨_, rfl⟩, h.handle, ?_⟩
    have hheard := h.heard
    rw [List.filterMap_append, chunk_call, List.append_assoc, ← List.filterMap_append]
    exact hheard
  rw [hline]
  exact ⟨_, hstart.reactAll _⟩

/-- What a listener does when it hears something is traffic. -/
theorem Hears.hears (h : Hears es l t) : ∃ cs, Hears [] (es.foldl Line.hear l) (t.relay cs) := by
  induction es generalizing l t with
  | nil => exact ⟨[], h⟩
  | cons e es ih =>
      obtain ⟨cs, hfirst⟩ := h.hear
      obtain ⟨later, hrest⟩ := ih hfirst
      refine ⟨cs ++ later, ?_⟩
      rw [OutletTraffic.relay, List.filterMap_append, OutletTraffic.run_append]
      exact hrest

/-- An operation at the writer tells the listener what it emits. -/
theorem atWriter_eq {o : Outlet} (hchain : l.chain = .writer o)
    (f : Outlet → Outlet × List Notice × List Emission) :
    l.atWriter f = (f o).2.2.foldl Line.hear
      (({ l with chain := .writer (f o).1 } : Line).note (f o).2.1) := by
  simp only [atWriter, hchain]
  rfl

/-- An operation that emits nothing stays at the writer. -/
theorem quietly_eq {o : Outlet} (hchain : l.chain = .writer o) (f : Outlet → Outlet × List Notice) :
    l.atWriter (quietly f) = ({ l with chain := .writer (f o).1 } : Line).note (f o).2 :=
  atWriter_eq hchain _

/-- What the writer emits the listener hears, and may answer at once. -/
theorem Hears.atWriter (h : Hears [] l t) (f : Outlet → Outlet × List Notice × List Emission)
    (t' : OutletTraffic)
    (houtlet : t'.outlet = (f t.outlet).1) (hheard : t'.heard = t.heard ++ (f t.outlet).2.2)
    (hhandle : t'.hasHandle = true) : ∃ cs, Hears [] (l.atWriter f) (t'.relay cs) := by
  rw [atWriter_eq h.chain]
  apply Hears.hears
  refine ⟨houtlet.symm ▸ rfl, h.sink, hhandle, ?_⟩
  have hbefore := h.heard
  rw [List.filterMap_nil, List.append_nil] at hbefore
  rw [OutletTraffic.delivered, hheard, List.filterMap_append]
  exact congrArg (· ++ _) hbefore

/-! ## Traffic that a line shows -/

/-- A line with a writer shows traffic.  Before the subscription nobody stands behind the
writer. -/
structure Shows (l : Line) (t : OutletTraffic) : Prop where
  chain : l.chain = .writer t.outlet
  heard : l.calls.filterMap Call.chunk? = t.delivered
  stands : l.sink = .nobody ∧ t.arrival = .absent ∨
    (∃ k, l.sink = .listener k) ∧ t.hasHandle = true

/-- A listener with nothing left to hear has heard what traffic has written down. -/
theorem Hears.shows (h : Hears [] l t) : Shows l t := by
  refine ⟨h.chain, ?_, .inr ⟨h.sink, h.handle⟩⟩
  have hheard := h.heard
  rwa [List.filterMap_nil, List.append_nil] at hheard

theorem Shows.hears (h : Shows l t) (hhandle : t.hasHandle = true) : Hears [] l t := by
  rcases h.stands with ⟨-, habsent⟩ | ⟨hsink, -⟩
  · simp [OutletTraffic.hasHandle, habsent] at hhandle
  · exact ⟨h.chain, hsink, hhandle, (List.append_nil _).trans h.heard⟩

/-- The consumer has a handle unless it is absent. -/
theorem handle_of_ne (hpresent : t.arrival ≠ .absent) : t.hasHandle = true := by
  simpa [OutletTraffic.hasHandle] using hpresent

/-- An operation that emits nothing shows traffic whose outlet is changed in the same way. -/
theorem Shows.quietly (h : Shows l t) {f : Outlet → Outlet × List Notice}
    (houtlet : t'.outlet = (f t.outlet).1) (hheard : t'.heard = t.heard)
    (harrival : t'.arrival = t.arrival) : Shows (l.atWriter (quietly f)) t' := by
  rw [quietly_eq h.chain]
  refine ⟨houtlet.symm ▸ rfl, ?_, ?_⟩
  · rw [OutletTraffic.delivered, hheard]
    exact h.heard
  · rw [OutletTraffic.hasHandle, harrival]
    exact h.stands

/-- An operation that emits something shows the same in traffic, with what the listener
does. -/
theorem Shows.atWriter (h : Shows l t) (f : Outlet → Outlet × List Notice × List Emission)
    (t' : OutletTraffic)
    (houtlet : t'.outlet = (f t.outlet).1) (hheard : t'.heard = t.heard ++ (f t.outlet).2.2)
    (harrival : t'.arrival = t.arrival) (hsilent : t.arrival = .absent → (f t.outlet).2.2 = []) :
    ∃ cs ledger grants, Shows (l.atWriter f) (t'.relay cs) ∧
      t'.relay cs =
        { t' with outlet := { t'.outlet with ledger := ledger }, grants := grants } := by
  by_cases habsent : t.arrival = .absent
  · refine ⟨[], t'.outlet.ledger, t'.grants, ?_, rfl⟩
    have hnothing := hsilent habsent
    rw [atWriter_eq h.chain, hnothing]
    refine ⟨houtlet.symm ▸ rfl, ?_, ?_⟩
    · change l.calls.filterMap Call.chunk? = t'.delivered
      rw [OutletTraffic.delivered, hheard, hnothing, List.append_nil]
      exact h.heard
    · change l.sink = .nobody ∧ t'.arrival = .absent ∨
        (∃ k, l.sink = .listener k) ∧ t'.hasHandle = true
      rw [OutletTraffic.hasHandle, harrival]
      exact h.stands
  · have hhandle : t'.hasHandle = true := handle_of_ne (harrival ▸ habsent)
    obtain ⟨cs, hhears⟩ := (h.hears (handle_of_ne habsent)).atWriter f t' houtlet hheard hhandle
    obtain ⟨ledger, grants, hrelay, -⟩ := OutletTraffic.relay_eq hhandle cs
    exact ⟨cs, ledger, grants, hhears.shows, hrelay⟩

/-! ## Between two steps -/

/-- No call is under way, and the body is kept by nobody but a consumer that is still to
come. -/
structure Rests (l : Line) (t : OutletTraffic) : Prop extends Shows l t where
  idle : t.stage = .idle
  unlocked : t.unlocked = true
  body : t.outlet.bodyHeld = true → t.arrival = .absent

/-- The line comes to rest again after some more traffic, in which pushes are answered. -/
def Reaches (l : Line) (t : OutletTraffic) (answers : List (Octets × Except Failure Unit)) :
    Prop :=
  ∃ events, Rests l (t.run events) ∧ (t.run events).pushes = t.pushes ++ answers

theorem Rests.reaches (h : Rests l t) : Reaches l t [] :=
  ⟨[], h, (List.append_nil _).symm⟩

theorem Reaches.of_run {events : List OutletEvent}
    {answers : List (Octets × Except Failure Unit)} (hrun : t.run events = t') (h : Rests l t')
    (hpushes : t'.pushes = t.pushes ++ answers) : Reaches l t answers :=
  ⟨events, hrun.symm ▸ h, hrun.symm ▸ hpushes⟩

/-- A line at rest is one on which the writer may begin a call, if it is there. -/
theorem Rests.ready (h : Rests l t) (hheld : t.outlet.writerHeld = true) : t.ready = true :=
  OutletTraffic.ready_iff.mpr ⟨hheld, h.idle⟩

/-- The listener acts between two calls, or while a call waits. -/
theorem Rests.act (h : Rests l t) (a : Act) : Reaches (Listening.act a l) t [] := by
  cases a with
  | interrupt =>
      exact ⟨[], ⟨⟨h.chain, h.heard, h.stands⟩, h.idle, h.unlocked, h.body⟩,
        (List.append_nil _).symm⟩
  | control c =>
      rcases h.stands with ⟨hnobody, -⟩ | ⟨⟨k, hk⟩, hhandle⟩
      · have hact : Listening.act (.control c) l = l := by
          have hsink : l.sink.perform (.control c) = (l.sink, []) := by
            rw [hnobody]
            rfl
          simp only [Listening.act, Line.perform, hsink]
          rfl
        rw [hact]
        exact h.reaches
      · have hact : Listening.act (.control c) l =
            ({ l with sink := .listener (k.perform (.control c)).1 } : Line).reactAll
              (k.perform (.control c)).2 := by
          simp only [Listening.act, Line.perform, hk, Sink.perform]
        have hstart : Hears [] ({ l with sink := .listener (k.perform (.control c)).1 } : Line) t :=
          ⟨h.chain, ⟨_, rfl⟩, hhandle, (List.append_nil _).trans h.heard⟩
        have hshows := (hstart.reactAll (k.perform (.control c)).2).shows
        obtain ⟨ledger, grants, hrelay, -⟩ :=
          OutletTraffic.relay_eq hhandle (Reaction.controls (k.perform (.control c)).2)
        rw [hrelay] at hshows
        rw [hact]
        apply Reaches.of_run hrelay
        · exact ⟨hshows, h.idle, h.unlocked, h.body⟩
        · exact (List.append_nil _).symm

/-- The body goes away. -/
theorem Rests.dropBody (h : Rests l t) :
    Reaches (l.atWriter (Line.quietly fun o => (o.dropBody, []))) t [] := by
  have hstep : t.run [.dropBody] = { t with outlet := t.outlet.dropBody } := by
    simp [OutletTraffic.run_cons, OutletTraffic.step, h.unlocked]
  apply Reaches.of_run hstep
  · refine ⟨h.toShows.quietly rfl rfl rfl, h.idle, h.unlocked, ?_⟩
    intro hheld
    cases hheld
  · exact (List.append_nil _).symm

/-- A push that finds credit and a consumer in place hands its item over, and the consumer does
what it does meanwhile. -/
theorem Rests.hands (h : Rests l t) (hready : t.ready = true) (hopen : t.outlet.closed = false)
    {item : Octets} {ledger : Ledger}
    (htake : t.outlet.ledger.take l.interrupted = some (.ok ledger))
    (hattached : t.outlet.downstream = .attached) (hpresent : t.arrival ≠ .absent) :
    ∃ l', l.push item = some (.ok (), l') ∧ Reaches l' t [(item, .ok ())] := by
  let holding : OutletTraffic :=
    { t with outlet := { t.outlet with ledger := ledger }, stage := .holding item }
  let handing : OutletTraffic :=
    { holding with stage := .handing item, heard := t.heard ++ [.signal (.next item)] }
  let charged := l.atWriter (Line.quietly fun o => ({ o with ledger := ledger }, []))
  let delivered := charged.atWriter fun o => (o, [], [.signal (.next item)])
  have hwriter : l.chain.writer? = some t.outlet := by
    rw [h.chain]
    rfl
  have hdeliver : t.outlet.deliver item = some [.signal (.next item)] := by
    rw [Outlet.deliver, hattached]
  have hpush : l.push item =
      some (.ok (), delivered.atWriter (Line.quietly (Outlet.counted item.length))) := by
    simp only [Line.push, hwriter, Option.bind_some, hopen, htake, Option.map_some, hdeliver]
    rfl
  have hfirst : t.step (.push item l.interrupted) = holding := by
    simp [OutletTraffic.step, hready, OutletTraffic.pushStep, hopen, htake, holding]
  have hsecond : holding.step .proceed = handing := by
    have hunlocked : holding.unlocked = true := h.unlocked
    have hstage : holding.stage = .holding item := rfl
    have hhands : holding.outlet.deliver item = some [.signal (.next item)] := hdeliver
    simp only [OutletTraffic.step, OutletTraffic.proceedStep, hstage, hhands]
    exact if_pos hunlocked
  have hcharged : Shows charged holding := h.toShows.quietly rfl rfl rfl
  obtain ⟨cs, last, grants, hdelivered, hrelay⟩ :=
    hcharged.atWriter (fun o => (o, [], [.signal (.next item)])) handing rfl rfl rfl
      fun habsent => absurd habsent hpresent
  have hthird : (handing.relay cs).step .proceed =
      { handing.relay cs with
        outlet := ((handing.relay cs).outlet.counted item.length).1 }.answerPush item (.ok ()) := by
    rw [hrelay]
    rfl
  have hevents : t.run ([.push item l.interrupted, .proceed] ++ cs.filterMap Control.event? ++
      [.proceed]) = { handing.relay cs with
        outlet := ((handing.relay cs).outlet.counted item.length).1 }.answerPush item (.ok ()) := by
    have hbefore : t.run [.push item l.interrupted, .proceed] = handing := by
      rw [OutletTraffic.run_cons, hfirst, OutletTraffic.run_cons, hsecond]
      rfl
    rw [OutletTraffic.run_relay, hbefore]
    exact hthird
  refine ⟨_, hpush, Reaches.of_run hevents ⟨?_, rfl, ?_, ?_⟩ ?_⟩
  · exact hdelivered.quietly rfl rfl rfl
  · rw [hrelay]
    exact h.unlocked
  · rw [hrelay]
    exact h.body
  · rw [hrelay]
    rfl

/-- A push waits, is refused at the outlet and leaves the line as it was, or goes through. -/
theorem Rests.push (h : Rests l t) (hvoiced : t.Voiced) (hsound : t.Sound)
    (hheld : t.outlet.writerHeld = true) (item : Octets) :
    l.push item = none ∨ l.push item = some (.error t.outlet.verdict, l) ∨
      ∃ l', l.push item = some (.ok (), l') ∧ Reaches l' t [(item, .ok ())] := by
  have hready := h.ready hheld
  have hwriter : l.chain.writer? = some t.outlet := by
    rw [h.chain]
    rfl
  by_cases hclosed : t.outlet.closed = true
  · refine .inr (.inl ?_)
    simp [Line.push, hwriter, hclosed, Outlet.verdict]
  · rw [Bool.not_eq_true] at hclosed
    cases htake : t.outlet.ledger.take l.interrupted with
    | none => exact .inl (by simp [Line.push, hwriter, hclosed, htake])
    | some taken =>
        cases taken with
        | error f =>
            refine .inr (.inl ?_)
            simp [Line.push, hwriter, hclosed, htake, Outlet.verdict, Ledger.take_error htake]
        | ok ledger =>
            obtain ⟨hlistening, -, hledger⟩ := Ledger.take_items htake
            have hattached : t.outlet.downstream = .attached := by
              by_contra hnobody
              have hholding := hsound.step (.push item l.interrupted)
              have hfirst : t.step (.push item l.interrupted) =
                  { t with
                    outlet := { t.outlet with ledger := ledger }
                    stage := .holding item } := by
                simp [OutletTraffic.step, hready, OutletTraffic.pushStep, hclosed, htake]
              rw [hfirst] at hholding
              have hcancelled := hholding.cancelled_of_unattached rfl h.unlocked hnobody
              change ledger.cancelled = true at hcancelled
              rw [hledger, hlistening] at hcancelled
              cases hcancelled
            have hpresent : t.arrival ≠ .absent := by
              intro habsent
              have hwaiting := hvoiced.early (by simp [habsent])
              rw [hattached] at hwaiting
              cases hwaiting
            exact .inr (.inr (h.hands hready hclosed htake hattached hpresent))

/-- The writer ends the stream: the end is put down, and then told to whoever is in place. -/
theorem Shows.finish (h : Shows l t) (hunlocked : t.unlocked = true)
    (hearly : t.arrival = .absent → t.outlet.downstream = .waiting) (f : Finish) :
    let ending := t.endStep f
    ∃ cs ledger grants, Shows (l.finish f t.outlet) ((ending.step .proceed).relay cs) ∧
      (ending.step .proceed).relay cs =
        { t with
          outlet := { (ending.outlet.conclude f t.outlet.ledger.cancelled).1 with ledger := ledger }
          stage := .departing f
          heard := t.heard ++ (ending.outlet.conclude f t.outlet.ledger.cancelled).2.2
          grants := grants } := by
  intro ending
  have hproceed : ending.step .proceed =
      { ending with
        outlet := (ending.outlet.conclude f t.outlet.ledger.cancelled).1
        stage := .departing f
        heard := t.heard ++ (ending.outlet.conclude f t.outlet.ledger.cancelled).2.2 } := by
    change (if ending.unlocked then _ else _) = _
    rw [if_pos (show ending.unlocked = true from hunlocked)]
    rfl
  have hput : Shows (l.atWriter (Line.quietly fun o => (o.putDown f, []))) ending :=
    h.quietly rfl rfl rfl
  have hsilent : ending.arrival = .absent →
      (ending.outlet.conclude f t.outlet.ledger.cancelled).2.2 = [] := by
    intro habsent
    have hwaiting : ending.outlet.downstream = .waiting := hearly habsent
    rw [Outlet.conclude, hwaiting]
  obtain ⟨cs, ledger, grants, hshows, hrelay⟩ :=
    hput.atWriter (Outlet.conclude f t.outlet.ledger.cancelled) (ending.step .proceed)
      (by rw [hproceed]) (by rw [hproceed]; rfl) (by rw [hproceed]) hsilent
  refine ⟨cs, ledger, grants, hshows, ?_⟩
  rw [hrelay, hproceed]
  rfl

/-- Closing is over when whoever was to be told has been told. -/
theorem Rests.closeWriter (h : Rests l t)
    (hearly : t.arrival = .absent → t.outlet.downstream = .waiting)
    (hheld : t.outlet.writerHeld = true) : Reaches l.closeWriter.2 t [] := by
  have hready := h.ready hheld
  have hwriter : l.chain.writer? = some t.outlet := by
    rw [h.chain]
    rfl
  by_cases hclosed : t.outlet.closed = true
  · have hnothing : l.closeWriter.2 = l := by simp [Line.closeWriter, hwriter, hclosed]
    rw [hnothing]
    exact h.reaches
  · let shut : OutletTraffic := { t with outlet := t.outlet.shut.1 }
    have hline : l.closeWriter.2 =
        (l.atWriter (Line.quietly Outlet.shut)).finish .complete shut.outlet := by
      simp only [Line.closeWriter, hwriter, if_neg hclosed]
      split <;> rfl
    have hfirst : t.step .close = shut.endStep .complete := by
      simp [OutletTraffic.step, hready, hclosed, shut]
    have hshut : Shows (l.atWriter (Line.quietly Outlet.shut)) shut :=
      h.toShows.quietly rfl rfl rfl
    obtain ⟨cs, ledger, grants, hshows, hrelay⟩ := hshut.finish h.unlocked hearly .complete
    rw [hrelay] at hshows
    have hevents : t.run ([.close, .proceed] ++ cs.filterMap Control.event? ++ [.proceed]) =
        (((shut.endStep .complete).step .proceed).relay cs).step .proceed := by
      have hbefore : t.run [.close, .proceed] = (shut.endStep .complete).step .proceed := by
        rw [OutletTraffic.run_cons, hfirst]
        rfl
      rw [OutletTraffic.run_relay, hbefore]
      rfl
    rw [hline]
    rw [hrelay] at hevents
    apply Reaches.of_run hevents
    · refine ⟨⟨hshows.chain, hshows.heard, hshows.stands⟩, rfl, h.unlocked, fun hbody => ?_⟩
      have hkept := (OutletTraffic.conclude_parts .complete t.outlet.ledger.cancelled
        (shut.endStep .complete).outlet).2
      exact h.body (hkept.symm.trans hbody)
    · exact (List.append_nil _).symm

/-- So is going away, which tells nobody of an end if the writer has closed before. -/
theorem Rests.dropWriter (h : Rests l t)
    (hearly : t.arrival = .absent → t.outlet.downstream = .waiting)
    (hheld : t.outlet.writerHeld = true) : Reaches l.dropWriter t [] := by
  have hready := h.ready hheld
  have hwriter : l.chain.writer? = some t.outlet := by
    rw [h.chain]
    rfl
  by_cases hclosed : t.outlet.closed = true
  · have hline : l.dropWriter = l.atWriter (Line.quietly fun o => (o.dropWriter, [])) := by
      simp [Line.dropWriter, hwriter, hclosed]
    have hstep : t.run [.leave] = { t with outlet := t.outlet.dropWriter } := by
      simp [OutletTraffic.run_cons, OutletTraffic.step, hready, hclosed]
    rw [hline]
    apply Reaches.of_run hstep
    · exact ⟨h.toShows.quietly rfl rfl rfl, h.idle, h.unlocked, h.body⟩
    · exact (List.append_nil _).symm
  · have hline : l.dropWriter = (l.finish .abandoned t.outlet).atWriter
        (Line.quietly fun o => (o.dropWriter, [])) := by
      simp [Line.dropWriter, hwriter, hclosed]
    have hfirst : t.step .leave = t.endStep .abandoned := by
      simp [OutletTraffic.step, hready, hclosed]
    obtain ⟨cs, ledger, grants, hshows, hrelay⟩ := h.toShows.finish h.unlocked hearly .abandoned
    have hevents : t.run ([.leave, .proceed] ++ cs.filterMap Control.event? ++ [.proceed]) =
        (((t.endStep .abandoned).step .proceed).relay cs).step .proceed := by
      have hbefore : t.run [.leave, .proceed] = (t.endStep .abandoned).step .proceed := by
        rw [OutletTraffic.run_cons, hfirst]
        rfl
      rw [OutletTraffic.run_relay, hbefore]
      rfl
    rw [hline]
    rw [hrelay] at hevents hshows
    apply Reaches.of_run hevents
    · refine ⟨hshows.quietly rfl rfl rfl, rfl, h.unlocked, fun hbody => ?_⟩
      have hkept := (OutletTraffic.conclude_parts .abandoned t.outlet.ledger.cancelled
        (t.endStep .abandoned).outlet).2
      exact h.body (hkept.symm.trans hbody)
    · exact (List.append_nil _).symm

/-- A listener subscribes: it is greeted, put in place unless it has cancelled or the stream
is over, and uses the body up. -/
theorem Rests.subscribe (h : Rests l t) (hbody : t.outlet.bodyHeld = true) (k : Listener) :
    Reaches ({ l with sink := .listener k } : Line).subscribe t [] := by
  have habsent := h.body hbody
  let greeting : OutletTraffic :=
    { t with arrival := .greeting, heard := t.heard ++ [.signal (.subscribed ())] }
  have hfirst : t.run [.subscribe] = greeting := by
    simp [OutletTraffic.run_cons, OutletTraffic.step, habsent, hbody, Outlet.greet, greeting]
  -- The greeting, with all that the listener does inside it.
  have hgreeted : ∃ cs, Hears [] (({ l with sink := .listener k } : Line).atWriter Outlet.greet)
      (greeting.relay cs) := by
    rw [atWriter_eq (l := { l with sink := .listener k }) h.chain]
    apply Hears.hears
    refine ⟨rfl, ⟨k, rfl⟩, rfl, ?_⟩
    rw [OutletTraffic.delivered, List.filterMap_append]
    exact congrArg (· ++ _) h.heard
  obtain ⟨cs, hgreets⟩ := hgreeted
  obtain ⟨ledger, grants, hrelay, -⟩ := OutletTraffic.relay_eq (t := greeting) rfl cs
  rw [hrelay] at hgreets
  -- The consumer is put in place, or told of the end.
  let greeted : OutletTraffic :=
    { greeting with outlet := { t.outlet with ledger := ledger }, grants := grants }
  let settled : OutletTraffic :=
    { greeted with
      outlet := (greeted.outlet.attach ledger).1
      arrival := .settled
      heard := greeted.heard ++ (greeted.outlet.attach ledger).2.2 }
  have harrives : greeted.run [.arrive, .arrive] = settled := rfl
  obtain ⟨later, hsettles⟩ :=
    hgreets.atWriter (fun o => o.attach o.ledger) settled rfl rfl rfl
  obtain ⟨last, granted, hrelays, -⟩ := OutletTraffic.relay_eq (t := settled) rfl later
  have hdrops : (settled.relay later).step .dropBody =
      { settled.relay later with outlet := (settled.relay later).outlet.dropBody } := by
    rw [hrelays]
    rfl
  have hevents : t.run ([.subscribe] ++ cs.filterMap Control.event? ++
      ([.arrive, .arrive] ++ later.filterMap Control.event? ++ [.dropBody])) =
        { settled.relay later with outlet := (settled.relay later).outlet.dropBody } := by
    rw [OutletTraffic.run_relay, hfirst, hrelay, OutletTraffic.run_relay, harrives]
    exact hdrops
  apply Reaches.of_run hevents
  · refine ⟨hsettles.shows.quietly rfl rfl rfl, ?_, ?_, ?_⟩
    · rw [hrelays]
      exact h.idle
    · rw [hrelays]
      rfl
    · intro hheld
      cases hheld
  · rw [hrelays]
    exact (List.append_nil _).symm

end Line

/-! ## Writing scenarios -/

/-- One thing that happens in a writing scenario. -/
inductive WritingMove where
  /-- A listener subscribes to the body. -/
  | subscribes (k : Listener)
  | dropsBody
  /-- The listener does something between two steps. -/
  | acts (a : Act)
  /-- The writer does something; `during` is what the listener does while it waits. -/
  | writes (s : WriterStep) (during : List Act)

namespace WritingMove

/-- The step of a scenario that it is. -/
def step : WritingMove → WriteStep
  | subscribes k => .subscribe k
  | dropsBody => .dropBody
  | acts a => .listener a
  | writes s during => .writer s during

/-- The item that it pushes, if any. -/
def item? : WritingMove → Option Octets
  | writes s _ => s.item?
  | _ => none

end WritingMove

/-- A writing scenario under way, with the items whose write was accepted so far. -/
structure Writing where
  line : Line
  accepted : List Octets := []

namespace Writing

/-- Nothing has happened yet. -/
def start (contentLength : Nat) (interrupted : Bool) : Writing :=
  { line := ({ contentLength := contentLength, interrupted := interrupted } : WriteScenario).start }

/-- Something happens, and is answered. -/
def step (w : Writing) (m : WritingMove) : Writing :=
  let carried := WriteScenario.carry m.step w.line
  { line := carried.2
    accepted := w.accepted ++ if carried.1.isAccepted then m.item?.toList else [] }

/-- What a list of moves comes to. -/
def run (moves : List WritingMove) (w : Writing) : Writing :=
  moves.foldl step w

/-- What the listener does leads from one line to another. -/
def acted (acts : List Act) (l : Line) : Line :=
  acts.foldl (fun l a => Listening.act a l) l

variable {l l' : Line} {n : Nat} {accepted : List Octets}

/-! ## Calls that wait -/

/-- A call that waits is answered after some of the others have acted, or never; then it would
have to wait however many of them have acted. -/
theorem awaitIn_cases {ω α : Type} (call : ω → Option (α × ω)) (helpers : List (ω → ω)) (w : ω) :
    (awaitIn call helpers w = none ∧ ∀ begun left, helpers = begun ++ left →
      call (begun.foldl (fun w helper => helper w) w) = none) ∨
      ∃ begun left answer, helpers = begun ++ left ∧
        call (begun.foldl (fun w helper => helper w) w) = some answer ∧
        awaitIn call helpers w = some (answer.1, ⟨answer.2, left⟩) := by
  induction helpers generalizing w with
  | nil =>
      cases hcall : call w with
      | none =>
          refine .inl ⟨by simp [awaitIn, hcall], fun begun left hsplit => ?_⟩
          obtain ⟨rfl, -⟩ := List.append_eq_nil_iff.mp hsplit.symm
          exact hcall
      | some answer => exact .inr ⟨[], [], answer, rfl, hcall, by simp [awaitIn, hcall]⟩
  | cons helper rest ih =>
      cases hcall : call w with
      | some answer =>
          exact .inr ⟨[], helper :: rest, answer, rfl, hcall, by simp [awaitIn, hcall]⟩
      | none =>
          have hnext : awaitIn call (helper :: rest) w = awaitIn call rest (helper w) := by
            rw [awaitIn.eq_def]
            simp [hcall]
          rw [hnext]
          rcases ih (helper w) with
            ⟨hnever, hwaits⟩ | ⟨begun, left, answer, hrest, hanswer, hawait⟩
          · refine .inl ⟨hnever, fun begun left hsplit => ?_⟩
            rcases List.cons_eq_append_iff.mp hsplit with ⟨rfl, -⟩ | ⟨begun, rfl, hrest⟩
            · exact hcall
            · exact hwaits begun left hrest
          · exact .inr ⟨helper :: begun, left, answer, congrArg (helper :: ·) hrest, hanswer,
              hawait⟩

/-- All that a step of the writer that pushes an item can come to. -/
inductive Writes (item : Octets) (during : List Act) (l : Line) : Reply × Line → Prop
  /-- It waits for ever, whatever the listener does meanwhile. -/
  | waits (hwaits : ∀ begun left, during = begun ++ left → (acted begun l).push item = none) :
      Writes item during l (.stuck, acted during l)
  /-- It is answered after the listener has done some of what it does meanwhile. -/
  | answers (begun left : List Act) (hduring : during = begun ++ left)
      (answer : Except Failure Unit) (l' : Line)
      (hpush : (acted begun l).push item = some (answer, l')) (r : Reply)
      (haccepted : r.isAccepted = true ↔ answer = .ok ())
      (hfailure : ∀ f, answer = .error f → r.failure? = some f) :
      Writes item during l (r, acted left l')

theorem foldl_acts (acts : List Act) (l : Line) :
    (acts.map fun a l => Listening.act a l).foldl (fun l helper => helper l) l = acted acts l :=
  List.foldl_map

/-- Every step that pushes an item is in the list. -/
theorem writes_carry {s : WriterStep} {item : Octets} (hitem : s.item? = some item)
    (hheld : Writer.isHeld l = true) (during : List Act) :
    Writes item during l (WriteScenario.carry (.writer s during) l) := by
  obtain ⟨reply, hstep, haccepted, hfailure⟩ := Writer.step_push hitem hheld
  simp only [WriteScenario.carry, Calling.carry, hstep]
  rcases awaitIn_cases (Line.push item) (during.map fun a l => Listening.act a l) l with
    ⟨hnever, hwaits⟩ | ⟨helped, helpers, answer, hsplit, hanswer, hawait⟩
  · rw [hnever, Option.map_none, foldl_acts]
    refine .waits fun begun left hduring => ?_
    rw [← foldl_acts]
    exact hwaits _ _ (hduring ▸ List.map_append)
  · obtain ⟨begun, left, hduring, rfl, rfl⟩ := List.map_eq_append_iff.mp hsplit
    rw [foldl_acts] at hanswer
    rw [hawait, Option.map_some]
    dsimp only
    rw [foldl_acts]
    exact .answers begun left hduring answer.1 answer.2 hanswer _ (haccepted _)
      fun f hf => by rw [hf]; exact hfailure f

/-- A write waits for ever if and only if its push would have to wait whenever it is tried. -/
theorem Writes.stuck_iff {item : Octets} {during : List Act} {carried : Reply × Line}
    (h : Writes item during l carried) :
    carried.1 = .stuck ↔ ∀ begun left, during = begun ++ left →
      (acted begun l).push item = none := by
  cases h with
  | waits hwaits => exact ⟨fun _ => hwaits, fun _ => rfl⟩
  | answers begun left hduring answer after hpush r haccepted hfailure =>
      constructor
      · rintro rfl
        cases answer with
        | ok u => cases haccepted.mpr rfl
        | error f => cases hfailure f rfl
      · intro hwaits
        rw [hwaits begun left hduring] at hpush
        cases hpush

/-! ## Runs -/

/-- A line is at rest, and shows a run of traffic in which these items were accepted. -/
def Plays (n : Nat) (l : Line) (accepted : List Octets) : Prop :=
  ∃ events, l.Rests ((OutletTraffic.start n).run events) ∧
    ((OutletTraffic.start n).run events).accepted = accepted

/-- A line that comes to rest again has accepted the pushes that went through meanwhile. -/
theorem plays_of_reaches {events : List OutletEvent}
    {answers : List (Octets × Except Failure Unit)}
    (haccepted : ((OutletTraffic.start n).run events).accepted = accepted)
    (h : l.Reaches ((OutletTraffic.start n).run events) answers) :
    Plays n l (accepted ++ answers.filterMap OutletTraffic.pushed?) := by
  obtain ⟨later, hrests, hpushes⟩ := h
  refine ⟨events ++ later, ?_, ?_⟩
  · rw [OutletTraffic.run_append]
    exact hrests
  · rw [OutletTraffic.run_append, OutletTraffic.accepted, hpushes, List.filterMap_append,
      ← haccepted]
    rfl

/-- More traffic in which nothing is pushed. -/
theorem Plays.still (h : Plays n l accepted)
    (hreaches : ∀ {t}, t.Voiced → l.Rests t → l'.Reaches t []) : Plays n l' accepted := by
  obtain ⟨events, hrests, haccepted⟩ := h
  have hafter := plays_of_reaches haccepted
    (hreaches (OutletTraffic.run_voiced n events) hrests)
  rwa [List.filterMap_nil, List.append_nil] at hafter

/-- What the listener does pushes nothing. -/
theorem Plays.act (h : Plays n l accepted) (a : Act) : Plays n (Listening.act a l) accepted :=
  h.still fun _ hrests => hrests.act a

/-- However much the listener does, it pushes nothing. -/
theorem Plays.acting (h : Plays n l accepted) (acts : List Act) :
    Plays n (acted acts l) accepted := by
  induction acts generalizing l with
  | nil => exact h
  | cons a acts ih => exact ih (h.act a)

/-- The writer that is there is the one of the traffic. -/
theorem isHeld_iff {o : Outlet} (hchain : l.chain = .writer o) :
    Writer.isHeld l = o.writerHeld := by
  rw [Writer.isHeld, hchain]
  exact Option.any_some

/-- A push has to wait exactly where the outlet starves. -/
theorem push_eq_none_iff {o : Outlet} (hchain : l.chain = .writer o) (item : Octets) :
    l.push item = none ↔ o.Starves l.interrupted := by
  rw [Line.push, hchain]
  cases hclosed : o.closed <;>
    simp [Chain.writer?, Outlet.Starves, hclosed, Ledger.take_eq_none_iff]

/-- A push that is told what the outlet is like was refused there. -/
theorem refuses_of_push {o : Outlet} (hchain : l.chain = .writer o) {item : Octets}
    (hpush : l.push item = some (.error o.verdict, l')) : o.Refuses l.interrupted := by
  rw [Line.push, hchain] at hpush
  by_cases hclosed : o.closed = true
  · exact .inl hclosed
  · cases htake : o.ledger.take l.interrupted with
    | none => simp [Chain.writer?, hclosed, htake] at hpush
    | some taken =>
        cases taken with
        | error f =>
            rcases Ledger.take_error_cases htake with ⟨hcancelled, -⟩ | ⟨-, hnothing, hfired, -⟩
            · exact .inr (.inl hcancelled)
            · exact .inr (.inr ⟨hnothing, hfired⟩)
        | ok ledger =>
            obtain ⟨hlistening, -, -⟩ := Ledger.take_items htake
            -- Nobody is attached, which is told as a cancellation, and nobody has cancelled.
            cases hdeliver : o.deliver item <;>
              simp [Chain.writer?, hclosed, htake, hdeliver, Outlet.verdict, hlistening] at hpush

/-- A push waits, is refused and leaves the line as it was, or is accepted. -/
theorem Plays.push (h : Plays n l accepted) (hheld : Writer.isHeld l = true) (item : Octets) :
    l.push item = none ∨
      (∃ o, l.chain = .writer o ∧ l.push item = some (.error o.verdict, l)) ∨
      ∃ l', l.push item = some (.ok (), l') ∧ Plays n l' (accepted ++ [item]) := by
  obtain ⟨events, hrests, haccepted⟩ := h
  rw [isHeld_iff hrests.chain] at hheld
  rcases hrests.push (OutletTraffic.run_voiced n events) (OutletTraffic.run_sound n events) hheld
    item with hwaits | hrefused | ⟨l', hpush, hreaches⟩
  · exact .inl hwaits
  · exact .inr (.inl ⟨_, hrests.chain, hrefused⟩)
  · exact .inr (.inr ⟨l', hpush, plays_of_reaches haccepted hreaches⟩)

/-- A step of the listener is refused, or is what the listener does. -/
theorem listens (a : Act) (l : Line) :
    (Listening.step a l).2 = l ∨ (Listening.step a l).2 = Listening.act a l := by
  unfold Listening.step
  split
  · exact .inl rfl
  · exact .inr rfl

/-- Controls of the consumer reach nothing but the ledger. -/
theorem controls_writer (cs : List Control) (o : Outlet) :
    ∃ ledger, ((Chain.writer o).controls cs).1 = .writer { o with ledger := ledger } := by
  induction cs generalizing o with
  | nil => exact ⟨o.ledger, rfl⟩
  | cons c cs ih =>
      obtain ⟨ledger, hcontrol, -⟩ := o.control_eq c
      obtain ⟨last, hrest⟩ := ih (o.control c).1
      refine ⟨last, hrest.trans ?_⟩
      rw [hcontrol]

/-- What the listener does reaches nothing but the ledger. -/
theorem acted_chain {o : Outlet} (hchain : l.chain = .writer o) (acts : List Act) :
    ∃ ledger, (acted acts l).chain = .writer { o with ledger := ledger } := by
  induction acts generalizing l o with
  | nil => exact ⟨o.ledger, hchain⟩
  | cons a acts ih =>
      obtain ⟨ledger, hfirst⟩ : ∃ ledger,
          (Listening.act a l).chain = .writer { o with ledger := ledger } := by
        cases a with
        | interrupt => exact ⟨o.ledger, hchain⟩
        | control c =>
            have hreacts : (Listening.act (.control c) l).chain = _ :=
              (Line.reactAll_parts _ _).1
            rw [hreacts, hchain]
            exact controls_writer _ o
      exact ih (o := { o with ledger := ledger }) hfirst

/-- Whatever the listener does, it does not drop the writer. -/
theorem acted_isHeld (h : Plays n l accepted) (acts : List Act) :
    Writer.isHeld (acted acts l) = Writer.isHeld l := by
  obtain ⟨events, hrests, -⟩ := h
  obtain ⟨ledger, hacting⟩ := acted_chain hrests.chain acts
  rw [isHeld_iff hacting, isHeld_iff hrests.chain]

/-! ## Steps -/

/-- A step that neither pushes nor ends the stream does nothing. -/
theorem carry_idle {s : WriterStep} (hitem : s.item? = none) (hfinish : s ≠ .finish)
    (hdrop : s ≠ .drop) (hheld : Writer.isHeld l = true) (during : List Act) :
    (WriteScenario.carry (.writer s during) l).2 = acted during l := by
  obtain ⟨reply, hperform⟩ := Writer.perform_idle hitem hfinish hdrop
    ⟨l, during.map fun a l => Listening.act a l⟩
  simp only [WriteScenario.carry, Calling.carry, Writer.step, hheld, if_true, hperform]
  exact foldl_acts during l

/-- A writer that exists closes the stream, and then the listener acts. -/
theorem carry_finish (hheld : Writer.isHeld l = true) (during : List Act) :
    (WriteScenario.carry (.writer .finish during) l).2 = acted during l.closeWriter.2 := by
  rw [← foldl_acts]
  simp [WriteScenario.carry, Calling.carry, Writer.step, hheld, Writer.perform, atOnce]

/-- A writer that exists goes away, and then the listener acts. -/
theorem carry_drop (hheld : Writer.isHeld l = true) (during : List Act) :
    (WriteScenario.carry (.writer .drop during) l).2 = acted during l.dropWriter := by
  rw [← foldl_acts]
  simp [WriteScenario.carry, Calling.carry, Writer.step, hheld, Writer.perform, atOnce]

/-- A writer that is gone does nothing. -/
theorem carry_gone (hgone : Writer.isHeld l = false) (s : WriterStep) (during : List Act) :
    let carried := WriteScenario.carry (.writer s during) l
    carried.1.isAccepted = false ∧ (carried.2 = l ∨ carried.2 = acted during l) := by
  by_cases hdrop : s = .drop
  · subst hdrop
    rw [← foldl_acts]
    simp [WriteScenario.carry, Calling.carry, Writer.step, hgone, Reply.isAccepted]
  · simp [WriteScenario.carry, Calling.carry, Writer.step, hgone, hdrop, Assisted.alone,
      Reply.isAccepted]

/-- Before a subscription nobody is in place and nobody was let go. -/
theorem waiting_of_absent {t : OutletTraffic} (hvoiced : t.Voiced) (habsent : t.arrival = .absent) :
    t.outlet.downstream = .waiting :=
  hvoiced.early (by simp [habsent])

/-- A step that pushes nothing adds nothing to what was accepted. -/
theorem Plays.quiet (h : Plays n l' accepted) {m : WritingMove} (hitem : m.item? = none)
    (b : Bool) : Plays n l' (accepted ++ if b then m.item?.toList else []) := by
  have hnothing : accepted ++ (if b then m.item?.toList else []) = accepted := by
    rw [hitem]
    cases b <;> exact List.append_nil _
  rwa [hnothing]

/-- What a step of the writer comes to is traffic. -/
theorem Plays.writes (h : Plays n l accepted) (s : WriterStep) (during : List Act) :
    let carried := WriteScenario.carry (.writer s during) l
    Plays n carried.2 (accepted ++ if carried.1.isAccepted then s.item?.toList else []) := by
  intro carried
  by_cases hheld : Writer.isHeld l = true
  · cases hitem : s.item? with
    | some item =>
        have hwrites := writes_carry hitem hheld during
        change Writes item during l carried at hwrites
        generalize carried = c at hwrites
        cases hwrites with
        | waits =>
            change Plays n (acted during l) (accepted ++ [])
            rw [List.append_nil]
            exact h.acting during
        | answers begun left hduring answer after hpush r haccepted hfailure =>
            have hbegun := h.acting begun
            have hstill : Writer.isHeld (acted begun l) = true :=
              (acted_isHeld h begun).trans hheld
            rcases hbegun.push hstill item with hwaits | ⟨o, -, hrefused⟩ | ⟨_, hok, hafter⟩
            · rw [hwaits] at hpush
              cases hpush
            · rw [hrefused] at hpush
              cases hpush
              have hnot : ¬r.isAccepted = true := by simp [haccepted]
              rw [if_neg hnot, List.append_nil]
              exact hbegun.acting left
            · rw [hok] at hpush
              cases hpush
              rw [if_pos (haccepted.mpr rfl)]
              exact hafter.acting left
    | none =>
        have hquiet : accepted ++ (if carried.1.isAccepted then (none : Option Octets).toList
            else []) = accepted := by
          split <;> exact List.append_nil _
        rw [hquiet]
        by_cases hfinish : s = .finish
        · subst hfinish
          change Plays n (WriteScenario.carry (.writer .finish during) l).2 accepted
          rw [carry_finish hheld]
          apply Plays.acting
          apply h.still
          intro t hvoiced hrests
          exact hrests.closeWriter (waiting_of_absent hvoiced) (isHeld_iff hrests.chain ▸ hheld)
        · by_cases hdrop : s = .drop
          · subst hdrop
            change Plays n (WriteScenario.carry (.writer .drop during) l).2 accepted
            rw [carry_drop hheld]
            apply Plays.acting
            apply h.still
            intro t hvoiced hrests
            exact hrests.dropWriter (waiting_of_absent hvoiced) (isHeld_iff hrests.chain ▸ hheld)
          · change Plays n (WriteScenario.carry (.writer s during) l).2 accepted
            rw [carry_idle hitem hfinish hdrop hheld]
            exact h.acting during
  · rw [Bool.not_eq_true] at hheld
    obtain ⟨hrefused, hline⟩ := carry_gone hheld s during
    have hnot : ¬carried.1.isAccepted = true := by
      rw [hrefused]
      exact Bool.false_ne_true
    rw [if_neg hnot, List.append_nil]
    rcases hline with hsame | hacted
    · exact hsame.symm ▸ h
    · exact hacted.symm ▸ h.acting during

/-- So is every move of a scenario. -/
theorem Plays.step {w : Writing} (h : Plays n w.line w.accepted) (m : WritingMove) :
    Plays n (w.step m).line (w.step m).accepted := by
  cases m with
  | subscribes k =>
      apply Plays.quiet _ rfl
      change Plays n (WriteScenario.carry (.subscribe k) w.line).2 w.accepted
      cases hbody : WriteScenario.body? w.line with
      | none =>
          simp only [WriteScenario.carry, hbody]
          exact h
      | some o =>
          simp only [WriteScenario.carry, hbody]
          apply h.still
          intro t _ hrests
          apply hrests.subscribe
          have hheld : (some t.outlet).filter Outlet.bodyHeld = some o := by
            have hwriter : w.line.chain.writer? = some t.outlet := by
              rw [hrests.chain]
              rfl
            rw [← hwriter]
            exact hbody
          obtain ⟨hsame, hkept⟩ := Option.filter_eq_some_iff.mp hheld
          cases hsame
          exact hkept
  | dropsBody =>
      apply Plays.quiet _ rfl
      exact h.still fun _ hrests => hrests.dropBody
  | acts a =>
      apply Plays.quiet _ rfl
      change Plays n (Listening.step a w.line).2 w.accepted
      rcases listens a w.line with hsame | hact
      · rw [hsame]
        exact h
      · rw [hact]
        exact h.act a
  | writes s during => exact h.writes s during

/-- A run of a writing scenario is a run of traffic. -/
theorem run_plays (contentLength : Nat) (interrupted : Bool) (moves : List WritingMove) :
    let w := (start contentLength interrupted).run moves
    Plays contentLength w.line w.accepted := by
  have hfirst : Plays contentLength (start contentLength interrupted).line [] :=
    ⟨[], ⟨⟨rfl, rfl, .inl ⟨rfl, rfl⟩⟩, rfl, rfl, fun _ => rfl⟩, rfl⟩
  have hrun : ∀ (moves : List WritingMove) (w : Writing), Plays contentLength w.line w.accepted →
      Plays contentLength (w.run moves).line (w.run moves).accepted := by
    intro moves
    induction moves with
    | nil => exact fun w h => h
    | cons m moves ih => exact fun w h => ih (w.step m) (h.step m)
  exact hrun moves _ hfirst

/-! ## What a writer is told -/

/-- What is true of the writes of a scenario. -/
structure Truthful (w : Writing) : Prop where
  /-- The listener has heard the items that were accepted, in order. -/
  heard : w.line.calls.filterMap Call.chunk? = w.accepted
  /-- The bytes that are counted are those of these items. -/
  written : ∃ o, w.line.chain = .writer o ∧ o.written = w.accepted.flatten.length
  /-- A step that pushes nothing, such as writing no bytes, leaves the line to the listener. -/
  idle : ∀ s during, Writer.isHeld w.line = true → s.item? = none → s ≠ .finish → s ≠ .drop →
    (WriteScenario.carry (.writer s during) w.line).2 = acted during w.line
  /-- A write waits for ever if and only if the outlet starves at the beginning and whatever
  the listener has done since: then the stream is open and not cancelled, there is no credit,
  and the token is not fired. -/
  waits : ∀ s during item, Writer.isHeld w.line = true → s.item? = some item →
    ((WriteScenario.carry (.writer s during) w.line).1 = .stuck ↔
      ∀ begun left, during = begun ++ left → ∃ o, (acted begun w.line).chain = .writer o ∧
        o.Starves (acted begun w.line).interrupted)
  /-- A write that is not accepted leaves the line to the listener, too.  It waits for ever, or
  it was refused at some moment while it waited, and says what the outlet was like then. -/
  refused : ∀ s during item, Writer.isHeld w.line = true → s.item? = some item →
    let carried := WriteScenario.carry (.writer s during) w.line
    carried.1.isAccepted = false → carried.2 = acted during w.line ∧
      (carried.1 = .stuck ∨ ∃ begun left o, during = begun ++ left ∧
        (acted begun w.line).chain = .writer o ∧ o.Refuses (acted begun w.line).interrupted ∧
          carried.1.failure? = some o.verdict)

theorem acted_append (begun left : List Act) (l : Line) :
    acted (begun ++ left) l = acted left (acted begun l) :=
  List.foldl_append

/-- A write waits for ever if and only if the outlet starves all the time. -/
theorem Plays.waits (h : Plays n l accepted) {s : WriterStep} {item : Octets}
    (hheld : Writer.isHeld l = true) (hitem : s.item? = some item) (during : List Act) :
    (WriteScenario.carry (.writer s during) l).1 = .stuck ↔
      ∀ begun left, during = begun ++ left → ∃ o, (acted begun l).chain = .writer o ∧
        o.Starves (acted begun l).interrupted := by
  rw [(writes_carry hitem hheld during).stuck_iff]
  refine forall_congr' fun begun => forall_congr' fun left => forall_congr' fun _ => ?_
  obtain ⟨events, hrests, -⟩ := h.acting begun
  rw [push_eq_none_iff hrests.chain, hrests.chain]
  constructor
  · exact fun hstarves => ⟨_, rfl, hstarves⟩
  · rintro ⟨o, hsame, hstarves⟩
    cases hsame
    exact hstarves

/-- A write that is not accepted leaves the line to the listener. -/
theorem Plays.refused (h : Plays n l accepted) {s : WriterStep} {item : Octets}
    (hheld : Writer.isHeld l = true) (hitem : s.item? = some item) (during : List Act) :
    let carried := WriteScenario.carry (.writer s during) l
    carried.1.isAccepted = false → carried.2 = acted during l ∧
      (carried.1 = .stuck ∨ ∃ begun left o, during = begun ++ left ∧
        (acted begun l).chain = .writer o ∧ o.Refuses (acted begun l).interrupted ∧
          carried.1.failure? = some o.verdict) := by
  intro carried hnot
  have hwrites := writes_carry hitem hheld during
  change Writes item during l carried at hwrites
  generalize carried = c at hwrites hnot
  cases hwrites with
  | waits => exact ⟨rfl, .inl rfl⟩
  | answers begun left hduring answer after hpush r haccepted hfailure =>
      have hstill : Writer.isHeld (acted begun l) = true := (acted_isHeld h begun).trans hheld
      rcases (h.acting begun).push hstill item with hwaits | ⟨o, hchain, hrefused⟩ | ⟨_, hok, -⟩
      · rw [hwaits] at hpush
        cases hpush
      · have hreason := refuses_of_push hchain hrefused
        rw [hrefused] at hpush
        cases hpush
        refine ⟨?_, .inr ⟨begun, left, o, hduring, hchain, hreason, hfailure _ rfl⟩⟩
        rw [hduring, acted_append]
      · rw [hok] at hpush
        cases hpush
        have haccept : r.isAccepted = true := haccepted.mpr rfl
        change r.isAccepted = false at hnot
        rw [haccept] at hnot
        cases hnot

/-- What is true of traffic is true of the writes of a scenario. -/
theorem Plays.truthful {w : Writing} (h : Plays n w.line w.accepted) : w.Truthful := by
  obtain ⟨events, hrests, haccepted⟩ := id h
  have htruthful := OutletTraffic.run_truthful n events
  constructor
  · rw [hrests.heard, htruthful.heard, hrests.idle, haccepted]
    exact List.append_nil _
  · exact ⟨_, hrests.chain, haccepted ▸ htruthful.written⟩
  · intro s during hheld hitem hfinish hdrop
    exact carry_idle hitem hfinish hdrop hheld during
  · intro s during item hheld hitem
    exact h.waits hheld hitem during
  · intro s during item hheld hitem
    exact h.refused hheld hitem during

end Writing

/-- Whatever a writer and a listener do in a scenario, and whatever happens between the steps
of their calls:

- a scenario is a run of traffic, with the same outlet, in which the same items are accepted;
- in a scenario the listener hears the items of the writes that were accepted, in order, and
  their bytes are counted; writing no bytes, and a write that fails, leave everything as it
  was but for what the listener does meanwhile, and a failure says what the outlet is like; a
  write waits for ever only if the outlet starves all the time;
- in traffic the same is true of pushes whose steps are apart, and a push that has taken its
  credit finds nobody attached only if the consumer has cancelled. -/
theorem writing_is_faithful (contentLength : Nat) :
    (∀ (interrupted : Bool) (moves : List WritingMove),
      let w := (Writing.start contentLength interrupted).run moves
      Writing.Plays contentLength w.line w.accepted ∧ w.Truthful) ∧
    ∀ events : List OutletEvent, OutletTraffic.Truthful (OutletTraffic.start contentLength) events
      ((OutletTraffic.start contentLength).run events) := by
  constructor
  · intro interrupted moves w
    have hplays := Writing.run_plays contentLength interrupted moves
    exact ⟨hplays, hplays.truthful⟩
  · exact OutletTraffic.run_truthful contentLength

end CreditFlow
