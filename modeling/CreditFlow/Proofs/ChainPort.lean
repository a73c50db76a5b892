import CreditFlow.Proofs.HopTurn
import CreditFlow.Proofs.Port
import CreditFlow.Proofs.SourceTurn
import Mathlib.Algebra.Ring.Nat
import Mathlib.Logic.Function.Iterate
import Mathlib.Tactic.Common

/-!
# The port behind a chain

A chain, seen from its end.  Its consumer sees a port, which says what can still come, and
its *backlog*, which says what will come: the items and the end that the writer has
signalled, or that the source has in store, and that are still on their way through the
hops.  A chain is *sound* when each of its hops is tuned to the port before it.

Every move inside a chain keeps it sound, tells its consumer what the port allows, and
takes what it tells from the front of the backlog.  Since a hop sees the chain before it
by its port and its backlog only, this is shown for one hop, and holds for any number of
them.

Main results:

- {lit}`Chain.Sound.control_request`, {lit}`Chain.Sound.control_release`: what a consumer
  may ask for, and when it may let go.
- {lit}`Chain.Moves.absorb`: what a hop hears of a move before it.
- {lit}`Chain.Sound.turn`: every turn of a sound chain moves it on.
- {lit}`Chain.Sound.atWriter`: so does what the writer signals.
-/

namespace CreditFlow

/-! ## Ports and backlogs -/

/-- What a pump lets its consumer be told. -/
def Pump.port (p : Pump) : Port :=
  match p.stage with
  | .fresh => .vacant
  | .leaving => .ended false
  | .over => .ended true
  | _ => .live (p.demand.items + p.grants.sum)

/-- What an outlet lets its consumer be told. -/
def Outlet.port (o : Outlet) : Port :=
  match o.downstream with
  | .waiting => .vacant
  | .attached => .live o.ledger.demand.items
  | .done => .ended true

/-- A signal as a hop relays it: only causes are marked. -/
def Signal.relayed : Signal Unit → Signal Unit
  | .error cause => .error cause.relayed
  | s => s

/-- The chunk of a signal, if it carries one. -/
def Signal.chunk? : Signal Unit → Option Octets
  | .next chunk => some chunk
  | _ => none

/-- The bytes of several signals. -/
def Signal.bytes (sigs : List (Signal Unit)) : Octets :=
  (sigs.filterMap chunk?).flatten

/-- What a source has in store: its chunks, and then its failure or its end. -/
def Source.cargo (s : Source) : List (Signal Unit) :=
  (Item.chunks s.items).map .next ++
    match Item.failure? s.items with
    | some cause => [.error cause]
    | none => if s.isOpen then [] else [.complete]

@[simp]
theorem Signal.relayed_chunk? (sig : Signal Unit) : sig.relayed.chunk? = sig.chunk? := by
  cases sig <;> rfl

namespace Chain

/-- What a chain lets its consumer be told. -/
def port : Chain → Port
  | writer o => o.port
  | source _ p => p.port
  | player _ => .vacant
  | hop _ _ p => p.port

/-- The items and the end that are on their way through a chain, the first to arrive
first, as its consumer will be told of them.  All that a source has in store is on its
way. -/
def backlog : Chain → List (Signal Unit)
  | source s p => if p.port.isEnded then [] else s.cargo
  | hop before s p =>
      if p.port.isEnded then [] else (s.cargo ++ before.backlog).map Signal.relayed
  | _ => []

/-- After the end nothing is on its way. -/
theorem backlog_of_ended {c : Chain} (hended : c.port.isEnded = true) : c.backlog = [] := by
  cases c with
  | hop before s p => exact if_pos hended
  | writer o => rfl
  | source s p => exact if_pos hended
  | player p => rfl

end Chain

/-! ## Sound chains -/

/-- The writer serves one consumer: it has subscribed and not cancelled, and hears of the
end as soon as there is one. -/
structure Outlet.Serving (o : Outlet) : Prop where
  uncancelled : o.ledger.cancelled = false
  subscribed : o.downstream ≠ .waiting
  opened : o.downstream = .attached →
    o.ledger.finish = none ∧ o.closed = false ∧ o.writerHeld = true ∧ o.ledger.demand.items ≤ 1
  ended : o.downstream = .done →
    ∃ f, o.ledger.finish = some f ∧ (o.closed = true ↔ f = .complete)

/-- A pump serves one consumer, who keeps the handle until the end and asks for one item at a
time. -/
structure Pump.Serves (p : Pump) : Prop where
  uncancelled : p.cancelled = false
  positive : 0 ∉ p.grants
  window : p.port.isEnded = false → p.demand.items + p.grants.sum ≤ 1
  fresh : p.stage = .fresh → p.demand.items + p.grants.sum = 0
  held : p.port.isEnded = false → p.held = true
  polling : p.stage = .polling → 0 < p.demand.items

/-- A pump and its stream work together: the pump ends its own stream exactly when the one
that it pulls has ended, and then lets go of it. -/
structure Pump.Fits (s : PullStream Unit) (p : Pump) : Prop extends p.Serves where
  done_eq : s.done = p.port.isEnded
  dropped_iff : s.dropped = true ↔ p.stage = .over

namespace Chain

/-- Every hop of the chain is tuned to the port before it, up to the writer or the pumped
source. -/
def Sound : Chain → Prop
  | writer o => o.Serving
  | source _ p => p.Serves
  | hop before s p => before.Sound ∧ s.Tuned before.port ∧ p.Fits s
  | _ => False

/-- A new pump serves whoever will be greeted. -/
theorem serves_empty : ({} : Pump).Serves := by
  constructor <;> simp [Pump.port, Port.isEnded, Demand.zero_items]

/-- A new hop fits its new stream. -/
theorem fits_empty : ({} : Pump).Fits {} :=
  ⟨serves_empty, rfl, by simp⟩

/-! ## Controls -/

/-- A request reaches a writer that has not ended its stream. -/
theorem control_request_serving {o : Outlet} (h : o.Serving)
    (hport : o.port = .live 0 ∨ o.port.isEnded = true) :
    (o.control (.request 1)).1.Serving ∧ (o.control (.request 1)).1.port = o.port.grant := by
  have hopen : o.ledger.cancelled = false := h.uncancelled
  have hrequest : (o.ledger.request 1).1 =
      { o.ledger with demand := o.ledger.demand.grant 1 } := by
    simp [Ledger.request, hopen]
  have hgranted : (o.writerHeld || o.bodyHeld) = true → (o.control (.request 1)).1 =
      { o with ledger := { o.ledger with demand := o.ledger.demand.grant 1 } } := by
    intro halive
    simp only [Outlet.control, halive, if_true, hrequest]
  cases hdown : o.downstream with
  | waiting => exact absurd hdown h.subscribed
  | attached =>
      rcases h.opened hdown with ⟨hfinish, hclosed, hheld, hle⟩
      have hzero : o.ledger.demand.items = 0 := by
        rcases hport with hlive | hended
        · simpa [Outlet.port, hdown] using hlive
        · simp [Outlet.port, hdown, Port.isEnded] at hended
      have hone : (o.ledger.demand.grant 1).items = 1 := by
        simp [hzero, Demand.ceiling, UInt64.size]
      rw [hgranted (by rw [hheld, Bool.true_or])]
      refine ⟨⟨hopen, h.subscribed, fun _ => ⟨hfinish, hclosed, hheld, Nat.le_of_eq hone⟩,
        fun hdone => ?_⟩, ?_⟩
      · rw [show o.downstream = .done from hdone] at hdown
        cases hdown
      · simp only [Outlet.port, hdown, hone, hzero, Port.grant]
  | done =>
      rcases h.ended hdown with ⟨f, hfinish, hclosed⟩
      have hkept : ∀ o' : Outlet, o'.downstream = .done → o'.ledger.cancelled = false →
          o'.ledger.finish = some f → o'.closed = o.closed →
            o'.Serving ∧ o'.port = o.port.grant := by
        intro o' hdown' hopen' hfinish' hclosed'
        refine ⟨⟨hopen', by simp [hdown'], by simp [hdown'], fun _ => ⟨f, hfinish', ?_⟩⟩, ?_⟩
        · rw [hclosed']
          exact hclosed
        · simp only [Outlet.port, hdown, hdown', Port.grant]
      by_cases halive : (o.writerHeld || o.bodyHeld) = true
      · rw [hgranted halive]
        exact hkept _ hdown hopen hfinish rfl
      · have hsame : (o.control (.request 1)).1 = o := by
          rw [Outlet.control, if_neg halive]
        rw [hsame]
        exact hkept o hdown hopen hfinish rfl

/-- A request reaches a pump that has not ended its stream. -/
theorem control_request_serves {p : Pump} (h : p.Serves)
    (hport : p.port = .live 0 ∨ p.port.isEnded = true) :
    (p.control (.request 1)).1.Serves ∧ (p.control (.request 1)).1.port = p.port.grant := by
  unfold Pump.control
  by_cases hover : p.stage = .over
  · rw [if_pos hover]
    exact ⟨h, by simp [Pump.port, hover, Port.grant]⟩
  · rw [if_neg hover]
    have hgranted : ∀ sleep, { p with grants := p.grants ++ [1], sleep := sleep }.Serves ∧
        { p with grants := p.grants ++ [1], sleep := sleep }.port = p.port.grant := by
      intro sleep
      have hsum : p.demand.items + (p.grants ++ [1]).sum = p.demand.items + p.grants.sum + 1 := by
        simp [Nat.add_assoc]
      have hgrant : { p with grants := p.grants ++ [1], sleep := sleep }.port = p.port.grant := by
        cases hstage : p.stage with
        | fresh =>
            rcases hport with hlive | hended
            · simp [Pump.port, hstage] at hlive
            · simp [Pump.port, hstage, Port.isEnded] at hended
        | leaving => simp only [Pump.port, hstage, Port.grant]
        | «over» => exact absurd hstage hover
        | greeted => simp only [Pump.port, hstage, Port.grant, hsum]
        | between => simp only [Pump.port, hstage, Port.grant, hsum]
        | polling => simp only [Pump.port, hstage, Port.grant, hsum]
        | signalled => simp only [Pump.port, hstage, Port.grant, hsum]
      have hsame : { p with grants := p.grants ++ [1], sleep := sleep }.port.isEnded =
          p.port.isEnded := by
        rw [hgrant]
        cases p.port <;> rfl
      refine ⟨⟨h.uncancelled, ?_, ?_, ?_, ?_, h.polling⟩, hgrant⟩
      · simpa using h.positive
      · intro hopen
        rw [hsame] at hopen
        change p.demand.items + (p.grants ++ [1]).sum ≤ 1
        rcases hport with hlive | hended
        · have hzero : p.demand.items + p.grants.sum = 0 := by
            cases hstage : p.stage <;> simp [Pump.port, hstage] at hlive <;> omega
          omega
        · rw [hopen] at hended
          cases hended
      · intro hfresh
        rcases hport with hlive | hended
        · simp [Pump.port, show p.stage = .fresh from hfresh] at hlive
        · simp [Pump.port, show p.stage = .fresh from hfresh, Port.isEnded] at hended
      · rw [hsame]
        exact h.held
    by_cases hsleep : p.sleep = some .forGrant
    · simp only [hsleep, if_true]
      exact hgranted none
    · simp only [hsleep, if_false]
      exact hgranted p.sleep

/-- Being granted more ends nothing. -/
@[simp]
theorem grant_isEnded (q : Port) : q.grant.isEnded = q.isEnded := by
  cases q <;> rfl

/-- A request for one item fits a pump that owes none, and is granted. -/
theorem control_request_fits {s : PullStream Unit} {p : Pump} (h : p.Fits s)
    (hport : p.port = .live 0 ∨ p.port.isEnded = true) :
    (p.control (.request 1)).1.Fits s ∧ (p.control (.request 1)).1.port = p.port.grant := by
  rcases control_request_serves h.toServes hport with ⟨hserves, hgrant⟩
  refine ⟨⟨hserves, ?_, ?_⟩, hgrant⟩
  · rw [hgrant, grant_isEnded]
    exact h.done_eq
  · rw [Pump.control_stage]
    exact h.dropped_iff

/-- A pump that has ended its stream does without its handle. -/
theorem control_release_serves {p : Pump} (h : p.Serves) (hended : p.port.isEnded = true) :
    (p.control .release).1.Serves ∧ (p.control .release).1.port = p.port := by
  have hreleased : ∀ sleep, { p with held := false, sleep := sleep }.Serves := by
    intro sleep
    refine ⟨h.uncancelled, h.positive, h.window, h.fresh, fun hopen => ?_, h.polling⟩
    rw [show p.port.isEnded = false from hopen] at hended
    cases hended
  unfold Pump.control
  by_cases hover : p.stage = .over
  · rw [if_pos hover]
    exact ⟨h, rfl⟩
  · rw [if_neg hover]
    by_cases hsleep : p.sleep = some .forGrant
    · simp only [hsleep, if_true]
      exact ⟨hreleased none, rfl⟩
    · simp only [hsleep, if_false]
      exact ⟨hreleased p.sleep, rfl⟩

/-- A consumer without credit may ask for one item, and one that has been told of the end
may ask for nothing in vain. -/
theorem Sound.control_request {c : Chain} (h : c.Sound)
    (hport : c.port = .live 0 ∨ c.port.isEnded = true) :
    (c.control (.request 1)).1.Sound ∧ (c.control (.request 1)).1.port = c.port.grant ∧
      (c.control (.request 1)).1.backlog = c.backlog := by
  cases c with
  | writer o =>
      rcases control_request_serving h hport with ⟨hserving, hgrant⟩
      exact ⟨hserving, hgrant, rfl⟩
  | source s p =>
      rcases control_request_serves h hport with ⟨hserves, hgrant⟩
      refine ⟨hserves, hgrant, ?_⟩
      simp only [control, backlog, hgrant, grant_isEnded]
  | player p => exact h.elim
  | hop before s p =>
      rcases h with ⟨hbefore, htuned, hfits⟩
      rcases control_request_fits hfits hport with ⟨hfits', hgrant⟩
      refine ⟨⟨hbefore, htuned, hfits'⟩, hgrant, ?_⟩
      simp only [control, backlog, hgrant, grant_isEnded]

/-- A consumer may let go of its handle after the end. -/
theorem Sound.control_release {c : Chain} (h : c.Sound) (hended : c.port.isEnded = true) :
    (c.control .release).1.Sound ∧ (c.control .release).1.port = c.port ∧
      (c.control .release).1.backlog = c.backlog := by
  cases c with
  | writer o =>
      have hsame : (o.control .release).1 = o := by
        unfold Outlet.control
        split <;> rfl
      have hcontrol : (control .release (writer o)).1 = writer o := congrArg writer hsame
      rw [hcontrol]
      exact ⟨h, rfl, rfl⟩
  | source s p =>
      rcases control_release_serves h hended with ⟨hserves, hport⟩
      refine ⟨hserves, hport, ?_⟩
      simp only [control, backlog, hport]
  | player p => exact h.elim
  | hop before s p =>
      rcases h with ⟨hbefore, htuned, hfits⟩
      rcases control_release_serves hfits.toServes hended with ⟨hserves, hport⟩
      refine ⟨⟨hbefore, htuned, hserves, ?_, ?_⟩, hport, ?_⟩
      · rw [hport]
        exact hfits.done_eq
      · rw [Pump.control_stage]
        exact hfits.dropped_iff
      · simp only [control, backlog, hport]

/-- Letting go of a publisher that has ended changes nothing of what is on its way. -/
theorem Sound.controls_release {c : Chain} (h : c.Sound) (hended : c.port.isEnded = true)
    {cs : List Control} (hrelease : ∀ control ∈ cs, control = .release) :
    (c.controls cs).1.Sound ∧ (c.controls cs).1.port = c.port ∧
      (c.controls cs).1.backlog = c.backlog := by
  induction cs generalizing c with
  | nil => exact ⟨h, rfl, rfl⟩
  | cons control cs ih =>
      have hfirst := hrelease control List.mem_cons_self
      subst hfirst
      rcases h.control_release hended with ⟨hsound, hport, hbacklog⟩
      obtain ⟨hsound', hport', hbacklog'⟩ := ih hsound (by rw [hport]; exact hended)
        fun control hmem => hrelease control (List.mem_cons_of_mem _ hmem)
      exact ⟨hsound', hport'.trans hport, hbacklog'.trans hbacklog⟩

end Chain

/-! ## Hearing -/

/-- The pump is woken for its stream, if anyone sleeps for it. -/
def Pump.rouse (woken : Bool) (p : Pump) : Pump × Bool :=
  if woken then p.streamReady else (p, false)

/-- Being woken changes nothing but the sleep. -/
theorem Pump.rouse_eq (woken : Bool) (p : Pump) :
    ∃ sleep, (p.rouse woken).1 = { p with sleep := sleep } := by
  unfold rouse streamReady
  split
  · split
    · exact ⟨none, rfl⟩
    · exact ⟨p.sleep, rfl⟩
  · exact ⟨p.sleep, rfl⟩

@[simp]
theorem Pump.rouse_port (woken : Bool) (p : Pump) : (p.rouse woken).1.port = p.port := by
  rcases p.rouse_eq woken with ⟨sleep, hrouse⟩
  rw [hrouse]
  rfl

/-- What a pump sleeps for does not matter to those whom it serves. -/
theorem Pump.Serves.of_sleep {p : Pump} (h : p.Serves) (sleep : Option Sleep) :
    { p with sleep := sleep }.Serves :=
  ⟨h.uncancelled, h.positive, h.window, h.fresh, h.held, h.polling⟩

/-- Being woken for its stream leaves a pump with the consumer that it serves. -/
theorem Pump.Serves.streamReady {p : Pump} (h : p.Serves) :
    p.streamReady.1.Serves ∧ p.streamReady.1.port = p.port := by
  unfold Pump.streamReady
  split
  · exact ⟨h.of_sleep none, rfl⟩
  · exact ⟨h, rfl⟩

/-- Only what a pump knows of its stream and its consumer decides whether it fits. -/
theorem Pump.Fits.of_eq {s s' : PullStream Unit} {p : Pump} (h : p.Fits s)
    (hdone : s'.done = s.done) (hdropped : s'.dropped = s.dropped) (sleep : Option Sleep) :
    { p with sleep := sleep }.Fits s' := by
  refine ⟨h.toServes.of_sleep sleep, ?_, ?_⟩
  · rw [hdone]
    exact h.done_eq
  · rw [hdropped]
    exact h.dropped_iff

/-- Waking a pump for its stream keeps the two together. -/
theorem Pump.Fits.rouse {s s' : PullStream Unit} {p : Pump} (h : p.Fits s)
    (hdone : s'.done = s.done) (hdropped : s'.dropped = s.dropped) (woken : Bool) :
    (p.rouse woken).1.Fits s' := by
  rcases p.rouse_eq woken with ⟨sleep, hrouse⟩
  rw [hrouse]
  exact h.of_eq hdone hdropped sleep

namespace Chain

/-- What a hop makes of one thing that its port allows. -/
theorem hopHear_tuned (before : Chain) {s : PullStream Unit} {q q' : Port}
    (htuned : s.Tuned q) {e : Emission} (hemit : q.emit e = some q') (p : Pump) :
    ∃ s' woken,
      hopHear before s p e =
          (hop before s' (p.rouse woken).1,
            { wakes := wakeIf (p.rouse woken).2 (before.hops + 1) }) ∧
        s'.Tuned q' ∧ s'.cargo = s.cargo ++ Emission.cargo [e] ∧ s'.done = s.done ∧
        s'.dropped = s.dropped ∧ s'.subscription = s.subscription ∧
        (s.dropped = false → woken = s.parked) := by
  cases e with
  | signal sig =>
      rcases htuned.hear hemit with ⟨hhear, -, -, htuned'⟩
      refine ⟨_, s.parked, ?_, htuned', ?_, rfl, rfl, rfl, fun _ => rfl⟩
      · simp only [hopHear, hhear, List.map_nil, controls, List.nil_append]
        rfl
      · simp [PullStream.cargo]
  | hangUp =>
      refine ⟨s.hangUp.1, s.hangUp.2, rfl, htuned.hangUp hemit, ?_, ?_, ?_, ?_, ?_⟩
      · have hinbox : s.hangUp.1.inbox = s.inbox := by
          unfold PullStream.hangUp
          split <;> rfl
        simp [PullStream.cargo, hinbox, Emission.cargo, Emission.cargo?]
      · unfold PullStream.hangUp
        split <;> rfl
      · unfold PullStream.hangUp
        split <;> rfl
      · unfold PullStream.hangUp
        split <;> rfl
      · intro hkept
        simp [PullStream.hangUp, htuned.connected_of_emit hemit hkept]

/-- What a hop makes of all that its port allows: it has the cargo in its inbox, and tells
nobody. -/
theorem hear_tuned {before : Chain} {s : PullStream Unit} {p : Pump} {q : Port}
    (htuned : s.Tuned q) (hfits : p.Fits s) {es : List Emission}
    (hemits : q.emits es = some before.port) :
    ∃ s' p' wakes,
      hear es (hop before s p) = (hop before s' p', { wakes := wakes }) ∧
        s'.Tuned before.port ∧ p'.Fits s' ∧ p'.port = p.port ∧ s'.subscription = s.subscription ∧
        s'.cargo = s.cargo ++ Emission.cargo es := by
  induction es generalizing s p q with
  | nil =>
      cases hemits
      exact ⟨s, p, [], rfl, htuned, hfits, rfl, rfl, (List.append_nil _).symm⟩
  | cons e es ih =>
      rw [Port.emits_cons] at hemits
      rcases Option.bind_eq_some_iff.mp hemits with ⟨q', hemit, hrest⟩
      obtain ⟨s₁, woken, hfirst, htuned₁, hcargo₁, hdone, hdropped, hsub₁, -⟩ :=
        hopHear_tuned before htuned hemit p
      obtain ⟨s', p', wakes, hothers, htuned', hfits', hport, hsub, hcargo⟩ :=
        ih htuned₁ (hfits.rouse hdone hdropped woken) hrest
      refine ⟨s', p', wakeIf (p.rouse woken).2 (before.hops + 1) ++ wakes, ?_, htuned', hfits',
        ?_, hsub.trans hsub₁, ?_⟩
      · simp only [hear, hfirst, hothers]
        rfl
      · rw [hport, Pump.rouse_port]
      · rw [hcargo, hcargo₁, List.append_assoc, ← Emission.cargo_append]
        rfl

/-! ## Moves -/

/-- What one move comes to: the chain stays sound, its consumer is told what the port
allows, and that is taken from the front of what was on its way or is new. -/
structure Moves (new : List (Signal Unit)) (c : Chain) (r : Chain × Burst) : Prop where
  sound : r.1.Sound
  emits : c.port.emits r.2.emissions = some r.1.port
  kept : Emission.cargo r.2.emissions ++ r.1.backlog = c.backlog ++ new

/-- A hop moves on with the chain before it, and tells nobody yet. -/
theorem Moves.absorb {new : List (Signal Unit)} {before : Chain} {r : Chain × Burst}
    (hmoves : Moves new before r) {s : PullStream Unit} {p : Pump}
    (h : (hop before s p).Sound) :
    Moves (new.map Signal.relayed) (hop before s p) (Chain.absorb s p r) := by
  rcases h with ⟨-, htuned, hfits⟩
  obtain ⟨s', p', wakes, hhear, htuned', hfits', hport, -, hcargo⟩ :=
    hear_tuned htuned hfits hmoves.emits
  have hall : s'.cargo ++ r.1.backlog = s.cargo ++ before.backlog ++ new := by
    rw [hcargo, List.append_assoc, hmoves.kept, List.append_assoc]
  have hemissions : (Chain.absorb s p r).2.emissions = [] := rfl
  have hafter : (Chain.absorb s p r).1 = hop r.1 s' p' := by
    rw [Chain.absorb, hhear]
  refine ⟨?_, ?_, ?_⟩
  · rw [hafter]
    exact ⟨hmoves.sound, htuned', hfits'⟩
  · rw [hemissions, hafter]
    exact congrArg some hport.symm
  · rw [hemissions, hafter]
    change (hop r.1 s' p').backlog = (hop before s p).backlog ++ new.map Signal.relayed
    by_cases hended : p.port.isEnded = true
    · -- The pump has ended because its stream has, so the chain before it has nothing more.
      have hbefore := htuned.ended_of_done (by rw [hfits.done_eq, hended])
      rcases Port.isEnded_iff.mp hbefore with ⟨gone, hgone⟩
      have hemits := hmoves.emits
      rw [hgone] at hemits
      rcases Port.emits_of_ended hemits with ⟨hafter, hnone⟩
      have hkept := hmoves.kept
      rw [hnone, backlog_of_ended hafter, backlog_of_ended hbefore] at hkept
      have hnew : new = [] := hkept.symm
      rw [hnew, List.map_nil, List.append_nil, backlog_of_ended (c := hop before s p) hended]
      exact if_pos (by rw [hport, hended])
    · have hopen : p.port.isEnded = false := by simpa using hended
      simp only [backlog, hport, hopen, Bool.false_eq_true, if_false]
      rw [hall, List.map_append]

end Chain

/-! ## Turns of a pump -/

namespace Pump

variable {s : PullStream Unit} {p p' : Pump}

/-- A pump that polls may be told to go on. -/
theorem port_of_polling (hstage : p.stage = .polling) :
    p.port = .live (p.demand.items + p.grants.sum) := by
  simp only [port, hstage]

/-- A pump that polls has demand, and has not ended its stream. -/
theorem Serves.polls (h : p.Serves) (hpolls : p.Polls p') :
    p'.Serves ∧ p'.port = p.port ∧ p.port.isEnded = false ∧ p.stage ≠ .over := by
  cases hpolls with
  | begins hstage hdemand hopen =>
      have hlive : p.port.isEnded = false := by simp [port, hstage, Port.isEnded]
      refine ⟨⟨h.uncancelled, h.positive, fun _ => h.window hlive, ?_, fun _ => h.held hlive,
        fun _ => hdemand⟩, ?_, hlive, by simp [hstage]⟩
      · simp
      · simp only [port, hstage]
  | goesOn hstage => exact ⟨h, rfl, by simp [port, hstage, Port.isEnded], by simp [hstage]⟩

/-- A pump may take grants and change its place as long as it does not end. -/
theorem Serves.goesOn (h : p.Serves) (hopen : p.port.isEnded = false)
    (hcancelled : p'.cancelled = p.cancelled) (hheld : p'.held = p.held)
    (hpositive : 0 ∉ p'.grants)
    (hwindow : p'.demand.items + p'.grants.sum ≤ p.demand.items + p.grants.sum)
    (hstage : p'.stage = .greeted ∨ p'.stage = .between ∨ p'.stage = .signalled) :
    p'.Serves := by
  have hbefore := h.window hopen
  have hlive : p'.stage ≠ .fresh ∧ p'.stage ≠ .polling := by
    rcases hstage with hs | hs | hs <;> simp [hs]
  exact ⟨hcancelled.trans h.uncancelled, hpositive, fun _ => by omega,
    fun hfresh => absurd hfresh hlive.1, fun _ => hheld.trans (h.held hopen),
    fun hpolling => absurd hpolling hlive.2⟩

/-- A pump that has ended its stream asks nothing of its consumer. -/
theorem Serves.ends (h : p.Serves) (hcancelled : p'.cancelled = p.cancelled)
    (hgrants : p'.grants = p.grants) (hstage : p'.stage = .leaving ∨ p'.stage = .over) :
    p'.Serves := by
  have hended : p'.port.isEnded = true := by
    rcases hstage with hs | hs <;> simp [port, hs, Port.isEnded]
  have hlive : p'.stage ≠ .fresh ∧ p'.stage ≠ .polling := by
    rcases hstage with hs | hs <;> simp [hs]
  refine ⟨hcancelled.trans h.uncancelled, hgrants ▸ h.positive, ?_,
    fun hfresh => absurd hfresh hlive.1, ?_, fun hpolling => absurd hpolling hlive.2⟩
  · simp [hended]
  · simp [hended]

/-- Below the ceiling, folding grants in is exact. -/
theorem fold_exact {grants : List Nat} {demand demand' : Demand}
    (hfold : fold grants demand = (demand', [], false))
    (hceiling : demand.items + grants.sum ≤ Demand.ceiling) :
    demand'.items = demand.items + grants.sum := by
  induction grants generalizing demand with
  | nil =>
      cases hfold
      simp
  | cons n rest ih =>
      cases n with
      | zero => simp [fold] at hfold
      | succ n =>
          rw [List.sum_cons] at hceiling ⊢
          have hgrant := Demand.grant_items_of_le (n := n + 1) (d := demand) (by omega)
          have hrest := ih hfold (by omega)
          omega

/-! ### What a pump does without polling -/

/-- A pump that greets its consumer serves it from then on. -/
theorem Serves.greets (h : p.Serves) (hstage : p.stage = .fresh) :
    { p with stage := .greeted }.Serves ∧
      p.port.emits [.signal (.subscribed ())] = some { p with stage := .greeted }.port := by
  have hopen : p.port.isEnded = false := by simp [port, hstage, Port.isEnded]
  have hlive : { p with stage := .greeted }.port = .live 0 :=
    congrArg Port.live (h.fresh hstage)
  refine ⟨h.goesOn hopen rfl rfl h.positive (Nat.le_refl _) (.inl rfl), ?_⟩
  rw [hlive]
  simp [port, hstage, Port.emit]

/-- A pump that begins after its greeting owes what it owed. -/
theorem Serves.starts (h : p.Serves) (hstage : p.stage = .greeted) :
    { p with stage := .between }.Serves ∧ { p with stage := .between }.port = p.port := by
  have hopen : p.port.isEnded = false := by simp [port, hstage, Port.isEnded]
  refine ⟨h.goesOn hopen rfl rfl h.positive (Nat.le_refl _) (.inr (.inl rfl)), ?_⟩
  simp only [port, hstage]

/-- A pump that takes in a grant still owes what it was asked for. -/
theorem Serves.takes (h : p.Serves) {n : Nat} {rest : List Nat} (hstage : p.stage = .between)
    (hgrants : p.grants = (n + 1) :: rest) :
    { p with grants := rest, demand := p.demand.grant (n + 1) }.Serves ∧
      { p with grants := rest, demand := p.demand.grant (n + 1) }.port = p.port := by
  have hopen : p.port.isEnded = false := by simp [port, hstage, Port.isEnded]
  have hwindow := h.window hopen
  have hpositive := h.positive
  rw [hgrants, List.sum_cons] at hwindow
  rw [hgrants] at hpositive
  have hgrant : (p.demand.grant (n + 1)).items = p.demand.items + (n + 1) :=
    Demand.grant_items_of_le (by simp only [Demand.ceiling, UInt64.size]; omega)
  have hsum : (p.demand.grant (n + 1)).items + rest.sum = p.demand.items + p.grants.sum := by
    rw [hgrant, hgrants, List.sum_cons, Nat.add_assoc]
  refine ⟨h.goesOn hopen rfl rfl (fun hmem => hpositive (List.mem_cons_of_mem _ hmem))
    (Nat.le_of_eq hsum) (.inr (.inl hstage)), ?_⟩
  simp only [port, hstage, hsum]

/-- A pump that has folded its grants after a signal still owes what it was asked for. -/
theorem Serves.folds (h : p.Serves) {demand : Demand} (hstage : p.stage = .signalled)
    (hfold : fold p.grants p.demand = (demand, [], false)) :
    { p with stage := .between, grants := [], demand := demand }.Serves ∧
      { p with stage := .between, grants := [], demand := demand }.port = p.port := by
  have hopen : p.port.isEnded = false := by simp [port, hstage, Port.isEnded]
  have hwindow := h.window hopen
  have hexact := fold_exact hfold (by simp only [Demand.ceiling, UInt64.size]; omega)
  have hsum : demand.items + [].sum = p.demand.items + p.grants.sum := by
    rw [hexact, List.sum_nil, Nat.add_zero]
  refine ⟨h.goesOn hopen rfl rfl (by simp) (Nat.le_of_eq hsum) (.inr (.inl rfl)), ?_⟩
  simp only [port, hstage, hsum]

/-! ### What a pump does when its stream has answered -/

/-- An item that is handed on takes one grant. -/
theorem Serves.spends (h : p.Serves) (hstage : p.stage = .polling) (chunk : Octets) :
    { p with stage := .signalled, sleep := none, demand := p.demand.spend }.Serves ∧
      p.port.emits [.signal (.next chunk)] =
        some { p with stage := .signalled, sleep := none, demand := p.demand.spend }.port := by
  have hlive := port_of_polling hstage
  have hpositive := h.polling hstage
  have hspent : p.demand.spend.items + p.grants.sum + 1 = p.demand.items + p.grants.sum := by
    rw [Demand.spend_items]
    omega
  refine ⟨h.goesOn (by rw [hlive]; rfl) rfl rfl h.positive ?_ (.inr (.inr rfl)), ?_⟩
  · change p.demand.spend.items + p.grants.sum ≤ _
    omega
  · change p.port.emits [.signal (.next chunk)] =
      some (.live (p.demand.spend.items + p.grants.sum))
    rw [hlive, ← hspent]
    rfl

/-- A pump whose poll is pending has nothing to tell. -/
theorem Serves.pending (h : p.Serves) (hstage : p.stage = .polling) :
    p.pending.Serves ∧ p.pending.port = p.port := by
  have hlive := port_of_polling hstage
  refine ⟨h.goesOn (by rw [hlive]; rfl) rfl rfl h.positive (Nat.le_refl _) (.inr (.inl rfl)), ?_⟩
  rw [hlive]
  rfl

/-! ### A pump and its stream -/

/-- A pump that neither ends nor lets go of its stream fits it still. -/
theorem Fits.of_serves (h : p.Fits s) (hserves : p'.Serves)
    (hended : p'.port.isEnded = p.port.isEnded) (hover : p'.stage = .over ↔ p.stage = .over) :
    p'.Fits s :=
  ⟨hserves, h.done_eq.trans hended.symm, h.dropped_iff.trans hover.symm⟩

/-- A pump that polls has demand, and its stream and its own are not over. -/
theorem Fits.polls (h : p.Fits s) (hpolls : p.Polls p') :
    p'.Fits s ∧ p'.port = p.port ∧ s.done = false ∧ s.dropped = false := by
  rcases h.toServes.polls hpolls with ⟨hserves, hport, hopen, hover⟩
  have hdropped : s.dropped = false := by
    by_contra hdropped
    exact hover (h.dropped_iff.mp (by simpa using hdropped))
  have hstill : p'.stage = .over ↔ p.stage = .over := by simp [hpolls.stage, hover]
  exact ⟨h.of_serves hserves (congrArg Port.isEnded hport) hstill, hport,
    h.done_eq.trans hopen, hdropped⟩

end Pump

namespace Chain

/-- A move that changes nothing but the pump. -/
theorem moves_of_pump {before : Chain} {s : PullStream Unit} {p p' : Pump} {burst : Burst}
    (h : (hop before s p).Sound) (hfits : p'.Fits s)
    (hemits : p.port.emits burst.emissions = some p'.port)
    (hcargo : Emission.cargo burst.emissions = []) :
    Moves [] (hop before s p) (hop before s p', burst) := by
  refine ⟨⟨h.1, h.2.1, hfits⟩, hemits, ?_⟩
  have hsame : p'.port.isEnded = p.port.isEnded := by
    rw [← hfits.done_eq, ← h.2.2.done_eq]
  rw [hcargo, List.append_nil, List.nil_append]
  simp only [backlog, hsame]

/-- A pump lets go of its stream after the end. -/
theorem Sound.leaves {before : Chain} {s : PullStream Unit} {p : Pump}
    (h : (hop before s p).Sound) (hstage : p.stage = .leaving) :
    Moves [] (hop before s p)
      (dropStream before s { p with stage := .over, sleep := none } []) := by
  rcases h with ⟨hbefore, htuned, hfits⟩
  have hended : p.port.isEnded = true := by simp [Pump.port, hstage, Port.isEnded]
  have hdone : s.done = true := hfits.done_eq.trans hended
  have hdrop : s.drop = (s.discard.1, [], s.discard.2) := by
    unfold PullStream.drop PullStream.cancelEarly
    cases hsub : s.subscription with
    | none => simp
    | some handle => simp [hdone]
  have hrelease : ∀ control ∈ s.discard.2.map Prod.snd, control = .release := by
    intro control hmem
    rcases List.mem_map.mp hmem with ⟨told, htold, rfl⟩
    rcases List.mem_map.mp htold with ⟨handle, -, rfl⟩
    rfl
  have hgone := htuned.ended_of_done hdone
  rcases hbefore.controls_release hgone hrelease with ⟨hsound, hport, hbacklog⟩
  have htuned' : s.discard.1.Tuned (before.controls (s.discard.2.map Prod.snd)).1.port := by
    rw [hport]
    exact PullStream.tuned_discard hgone s
  have hfits' : { p with stage := .over, sleep := none }.Fits s.discard.1 :=
    ⟨hfits.toServes.ends rfl rfl (.inr rfl), hdone, by simp [PullStream.discard]⟩
  have hnone : (hop before s p).backlog = [] := backlog_of_ended hended
  rw [dropStream, hdrop]
  refine ⟨⟨hsound, htuned', hfits'⟩, ?_, ?_⟩
  · change p.port.emits [.hangUp] = some (.ended true)
    simp [Pump.port, hstage, Port.emit]
  · rw [hnone]
    rfl

/-- While a hop polls, all that is on its way to its stream is on its way to its consumer. -/
theorem backlog_of_polling {before : Chain} {s : PullStream Unit} {p p' : Pump}
    (hport : p'.port = p.port) (hstage : p'.stage = .polling) :
    (hop before s p).backlog = (s.cargo ++ before.backlog).map Signal.relayed := by
  have hopen : p.port.isEnded = false := by
    rw [← hport, Pump.port_of_polling hstage]
    rfl
  rw [backlog, if_neg]
  simp [hopen]

/-- An item that the stream of a hop yields is handed on, and takes one grant. -/
theorem Sound.yields_item {before : Chain} {s s' : PullStream Unit} {p p' : Pump}
    (h : (hop before s p).Sound) (hfits : p'.Fits s) (hport : p'.port = p.port)
    (hstage : p'.stage = .polling) {chunk : Octets} (hcargo : s.cargo = .next chunk :: s'.cargo)
    (hopen : s'.done = false ∧ s'.dropped = false) (htuned : PullStream.Tuned before.port s')
    (notes : List Notice) :
    Moves [] (hop before s p)
      (hop before s' { p' with stage := .signalled, sleep := none, demand := p'.demand.spend },
        signalling notes (some (.next chunk))) := by
  have hunended : p'.port.isEnded = false := by rw [Pump.port_of_polling hstage]; rfl
  have hdropped : s.dropped = false := by
    by_contra hdropped
    have hover := hfits.dropped_iff.mp (by simpa using hdropped)
    rw [hstage] at hover
    cases hover
  rcases hfits.toServes.spends hstage chunk with ⟨hserves, hemits⟩
  have hfits' : { p' with
      stage := .signalled, sleep := none, demand := p'.demand.spend }.Fits s' :=
    ⟨hserves, hopen.1, by simp [hopen.2]⟩
  refine ⟨⟨h.1, htuned, hfits'⟩, ?_, ?_⟩
  · change p.port.emits [.signal (.next chunk)] = _
    rw [← hport]
    exact hemits
  · rw [backlog_of_polling hport hstage, hcargo, List.append_nil]
    rfl

/-- The end that the stream of a hop has seen is handed on, and is the last of its backlog. -/
theorem Sound.yields_end {before : Chain} {s s' : PullStream Unit} {p p' : Pump}
    (h : (hop before s p).Sound) (hfits : p'.Fits s) (hport : p'.port = p.port)
    (hstage : p'.stage = .polling) {sig : Signal Unit} (hcargo : s.cargo = [sig])
    (hdone : s'.done = true ∧ s'.dropped = false) (hended : before.port.isEnded = true)
    (htuned : PullStream.Tuned before.port s')
    (hlast : ∀ credit, (Port.live credit).emit (.signal sig.relayed) = some (.ended false))
    (hcarried : Emission.cargo? (.signal sig.relayed) = some sig.relayed) (notes : List Notice) :
    Moves [] (hop before s p)
      (hop before s' { p' with stage := .leaving, sleep := none },
        signalling notes (some sig.relayed)) := by
  have hfits' : { p' with stage := .leaving, sleep := none }.Fits s' :=
    ⟨hfits.toServes.ends rfl rfl (.inl rfl), hdone.1, by simp [hdone.2]⟩
  refine ⟨⟨h.1, htuned, hfits'⟩, ?_, ?_⟩
  · change p.port.emits [.signal sig.relayed] = some (.ended false)
    rw [← hport, Pump.port_of_polling hstage, Port.emits_singleton]
    exact hlast _
  · have hcargo' : Emission.cargo [.signal sig.relayed] = [sig.relayed] := by
      simp [Emission.cargo, hcarried]
    rw [backlog_of_polling hport hstage, hcargo, backlog_of_ended hended]
    change Emission.cargo [.signal sig.relayed] ++ _ = _
    rw [hcargo']
    rfl

/-- What the stream of a hop yields is handed on. -/
theorem Sound.yields {before : Chain} {s s' : PullStream Unit} {p p' : Pump}
    (h : (hop before s p).Sound) (hfits : p'.Fits s) (hport : p'.port = p.port)
    (hstage : p'.stage = .polling) {answer : Pull} {r : Option (Except Cause Octets)}
    (hattends : PullStream.Attends before.port s.cargo s' (.answer answer))
    (hpulled : pulled answer = some r) (notes : List Notice) :
    Moves [] (hop before s p)
      (hop before s' (p'.receive r).1,
        signalling (notes ++ (p'.receive r).2.1) (p'.receive r).2.2) := by
  cases hattends with
  | sleeps hcargo hopen hinbox hconnected hparked hasked htuned => simp [pulled] at hpulled
  | item chunk hcargo hopen htuned =>
      cases hpulled
      rw [Pump.receive_chunk hfits.uncancelled]
      exact h.yields_item hfits hport hstage hcargo hopen htuned _
  | failed cause hcargo hdone hinbox hended htuned =>
      cases hpulled
      rw [Pump.receive_failure hfits.uncancelled]
      refine h.yields_end hfits hport hstage hcargo hdone hended htuned (fun credit => ?_) rfl _
      simp [Signal.relayed, Port.emit]
  | completed hcargo hdone hinbox hended htuned =>
      cases hpulled
      rw [Pump.receive_end hfits.uncancelled]
      refine h.yields_end hfits hport hstage hcargo hdone hended htuned (fun credit => ?_) rfl _
      simp [Signal.relayed, Port.emit]

/-- A hop whose stream is empty asks the chain before it for an item. -/
theorem Sound.asks {before : Chain} {s s' : PullStream Unit} {p p' : Pump}
    (h : (hop before s p).Sound) (hpolls : p.Polls p') {notes : List Notice}
    (hattend : s.attend = (s', notes, .asks ())) :
    Moves [] (hop before s p)
      (hop (before.control (.request 1)).1 s' p',
        { notes := notes ++ (before.control (.request 1)).2.1
          wakes := (before.control (.request 1)).2.2
          goesOn := true }) := by
  rcases h with ⟨hbefore, htuned, hfits⟩
  rcases hfits.polls hpolls with ⟨hfits', hport, hdone, hdropped⟩
  cases htuned.attends ⟨hdone, hdropped⟩ hattend with
  | asks hspent hcargo hopen hempty htuned' =>
      rcases hbefore.control_request (.inl hspent) with ⟨hsound, hgrant, hbacklog⟩
      rw [hspent] at hgrant
      have hstill : p'.Fits s' :=
        hfits'.of_eq (hopen.1.trans hdone.symm) (hopen.2.trans hdropped.symm) p'.sleep
      refine ⟨⟨hsound, ?_, hstill⟩, congrArg some hport.symm, ?_⟩
      · rw [hgrant]
        exact htuned'
      · simp only [backlog, hport, hbacklog, hempty, hcargo, Emission.cargo_nil,
          List.nil_append, List.append_nil]

/-- A hop whose stream has nothing to say goes to sleep. -/
theorem Sound.sleeps {before : Chain} {s s' : PullStream Unit} {p p' : Pump}
    (h : (hop before s p).Sound) (hpolls : p.Polls p') {notes : List Notice}
    (hattend : s.attend = (s', notes, .answer .pending)) :
    Moves [] (hop before s p) (hop before s' p'.pending, { notes := notes }) := by
  rcases h with ⟨hbefore, htuned, hfits⟩
  rcases hfits.polls hpolls with ⟨hfits', hport, hdone, hdropped⟩
  cases htuned.attends ⟨hdone, hdropped⟩ hattend with
  | sleeps hcargo hopen hinbox hconnected hparked hasked htuned' =>
      rcases hfits'.toServes.pending hpolls.stage with ⟨hserves, hsame⟩
      have hlive : p'.pending.port.isEnded = false := rfl
      have hfits'' : p'.pending.Fits s' :=
        ⟨hserves, hopen.1, by simp [hopen.2, Pump.pending]⟩
      have hempty : s'.cargo = [] := by simp [PullStream.cargo, hinbox]
      refine ⟨⟨hbefore, htuned', hfits''⟩, congrArg some (hsame.trans hport).symm, ?_⟩
      simp only [backlog, hsame.trans hport, hempty, hcargo, Emission.cargo_nil, List.nil_append,
        List.append_nil]

/-- Every turn of a hop of a sound chain moves it on. -/
theorem Sound.hopTurn {before : Chain} {s : PullStream Unit} {p : Pump}
    (h : (hop before s p).Sound) : Moves [] (hop before s p) (Chain.hopTurn before s p) := by
  rcases h with ⟨hbefore, htuned, hfits⟩
  have hturn := hopTurns_hopTurn before s p
  generalize Chain.hopTurn before s p = r at hturn ⊢
  cases hturn with
  | greets hstage =>
      rcases hfits.toServes.greets hstage with ⟨hserves, hemits⟩
      refine moves_of_pump ⟨hbefore, htuned, hfits⟩ (hfits.of_serves hserves ?_ ?_) hemits rfl
      · simp [Pump.port, hstage, Port.isEnded]
      · simp [hstage]
  | starts hstage =>
      rcases hfits.toServes.starts hstage with ⟨hserves, hport⟩
      exact moves_of_pump ⟨hbefore, htuned, hfits⟩
        (hfits.of_serves hserves (congrArg Port.isEnded hport) (by simp [hstage]))
        (congrArg some hport.symm) rfl
  | cancels note hstage hcancelled =>
      rw [hfits.uncancelled] at hcancelled
      cases hcancelled
  | orphaned hstage hheld =>
      rw [hfits.held (by simp [Pump.port, hstage, Port.isEnded])] at hheld
      cases hheld
  | takes n rest hstage hdemand hgrants =>
      rcases hfits.toServes.takes hstage hgrants with ⟨hserves, hport⟩
      exact moves_of_pump ⟨hbefore, htuned, hfits⟩
        (hfits.of_serves hserves (congrArg Port.isEnded hport) Iff.rfl)
        (congrArg some hport.symm) rfl
  | refuses grants demand hstage hzero => exact absurd hzero hfits.positive
  | waits hstage hdemand hgrants hheld =>
      exact moves_of_pump ⟨hbefore, htuned, hfits⟩ (hfits.of_eq rfl rfl _) rfl rfl
  | folds demand hstage hfold =>
      rcases hfits.toServes.folds hstage hfold with ⟨hserves, hport⟩
      exact moves_of_pump ⟨hbefore, htuned, hfits⟩
        (hfits.of_serves hserves (congrArg Port.isEnded hport) (by simp [hstage]))
        (congrArg some hport.symm) rfl
  | asks s' p' notes hpolls hattend => exact Sound.asks ⟨hbefore, htuned, hfits⟩ hpolls hattend
  | sleeps s' p' notes hpolls hattend => exact Sound.sleeps ⟨hbefore, htuned, hfits⟩ hpolls hattend
  | yields s' p' notes answer r hpolls hattend hpulled =>
      rcases hfits.polls hpolls with ⟨hfits', hport, hdone, hdropped⟩
      have hlisten := htuned.attends ⟨hdone, hdropped⟩ hattend
      exact Sound.yields ⟨hbefore, htuned, hfits⟩ hfits' hport hpolls.stage hlisten hpulled notes
  | leaves hstage => exact Sound.leaves ⟨hbefore, htuned, hfits⟩ hstage
  | rests hstage => exact moves_of_pump ⟨hbefore, htuned, hfits⟩ hfits rfl rfl

/-! ## Turns of a pump over a source -/

/-- What a poll of a source yields is the first of what it has in store. -/
theorem cargo_polled {s s' : Source} {y : Yield} (hpolled : s.Polled s' y) :
    match y with
    | .item (.ok chunk) => s.cargo = .next chunk :: s'.cargo
    | .item (.error cause) => s.cargo = [.error cause]
    | .exhausted => s.cargo = [.complete]
    | _ => s'.cargo = s.cargo := by
  cases hpolled with
  | ends hitems hclosed => simp [Source.cargo, Item.chunks, Item.failure?, hitems, hclosed]
  | waits hitems hopen => rfl
  | chunk bytes rest hitems | fails cause rest hitems | pauses rest hitems
  | stepsAside rest hitems | acts a rest hitems =>
      simp [Source.cargo, Item.chunks, Item.failure?, hitems]

/-- A move that leaves what the source has in store alone. -/
theorem moves_of_source {s s' : Source} {p p' : Pump} {burst : Burst} (hserves : p'.Serves)
    (hemits : p.port.emits burst.emissions = some p'.port)
    (hcargo : Emission.cargo burst.emissions = []) (hended : p'.port.isEnded = p.port.isEnded)
    (hstore : s'.cargo = s.cargo) : Moves [] (source s p) (source s' p', burst) := by
  refine ⟨hserves, hemits, ?_⟩
  rw [hcargo, List.append_nil, List.nil_append]
  simp only [backlog, hended, hstore]

/-- What a source yields is handed on. -/
theorem yields_source {s s' : Source} {p p' : Pump} (hserves : p'.Serves)
    (hport : p'.port = p.port) (hstage : p'.stage = .polling) {y : Yield}
    {r : Option (Except Cause Octets)} (hpolled : s.Polled s' y) (hyield : y.yielded? = some r) :
    Moves [] (source s p)
      (source s' (p'.receive r).1, signalling (p'.receive r).2.1 (p'.receive r).2.2) := by
  have hlive := Pump.port_of_polling hstage
  have hbacklog : (source s p).backlog = s.cargo := by
    rw [backlog, ← hport, hlive]
    rfl
  have hstore := cargo_polled hpolled
  -- An end is the last that the source has in store.
  have hlast : ∀ (sig : Signal Unit) (notes : List Notice), s.cargo = [sig] →
      (∀ credit, (Port.live credit).emit (.signal sig) = some (.ended false)) →
      Emission.cargo? (.signal sig) = some sig →
      Moves [] (source s p)
        (source s' { p' with stage := .leaving, sleep := none }, signalling notes (some sig)) := by
    intro sig notes hcargo hemit hcarried
    refine ⟨hserves.ends rfl rfl (.inl rfl), ?_, ?_⟩
    · change p.port.emits [.signal sig] = some (.ended false)
      rw [← hport, hlive, Port.emits_singleton]
      exact hemit _
    · have hsignalled : Emission.cargo [.signal sig] = [sig] := by
        simp [Emission.cargo, hcarried]
      rw [hbacklog, hcargo]
      change Emission.cargo [.signal sig] ++ _ = _
      rw [hsignalled]
      rfl
  cases y with
  | item yielded =>
      cases hyield
      cases yielded with
      | ok chunk =>
          rcases hserves.spends hstage chunk with ⟨hserves', hemits⟩
          rw [Pump.receive_chunk hserves.uncancelled]
          refine ⟨hserves', ?_, ?_⟩
          · change p.port.emits [.signal (.next chunk)] = _
            rw [← hport]
            exact hemits
          · rw [hbacklog, show s.cargo = _ from hstore, List.append_nil]
            rfl
      | error cause =>
          rw [Pump.receive_failure hserves.uncancelled]
          exact hlast _ _ hstore (fun credit => by simp [Port.emit]) rfl
  | exhausted =>
      cases hyield
      rw [Pump.receive_end hserves.uncancelled]
      exact hlast _ _ hstore (fun credit => by simp [Port.emit]) rfl
  | pending wakesItself => cases hyield
  | act a => cases hyield

/-- Every turn of a pump that serves its consumer hands on what its source yields. -/
theorem sourceTurn_moves {s : Source} {p : Pump} (h : p.Serves) :
    Moves [] (source s p) (sourceTurn s p) := by
  have hturn := sourceTurns_sourceTurn s p
  generalize sourceTurn s p = r at hturn ⊢
  cases hturn with
  | delivers p' notes sig hmove =>
      cases hmove with
      | greets hstage =>
          rcases h.greets hstage with ⟨hserves, hemits⟩
          refine moves_of_source hserves hemits rfl ?_ rfl
          simp [Pump.port, hstage, Port.isEnded]
      | refuses rest hstage hdemand hopen hgrants =>
          exact absurd (by simp [hgrants]) h.positive
      | balks grants demand hstage hzero hfold => exact absurd hzero h.positive
  | goesOn p' notes hmove =>
      have hkeeps : ∀ {p' : Pump}, p'.Serves ∧ p'.port = p.port →
          Moves [] (source s p) (source s p', { notes := notes, goesOn := true }) :=
        fun hafter => moves_of_source hafter.1 (congrArg some hafter.2.symm) rfl
          (congrArg Port.isEnded hafter.2) rfl
      cases hmove with
      | starts hstage => exact hkeeps (h.starts hstage)
      | takes n rest hstage hdemand hopen hgrants => exact hkeeps (h.takes hstage hgrants)
      | folds demand hstage hsome hfold => exact hkeeps (h.folds hstage hfold)
      | cancels note hstage hcancelled =>
          rw [h.uncancelled] at hcancelled
          cases hcancelled
      | orphaned hstage hdemand hopen hgrants hheld =>
          rw [h.held (by simp [Pump.port, hstage, Port.isEnded])] at hheld
          cases hheld
  | parks p' notes hmove =>
      cases hmove with
      | waits hstage hdemand hopen hgrants hheld =>
          exact moves_of_source (h.of_sleep _) rfl rfl rfl rfl
      | rests hstage => exact moves_of_source h rfl rfl rfl rfl
  | leaves p' notes hmove =>
      cases hmove with
      | leaves hstage =>
          refine moves_of_source (h.ends rfl rfl (.inr rfl)) ?_ rfl ?_ rfl
          · simp [Pump.port, hstage, Port.emit]
          · simp [Pump.port, hstage, Port.isEnded]
  | yields s' p' y r hpolls hpoll hyield =>
      rcases h.polls hpolls with ⟨hserves, hport, -⟩
      exact yields_source hserves hport hpolls.stage (Source.polled_of_poll hpoll) hyield
  | sleeps s' p' wakesItself hpolls hpoll =>
      rcases h.polls hpolls with ⟨hserves, hport, -⟩
      rcases hserves.pending hpolls.stage with ⟨hpending, hsame⟩
      have hready := hpending.streamReady
      have haside : (p'.stepAside wakesItself).1.Serves ∧
          (p'.stepAside wakesItself).1.port = p.port := by
        unfold Pump.stepAside
        split
        · exact ⟨hready.1, hready.2.trans (hsame.trans hport)⟩
        · exact ⟨hpending, hsame.trans hport⟩
      exact moves_of_source haside.1 (congrArg some haside.2.symm) rfl
        (congrArg Port.isEnded haside.2) (cargo_polled (Source.polled_of_poll hpoll))
  | acts s' p' a hpolls hpoll =>
      rcases h.polls hpolls with ⟨hserves, hport, -⟩
      exact moves_of_source hserves (congrArg some hport.symm) rfl
        (congrArg Port.isEnded hport) (cargo_polled (Source.polled_of_poll hpoll))

/-- Every turn of a sound chain moves it on. -/
theorem Sound.turn {c : Chain} (h : c.Sound) (k : Nat) : Moves [] c (c.turn k) := by
  induction c with
  | writer o => exact ⟨h, rfl, rfl⟩
  | source s p =>
      unfold Chain.turn
      split
      · exact sourceTurn_moves h
      · exact moves_of_source h rfl rfl rfl rfl
  | player p => exact h.elim
  | hop before s p ih =>
      by_cases hk : k = before.hops + 1
      · rw [hk, turn_last]
        exact Sound.hopTurn h
      · rw [turn_before hk]
        exact (ih h.1).absorb h

/-! ## Operations at the writer -/

/-- What the writer signals goes through every hop. -/
theorem Sound.atWriter {c : Chain} (h : c.Sound) {o : Outlet} (hwriter : c.writer? = some o)
    {f : Outlet → Outlet × List Notice × List Emission} (hserving : (f o).1.Serving)
    (hemits : o.port.emits (f o).2.2 = some (f o).1.port) :
    Moves ((Emission.cargo (f o).2.2).map (Signal.relayed^[c.hops])) c (c.atWriter f) := by
  induction c with
  | writer o' =>
      cases hwriter
      refine ⟨hserving, hemits, ?_⟩
      change Emission.cargo (f o).2.2 ++ [] = [] ++ (Emission.cargo (f o).2.2).map id
      simp
  | source s p => cases hwriter
  | player p => exact h.elim
  | hop before s p ih =>
      have habsorb := (ih h.1 hwriter).absorb h
      rw [List.map_map, ← Function.iterate_succ'] at habsorb
      exact habsorb

/-! ## What the writer has done itself -/

end Chain

/-- What a writer has done itself, apart from pushing. -/
structure Standing where
  /-- How it has ended the stream, if it has. -/
  finish : Option Finish
  closed : Bool
  /-- The writer exists. -/
  held : Bool

/-- What the writer of an outlet has done. -/
def Outlet.standing (o : Outlet) : Standing :=
  { finish := o.ledger.finish, closed := o.closed, held := o.writerHeld }

namespace Chain

/-- What the writer of a chain has done, if the chain starts with one. -/
def standing (c : Chain) : Option Standing :=
  c.writer?.map Outlet.standing

@[simp]
theorem standing_hop (before : Chain) (s : PullStream Unit) (p : Pump) :
    (hop before s p).standing = before.standing := rfl

/-- The consumer's handle changes nothing of it. -/
@[simp]
theorem control_standing (control : Control) (c : Chain) :
    (c.control control).1.standing = c.standing := by
  cases c with
  | writer o =>
      rcases o.control_eq control with ⟨ledger, hcontrol, hfinish, -⟩
      have hsame : (o.control control).1.standing = o.standing := by
        rw [hcontrol]
        simp only [Outlet.standing, hfinish]
      exact congrArg some hsame
  | source s p => rfl
  | player p => rfl
  | hop before s p => rfl

@[simp]
theorem controls_standing (cs : List Control) (c : Chain) :
    (c.controls cs).1.standing = c.standing := by
  induction cs generalizing c with
  | nil => rfl
  | cons control cs ih =>
      rw [controls, ih]
      exact control_standing control c

/-- Nor does anything that a hop hears. -/
theorem hear_standing (es : List Emission) (before : Chain) (s : PullStream Unit) (p : Pump) :
    (hear es (hop before s p)).1.standing = before.standing := by
  induction es generalizing before s p with
  | nil => rfl
  | cons e es ih =>
      cases e with
      | signal sig =>
          change (hear es (hop _ _ _)).1.standing = before.standing
          rw [ih]
          exact controls_standing _ before
      | hangUp => exact ih _ _ _

/-- A turn changes nothing of it. -/
theorem turn_standing (k : Nat) (c : Chain) : (c.turn k).1.standing = c.standing := by
  induction c with
  | writer o => rfl
  | source s p =>
      unfold turn
      split
      · obtain ⟨s', p', hafter⟩ := (sourceTurns_sourceTurn s p).source
        rw [hafter]
        rfl
      · rfl
  | player p =>
      unfold turn
      split
      · unfold playerTurn
        dsimp only
        split <;> rfl
      · rfl
  | hop before s p ih =>
      by_cases hk : k = before.hops + 1
      · rw [hk, turn_last]
        have hturn := hopTurns_hopTurn before s p
        generalize hopTurn before s p = r at hturn ⊢
        cases hturn with
        | asks s' p' notes hpolls hattend => exact control_standing _ before
        | leaves hstage => exact controls_standing _ before
        | _ => rfl
      · rw [turn_before hk]
        exact (hear_standing _ _ s p).trans ih

/-- An operation at the writer is done by the writer. -/
theorem atWriter_standing {c : Chain} {o : Outlet} (hwriter : c.writer? = some o)
    (f : Outlet → Outlet × List Notice × List Emission) :
    (c.atWriter f).1.standing = some (f o).1.standing := by
  induction c with
  | writer o' =>
      cases hwriter
      rfl
  | source s p => cases hwriter
  | player p => cases hwriter
  | hop before s p ih => exact (hear_standing _ _ s p).trans (ih hwriter)

/-- The writer of a sound chain serves its consumer. -/
theorem Sound.serving {c : Chain} (h : c.Sound) {o : Outlet} (hwriter : c.writer? = some o) :
    o.Serving := by
  induction c with
  | writer o' =>
      cases hwriter
      exact h
  | source s p => cases hwriter
  | player p => cases hwriter
  | hop before s p ih => exact ih h.1 hwriter

/-! ## What is held along the way -/

/-- The bytes that are held along a chain, those nearest to its end first. -/
def held : Chain → Octets
  | hop before s _ => (s.inbox.filterMap Signal.chunk?).flatten ++ before.held
  | _ => []

/-- Behind a writer they are the bytes that are on their way. -/
theorem Sound.bytes_backlog {c : Chain} (h : c.Sound) {o : Outlet}
    (hwriter : c.writer? = some o) : Signal.bytes c.backlog = c.held := by
  induction c with
  | writer o => rfl
  | source s p => cases hwriter
  | player p => exact h.elim
  | hop before s p ih =>
      rcases h with ⟨hbefore, htuned, hfits⟩
      have hinner := ih hbefore hwriter
      by_cases hended : p.port.isEnded = true
      · have hdone := hfits.done_eq.trans hended
        rw [backlog_of_ended (htuned.ended_of_done hdone)] at hinner
        rw [backlog_of_ended (c := hop before s p) hended, held, htuned.inbox_of_done hdone,
          ← hinner]
        rfl
      · have hopen : p.port.isEnded = false := by simpa using hended
        have hcargo : s.cargo.filterMap Signal.chunk? = s.inbox.filterMap Signal.chunk? := by
          rw [PullStream.cargo, Emission.cargo, List.filterMap_map, List.filterMap_filterMap]
          refine congrFun (congrArg List.filterMap (funext fun sig => ?_)) s.inbox
          cases sig <;> rfl
        have hrelayed : Signal.chunk? ∘ Signal.relayed = Signal.chunk? :=
          funext Signal.relayed_chunk?
        rw [held, ← hinner]
        simp only [backlog, hopen, Bool.false_eq_true, if_false, Signal.bytes,
          List.filterMap_map, hrelayed, List.filterMap_append, List.flatten_append, hcargo]

@[simp]
theorem atWriter_hops (f : Outlet → Outlet × List Notice × List Emission) (c : Chain) :
    (c.atWriter f).1.hops = c.hops := by
  induction c with
  | hop before s p ih => exact (absorb_hops s p _).trans (congrArg (· + 1) ih)
  | _ => rfl

end Chain
end CreditFlow
