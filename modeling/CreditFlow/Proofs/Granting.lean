import CreditFlow.Proofs.OutletTraffic
import CreditFlow.Proofs.PlayerScript
import CreditFlow.Proofs.PumpRefusal
import CreditFlow.Scenario.Playing
import Mathlib.Data.List.Permutation

/-!
# Granting at the top of the counter

Three publishers keep the demand of their consumer in a counter of sixty-four bits: a writer,
a pump and a player.  A writer and a pump stop at the ceiling of it, so a consumer that has asked
for practically everything may ask again, and has at least what it had.  A player adds, and has
no room for a request that goes past the ceiling.  Such a request breaks off; what was granted
before stays granted, but one that was made from inside a signal takes the thread of the player
along, and with it what the thread had still to tell.

Main results:

- {lit}`Demand.rises_grant`, {lit}`Pump.fold_eq_grantAll`: a grant raises the demand as far as
  there is room.
- {lit}`Pumping.Stepped.credited`: how an event moves the demand of a pump.
- {lit}`PlayerTraffic.run_capped`: the counter of a player stays within its sixty-four bits.
- {lit}`granting_keeps_demand`: what a grant comes to at the three publishers.
- {lit}`player_without_room`: a grant that a player breaks off at.
-/

namespace CreditFlow

/-! ## Grants at a counter -/

namespace Demand

/-- A grant of `n` items brings a counter from one value to another: as far up as there is room,
not below where it was, and not to nothing. -/
structure Rises (n before after : Nat) : Prop where
  saturates : after = min (before + n) ceiling
  kept : before ≤ after
  some : 0 < after

/-- A counter that saturates rises. -/
theorem rises_of_saturates {n before after : Nat} (hn : 0 < n) (hbefore : before ≤ ceiling)
    (hafter : after = min (before + n) ceiling) : Rises n before after := by
  refine ⟨hafter, ?_, ?_⟩
  · rw [hafter]
    exact Nat.le_min.mpr ⟨Nat.le_add_right before n, hbefore⟩
  · rw [hafter]
    exact Nat.lt_min.mpr ⟨Nat.add_pos_right before hn, by decide⟩

theorem rises_grant {n : Nat} (hn : 0 < n) (d : Demand) : Rises n d.items (d.grant n).items :=
  rises_of_saturates hn d.le_ceiling rfl

/-- Several grants, one after the other. -/
def grantAll (ns : List Nat) (d : Demand) : Demand :=
  ns.foldl (fun d n => d.grant n) d

theorem grantAll_concat (ns : List Nat) (n : Nat) (d : Demand) :
    d.grantAll (ns ++ [n]) = (d.grantAll ns).grant n :=
  List.foldl_append

/-- Each of several grants raises the demand. -/
theorem rises_grantAll {ns : List Nat} (hsome : 0 ∉ ns) (d : Demand) {front : List Nat} {n : Nat}
    (hfront : front ++ [n] <+: ns) :
    Rises n (d.grantAll front).items (d.grantAll (front ++ [n])).items := by
  have hmem : n ∈ ns := hfront.subset (List.mem_append_right front (List.mem_singleton_self n))
  have hpos : 0 < n := Nat.pos_of_ne_zero fun hzero => hsome (hzero ▸ hmem)
  rw [grantAll_concat]
  exact rises_grant hpos _

end Demand

/-! ## A writer -/

namespace OutletTraffic

variable {t : OutletTraffic}

/-- A grant that reaches the ledger of a writer raises its demand. -/
theorem request_rises (hhandle : t.hasHandle = true) (halive : t.alive = true)
    (hopen : t.cancelled = false) (granter : Nat) {n : Nat} (hn : 0 < n) :
    Demand.Rises n t.demand (t.step (.request granter n)).demand :=
  Demand.rises_of_saturates hn t.outlet.ledger.demand.le_ceiling
    (request_demand hhandle halive hopen granter n)

/-- A grant does not touch the writer, and cancels nothing. -/
theorem request_keeps (hhandle : t.hasHandle = true) (granter n : Nat) :
    (t.step (.request granter n)).ready = t.ready ∧
      (t.step (.request granter n)).outlet.closed = t.outlet.closed ∧
      (t.step (.request granter n)).cancelled = t.cancelled := by
  have hcancelled := control_request_cancelled n t.outlet
  obtain ⟨ledger, hcontrol, -, -⟩ := t.outlet.control_eq (.request n)
  have hstep : t.step (.request granter n) =
      { t with
        outlet := { t.outlet with ledger := ledger }
        grants := t.grants ++ [(granter, n)] } := by
    simp only [step, hhandle, if_true, hcontrol]
  rw [hcontrol] at hcancelled
  rw [hstep]
  exact ⟨rfl, rfl, hcancelled⟩

/-- With demand, a push goes on and uses one item of it. -/
theorem push_takes (hready : t.ready = true) (hclosed : t.outlet.closed = false)
    (hopen : t.cancelled = false) (hcredit : 0 < t.demand) (item : Octets) :
    (t.step (.push item false)).stage = .holding item ∧
      (t.step (.push item false)).demand + 1 = t.demand := by
  have hlisten : t.outlet.ledger.cancelled = false := hopen
  have hpositive : 0 < t.outlet.ledger.demand.items := hcredit
  have htake : t.outlet.ledger.take false =
      some (.ok { t.outlet.ledger with demand := t.outlet.ledger.demand.spend }) := by
    simp [Ledger.take, hlisten, hpositive]
  have hpush : t.step (.push item false) =
      { t with
        outlet :=
          { t.outlet with
            ledger := { t.outlet.ledger with demand := t.outlet.ledger.demand.spend } }
        stage := .holding item } := by
    simp [step, hready, pushStep, hclosed, htake]
  rw [hpush]
  refine ⟨rfl, ?_⟩
  simp only [demand, Demand.spend_items]
  omega

end OutletTraffic

/-! ## A pump -/

namespace Pump

/-- Unless one of them is for nothing, grants that are folded in are taken one after the other. -/
theorem fold_eq_grantAll {grants : List Nat} (hsome : 0 ∉ grants) (demand : Demand) :
    fold grants demand = (demand.grantAll grants, [], false) := by
  induction grants generalizing demand with
  | nil => rfl
  | cons n rest ih =>
      rw [List.mem_cons, not_or] at hsome
      cases n with
      | zero => exact absurd rfl hsome.1
      | succ n => exact ih hsome.2 (demand.grant (n + 1))

/-- How the demand of a pump moves while it hands items on. -/
inductive Credited (p p' : Pump) : List Octets → Prop
  /-- Some grants are taken from the front of the queue. -/
  | takes (taken rest : List Nat) (hgrants : p.grants = taken ++ rest)
      (hrest : rest <+: p'.grants) (hsome : 0 ∉ taken)
      (hdemand : p'.demand = p.demand.grantAll taken) : Credited p p' []
  /-- An item is handed on. -/
  | spends (chunk : Octets) (hqueue : p.grants <+: p'.grants) (hcredit : 0 < p.demand.items)
      (hdemand : p'.demand = p.demand.spend) : Credited p p' [chunk]

variable {p p' : Pump}

/-- Nothing is taken and nothing handed on. -/
theorem Credited.of_same (hdemand : p'.demand = p.demand) (hqueue : p.grants <+: p'.grants) :
    Credited p p' [] :=
  .takes [] p.grants rfl hqueue (List.not_mem_nil) hdemand

/-- A control leaves the demand to the task, and adds to the queue at most. -/
theorem control_queue (c : Control) (p : Pump) :
    (p.control c).1.demand = p.demand ∧ p.grants <+: (p.control c).1.grants := by
  by_cases hover : p.stage = .over
  · have hsame : (p.control c).1 = p := by simp [Pump.control, hover]
    rw [hsame]
    exact ⟨rfl, List.prefix_rfl⟩
  · obtain ⟨hdemand, hgrants, -, -⟩ := control_live hover c
    rw [hgrants]
    exact ⟨hdemand, List.prefix_append _ _⟩

/-- A control grants, or leaves the demand of a pump alone. -/
theorem Credited.control {said : List Octets} (h : Credited p p' said) (c : Control) :
    Credited p (p'.control c).1 said := by
  obtain ⟨hsame, hqueued⟩ := control_queue c p'
  cases h with
  | takes taken rest hgrants hrest hsome hdemand =>
      exact .takes taken rest hgrants (hrest.trans hqueued) hsome (hsame.trans hdemand)
  | spends chunk hqueue hcredit hdemand =>
      exact .spends chunk (hqueue.trans hqueued) hcredit (hsame.trans hdemand)

/-- So do several controls. -/
theorem Credited.controls {said : List Octets} (h : Credited p p' said) (cs : List Control) :
    Credited p (p'.controls cs) said := by
  induction cs generalizing p' with
  | nil => exact h
  | cons c cs ih => exact ih (h.control c)

/-- What it comes to after a poll has begun, a pump comes to. -/
theorem Polls.credited {q : Pump} {said : List Octets} (hpolls : p.Polls q)
    (h : Credited q p' said) : Credited p p' said := by
  cases hpolls with
  | begins hstage hdemand hopen =>
      cases h with
      | takes taken rest hgrants hrest hsome hdemand =>
          exact .takes taken rest hgrants hrest hsome hdemand
      | spends chunk hqueue hcredit hdemand => exact .spends chunk hqueue hcredit hdemand
  | goesOn hstage => exact h

/-- Without polling, a pump takes the grants that it has come to. -/
theorem credited_of_advances {notes : List Notice} {move : Move}
    (hmove : p.Advances (p', notes, move)) (hother : move ≠ .fetch)
    (hqueue : p.Ended ∨ 0 ∉ p.grants) : Credited p p' [] := by
  have hgoing : ∀ {stage : Stage}, p.stage = stage → stage ≠ .leaving → stage ≠ .over →
      0 ∉ p.grants := by
    rintro _ rfl hleaving hover
    exact hqueue.resolve_left fun hended => hended.elim hleaving hover
  cases hmove with
  | takes n rest hstage hdemand hopen hgrants =>
      exact .takes [n + 1] rest hgrants List.prefix_rfl (by simp) rfl
  | folds demand hstage hsome hfold =>
      rw [fold_eq_grantAll hsome] at hfold
      cases hfold
      exact .takes p.grants [] (List.append_nil _).symm List.prefix_rfl hsome rfl
  | refuses rest hstage hdemand hopen hgrants =>
      exact absurd (by simp [hgrants]) (hgoing hstage (by simp) (by simp))
  | balks grants demand hstage hzero hfold =>
      exact absurd hzero (hgoing hstage (by simp) (by simp))
  | polls _ hpolls => exact absurd rfl hother
  | greets | starts | cancels | orphaned | waits | leaves | rests =>
      exact .of_same rfl List.prefix_rfl

/-- What its source yields to a pump takes one item of the demand, or none. -/
theorem credited_of_receive (hcredit : 0 < p.demand.items)
    (r : Option (Except Cause Octets)) :
    Credited p (p.receive r).1
      (((p.receive r).2.2.map Signal.call).toList.filterMap Call.chunk?) := by
  by_cases hcancelled : p.cancelled = true
  · rw [receive_of_cancelled hcancelled]
    exact .of_same rfl List.prefix_rfl
  · have hopen : p.cancelled = false := by simpa using hcancelled
    rcases r with - | cause | chunk
    · rw [receive_end hopen]
      exact .of_same rfl List.prefix_rfl
    · rw [receive_failure hopen]
      exact .of_same rfl List.prefix_rfl
    · rw [receive_chunk hopen]
      exact .spends chunk List.prefix_rfl hcredit rfl

end Pump

/-- In a turn a pump takes grants, or hands an item on. -/
theorem Chain.SourceTurns.credited {s s' : Source} {p p' : Pump} {burst : Burst}
    (hturn : SourceTurns s p (.source s' p', burst)) (hqueue : p.Ended ∨ 0 ∉ p.grants)
    (hpolling : p.stage = .polling → 0 < p.demand.items) :
    Pump.Credited p p' (burst.calls.filterMap Call.chunk?) := by
  have hcredit : ∀ {q : Pump}, p.Polls q → 0 < p.demand.items := by
    intro q hpolls
    cases hpolls with
    | begins hstage hdemand hopen => exact hdemand
    | goesOn hstage => exact hpolling hstage
  cases hturn with
  | delivers _ notes sig hmove =>
      have hnothing : (Chain.signalling notes (some sig)).calls.filterMap Call.chunk? = [] := by
        cases hmove <;> rfl
      rw [hnothing]
      exact Pump.credited_of_advances hmove (by simp) hqueue
  | goesOn _ notes hmove => exact Pump.credited_of_advances hmove (by simp) hqueue
  | parks _ notes hmove => exact Pump.credited_of_advances hmove (by simp) hqueue
  | leaves _ notes hmove => exact Pump.credited_of_advances hmove (by simp) hqueue
  | yields _ q y r hpolls hpoll hyield =>
      rw [Pump.calls_signalling]
      exact hpolls.credited (Pump.credited_of_receive (hpolls.demand ▸ hcredit hpolls) r)
  | sleeps _ q wakesItself hpolls hpoll =>
      obtain ⟨hdemand, hgrants⟩ := q.stepAside_queue wakesItself
      exact hpolls.credited (.of_same hdemand (hgrants ▸ List.prefix_rfl))
  | acts _ q a hpolls hpoll => exact hpolls.credited (.of_same rfl List.prefix_rfl)

namespace Pumping

variable {scenario : PumpScenario} {t t' : Pumping} {s s' : Source} {p p' : Pump} {k : Listener}

/-- In an event a pump takes grants, or hands an item on, or neither. -/
theorem Stepped.credited (hstepped : t.Stepped s p t' s' p') (h : t.Heeding scenario s p k)
    (hsome : .request 0 ∉ t.given) :
    ∃ said, t'.emitted = t.emitted ++ said ∧ Pump.Credited p p' said := by
  have hqueue : p.Ended ∨ 0 ∉ p.grants := by
    by_cases hended : p.Ended
    · exact .inl hended
    · rw [Pump.Ended, not_or] at hended
      refine .inr fun hzero => hsome ((Control.zero_mem_grants_iff _).mp ?_)
      exact (h.heeds.queued hended.1 hended.2).mp hzero
  have hquiet : t'.line.calls = t.line.calls → t'.emitted = t.emitted ++ [] := fun hcalls => by
    rw [emitted, hcalls, emitted, List.append_nil]
  cases hstepped with
  | rouses hcalls hgiven => exact ⟨[], hquiet hcalls, .of_same rfl List.prefix_rfl⟩
  | turns s' q burst cs hturn hcalls hgiven =>
      refine ⟨burst.calls.filterMap Call.chunk?, ?_, ?_⟩
      · rw [emitted, hcalls, List.filterMap_append, emitted]
      · exact (hturn.credited hqueue h.heeds.polling).controls cs
  | listens cs hcalls hgiven =>
      exact ⟨[], hquiet hcalls, Pump.Credited.controls (.of_same rfl List.prefix_rfl) cs⟩
  | sources b woken hcalls hgiven =>
      refine ⟨[], hquiet hcalls, ?_⟩
      unfold Pump.streamReady
      split
      · split <;> exact .of_same rfl List.prefix_rfl
      · exact .of_same rfl List.prefix_rfl

/-- A pump that has demand when its line is idle waits for its source, or is over. -/
theorem Heeding.waits_for_source (h : t.Heeding scenario s p k) (hidle : t.line.isIdle = true)
    (hcredit : 0 < p.demand.items) : p.stage = .over ∨ s.parked = true := by
  have hwatched := h.watched
  obtain ⟨hrunning, hready⟩ := t.line.isIdle_iff.mp hidle
  rw [Watched, h.chain, hrunning, hready] at hwatched
  have hrests : p.Rests (s.parked = true) := Chain.rests_of_idle hwatched
  cases hrests with
  | finished hstage => exact .inl hstage
  | forGrant hstage hsleep hdemand hgrants => omega
  | forStream hstage hsleep hdry => exact .inr hdry

end Pumping

/-! ## A player -/

namespace PlayerTraffic

/-- The counter of a player stays within its sixty-four bits. -/
def Capped (t : PlayerTraffic) : Prop :=
  t.player.outstanding ≤ Demand.ceiling

/-- No turn takes the counter of a player beyond its sixty-four bits. -/
theorem Capped.turn {t t' : PlayerTraffic} (h : t.Capped) (hturn : t.Turn t') : t'.Capped := by
  have hbound : t.player.outstanding ≤ Demand.ceiling := h
  cases hturn with
  | stays | calls | notes | notifies | sends | returns => exact h
  | takes front rest call hcalls hstage hroom =>
      rw [Capped, Player.count_outstanding hroom]
      exact Player.le_of_hasRoom hroom hbound
  | breaksOff front rest call hcalls hstage hfull =>
      obtain ⟨-, houtstanding, -⟩ := Player.afterBreak_frame call.inside t.player
      rwa [Capped, houtstanding]
  | advances p move hfocus hawake hadvances =>
      have hspends := hadvances.spends
      change p.outstanding ≤ Demand.ceiling
      omega

/-- However a player is called, its counter stays within its sixty-four bits. -/
theorem run_capped (script : List Step) (events : List PlayerEvent) :
    ((start script).run events).Capped := by
  have hstart : (start script).Capped := Nat.zero_le _
  generalize start script = t at hstart
  induction events generalizing t with
  | nil => exact hstart
  | cons e events ih => exact ih (t.step e) (hstart.turn (turn_step t e))

section Grants

variable {t : PlayerTraffic} {place n : Nat} {call : HandleCall}
  (hplace : t.calls[place]? = some call) (hstage : call.stage = .noted)
  (hcontrol : call.control = .request n)
include hplace hstage hcontrol

/-- A request that there is room for is added. -/
theorem goOn_with_room (hroom : t.player.outstanding + n ≤ Demand.ceiling) :
    (t.goOn place).player.outstanding = t.player.outstanding + n ∧
      (t.goOn place).player.performance = t.player.performance ∧
      (t.goOn place).refused = t.refused := by
  have hfits : t.player.hasRoom call.control = true := by
    rw [hcontrol]
    simpa [Player.hasRoom] using hroom
  rw [goOn_noted hplace hstage hfits]
  refine ⟨?_, (Player.count_frame call.control t.player).2.1, rfl⟩
  rw [Player.count_outstanding hfits, hcontrol, Control.asks]

/-- One that there is no room for breaks off.  It leaves the demand as it was, and takes the
thread along when it is made on it. -/
theorem goOn_past_ceiling (hfull : Demand.ceiling < t.player.outstanding + n) :
    (t.goOn place).player.outstanding = t.player.outstanding ∧
      (t.goOn place).refused = t.refused ++ [.request n] ∧
      (t.goOn place).calls = t.calls.eraseIdx place ∧
      (call.inside = true → (t.goOn place).player.performance = .over) := by
  have hlow : t.player.hasRoom call.control = false := by
    rw [hcontrol]
    simpa [Player.hasRoom] using hfull
  obtain ⟨-, houtstanding, -⟩ := Player.afterBreak_frame call.inside t.player
  rw [goOn_without_room hplace hstage hlow, breakOff, hcontrol]
  refine ⟨houtstanding, rfl, rfl, fun hinside => ?_⟩
  rw [hinside]
  rfl

/-- A request takes effect exactly when there is room for it. -/
theorem goOn_refused_iff :
    (t.goOn place).refused = t.refused ↔ t.player.outstanding + n ≤ Demand.ceiling := by
  refine ⟨fun hsame => ?_, fun hroom => (goOn_with_room hplace hstage hcontrol hroom).2.2⟩
  by_contra hfull
  obtain ⟨-, hmore, -, -⟩ := goOn_past_ceiling hplace hstage hcontrol (by omega)
  simp [hmore] at hsame

/-- Either way the demand is not less than before, and not nothing. -/
theorem goOn_keeps_demand (hn : 0 < n) (hbound : n ≤ Demand.ceiling) :
    t.player.outstanding ≤ (t.goOn place).player.outstanding ∧
      0 < (t.goOn place).player.outstanding := by
  by_cases hroom : t.player.outstanding + n ≤ Demand.ceiling
  · obtain ⟨hadded, -, -⟩ := goOn_with_room hplace hstage hcontrol hroom
    omega
  · obtain ⟨hkept, -, -, -⟩ := goOn_past_ceiling hplace hstage hcontrol (by omega)
    omega

end Grants

/-- A thread that has demand sleeps only while a call is about to wake it. -/
theorem Sound.wakes_with_demand {script : List Step} {t : PlayerTraffic} (h : t.Sound script)
    (hcredit : 0 < t.player.outstanding) (hasleep : t.player.asleep = true) :
    ∃ call ∈ t.calls, call.stage = .effective := by
  obtain ⟨-, -, -, ⟨hzero, -⟩ | hwakes⟩ := h.rested hasleep
  · omega
  · exact hwakes

end PlayerTraffic

/-! ## All three -/

/-- What a grant comes to that is for something and can be counted by itself, whatever was granted
and handed on before, and also where all grants together go past what can be counted.

- At a writer that is in use and was not cancelled it raises the demand, up to the ceiling, and a
  push that is made next goes on.
- A pump that was never asked for nothing takes its grants in order, each of which raises its
  demand, up to the ceiling; the demand goes down by one with each item that is handed on, and not
  otherwise; and with demand it never sleeps but for its source.
- A grant to a player takes effect exactly when there is room for it, and is added.  It breaks off
  when there is none, which leaves the demand as it was, and takes the thread along if the grant
  was made from inside a signal.  In either case the demand is not less than before, and not
  nothing. -/
theorem granting_keeps_demand {n : Nat} (hn : 0 < n) (hcounted : n ≤ Demand.ceiling) :
    (∀ (contentLength granter : Nat) (events : List OutletEvent),
      let t := (OutletTraffic.start contentLength).run events
      let t' := t.step (.request granter n)
      t.hasHandle = true → t.alive = true → t.cancelled = false →
        Demand.Rises n t.demand t'.demand ∧
        (t.ready = true → t.outlet.closed = false → ∀ item,
          (t'.step (.push item false)).stage = .holding item ∧
            (t'.step (.push item false)).demand + 1 = t'.demand)) ∧
    (∀ (scenario : PumpScenario) (events : List PumpEvent) (e : PumpEvent),
      let t := (Pumping.start scenario).run events
      let t' := t.step e
      .request 0 ∉ t.given →
        ∃ s p s' p', t.line.chain = .source s p ∧ t'.line.chain = .source s' p' ∧
          ((t'.emitted = t.emitted ∧
              ∃ taken rest, p.grants = taken ++ rest ∧ rest <+: p'.grants ∧
                p'.demand = p.demand.grantAll taken ∧
                ∀ front, front ++ [n] <+: taken →
                  Demand.Rises n (p.demand.grantAll front).items
                    (p.demand.grantAll (front ++ [n])).items) ∨
            (p.grants <+: p'.grants ∧ p'.demand.items + 1 = p.demand.items ∧
              ∃ chunk, t'.emitted = t.emitted ++ [chunk])) ∧
          (t'.line.isIdle = true → 0 < p'.demand.items → p'.stage = .over ∨ s'.parked = true)) ∧
    (∀ (script : List Step) (events : List PlayerEvent) (place : Nat) (call : HandleCall),
      let t := (PlayerTraffic.start script).run events
      let t' := t.step (.goesOn place)
      t.calls[place]? = some call → call.stage = .noted → call.control = .request n →
        t.player.outstanding ≤ t'.player.outstanding ∧ 0 < t'.player.outstanding ∧
        t'.player.outstanding ≤ Demand.ceiling ∧
        (t'.refused = t.refused ↔ t.player.outstanding + n ≤ Demand.ceiling) ∧
        (t.player.outstanding + n ≤ Demand.ceiling →
          t'.player.outstanding = t.player.outstanding + n ∧
            t'.player.performance = t.player.performance ∧ t'.refused = t.refused) ∧
        (Demand.ceiling < t.player.outstanding + n →
          t'.player.outstanding = t.player.outstanding ∧
            t'.refused = t.refused ++ [.request n] ∧ t'.calls = t.calls.eraseIdx place ∧
            (call.inside = true → t'.player.performance = .over)) ∧
        (t'.player.asleep = true → ∃ other ∈ t'.calls, other.stage = .effective)) := by
  refine ⟨?_, ?_, ?_⟩
  · intro contentLength granter events t t' hhandle halive hopen
    have hrises : Demand.Rises n t.demand t'.demand :=
      OutletTraffic.request_rises hhandle halive hopen granter hn
    obtain ⟨hready', hclosed', hopen'⟩ := OutletTraffic.request_keeps hhandle granter n
    exact ⟨hrises, fun hready hclosed item => OutletTraffic.push_takes (hready'.trans hready)
      (hclosed'.trans hclosed) (hopen'.trans hopen) hrises.some item⟩
  · intro scenario events e t t' hsome
    obtain ⟨s, p, k, h⟩ := (Pumping.start_heeding scenario).run events
    obtain ⟨s', p', k', h', hstepped⟩ := h.step e
    obtain ⟨said, hemitted, hcredited⟩ := hstepped.credited h hsome
    refine ⟨s, p, s', p', h.chain, h'.chain, ?_, h'.waits_for_source⟩
    cases hcredited with
    | takes taken rest hgrants hrest hsome hdemand =>
        refine .inl ⟨hemitted.trans (List.append_nil _), taken, rest, hgrants, hrest, hdemand, ?_⟩
        exact fun front hfront => Demand.rises_grantAll hsome p.demand hfront
    | spends chunk hqueue hcredit hdemand =>
        refine .inr ⟨hqueue, ?_, chunk, hemitted⟩
        rw [hdemand, Demand.spend_items]
        omega
  · intro script events place call t t' hplace hstage hcontrol
    have hcapped : t.Capped := PlayerTraffic.run_capped script events
    have hturn := PlayerTraffic.turn_step t (.goesOn place)
    have hsound : t'.Sound script := ((PlayerTraffic.start_sound script).run events).turn hturn
    obtain ⟨hkept, hsome⟩ := PlayerTraffic.goOn_keeps_demand hplace hstage hcontrol hn hcounted
    exact ⟨hkept, hsome, hcapped.turn hturn,
      PlayerTraffic.goOn_refused_iff hplace hstage hcontrol,
      PlayerTraffic.goOn_with_room hplace hstage hcontrol,
      PlayerTraffic.goOn_past_ceiling hplace hstage hcontrol, hsound.wakes_with_demand hsome⟩

/-- A consumer that has asked for all that can be counted, and has been given an item, asks again:
a writer and a pump for five and three items, which they count as far as there is room, and a player
for one and for two, of which it breaks off at the latter. -/
theorem full_counters_keep_demand :
    let written : List OutletEvent :=
      [.subscribe, .request 0 Demand.ceiling, .arrive, .arrive, .push [7] false, .proceed, .proceed]
    let scenario : PumpScenario :=
      { source := [.chunk [1], .chunk [2]]
        listener :=
          { onSubscribe := [.control (.request Demand.ceiling)]
            onNext := [[.control (.request 3)]] } }
    let played : List PlayerEvent :=
      [.plays, .plays, .requests true Demand.ceiling, .goesOn 0, .goesOn 0, .goesOn 0] ++
        List.replicate 3 .plays ++ [.requests false 1, .requests true 2, .goesOn 0, .goesOn 1]
    Demand.Rises 5 (Demand.ceiling - 1)
        (((OutletTraffic.start 4).run written).step (.request 1 5)).demand ∧
      (∃ s p s' p',
        ((Pumping.start scenario).run (List.replicate 5 .moves)).line.chain = .source s p ∧
        (((Pumping.start scenario).run (List.replicate 5 .moves)).step .moves).line.chain =
          .source s' p' ∧
        ∃ taken rest, p.grants = taken ++ rest ∧ p'.demand = p.demand.grantAll taken) ∧
      (((PlayerTraffic.start [.chunk [97]]).run played).step (.goesOn 0)).player.outstanding =
        Demand.ceiling ∧
      (((PlayerTraffic.start [.chunk [97]]).run played).step (.goesOn 1)).refused =
        [.request 2] := by
  intro written scenario played
  refine ⟨?_, ?_, ?_, ?_⟩
  · have hbefore : ((OutletTraffic.start 4).run written).demand = Demand.ceiling - 1 := by
      decide +kernel
    obtain ⟨hwriter, -, -⟩ := granting_keeps_demand (n := 5) (by decide) (by decide)
    rw [← hbefore]
    exact (hwriter 4 1 written (by decide +kernel) (by decide +kernel) (by decide +kernel)).1
  · obtain ⟨-, hpump, -⟩ := granting_keeps_demand (n := 3) (by decide) (by decide)
    obtain ⟨s, p, s', p', hchain, hchain', hmoved, -⟩ :=
      hpump scenario (List.replicate 5 .moves) .moves (by decide +kernel)
    refine ⟨s, p, s', p', hchain, hchain', ?_⟩
    rcases hmoved with ⟨-, taken, rest, hgrants, -, hdemand, -⟩ | ⟨-, -, chunk, hemitted⟩
    · exact ⟨taken, rest, hgrants, hdemand⟩
    · have hlength := congrArg List.length hemitted
      rw [List.length_append, List.length_singleton] at hlength
      exact absurd hlength (by decide +kernel)
  · obtain ⟨-, -, hplayer⟩ := granting_keeps_demand (n := 1) (by decide) (by decide)
    obtain ⟨-, -, -, -, hadds, -, -⟩ := hplayer [.chunk [97]] played 0
      { control := .request 1, inside := false, stage := .noted } (by decide +kernel) rfl rfl
    exact (hadds (by decide +kernel)).1.trans (by decide +kernel)
  · obtain ⟨-, -, hplayer⟩ := granting_keeps_demand (n := 2) (by decide) (by decide)
    obtain ⟨-, -, -, -, -, hbreaks, -⟩ := hplayer [.chunk [97]] played 1
      { control := .request 2, inside := true, stage := .noted } (by decide +kernel) rfl rfl
    exact (hbreaks (by decide +kernel)).2.1.trans (by decide +kernel)

/-- The counter of a player has no room for what goes past its ceiling.  A consumer that has asked
for all that can be counted, and has been given one chunk, breaks off when it asks for two more;
if it does so while it is given the chunk, it is told nothing more, not even the chunk that there is
demand for. -/
theorem player_without_room :
    (PlayScenario.run
        { script := [.chunk [97]]
          audience := .recorder Demand.ceiling
          steps := [.join, .recorder (.control (.request 2))] }).map Entry.reply =
      [.done, .refused .overflow] ∧
    let t := (PlayerTraffic.start [.chunk [97], .chunk [98]]).run
      ([.plays, .plays, .requests true Demand.ceiling, .goesOn 0, .goesOn 0, .goesOn 0] ++
        List.replicate 3 .plays ++ [.requests true 2, .goesOn 0, .goesOn 0])
    t.refused = [.request 2] ∧ t.player.performance = .over ∧ t.delivered = [[97]] ∧
      0 < t.player.outstanding := by
  refine ⟨by cbv, ?_, ?_, ?_, ?_⟩
  · decide +kernel
  · decide +kernel
  · decide +kernel
  · decide +kernel

end CreditFlow
