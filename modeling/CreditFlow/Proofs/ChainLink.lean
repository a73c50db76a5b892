import CreditFlow.Proofs.ChainWatch

/-!
# Which hops have taken their subscription

A hop can be told nothing, and cannot let its publisher know that it goes away, before it has
taken its subscription out of the inbox of its stream; and it looks there only when it has
been asked for an item.  A chain is *linked* when each hop that has not taken its subscription
still owes its consumer the one item that it was asked for, if it was asked at all.  This is
so from the beginning on, since the consumer of a hop asks as soon as it has been greeted.

When a linked chain is idle, a hop that owes an item sleeps for its stream, and there its
greeting would have woken it.  So every hop has taken its subscription by then, and keeps it
until it lets go of its stream.

Main results:

- {lit}`PullStream.Tuned.takes`: what a poll does to the subscription of a stream.
- {lit}`Chain.Linked.turn`, {lit}`Chain.Linked.atWriter`: a chain stays linked.
- {lit}`Chain.Linked.of_idle`: in an idle chain every hop has taken its subscription.
-/

namespace CreditFlow

/-! ## The subscription of a stream -/

namespace PullStream

/-- Looking through the inbox never loses a subscription. -/
theorem attendTo_taken {ι : Type} {s : PullStream ι} (inbox : List (Signal ι))
    (htaken : s.subscription ≠ none) : (s.attendTo inbox).1.subscription ≠ none := by
  induction inbox generalizing s with
  | nil =>
      unfold attendTo
      split
      · split <;> exact htaken
      · exact htaken
  | cons sig rest ih =>
      cases sig with
      | subscribed handle => exact ih (by simp)
      | next chunk => exact htaken
      | error cause => exact htaken
      | complete => exact htaken

theorem attend_taken {ι : Type} {s : PullStream ι} (htaken : s.subscription ≠ none) :
    s.attend.1.subscription ≠ none := by
  unfold attend
  split
  · exact htaken
  · exact attendTo_taken s.inbox htaken

/-- What a poll of a stream that is tuned to a port does to its subscription. -/
inductive Takes (q : Port) (s s' : PullStream Unit) : Attention Unit → Prop
  /-- It had been taken before. -/
  | had (attention : Attention Unit) (hbefore : s.subscription ≠ none)
      (hafter : s'.subscription ≠ none) : Takes q s s' attention
  /-- Whoever takes it asks for an item. -/
  | took (hafter : s'.subscription ≠ none) : Takes q s s' (.asks ())
  | waits (hafter : s'.subscription = none) : Takes q s s' (.answer .pending)
  /-- The stream has ended. -/
  | ended (p : Pull) (hnothing : p.isItem = false) (hended : q.isEnded = true) :
      Takes q s s' (.answer p)

variable {q : Port} {s s' : PullStream Unit}

/-- A stream that has not been greeted may find its greeting, and then nothing but an end. -/
theorem attendTo_takes {inbox : List (Signal Unit)} (hsub : s.subscription = none)
    (hrequested : s.requested = false)
    (htold : Port.vacant.emits (inbox.map .signal ++ if s.connected then [] else [.hangUp]) =
      some q) : Takes q s (s.attendTo inbox).1 (s.attendTo inbox).2.2 := by
  cases inbox with
  | nil =>
      cases hconnected : s.connected with
      | false => simp [hconnected, Port.emit] at htold
      | true =>
          have hwaits : s.attendTo [] =
              ({ s with inbox := [], parked := true }, [], .answer .pending) := by
            simp [attendTo, hconnected, hrequested, hsub]
          rw [hwaits]
          exact .waits hsub
  | cons sig rest =>
      rw [List.map_cons, List.cons_append, Port.emits_cons] at htold
      obtain ⟨r, hemit, hrest⟩ := Option.bind_eq_some_iff.mp htold
      cases sig with
      | next chunk => cases hemit
      | error cause => cases hemit
      | complete => cases hemit
      | subscribed handle =>
          obtain rfl := (Port.emit_subscribed hemit).2
          cases rest with
          | nil =>
              cases hconnected : s.connected with
              | false => simp [hconnected, Port.emit] at hrest
              | true =>
                  have hasks : s.attendTo [.subscribed handle] =
                      ({ s with
                          subscription := some handle
                          inbox := []
                          parked := true
                          requested := true }, [.pullSubscribed], .asks handle) := by
                    simp [attendTo, hconnected, hrequested]
                  rw [hasks]
                  exact .took (Option.some_ne_none handle)
          | cons next rest =>
              rw [List.map_cons, List.cons_append, Port.emits_cons] at hrest
              obtain ⟨r, hemit', hlast⟩ := Option.bind_eq_some_iff.mp hrest
              cases next with
              | subscribed other => cases hemit'
              | next chunk => cases hemit'
              | error cause =>
                  obtain ⟨-, -, rfl⟩ := Port.emit_error hemit'
                  exact .ended _ rfl (Port.emits_of_ended hlast).1
              | complete =>
                  obtain ⟨-, -, rfl⟩ := Port.emit_complete hemit'
                  exact .ended _ rfl (Port.emits_of_ended hlast).1

/-- What a poll of a tuned stream does to its subscription. -/
theorem Tuned.takes (h : Tuned q s) (hopen : s.done = false ∧ s.dropped = false)
    {notes : List Notice} {attention : Attention Unit}
    (hattend : s.attend = (s', notes, attention)) : Takes q s s' attention := by
  have hsame : s.attend = s.attendTo s.inbox := by simp [attend, hopen.1]
  by_cases hsub : s.subscription = none
  · have htold := h.told hopen.2
    have hseen : s.seen = .vacant := by simp [seen, hopen.1, hsub]
    rw [hseen] at htold
    have htakes := attendTo_takes hsub (h.quiet hopen.2 hsub) htold
    rw [← hsame, hattend] at htakes
    exact htakes
  · have hafter := attend_taken hsub
    rw [hattend] at hafter
    exact .had attention hsub hafter

end PullStream

/-! ## Linked chains -/

/-- Whether a pump has ended its stream is not up to its consumer. -/
@[simp]
theorem Pump.control_isEnded (c : Control) (p : Pump) :
    (p.control c).1.port.isEnded = p.port.isEnded := by
  unfold port
  rw [control_stage]
  cases p.stage <;> rfl

namespace Chain

/-- Each hop that has not taken its subscription, and has not ended its own stream, owes an
item if it was asked.  `taken` says that the consumer behind the chain has taken its
subscription, and so has asked; `joined` that every hop has taken its own. -/
def Linked (joined taken : Prop) : Chain → Prop
  | hop before s p =>
      before.Linked joined (s.subscription ≠ none) ∧
        (p.port.isEnded = false → s.subscription = none →
          ¬joined ∧ (taken → p.port = .live 1))
  | _ => True

variable {joined taken taken' : Prop} {c : Chain}

/-- It does no harm if the consumer has asked for less. -/
theorem Linked.mono (h : c.Linked joined taken) (htaken : taken' → taken) :
    c.Linked joined taken' := by
  cases c with
  | hop before s p =>
      refine ⟨h.1, fun hopen hnone => ?_⟩
      obtain ⟨hjoined, howes⟩ := h.2 hopen hnone
      exact ⟨hjoined, fun h => howes (htaken h)⟩
  | _ => trivial

/-- A chain that has ended its stream owes nothing. -/
theorem Linked.of_ended (h : c.Linked joined taken) (hended : c.port.isEnded = true)
    (taken' : Prop) : c.Linked joined taken' := by
  cases c with
  | hop before s p =>
      refine ⟨h.1, fun hopen => ?_⟩
      rw [show p.port.isEnded = true from hended] at hopen
      cases hopen
  | _ => trivial

/-- A consumer that asks has been given all that it had asked for. -/
theorem Linked.request (hsound : c.Sound) (h : c.Linked joined taken)
    (hport : c.port = .live 0 ∨ c.port.isEnded = true) :
    (c.control (.request 1)).1.Linked joined True := by
  cases c with
  | hop before s p =>
      have hgrant := (control_request_fits hsound.2.2 hport).2
      refine ⟨h.1, fun hopen hnone => ?_⟩
      rw [Pump.control_isEnded] at hopen
      refine ⟨(h.2 hopen hnone).1, fun _ => ?_⟩
      rcases hport with hlive | hended
      · rw [hgrant, show p.port = .live 0 from hlive]
        rfl
      · rw [show p.port.isEnded = true from hended] at hopen
        cases hopen
  | _ => trivial

/-- Whether a chain has ended its stream is not up to its consumer. -/
@[simp]
theorem control_isEnded (ctl : Control) (c : Chain) :
    (c.control ctl).1.port.isEnded = c.port.isEnded := by
  cases c with
  | writer o =>
      obtain ⟨ledger, hcontrol, -⟩ := o.control_eq ctl
      simp only [control, port, hcontrol, Outlet.port]
      cases o.downstream <;> rfl
  | source s p => exact p.control_isEnded ctl
  | player p => rfl
  | hop before s p => exact p.control_isEnded ctl

/-- After the end it does not matter what the consumer says. -/
theorem Linked.controls_of_ended (h : c.Linked joined taken) (hended : c.port.isEnded = true)
    (cs : List Control) : (c.controls cs).1.Linked joined taken' := by
  induction cs generalizing c with
  | nil => exact h.of_ended hended taken'
  | cons ctl cs ih =>
      have hstill := (control_isEnded ctl c).trans hended
      refine ih ?_ hstill
      cases c with
      | hop before s p =>
          refine ⟨h.1, fun hopen => ?_⟩
          rw [show (p.control ctl).1.port.isEnded = true from hstill] at hopen
          cases hopen
      | _ => trivial

/-- What a hop hears of the chain before it links nothing and unlinks nothing. -/
theorem Linked.absorb {new : List (Signal Unit)} {before : Chain} {r : Chain × Burst}
    {s : PullStream Unit} {p : Pump} (h : (hop before s p).Linked joined taken)
    (hsound : (hop before s p).Sound) (hmoves : Moves new before r)
    (hbefore : r.1.Linked joined (s.subscription ≠ none)) :
    (Chain.absorb s p r).1.Linked joined taken := by
  obtain ⟨s', p', wakes, hhear, -, -, hport, hsub, -⟩ :=
    hear_tuned hsound.2.1 hsound.2.2 hmoves.emits
  have hafter : (Chain.absorb s p r).1 = hop r.1 s' p' := by rw [Chain.absorb, hhear]
  rw [hafter]
  refine ⟨?_, ?_⟩
  · rw [hsub]
    exact hbefore
  · rw [hport, hsub]
    exact h.2

/-! ## Turns -/

/-- A turn of the last hop leaves a chain linked. -/
theorem Linked.hopTurn {before : Chain} {s : PullStream Unit} {p : Pump} {r : Chain × Burst}
    (h : (hop before s p).Linked joined taken) (hsound : (hop before s p).Sound)
    (hturn : HopTurns before s p r) : r.1.Linked joined taken := by
  rcases hsound with ⟨hbefore, htuned, hfits⟩
  -- Where the stream is left alone, the pump may only give up, or keep what it owes.
  have hpump : ∀ p' : Pump, (p'.port.isEnded = false →
      p.port.isEnded = false ∧ (p.port = .live 1 → p'.port = .live 1)) →
      (hop before s p').Linked joined taken := by
    intro p' hkeeps
    refine ⟨h.1, fun hopen hnone => ?_⟩
    obtain ⟨hopen', howes'⟩ := hkeeps hopen
    obtain ⟨hjoined, howes⟩ := h.2 hopen' hnone
    exact ⟨hjoined, fun htaken => howes' (howes htaken)⟩
  have hsame : ∀ p' : Pump, p'.port = p.port → (hop before s p').Linked joined taken := by
    intro p' hport
    refine hpump p' fun hopen => ?_
    rw [hport] at hopen ⊢
    exact ⟨hopen, id⟩
  have hleft : ∀ p' : Pump, p'.stage = .leaving → (hop before s p').Linked joined taken := by
    intro p' hstage
    refine hpump p' fun hopen => ?_
    simp [Pump.port, hstage, Port.isEnded] at hopen
  cases hturn with
  | greets hstage =>
      refine hpump _ fun _ => ⟨by simp [Pump.port, hstage, Port.isEnded], fun hlive => ?_⟩
      simp [Pump.port, hstage] at hlive
  | starts hstage => exact hsame _ (hfits.toServes.starts hstage).2
  | cancels note hstage hcancelled => exact hleft _ rfl
  | orphaned hstage hheld => exact hleft _ rfl
  | takes n rest hstage hdemand hgrants => exact hsame _ (hfits.toServes.takes hstage hgrants).2
  | refuses grants demand hstage hzero => exact hleft _ rfl
  | waits hstage hdemand hgrants hheld => exact hsame _ rfl
  | folds demand hstage hfold => exact hsame _ (hfits.toServes.folds hstage hfold).2
  | asks s' p' notes hpolls hattend =>
      obtain ⟨-, -, hopen⟩ := hfits.polls hpolls
      cases htuned.attends hopen hattend with
      | asks hspent hcargo hopen' hempty htuned' =>
          have hsub : s'.subscription ≠ none := by
            cases htuned.takes hopen hattend with
            | had _ hbefore' hafter => exact hafter
            | took hafter => exact hafter
          have hasked := Linked.request hbefore h.1 (.inl hspent)
          exact ⟨hasked.mono fun _ => trivial, fun _ hnone => absurd hnone hsub⟩
  | sleeps s' p' notes hpolls hattend =>
      obtain ⟨hfits', hport, hopen⟩ := hfits.polls hpolls
      have hpending : p'.pending.port = p.port :=
        (hfits'.toServes.pending hpolls.stage).2.trans hport
      have hkept : s'.subscription = none → s.subscription = none := by
        intro hnone
        by_contra hsub
        have hafter := PullStream.attend_taken hsub
        rw [hattend] at hafter
        exact hafter hnone
      refine ⟨?_, fun hlive hnone => ?_⟩
      · cases htuned.takes hopen hattend with
        | had _ hbefore' hafter => exact h.1.mono fun _ => hbefore'
        | waits hafter => exact h.1.mono fun hsub => absurd hafter hsub
        | ended _ hnothing hended => exact h.1.of_ended hended _
      · rw [hpending] at hlive ⊢
        exact h.2 hlive (hkept hnone)
  | yields s' p' notes answer r hpolls hattend hpulled =>
      obtain ⟨hfits', -, hopen⟩ := hfits.polls hpolls
      cases htuned.takes hopen hattend with
      | had _ hbefore' hafter =>
          exact ⟨h.1.mono fun _ => hbefore', fun _ hnone => absurd hnone hafter⟩
      | waits hafter => cases hpulled
      | ended _ hnothing hended =>
          refine ⟨h.1.of_ended hended _, fun hlive => ?_⟩
          have hstage : (p'.receive r).1.stage = .leaving := by
            cases answer with
            | item chunk => cases hnothing
            | pending => cases hpulled
            | failed cause =>
                cases hpulled
                rw [Pump.receive_failure hfits'.uncancelled]
            | ended =>
                cases hpulled
                rw [Pump.receive_end hfits'.uncancelled]
          simp [Pump.port, hstage, Port.isEnded] at hlive
  | leaves hstage =>
      have hended : p.port.isEnded = true := by simp [Pump.port, hstage, Port.isEnded]
      have hgone := htuned.ended_of_done (hfits.done_eq.trans hended)
      exact ⟨h.1.controls_of_ended hgone _, fun hopen => by simp [Pump.port, Port.isEnded] at hopen⟩
  | rests hstage => exact h

/-- Every turn leaves a chain linked. -/
theorem Linked.turn (h : c.Linked joined taken) (hsound : c.Sound) (k : Nat) :
    (c.turn k).1.Linked joined taken := by
  induction c generalizing taken with
  | writer o => trivial
  | source s p =>
      unfold Chain.turn
      split
      · obtain ⟨s', p', hafter⟩ := (sourceTurns_sourceTurn s p).source
        rw [hafter]
        trivial
      · trivial
  | player p => exact hsound.elim
  | hop before s p ih =>
      by_cases hk : k = before.hops + 1
      · rw [hk, turn_last]
        exact h.hopTurn hsound (hopTurns_hopTurn before s p)
      · rw [turn_before hk]
        exact h.absorb hsound (hsound.1.turn k) (ih h.1 hsound.1)

/-- So does what the writer signals. -/
theorem Linked.atWriter (h : c.Linked joined taken) (hsound : c.Sound) {o : Outlet}
    (hwriter : c.writer? = some o) {f : Outlet → Outlet × List Notice × List Emission}
    (hserving : (f o).1.Serving) (hemits : o.port.emits (f o).2.2 = some (f o).1.port) :
    (c.atWriter f).1.Linked joined taken := by
  induction c generalizing taken with
  | writer o' => trivial
  | source s p => cases hwriter
  | player p => exact hsound.elim
  | hop before s p ih =>
      exact h.absorb hsound (hsound.1.atWriter hwriter hserving hemits) (ih h.1 hsound.1 hwriter)

/-! ## The beginning, and idle chains -/

/-- Hops that have heard nothing owe nothing. -/
theorem Linked.extend (h : c.Linked False False) (n : Nat) :
    (Chain.extend n c).Linked False False := by
  induction n generalizing c with
  | zero => exact h
  | succ n ih => exact ih ⟨h.mono (absurd rfl), fun _ _ => ⟨id, False.elim⟩⟩

/-- While the writer may push, the stream has not ended anywhere. -/
theorem Sound.isEnded_of_unfinished (h : c.Sound) {st : Standing} (hst : c.standing = some st)
    (hfinish : st.finish = none) : c.port.isEnded = false := by
  induction c with
  | writer o =>
      cases hst
      cases hdown : o.downstream with
      | waiting => simp [port, Outlet.port, hdown, Port.isEnded]
      | attached => simp [port, Outlet.port, hdown, Port.isEnded]
      | done =>
          obtain ⟨f, hf, -⟩ := h.ended hdown
          rw [show o.ledger.finish = none from hfinish] at hf
          cases hf
  | source s p => cases hst
  | player p => cases hst
  | hop before s p ih =>
      by_contra hended
      have hdone : s.done = true := h.2.2.done_eq.trans (Bool.of_not_eq_false hended)
      have hbefore := h.2.1.ended_of_done hdone
      rw [ih h.1 hst] at hbefore
      cases hbefore

/-- In an idle chain whose writer may push, and whose consumer has asked, every hop has taken
its subscription. -/
theorem Linked.of_idle (h : c.Linked joined taken) (hsound : c.Sound) (hidle : c.Tended [] none)
    {st : Standing} (hst : c.standing = some st) (hfinish : st.finish = none) (htaken : taken) :
    c.Linked True True := by
  induction c generalizing taken with
  | hop before s p ih =>
      have hopen := hsound.isEnded_of_unfinished hst hfinish
      have hsub : s.subscription ≠ none := by
        intro hnone
        -- A hop that owes an item sleeps for its stream, which would have found its greeting.
        have howes := (h.2 hopen hnone).2 htaken
        obtain ⟨-, hdry⟩ := dry_of_rests (rests_of_idle hidle.2) howes
        have hlive := (idle_hop hsound hidle howes).1
        have hkept : s.dropped = false := by
          by_contra hdropped
          have hended := (hsound.2.1.gone (by simpa using hdropped)).1
          rw [hlive] at hended
          cases hended
        have hdone : s.done = false := hsound.2.2.done_eq.trans hopen
        have htold := hsound.2.1.told hkept
        have hseen : s.seen = .vacant := by simp [PullStream.seen, hdone, hnone]
        rw [PullStream.arrived, hdry.inbox, hdry.connected, hseen, hlive] at htold
        cases htold
      exact ⟨(ih h.1 hsound.1 hidle.1 hst hsub).mono fun _ => trivial,
        fun _ hnone => absurd hnone hsub⟩
  | _ => trivial

end Chain
end CreditFlow
