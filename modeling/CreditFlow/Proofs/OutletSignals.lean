import CreditFlow.Proofs.OutletTurn

/-!
# What the consumer of an outlet hears

The writer puts an end down in the ledger before it looks for somebody to tell; the
subscription looks at the ledger before it puts the consumer in place, and keeps the
downstream locked meanwhile.  Whichever comes second finds what the other has left, so the
end is told by exactly one of them.

Main results:

- {lit}`OutletTraffic.run_voiced`: a consumer hears its greeting, then items, then at most
  one end.
- {lit}`OutletTraffic.run_silent`: a consumer that was let go hears nothing more.
- {lit}`OutletTraffic.run_finishing`: the calls under way come to an end by going on.
- {lit}`OutletTraffic.run_ends_once`: a consumer that has not cancelled is told of the end
  once, behind all items.
-/

namespace CreditFlow

/-! ## Signals -/

/-- The signal that an emission is, if any. -/
def Emission.signal? : Emission → Option (Signal Unit)
  | .signal s => some s
  | .hangUp => none

@[simp]
theorem Emission.hangUp_signals : [hangUp].filterMap signal? = [] := rfl

@[simp]
theorem Emission.hangUp_items : [hangUp].filterMap item? = [] := rfl

/-- The signal that tells of an end. -/
def Finish.signal : Finish → Signal Unit
  | .complete => .complete
  | .abandoned => .error (.condition .abandoned)

@[simp]
theorem Finish.signal_isTerminal (f : Finish) : f.signal.isTerminal = true := by
  cases f <;> rfl

@[simp]
theorem Outlet.farewell_signals (f : Finish) :
    (farewell f).2.filterMap Emission.signal? = [f.signal] := by
  cases f <;> rfl

/-- The item that has been handed over by a push that has not answered. -/
def WriterStage.handed? : WriterStage → Option Octets
  | .handing item => some item
  | _ => none

namespace OutletTraffic

/-- The signals that the consumer has heard, in order. -/
def signals (t : OutletTraffic) : List (Signal Unit) :=
  t.heard.filterMap Emission.signal?

/-- The ends among them. -/
def endings (t : OutletTraffic) : List (Signal Unit) :=
  t.signals.filter Signal.isTerminal

/-- The greeting of a consumer that has its handle. -/
def greetings (t : OutletTraffic) : List (Signal Unit) :=
  if t.hasHandle then [.subscribed ()] else []

/-- The item of a push that has gone through. -/
def pushed? : Octets × Except Failure Unit → Option Octets
  | (item, .ok _) => some item
  | (_, .error _) => none

/-- The items of the pushes that have gone through, in order. -/
def accepted (t : OutletTraffic) : List Octets :=
  t.pushes.filterMap pushed?

theorem accepted_of_refused (t : OutletTraffic) (item : Octets) (f : Failure) :
    (t.answerPush item (.error f)).accepted = t.accepted :=
  List.filterMap_append.trans (List.append_nil _)

theorem accepted_of_pushed (t : OutletTraffic) (item : Octets) :
    (t.answerPush item (.ok ())).accepted = t.accepted ++ [item] :=
  List.filterMap_append

section Voiced

variable {t t' : OutletTraffic}

/-- What is heard is added to the signals. -/
theorem signals_of_heard {out : List Emission} (hheard : t'.heard = t.heard ++ out) :
    t'.signals = t.signals ++ out.filterMap Emission.signal? := by
  rw [signals, hheard, List.filterMap_append, signals]

/-- The ends in what is heard are added to the ends. -/
theorem endings_of_heard {out : List Emission} (hheard : t'.heard = t.heard ++ out) :
    t'.endings = t.endings ++ (out.filterMap Emission.signal?).filter Signal.isTerminal := by
  rw [endings, signals_of_heard hheard, List.filter_append, endings]

/-- The items in what is heard are added to those that were delivered. -/
theorem delivered_of_heard {out : List Emission} (hheard : t'.heard = t.heard ++ out) :
    t'.delivered = t.delivered ++ out.filterMap Emission.item? := by
  rw [delivered, hheard, List.filterMap_append, delivered]

/-! ## Who is to tell of the end -/

/-- The writer, the subscription and the ledger agree about the end. -/
structure Agreed (t : OutletTraffic) : Prop extends Placed t where
  /-- Before the subscription is through, nobody is in place and nobody was let go. -/
  early : t.arrival ≠ .settled → t.outlet.downstream = .waiting
  /-- While somebody is in place, an end is still to be told by the writer. -/
  pending : t.outlet.downstream = .attached → ∀ f, t.outlet.ledger.finish = some f →
    ∃ silent, t.stage = .ending f silent
  /-- A subscription has seen the end, or the writer is held up by it. -/
  fresh : ∀ seen, t.arrival = .looked seen → seen.finish = t.outlet.ledger.finish ∨
    seen.finish = none ∧ ∃ f silent, t.stage = .ending f silent
  /-- A writer keeps silent about the end only after a cancellation. -/
  silent : ∀ f, t.stage = .ending f true → t.cancelled = true
  /-- A writer that has closed has put a completion down. -/
  completed : t.outlet.closed = true → t.outlet.ledger.finish = some .complete
  /-- A writer that went away without closing has abandoned the stream. -/
  abandoned : t.outlet.writerHeld = false → t.outlet.closed = false →
    t.outlet.ledger.finish = some .abandoned
  /-- A writer that went away is in no call. -/
  gone : t.outlet.writerHeld = false → t.stage = .idle
  /-- A subscription keeps the body. -/
  kept : t.outlet.bodyHeld = false → t.unlocked = true

/-- Before anything has happened nobody has ended anything. -/
theorem start_agreed (contentLength : Nat) : (start contentLength).Agreed := by
  refine ⟨start_placed contentLength, ?_, ?_, ?_, ?_, ?_, ?_, ?_, ?_⟩
  all_goals simp [start]

/-- A subscription that has looked at the ledger keeps the downstream locked. -/
theorem not_looked (hunlocked : t.unlocked = true) (seen : Ledger) : t.arrival ≠ .looked seen := by
  intro hlooked
  simp [unlocked, hlooked] at hunlocked

/-- A writer at rest that has not closed has put no end down. -/
theorem Placed.unfinished_of_ready (h : t.Placed) (hready : t.ready = true)
    (hopen : t.outlet.closed = false) :
    t.outlet.ledger.finish = none := by
  obtain ⟨hheld, hidle⟩ := ready_iff.mp hready
  exact h.unfinished hheld hopen (by rw [hidle]; rfl)

/-- A writer that is to tell of an end does so, or finds that it has nobody to tell. -/
theorem ending_turn (hturn : Turn t t') {f : Finish} {silent : Bool}
    (hending : t.stage = .ending f silent) :
    t'.stage = .ending f silent ∨ t.unlocked = true ∧ t'.outlet.downstream ≠ .attached := by
  cases hturn with
  | refuses item g hstage => simp [hending] at hstage
  | takes item hready hopen hlistening => simp [hending, ready_iff] at hready
  | hands item hstage hunlocked hattached => simp [hending] at hstage
  | counts item hstage => simp [hending] at hstage
  | ends g hready hopen => simp [hending, ready_iff] at hready
  | defers g quiet hstage hunlocked hdown => exact .inr ⟨hunlocked, hdown⟩
  | concludes g quiet hstage hunlocked hattached => exact .inr ⟨hunlocked, by simp⟩
  | closes answer hstage => simp [hending, ready_iff] at hstage
  | leaves hstage => simp [hending, ready_iff] at hstage
  | _ => exact .inl hending

/-- Nobody is in place before the subscription has settled. -/
theorem Agreed.early_turn (h : t.Agreed) (hturn : Turn t t') :
    t'.arrival ≠ .settled → t'.outlet.downstream = .waiting := by
  have hearly := h.early
  cases hturn with
  | greets harrival hbody => exact fun _ => hearly (by simp [harrival])
  | looks harrival => exact fun _ => hearly (by simp [harrival])
  | declines seen harrival hcancelled => exact fun hunsettled => absurd rfl hunsettled
  | overtaken seen f harrival hlistening hfinish => exact fun hunsettled => absurd rfl hunsettled
  | attaches seen harrival hlistening hfinish => exact fun hunsettled => absurd rfl hunsettled
  | concludes f silent hstage hunlocked hattached =>
      intro hunsettled
      rw [hearly hunsettled] at hattached
      cases hattached
  | _ => exact hearly

/-- Only the writer's own call takes it past an end, and then nobody is in place any more. -/
theorem Agreed.pending_turn (h : t.Agreed) (hturn : Turn t t') :
    t'.outlet.downstream = .attached → ∀ f, t'.outlet.ledger.finish = some f →
      ∃ silent, t'.stage = .ending f silent := by
  have hpending := h.pending
  have hends := @ending_turn t t' hturn
  cases hturn with
  | controls ledger grants hhandle hfinish hcancelled =>
      intro hattached f hf
      exact hpending hattached f (hfinish ▸ hf)
  | declines | overtaken =>
      intro hattached
      cases hattached
  | attaches seen harrival hlistening hfinish =>
      intro _ f hf
      rcases h.fresh seen harrival with hsame | ⟨-, g, silent, hstage⟩
      · rw [← hsame, hfinish] at hf
        cases hf
      · have hput := (h.ending g (by rw [hstage]; rfl)).1
        obtain rfl : g = f := Option.some.inj (hput.symm.trans hf)
        exact ⟨silent, hstage⟩
  | ends f hready hopen =>
      intro _ g hg
      cases hg
      exact ⟨t.cancelled, rfl⟩
  | concludes f silent hstage hunlocked hattached =>
      intro hdone
      cases hdone
  | _ =>
      intro hattached f hf
      obtain ⟨silent, hstage⟩ := hpending hattached f hf
      exact ⟨silent, (hends hstage).resolve_right fun hgone => hgone.2 hattached⟩

/-- What the subscription has looked at stays right, for a writer that wants to tell of an end
waits until the subscription is through. -/
theorem Agreed.fresh_turn (h : t.Agreed) (hturn : Turn t t') :
    ∀ seen, t'.arrival = .looked seen → seen.finish = t'.outlet.ledger.finish ∨
      seen.finish = none ∧ ∃ f silent, t'.stage = .ending f silent := by
  have hfresh := h.fresh
  have hends := @ending_turn t t' hturn
  cases hturn with
  | controls ledger grants hhandle hfinish hcancelled =>
      intro seen harrival
      exact (hfresh seen harrival).imp_left fun hsame => hsame.trans hfinish.symm
  | looks harrival =>
      intro seen hlooked
      cases hlooked
      exact .inl rfl
  | greets | declines | overtaken | attaches =>
      intro seen hlooked
      cases hlooked
  | ends f hready hopen =>
      intro seen harrival
      have hnone := h.unfinished_of_ready hready hopen
      rcases hfresh seen harrival with hsame | ⟨-, g, silent, hstage⟩
      · exact .inr ⟨hsame.trans hnone, f, t.cancelled, rfl⟩
      · rw [(ready_iff.mp hready).2] at hstage
        cases hstage
  | _ =>
      intro seen harrival
      rcases hfresh seen harrival with hsame | ⟨hnone, f, silent, hstage⟩
      · exact .inl hsame
      · exact .inr ⟨hnone, f, silent,
          (hends hstage).resolve_right fun hgone => not_looked hgone.1 seen harrival⟩

/-- An end is passed over in silence only if the consumer has cancelled. -/
theorem Agreed.silent_turn (h : t.Agreed) (hturn : Turn t t') :
    ∀ f, t'.stage = .ending f true → t'.cancelled = true := by
  have hsilent := h.silent
  cases hturn with
  | controls ledger grants hhandle hfinish hcancelled =>
      exact fun f hstage => hcancelled (hsilent f hstage)
  | ends g hready hopen =>
      intro f hstage
      have hboth : g = f ∧ t.cancelled = true := WriterStage.ending.inj hstage
      exact hboth.2
  | refuses | takes | hands | counts | defers | concludes | closes | leaves =>
      intro f hending
      cases hending
  | _ => exact hsilent

/-- A writer that closes puts a completion down. -/
theorem Agreed.completed_turn (h : t.Agreed) (hturn : Turn t t') :
    t'.outlet.closed = true → t'.outlet.ledger.finish = some .complete := by
  have hcompleted := h.completed
  cases hturn with
  | controls ledger grants hhandle hfinish hcancelled =>
      exact fun hclosed => hfinish.trans (hcompleted hclosed)
  | ends f hready hopen =>
      intro hclosed
      have hcomplete : f = .complete := of_decide_eq_true hclosed
      rw [hcomplete]
      rfl
  | _ => exact hcompleted

/-- A writer that goes away without closing puts an abandonment down. -/
theorem Agreed.abandoned_turn (h : t.Agreed) (hturn : Turn t t') :
    t'.outlet.writerHeld = false → t'.outlet.closed = false →
      t'.outlet.ledger.finish = some .abandoned := by
  have habandoned := h.abandoned
  cases hturn with
  | controls ledger grants hhandle hfinish hcancelled =>
      exact fun hleft hopen => hfinish.trans (habandoned hleft hopen)
  | ends f hready hopen =>
      intro hleft
      have hheld : t.outlet.writerHeld = false := hleft
      simp [ready_iff, hheld] at hready
  | leaves hstage =>
      intro _ hopen
      have hnot : t.outlet.closed = false := hopen
      have hdeparts : t.stage = .departing .abandoned := by simpa [hnot] using hstage
      exact (h.ending .abandoned (by rw [hdeparts]; rfl)).1
  | _ => exact habandoned

/-- A writer that is gone makes no calls. -/
theorem Agreed.gone_turn (h : t.Agreed) (hturn : Turn t t') :
    t'.outlet.writerHeld = false → t'.stage = .idle := by
  have hgone := h.gone
  cases hturn with
  | refuses item f hstage => exact fun _ => rfl
  | takes item hready hopen hlistening =>
      intro hleft
      have hheld : t.outlet.writerHeld = false := hleft
      simp [ready_iff, hheld] at hready
  | hands item hstage hunlocked hattached =>
      intro hleft
      rw [hgone hleft] at hstage
      cases hstage
  | counts item hstage => exact fun _ => rfl
  | ends f hready hopen =>
      intro hleft
      have hheld : t.outlet.writerHeld = false := hleft
      simp [ready_iff, hheld] at hready
  | defers f silent hstage hunlocked hdown =>
      intro hleft
      rw [hgone hleft] at hstage
      cases hstage
  | concludes f silent hstage hunlocked hattached =>
      intro hleft
      rw [hgone hleft] at hstage
      cases hstage
  | closes answer hstage => exact fun _ => rfl
  | leaves hstage => exact fun _ => rfl
  | _ => exact hgone

theorem Agreed.kept_turn (h : t.Agreed) (hturn : Turn t t') :
    t'.outlet.bodyHeld = false → t'.unlocked = true := by
  have hkept := h.kept
  cases hturn with
  | greets harrival hbody =>
      intro hdropped
      have hbodyless : t.outlet.bodyHeld = false := hdropped
      rw [hbodyless] at hbody
      cases hbody
  | looks harrival =>
      intro hdropped
      have hunlocked := hkept hdropped
      simp [unlocked, harrival] at hunlocked
  | declines seen harrival hcancelled => exact fun _ => rfl
  | overtaken seen f harrival hlistening hfinish => exact fun _ => rfl
  | attaches seen harrival hlistening hfinish => exact fun _ => rfl
  | dropsBody hunlocked => exact fun _ => hunlocked
  | _ => exact hkept

/-- Whatever happens, writer, subscription and ledger keep agreeing about the end. -/
theorem Agreed.turn (h : t.Agreed) (hplaced : t'.Placed) (hturn : Turn t t') : t'.Agreed where
  toPlaced := hplaced
  early := h.early_turn hturn
  pending := h.pending_turn hturn
  fresh := h.fresh_turn hturn
  silent := h.silent_turn hturn
  completed := h.completed_turn hturn
  abandoned := h.abandoned_turn hturn
  gone := h.gone_turn hturn
  kept := h.kept_turn hturn

/-! ## What has been heard -/

/-- What the consumer has heard fits where the calls are. -/
structure Voiced (t : OutletTraffic) : Prop extends Agreed t where
  /-- A greeting, items, and what ends the stream, in this order. -/
  spoken : t.signals = t.greetings ++ t.delivered.map .next ++ t.endings
  /-- Until the subscription is through there is nothing but the greeting. -/
  unheard : t.outlet.downstream = .waiting → t.delivered = [] ∧ t.endings = []
  /-- A consumer that is in place has not been told of an end. -/
  unended : t.outlet.downstream = .attached → t.endings = []
  /-- One that was let go has been told of the end, unless it had cancelled. -/
  finished : t.outlet.downstream = .done → t.cancelled = true ∧ t.endings = [] ∨
    ∃ f, t.outlet.ledger.finish = some f ∧ t.endings = [f.signal]
  /-- The items are those of the pushes that have gone through, and of one that is about to. -/
  answered : t.delivered = t.accepted ++ t.stage.handed?.toList

theorem start_voiced (contentLength : Nat) : (start contentLength).Voiced := by
  refine ⟨start_agreed contentLength, rfl, fun _ => ⟨rfl, rfl⟩, fun _ => rfl, ?_, rfl⟩
  intro hdone
  cases hdone

/-- Before the subscription has settled the consumer has heard no item and no end. -/
theorem Voiced.unheard_of_arrival (h : t.Voiced) (hunsettled : t.arrival ≠ .settled) :
    t.delivered = [] ∧ t.endings = [] :=
  h.unheard (h.early hunsettled)

/-- What a turn tells comes after the greeting, items before the end. -/
theorem Voiced.spoken_turn (h : t.Voiced) (hturn : Turn t t') :
    t'.signals = t'.greetings ++ t'.delivered.map .next ++ t'.endings := by
  have hspoken := h.spoken
  cases hturn with
  | greets harrival hbody =>
      obtain ⟨hdelivered, hendings⟩ := h.unheard_of_arrival (by simp [harrival])
      have hgreetings : t.greetings = [] := by simp [greetings, hasHandle, harrival]
      rw [hdelivered, hendings, hgreetings] at hspoken
      rw [signals_of_heard rfl, delivered_of_heard rfl, endings_of_heard rfl, hspoken, hdelivered,
        hendings]
      rfl
  | looks harrival =>
      have hgreetings : t.greetings = [.subscribed ()] := by
        simp [greetings, hasHandle, harrival]
      rw [hgreetings] at hspoken
      exact hspoken
  | declines seen harrival hcancelled =>
      have hgreetings : t.greetings = [.subscribed ()] := by
        simp [greetings, hasHandle, harrival]
      rw [signals_of_heard rfl, delivered_of_heard rfl, endings_of_heard rfl, hspoken, hgreetings]
      simp [greetings, hasHandle, Emission.signal?, Emission.item?]
  | overtaken seen f harrival hlistening hfinish =>
      obtain ⟨hdelivered, hendings⟩ := h.unheard_of_arrival (by simp [harrival])
      have hgreetings : t.greetings = [.subscribed ()] := by
        simp [greetings, hasHandle, harrival]
      rw [hdelivered, hendings, hgreetings] at hspoken
      rw [signals_of_heard rfl, delivered_of_heard rfl, endings_of_heard rfl, hspoken, hdelivered,
        hendings]
      simp [greetings, hasHandle, farewell_items]
  | attaches seen harrival hlistening hfinish =>
      have hgreetings : t.greetings = [.subscribed ()] := by
        simp [greetings, hasHandle, harrival]
      rw [hgreetings] at hspoken
      exact hspoken
  | hands item hstage hunlocked hattached =>
      have hendings := h.unended hattached
      rw [hendings] at hspoken
      rw [signals_of_heard rfl, delivered_of_heard rfl, endings_of_heard rfl, hspoken, hendings]
      simp [greetings, hasHandle, Emission.signal?, Emission.item?, Signal.isTerminal]
  | concludes f silent hstage hunlocked hattached =>
      rw [signals_of_heard rfl, delivered_of_heard rfl, endings_of_heard rfl, hspoken]
      cases silent <;>
        simp [greetings, hasHandle, Emission.signal?, Emission.item?, farewell_items]
  | _ => exact hspoken

/-- A consumer that is not in place yet has heard no item and no end. -/
theorem Voiced.unheard_turn (h : t.Voiced) (hturn : Turn t t') :
    t'.outlet.downstream = .waiting → t'.delivered = [] ∧ t'.endings = [] := by
  have hunheard := h.unheard
  cases hturn with
  | greets harrival hbody =>
      intro hwaiting
      obtain ⟨hdelivered, hendings⟩ := hunheard hwaiting
      rw [delivered_of_heard rfl, endings_of_heard rfl, hdelivered, hendings]
      exact ⟨rfl, rfl⟩
  | declines | overtaken | attaches | concludes =>
      intro hwaiting
      cases hwaiting
  | hands item hstage hunlocked hattached =>
      intro hwaiting
      cases hattached.symm.trans hwaiting
  | _ => exact hunheard

/-- A consumer that is in place has heard no end. -/
theorem Voiced.unended_turn (h : t.Voiced) (hturn : Turn t t') :
    t'.outlet.downstream = .attached → t'.endings = [] := by
  have hunended := h.unended
  cases hturn with
  | greets harrival hbody =>
      intro hattached
      rw [endings_of_heard rfl, hunended hattached]
      rfl
  | declines | overtaken | concludes =>
      intro hattached
      cases hattached
  | attaches seen harrival hlistening hfinish =>
      exact fun _ => (h.unheard_of_arrival (by simp [harrival])).2
  | hands item hstage hunlocked hattached =>
      intro _
      rw [endings_of_heard rfl, hunended hattached]
      rfl
  | _ => exact hunended

/-- Whoever lets the consumer go tells it of the end that was put down, unless it had
cancelled. -/
theorem Voiced.finished_turn (h : t.Voiced) (hturn : Turn t t') :
    t'.outlet.downstream = .done → t'.cancelled = true ∧ t'.endings = [] ∨
      ∃ f, t'.outlet.ledger.finish = some f ∧ t'.endings = [f.signal] := by
  have hover := h.finished
  cases hturn with
  | controls ledger grants hhandle hfinish hcancelled =>
      intro hdone
      rcases hover hdone with ⟨hc, hendings⟩ | ⟨f, hf, hendings⟩
      · exact .inl ⟨hcancelled hc, hendings⟩
      · exact .inr ⟨f, hfinish.trans hf, hendings⟩
  | greets harrival hbody =>
      intro hdone
      have hwaiting := h.early (by simp [harrival])
      cases hwaiting.symm.trans hdone
  | declines seen harrival hcancelled =>
      intro _
      have hendings := (h.unheard_of_arrival (by simp [harrival])).2
      refine .inl ⟨(h.looked seen harrival).1 hcancelled, ?_⟩
      rw [endings_of_heard rfl, hendings]
      rfl
  | overtaken seen f harrival hlistening hfinish =>
      intro _
      have hendings := (h.unheard_of_arrival (by simp [harrival])).2
      have hsame : seen.finish = t.outlet.ledger.finish := by
        rcases h.fresh seen harrival with hsame | ⟨hnone, -⟩
        · exact hsame
        · rw [hfinish] at hnone
          cases hnone
      refine .inr ⟨f, hsame.symm.trans hfinish, ?_⟩
      rw [endings_of_heard rfl, hendings]
      simp
  | attaches seen harrival hlistening hfinish =>
      intro hdone
      cases hdone
  | hands item hstage hunlocked hattached =>
      intro hdone
      cases hattached.symm.trans hdone
  | ends f hready hopen =>
      intro hdone
      rcases hover hdone with hdeclined | ⟨g, hg, -⟩
      · exact .inl hdeclined
      · rw [h.unfinished_of_ready hready hopen] at hg
        cases hg
  | concludes f silent hstage hunlocked hattached =>
      intro _
      have hendings := h.unended hattached
      cases silent with
      | true =>
          refine .inl ⟨h.silent f hstage, ?_⟩
          rw [endings_of_heard rfl, hendings]
          rfl
      | false =>
          refine .inr ⟨f, (h.ending f (by rw [hstage]; rfl)).1, ?_⟩
          rw [endings_of_heard rfl, hendings]
          simp
  | _ => exact hover

/-- Who closes or goes away hands nothing over. -/
theorem handed_of_departing {f : Finish}
    (hstage : t.stage = .departing f ∨ t.ready = true ∧ t.outlet.closed = true) :
    t.stage.handed? = none := by
  rcases hstage with hdeparting | ⟨hready, -⟩
  · rw [hdeparting]
    rfl
  · rw [(ready_iff.mp hready).2]
    rfl

/-- A push hands its item over before it answers, and nothing else hands over an item. -/
theorem Voiced.answered_turn (h : t.Voiced) (hturn : Turn t t') :
    t'.delivered = t'.accepted ++ t'.stage.handed?.toList := by
  have hanswered := h.answered
  cases hturn with
  | greets harrival hbody =>
      rw [delivered_of_heard rfl, hanswered]
      exact List.append_nil _
  | declines seen harrival hcancelled =>
      rw [delivered_of_heard rfl, hanswered]
      exact List.append_nil _
  | overtaken seen f harrival hlistening hfinish =>
      rw [delivered_of_heard rfl, hanswered, farewell_items]
      exact List.append_nil _
  | refuses item f hstage =>
      have hnothing : t.stage.handed? = none := by rcases hstage with hs | hs <;> rw [hs] <;> rfl
      rw [hnothing] at hanswered
      rw [accepted_of_refused]
      exact hanswered
  | takes item hready hopen hlistening =>
      rw [(ready_iff.mp hready).2] at hanswered
      exact hanswered
  | hands item hstage hunlocked hattached =>
      rw [hstage] at hanswered
      rw [delivered_of_heard rfl, hanswered]
      simp [accepted, WriterStage.handed?, Emission.item?]
  | counts item hstage =>
      rw [hstage] at hanswered
      rw [accepted_of_pushed]
      exact hanswered.trans (List.append_nil _).symm
  | ends f hready hopen =>
      rw [(ready_iff.mp hready).2] at hanswered
      exact hanswered
  | defers f silent hstage hunlocked hdown =>
      rw [hstage] at hanswered
      exact hanswered
  | concludes f silent hstage hunlocked hattached =>
      have hnothing : (if silent then [Emission.hangUp] else (Outlet.farewell f).2).filterMap
          Emission.item? = [] := by
        cases silent
        · exact farewell_items f
        · rfl
      rw [hstage] at hanswered
      rw [delivered_of_heard rfl, hanswered, hnothing]
      exact List.append_nil _
  | closes answer hstage =>
      rw [handed_of_departing hstage] at hanswered
      exact hanswered
  | leaves hstage =>
      rw [handed_of_departing hstage] at hanswered
      exact hanswered
  | _ => exact hanswered

/-- What the consumer has heard fits where the calls are, whatever happens. -/
theorem Voiced.step (h : t.Voiced) (e : OutletEvent) : (t.step e).Voiced where
  toAgreed := h.toAgreed.turn (h.toPlaced.step e) (turn_step e)
  spoken := h.spoken_turn (turn_step e)
  unheard := h.unheard_turn (turn_step e)
  unended := h.unended_turn (turn_step e)
  finished := h.finished_turn (turn_step e)
  answered := h.answered_turn (turn_step e)

/-- However writer, subscription and consumer meet, the consumer hears a greeting, items, and
at most one end. -/
theorem run_voiced (contentLength : Nat) (events : List OutletEvent) :
    ((start contentLength).run events).Voiced :=
  run_keeps Voiced (fun e h => h.step e) (start_voiced contentLength) events

/-! ## After the end -/

/-- A consumer that was let go hears nothing more, and is not taken back. -/
theorem signals_turn_of_done (hsettled : t.arrival = .settled) (hdone : t.outlet.downstream = .done)
    (hturn : Turn t t') :
    t'.arrival = .settled ∧ t'.outlet.downstream = .done ∧ t'.signals = t.signals := by
  cases hturn with
  | greets harrival hbody => cases hsettled.symm.trans harrival
  | looks harrival => cases hsettled.symm.trans harrival
  | declines seen harrival hcancelled => cases hsettled.symm.trans harrival
  | overtaken seen f harrival hlistening hfinish => cases hsettled.symm.trans harrival
  | attaches seen harrival hlistening hfinish => cases hsettled.symm.trans harrival
  | hands item hstage hunlocked hattached => cases hdone.symm.trans hattached
  | concludes f silent hstage hunlocked hattached => cases hdone.symm.trans hattached
  | _ => exact ⟨hsettled, hdone, rfl⟩

/-- A consumer that was let go hears nothing more. -/
theorem run_silent (hsettled : t.arrival = .settled) (hdone : t.outlet.downstream = .done)
    (events : List OutletEvent) : (t.run events).signals = t.signals := by
  induction events generalizing t with
  | nil => rfl
  | cons e events ih =>
      obtain ⟨hstays, hgone, hsame⟩ := signals_turn_of_done hsettled hdone (turn_step e)
      rw [run_cons, ih hstays hgone, hsame]

/-- Once the subscription is through and the writer has ended the stream and is in no call, a
consumer that has not cancelled has been told. -/
theorem Voiced.done_of_ended (h : t.Voiced) (hsettled : t.arrival = .settled)
    (hidle : t.stage = .idle) {f : Finish} (hended : t.outlet.ledger.finish = some f) :
    t.outlet.downstream = .done := by
  cases hdown : t.outlet.downstream with
  | waiting => exact absurd hdown (h.settled hsettled)
  | attached =>
      obtain ⟨silent, hending⟩ := h.pending hdown f hended
      rw [hidle] at hending
      cases hending
  | done => rfl

/-- A consumer that has not cancelled hears its greeting, the accepted items, and the end. -/
theorem Voiced.signals_of_ended (h : t.Voiced) (hsettled : t.arrival = .settled)
    (hidle : t.stage = .idle) {f : Finish} (hended : t.outlet.ledger.finish = some f)
    (hlistening : t.cancelled = false) :
    t.signals = .subscribed () :: t.accepted.map .next ++ [f.signal] := by
  have hgreetings : t.greetings = [.subscribed ()] := by simp [greetings, hasHandle, hsettled]
  have hdelivered : t.delivered = t.accepted := by
    rw [h.answered, hidle]
    exact List.append_nil _
  have hendings : t.endings = [f.signal] := by
    rcases h.finished (h.done_of_ended hsettled hidle hended) with ⟨hc, -⟩ | ⟨g, hg, hendings⟩
    · rw [hlistening] at hc
      cases hc
    · obtain rfl : g = f := Option.some.inj (hg.symm.trans hended)
      exact hendings
  rw [h.spoken, hgreetings, hdelivered, hendings]
  rfl

/-! ## Calls come to an end -/

/-- The calls under way go on until they are through. -/
def finishing : List OutletEvent :=
  [.arrive, .arrive, .proceed, .proceed]

theorem arrive_parts (t : OutletTraffic) :
    (t.step .arrive).outlet.ledger = t.outlet.ledger ∧ (t.step .arrive).stage = t.stage := by
  simp only [step, arriveStep]
  split
  · exact ⟨rfl, rfl⟩
  · rename_i seen _
    exact ⟨(attach_parts seen t.outlet).1, rfl⟩
  · exact ⟨rfl, rfl⟩

theorem proceed_parts (t : OutletTraffic) :
    (t.step .proceed).outlet.ledger = t.outlet.ledger ∧
      (t.step .proceed).arrival = t.arrival := by
  simp only [step, proceedStep]
  split
  · exact ⟨rfl, rfl⟩
  · split
    · split <;> exact ⟨rfl, rfl⟩
    · exact ⟨rfl, rfl⟩
  · exact ⟨rfl, rfl⟩
  · rename_i f silent _
    split
    · exact ⟨(conclude_ledger f silent t.outlet).1, rfl⟩
    · exact ⟨rfl, rfl⟩
  · exact ⟨rfl, rfl⟩
  · exact ⟨rfl, rfl⟩

/-- A subscription is through after two steps. -/
theorem run_arrives (hhandle : t.hasHandle = true) :
    (t.run [.arrive, .arrive]).arrival = .settled := by
  rw [run_cons, run_cons, run_nil]
  cases harrival : t.arrival with
  | absent => simp [hasHandle, harrival] at hhandle
  | greeting => simp [step, arriveStep, harrival]
  | looked seen => simp [step, arriveStep, harrival]
  | settled => simp [step, arriveStep, harrival]

/-- A call of the writer is through after two steps, once nobody keeps the downstream locked. -/
theorem run_proceeds (hsettled : t.arrival = .settled) :
    (t.run [.proceed, .proceed]).stage = .idle := by
  have hunlocked : t.unlocked = true := by simp [unlocked, hsettled]
  rw [run_cons, run_cons, run_nil]
  cases hstage : t.stage with
  | idle => simp [step, proceedStep, hstage]
  | holding item =>
      cases hdeliver : t.outlet.deliver item with
      | none =>
          simp [step, proceedStep, hstage, hunlocked, hdeliver, OutletTraffic.answerPush]
      | some out =>
          simp [step, proceedStep, hstage, hunlocked, hdeliver, OutletTraffic.answerPush]
  | handing item => simp [step, proceedStep, hstage, OutletTraffic.answerPush]
  | ending f silent => cases f <;> simp [step, proceedStep, hstage, hunlocked]
  | departing f => cases f <;> simp [step, proceedStep, hstage]

/-- The calls under way come to an end by going on, and change nothing in the ledger. -/
theorem run_finishing (hhandle : t.hasHandle = true) :
    (t.run finishing).arrival = .settled ∧ (t.run finishing).stage = .idle ∧
      (t.run finishing).outlet.ledger = t.outlet.ledger := by
  have hsplit : t.run finishing = (t.run [.arrive, .arrive]).run [.proceed, .proceed] := rfl
  have hsettled := run_arrives hhandle
  refine ⟨?_, ?_, ?_⟩
  · rw [hsplit, run_cons, run_cons, run_nil, (proceed_parts _).2, (proceed_parts _).2, hsettled]
  · rw [hsplit, run_proceeds hsettled]
  · calc (t.run finishing).outlet.ledger
        = (t.run [.arrive, .arrive]).outlet.ledger := by
          rw [hsplit, run_cons, run_cons, run_nil, (proceed_parts _).1, (proceed_parts _).1]
      _ = t.outlet.ledger := by
          rw [run_cons, run_cons, run_nil, (arrive_parts _).1, (arrive_parts _).1]

/-- In whatever order the writer ends the stream and the consumer subscribes, and whatever
comes in between: when both are through, a consumer that has not cancelled has heard its
greeting, the items of all pushes that went through, and one end, which is a completion if
the writer has closed and a failure if it went away without.  Nothing that happens
afterwards, a further closing included, adds a signal.  And both do get through: a
subscription and an end that have begun come to that by going on. -/
theorem run_ends_once (contentLength : Nat) (events : List OutletEvent) :
    let t := (start contentLength).run events
    (t.arrival = .settled → t.stage = .idle →
      (t.outlet.closed = true ∨ t.outlet.writerHeld = false) → t.cancelled = false →
        (t.signals = .subscribed () :: t.accepted.map .next ++
          [if t.outlet.closed then .complete else .error (.condition .abandoned)]) ∧
        ∀ later, (t.run later).signals = t.signals) ∧
    (t.hasHandle = true → t.outlet.ledger.finish ≠ none →
      let after := t.run finishing
      after.arrival = .settled ∧ after.stage = .idle ∧
        (after.outlet.closed = true ∨ after.outlet.writerHeld = false) ∧
        after.cancelled = t.cancelled) := by
  intro t
  have h : t.Voiced := run_voiced contentLength events
  refine ⟨fun hsettled hidle hover hlistening => ?_, fun hhandle hended => ?_⟩
  · obtain ⟨f, hended, hsignal⟩ : ∃ f, t.outlet.ledger.finish = some f ∧
        f.signal = if t.outlet.closed then .complete else .error (.condition .abandoned) := by
      by_cases hclosed : t.outlet.closed = true
      · exact ⟨.complete, h.completed hclosed, by rw [if_pos hclosed]; rfl⟩
      · have hopen : t.outlet.closed = false := by simpa using hclosed
        have hleft : t.outlet.writerHeld = false := by simpa [hopen] using hover
        exact ⟨.abandoned, h.abandoned hleft hopen, by rw [if_neg hclosed]; rfl⟩
    refine ⟨?_, fun later => ?_⟩
    · rw [h.signals_of_ended hsettled hidle hended hlistening, hsignal]
    · exact run_silent hsettled (h.done_of_ended hsettled hidle hended) later
  · intro after
    obtain ⟨hsettled, hidle, hledger⟩ : after.arrival = .settled ∧ after.stage = .idle ∧
      after.outlet.ledger = t.outlet.ledger := run_finishing hhandle
    have hafter : after.Voiced := run_keeps Voiced (fun e h => h.step e) h finishing
    refine ⟨hsettled, hidle, ?_, congrArg Ledger.cancelled hledger⟩
    by_contra hgoes
    obtain ⟨hopen, hheld⟩ : after.outlet.closed = false ∧ after.outlet.writerHeld = true := by
      simpa using hgoes
    have hnone := hafter.unfinished_of_ready (ready_iff.mpr ⟨hheld, hidle⟩) hopen
    exact hended (hledger ▸ hnone)

end Voiced

/-- The writer puts its end down after the subscription has looked at the ledger and before
the consumer is in place; and a writer goes away while an item is under way. -/
theorem raced_ends_are_told_once :
    let raced := (start 2).run
      [.subscribe, .request 0 1, .arrive, .close, .proceed, .arrive, .proceed, .proceed]
    let left := (start 2).run
      [.subscribe, .request 0 2, .arrive, .arrive, .push [7] false, .proceed, .proceed, .leave]
    raced.signals = [.subscribed (), .complete] ∧
      (raced.run [.close, .leave]).signals = [.subscribed (), .complete] ∧
      (left.run finishing).signals =
        [.subscribed (), .next [7], .error (.condition .abandoned)] := by
  intro raced left
  obtain ⟨hraced, hlater⟩ := (run_ends_once 2
    [.subscribe, .request 0 1, .arrive, .close, .proceed, .arrive, .proceed, .proceed]).1
    (by decide) (by decide) (by decide) (by decide)
  obtain ⟨hsettled, hidle, hover, hlistening⟩ := (run_ends_once 2
    [.subscribe, .request 0 2, .arrive, .arrive, .push [7] false, .proceed, .proceed, .leave]).2
    (by decide) (by decide)
  have hleft := run_ends_once 2
    ([.subscribe, .request 0 2, .arrive, .arrive, .push [7] false, .proceed, .proceed, .leave] ++
      finishing)
  rw [run_append] at hleft
  exact ⟨hraced, (hlater [.close, .leave]).trans hraced,
    (hleft.1 hsettled hidle hover hlistening).1⟩

end OutletTraffic
end CreditFlow
