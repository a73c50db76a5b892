import CreditFlow.Proofs.ChainBudget
import CreditFlow.Proofs.PumpLine

/-!
# What a pump hands on

A pump over a source and a listener, at every moment of every run.  The listener may ask,
cancel and let go of its handle inside every signal that it hears, while the source is
polled, between two moves of a turn, and between turns.  Two histories are kept beside the
line: the controls that the listener has given, and the script of the source as far as it is
known.

While a pump goes on, its books balance: what it has handed on, what it may still hand on and
the grants that it has not looked at come to what was granted, or to less if the demand has
reached its ceiling.  It has pulled what it has handed on, and no more; and once it has made
up its mind to end, it says why with its last signal, or keeps silent because the listener is
gone.

Main results:

- {lit}`Pump.Flows.turn`: what one move of a pump that goes on comes to.
- {lit}`Pumping.Keeps.step`: every event leaves the books right.
- {lit}`Pumping.run_hands_on`: what a listener is told, and what is pulled for it.
-/

namespace CreditFlow

/-! ## Histories -/

/-- How many items several controls ask for. -/
def Control.total (cs : List Control) : Nat :=
  (cs.map asks).sum

@[simp]
theorem Control.total_append (cs ds : List Control) : total (cs ++ ds) = total cs + total ds := by
  simp [total]

/-- The item of a call that brings one. -/
def Call.chunk? : Call → Option Octets
  | .next chunk => some chunk
  | _ => none

/-- Whether a call tells of an end. -/
def Call.isEnd : Call → Bool
  | .error _ => true
  | .complete => true
  | _ => false

/-- The calls that the emissions of a burst come to. -/
def Burst.calls (burst : Burst) : List Call :=
  burst.emissions.filterMap Emission.call?

/-- What is fed to the source. -/
def PumpAct.fed : PumpAct → List Item
  | .source (.feed items) => items
  | _ => []

namespace Line

/-- The controls that the listener gives in the middle of the next move. -/
def controlsOfMove (l : Line) : List Control :=
  match l.running, l.sink with
  | some task, .listener k => Reaction.controls (k.respond (l.chain.turn task).2).2
  | _, _ => []

/-- The controls that the listener gives when something is done. -/
def controlsOf (a : PumpAct) (l : Line) : List Control :=
  match a, l.sink with
  | .listener a, .listener k => Reaction.controls (k.perform a).2
  | _, _ => []

end Line

/-- A line with a pump over a source, and what has come of it. -/
structure Pumping where
  line : Line
  /-- The controls that the listener has given, in order. -/
  given : List Control := []
  /-- The script of the source, with all that was fed to it. -/
  script : List Item

namespace Pumping

/-- A pump, a source and a listener, put together; nothing has run. -/
def start (scenario : PumpScenario) : Pumping :=
  { line := scenario.start, script := scenario.source }

/-- What an event does, at whatever moment it happens. -/
def step (t : Pumping) : PumpEvent → Pumping
  | .moves =>
      { t with line := t.line.happen .moves, given := t.given ++ t.line.controlsOfMove }
  | .does a =>
      { line := (PumpScenario.perform a t.line).2
        given := t.given ++ t.line.controlsOf a
        script := t.script ++ a.fed }

/-- What a list of events comes to. -/
def run (events : List PumpEvent) (t : Pumping) : Pumping :=
  events.foldl step t

/-- How many items the listener has asked for. -/
def granted (t : Pumping) : Nat :=
  Control.total t.given

/-- The items that the listener was given. -/
def emitted (t : Pumping) : List Octets :=
  t.line.calls.filterMap Call.chunk?

/-- How many items were pulled from the source. -/
def pulled (t : Pumping) : Nat :=
  PumpScenario.pulled t.line

end Pumping

/-! ## The books of a pump -/

namespace Pump

/-- The books of a pump that goes on. -/
structure Flows (calls : List Call) (given : List Control) (script : List Item)
    (emitted : List Octets) (s : Source) (p : Pump) : Prop where
  live : p.stage ≠ .leaving ∧ p.stage ≠ .over
  said : calls = if p.stage = .fresh then [] else .subscribed :: emitted.map .next
  blank : p.stage = .fresh → emitted = []
  past : s.Past script emitted
  pulled : s.pulled = emitted.length
  spent : emitted.length + (p.demand.items + p.grants.sum) ≤ Control.total given
  exact : Control.total given ≤ Demand.ceiling →
    emitted.length + (p.demand.items + p.grants.sum) = Control.total given
  polling : p.stage = .polling → 0 < p.demand.items
  sleeping : p.sleep = some .forStream → 0 < p.demand.items
  refused : 0 ∈ p.grants → .request 0 ∈ given
  cancelled : p.cancelled = true → .cancel ∈ given
  released : p.held = false → .release ∈ given

/-- Why a pump has ended, by what it has said last.  `origin` is the script that its source
had at first. -/
inductive Reason (origin : List Item) (given : List Control) (script : List Item)
    (emitted : List Octets) (s : Source) : Option Call → Prop
  /-- The listener is gone. -/
  | silent (hgone : .cancel ∈ given ∨ .release ∈ given) : Reason origin given script emitted s none
  /-- The listener has asked for nothing. -/
  | refused (hzero : .request 0 ∈ given) :
      Reason origin given script emitted s (some (.error .zeroDemand))
  /-- The source has failed. -/
  | failed (cause : Cause) (front rest : List Item)
      (hscript : script = front ++ .fail cause :: rest)
      (hchunks : Item.chunks front = emitted) (hfront : Item.failure? front = none)
      (hcredit : emitted.length < Control.total given) :
      Reason origin given script emitted s (some (.error cause))
  /-- The source has ended; what came later was too late. -/
  | finished (front rest : List Item) (hscript : script = front ++ rest)
      (horigin : origin <+: front)
      (hchunks : Item.chunks front = emitted) (hfront : Item.failure? front = none)
      (hclosed : s.isOpen = false) (hcredit : emitted.length < Control.total given) :
      Reason origin given script emitted s (some .complete)

/-- The books of a pump that has made up its mind to end, or has ended. -/
structure Closes (origin : List Item) (calls : List Call) (given : List Control)
    (script : List Item) (emitted : List Octets) (last : Option Call) (s : Source) (p : Pump) :
    Prop where
  stage : p.stage = .leaving ∨ p.stage = .over
  said : calls = .subscribed :: emitted.map .next ++ last.toList
  past : ∃ front rest, script = front ++ rest ∧ Item.chunks front = emitted ∧
    Item.failure? front = none
  pulled : emitted.length ≤ s.pulled ∧ s.pulled ≤ emitted.length + 1
  granted : s.pulled ≤ Control.total given
  reason : Reason origin given script emitted s last

variable {origin script : List Item} {calls : List Call} {given : List Control}
  {emitted : List Octets} {last : Option Call} {s s' : Source} {p p' : Pump}

/-! ### What comes through the handle -/

/-- What a control does to a pump that is not over. -/
theorem control_live (hlive : p.stage ≠ .over) (c : Control) :
    (p.control c).1.demand = p.demand ∧
      (p.control c).1.grants = p.grants ++ (match c with | .request n => [n] | _ => []) ∧
      ((p.control c).1.held = false → p.held = false ∨ c = .release) ∧
      ((p.control c).1.sleep = p.sleep ∨ (p.control c).1.sleep = none) := by
  unfold Pump.control
  rw [if_neg hlive]
  cases c with
  | request n => dsimp only; split <;> exact ⟨rfl, rfl, .inl, by simp⟩
  | cancel => dsimp only; split <;> exact ⟨rfl, (List.append_nil _).symm, .inl, by simp⟩
  | release =>
      dsimp only
      split <;> exact ⟨rfl, (List.append_nil _).symm, fun _ => .inr rfl, by simp⟩

theorem Flows.control (h : Flows calls given script emitted s p) (c : Control) :
    Flows calls (given ++ [c]) script emitted s (p.control c).1 := by
  rcases control_live h.live.2 c with ⟨hdemand, hgrants, hheld, hsleep⟩
  have htotal : Control.total (given ++ [c]) = Control.total given + c.asks := by
    simp [Control.total]
  have hsum : (p.control c).1.grants.sum = p.grants.sum + c.asks := by
    rw [hgrants]
    cases c <;> simp [Control.asks]
  have hspent := h.spent
  have hexact := h.exact
  refine
    { live := ?_, said := ?_, blank := ?_, past := h.past, pulled := h.pulled, spent := ?_,
      exact := ?_, polling := ?_, sleeping := ?_, refused := ?_, cancelled := ?_, released := ?_ }
  · rw [control_stage]
    exact h.live
  · rw [control_stage]
    exact h.said
  · rw [control_stage]
    exact h.blank
  · rw [hdemand, hsum, htotal]
    omega
  · rw [hdemand, hsum, htotal]
    omega
  · rw [control_stage, hdemand]
    exact h.polling
  · rw [hdemand]
    intro hstream
    rcases hsleep with hsame | hnone
    · exact h.sleeping (hsame ▸ hstream)
    · rw [hnone] at hstream
      cases hstream
  · rw [hgrants]
    intro hzero
    rcases List.mem_append.mp hzero with hold | hnew
    · exact List.mem_append_left _ (h.refused hold)
    · cases c with
      | request n =>
          rw [List.mem_singleton] at hnew
          simp [← hnew]
      | cancel => cases hnew
      | release => cases hnew
  · intro hcancelled
    rcases control_cancelled c p hcancelled with hold | rfl
    · exact List.mem_append_left _ (h.cancelled hold)
    · simp
  · intro hlost
    rcases hheld hlost with hold | rfl
    · exact List.mem_append_left _ (h.released hold)
    · simp

/-- More controls, and more that is fed to the source, leave a reason what it is. -/
theorem Reason.mono (h : Reason origin given script emitted s last) (cs : List Control)
    (items : List Item) (hopen : s.isOpen = false → s'.isOpen = false) :
    Reason origin (given ++ cs) (script ++ items) emitted s' last := by
  cases h with
  | silent hgone => exact .silent (hgone.imp (List.mem_append_left _) (List.mem_append_left _))
  | refused hzero => exact .refused (List.mem_append_left _ hzero)
  | failed cause front rest hscript hchunks hfront hcredit =>
      refine .failed cause front (rest ++ items) ?_ hchunks hfront ?_
      · rw [hscript, List.append_assoc]
        rfl
      · rw [Control.total_append]
        omega
  | finished front rest hscript horigin hchunks hfront hclosed hcredit =>
      refine .finished front (rest ++ items) ?_ horigin hchunks hfront (hopen hclosed) ?_
      · rw [hscript, List.append_assoc]
      · rw [Control.total_append]
        omega

/-- Whatever comes later, a pump that ends has said what it has said. -/
theorem Closes.mono (h : Closes origin calls given script emitted last s p) (cs : List Control)
    (items : List Item) (hpulled : s'.pulled = s.pulled)
    (hopen : s.isOpen = false → s'.isOpen = false) (hstage : p'.stage = p.stage) :
    Closes origin calls (given ++ cs) (script ++ items) emitted last s' p' := by
  refine ⟨hstage ▸ h.stage, h.said, ?_, hpulled ▸ h.pulled, ?_, h.reason.mono cs items hopen⟩
  · rcases h.past with ⟨front, rest, hscript, hchunks, hfront⟩
    exact ⟨front, rest ++ items, by rw [hscript, List.append_assoc], hchunks, hfront⟩
  · have hgranted := h.granted
    rw [hpulled, Control.total_append]
    omega

/-! ### Moves -/

/-- What makes it right to tell a listener something. -/
def Warranted (calls : List Call) (given : List Control) (script : List Item)
    (emitted : List Octets) (s : Source) : Call → Prop
  | .subscribed => calls = []
  | .next chunk =>
      emitted ++ [chunk] <+: Item.chunks script ∧ emitted.length < Control.total given
  | .complete =>
      s.items = [] ∧ s.isOpen = false ∧ emitted = Item.chunks script ∧
        Item.failure? script = none ∧ emitted.length < Control.total given
  | .error cause =>
      cause = .zeroDemand ∧ .request 0 ∈ given ∨
        emitted.length < Control.total given ∧ ∃ front rest, s.items = .fail cause :: rest ∧
          script = front ++ s.items ∧ Item.chunks front = emitted ∧ Item.failure? front = none
  | _ => False

/-- What a move of a pump that goes on can come to: it goes on, or it ends. -/
inductive Turned (origin : List Item) (calls : List Call) (given : List Control)
    (script : List Item) (emitted : List Octets) (s : Source) : List Call → Source → Pump → Prop
  | flows (said : List Call) (emitted' : List Octets) (s' : Source) (p' : Pump)
      (h : Flows (calls ++ said) given script emitted' s' p')
      (hsaid : said = [] ∨ ∃ call, said = [call] ∧ Warranted calls given script emitted s call) :
      Turned origin calls given script emitted s said s' p'
  | closes (last : Option Call) (s' : Source) (p' : Pump)
      (h : Closes origin (calls ++ last.toList) given script emitted last s' p')
      (hsaid : ∀ call ∈ last, Warranted calls given script emitted s call) :
      Turned origin calls given script emitted s last.toList s' p'

/-- A pump that goes on without saying anything. -/
theorem Turned.quietly (h : Flows calls given script emitted s' p') :
    Turned origin calls given script emitted s [] s' p' :=
  .flows [] emitted s' p' (by rwa [List.append_nil]) (.inl rfl)

/-- Behind the greeting the books tell what was said. -/
theorem Flows.said_of (h : Flows calls given script emitted s p) (hstage : p.stage ≠ .fresh) :
    calls = .subscribed :: emitted.map .next := by
  rw [h.said, if_neg hstage]

/-- A pump that goes on may end, and has pulled one item at most that it does not hand on. -/
theorem Flows.closes (h : Flows calls given script emitted s p) (hstage : p.stage ≠ .fresh)
    (hstage' : p'.stage = .leaving ∨ p'.stage = .over)
    (hpulled : s'.pulled = s.pulled ∨ s'.pulled = s.pulled + 1 ∧ 0 < p.demand.items)
    (hreason : Reason origin given script emitted s' last) :
    Closes origin (calls ++ last.toList) given script emitted last s' p' := by
  have hspent := h.spent
  have hsame := h.pulled
  refine ⟨hstage', by rw [h.said_of hstage], ?_, ?_, ?_, hreason⟩
  · rcases h.past with ⟨front, hscript, hchunks, hfront⟩
    exact ⟨front, s.items, hscript, hchunks, hfront⟩
  · omega
  · omega

/-- A pump that goes on without polling, and has said nothing. -/
theorem Flows.goesOn (h : Flows calls given script emitted s p) (hfresh : p.stage ≠ .fresh)
    (hstage : p'.stage = .between) (hcancelled : p'.cancelled = p.cancelled)
    (hheld : p'.held = p.held) (hsleep : p'.sleep = some .forStream → p.sleep = some .forStream)
    (hdemand : p.demand.items ≤ p'.demand.items)
    (hsum : p'.demand.items + p'.grants.sum ≤ p.demand.items + p.grants.sum)
    (hexact : p.demand.items + p.grants.sum ≤ Demand.ceiling →
      p'.demand.items + p'.grants.sum = p.demand.items + p.grants.sum)
    (hgrants : 0 ∈ p'.grants → 0 ∈ p.grants) : Flows calls given script emitted s p' := by
  have hspent := h.spent
  refine
    { live := by simp [hstage]
      said := by simpa [hstage] using h.said_of hfresh
      blank := by simp [hstage]
      past := h.past
      pulled := h.pulled
      spent := by omega
      exact := fun hceiling => ?_
      polling := by simp [hstage]
      sleeping := fun hstream => Nat.lt_of_lt_of_le (h.sleeping (hsleep hstream)) hdemand
      refused := fun hzero => h.refused (hgrants hzero)
      cancelled := by rw [hcancelled]; exact h.cancelled
      released := by rw [hheld]; exact h.released }
  have hall := h.exact hceiling
  rw [hexact (by omega)]
  exact hall

theorem Flows.polls (h : Flows calls given script emitted s p) (hpolls : p.Polls p') :
    Flows calls given script emitted s p' ∧ 0 < p'.demand.items := by
  cases hpolls with
  | begins hstage hdemand hopen =>
      refine ⟨?_, hdemand⟩
      exact
        { live := by simp
          said := by simpa using h.said_of (by simp [hstage])
          blank := by simp
          past := h.past
          pulled := h.pulled
          spent := h.spent
          exact := h.exact
          polling := fun _ => hdemand
          sleeping := fun _ => hdemand
          refused := h.refused
          cancelled := h.cancelled
          released := h.released }
  | goesOn hstage => exact ⟨h, h.polling hstage⟩

/-- A pump that is told something without having polled. -/
theorem Flows.delivers (h : Flows calls given script emitted s p) {notes : List Notice}
    {sig : Signal Unit} (hmove : p.Advances (p', notes, .deliver sig)) :
    Turned origin calls given script emitted s [sig.call] s p' := by
  -- A grant of nothing is the last that is taken.
  have hrefuses : ∀ p' : Pump, p.stage ≠ .fresh → 0 ∈ p.grants → p'.stage = .leaving →
      Turned origin calls given script emitted s [.error .zeroDemand] s p' := by
    intro p' hfresh hzero hstage
    exact .closes (some (.error .zeroDemand)) s p'
      (h.closes hfresh (.inl hstage) (.inl rfl) (.refused (h.refused hzero)))
      (by rintro _ ⟨⟩; exact .inl ⟨rfl, h.refused hzero⟩)
  cases hmove with
  | greets hstage =>
      have hnothing : calls = [] := by rw [h.said, if_pos hstage]
      refine .flows [.subscribed] emitted s _ ?_ (.inr ⟨_, rfl, hnothing⟩)
      exact
        { live := by simp
          said := by simp [hnothing, h.blank hstage]
          blank := by simp
          past := h.past
          pulled := h.pulled
          spent := h.spent
          exact := h.exact
          polling := by simp
          sleeping := h.sleeping
          refused := h.refused
          cancelled := h.cancelled
          released := h.released }
  | refuses rest hstage hdemand hopen hgrants =>
      exact hrefuses _ (by simp [hstage]) (by simp [hgrants]) rfl
  | balks grants demand hstage hzero hfold => exact hrefuses _ (by simp [hstage]) hzero rfl

/-- A pump that goes on at once has taken grants, or leaves because nobody is there. -/
theorem Flows.again (h : Flows calls given script emitted s p) {notes : List Notice}
    (hmove : p.Advances (p', notes, .again)) :
    Turned origin calls given script emitted s [] s p' := by
  have hleaves : ∀ p' : Pump, p.stage ≠ .fresh → (.cancel ∈ given ∨ .release ∈ given) →
      p'.stage = .leaving → Turned origin calls given script emitted s [] s p' :=
    fun p' hfresh hgone hstage => .closes none s p'
      (h.closes hfresh (.inl hstage) (.inl rfl) (.silent hgone)) (by simp)
  cases hmove with
  | starts hstage =>
      exact .quietly (h.goesOn (by simp [hstage]) rfl rfl rfl id (Nat.le_refl _) (Nat.le_refl _)
        (fun _ => rfl) id)
  | cancels note hstage hcancelled =>
      exact hleaves _ (by simp [hstage]) (.inl (h.cancelled hcancelled)) rfl
  | orphaned hstage hdemand hopen hgrants hheld =>
      exact hleaves _ (by simp [hstage]) (.inr (h.released hheld)) rfl
  | takes n rest hstage hdemand hopen hgrants =>
      refine .quietly (h.goesOn (by simp [hstage]) hstage rfl rfl id (Demand.le_grant _ _) ?_ ?_ ?_)
      · simp only [Demand.grant_items, hgrants, List.sum_cons]
        omega
      · simp only [Demand.grant_items, hgrants, List.sum_cons]
        omega
      · intro hzero
        rw [hgrants]
        exact List.mem_cons_of_mem _ hzero
  | folds demand hstage hsome hfold =>
      have hle := Chain.fold_le p.grants p.demand
      have hmore := fold_items p.grants p.demand
      rw [hfold] at hle hmore
      refine .quietly (h.goesOn (by simp [hstage]) rfl rfl rfl id hmore hle ?_ (by simp))
      intro hceiling
      exact fold_exact hfold hceiling

/-- What its source yields is handed on by a pump that was not cancelled. -/
theorem Flows.yields (h : Flows calls given script emitted s p) (horigin : origin <+: script)
    (hstage : p.stage = .polling) {y : Yield} {r : Option (Except Cause Octets)}
    (hpolled : s.Polled s' y) (hyield : y.yielded? = some r) :
    Turned origin calls given script emitted s ((p.receive r).2.2.map Signal.call).toList s'
      (p.receive r).1 := by
  have hdemand := h.polling hstage
  have hfresh : p.stage ≠ .fresh := by simp [hstage]
  have hspent := h.spent
  have hcredit : emitted.length < Control.total given := by omega
  have hpulled : s'.pulled = s.pulled ∨ s'.pulled = s.pulled + 1 ∧ 0 < p.demand.items := by
    cases hpolled with
    | chunk bytes rest hitems => exact .inr ⟨rfl, hdemand⟩
    | fails cause rest hitems => exact .inr ⟨rfl, hdemand⟩
    | pauses rest hitems | stepsAside rest hitems | acts a rest hitems | waits hitems hopen
    | ends hitems hclosed => exact .inl rfl
  by_cases hcancelled : p.cancelled = true
  · have hreceive : p.receive r = ({ p with stage := .leaving, sleep := none }, [], none) := by
      simp [receive, hcancelled]
    rw [hreceive]
    exact .closes none s' _
      (h.closes hfresh (.inl rfl) hpulled (.silent (.inl (h.cancelled hcancelled)))) (by simp)
  · have hopen : p.cancelled = false := by simpa using hcancelled
    have hnext := h.past.polled hpolled
    cases hpolled with
    | chunk bytes rest hitems =>
        cases hyield
        rw [receive_chunk hopen]
        have hpast : Source.Past script (emitted ++ [bytes])
          { s with items := rest, pulled := s.pulled + 1 } := hnext
        refine .flows [.next bytes] (emitted ++ [bytes]) _ _ ?_ (.inr ⟨_, rfl, ?_, hcredit⟩)
        · exact
            { live := by simp
              said := by simp [h.said_of hfresh]
              blank := by simp
              past := hpast
              pulled := by simp [h.pulled]
              spent := by
                simp only [List.length_append, List.length_singleton, Demand.spend_items]
                omega
              exact := fun hceiling => by
                have hall := h.exact hceiling
                simp only [List.length_append, List.length_singleton, Demand.spend_items]
                omega
              polling := by simp
              sleeping := by simp
              refused := h.refused
              cancelled := h.cancelled
              released := h.released }
        · exact ⟨_, hpast.chunks.symm⟩
    | fails cause rest hitems =>
        cases hyield
        rw [receive_failure hopen]
        obtain ⟨front, hscript, hchunks, hfront⟩ :
            ∃ front, script = front ++ .fail cause :: rest ∧ Item.chunks front = emitted ∧
              Item.failure? front = none := hnext
        refine .closes (some (.error cause)) _ _
          (h.closes hfresh (.inl rfl) hpulled
            (.failed cause front rest hscript hchunks hfront hcredit)) ?_
        rintro _ ⟨⟩
        exact .inr ⟨hcredit, front, rest, hitems, by rw [hscript, hitems], hchunks, hfront⟩
    | ends hitems hclosed =>
        cases hyield
        rw [receive_end hopen]
        have hchunks := h.past.chunks
        have hfailure := h.past.failure
        rw [hitems] at hchunks hfailure
        have hall : emitted = Item.chunks script := by
          rw [hchunks]
          exact (List.append_nil _).symm
        refine .closes (some .complete) s _
          (h.closes hfresh (.inl rfl) hpulled
            (.finished script [] (List.append_nil _).symm horigin hall.symm hfailure hclosed
              hcredit)) ?_
        rintro _ ⟨⟩
        exact ⟨hitems, hclosed, hall, hfailure, hcredit⟩
    | pauses rest hitems | stepsAside rest hitems | acts a rest hitems | waits hitems hwaits =>
        cases hyield

/-- A poll that comes to nothing leaves the books right. -/
theorem Flows.idles (h : Flows calls given script emitted s p) {y : Yield}
    (hpolled : s.Polled s' y) (hyield : y.yielded? = none) :
    Flows calls given script emitted s' p := by
  have hpast := h.past.polled hpolled
  have hpulled : s'.pulled = s.pulled := by
    cases hpolled with
    | chunk bytes rest hitems => cases hyield
    | fails cause rest hitems => cases hyield
    | pauses rest hitems | stepsAside rest hitems | acts a rest hitems | waits hitems hopen
    | ends hitems hclosed => rfl
  refine { h with past := ?_, pulled := hpulled.trans h.pulled }
  cases y with
  | item r => cases hyield
  | exhausted => cases hyield
  | pending wakesItself => exact hpast
  | act a => exact hpast

theorem Flows.pending (h : Flows calls given script emitted s p) (hstage : p.stage = .polling)
    (wakesItself : Bool) : Flows calls given script emitted s (p.stepAside wakesItself).1 := by
  have hpending : Flows calls given script emitted s p.pending :=
    h.goesOn (by simp [hstage]) rfl rfl rfl id (Nat.le_refl _) (Nat.le_refl _) (fun _ => rfl) id
  unfold stepAside streamReady
  split
  · split
    · exact { hpending with sleeping := by simp }
    · exact hpending
  · exact hpending

/-- What one move of a pump that goes on comes to. -/
theorem Flows.turn (h : Flows calls given script emitted s p) (horigin : origin <+: script)
    {burst : Burst} (hturn : Chain.SourceTurns s p (.source s' p', burst)) :
    Turned origin calls given script emitted s burst.calls s' p' := by
  cases hturn with
  | delivers _ notes sig hmove => exact h.delivers hmove
  | goesOn _ notes hmove => exact h.again hmove
  | parks _ notes hmove =>
      cases hmove with
      | waits hstage hdemand hopen hgrants hheld =>
          exact .quietly (h.goesOn (by simp [hstage]) hstage rfl rfl (by simp) (Nat.le_refl _)
            (Nat.le_refl _) (fun _ => rfl) id)
      | rests hstage => exact absurd hstage h.live.2
  | leaves _ notes hmove =>
      cases hmove with
      | leaves hstage => exact absurd hstage h.live.1
  | yields _ q y r hpolls hpoll hyield =>
      have hcalls : (Chain.signalling (q.receive r).2.1 (q.receive r).2.2).calls =
          ((q.receive r).2.2.map Signal.call).toList := by
        cases (q.receive r).2.2 <;> rfl
      rw [hcalls]
      exact (h.polls hpolls).1.yields horigin hpolls.stage (Source.polled_of_poll hpoll) hyield
  | sleeps _ q wakesItself hpolls hpoll =>
      have hpolled := (h.polls hpolls).1.idles (Source.polled_of_poll hpoll) rfl
      exact .quietly (hpolled.pending hpolls.stage wakesItself)
  | acts _ q a hpolls hpoll =>
      exact .quietly ((h.polls hpolls).1.idles (Source.polled_of_poll hpoll) rfl)

/-- A pump that ends says nothing more. -/
theorem Closes.turn (h : Closes origin calls given script emitted last s p) {burst : Burst}
    (hturn : Chain.SourceTurns s p (.source s' p', burst)) :
    burst.calls = [] ∧ Closes origin calls given script emitted last s' p' := by
  have hpolls : ∀ {q : Pump}, ¬p.Polls q := by
    intro q hpolls
    have hstage := h.stage
    cases hpolls with
    | begins hs hdemand hopen => simp [hs] at hstage
    | goesOn hs => simp [hs] at hstage
  have hmoves : ∀ {q : Pump} {notes : List Notice} {move : Move},
      p.Advances (q, notes, move) → (q.stage = .leaving ∨ q.stage = .over) ∧
        (move = .leave ∨ move = .park) := by
    intro q notes move hmove
    have hstage := h.stage
    cases hmove with
    | leaves hs => exact ⟨.inr rfl, .inl rfl⟩
    | rests hs => exact ⟨.inr hs, .inr rfl⟩
    | polls _ hpolled => exact (hpolls hpolled).elim
    | greets hs | starts hs | cancels note hs hc | orphaned hs hd ho hg hh
    | takes n rest hs hd ho hg | refuses rest hs hd ho hg | waits hs hd ho hg hh
    | folds demand hs hf hg | balks grants demand hs hz hf => simp [hs] at hstage
  cases hturn with
  | delivers _ notes sig hmove => simpa using (hmoves hmove).2
  | goesOn _ notes hmove => simpa using (hmoves hmove).2
  | parks _ notes hmove =>
      exact ⟨rfl, (hmoves hmove).1, h.said, h.past, h.pulled, h.granted, h.reason⟩
  | leaves _ notes hmove =>
      refine ⟨rfl, (hmoves hmove).1, h.said, h.past, h.pulled, h.granted, ?_⟩
      have hkept : Reason origin (given ++ []) (script ++ []) emitted s.unpark last :=
        h.reason.mono [] [] id
      simpa using hkept
  | yields _ q y r hpolled hpoll hyield => exact (hpolls hpolled).elim
  | sleeps _ q wakesItself hpolled hpoll => exact (hpolls hpolled).elim
  | acts _ q a hpolled hpoll => exact (hpolls hpolled).elim

/-! ### What is done to the source -/

/-- Whatever is done to a source, nothing is pulled from it, and it is not opened again. -/
theorem change_parts (b : SourceAct) (s : Source) :
    (b.change s).pulled = s.pulled ∧ (s.isOpen = false → (b.change s).isOpen = false) ∧
      (b.change s).items = s.items ++ PumpAct.fed (.source b) := by
  cases b with
  | run => exact ⟨rfl, id, (List.append_nil _).symm⟩
  | feed items => exact ⟨rfl, id, rfl⟩
  | finish => exact ⟨rfl, fun _ => rfl, (List.append_nil _).symm⟩
  | wake => exact ⟨rfl, id, (List.append_nil _).symm⟩

theorem Flows.streamReady (h : Flows calls given script emitted s p) :
    Flows calls given script emitted s p.streamReady.1 := by
  unfold Pump.streamReady
  split
  · exact { h with sleeping := by simp }
  · exact h

theorem Flows.sources (h : Flows calls given script emitted s p) (b : SourceAct) :
    Flows calls given (script ++ PumpAct.fed (.source b)) emitted (b.change s) p := by
  rcases change_parts b s with ⟨hpulled, -, hitems⟩
  exact { h with past := h.past.feed hitems, pulled := hpulled.trans h.pulled }

/-! ### Books -/

/-- The books of a pump, wherever it is in its run. -/
def Books (origin : List Item) (calls : List Call) (given : List Control) (script : List Item)
    (s : Source) (p : Pump) : Prop :=
  (∃ emitted, Flows calls given script emitted s p) ∨
    ∃ emitted last, Closes origin calls given script emitted last s p

theorem Books.controls (h : Books origin calls given script s p) (cs : List Control) :
    Books origin calls (given ++ cs) script s (p.controls cs) := by
  induction cs generalizing given p with
  | nil => simpa [Pump.controls] using h
  | cons c cs ih =>
      have hfirst : Books origin calls (given ++ [c]) script s (p.control c).1 := by
        rcases h with ⟨emitted, hflows⟩ | ⟨emitted, last, hcloses⟩
        · exact .inl ⟨emitted, hflows.control c⟩
        · have hafter := hcloses.mono [c] [] rfl id (control_stage c p)
          rw [List.append_nil] at hafter
          exact .inr ⟨emitted, last, hafter⟩
      have hrest := ih hfirst
      rwa [List.append_assoc] at hrest

theorem Books.sources (h : Books origin calls given script s p) (b : SourceAct) (woken : Bool) :
    Books origin calls given (script ++ PumpAct.fed (.source b)) (b.change s)
      (if woken then p.streamReady.1 else p) := by
  rcases h with ⟨emitted, hflows⟩ | ⟨emitted, last, hcloses⟩
  · refine .inl ⟨emitted, ?_⟩
    split
    · exact (hflows.sources b).streamReady
    · exact hflows.sources b
  · rcases change_parts b s with ⟨hpulled, hopen, -⟩
    have hstage : (if woken then p.streamReady.1 else p).stage = p.stage := by
      split
      · exact p.streamReady_parts.1
      · rfl
    have hafter := hcloses.mono [] (PumpAct.fed (.source b)) hpulled hopen hstage
    rw [List.append_nil] at hafter
    exact .inr ⟨emitted, last, hafter⟩

/-! ### What the books tell -/

/-- A greeting and an end bring no items. -/
theorem items_of_said (emitted : List Octets) (hlast : ∀ call ∈ last, call.isEnd) :
    (.subscribed :: emitted.map Call.next ++ last.toList).filterMap Call.chunk? = emitted := by
  have hnone : last.toList.filterMap Call.chunk? = [] := by
    cases last with
    | none => rfl
    | some call =>
        have hend := hlast call rfl
        cases call with
        | error cause => rfl
        | complete => rfl
        | _ => cases hend
  have hall : (emitted.map Call.next).filterMap Call.chunk? = emitted := by
    simp [List.filterMap_map, Function.comp_def, Call.chunk?]
  rw [List.filterMap_append, hnone, List.append_nil]
  exact hall

theorem Reason.isEnd (h : Reason origin given script emitted s last) :
    ∀ call ∈ last, call.isEnd := by
  cases h with
  | silent hgone => simp
  | refused hzero => simp [Call.isEnd]
  | failed cause front rest hscript hchunks hfront hcredit => simp [Call.isEnd]
  | finished front rest hscript horigin hchunks hfront hclosed hcredit => simp [Call.isEnd]

theorem Flows.emitted_eq (h : Flows calls given script emitted s p) :
    calls.filterMap Call.chunk? = emitted := by
  by_cases hstage : p.stage = .fresh
  · rw [h.said, if_pos hstage, h.blank hstage]
    rfl
  · have hnone : ∀ call ∈ (none : Option Call), call.isEnd := by simp
    have hall := items_of_said emitted hnone
    rw [Option.toList_none, List.append_nil] at hall
    rw [h.said_of hstage, hall]

theorem Closes.emitted_eq (h : Closes origin calls given script emitted last s p) :
    calls.filterMap Call.chunk? = emitted := by
  rw [h.said]
  exact items_of_said emitted h.reason.isEnd

/-- What a listener has been told: a greeting, items, and at most one end. -/
theorem Books.said (h : Books origin calls given script s p) :
    calls = [] ∨ ∃ last : Option Call,
      calls = .subscribed :: (calls.filterMap Call.chunk?).map .next ++ last.toList ∧
        ∀ call ∈ last, call.isEnd := by
  rcases h with ⟨emitted, hflows⟩ | ⟨emitted, last, hcloses⟩
  · rw [hflows.emitted_eq]
    by_cases hstage : p.stage = .fresh
    · exact .inl (by rw [hflows.said, if_pos hstage])
    · refine .inr ⟨none, ?_, by simp⟩
      rw [hflows.said_of hstage]
      exact (List.append_nil _).symm
  · rw [hcloses.emitted_eq]
    exact .inr ⟨last, hcloses.said, hcloses.reason.isEnd⟩

/-- What was handed on and what was pulled is within the script and what was asked for. -/
theorem Books.bounds (h : Books origin calls given script s p) :
    let emitted := calls.filterMap Call.chunk?
    emitted <+: Item.chunks script ∧ emitted.length ≤ Control.total given ∧
      s.pulled ≤ Control.total given ∧ emitted.length ≤ s.pulled ∧
        s.pulled ≤ emitted.length + 1 := by
  intro handed
  rcases h with ⟨emitted, hflows⟩ | ⟨emitted, last, hcloses⟩
  · have hsame : handed = emitted := hflows.emitted_eq
    have hspent := hflows.spent
    have hpulled := hflows.pulled
    rw [hsame]
    exact ⟨⟨_, hflows.past.chunks.symm⟩, by omega, by omega, by omega, by omega⟩
  · have hsame : handed = emitted := hcloses.emitted_eq
    have hgranted := hcloses.granted
    have hpulled := hcloses.pulled
    rw [hsame]
    refine ⟨?_, by omega, by omega, by omega, by omega⟩
    rcases hcloses.past with ⟨front, rest, rfl, rfl, hfront⟩
    exact ⟨_, (Item.chunks_append hfront rest).symm⟩

end Pump

/-! ## Runs -/

namespace Pumping

/-- What makes it right to tell the listener something next. -/
def Warrants (t : Pumping) (call : Call) : Prop :=
  ∃ s, t.line.chain.source? = some s ∧
    Pump.Warranted t.line.calls t.given t.script t.emitted s call

/-- A pump stands before its listener, and its books are right. -/
structure Keeps (origin : List Item) (t : Pumping) (s : Source) (p : Pump) (k : Listener) : Prop
    extends Line.Pumped t.line s p k where
  grown : origin <+: t.script
  books : Pump.Books origin t.line.calls t.given t.script s p

variable {origin : List Item} {t : Pumping} {s : Source} {p : Pump} {k : Listener}

/-- In a move of its own the pump says what it has a warrant for. -/
theorem Keeps.moves (h : t.Keeps origin s p k) :
    ∃ s' p' k', (t.step .moves).Keeps origin s' p' k' ∧ s'.isOpen = s.isOpen ∧
      ((t.step .moves).line.calls = t.line.calls ∨
        ∃ call, (t.step .moves).line.calls = t.line.calls ++ [call] ∧ t.Warrants call) := by
  have hsource : t.line.chain.source? = some s := by
    rw [h.chain]
    rfl
  rcases h.toPumped.move with ⟨hrunning, hafter, hcalls⟩ |
    ⟨hrunning, s', p', burst, hturn, hafter, hcalls, -⟩
  · have hgiven : t.line.controlsOfMove = [] := by simp [Line.controlsOfMove, hrunning]
    refine ⟨s, p, k, ⟨hafter, h.grown, ?_⟩, rfl, .inl hcalls⟩
    simp only [step, hgiven, List.append_nil]
    rw [hcalls]
    exact h.books
  · have hgiven : t.line.controlsOfMove = Reaction.controls (k.respond burst).2 := by
      have hchain : t.line.chain.turn 0 = (.source s' p', burst) := by
        rw [h.chain, Chain.turn, if_pos rfl, hturn]
      simp [Line.controlsOfMove, hrunning, h.sink, hchain]
    have hturns := Chain.sourceTurns_of_sourceTurn hturn
    have hopen := hturns.isOpen
    have hplaced : Pump.Books origin (t.line.calls ++ burst.calls) t.given t.script s' p' →
        (t.step .moves).Keeps origin s'
          (p'.controls (Reaction.controls (k.respond burst).2)) (k.respond burst).1 := by
      intro hbooks
      refine ⟨hafter, h.grown, ?_⟩
      simp only [step, hgiven]
      rw [hcalls]
      exact hbooks.controls _
    rcases h.books with ⟨emitted, hflows⟩ | ⟨emitted, last, hcloses⟩
    · have hturned := hflows.turn h.grown hturns
      have hemitted : t.emitted = emitted := hflows.emitted_eq
      generalize hsaid : burst.calls = said at hturned
      have hcalls' : (t.step .moves).line.calls = t.line.calls ++ said := by
        rw [← hsaid]
        exact hcalls
      cases hturned with
      | flows _ emitted' _ _ hnext hwarrant =>
          rw [← hsaid] at hnext
          refine ⟨_, _, _, hplaced (.inl ⟨emitted', hnext⟩), hopen, ?_⟩
          rcases hwarrant with rfl | ⟨call, rfl, hcall⟩
          · exact .inl (hcalls'.trans (List.append_nil _))
          · exact .inr ⟨call, hcalls', s, hsource, hemitted ▸ hcall⟩
      | closes last _ _ hnext hwarrant =>
          rw [← hsaid] at hnext
          refine ⟨_, _, _, hplaced (.inr ⟨emitted, last, hnext⟩), hopen, ?_⟩
          cases last with
          | none => exact .inl (hcalls'.trans (List.append_nil _))
          | some call => exact .inr ⟨call, hcalls', s, hsource, hemitted ▸ hwarrant call rfl⟩
    · obtain ⟨hnothing, hnext⟩ := hcloses.turn hturns
      have hsame : t.line.calls ++ burst.calls = t.line.calls := by
        rw [hnothing, List.append_nil]
      rw [← hsame] at hnext
      exact ⟨_, _, _, hplaced (.inr ⟨emitted, last, hnext⟩), hopen, .inl (hcalls.trans hsame)⟩

/-- What is done to the line, at whatever moment, is not answered at once. -/
theorem Keeps.does (h : t.Keeps origin s p k) (a : PumpAct) :
    ∃ s' p' k', (t.step (.does a)).Keeps origin s' p' k' ∧
      (a ≠ .source .finish → s'.isOpen = s.isOpen) ∧
      (t.step (.does a)).line.calls = t.line.calls := by
  cases a with
  | listener a =>
      obtain ⟨hafter, hcalls, -⟩ := h.toPumped.listens a
      have hgiven : t.line.controlsOf (.listener a) = Reaction.controls (k.perform a).2 := by
        simp [Line.controlsOf, h.sink]
      refine ⟨s, _, _, ⟨hafter, ?_, ?_⟩, fun _ => rfl, hcalls⟩
      · exact h.grown.trans (List.prefix_append _ _)
      · have hbooks := h.books.controls (Reaction.controls (k.perform a).2)
        rw [← hcalls] at hbooks
        simp only [step, hgiven, PumpAct.fed, List.append_nil]
        exact hbooks
  | source b =>
      obtain ⟨woken, hafter, hcalls, -⟩ := h.toPumped.sources b
      have hgiven : t.line.controlsOf (.source b) = [] := rfl
      have hopen : PumpAct.source b ≠ .source .finish → (b.change s).isOpen = s.isOpen := by
        cases b with
        | finish => exact fun hother => absurd rfl hother
        | run | feed items | wake => exact fun _ => rfl
      refine ⟨_, _, k, ⟨hafter, ?_, ?_⟩, hopen, hcalls⟩
      · exact h.grown.trans (List.prefix_append _ _)
      · have hbooks := h.books.sources b woken
        rw [← hcalls] at hbooks
        simp only [step, hgiven, List.append_nil]
        exact hbooks

/-- Every event leaves the books right, and says at most what it has a warrant for. -/
theorem Keeps.step (h : t.Keeps origin s p k) (e : PumpEvent) :
    ∃ s' p' k', (t.step e).Keeps origin s' p' k' ∧
      (e ≠ .does (.source .finish) → s'.isOpen = s.isOpen) ∧
      ((t.step e).line.calls = t.line.calls ∨
        ∃ call, (t.step e).line.calls = t.line.calls ++ [call] ∧ t.Warrants call) := by
  cases e with
  | moves =>
      obtain ⟨s', p', k', hafter, hopen, hsaid⟩ := h.moves
      exact ⟨s', p', k', hafter, fun _ => hopen, hsaid⟩
  | does a =>
      obtain ⟨s', p', k', hafter, hopen, hcalls⟩ := h.does a
      exact ⟨s', p', k', hafter, fun hother => hopen fun hsame => hother (hsame ▸ rfl), .inl hcalls⟩

/-- The books of a pump are right in every run. -/
theorem Keeps.run (h : t.Keeps origin s p k) (events : List PumpEvent) :
    ∃ s' p' k', (t.run events).Keeps origin s' p' k' := by
  induction events generalizing t s p k with
  | nil => exact ⟨s, p, k, h⟩
  | cons e events ih =>
      obtain ⟨s', p', k', hafter, -⟩ := h.step e
      exact ih hafter

/-- At the beginning nothing was asked for, and nothing was said. -/
theorem start_keeps (scenario : PumpScenario) :
    (start scenario).Keeps scenario.source { items := scenario.source, isOpen := scenario.isOpen }
      {} scenario.listener := by
  refine ⟨scenario.start_pumped, List.prefix_refl _, .inl ⟨[], ?_⟩⟩
  exact
    { live := by simp
      said := rfl
      blank := fun _ => rfl
      past := ⟨[], rfl, rfl, rfl⟩
      pulled := rfl
      spent := by simp
      exact := fun _ => rfl
      polling := by simp
      sleeping := by simp
      refused := by simp
      cancelled := by simp
      released := by simp }

/-- However a pump over a source runs, whatever its listener asks and whenever it does, and
whenever it cancels or lets go of its handle: the listener hears a greeting first, then items,
which are the first chunks of the script in order, and then at most one end, after which it
hears nothing.  The items that it was given, and those that were pulled from the source, are
at most as many as it has asked for, and at most one more was pulled than was given.  Whatever
is said next is one call for which there is a warrant: the stream is completed when the source
has ended behind the items that were given, and it fails with a failure of the source when that
comes next behind them, or because nothing was asked for. -/
theorem run_hands_on (scenario : PumpScenario) (events : List PumpEvent) :
    let t := (start scenario).run events
    (t.line.calls = [] ∨ ∃ last : Option Call,
      t.line.calls = .subscribed :: t.emitted.map .next ++ last.toList ∧
        ∀ call ∈ last, call.isEnd) ∧
    t.emitted <+: Item.chunks t.script ∧ t.emitted.length ≤ t.granted ∧
    t.pulled ≤ t.granted ∧ t.emitted.length ≤ t.pulled ∧ t.pulled ≤ t.emitted.length + 1 ∧
    ∀ e, (t.step e).line.calls = t.line.calls ∨
      ∃ call, (t.step e).line.calls = t.line.calls ++ [call] ∧ t.Warrants call := by
  intro t
  obtain ⟨s, p, k, h⟩ := (start_keeps scenario).run events
  have hpulled : t.pulled = s.pulled := by
    have hchain : t.line.chain = .source s p := h.chain
    simp [pulled, PumpScenario.pulled, hchain, Chain.source?]
  obtain ⟨hfront, hemitted, hwithin, hleast, hmost⟩ := h.books.bounds
  refine ⟨h.books.said, hfront, hemitted, ?_, ?_, ?_, fun e => ?_⟩
  · rw [hpulled]
    exact hwithin
  · rw [hpulled]
    exact hleast
  · rw [hpulled]
    exact hmost
  · obtain ⟨s', p', k', -, -, hsaid⟩ := h.step e
    exact hsaid

end Pumping
end CreditFlow
