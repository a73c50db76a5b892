import CreditFlow.Proofs.PumpCancellation
import CreditFlow.Proofs.PumpTraffic

/-!
# A grant of nothing in the queue of a pump

A pump does not look at its grants at every moment.  It takes the first of them when it has no
demand left, and all of them behind an item; so a grant of nothing that waits behind others, or
comes while the source is polled, is found behind the next item at the latest, and with it
everything that was granted after it stays where it is.

How many items a pump may still hand on before it finds the grant can be told from where it
stands: none if it has just handed one on, and one if it has not.  The source may end or fail
in place of that item.

Main results:

- {lit}`Pump.Heeds.turn`, {lit}`Pump.Heeds.control`: nothing is used that was granted after a
  grant of nothing.
- {lit}`Chain.SourceTurns.refusing`: what a pump says, and pulls, while a grant of nothing waits.
- {lit}`Chain.SourceTurns.says_end`: a pump that comes to its end says so.
-/

namespace CreditFlow

/-- What a control grants, if it does. -/
def Control.grant? : Control → Option Nat
  | .request n => some n
  | _ => none

/-- The grants among several controls. -/
def Control.grants (cs : List Control) : List Nat :=
  cs.filterMap grant?

theorem Control.grants_append (cs ds : List Control) : grants (cs ++ ds) = grants cs ++ grants ds :=
  List.filterMap_append

/-- A grant of nothing among several controls is a request for nothing. -/
theorem Control.zero_mem_grants_iff (cs : List Control) : 0 ∈ grants cs ↔ .request 0 ∈ cs := by
  rw [grants, List.mem_filterMap]
  refine ⟨?_, fun hzero => ⟨_, hzero, rfl⟩⟩
  rintro ⟨c, hc, hgrant⟩
  cases c with
  | request n =>
      cases hgrant
      exact hc
  | cancel => cases hgrant
  | release => cases hgrant

namespace Pump

/-! ## Grants in front of a grant of nothing -/

/-- What several grants come to in front of the first one that is for nothing. -/
def heeded : List Nat → Nat
  | [] => 0
  | 0 :: _ => 0
  | (n + 1) :: rest => n + 1 + heeded rest

/-- Nothing is heeded behind a grant of nothing. -/
theorem heeded_append_of_zero {ms : List Nat} (hzero : 0 ∈ ms) (ns : List Nat) :
    heeded (ms ++ ns) = heeded ms := by
  induction ms with
  | nil => cases hzero
  | cons m ms ih =>
      cases m with
      | zero => rfl
      | succ m =>
          have hrest : 0 ∈ ms := by simpa using hzero
          exact congrArg (m + 1 + ·) (ih hrest)

/-- Without a grant of nothing all grants are heeded. -/
theorem heeded_append_of_not_zero {ms : List Nat} (hsome : 0 ∉ ms) (ns : List Nat) :
    heeded (ms ++ ns) = heeded ms + heeded ns := by
  induction ms with
  | nil => exact (Nat.zero_add _).symm
  | cons m ms ih =>
      rw [List.mem_cons, not_or] at hsome
      cases m with
      | zero => exact absurd rfl hsome.1
      | succ m => exact (congrArg (m + 1 + ·) (ih hsome.2)).trans (Nat.add_assoc _ _ _).symm

/-- Later grants add to what is heeded, or leave it as it is. -/
theorem heeded_le_append (ms ns : List Nat) : heeded ms ≤ heeded (ms ++ ns) := by
  by_cases hzero : 0 ∈ ms
  · exact Nat.le_of_eq (heeded_append_of_zero hzero ns).symm
  · rw [heeded_append_of_not_zero hzero]
    exact Nat.le_add_right _ _

/-- Folding grants in adds at most those in front of the first one that is for nothing. -/
theorem fold_le_heeded (grants : List Nat) (demand : Demand) :
    (fold grants demand).1.items ≤ demand.items + heeded grants := by
  induction grants generalizing demand with
  | nil => exact Nat.le_refl _
  | cons n rest ih =>
      cases n with
      | zero => exact Nat.le_refl _
      | succ n =>
          have hrest := ih (demand.grant (n + 1))
          have hfirst : (demand.grant (n + 1)).items ≤ demand.items + (n + 1) := by
            simp only [Demand.grant_items]
            omega
          simp only [fold, heeded]
          omega

/-! ## What is used of the grants -/

/-- A pump has used, and will use, only what was granted in front of the first grant of
nothing.  As long as it goes on that grant waits in its queue. -/
structure Heeds (granted : List Nat) (handed : Nat) (s : Source) (p : Pump) : Prop where
  pulled : s.pulled ≤ heeded granted
  spent : handed + p.demand.items ≤ heeded granted
  queued : p.stage ≠ .leaving → p.stage ≠ .over → (0 ∈ p.grants ↔ 0 ∈ granted)
  ahead : p.stage ≠ .leaving → p.stage ≠ .over →
    s.pulled = handed ∧ handed + (p.demand.items + heeded p.grants) ≤ heeded granted
  polling : p.stage = .polling → 0 < p.demand.items

variable {granted : List Nat} {handed : Nat} {s s' : Source} {p p' : Pump}

/-- A control puts its grant into the queue. -/
theorem Heeds.control {given : List Control} (h : Heeds (Control.grants given) handed s p)
    (c : Control) : Heeds (Control.grants (given ++ [c])) handed s (p.control c).1 := by
  have happend : Control.grants (given ++ [c]) = Control.grants given ++ c.grant?.toList := by
    rw [Control.grants_append]
    cases c <;> rfl
  have hmore := heeded_le_append (Control.grants given) c.grant?.toList
  rw [happend]
  by_cases hover : p.stage = .over
  · have hsame : (p.control c).1 = p := by simp [Pump.control, hover]
    rw [hsame]
    exact ⟨Nat.le_trans h.pulled hmore, Nat.le_trans h.spent hmore, fun _ hlive => absurd hover hlive,
      fun _ hlive => absurd hover hlive, h.polling⟩
  · obtain ⟨hdemand, hgrants, -, -⟩ := control_live hover c
    have hqueue : (p.control c).1.grants = p.grants ++ c.grant?.toList := by
      rw [hgrants]
      cases c <;> rfl
    refine ⟨Nat.le_trans h.pulled hmore, by rw [hdemand]; exact Nat.le_trans h.spent hmore,
      ?_, ?_, ?_⟩
    · rw [control_stage, hqueue, List.mem_append, List.mem_append]
      exact fun hgoing hlive => or_congr_left (h.queued hgoing hlive)
    · rw [control_stage, hqueue, hdemand]
      intro hgoing hlive
      obtain ⟨hpulled, hahead⟩ := h.ahead hgoing hlive
      refine ⟨hpulled, ?_⟩
      by_cases hzero : 0 ∈ p.grants
      · rw [heeded_append_of_zero hzero]
        exact Nat.le_trans hahead hmore
      · rw [heeded_append_of_not_zero hzero,
          heeded_append_of_not_zero fun hgiven => hzero ((h.queued hgoing hlive).mpr hgiven)]
        omega
    · rw [control_stage, hdemand]
      exact h.polling

/-- Several controls put their grants into the queue in order. -/
theorem Heeds.controls {given : List Control} (h : Heeds (Control.grants given) handed s p)
    (cs : List Control) : Heeds (Control.grants (given ++ cs)) handed s (p.controls cs) := by
  induction cs generalizing given p with
  | nil => simpa [Pump.controls] using h
  | cons c cs ih =>
      have hrest := ih (h.control c)
      rwa [List.append_assoc] at hrest

/-- A pump that makes up its mind to end takes no further grant. -/
theorem heeds_of_ending (hstage : p'.stage = .leaving ∨ p'.stage = .over)
    (hpulled : s'.pulled ≤ heeded granted) (hdemand : handed + p'.demand.items ≤ heeded granted) :
    Heeds granted handed s' p' := by
  refine ⟨hpulled, hdemand, fun hgoing hlive => ?_, fun hgoing hlive => ?_, fun hpolling => ?_⟩
  · exact (hstage.elim hgoing hlive).elim
  · exact (hstage.elim hgoing hlive).elim
  · rw [hpolling] at hstage
    rcases hstage with hleaving | hover
    · cases hleaving
    · cases hover

/-- A pump that goes on has taken grants from the front of its queue, or none. -/
theorem Heeds.goesOn (h : Heeds granted handed s p) (hgoing : p.stage ≠ .leaving)
    (hlive : p.stage ≠ .over) (hpulled : s'.pulled = s.pulled)
    (hqueued : 0 ∈ p'.grants ↔ 0 ∈ p.grants)
    (hahead : p'.demand.items + heeded p'.grants ≤ p.demand.items + heeded p.grants)
    (hpolling : p'.stage = .polling → 0 < p'.demand.items) : Heeds granted handed s' p' := by
  obtain ⟨hsame, hbound⟩ := h.ahead hgoing hlive
  exact ⟨hpulled ▸ h.pulled, by omega, fun _ _ => hqueued.trans (h.queued hgoing hlive),
    fun _ _ => ⟨hpulled.trans hsame, by omega⟩, hpolling⟩

/-- Whatever a pump does without polling, it uses nothing that was granted too late. -/
theorem Heeds.advances (h : Heeds granted handed s p) {notes : List Notice} {move : Move}
    (hmove : p.Advances (p', notes, move)) (hother : move ≠ .fetch)
    (hpulled : s'.pulled = s.pulled) : Heeds granted handed s' p' := by
  have hless : s'.pulled ≤ heeded granted := hpulled ▸ h.pulled
  cases hmove with
  | greets hstage | starts hstage =>
      exact h.goesOn (by simp [hstage]) (by simp [hstage]) hpulled .rfl (Nat.le_refl _) (by simp)
  | cancels note hstage hcancelled => exact heeds_of_ending (.inl rfl) hless h.spent
  | orphaned hstage hdemand hopen hgrants hheld =>
      exact heeds_of_ending (.inl rfl) hless h.spent
  | takes n rest hstage hdemand hopen hgrants =>
      refine h.goesOn (by simp [hstage]) (by simp [hstage]) hpulled (by simp [hgrants]) ?_
        (by simp [hstage])
      simp only [Demand.grant_items, hgrants, heeded]
      omega
  | refuses rest hstage hdemand hopen hgrants => exact heeds_of_ending (.inl rfl) hless h.spent
  | waits hstage hdemand hopen hgrants hheld =>
      exact h.goesOn (by simp [hstage]) (by simp [hstage]) hpulled .rfl (Nat.le_refl _)
        (by simp [hstage])
  | folds demand hstage hsome hfold =>
      have hmost := fold_le_heeded p.grants p.demand
      rw [hfold] at hmost
      exact h.goesOn (by simp [hstage]) (by simp [hstage]) hpulled (by simp [hsome]) hmost (by simp)
  | balks grants demand hstage hzero hfold =>
      have hmost := fold_le_heeded p.grants p.demand
      rw [hfold] at hmost
      have hahead := (h.ahead (by simp [hstage]) (by simp [hstage])).2
      exact heeds_of_ending (.inl rfl) hless (Nat.le_trans (Nat.add_le_add_left hmost _) hahead)
  | polls _ hpolls => exact absurd rfl hother
  | leaves hstage => exact heeds_of_ending (.inr rfl) hless h.spent
  | rests hstage => exact heeds_of_ending (.inr hstage) hless h.spent

/-- A poll of the source uses no credit up. -/
theorem Heeds.polls (h : Heeds granted handed s p) (hpolls : p.Polls p') :
    Heeds granted handed s p' := by
  cases hpolls with
  | begins hstage hdemand hopen =>
      exact h.goesOn (by simp [hstage]) (by simp [hstage]) rfl .rfl (Nat.le_refl _)
        fun _ => hdemand
  | goesOn hstage => exact h

/-- A poll of a source pulls one item at most. -/
theorem pulled_le_of_polled {y : Yield} (hpolled : s.Polled s' y) : s'.pulled ≤ s.pulled + 1 := by
  cases hpolled with
  | chunk bytes rest hitems | fails cause rest hitems => exact Nat.le_refl _
  | pauses rest hitems | stepsAside rest hitems | acts a rest hitems | waits hitems hopen
  | ends hitems hclosed => exact Nat.le_succ _

/-- A pump that was cancelled drops what its source yields. -/
theorem receive_of_cancelled (hcancelled : p.cancelled = true) (r : Option (Except Cause Octets)) :
    p.receive r = ({ p with stage := .leaving, sleep := none }, [], none) := by
  simp [receive, hcancelled]

/-- What its source yields takes one item of the demand, or ends the pump. -/
theorem Heeds.yields (h : Heeds granted handed s p) (hstage : p.stage = .polling) {y : Yield}
    {r : Option (Except Cause Octets)} (hpolled : s.Polled s' y) (hyield : y.yielded? = some r) :
    Heeds granted
      (handed + (((p.receive r).2.2.map Signal.call).toList.filterMap Call.chunk?).length) s'
      (p.receive r).1 := by
  have hdemand := h.polling hstage
  obtain ⟨hsame, hahead⟩ := h.ahead (by simp [hstage]) (by simp [hstage])
  have hpulled := pulled_le_of_polled hpolled
  have hless : s'.pulled ≤ heeded granted := by omega
  by_cases hcancelled : p.cancelled = true
  · rw [receive_of_cancelled hcancelled]
    exact heeds_of_ending (.inl rfl) hless h.spent
  · have hopen : p.cancelled = false := by simpa using hcancelled
    cases hpolled with
    | chunk bytes rest hitems =>
        cases hyield
        rw [receive_chunk hopen]
        refine ⟨hless, ?_, fun _ _ => h.queued (by simp [hstage]) (by simp [hstage]),
          fun _ _ => ⟨congrArg (· + 1) hsame, ?_⟩, by simp⟩
        · change handed + 1 + (p.demand.items - 1) ≤ heeded granted
          omega
        · change handed + 1 + (p.demand.items - 1 + heeded p.grants) ≤ heeded granted
          omega
    | fails cause rest hitems =>
        cases hyield
        rw [receive_failure hopen]
        exact heeds_of_ending (.inl rfl) hless h.spent
    | ends hitems hclosed =>
        cases hyield
        rw [receive_end hopen]
        exact heeds_of_ending (.inl rfl) hless h.spent
    | pauses rest hitems | stepsAside rest hitems | acts a rest hitems | waits hitems hwaits =>
        cases hyield

/-- A poll that is pending takes no grant. -/
theorem stepAside_queue (wakesItself : Bool) (p : Pump) :
    (p.stepAside wakesItself).1.demand = p.demand ∧
      (p.stepAside wakesItself).1.grants = p.grants := by
  unfold stepAside streamReady
  split
  · split <;> exact ⟨rfl, rfl⟩
  · exact ⟨rfl, rfl⟩

/-- A pump that waits for its source uses no credit up. -/
theorem Heeds.pending (h : Heeds granted handed s p) (hstage : p.stage = .polling)
    (wakesItself : Bool) : Heeds granted handed s (p.stepAside wakesItself).1 := by
  obtain ⟨hdemand, hgrants⟩ := p.stepAside_queue wakesItself
  refine h.goesOn (by simp [hstage]) (by simp [hstage]) rfl (by rw [hgrants])
    (by rw [hdemand, hgrants]) ?_
  rw [(p.stepAside_parts wakesItself).1]
  exact fun hpolling => by cases hpolling

/-- A poll that comes to nothing pulls nothing. -/
theorem pulled_of_idle {y : Yield} (hpolled : s.Polled s' y) (hyield : y.yielded? = none) :
    s'.pulled = s.pulled := by
  cases hpolled with
  | chunk bytes rest hitems | fails cause rest hitems => cases hyield
  | pauses rest hitems | stepsAside rest hitems | acts a rest hitems | waits hitems hopen
  | ends hitems hclosed => rfl

/-- As long as nothing is pulled nothing is used up. -/
theorem Heeds.idles (h : Heeds granted handed s p) (hpulled : s'.pulled = s.pulled) :
    Heeds granted handed s' p :=
  ⟨hpulled ▸ h.pulled, h.spent, h.queued, hpulled ▸ h.ahead, h.polling⟩

/-- What is signalled is what the consumer hears. -/
theorem calls_signalling (notes : List Notice) (sig? : Option (Signal Unit)) :
    (Chain.signalling notes sig?).calls = (sig?.map Signal.call).toList := by
  cases sig? <;> rfl

/-- In a turn nothing is used that was granted after a grant of nothing. -/
theorem Heeds.turn (h : Heeds granted handed s p) {burst : Burst}
    (hturn : Chain.SourceTurns s p (.source s' p', burst)) :
    Heeds granted (handed + (burst.calls.filterMap Call.chunk?).length) s' p' := by
  cases hturn with
  | delivers _ notes sig hmove =>
      have hnothing : (Chain.signalling notes (some sig)).calls.filterMap Call.chunk? = [] := by
        cases hmove <;> rfl
      rw [hnothing]
      exact h.advances hmove (by simp) rfl
  | goesOn _ notes hmove => exact h.advances hmove (by simp) rfl
  | parks _ notes hmove => exact h.advances hmove (by simp) rfl
  | leaves _ notes hmove => exact h.advances hmove (by simp) rfl
  | yields _ q y r hpolls hpoll hyield =>
      rw [calls_signalling]
      exact (h.polls hpolls).yields hpolls.stage (Source.polled_of_poll hpoll) hyield
  | sleeps _ q wakesItself hpolls hpoll =>
      have hpulled := pulled_of_idle (Source.polled_of_poll hpoll) rfl
      exact ((h.polls hpolls).idles hpulled).pending hpolls.stage wakesItself
  | acts _ q a hpolls hpoll =>
      exact (h.polls hpolls).idles (pulled_of_idle (Source.polled_of_poll hpoll) rfl)

/-- What is done to a source grants nothing and uses nothing up. -/
theorem Heeds.sources (h : Heeds granted handed s p) (b : SourceAct) (woken : Bool) :
    Heeds granted handed (b.change s) (if woken then p.streamReady.1 else p) := by
  have hpulled := (change_parts b s).1
  have hready : Heeds granted handed s p.streamReady.1 := by
    unfold Pump.streamReady
    split
    · exact ⟨h.pulled, h.spent, h.queued, h.ahead, h.polling⟩
    · exact h
  split
  · exact hready.idles hpulled
  · exact h.idles hpulled

/-! ## A pump that is to find a grant of nothing -/

/-- A pump has made up its mind to end, or has ended. -/
def Ended (p : Pump) : Prop :=
  p.stage = .leaving ∨ p.stage = .over

/-- A grant of nothing waits for a pump that goes on. -/
def Refusing (p : Pump) : Prop :=
  p.Ended ∨ 0 ∈ p.grants

/-- How many items a pump may still hand on before it finds a grant of nothing. -/
def remaining (p : Pump) : Nat :=
  match p.stage with
  | .fresh | .greeted | .between | .polling => 1
  | .signalled | .leaving | .over => 0

/-- One item at most is handed on before a grant of nothing is found. -/
theorem remaining_le (p : Pump) : p.remaining ≤ 1 := by
  unfold remaining
  split <;> simp

theorem remaining_of_ended (hended : p.Ended) : p.remaining = 0 := by
  rcases hended with hstage | hstage <;> simp [remaining, hstage]

theorem remaining_of_polls (hpolls : p.Polls p') : p.remaining = 1 ∧ p'.remaining = 1 := by
  cases hpolls with
  | begins hstage hdemand hopen => simp [remaining, hstage]
  | goesOn hstage => simp [remaining, hstage]

/-- A pump that was granted nothing, and goes on, has that grant in its queue. -/
theorem Heeds.refusing (h : Heeds granted handed s p) (hzero : 0 ∈ granted) : p.Refusing := by
  by_cases hended : p.Ended
  · exact .inl hended
  · rw [Ended, not_or] at hended
    exact .inr ((h.queued hended.1 hended.2).mpr hzero)

/-- A grant of nothing stays in the queue, whatever control comes after it. -/
theorem Refusing.control (h : p.Refusing) (c : Control) : (p.control c).1.Refusing := by
  rcases h with hended | hzero
  · exact .inl (by rwa [Ended, control_stage])
  · by_cases hover : p.stage = .over
    · exact .inl (.inr (by rwa [control_stage]))
    · refine .inr ?_
      rw [(control_live hover c).2.1]
      exact List.mem_append_left _ hzero

/-- What a pump says in a turn, and what it pulls, while a grant of nothing waits for it. -/
structure Refuses (s : Source) (p : Pump) (said : List Call) (s' : Source) (p' : Pump) : Prop where
  refusing : p'.Refusing
  handed : (said.filterMap Call.chunk?).length + p'.remaining ≤ p.remaining
  pulled : s'.pulled + p'.remaining ≤ s.pulled + p.remaining
  told : ∀ call ∈ said, call.isEnd = true → p'.remaining = 0 ∧
    (call = .error .zeroDemand ∨ p.remaining = 1 ∧ said.filterMap Call.chunk? = [])

/-- Without saying anything, a pump goes on or ends. -/
theorem refuses_quietly (hrefusing : p'.Refusing) (hremaining : p'.remaining ≤ p.remaining)
    (hpulled : s'.pulled = s.pulled) : Refuses s p [] s' p' := by
  refine ⟨hrefusing, by simpa using hremaining, by omega, ?_⟩
  intro call hcall
  cases hcall

/-- A pump that goes on has not found the grant of nothing yet. -/
theorem Refusing.going (h : p.Refusing) {stage : Stage} (hstage : p.stage = stage)
    (hleaving : stage ≠ .leaving) (hover : stage ≠ .over) : 0 ∈ p.grants := by
  subst hstage
  exact h.resolve_left fun hended => hended.elim hleaving hover

/-- Without polling, the pump goes on to its last poll, or finds the grant of nothing. -/
theorem Refusing.advances (h : p.Refusing) {notes : List Notice} {move : Move}
    (hmove : p.Advances (p', notes, move)) (hother : move ≠ .fetch)
    (hpulled : s'.pulled = s.pulled) : Refuses s p move.call?.toList s' p' := by
  have hends : ∀ q : Pump, q.Ended → Refuses s p [] s' q := fun q hended =>
    refuses_quietly (.inl hended) (by rw [remaining_of_ended hended]; exact Nat.zero_le _) hpulled
  have hfinds : ∀ q : Pump, q.Ended → Refuses s p [.error .zeroDemand] s' q := by
    intro q hended
    have hover := remaining_of_ended hended
    refine ⟨.inl hended, ?_, by omega, ?_⟩
    · rw [hover]
      exact Nat.zero_le _
    · intro call hcall _
      exact ⟨hover, .inl (List.mem_singleton.mp hcall)⟩
  cases hmove with
  | greets hstage =>
      have hzero := h.going hstage (by simp) (by simp)
      refine ⟨.inr hzero, by simp [remaining, hstage, Move.call?, Signal.call, Call.chunk?],
        by simp [remaining, hstage, hpulled], ?_⟩
      intro call hcall hend
      rw [List.mem_singleton.mp hcall] at hend
      cases hend
  | starts hstage =>
      have hzero := h.going hstage (by simp) (by simp)
      exact refuses_quietly (.inr hzero) (by simp [remaining, hstage]) hpulled
  | cancels note hstage hcancelled => exact hends _ (.inl rfl)
  | orphaned hstage hdemand hopen hgrants hheld => exact hends _ (.inl rfl)
  | takes n rest hstage hdemand hopen hgrants =>
      have hzero := h.going hstage (by simp) (by simp)
      rw [hgrants] at hzero
      exact refuses_quietly (.inr (by simpa using hzero)) (by simp [remaining, hstage]) hpulled
  | refuses rest hstage hdemand hopen hgrants => exact hfinds _ (.inl rfl)
  | waits hstage hdemand hopen hgrants hheld =>
      have hzero := h.going hstage (by simp) (by simp)
      exact refuses_quietly (.inr hzero) (by simp [remaining, hstage]) hpulled
  | folds demand hstage hsome hfold => exact absurd (h.going hstage (by simp) (by simp)) hsome
  | balks grants demand hstage hzero hfold => exact hfinds _ (.inl rfl)
  | polls _ hpolls => exact absurd rfl hother
  | leaves hstage => exact hends _ (.inr rfl)
  | rests hstage => exact hends _ (.inr hstage)

theorem Refusing.polls (h : p.Refusing) (hpolls : p.Polls p') : p'.Refusing := by
  have hzero : 0 ∈ p.grants := by
    cases hpolls with
    | begins hstage hdemand hopen => exact h.going hstage (by simp) (by simp)
    | goesOn hstage => exact h.going hstage (by simp) (by simp)
  exact .inr (by rwa [hpolls.grants])

/-- The last poll brings an item, behind which the pump finds the grant of nothing, or ends the
pump. -/
theorem Refusing.yields (h : p.Refusing) (hstage : p.stage = .polling) {y : Yield}
    {r : Option (Except Cause Octets)} (hpolled : s.Polled s' y) (hyield : y.yielded? = some r) :
    Refuses s p ((p.receive r).2.2.map Signal.call).toList s' (p.receive r).1 := by
  have hone : p.remaining = 1 := by simp [remaining, hstage]
  have hpulled := pulled_le_of_polled hpolled
  -- Whatever ends the pump is no item.
  have hends : ∀ (q : Pump) (said : List Call), q.Ended → said.filterMap Call.chunk? = [] →
      Refuses s p said s' q := by
    intro q said hended hnothing
    have hover := remaining_of_ended hended
    refine ⟨.inl hended, ?_, ?_, fun call _ _ => ⟨hover, .inr ⟨hone, hnothing⟩⟩⟩
    · rw [hover, hnothing]
      exact Nat.zero_le _
    · rw [hover, hone]
      exact hpulled
  by_cases hcancelled : p.cancelled = true
  · rw [receive_of_cancelled hcancelled]
    exact hends _ _ (.inl rfl) rfl
  · have hopen : p.cancelled = false := by simpa using hcancelled
    cases hpolled with
    | chunk bytes rest hitems =>
        cases hyield
        rw [receive_chunk hopen]
        refine ⟨.inr (h.going hstage (by simp) (by simp)), ?_, ?_, ?_⟩
        · rw [hone]
          exact Nat.le_refl _
        · rw [hone]
          exact Nat.le_refl _
        · intro call hcall hend
          rw [List.mem_singleton.mp hcall] at hend
          cases hend
    | fails cause rest hitems =>
        cases hyield
        rw [receive_failure hopen]
        exact hends _ _ (.inl rfl) rfl
    | ends hitems hclosed =>
        cases hyield
        rw [receive_end hopen]
        exact hends _ _ (.inl rfl) rfl
    | pauses rest hitems | stepsAside rest hitems | acts a rest hitems | waits hitems hwaits =>
        cases hyield

end Pump

/-- What a pump comes to in a turn that is to find a grant of nothing. -/
theorem Chain.SourceTurns.refusing {s s' : Source} {p p' : Pump} {burst : Burst}
    (hturn : SourceTurns s p (.source s' p', burst)) (h : p.Refusing) :
    Pump.Refuses s p burst.calls s' p' := by
  cases hturn with
  | delivers _ notes sig hmove => exact h.advances hmove (by simp) rfl
  | goesOn _ notes hmove => exact h.advances hmove (by simp) rfl
  | parks _ notes hmove => exact h.advances hmove (by simp) rfl
  | leaves _ notes hmove => exact h.advances hmove (by simp) rfl
  | yields _ q y r hpolls hpoll hyield =>
      rw [Pump.calls_signalling]
      obtain ⟨hone, hone'⟩ := Pump.remaining_of_polls hpolls
      have hrefuses := (h.polls hpolls).yields hpolls.stage (Source.polled_of_poll hpoll) hyield
      have hsame : q.remaining = p.remaining := hone'.trans hone.symm
      exact ⟨hrefuses.refusing, hsame ▸ hrefuses.handed, hsame ▸ hrefuses.pulled,
        hsame ▸ hrefuses.told⟩
  | sleeps _ q wakesItself hpolls hpoll =>
      refine Pump.refuses_quietly ?_ ?_ (Pump.pulled_of_idle (Source.polled_of_poll hpoll) rfl)
      · refine .inr ?_
        rw [(q.stepAside_queue wakesItself).2]
        exact (h.polls hpolls).going hpolls.stage (by simp) (by simp)
      · rw [(Pump.remaining_of_polls hpolls).1]
        exact Pump.remaining_le _
  | acts _ q a hpolls hpoll =>
      obtain ⟨hone, hone'⟩ := Pump.remaining_of_polls hpolls
      exact Pump.refuses_quietly (h.polls hpolls) (by rw [hone, hone'])
        (Pump.pulled_of_idle (Source.polled_of_poll hpoll) rfl)

/-- A pump that comes to its end in a turn says so, unless it was cancelled or nobody can ask for
anything more. -/
theorem Chain.SourceTurns.says_end {s s' : Source} {p p' : Pump} {burst : Burst}
    (hturn : SourceTurns s p (.source s' p', burst)) (hgoing : ¬p.Ended) (hended : p'.Ended) :
    p.cancelled = true ∨ (p.grants = [] ∧ p.held = false) ∨
      ∃ call ∈ burst.calls, call.isEnd = true := by
  have hstays : ∀ {q : Pump} {stage : Stage}, q.stage = stage → stage ≠ .leaving →
      stage ≠ .over → q.Ended → False := by
    rintro q _ rfl hleaving hover (hstage | hstage)
    · exact hleaving hstage
    · exact hover hstage
  have hmoves : ∀ {q : Pump} {notes : List Notice} {move : Move}, p.Advances (q, notes, move) →
      move ≠ .fetch → q.Ended → p.cancelled = true ∨ (p.grants = [] ∧ p.held = false) ∨
        ∃ call ∈ move.call?.toList, call.isEnd = true := by
    intro q notes move hmove hother hover
    cases hmove with
    | greets hstage => exact (hstays rfl (by simp) (by simp) hover).elim
    | starts hstage => exact (hstays rfl (by simp) (by simp) hover).elim
    | cancels note hstage hcancelled => exact .inl hcancelled
    | orphaned hstage hdemand hopen hgrants hheld => exact .inr (.inl ⟨hgrants, hheld⟩)
    | takes n rest hstage hdemand hopen hgrants =>
        exact (hstays hstage (by simp) (by simp) hover).elim
    | refuses rest hstage hdemand hopen hgrants =>
        exact .inr (.inr ⟨_, List.mem_singleton_self _, rfl⟩)
    | waits hstage hdemand hopen hgrants hheld =>
        exact (hstays hstage (by simp) (by simp) hover).elim
    | folds demand hstage hsome hfold => exact (hstays rfl (by simp) (by simp) hover).elim
    | balks grants demand hstage hzero hfold =>
        exact .inr (.inr ⟨_, List.mem_singleton_self _, rfl⟩)
    | polls _ hpolls => exact absurd rfl hother
    | leaves hstage => exact absurd (.inl hstage) hgoing
    | rests hstage => exact absurd (.inr hstage) hgoing
  cases hturn with
  | delivers _ notes sig hmove => exact hmoves hmove (by simp) hended
  | goesOn _ notes hmove => exact hmoves hmove (by simp) hended
  | parks _ notes hmove => exact hmoves hmove (by simp) hended
  | leaves _ notes hmove => exact hmoves hmove (by simp) hended
  | yields _ q y r hpolls hpoll hyield =>
      by_cases hcancelled : q.cancelled = true
      · exact .inl (hpolls.cancelled ▸ hcancelled)
      · have hopen : q.cancelled = false := by simpa using hcancelled
        refine .inr (.inr ?_)
        rw [Pump.calls_signalling]
        rcases r with - | cause | bytes
        · rw [Pump.receive_end hopen]
          exact ⟨_, List.mem_singleton_self _, rfl⟩
        · rw [Pump.receive_failure hopen]
          exact ⟨_, List.mem_singleton_self _, rfl⟩
        · rw [Pump.receive_chunk hopen] at hended
          exact (hstays rfl (by simp) (by simp) hended).elim
  | sleeps _ q wakesItself hpolls hpoll =>
      exact (hstays (q.stepAside_parts wakesItself).1 (by simp) (by simp) hended).elim
  | acts _ q a hpolls hpoll => exact (hstays hpolls.stage (by simp) (by simp) hended).elim

end CreditFlow
