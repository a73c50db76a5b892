import CreditFlow.Proofs.PlayerTraffic

/-!
# What a player under traffic plays

Between any two sections of the calls and of the thread of a player four things hold.  The calls
under way are in keeping with what the consumer has been told.  The items that were asked for are
with the consumer, on their way to it, left over, refused, or have not come to the counter yet.
The consumer is told the script, of which nothing is lost but for a cancellation or a call that
breaks off.  And a thread that sleeps does so at a chunk without demand, unless a call is about to
wake it: a control takes effect before it wakes anybody, and the thread looks at the counter and
falls asleep in one section.

Main results:

- {lit}`PlayerTraffic.Sound.turn`: what holds between any two sections.
- {lit}`PlayerTraffic.Sound.decided_run`: after a cancellation the thread makes up its mind to
  nothing more.
- {lit}`PlayerTraffic.Sound.blocked`: why a thread that is blocked is blocked.
- {lit}`PlayerTraffic.run_plays_script`: what the consumer is told of a script.
-/

namespace CreditFlow.PlayerTraffic

/-! ## Who is in the middle of a call -/

/-- How many calls the consumer is in the middle of, from inside a signal. -/
def insiders (t : PlayerTraffic) : Nat :=
  t.calls.countP HandleCall.inside

theorem isCalling_eq_false_iff (t : PlayerTraffic) : t.isCalling = false ↔ t.insiders = 0 := by
  simp [isCalling, insiders, List.countP_eq_zero]

/-- The calls under way are in keeping with what the consumer has been told. -/
structure Orderly (t : PlayerTraffic) : Prop where
  /-- A consumer that is in the middle of a signal was given one. -/
  attends : t.focus = .consumer → t.heard ≠ []
  /-- Nobody has a handle before the greeting. -/
  quiet : t.heard = [] → t.calls = [] ∧ t.taken = []
  /-- A call from inside a signal is over before the signal is. -/
  inside : 0 < t.insiders → t.focus = .consumer
  /-- The consumer makes one call after the other. -/
  alone : t.insiders ≤ 1

/-- Who may call was told something, and calls from inside a signal only in one. -/
theorem Orderly.of_mayCall {t : PlayerTraffic} (h : t.Orderly) {inside : Bool}
    (hmay : t.mayCall inside = true) :
    t.heard ≠ [] ∧ (inside = true → t.focus = .consumer ∧ t.insiders = 0) := by
  cases inside with
  | false =>
      refine ⟨fun hnone => ?_, fun hinside => nomatch hinside⟩
      simp [mayCall, hnone] at hmay
  | true =>
      cases hfocus : t.focus with
      | script => simp [mayCall, hfocus] at hmay
      | sending s => simp [mayCall, hfocus] at hmay
      | consumer =>
          refine ⟨h.attends hfocus, fun _ => ⟨rfl, (isCalling_eq_false_iff t).mp ?_⟩⟩
          simpa [mayCall, hfocus] using hmay

/-- The consumer that makes a call from inside a signal is in the middle of it. -/
theorem Orderly.focus_of_inside {t : PlayerTraffic} (h : t.Orderly) {call : HandleCall}
    (hmem : call ∈ t.calls) (hinside : call.inside = true) : t.focus = .consumer :=
  h.inside (List.countP_pos_iff.mpr ⟨call, hmem, hinside⟩)

/-- The thread that a call takes with it was not about to send anything. -/
theorem Orderly.signals_of_call {t : PlayerTraffic} (h : t.Orderly)
    {front rest : List HandleCall} {call : HandleCall} (hcalls : t.calls = front ++ call :: rest) :
    (t.focus.afterBreak call.inside).signals = t.focus.signals := by
  cases hinside : call.inside with
  | true =>
      rw [h.focus_of_inside (by simp [hcalls]) hinside]
      rfl
  | false => rfl

/-- A call that goes on leaves everything in order, whichever section it comes to. -/
theorem Orderly.of_busy {t t' : PlayerTraffic} (h : t.Orderly) (hbusy : t.calls ≠ [])
    (hheard : t'.heard = t.heard) (hfocus : t'.focus = t.focus)
    (hfewer : t'.insiders ≤ t.insiders) : t'.Orderly :=
  { attends := by
      rw [hheard, hfocus]
      exact h.attends
    quiet := fun hnone => absurd (h.quiet (hheard ▸ hnone)).1 hbusy
    inside := fun hinside => hfocus.trans (h.inside (Nat.lt_of_lt_of_le hinside hfewer))
    alone := Nat.le_trans hfewer h.alone }

/-- So does a thread that goes on while nobody calls from inside a signal. -/
theorem Orderly.of_nobody {t t' : PlayerTraffic} (h : t.Orderly) (hnobody : t.insiders = 0)
    (hheard : t'.heard = t.heard) (hcalls : t'.calls = t.calls) (htaken : t'.taken = t.taken)
    (hfocus : t'.focus ≠ .consumer) : t'.Orderly := by
  have hstill : t'.insiders = 0 := by rw [insiders, hcalls, ← hnobody, insiders]
  refine ⟨fun hconsumer => absurd hconsumer hfocus, ?_, fun hsome => ?_, ?_⟩
  · rw [hheard, hcalls, htaken]
    exact h.quiet
  · omega
  · omega

/-- No turn puts a call out of keeping with what the consumer has been told. -/
theorem Orderly.turn {t t' : PlayerTraffic} (h : t.Orderly) (hturn : t.Turn t') :
    t'.Orderly := by
  cases hturn with
  | stays => exact h
  | calls c inside hmay =>
      obtain ⟨hheard, hinside⟩ := h.of_mayCall hmay
      cases inside with
      | true =>
          obtain ⟨hfocus, hnone⟩ := hinside rfl
          have hone : (t.calls ++ [HandleCall.mk c true .made]).countP HandleCall.inside = 1 := by
            rw [List.countP_append]
            exact congrArg (· + 1) hnone
          exact
            { attends := h.attends
              quiet := fun hnothing => absurd hnothing hheard
              inside := fun _ => hfocus
              alone := Nat.le_of_eq hone }
      | false =>
          have hsame : (t.calls ++ [HandleCall.mk c false .made]).countP HandleCall.inside =
              t.insiders := by
            rw [List.countP_append]
            rfl
          exact
            { attends := h.attends
              quiet := fun hnothing => absurd hnothing hheard
              inside := fun hinside => h.inside (hsame ▸ hinside)
              alone := Nat.le_trans (Nat.le_of_eq hsame) h.alone }
  | notes front rest call hcalls hstage =>
      refine h.of_busy (by simp [hcalls]) rfl rfl ?_
      simp [insiders, hcalls, List.countP_append, List.countP_cons]
  | takes front rest call hcalls hstage hroom =>
      refine h.of_busy (by simp [hcalls]) rfl rfl ?_
      simp [insiders, hcalls, List.countP_append, List.countP_cons]
  | notifies front rest call hcalls hstage =>
      refine h.of_busy (by simp [hcalls]) rfl rfl ?_
      simp [insiders, hcalls, List.countP_append, List.countP_cons]
  | breaksOff front rest call hcalls hstage hfull =>
      have hsplit : t.insiders = (front ++ rest).countP HandleCall.inside +
          if call.inside then 1 else 0 := by
        simp [insiders, hcalls, List.countP_append, List.countP_cons, Nat.add_assoc]
      have hbusy : t.calls ≠ [] := by simp [hcalls]
      cases hinside : call.inside with
      | false =>
          refine h.of_busy hbusy rfl (by simp) ?_
          rw [hsplit]
          exact Nat.le_add_right _ _
      | true =>
          -- There was no other call from inside the signal that the thread has died in.
          have hnone : (front ++ rest).countP HandleCall.inside = 0 := by
            have halone := h.alone
            rw [hsplit, hinside, if_pos rfl] at halone
            omega
          exact
            { attends := fun hfocus => by simp at hfocus
              quiet := fun hnothing => absurd (h.quiet hnothing).1 hbusy
              inside := fun hmore => by simp [insiders, hnone] at hmore
              alone := by simp [insiders, hnone] }
  | advances p move hfocus hawake hadvances =>
      have hnobody : t.insiders = 0 := by
        by_contra hsome
        have hconsumer := h.inside (Nat.pos_of_ne_zero hsome)
        simp [hfocus] at hconsumer
      refine h.of_nobody hnobody rfl rfl rfl fun hconsumer => ?_
      cases move <;> simp [Move.focus] at hconsumer
  | sends s hfocus =>
      exact
        { attends := fun _ => by simp
          quiet := fun hnothing => by simp at hnothing
          inside := fun _ => rfl
          alone := h.alone }
  | returns hfocus hidle =>
      exact h.of_nobody ((isCalling_eq_false_iff t).mp hidle) rfl rfl rfl (by simp)

/-! ## What the thread has made up its mind to -/

section Decided

variable {t : PlayerTraffic}

/-- What is sent was decided before. -/
theorem decided_of_sends {s : Signal Unit} (hfocus : t.focus = .sending s) :
    decided { t with focus := .consumer, heard := t.heard ++ [s] } = t.decided := by
  simp [decided, hfocus]

/-- A consumer that returns decides nothing. -/
theorem decided_of_returns (hfocus : t.focus = .consumer) :
    decided { t with focus := .script } = t.decided := by
  simp [decided, hfocus]

/-- A move of the thread decides what it is to deliver. -/
theorem decided_of_advances (hfocus : t.focus = .script) (p : Player) (move : Move) :
    decided { t with player := p, focus := move.focus } = t.decided ++ move.focus.signals := by
  simp [decided, hfocus]

/-- A call that breaks off takes nothing of it back. -/
theorem Orderly.decided_of_breakOff (h : t.Orderly) {front rest : List HandleCall}
    {call : HandleCall} (hcalls : t.calls = front ++ call :: rest) :
    t.heard ++ (t.focus.afterBreak call.inside).signals = t.decided :=
  congrArg (t.heard ++ ·) (h.signals_of_call hcalls)

end Decided

/-! ## Where the items that were asked for are -/

/-- The books of a player under traffic. -/
structure Balanced (t : PlayerTraffic) : Prop where
  /-- What was granted is with the consumer, on its way to it, or left over. -/
  counted : (t.decided.filterMap Signal.chunk?).length + t.player.outstanding = t.granted
  /-- The thread is told of a cancellation exactly when there was one. -/
  cancelled : t.player.cancelled = true ↔ .cancel ∈ t.taken
  /-- What was put down was granted or refused, or has not come to the counter yet. -/
  logged : t.player.log.total = t.granted + Control.total t.refused + t.pending
  /-- Nothing is refused before more was asked for than there can be. -/
  exceeded : t.refused ≠ [] → Demand.ceiling < t.player.log.total

/-- What a call that is under way adds to what has not come to the counter yet. -/
theorem sum_pending_split (front rest : List HandleCall) (call : HandleCall) :
    ((front ++ call :: rest).map HandleCall.pending).sum =
      call.pending + ((front ++ rest).map HandleCall.pending).sum := by
  simp only [List.map_append, List.map_cons, List.sum_append, List.sum_cons]
  omega

/-- What takes effect is what was put down. -/
theorem pending_of_noted {call : HandleCall} (hstage : call.stage = .noted) :
    call.pending = call.control.asks := by
  simp [HandleCall.pending, hstage]

/-- Only a call that was put down and has not taken effect still asks for something. -/
theorem pending_of_not_noted {call : HandleCall} (hstage : call.stage ≠ .noted) :
    call.pending = 0 := by
  simp [HandleCall.pending, hstage]

theorem total_singleton (c : Control) : Control.total [c] = c.asks := by
  simp [Control.total]

section Books

variable {t : PlayerTraffic} (h : t.Balanced)
include h

/-- A call that is set about asks for nothing yet. -/
theorem Balanced.call (c : Control) (inside : Bool) :
    Balanced { t with calls := t.calls ++ [{ control := c, inside := inside }] } := by
  refine ⟨h.counted, h.cancelled, h.logged.trans ?_, h.exceeded⟩
  simp [granted, pending, HandleCall.pending]

variable {front rest : List HandleCall} {call : HandleCall}
  (hcalls : t.calls = front ++ call :: rest)
include hcalls

/-- What is pending without one of the calls. -/
theorem Balanced.logged_split :
    t.player.log.total = t.granted + Control.total t.refused +
      (call.pending + ((front ++ rest).map HandleCall.pending).sum) := by
  rw [← sum_pending_split, ← hcalls]
  exact h.logged

/-- A request that is put down is put down as asked. -/
theorem Balanced.putDown (hstage : call.stage = .made) :
    Balanced
      { t with
        player := t.player.putDown call.control
        calls := front ++ { call with stage := .noted } :: rest } := by
  have hlogged := h.logged_split hcalls
  rw [pending_of_not_noted (by simp [hstage])] at hlogged
  refine ⟨h.counted, h.cancelled, ?_, fun hsome => ?_⟩
  · rw [pending, sum_pending_split, pending_of_noted rfl]
    simp only [Player.putDown, ControlLog.total_hear, granted] at hlogged ⊢
    omega
  · have hpast := h.exceeded hsome
    simp only [Player.putDown, ControlLog.total_hear]
    omega

/-- A request that takes effect is granted. -/
theorem Balanced.count (hstage : call.stage = .noted)
    (hroom : t.player.hasRoom call.control = true) :
    Balanced
      { t with
        player := t.player.count call.control
        calls := front ++ { call with stage := .effective } :: rest
        taken := t.taken ++ [call.control] } := by
  have hcounted := h.counted
  have hlogged := h.logged_split hcalls
  rw [pending_of_noted hstage] at hlogged
  obtain ⟨-, -, -, hlog⟩ := Player.count_frame call.control t.player
  refine ⟨?_, ?_, ?_, fun hsome => ?_⟩
  · simp only [granted, decided, Player.count_outstanding hroom, Control.total_append,
      total_singleton] at hcounted ⊢
    omega
  · rw [Player.count_cancelled, h.cancelled, List.mem_append, List.mem_singleton]
    exact or_congr Iff.rfl eq_comm
  · rw [pending, sum_pending_split, pending_of_not_noted (by simp)]
    simp only [granted, hlog, Control.total_append, total_singleton] at hlogged ⊢
    omega
  · rw [hlog]
    exact h.exceeded hsome

/-- A request is refused when more was asked for than there can be. -/
theorem Balanced.breakOff (ho : t.Orderly) (hstage : call.stage = .noted)
    (hfull : t.player.hasRoom call.control = false) :
    Balanced
      { t with
        player := t.player.afterBreak call.inside
        focus := t.focus.afterBreak call.inside
        calls := front ++ rest
        refused := t.refused ++ [call.control] } := by
  have hcounted := h.counted
  have hlogged := h.logged_split hcalls
  rw [pending_of_noted hstage] at hlogged
  have hpast := Player.hasRoom_eq_false hfull
  obtain ⟨-, houtstanding, hcancelled, -, hlog⟩ :=
    Player.afterBreak_frame call.inside t.player
  refine ⟨?_, ?_, ?_, fun _ => ?_⟩
  · rw [decided, ho.decided_of_breakOff hcalls, houtstanding]
    exact hcounted
  · rw [hcancelled]
    exact h.cancelled
  · simp only [granted, pending, hlog, Control.total_append, total_singleton] at hlogged ⊢
    omega
  · simp only [hlog]
    omega

/-- Waking the thread asks for nothing. -/
theorem Balanced.notify (hstage : call.stage = .effective) :
    Balanced { t with player := t.player.notify, calls := front ++ rest } := by
  have hlogged := h.logged_split hcalls
  rw [pending_of_not_noted (by simp [hstage]), Nat.zero_add] at hlogged
  exact ⟨h.counted, h.cancelled, hlogged, h.exceeded⟩

end Books

/-- The thread sends an item for one that was granted. -/
theorem Balanced.advance {t : PlayerTraffic} (h : t.Balanced) {p : Player} {move : Move}
    (hfocus : t.focus = .script) (hadvances : t.player.Advances p move) :
    Balanced { t with player := p, focus := move.focus } := by
  obtain ⟨hcancelled, hlog, -⟩ := hadvances.frame
  have hspends := hadvances.spends
  have hcounted := h.counted
  have hlogged := h.logged
  have hexceeded := h.exceeded
  refine ⟨?_, ?_, ?_, ?_⟩
  · rw [decided_of_advances hfocus, List.filterMap_append, List.length_append]
    simp only [granted] at hcounted ⊢
    omega
  · rw [hcancelled]
    exact h.cancelled
  · rw [hlog]
    exact hlogged
  · rw [hlog]
    exact hexceeded

/-- No turn spoils the books: what was granted was told, or is left. -/
theorem Balanced.turn {t t' : PlayerTraffic} (h : t.Balanced) (ho : t.Orderly)
    (hturn : t.Turn t') : t'.Balanced := by
  cases hturn with
  | stays => exact h
  | calls c inside hmay => exact h.call c inside
  | notes front rest call hcalls hstage => exact h.putDown hcalls hstage
  | takes front rest call hcalls hstage hroom => exact h.count hcalls hstage hroom
  | breaksOff front rest call hcalls hstage hfull => exact h.breakOff hcalls ho hstage hfull
  | notifies front rest call hcalls hstage => exact h.notify hcalls hstage
  | advances p move hfocus hawake hadvances => exact h.advance hfocus hadvances
  | sends s hfocus =>
      refine ⟨?_, h.cancelled, h.logged, h.exceeded⟩
      rw [decided_of_sends hfocus]
      exact h.counted
  | returns hfocus hidle =>
      refine ⟨?_, h.cancelled, h.logged, h.exceeded⟩
      rw [decided_of_returns hfocus]
      exact h.counted

/-! ## What the consumer is told -/

/-- The consumer is told the script. -/
structure Tells (script : List Step) (t : PlayerTraffic) : Prop where
  told : t.decided ++ t.player.coming <+: Step.told script
  /-- Nothing of it is lost but for a cancellation or a call that breaks off. -/
  whole : .cancel ∉ t.taken → t.refused = [] →
    t.decided ++ t.player.coming = Step.told script
  begun : t.player.performance = .fresh → t.decided = []
  left : t.player.performance = .over → t.focus = .script

/-- A player that was greeted for is not fresh. -/
theorem Tells.performance_ne_fresh {script : List Step} {t : PlayerTraffic}
    (h : t.Tells script) (hheard : t.heard ≠ []) : t.player.performance ≠ .fresh :=
  fun hfresh => hheard (List.append_eq_nil_iff.mp (h.begun hfresh)).1

/-- A cancellation comes after the greeting. -/
theorem Tells.greeted {script : List Step} {t : PlayerTraffic} (h : t.Tells script)
    (ho : t.Orderly) (hcancel : .cancel ∈ t.taken) : t.player.performance ≠ .fresh :=
  h.performance_ne_fresh fun hnone => by simp [(ho.quiet hnone).2] at hcancel

/-- The thread stands where it stood, and has decided what it had. -/
theorem Tells.of_decided {script : List Step} {t t' : PlayerTraffic} (h : t.Tells script)
    (hdecided : t'.decided = t.decided) (hscript : t'.player.script = t.player.script)
    (hperformance : t'.player.performance = t.player.performance)
    (htaken : ∀ c ∈ t.taken, c ∈ t'.taken) (hrefused : t'.refused = [] → t.refused = [])
    (hleft : t'.player.performance = .over → t'.focus = .script) : t'.Tells script := by
  have hcoming : t'.player.coming = t.player.coming := by
    simp only [Player.coming, hscript, hperformance]
  refine ⟨?_, fun hopen hnone => ?_, fun hfresh => ?_, hleft⟩
  · rw [hdecided, hcoming]
    exact h.told
  · rw [hdecided, hcoming]
    exact h.whole (fun hcancel => hopen (htaken _ hcancel)) (hrefused hnone)
  · rw [hdecided]
    exact h.begun (hperformance ▸ hfresh)

/-- A thread that is gone had told the script from its beginning on. -/
theorem Tells.of_over {script : List Step} {t t' : PlayerTraffic} (h : t.Tells script)
    (hdecided : t'.decided = t.decided) (hover : t'.player.performance = .over)
    (hrefused : t'.refused ≠ []) (hfocus : t'.focus = .script) : t'.Tells script := by
  refine ⟨?_, fun _ hnone => absurd hnone hrefused, fun hfresh => ?_, fun _ => hfocus⟩
  · rw [hdecided, Player.coming, hover, List.append_nil]
    exact (List.prefix_append t.decided t.player.coming).trans h.told
  · rw [hover] at hfresh
    cases hfresh

/-- What the thread makes up its mind to comes next in the script. -/
theorem Tells.advance {script : List Step} {t : PlayerTraffic} (h : t.Tells script)
    (hb : t.Balanced) {p : Player} {move : Move} (hfocus : t.focus = .script)
    (hadvances : t.player.Advances p move) :
    Tells script { t with player := p, focus := move.focus } := by
  obtain ⟨-, -, hgreeted⟩ := hadvances.frame
  obtain ⟨htells, hall⟩ := hadvances.tells
  refine ⟨?_, fun hopen hnone => ?_, fun hfresh => absurd hfresh hgreeted, hadvances.left⟩
  · rw [decided_of_advances hfocus, List.append_assoc]
    exact ((List.prefix_append_right_inj t.decided).mpr htells).trans h.told
  · have hlive : t.player.cancelled = false := by
      rw [← Bool.not_eq_true, hb.cancelled]
      exact hopen
    rw [decided_of_advances hfocus, List.append_assoc, hall hlive]
    exact h.whole hopen hnone

/-- A turn tells the next signal of the script, or nothing. -/
theorem Tells.turn {script : List Step} {t t' : PlayerTraffic} (h : t.Tells script)
    (ho : t.Orderly) (hb : t.Balanced) (hturn : t.Turn t') : t'.Tells script := by
  cases hturn with
  | stays => exact h
  | calls c inside hmay => exact h.of_decided rfl rfl rfl (fun _ hc => hc) id h.left
  | notes front rest call hcalls hstage =>
      exact h.of_decided rfl rfl rfl (fun _ hc => hc) id h.left
  | notifies front rest call hcalls hstage =>
      exact h.of_decided rfl rfl rfl (fun _ hc => hc) id h.left
  | takes front rest call hcalls hstage hroom =>
      obtain ⟨hscript, hperformance, -, -⟩ := Player.count_frame call.control t.player
      exact h.of_decided rfl hscript hperformance (fun _ => List.mem_append_left _) id
        fun hover => h.left (hperformance ▸ hover)
  | breaksOff front rest call hcalls hstage hfull =>
      have hdecided := ho.decided_of_breakOff hcalls
      have hrefused : t.refused ++ [call.control] ≠ [] := by simp
      cases hinside : call.inside with
      | true =>
          rw [hinside] at hdecided
          exact h.of_over hdecided rfl hrefused rfl
      | false =>
          exact h.of_decided rfl rfl rfl (fun _ hc => hc) (fun hnone => absurd hnone hrefused)
            h.left
  | advances p move hfocus hawake hadvances => exact h.advance hb hfocus hadvances
  | sends s hfocus =>
      refine h.of_decided (decided_of_sends hfocus) rfl rfl (fun _ hc => hc) id fun hover => ?_
      have hscript := h.left hover
      simp [hfocus] at hscript
  | returns hfocus hidle =>
      exact h.of_decided (decided_of_returns hfocus) rfl rfl (fun _ hc => hc) id fun _ => rfl

/-! ## When the thread sleeps -/

/-- A thread that sleeps has a reason to, or is about to be woken. -/
def Rested (t : PlayerTraffic) : Prop :=
  t.player.asleep = true →
    t.focus = .script ∧ t.player.performance = .playing ∧
      (∃ bytes rest, t.player.script = .chunk bytes :: rest) ∧
      (t.player.outstanding = 0 ∧ t.player.cancelled = false ∨
        ∃ call ∈ t.calls, call.stage = .effective)

/-- A call that another one goes on beside is still under way. -/
theorem mem_beside {t : PlayerTraffic} {front rest : List HandleCall} {call other : HandleCall}
    (hcalls : t.calls = front ++ call :: rest) (hmem : other ∈ t.calls)
    (hother : other.stage ≠ call.stage) : other ∈ front ∨ other ∈ rest := by
  rw [hcalls, List.mem_append, List.mem_cons] at hmem
  rcases hmem with hfront | rfl | hrest
  · exact .inl hfront
  · exact absurd rfl hother
  · exact .inr hrest

/-- No turn leaves a thread asleep that has a reason to go on and that nobody will wake. -/
theorem Rested.turn {t t' : PlayerTraffic} (h : t.Rested) (ho : t.Orderly)
    (hturn : t.Turn t') : t'.Rested := by
  intro hasleep
  cases hturn with
  | stays => exact h hasleep
  | calls c inside hmay =>
      obtain ⟨hfocus, hperformance, hchunk, hwhy⟩ := h hasleep
      refine ⟨hfocus, hperformance, hchunk, hwhy.imp_right ?_⟩
      rintro ⟨call, hmem, hstage⟩
      exact ⟨call, List.mem_append_left _ hmem, hstage⟩
  | notes front rest call hcalls hstage =>
      obtain ⟨hfocus, hperformance, hchunk, hwhy⟩ := h hasleep
      refine ⟨hfocus, hperformance, hchunk, hwhy.imp_right ?_⟩
      rintro ⟨other, hmem, heffective⟩
      have hbeside := mem_beside hcalls hmem (by simp [heffective, hstage])
      refine ⟨other, ?_, heffective⟩
      rw [List.mem_append, List.mem_cons]
      exact hbeside.imp_right .inr
  | takes front rest call hcalls hstage hroom =>
      obtain ⟨hscript, hperformed, hslept, -⟩ := Player.count_frame call.control t.player
      obtain ⟨hfocus, hperformance, hchunk, -⟩ := h (hslept ▸ hasleep)
      refine ⟨hfocus, hperformed.trans hperformance, ?_,
        .inr ⟨_, List.mem_append_right _ List.mem_cons_self, rfl⟩⟩
      rw [hscript]
      exact hchunk
  | breaksOff front rest call hcalls hstage hfull =>
      obtain ⟨-, -, -, hslept, -⟩ := Player.afterBreak_frame call.inside t.player
      obtain ⟨hfocus, hperformance, hchunk, hwhy⟩ := h (hslept ▸ hasleep)
      cases hinside : call.inside with
      | true =>
          -- The thread cannot sleep in the middle of a call that it makes itself.
          have hconsumer := ho.focus_of_inside (by simp [hcalls]) hinside
          simp [hfocus] at hconsumer
      | false =>
          refine ⟨hfocus, hperformance, hchunk, hwhy.imp_right ?_⟩
          rintro ⟨other, hmem, heffective⟩
          have hbeside := mem_beside hcalls hmem (by simp [heffective, hstage])
          exact ⟨other, List.mem_append.mpr hbeside, heffective⟩
  | notifies front rest call hcalls hstage => cases hasleep
  | advances p move hfocus hawake hadvances =>
      obtain ⟨hscript, hperformance, hchunk, hwhy⟩ := hadvances.sleeps hawake hasleep
      exact ⟨hscript, hperformance, hchunk, .inl hwhy⟩
  | sends s hfocus =>
      have hscript := (h hasleep).1
      simp [hfocus] at hscript
  | returns hfocus hidle =>
      have hscript := (h hasleep).1
      simp [hfocus] at hscript

/-! ## Runs -/

/-- What holds between any two sections. -/
structure Sound (script : List Step) (t : PlayerTraffic) : Prop where
  orderly : t.Orderly
  balanced : t.Balanced
  tells : t.Tells script
  rested : t.Rested

theorem start_sound (script : List Step) : (start script).Sound script :=
  { orderly :=
      { attends := fun hconsumer => nomatch hconsumer
        quiet := fun _ => ⟨rfl, rfl⟩
        inside := fun hinside => absurd hinside (Nat.lt_irrefl 0)
        alone := Nat.zero_le 1 }
    balanced :=
      { counted := rfl
        cancelled := by simp [start]
        logged := rfl
        exceeded := fun hsome => absurd rfl hsome }
    tells :=
      { told := List.prefix_rfl
        whole := fun _ _ => rfl
        begun := fun _ => rfl
        left := fun _ => rfl }
    rested := fun hasleep => nomatch hasleep }

section Runs

variable {script : List Step} {t : PlayerTraffic} (h : t.Sound script)
include h

/-- What holds between sections holds after another one. -/
theorem Sound.turn {t' : PlayerTraffic} (hturn : t.Turn t') : t'.Sound script :=
  { orderly := h.orderly.turn hturn
    balanced := h.balanced.turn h.orderly hturn
    tells := h.tells.turn h.orderly h.balanced hturn
    rested := h.rested.turn h.orderly hturn }

/-- It holds after any number of them. -/
theorem Sound.run (events : List PlayerEvent) : (t.run events).Sound script := by
  induction events generalizing t with
  | nil => exact h
  | cons e events ih =>
      rw [run_cons]
      exact ih (h.turn (turn_step t e))

/-! ### What is heard -/

/-- What the consumer has heard is the beginning of what the script tells. -/
theorem Sound.heard_prefix : t.heard <+: Step.told script :=
  (List.prefix_append t.heard t.focus.signals).trans
    ((List.prefix_append t.decided t.player.coming).trans h.tells.told)

/-- The consumer is not given more than was granted. -/
theorem Sound.delivered_le : t.delivered.length ≤ t.granted := by
  have hcounted := h.balanced.counted
  simp only [decided, List.filterMap_append, List.length_append] at hcounted
  have hdelivered : t.delivered.length = (t.heard.filterMap Signal.chunk?).length := rfl
  omega

/-- Nothing is refused as long as all that was asked for can be counted. -/
theorem Sound.refused_eq_nil (hfits : t.player.log.total ≤ Demand.ceiling) : t.refused = [] := by
  by_contra hsome
  have hpast := h.balanced.exceeded hsome
  omega

/-- After a cancellation the thread makes up its mind to nothing more. -/
theorem Sound.decided_turn (hcancel : .cancel ∈ t.taken) {t' : PlayerTraffic}
    (hturn : t.Turn t') : t'.decided = t.decided ∧ .cancel ∈ t'.taken := by
  cases hturn with
  | stays => exact ⟨rfl, hcancel⟩
  | calls c inside hmay => exact ⟨rfl, hcancel⟩
  | notes front rest call hcalls hstage => exact ⟨rfl, hcancel⟩
  | notifies front rest call hcalls hstage => exact ⟨rfl, hcancel⟩
  | takes front rest call hcalls hstage hroom =>
      exact ⟨rfl, List.mem_append_left _ hcancel⟩
  | breaksOff front rest call hcalls hstage hfull =>
      exact ⟨h.orderly.decided_of_breakOff hcalls, hcancel⟩
  | advances p move hfocus hawake hadvances =>
      have hgreeted := h.tells.greeted h.orderly hcancel
      have hnothing := hadvances.hushed hgreeted (h.balanced.cancelled.mpr hcancel)
      rw [decided_of_advances hfocus, hnothing, List.append_nil]
      exact ⟨rfl, hcancel⟩
  | sends s hfocus => exact ⟨decided_of_sends hfocus, hcancel⟩
  | returns hfocus hidle => exact ⟨decided_of_returns hfocus, hcancel⟩

/-- Once a cancellation has taken effect the thread makes up its mind about nothing more. -/
theorem Sound.decided_run (hcancel : .cancel ∈ t.taken) (events : List PlayerEvent) :
    (t.run events).decided = t.decided := by
  induction events generalizing t with
  | nil => rfl
  | cons e events ih =>
      obtain ⟨hsame, hstill⟩ := h.decided_turn hcancel (turn_step t e)
      rw [run_cons, ih (h.turn (turn_step t e)) hstill, hsame]

/-- Once cancelled, the consumer is told at most the one signal that is on its way. -/
theorem Sound.heard_run_le (hcancel : .cancel ∈ t.taken) (events : List PlayerEvent) :
    (t.run events).heard.length ≤ t.heard.length + 1 := by
  have hsame := congrArg List.length (h.decided_run hcancel events)
  have hone : t.focus.signals.length ≤ 1 := by
    cases t.focus <;> simp
  simp only [decided, List.length_append] at hsame
  omega

/-! ### Why a thread is blocked -/

omit h in
/-- A thread that nobody is about to wake is blocked because it sleeps. -/
theorem IsBlocked.asleep (hblocked : t.IsBlocked) (hidle : t.calls = []) :
    t.player.asleep = true := by
  obtain ⟨hgoing, hstays⟩ := hblocked
  have hplay : t.play = t := hstays
  have hfocus := congrArg PlayerTraffic.focus hplay
  have hplayer := congrArg PlayerTraffic.player hplay
  cases hf : t.focus with
  | sending s => simp [play, hf] at hfocus
  | consumer =>
      have hquiet : t.isCalling = false := by simp [isCalling, hidle]
      simp [play, hf, hquiet] at hfocus
  | script =>
      by_contra hawake
      have hopen : t.player.asleep = false := by simpa using hawake
      simp only [play, hf, hopen, Bool.false_eq_true, if_false] at hfocus hplayer
      exact (Player.advances_advance t.player).ne_self hopen hgoing hfocus hplayer

/-- A thread that sleeps is blocked. -/
theorem Sound.isBlocked_of_asleep (hasleep : t.player.asleep = true) : t.IsBlocked := by
  obtain ⟨hfocus, hperformance, -, -⟩ := h.rested hasleep
  refine ⟨by simp [hperformance], ?_⟩
  show t.play = t
  simp [play, hfocus, hasleep]

/-- A thread that is blocked, and that no call is on its way to, waits for demand at a chunk:
all that was asked for has been given out. -/
theorem Sound.blocked (hfits : t.player.log.total ≤ Demand.ceiling) (hblocked : t.IsBlocked)
    (hidle : t.calls = []) :
    ∃ bytes rest, t.player.script = .chunk bytes :: rest ∧
      Step.told script = t.heard ++ .next bytes :: Step.signals rest ∧
      t.player.outstanding = 0 ∧ t.player.cancelled = false ∧
      t.granted = t.delivered.length ∧ t.player.log.total = t.delivered.length := by
  obtain ⟨hfocus, hperformance, ⟨bytes, rest, hscript⟩, hwhy⟩ :=
    h.rested (hblocked.asleep hidle)
  have hnone := h.refused_eq_nil hfits
  have hdecided : t.decided = t.heard := by simp [decided, hfocus]
  obtain ⟨hzero, hopen⟩ | ⟨call, hmem, -⟩ := hwhy
  · have hlive : .cancel ∉ t.taken := by
      rw [← h.balanced.cancelled, hopen]
      simp
    have hwhole := h.tells.whole hlive hnone
    have hgranted : t.granted = t.delivered.length := by
      have hcounted := h.balanced.counted
      rw [hdecided, hzero] at hcounted
      exact hcounted.symm
    refine ⟨bytes, rest, hscript, ?_, hzero, hopen, hgranted, ?_⟩
    · rw [hdecided, Player.coming, hperformance, hscript] at hwhole
      exact hwhole.symm
    · have hlogged := h.balanced.logged
      simp only [hnone, pending, hidle] at hlogged
      exact hlogged.trans hgranted
  · simp [hidle] at hmem

/-- A thread that came through without a cancellation has told all. -/
theorem Sound.told_all (hfits : t.player.log.total ≤ Demand.ceiling)
    (hover : t.player.performance = .over) (hlive : .cancel ∉ t.taken) :
    t.heard = Step.told script := by
  have hwhole := h.tells.whole hlive (h.refused_eq_nil hfits)
  simpa [decided, h.tells.left hover, Player.coming, hover] using hwhole

end Runs

/-- However a player runs, whoever uses its handle, from other threads or from inside its own
signals, and whatever comes between the sections of the calls and of the thread: the consumer is
told of the script from its beginning on, that is, it is greeted, is given the chunks before the
first end in order and is told that end.  It is given no more chunks than were granted, and
after a cancellation it is told one more thing at most.  As long as the sum of all requests can
be counted, a thread that is blocked while no call is under way waits for demand: it is at a
chunk, was not cancelled and has no demand left, and as many chunks were given as asked for; and a
thread that is through without having been cancelled has told all. -/
theorem run_plays_script (script : List Step) (events : List PlayerEvent) :
    let t := (start script).run events
    t.heard <+: Step.told script ∧
    t.delivered.length ≤ t.granted ∧ t.granted ≤ t.player.log.total ∧
    (.cancel ∈ t.taken → ∀ later, (t.run later).heard.length ≤ t.heard.length + 1) ∧
    (t.player.log.total < 2 ^ 64 →
      (t.IsBlocked → t.calls = [] →
        ∃ bytes rest, t.player.script = .chunk bytes :: rest ∧
          Step.told script = t.heard ++ .next bytes :: Step.signals rest ∧
          t.player.outstanding = 0 ∧ t.player.cancelled = false ∧
          t.granted = t.delivered.length ∧ t.player.log.total = t.delivered.length) ∧
      (t.player.performance = .over → .cancel ∉ t.taken → t.heard = Step.told script)) := by
  intro t
  have h : t.Sound script := (start_sound script).run events
  refine ⟨h.heard_prefix, h.delivered_le, ?_, h.heard_run_le, fun hbound => ?_⟩
  · have hlogged := h.balanced.logged
    omega
  · have hfits : t.player.log.total ≤ Demand.ceiling := Nat.le_of_lt_succ hbound
    exact ⟨h.blocked hfits, h.told_all hfits⟩

/-- A request from inside the greeting, and a thread that falls asleep; then a request and a
cancellation from other threads, which cross while the second chunk is on its way, and in
another run a request alone, after which the script goes through. -/
theorem crossed_calls_play_script :
    let script : List Step := [.chunk [1], .chunk [2], .complete, .chunk [3]]
    let asked : List PlayerEvent :=
      [.plays, .plays, .requests true 1, .goesOn 0, .goesOn 0, .goesOn 0] ++
        List.replicate 5 .plays
    let crossed : List PlayerEvent :=
      asked ++ [.requests false 2, .goesOn 0, .cancels false, .goesOn 1, .goesOn 0, .goesOn 0,
        .plays, .goesOn 0]
    let again : List PlayerEvent :=
      asked ++ [.requests false 2, .goesOn 0, .goesOn 0, .goesOn 0] ++ List.replicate 7 .plays
    let later : List PlayerEvent := [.plays, .goesOn 0, .plays, .plays, .plays]
    ((start script).run asked).player.log.total = ((start script).run asked).delivered.length ∧
      ((start script).run asked).player.outstanding = 0 ∧
      (((start script).run crossed).run later).heard.length ≤
        ((start script).run crossed).heard.length + 1 ∧
      ((start script).run again).heard = Step.told script := by
  intro script asked crossed again later
  have hasked := (run_plays_script script asked).2.2.2.2 (by decide +kernel)
  have hblocked := ((start_sound script).run asked).isBlocked_of_asleep (by decide +kernel)
  obtain ⟨bytes, rest, -, -, hzero, -, -, htotal⟩ := hasked.1 hblocked (by decide +kernel)
  have hcrossed := (run_plays_script script crossed).2.2.2.1 (by decide +kernel) later
  have hagain := (run_plays_script script again).2.2.2.2 (by decide +kernel)
  exact ⟨htotal, hzero, hcrossed, hagain.2 (by decide +kernel) (by decide +kernel)⟩

end CreditFlow.PlayerTraffic
