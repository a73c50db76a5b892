import CreditFlow.Proofs.ChainLink

/-!
# How a cancellation travels up a chain

A cancellation goes from hop to hop.  The pump of a hop that was cancelled is awake until it
has noticed; it then leaves, lets go of its stream, and so cancels the chain before it.  While
it is on its way a chain is *cut*: some hops at its end are gone, the next one is leaving, and
the chain before that one goes on as if nothing had happened.  Every move keeps it so, and
nothing but a farewell leaves it.

A hop that is leaving is awake.  So when a cut chain is idle no hop is leaving, the cancellation
has gone all the way up, and the chain is *severed*: every hop is over, and the writer has been
told.  Nothing moves in a severed chain any more.

Main results:

- {lit}`Chain.Sound.cut`: cancelling a chain cuts it.
- {lit}`Chain.Cut.turn`, {lit}`Chain.Cut.atWriter`: a chain that is cut stays so.
- {lit}`Chain.Cut.severed`: in an idle chain the cut is at the writer.
- {lit}`Chain.Severed.turn`: nothing moves in a severed chain.
-/

namespace CreditFlow

/-- The writer has been told that its consumer has cancelled, and has no credit. -/
structure Outlet.Cut (o : Outlet) : Prop where
  cancelled : o.ledger.cancelled = true
  spent : o.ledger.demand.items = 0

/-- A stream that was let go of, with nothing in it and nobody to wake. -/
structure PullStream.Gone (s : PullStream Unit) : Prop where
  dropped : s.dropped = true
  inbox : s.inbox = []
  parked : s.parked = false

/-- A pump whose consumer has cancelled, on its way out: its task `k` runs or is to run, and
does not go to sleep any more. -/
structure Pump.Leaves (awake : List Nat) (running : Option Nat) (k : Nat) (p : Pump) : Prop where
  cancelled : p.cancelled = true
  sleepless : p.sleep = none
  stage : p.stage ≠ .fresh ∧ p.stage ≠ .over
  positive : 0 ∉ p.grants
  minded : running = some k ∨ k ∈ awake
  waiting : running ≠ some k → p.stage = .between
  polling : p.stage = .polling → k ∈ awake

namespace Chain

/-- A chain goes on as if nothing had happened, and the stream `s` behind it has taken its
subscription. -/
structure GoesOn (awake : List Nat) (running : Option Nat) (s : PullStream Unit) (c : Chain) :
    Prop where
  sound : c.Sound
  linked : c.Linked True True
  tended : c.Tended awake running
  tuned : s.Tuned c.port
  taken : s.subscription ≠ none
  opened : s.done = false ∧ s.dropped = false

/-- A chain whose consumer has cancelled, while the cancellation is on its way to the writer. -/
inductive Cut (awake : List Nat) (running : Option Nat) : Chain → Prop
  /-- It has reached the writer. -/
  | writer (o : Outlet) (hcut : o.Cut) : Cut awake running (writer o)
  /-- It has passed the last hop. -/
  | gone (before : Chain) (s : PullStream Unit) (p : Pump) (hover : p.stage = .over)
      (hgone : s.Gone) (hbefore : Cut awake running before) : Cut awake running (hop before s p)
  /-- It has reached the last hop, and the chain before it goes on. -/
  | leaves (before : Chain) (s : PullStream Unit) (p : Pump)
      (hleaves : p.Leaves awake running (before.hops + 1))
      (hbefore : before.GoesOn awake running s) : Cut awake running (hop before s p)

/-- Every hop of the chain is over, and the writer has been told. -/
def Severed : Chain → Prop
  | writer o => o.Cut
  | hop before s p => p.stage = .over ∧ s.Gone ∧ before.Severed
  | _ => False

end Chain

/-! ## Pumps on their way out -/

namespace Pump

variable {awake awake' : List Nat} {running : Option Nat} {k : Nat} {p p' : Pump}

/-- A pump that was cancelled, and whose wakeups were minded, is on its way out. -/
theorem Leaves.of_minds {dry : Prop} (hcancelled : p.cancelled = true) (hsleepless : p.sleep = none)
    (hstage : p.stage ≠ .fresh ∧ p.stage ≠ .over) (hpositive : 0 ∉ p.grants)
    (hminds : p.Minds awake running k dry) : p.Leaves awake running k := by
  refine ⟨hcancelled, hsleepless, hstage, hpositive, ?_, fun hother => ?_, fun hpolling => ?_⟩
  · rcases hminds.minded with hruns | hwoken | hrests
    · exact .inl hruns
    · exact .inr hwoken
    · cases hrests with
      | finished hover => exact absurd hover hstage.2
      | forGrant hbetween hsleep hdemand hgrants =>
          rw [hsleepless] at hsleep
          cases hsleep
      | forStream hbetween hsleep hdry =>
          rw [hsleepless] at hsleep
          cases hsleep
  · rcases hminds.stage hother with hfresh | hbetween | hover
    · exact absurd hfresh hstage.1
    · exact hbetween
    · exact absurd hover hstage.2
  · rcases hminds.polling hpolling with hsleep | hwoken
    · rw [hsleepless] at hsleep
      cases hsleep
    · exact hwoken

/-- A pump on its way out stays so when more tasks are to run. -/
theorem Leaves.mono (h : p.Leaves awake running k) (hsub : ∀ j ∈ awake, j ∈ awake') :
    p.Leaves awake' running k :=
  ⟨h.cancelled, h.sleepless, h.stage, h.positive, h.minded.imp_right (hsub k), h.waiting,
    fun hpolling => hsub k (h.polling hpolling)⟩

/-- Another task stops, or comes to run. -/
theorem Leaves.of_running (h : p.Leaves awake running k) {running' : Option Nat}
    (hrunning : running = some k ↔ running' = some k) : p.Leaves awake running' k :=
  ⟨h.cancelled, h.sleepless, h.stage, h.positive, h.minded.imp_left hrunning.mp,
    fun hother => h.waiting fun hsame => hother (hrunning.mp hsame), h.polling⟩

theorem Leaves.starts {task : Nat} {rest : List Nat} (h : p.Leaves (task :: rest) none k) :
    p.Leaves rest (some task) k := by
  have hbetween : p.stage = .between := h.waiting nofun
  refine ⟨h.cancelled, h.sleepless, h.stage, h.positive, ?_, fun _ => hbetween,
    fun hpolling => ?_⟩
  · rcases h.minded with hnone | hmem
    · cases hnone
    · rcases List.mem_cons.mp hmem with rfl | hmem
      · exact .inl rfl
      · exact .inr hmem
  · rw [hbetween] at hpolling
    cases hpolling

/-- A pump on its way out goes on. -/
theorem Leaves.goesOn (h : p.Leaves awake (some k) k) (hcancelled : p'.cancelled = p.cancelled)
    (hsleep : p'.sleep = none) (hgrants : ∀ n ∈ p'.grants, n ∈ p.grants)
    (hstage : p'.stage = .between ∨ p'.stage = .leaving) : p'.Leaves awake (some k) k := by
  have hplace : p'.stage ≠ .fresh ∧ p'.stage ≠ .over ∧ p'.stage ≠ .polling := by
    rcases hstage with hs | hs <;> simp [hs]
  exact ⟨hcancelled.trans h.cancelled, hsleep, ⟨hplace.1, hplace.2.1⟩,
    fun hzero => h.positive (hgrants 0 hzero), .inl rfl, fun hother => absurd rfl hother,
    fun hpolling => absurd hpolling hplace.2.2⟩

/-- No poll begins any more. -/
theorem Leaves.polls (h : p.Leaves awake running k) (hpolls : p.Polls p') :
    p' = p ∧ p.stage = .polling := by
  cases hpolls with
  | begins hstage hdemand huncancelled =>
      rw [h.cancelled] at huncancelled
      cases huncancelled
  | goesOn hstage => exact ⟨rfl, hstage⟩

/-- The cancellation came during the poll, so it has woken the task. -/
theorem Leaves.pending (h : p.Leaves awake (some k) k) (hstage : p.stage = .polling) :
    p.pending.Leaves awake none k :=
  ⟨h.cancelled, h.sleepless, ⟨nofun, nofun⟩, h.positive, .inr (h.polling hstage), fun _ => rfl,
    nofun⟩

end Pump

namespace Chain

variable {awake awake' : List Nat} {running : Option Nat} {s : PullStream Unit} {c : Chain}

/-! ## Who is awake -/

/-- A chain that goes on does so when more tasks are to run. -/
theorem GoesOn.mono (h : c.GoesOn awake running s) (hsub : ∀ j ∈ awake, j ∈ awake') :
    c.GoesOn awake' running s :=
  ⟨h.sound, h.linked, h.tended.mono hsub, h.tuned, h.taken, h.opened⟩

/-- Which task runs outside a chain does not matter to a chain that goes on. -/
theorem GoesOn.of_running (h : c.GoesOn awake running s) {running' : Option Nat}
    (hrunning : ∀ k ≤ c.hops, running = some k ↔ running' = some k) :
    c.GoesOn awake running' s :=
  ⟨h.sound, h.linked, h.tended.of_running running' hrunning, h.tuned, h.taken, h.opened⟩

theorem GoesOn.starts {task : Nat} {rest : List Nat} (h : c.GoesOn (task :: rest) none s) :
    c.GoesOn rest (some task) s :=
  ⟨h.sound, h.linked, h.tended.starts, h.tuned, h.taken, h.opened⟩

/-- A cancellation that is on its way stays so when more tasks are to run. -/
theorem Cut.mono (h : c.Cut awake running) (hsub : ∀ j ∈ awake, j ∈ awake') :
    c.Cut awake' running := by
  induction h with
  | writer o hcut => exact .writer o hcut
  | gone before s p hover hgone hbefore ih => exact .gone before s p hover hgone ih
  | leaves before s p hleaves hbefore =>
      exact .leaves before s p (hleaves.mono hsub) (hbefore.mono hsub)

/-- Which task runs outside a chain does not matter to a cancellation in it. -/
theorem Cut.of_running (h : c.Cut awake running) {running' : Option Nat}
    (hrunning : ∀ k ≤ c.hops, running = some k ↔ running' = some k) : c.Cut awake running' := by
  induction h with
  | writer o hcut => exact .writer o hcut
  | gone before s p hover hgone hbefore ih =>
      exact .gone before s p hover hgone (ih fun k hk => hrunning k (Nat.le_succ_of_le hk))
  | leaves before s p hleaves hbefore =>
      exact .leaves before s p (hleaves.of_running (hrunning _ (Nat.le_refl _)))
        (hbefore.of_running fun k hk => hrunning k (Nat.le_succ_of_le hk))

theorem Cut.starts {task : Nat} {rest : List Nat} (h : c.Cut (task :: rest) none) :
    c.Cut rest (some task) := by
  induction c with
  | writer o =>
      cases h with
      | writer _ hcut => exact .writer o hcut
  | source s p => cases h
  | player p => cases h
  | hop before s p ih =>
      cases h with
      | gone _ _ _ hover hgone hbefore => exact .gone before s p hover hgone (ih hbefore)
      | leaves _ _ _ hleaves hbefore => exact .leaves before s p hleaves.starts hbefore.starts

/-- Where nobody is awake nobody is on the way out. -/
theorem Cut.severed (h : c.Cut [] none) : c.Severed := by
  induction c with
  | writer o =>
      cases h with
      | writer _ hcut => exact hcut
  | source s p => cases h
  | player p => cases h
  | hop before s p ih =>
      cases h with
      | gone _ _ _ hover hgone hbefore => exact ⟨hover, hgone, ih hbefore⟩
      | leaves _ _ _ hleaves hbefore =>
          rcases hleaves.minded with hnone | hmem
          · cases hnone
          · cases hmem

/-! ## Cancelling -/

/-- Whoever has cancelled may let go of the handle. -/
theorem Cut.release (h : c.Cut awake running) :
    (c.control .release).1.Cut (awake ++ (c.control .release).2.2) running := by
  cases h with
  | writer o hcut =>
      have hsame : (o.control .release).1 = o := by
        unfold Outlet.control
        split <;> rfl
      have hcontrol : (control .release (.writer o)).1 = .writer o :=
        congrArg Chain.writer hsame
      rw [hcontrol]
      exact .writer o hcut
  | gone before s p hover hgone hbefore =>
      have hsame : p.control .release = (p, false) := by simp [Pump.control, hover]
      simp only [control, hsame]
      exact .gone before s p hover hgone (hbefore.mono fun j hj => List.mem_append_left _ hj)
  | leaves before s p hleaves hbefore =>
      have hreleased : p.control .release = ({ p with held := false }, false) := by
        simp [Pump.control, hleaves.stage.2, hleaves.sleepless]
      have hstill : { p with held := false }.Leaves awake running (before.hops + 1) :=
        ⟨hleaves.cancelled, hleaves.sleepless, hleaves.stage, hleaves.positive, hleaves.minded,
          hleaves.waiting, hleaves.polling⟩
      simp only [control, hreleased]
      exact .leaves before s _ (hstill.mono fun j hj => List.mem_append_left _ hj)
        (hbefore.mono fun j hj => List.mem_append_left _ hj)

/-- Letting go of a cancelled publisher does not stop the cancellation. -/
theorem Cut.releases (h : c.Cut awake running) {cs : List Control}
    (hrelease : ∀ ctl ∈ cs, ctl = .release) :
    (c.controls cs).1.Cut (awake ++ (c.controls cs).2.2) running := by
  induction cs generalizing c awake with
  | nil => exact h.mono fun j hj => List.mem_append_left _ hj
  | cons ctl cs ih =>
      obtain rfl := hrelease ctl List.mem_cons_self
      have hrest := ih h.release fun ctl hmem => hrelease ctl (List.mem_cons_of_mem _ hmem)
      rw [List.append_assoc] at hrest
      exact hrest

/-- Cancelling a chain that goes on cuts it, also if its handle is let go of afterwards. -/
theorem Sound.cut (h : c.Sound) (hlinked : c.Linked True True) (htended : c.Tended awake running)
    {st : Standing} (hst : c.standing = some st) {credit : Nat} (hlive : c.port = .live credit)
    {cs : List Control} (hrelease : ∀ ctl ∈ cs, ctl = .release) :
    (c.controls (.cancel :: cs)).1.Cut (awake ++ (c.controls (.cancel :: cs)).2.2) running := by
  have hfirst : (c.control .cancel).1.Cut (awake ++ (c.control .cancel).2.2) running := by
    cases c with
    | writer o =>
        have hattached : o.downstream = .attached := by
          cases hdown : o.downstream <;> simp [port, Outlet.port, hdown] at hlive
          rfl
        have hheld := (h.opened hattached).2.2.1
        have hcancelled : (o.control .cancel).1 =
            { o with ledger := { o.ledger with cancelled := true, demand := .zero } } := by
          simp [Outlet.control, hheld, Ledger.cancel, h.uncancelled]
        have hcontrol : (control .cancel (.writer o)).1 = .writer _ :=
          congrArg Chain.writer hcancelled
        rw [hcontrol]
        exact .writer _ ⟨rfl, Demand.zero_items⟩
    | source s p => cases hst
    | player p => exact h.elim
    | hop before s p =>
        obtain ⟨hbefore, htuned, hfits⟩ := h
        have hplace : p.stage ≠ .fresh ∧ p.stage ≠ .over := by
          constructor <;> intro hstage <;> simp [port, Pump.port, hstage] at hlive
        have hended : p.port.isEnded = false := by
          rw [show p.port = .live credit from hlive]
          rfl
        have htaken : s.subscription ≠ none := fun hnone => (hlinked.2 hended hnone).1 trivial
        have hcancelled : (p.control .cancel).1 = { p with cancelled := true, sleep := none } := by
          simp [Pump.control, hplace.2, hfits.uncancelled]
        have hminds := minds_control htended.2 .cancel
        rw [hcancelled] at hminds
        have hleaves : (p.control .cancel).1.Leaves
            (awake ++ wakeIf (p.control .cancel).2 (before.hops + 1)) running
            (before.hops + 1) := by
          rw [hcancelled]
          exact .of_minds rfl rfl hplace hfits.positive hminds
        have hkept : s.dropped = false := by
          by_contra hdropped
          exact hplace.2 (hfits.dropped_iff.mp (by simpa using hdropped))
        have hgoesOn : before.GoesOn awake running s :=
          ⟨hbefore, hlinked.1.mono fun _ => htaken, htended.1, htuned, htaken,
            hfits.done_eq.trans hended, hkept⟩
        exact .leaves before s _ hleaves (hgoesOn.mono fun j hj => List.mem_append_left _ hj)
  have hrest := hfirst.releases hrelease
  rw [List.append_assoc] at hrest
  exact hrest

/-! ## Hearing -/

/-- A pump that does not sleep is not woken by what its stream hears. -/
theorem hear_sleepless {before : Chain} {s : PullStream Unit} {p : Pump} {q : Port}
    (hsleepless : p.sleep = none) (htuned : s.Tuned q) {es : List Emission}
    (hemits : q.emits es = some before.port) :
    ∃ s', hear es (hop before s p) = (hop before s' p, {}) ∧ s'.Tuned before.port ∧
      s'.subscription = s.subscription ∧ s'.done = s.done ∧ s'.dropped = s.dropped := by
  induction es generalizing s q with
  | nil =>
      cases hemits
      exact ⟨s, rfl, htuned, rfl, rfl, rfl⟩
  | cons e es ih =>
      rw [Port.emits_cons] at hemits
      obtain ⟨q', hemit, hrest⟩ := Option.bind_eq_some_iff.mp hemits
      obtain ⟨s₁, woken, hfirst, htuned₁, -, hdone₁, hdropped₁, hsub₁, -⟩ :=
        hopHear_tuned before htuned hemit p
      obtain ⟨s', hothers, htuned', hsub, hdone, hdropped⟩ := ih htuned₁ hrest
      have hrouse : p.rouse woken = (p, false) := by
        unfold Pump.rouse Pump.streamReady
        split <;> simp [hsleepless]
      refine ⟨s', ?_, htuned', hsub.trans hsub₁, hdone.trans hdone₁, hdropped.trans hdropped₁⟩
      rw [hrouse] at hfirst
      simp only [hear, hfirst, hothers]
      rfl

/-- The chain goes on when it has made a move, and the stream has heard of it. -/
theorem GoesOn.hears (h : c.GoesOn awake running s) {p : Pump} (hsleepless : p.sleep = none)
    {new : List (Signal Unit)} {r : Chain × Burst} (hmoves : Moves new c r)
    (hlinked : r.1.Linked True True) {running' : Option Nat}
    (htended : r.1.Tended (awake ++ r.2.wakes) running') :
    ∃ s', hear r.2.emissions (hop r.1 s p) = (hop r.1 s' p, {}) ∧
      r.1.GoesOn (awake ++ r.2.wakes) running' s' := by
  obtain ⟨s', hhear, htuned, hsub, hdone, hdropped⟩ :=
    hear_sleepless hsleepless h.tuned hmoves.emits
  refine ⟨s', hhear, hmoves.sound, hlinked, htended, htuned, ?_, ?_⟩
  · rw [hsub]
    exact h.taken
  · rw [hdone, hdropped]
    exact h.opened

/-- A stream that is gone takes no notice of a farewell. -/
theorem hear_gone (before : Chain) {s : PullStream Unit} (p : Pump) (hgone : s.Gone)
    {es : List Emission} (hfarewell : ∀ e ∈ es, e = .hangUp) :
    ∃ s', hear es (hop before s p) = (hop before s' p, {}) ∧ s'.Gone := by
  induction es generalizing s with
  | nil => exact ⟨s, rfl, hgone⟩
  | cons e es ih =>
      obtain rfl := hfarewell e List.mem_cons_self
      have hleft : s.hangUp.1.Gone ∧ s.hangUp.2 = false := by
        unfold PullStream.hangUp
        split
        · exact ⟨⟨hgone.dropped, hgone.inbox, rfl⟩, hgone.parked⟩
        · exact ⟨hgone, rfl⟩
      obtain ⟨s', hothers, hgone'⟩ := ih hleft.1 fun e hmem =>
        hfarewell e (List.mem_cons_of_mem _ hmem)
      refine ⟨s', ?_, hgone'⟩
      simp only [hear, hopHear, hleft.2, Bool.false_eq_true, if_false, wakeIf, hothers]
      rfl

/-- Where a hop tells nobody of what it hears, its burst is that of the chain before it. -/
theorem absorb_of_hear {s s' : PullStream Unit} {p : Pump} {r : Chain × Burst}
    (hhear : hear r.2.emissions (hop r.1 s p) = (hop r.1 s' p, {})) :
    Chain.absorb s p r = (hop r.1 s' p, { r.2 with emissions := [] }) := by
  rw [Chain.absorb, hhear]
  simp only [List.append_nil]

/-! ## Turns -/

/-- The last hop is over: its task has nothing to do. -/
theorem hopTurn_of_over (before : Chain) (s : PullStream Unit) {p : Pump}
    (hover : p.stage = .over) : hopTurn before s p = (hop before s p, {}) := by
  simp [hopTurn, Pump.advance, hover]

/-- Letting go of a stream that has not ended cancels its subscription first. -/
theorem drop_of_taken {s : PullStream Unit} (htaken : s.subscription ≠ none)
    (hdone : s.done = false) :
    s.drop.1.Gone ∧ ∃ cs, s.drop.2.2.map Prod.snd = .cancel :: cs ∧ ∀ ctl ∈ cs, ctl = .release := by
  obtain ⟨handle, hsub⟩ := Option.ne_none_iff_exists'.mp htaken
  have hearly : s.cancelEarly = ({ s with subscription := none }, [.pullDroppedEarly],
      [(handle, .cancel), (handle, .release)]) := by
    simp [PullStream.cancelEarly, hsub, hdone]
  have hdrop : s.drop =
      ((PullStream.discard { s with subscription := none }).1, [.pullDroppedEarly],
        [(handle, .cancel), (handle, .release)] ++
          (PullStream.discard { s with subscription := none }).2) := by
    rw [PullStream.drop, hearly]
  rw [hdrop]
  refine ⟨⟨rfl, rfl, rfl⟩, .release :: (PullStream.discard { s with subscription := none }).2.map
    Prod.snd, rfl, fun ctl hmem => ?_⟩
  rcases List.mem_cons.mp hmem with rfl | hmem
  · rfl
  · obtain ⟨told, htold, rfl⟩ := List.mem_map.mp hmem
    obtain ⟨first, -, rfl⟩ := List.mem_map.mp htold
    rfl

/-- The chain goes on when the stream asks it for an item. -/
theorem GoesOn.asks {s' : PullStream Unit} (h : c.GoesOn awake running s)
    (hspent : c.port = .live 0) (htuned : s'.Tuned (.live 1)) (htaken : s'.subscription ≠ none)
    (hopen : s'.done = false ∧ s'.dropped = false) :
    (c.control (.request 1)).1.GoesOn (awake ++ (c.control (.request 1)).2.2) running s' := by
  obtain ⟨hsound, hgrant, -⟩ := h.sound.control_request (.inl hspent)
  refine ⟨hsound, h.linked.request h.sound (.inl hspent), h.tended.control (.request 1), ?_,
    htaken, hopen⟩
  rw [hgrant, hspent]
  exact htuned

/-- Letting go of the stream cuts the chain, as long as the stream has not ended. -/
theorem GoesOn.drop (h : c.GoesOn awake running s) {st : Standing} (hst : c.standing = some st)
    (hfinish : st.finish = none) :
    s.drop.1.Gone ∧ (c.controls (s.drop.2.2.map Prod.snd)).1.Cut
      (awake ++ (c.controls (s.drop.2.2.map Prod.snd)).2.2) running := by
  obtain ⟨hgone, cs, hcontrols, hrelease⟩ := drop_of_taken h.taken h.opened.1
  have hgreeted : c.port ≠ .vacant := by
    refine Port.ne_vacant_of_emits ?_ (h.tuned.told h.opened.2)
    obtain ⟨handle, hsub⟩ := Option.ne_none_iff_exists'.mp h.taken
    simp [PullStream.seen, h.opened.1, hsub]
  obtain ⟨credit, hlive⟩ :=
    Port.live_of_unended hgreeted (h.sound.isEnded_of_unfinished hst hfinish)
  refine ⟨hgone, ?_⟩
  rw [hcontrols]
  exact h.sound.cut h.linked h.tended hst hlive hrelease

/-- What the turn of a hop comes to that is on its way out. -/
theorem Cut.hopTurn {before : Chain} {p : Pump} {r : Chain × Burst}
    (hleaves : p.Leaves awake (some (before.hops + 1)) (before.hops + 1))
    (h : before.GoesOn awake (some (before.hops + 1)) s) {st : Standing}
    (hst : before.standing = some st) (hfinish : st.finish = none) (hturn : HopTurns before s p r) :
    r.1.Cut (awake ++ r.2.wakes) (runningAfter (before.hops + 1) r.2) ∧
      ∀ e ∈ r.2.emissions, e = .hangUp := by
  have hunended := h.sound.isEnded_of_unfinished hst hfinish
  -- The pump goes on, and leaves its stream alone.
  have hstays : ∀ p' : Pump, p'.Leaves awake (some (before.hops + 1)) (before.hops + 1) →
      (hop before s p').Cut (awake ++ []) (some (before.hops + 1)) := by
    intro p' hleaves'
    rw [List.append_nil]
    exact .leaves before s p' hleaves' h
  have htaken : ∀ {s' : PullStream Unit} {notes : List Notice} {attention : Attention Unit},
      s.attend = (s', notes, attention) → s'.subscription ≠ none := by
    intro s' notes attention hattend
    have hafter := PullStream.attend_taken h.taken
    rwa [hattend] at hafter
  cases hturn with
  | greets hstage => exact absurd hstage hleaves.stage.1
  | starts hstage =>
      exact ⟨hstays _ (hleaves.goesOn rfl hleaves.sleepless (fun _ => id) (.inl rfl)),
        List.forall_mem_nil _⟩
  | cancels note hstage hcancelled =>
      exact ⟨hstays _ (hleaves.goesOn rfl hleaves.sleepless (fun _ => id) (.inr rfl)),
        List.forall_mem_nil _⟩
  | orphaned hstage hheld =>
      exact ⟨hstays _ (hleaves.goesOn rfl hleaves.sleepless (fun _ => id) (.inr rfl)),
        List.forall_mem_nil _⟩
  | takes n rest hstage hdemand hgrants =>
      refine ⟨hstays _ (hleaves.goesOn rfl hleaves.sleepless (fun m hm => ?_) (.inl hstage)),
        List.forall_mem_nil _⟩
      rw [hgrants]
      exact List.mem_cons_of_mem _ hm
  | refuses grants demand hstage hzero => exact absurd hzero hleaves.positive
  | waits hstage hdemand hgrants hheld huncancelled =>
      rw [hleaves.cancelled] at huncancelled
      cases huncancelled
  | folds demand hstage hfold =>
      exact ⟨hstays _ (hleaves.goesOn rfl hleaves.sleepless (List.forall_mem_nil _) (.inl rfl)),
        List.forall_mem_nil _⟩
  | asks s' p' notes hpolls hattend =>
      obtain ⟨rfl, hstage⟩ := hleaves.polls hpolls
      cases h.tuned.attends h.opened hattend with
      | asks hspent hcargo hopen' hempty htuned' =>
          refine ⟨.leaves _ s' p' ?_ (h.asks hspent htuned' (htaken hattend) hopen'),
            List.forall_mem_nil _⟩
          rw [control_hops]
          exact hleaves.mono fun j hj => List.mem_append_left _ hj
  | sleeps s' p' notes hpolls hattend =>
      obtain ⟨rfl, hstage⟩ := hleaves.polls hpolls
      cases h.tuned.attends h.opened hattend with
      | sleeps hcargo hopen' hinbox hconnected hparked hasked htuned' =>
          have hbefore : before.GoesOn awake none s' := by
            refine ⟨h.sound, h.linked, h.tended.of_running _ fun k hk => ?_, htuned',
              htaken hattend, hopen'⟩
            simp
            omega
          exact ⟨Cut.mono (.leaves before s' _ (hleaves.pending hstage) hbefore)
            fun j hj => List.mem_append_left _ hj, List.forall_mem_nil _⟩
  | yields s' p' notes answer r hpolls hattend hpulled =>
      obtain ⟨rfl, hstage⟩ := hleaves.polls hpolls
      have hreceive : p'.receive r = ({ p' with stage := .leaving, sleep := none }, [], none) := by
        simp [Pump.receive, hleaves.cancelled]
      cases h.tuned.attends h.opened hattend with
      | sleeps => cases hpulled
      | failed cause hcargo hdone hinbox hended =>
          rw [hunended] at hended
          cases hended
      | completed hcargo hdone hinbox hended =>
          rw [hunended] at hended
          cases hended
      | item chunk hcargo hopen' htuned' =>
          have hbefore : before.GoesOn awake (some (before.hops + 1)) s' :=
            ⟨h.sound, h.linked, h.tended, htuned', htaken hattend, hopen'⟩
          rw [hreceive]
          refine ⟨Cut.mono (.leaves before s' _ ?_ hbefore) fun j hj => List.mem_append_left _ hj,
            List.forall_mem_nil _⟩
          exact hleaves.goesOn rfl rfl (fun _ => id) (.inr rfl)
  | leaves hstage =>
      obtain ⟨hgone, hcut⟩ := h.drop hst hfinish
      refine ⟨.gone _ _ _ rfl hgone (hcut.of_running fun k hk => ?_),
        fun e hmem => List.mem_singleton.mp hmem⟩
      rw [controls_hops] at hk
      simp [runningAfter, dropStream]
      omega
  | rests hover => exact absurd hover hleaves.stage.2

/-- A turn leaves a chain cut, and nothing but a farewell leaves the chain. -/
theorem Cut.turn {k : Nat} (h : c.Cut awake (some k)) {st : Standing} (hst : c.standing = some st)
    (hfinish : st.finish = none) :
    (c.turn k).1.Cut (awake ++ (c.turn k).2.wakes) (runningAfter k (c.turn k).2) ∧
      ∀ e ∈ (c.turn k).2.emissions, e = .hangUp := by
  induction h with
  | writer o hcut => exact ⟨.writer o hcut, List.forall_mem_nil _⟩
  | gone before s p hover hgone hbefore ih =>
      by_cases hk : k = before.hops + 1
      · rw [hk, turn_last, hopTurn_of_over before s hover]
        refine ⟨.gone before s p hover hgone ?_, List.forall_mem_nil _⟩
        refine (hbefore.mono fun j hj => List.mem_append_left _ hj).of_running fun j hj => ?_
        simp [runningAfter]
        omega
      · obtain ⟨hcut, hfarewell⟩ := ih hst
        obtain ⟨s', hhear, hgone'⟩ := hear_gone (Chain.turn k before).1 p hgone hfarewell
        rw [turn_before hk, absorb_of_hear hhear]
        exact ⟨.gone _ s' p hover hgone' hcut, List.forall_mem_nil _⟩
  | leaves before s p hleaves hbefore =>
      by_cases hk : k = before.hops + 1
      · subst hk
        rw [turn_last]
        exact Cut.hopTurn hleaves hbefore hst hfinish (hopTurns_hopTurn before s p)
      · have hmoves := hbefore.sound.turn k
        obtain ⟨s', hhear, hbefore'⟩ := hbefore.hears hleaves.sleepless hmoves
          (hbefore.linked.turn hbefore.sound k) (hbefore.tended.turn hbefore.sound)
        rw [turn_before hk, absorb_of_hear hhear]
        refine ⟨.leaves _ s' p ?_ hbefore', List.forall_mem_nil _⟩
        rw [turn_hops]
        refine (hleaves.mono fun j hj => List.mem_append_left _ hj).of_running ?_
        unfold runningAfter
        split
        · exact Iff.rfl
        · simp [hk]

/-! ## The writer -/

/-- The writer of a chain that is cut has been told, or it serves its consumer. -/
theorem Cut.writer_cases (h : c.Cut awake running) {o : Outlet} (hwriter : c.writer? = some o) :
    o.Cut ∨ o.Serving := by
  induction h with
  | writer o' hcut =>
      cases hwriter
      exact .inl hcut
  | gone before s p hover hgone hbefore ih => exact ih hwriter
  | leaves before s p hleaves hbefore => exact .inr (hbefore.sound.serving hwriter)

/-- The writer of a sound chain is what an operation has made of it. -/
theorem Sound.atWriter_writer? (h : c.Sound) {o : Outlet} (hwriter : c.writer? = some o)
    {f : Outlet → Outlet × List Notice × List Emission} (hserving : (f o).1.Serving)
    (hemits : o.port.emits (f o).2.2 = some (f o).1.port) :
    (c.atWriter f).1.writer? = some (f o).1 := by
  induction c with
  | writer o' =>
      cases hwriter
      rfl
  | source s p => cases hwriter
  | player p => exact h.elim
  | hop before s p ih =>
      obtain ⟨s', p', wakes, hhear, -⟩ :=
        hear_tuned h.2.1 h.2.2 (h.1.atWriter hwriter hserving hemits).emits
      rw [Chain.atWriter, Chain.absorb, hhear]
      exact ih h.1 hwriter

/-- What a writer signals that has not been told does not come out of the chain. -/
theorem Cut.atWriter (h : c.Cut awake running) {o : Outlet} (hwriter : c.writer? = some o)
    (huncut : ¬o.Cut) {f : Outlet → Outlet × List Notice × List Emission}
    (hserving : (f o).1.Serving) (hemits : o.port.emits (f o).2.2 = some (f o).1.port) :
    (c.atWriter f).1.Cut (awake ++ (c.atWriter f).2.wakes) running ∧
      (c.atWriter f).1.writer? = some (f o).1 ∧ (c.atWriter f).2.emissions = [] := by
  induction h with
  | writer o' hcut =>
      cases hwriter
      exact absurd hcut huncut
  | gone before s p hover hgone hbefore ih =>
      obtain ⟨hcut, hwriter', hnothing⟩ := ih hwriter
      have hhear : hear (before.atWriter f).2.emissions (hop (before.atWriter f).1 s p) =
          (hop (before.atWriter f).1 s p, {}) := by
        rw [hnothing]
        rfl
      rw [Chain.atWriter, absorb_of_hear hhear]
      exact ⟨.gone _ s p hover hgone hcut, hwriter', rfl⟩
  | leaves before s p hleaves hbefore =>
      have hmoves := hbefore.sound.atWriter hwriter hserving hemits
      obtain ⟨s', hhear, hbefore'⟩ := hbefore.hears hleaves.sleepless hmoves
        (hbefore.linked.atWriter hbefore.sound hwriter hserving hemits)
        (hbefore.tended.atWriter hbefore.sound hwriter hserving hemits)
      rw [Chain.atWriter, absorb_of_hear hhear]
      refine ⟨.leaves _ s' p ?_ hbefore',
        hbefore.sound.atWriter_writer? hwriter hserving hemits, rfl⟩
      rw [atWriter_hops]
      exact hleaves.mono fun j hj => List.mem_append_left _ hj

/-! ## Severed chains -/

/-- Nothing moves in a severed chain. -/
theorem Severed.turn (h : c.Severed) (k : Nat) : c.turn k = (c, {}) := by
  induction c with
  | writer o => rfl
  | source s p => exact h.elim
  | player p => exact h.elim
  | hop before s p ih =>
      by_cases hk : k = before.hops + 1
      · rw [hk, turn_last]
        exact hopTurn_of_over before s h.1
      · rw [turn_before hk, ih h.2.2, Chain.absorb]
        rfl

/-- The writer of a severed chain has been told. -/
theorem Severed.writer (h : c.Severed) : ∃ o, c.writer? = some o ∧ o.Cut := by
  induction c with
  | writer o => exact ⟨o, rfl, h⟩
  | source s p => exact h.elim
  | player p => exact h.elim
  | hop before s p ih => exact ih h.2.2

/-- A chain stays severed whatever its writer does, as long as it says nothing but farewell. -/
theorem Severed.atWriter (h : c.Severed) {o : Outlet} (hwriter : c.writer? = some o)
    {f : Outlet → Outlet × List Notice × List Emission} (hcut : (f o).1.Cut)
    (hfarewell : ∀ e ∈ (f o).2.2, e = .hangUp) :
    (c.atWriter f).1.Severed ∧ ∀ e ∈ (c.atWriter f).2.emissions, e = .hangUp := by
  induction c with
  | writer o' =>
      cases hwriter
      exact ⟨hcut, hfarewell⟩
  | source s p => exact h.elim
  | player p => exact h.elim
  | hop before s p ih =>
      obtain ⟨hsevered, hfarewell'⟩ := ih h.2.2 hwriter
      obtain ⟨s', hhear, hgone⟩ := hear_gone (before.atWriter f).1 p h.2.1 hfarewell'
      rw [Chain.atWriter, absorb_of_hear hhear]
      exact ⟨⟨h.1, hgone, hsevered⟩, nofun⟩

end Chain
end CreditFlow
