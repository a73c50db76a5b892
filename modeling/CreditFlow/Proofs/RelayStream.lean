import CreditFlow.Proofs.Relay

/-!
# What a relayed stream yields

A stream at the end of a relay yields what the script of the source has in store, all of it,
once, and in order.  A line *hands over* signals when they are what waits in its stream,
followed by what the stream is still to hear, followed by what is on its way through the chain;
a move of the tasks, or a wakeup of the source, leaves them what they are, and a poll takes the
first of them.

A poll of an idle line that is pending has asked for an item, or has done so before.  If the
line comes to be idle again and the next poll is still pending, the source has not been woken.
Since the source falls asleep at a pause of its script or at its open end, and uses the pause
up, waking it before each poll brings everything that it has in store.

Main results:

- {lit}`Line.Hands.tick`, {lit}`Line.Hands.wakes`: nothing is lost.
- {lit}`Line.Hands.poll`, {lit}`Line.Hands.settlePoll`: what a poll comes to.
- {lit}`Relay.Tells.step`, {lit}`Relay.Tells.pull`: what was answered comes first in the store.
- {lit}`Relay.Tells.pulls`: how long it takes until all of it has been answered.
-/

namespace CreditFlow

namespace Line

/-- A line that ends in a stream hands signals over.  The stream is still to hear `es`, and the
tasks in `woken` are still to be woken; `asked` says whether the stream has asked for an item,
and `done` whether it has yielded its end. -/
structure Hands (left : List (Signal Unit)) (asked done : Bool) (es : List Emission)
    (woken : List Nat) (s : PullStream Unit) (l : Line) : Prop where
  sink : l.sink = .stream s
  sound : l.chain.Sound
  tended : l.chain.Tended (l.ready ++ woken) l.running
  kept : s.dropped = false
  asked_eq : s.requested = asked
  done_eq : s.done = done
  tuned : ∃ q, s.Tuned q ∧ q.emits es = some l.chain.port
  store : s.cargo ++ (Emission.cargo es ++ l.chain.backlog) = left

variable {left : List (Signal Unit)} {asked done : Bool} {es : List Emission} {woken : List Nat}
  {s : PullStream Unit} {l : Line}

/-! ## Moves -/

/-- The stream hears what its port allows, and keeps it. -/
theorem Hands.hear {e : Emission} (h : l.Hands left asked done (e :: es) woken s) :
    ∃ s', (l.hear e).Hands left asked done es woken s' := by
  rcases h.tuned with ⟨q, htuned, hemits⟩
  rw [Port.emits_cons] at hemits
  rcases Option.bind_eq_some_iff.mp hemits with ⟨q', hemit, hrest⟩
  have hcargo : Emission.cargo (e :: es) = Emission.cargo [e] ++ Emission.cargo es :=
    Emission.cargo_append [e] es
  have hstore := h.store
  rw [hcargo, List.append_assoc, ← List.append_assoc] at hstore
  cases e with
  | signal sig =>
      rcases htuned.hear hemit with ⟨hhear, -, -, htuned'⟩
      refine ⟨{ s with inbox := s.inbox ++ [sig], parked := false }, ?_⟩
      simp only [Line.hear, Sink.hear, h.sink, hhear, List.map_nil]
      refine ⟨rfl, h.sound, h.tended, h.kept, h.asked_eq, h.done_eq, ⟨q', htuned', hrest⟩, ?_⟩
      have hheard : PullStream.cargo { s with inbox := s.inbox ++ [sig], parked := false } =
          s.cargo ++ Emission.cargo [.signal sig] := by
        simp [PullStream.cargo]
      rw [hheard]
      exact hstore
  | hangUp =>
      have hparts : s.hangUp.1.dropped = s.dropped ∧ s.hangUp.1.requested = s.requested ∧
          s.hangUp.1.done = s.done ∧ s.hangUp.1.inbox = s.inbox := by
        unfold PullStream.hangUp
        split <;> exact ⟨rfl, rfl, rfl, rfl⟩
      refine ⟨s.hangUp.1, ?_⟩
      simp only [Line.hear, Sink.hear, h.sink]
      refine ⟨rfl, h.sound, h.tended, hparts.1.trans h.kept, hparts.2.1.trans h.asked_eq,
        hparts.2.2.1.trans h.done_eq, ⟨q', htuned.hangUp hemit, hrest⟩, ?_⟩
      have hheard : s.hangUp.1.cargo = s.cargo ++ Emission.cargo [.hangUp] := by
        simp [PullStream.cargo, hparts.2.2.2, Emission.cargo, Emission.cargo?]
      rw [hheard]
      exact hstore

/-- What the stream is still to hear it has in its inbox when it has heard of it. -/
theorem Hands.hears (h : l.Hands left asked done es woken s) :
    ∃ s', (es.foldl Line.hear l).Hands left asked done [] woken s' := by
  induction es generalizing l s with
  | nil => exact ⟨s, h⟩
  | cons e es ih =>
      rcases h.hear with ⟨s', hfirst⟩
      exact ih hfirst

/-- A move of the chain loses nothing. -/
theorem Hands.absorb (h : l.Hands left asked done [] [] s) {r : Chain × Burst}
    (hmoves : Chain.Moves [] l.chain r) {running : Option Nat}
    (htended : r.1.Tended (l.ready ++ r.2.wakes) running) :
    ∃ s', ({ l with running := running }.absorb r).Hands left asked done [] [] s' := by
  rcases h.tuned with ⟨q, htuned, hemits⟩
  have hq : q = l.chain.port := Option.some.inj hemits
  have hplaced : ({ l with running := running, chain := r.1 }.note r.2.notes).Hands left asked done
      r.2.emissions r.2.wakes s := by
    refine ⟨h.sink, hmoves.sound, htended, h.kept, h.asked_eq, h.done_eq, ⟨q, htuned, ?_⟩, ?_⟩
    · rw [hq]
      exact hmoves.emits
    · change s.cargo ++ (Emission.cargo r.2.emissions ++ r.1.backlog) = left
      rw [hmoves.kept, List.append_nil]
      exact h.store
  rcases hplaced.hears with ⟨s', htold⟩
  have hending : (r.2.emissions.foldl Line.hear
      ({ l with running := running, chain := r.1 }.note r.2.notes)).sink.ending? =
        some .stream := by
    rw [htold.sink]
    rfl
  refine ⟨s', ?_⟩
  simp only [Line.absorb, performs_of_ending r.2.acts hending]
  refine ⟨htold.sink, htold.sound, ?_, htold.kept, htold.asked_eq, htold.done_eq, htold.tuned,
    htold.store⟩
  refine htold.tended.mono fun k hk => ?_
  rw [List.append_nil, mem_wake]
  exact List.mem_append.mp hk

/-- A move of the tasks loses nothing. -/
theorem Hands.tick (h : l.Hands left asked done [] [] s) {l' : Line} (htick : l.tick = some l') :
    ∃ s', l'.Hands left asked done [] [] s' := by
  have htended := h.tended
  rw [List.append_nil] at htended
  unfold Line.tick at htick
  cases hrunning : l.running with
  | some k =>
      rw [hrunning] at htick htended
      cases htick
      exact h.absorb (h.sound.turn k) (htended.turn h.sound)
  | none =>
      rw [hrunning] at htick htended
      cases hready : l.ready with
      | nil =>
          rw [hready] at htick
          cases htick
      | cons k rest =>
          rw [hready] at htick htended
          cases htick
          refine ⟨s, h.sink, h.sound, ?_, h.kept, h.asked_eq, h.done_eq, h.tuned, h.store⟩
          rw [List.append_nil]
          exact htended.starts

/-- Letting the tasks run loses nothing that a line hands over. -/
theorem Hands.settle (h : l.Hands left asked done [] [] s) :
    ∃ s', l.settle.Hands left asked done [] [] s' := by
  have hmove : ∀ {l moved : Line}, (∃ s, l.Hands left asked done [] [] s) →
      l.tick = some moved → ∃ s, moved.Hands left asked done [] [] s := by
    rintro l moved ⟨s, hbefore⟩ htick
    exact hbefore.tick htick
  exact settle_keeps hmove ⟨s, h⟩

/-- Which task comes first does not matter. -/
theorem Hands.prefer (h : l.Hands left asked done [] [] s) (task : Nat) :
    (l.prefer task).Hands left asked done [] [] s := by
  obtain ⟨ready, hprefer, hready⟩ := l.prefer_eq task
  rw [hprefer]
  refine ⟨h.sink, h.sound, h.tended.mono fun k hk => ?_, h.kept, h.asked_eq, h.done_eq, h.tuned,
    h.store⟩
  rw [List.append_nil] at hk ⊢
  exact hready k hk

/-- Waking the source brings nothing by itself. -/
theorem Hands.wakes (h : l.Hands left asked done [] [] s) :
    (l.atSource id true).Hands left asked done [] [] s := by
  rcases h.sound.wakes with ⟨hsound, hport, hbacklog⟩
  have htended := h.tended
  rw [List.append_nil] at htended
  refine ⟨h.sink, hsound, ?_, h.kept, h.asked_eq, h.done_eq, ?_, ?_⟩
  · rw [List.append_nil]
    exact atSource_tended htended id fun _ => rfl
  · change ∃ q, s.Tuned q ∧ q.emits [] = some (l.chain.atSource id true).1.port
    rw [hport]
    exact h.tuned
  · change s.cargo ++ (Emission.cargo [] ++ (l.chain.atSource id true).1.backlog) = left
    rw [hbacklog]
    exact h.store

/-! ## Polls -/

/-- All that a poll of a stream can come to that has not yielded its end. -/
inductive Polls (left : List (Signal Unit)) (asked : Bool) (l : Line) : Pull × Line → Prop
  /-- In an idle line the stream has asked for an item by now; and if it had asked before, all
  that is left is on its way to it. -/
  | waits (l' : Line) (s' : PullStream Unit) (asked' : Bool)
      (hands : l'.Hands left asked' false [] [] s') (hasked : l.isIdle = true → asked' = true)
      (hdry : l.isIdle = true → asked = true →
        l.chain.port = .live 1 ∧ left = l.chain.backlog ∧ l'.chain = l.chain) :
      Polls left asked l (.pending, l')
  /-- The first signal that is left is taken. -/
  | answers (sig : Signal Unit) (rest : List (Signal Unit)) (l' : Line) (s' : PullStream Unit)
      (asked' : Bool) (hleft : left = sig :: rest) (hcarried : sig.pull ≠ .pending)
      (hlast : sig.isTerminal = true → rest = [])
      (hands : l'.Hands rest asked' sig.isTerminal [] [] s') : Polls left asked l (sig.pull, l')

/-- A stream that has nothing and sleeps has asked for an item, if it was greeted. -/
theorem requested_of_sleeping {q : Port} (htuned : s.Tuned q) (hkept : s.dropped = false)
    (hopen : s.done = false) (hinbox : s.inbox = []) (hconnected : s.connected = true)
    (hasked : s.requested = true ∨ s.subscription = none) (hgreeted : q ≠ .vacant) :
    s.requested = true ∧ q = .live 1 := by
  have hseen : s.seen = q := by
    have htold := htuned.told hkept
    rw [PullStream.arrived, hinbox, hconnected] at htold
    exact Option.some.inj htold
  rw [PullStream.seen, hopen] at hseen
  cases hsub : s.subscription with
  | none =>
      rw [hsub] at hseen
      exact absurd hseen.symm hgreeted
  | some handle =>
      have hrequested : s.requested = true := hasked.resolve_right (by simp [hsub])
      rw [hsub, hrequested] at hseen
      exact ⟨hrequested, hseen.symm⟩

/-- A stream that has yielded its end yields it again. -/
theorem Hands.poll_of_done (h : l.Hands left asked true [] [] s) :
    l.poll.1 = .ended ∧ l.poll.2.Hands left asked true [] [] s := by
  have hpoll : l.poll = (.ended, { l.unwoken with sink := .stream s }.note []) := by
    simp only [Line.poll, h.sink, PullStream.attend_of_done h.done_eq]
  rw [hpoll]
  exact ⟨rfl, rfl, h.sound, h.tended, h.kept, h.asked_eq, h.done_eq, h.tuned, h.store⟩

/-- A stream that was asked for an item by a poll has nothing yet, and waits for it. -/
theorem Hands.asks (h : l.Hands left asked false [] [] s) {s₁ : PullStream Unit}
    {notes : List Notice} (hattend : s.attend = (s₁, notes, .asks ()))
    (hspent : l.chain.port = .live 0) (hcargo : s.cargo = [])
    (hopen : s₁.done = false ∧ s₁.dropped = false) (hempty : s₁.cargo = [])
    (htuned : s₁.Tuned (.live 1)) : Polls left asked l l.poll := by
  have hlook : s.attendTo s.inbox = (s₁, notes, .asks ()) := by
    rw [← hattend, PullStream.attend, h.done_eq]
    rfl
  have hstore := h.store
  rw [hcargo, Emission.cargo_nil, List.nil_append, List.nil_append] at hstore
  rcases h.sound.control_request (.inl hspent) with ⟨hsound, hport, hbacklog⟩
  let noted := { l.unwoken with sink := .stream s₁ }.note notes
  let told := noted.react (.control () (.request 1))
  have htended : told.chain.Tended (told.ready ++ []) told.running := by
    have hbefore : noted.chain.Tended (noted.ready ++ []) noted.running := h.tended
    exact reactAll_tended hbefore [.control () (.request 1)]
  have hlive : told.chain.port = .live 1 := by
    change (l.chain.control (.request 1)).1.port = .live 1
    rw [hport, hspent]
    rfl
  obtain ⟨s₂, more, attention, hagain⟩ : ∃ s₂ more attention,
      s₁.attend = (s₂, more, attention) := ⟨_, _, _, rfl⟩
  have hsecond := htuned.attends hopen hagain
  rw [hempty] at hsecond
  cases hsecond with
  | asks hspent' => cases hspent'
  | item chunk hcargo' => cases hcargo'
  | failed cause hcargo' => cases hcargo'
  | completed hcargo' => cases hcargo'
  | sleeps hcargo' hopen₂ hinbox hconnected hparked hasked htuned₂ =>
      have hpoll : l.poll = (.pending, { told with sink := .stream s₂ }.note more) := by
        simp only [Line.poll, h.sink, hattend, told, noted, react, wake, note, hagain]
      have hstill := requested_of_sleeping htuned₂ hopen₂.2 hopen₂.1 hinbox hconnected hasked
        (by simp)
      have hnone : s₂.cargo = [] := by
        rw [PullStream.cargo, hinbox]
        rfl
      rw [hpoll]
      refine .waits _ s₂ true ⟨rfl, hsound, htended, hopen₂.2, hstill.1, hopen₂.1,
        ⟨.live 1, htuned₂, congrArg some hlive.symm⟩, ?_⟩ (fun _ => rfl) fun _ hbefore => ?_
      · change s₂.cargo ++ ([] ++ (l.chain.control (.request 1)).1.backlog) = left
        rw [hnone, hbacklog, ← hstore]
        rfl
      · -- A stream that has asked does not ask again.
        have hmarked := PullStream.attendTo_of_requested (h.asked_eq.trans hbefore) s.inbox ()
        rw [hlook] at hmarked
        exact absurd rfl hmarked

/-- What a poll comes to. -/
theorem Hands.poll (h : l.Hands left asked false [] [] s) : Polls left asked l l.poll := by
  rcases h.tuned with ⟨q, htuned, hemits⟩
  have hq : l.chain.port = q := (Option.some.inj hemits).symm
  have hstore := h.store
  rw [Emission.cargo_nil, List.nil_append] at hstore
  obtain ⟨s₁, notes, attention, hattend⟩ : ∃ s₁ notes attention,
      s.attend = (s₁, notes, attention) := ⟨_, _, _, rfl⟩
  have hanswer : ∀ p, attention = .answer p →
      l.poll = (p, { l.unwoken with sink := .stream s₁ }.note notes) := by
    rintro p rfl
    simp only [Line.poll, h.sink, hattend]
  -- What a poll leaves behind that has asked for nothing.
  have hafter : ∀ {rest : List (Signal Unit)} {done : Bool}, s₁.Tuned q → s₁.dropped = false →
      s₁.done = done → s₁.cargo ++ l.chain.backlog = rest →
        ({ l.unwoken with sink := .stream s₁ }.note notes).Hands rest s₁.requested done [] [] s₁ :=
    fun htuned₁ hkept hdone hrest =>
      ⟨rfl, h.sound, h.tended, hkept, rfl, hdone, ⟨q, htuned₁, congrArg some hq.symm⟩, hrest⟩
  have hended : q.isEnded = true → l.chain.backlog = [] := fun hend =>
    Chain.backlog_of_ended (hq ▸ hend)
  cases htuned.attends ⟨h.done_eq, h.kept⟩ hattend with
  | asks hspent hcargo hopen hempty htuned₁ =>
      exact h.asks hattend (hq.trans hspent) hcargo hopen hempty htuned₁
  | sleeps hcargo hopen hinbox hconnected hparked hasked htuned₁ =>
      have hnone : s₁.cargo = [] := by
        rw [PullStream.cargo, hinbox]
        rfl
      have hidle : l.isIdle = true → s₁.requested = true ∧ q = .live 1 := by
        intro hidle
        exact requested_of_sleeping htuned₁ hopen.2 hopen.1 hinbox hconnected hasked
          (hq ▸ Chain.idle_greeted h.sound (Line.tended_of_idle h.tended hidle))
      rw [hanswer _ rfl]
      refine .waits _ s₁ s₁.requested (hafter htuned₁ hopen.2 hopen.1 ?_) (fun hi => (hidle hi).1)
        fun hi _ => ⟨hq.trans (hidle hi).2, ?_, rfl⟩
      · rw [hnone, ← hstore, hcargo]
      · rw [← hstore, hcargo]
        rfl
  | item chunk hcargo hopen htuned₁ =>
      rw [hanswer _ rfl]
      refine .answers (.next chunk) (s₁.cargo ++ l.chain.backlog) _ s₁ s₁.requested ?_
        (by simp [Signal.pull]) (by simp [Signal.isTerminal])
        (hafter htuned₁ hopen.2 hopen.1 rfl)
      rw [← hstore, hcargo]
      rfl
  | failed cause hcargo hdone hinbox hend htuned₁ =>
      have hnone : s₁.cargo = [] := by
        rw [PullStream.cargo, hinbox]
        rfl
      rw [hanswer _ rfl]
      refine .answers (.error cause) [] _ s₁ s₁.requested ?_ (by simp [Signal.pull]) (fun _ => rfl)
        (hafter htuned₁ hdone.2 hdone.1 ?_)
      · rw [← hstore, hcargo, hended hend]
        rfl
      · rw [hnone, hended hend]
        rfl
  | completed hcargo hdone hinbox hend htuned₁ =>
      have hnone : s₁.cargo = [] := by
        rw [PullStream.cargo, hinbox]
        rfl
      rw [hanswer _ rfl]
      refine .answers .complete [] _ s₁ s₁.requested ?_ (by simp [Signal.pull]) (fun _ => rfl)
        (hafter htuned₁ hdone.2 hdone.1 ?_)
      · rw [← hstore, hcargo, hended hend]
        rfl
      · rw [hnone, hended hend]
        rfl

/-- All that letting the tasks run and polling can come to, for a stream that has not yielded
its end.  `src` is the source before. -/
inductive Settles (left : List (Signal Unit)) (src : Source) : Pull × Line → Prop
  /-- The source was not woken, and has all that is left. -/
  | waits (l' : Line) (s' : PullStream Unit) (asked' : Bool) (src' : Source)
      (hands : l'.Hands left asked' false [] [] s') (hsource : l'.chain.source? = some src')
      (hgoes : src.Goes src') (hparked : src'.parked = true)
      (hleft : left = src'.cargo.map (Signal.relayed^[l'.chain.hops])) :
      Settles left src (.pending, l')
  | answers (sig : Signal Unit) (rest : List (Signal Unit)) (l' : Line) (s' : PullStream Unit)
      (asked' : Bool) (src' : Source) (hleft : left = sig :: rest)
      (hcarried : sig.pull ≠ .pending) (hlast : sig.isTerminal = true → rest = [])
      (hands : l'.Hands rest asked' sig.isTerminal [] [] s')
      (hsource : l'.chain.source? = some src') (hgoes : src.Goes src') :
      Settles left src (sig.pull, l')

/-- If a poll is pending, and so is the next one after the tasks have run, the source has not
been woken. -/
theorem Hands.settlePoll (h : l.Hands left asked false [] [] s) {src : Source}
    (hsource : l.chain.source? = some src) : Settles left src (Puller.settlePoll l) := by
  rcases h.settle with ⟨s₁, h₁⟩
  rcases settle_goes hsource with ⟨src₁, hsource₁, hgoes₁⟩
  have hpolled₁ := l.settle.poll_source.trans hsource₁
  have hfirst := h₁.poll
  unfold Puller.settlePoll
  dsimp only
  generalize l.settle.poll = polled at hfirst hpolled₁ ⊢
  cases hfirst with
  | answers sig rest l₂ s₂ asked₂ hleft hcarried hlast h₂ =>
      rw [if_neg hcarried]
      exact .answers sig rest l₂ s₂ asked₂ src₁ hleft hcarried hlast h₂ hpolled₁ hgoes₁
  | waits l₂ s₂ asked₂ h₂ hasked hdry =>
      rw [if_pos rfl]
      have hrequested : asked₂ = true := hasked l.settle_isIdle
      subst hrequested
      rcases h₂.settle with ⟨s₃, h₃⟩
      rcases settle_goes hpolled₁ with ⟨src₃, hsource₃, hgoes₃⟩
      have hpolled₃ := l₂.settle.poll_source.trans hsource₃
      have hgoes := hgoes₁.trans hgoes₃
      have hsecond := h₃.poll
      generalize l₂.settle.poll = again at hsecond hpolled₃ ⊢
      cases hsecond with
      | answers sig rest l₄ s₄ asked₄ hleft hcarried hlast h₄ =>
          exact .answers sig rest l₄ s₄ asked₄ src₃ hleft hcarried hlast h₄ hpolled₃ hgoes
      | waits l₄ s₄ asked₄ h₄ hasked₄ hdry₄ =>
          rcases hdry₄ l₂.settle_isIdle rfl with ⟨hlive, hleft, hsame⟩
          have htended := Line.tended_of_idle h₃.tended l₂.settle_isIdle
          rcases Chain.idle_source h₃.sound htended hlive hsource₃ with ⟨hparked, hbacklog⟩
          refine .waits l₄ s₄ asked₄ src₃ h₄ hpolled₃ hgoes hparked ?_
          rw [hsame, hleft]
          exact hbacklog

/-- A stream that has yielded its end does not wait. -/
theorem Hands.settlePoll_of_done (h : l.Hands left asked true [] [] s) :
    (Puller.settlePoll l).1 = .ended ∧
      ∃ s', (Puller.settlePoll l).2.Hands left asked true [] [] s' := by
  rcases h.settle with ⟨s', hsettled⟩
  rcases hsettled.poll_of_done with ⟨hended, hafter⟩
  have hfirst : Puller.settlePoll l = l.settle.poll := by
    unfold Puller.settlePoll
    rw [if_neg (by simp [hended])]
  rw [hfirst]
  exact ⟨hended, s', hafter⟩

end Line

/-! ## What was answered -/

/-- Several answers tell of what comes first in a store: signal by signal as long as none of
them is an end, and after an end the same again and again. -/
structure Signal.Said (store left : List (Signal Unit)) (done : Bool) (answers : List Pull) :
    Prop where
  parts : ∃ front extra, store = front ++ left ∧
    answers = front.map pull ++ List.replicate extra .ended ∧
      (done = false → extra = 0 ∧ ∀ sig ∈ front, sig.isTerminal = false) ∧
        (done = true → left = [] ∧ ∃ sig ∈ front, sig.isTerminal = true)
  carried : .pending ∉ answers

namespace Signal

variable {store left rest : List (Signal Unit)} {sig : Signal Unit} {done : Bool}
  {answers : List Pull}

/-- Nothing was answered yet. -/
theorem said_nil (store : List (Signal Unit)) : Said store store false [] :=
  ⟨⟨[], 0, rfl, rfl, fun _ => ⟨rfl, by simp⟩, nofun⟩, by simp⟩

/-- The next answer tells of the next signal. -/
theorem Said.next (h : Said store (sig :: rest) false answers) (hcarried : sig.pull ≠ .pending)
    (hlast : sig.isTerminal = true → rest = []) :
    Said store rest sig.isTerminal (answers ++ [sig.pull]) := by
  obtain ⟨front, extra, hstore, hanswers, hopen, -⟩ := h.parts
  obtain ⟨rfl, hfront⟩ := hopen rfl
  refine ⟨⟨front ++ [sig], 0, ?_, ?_, fun hgoes => ⟨rfl, ?_⟩,
    fun hend => ⟨hlast hend, sig, ?_⟩⟩, ?_⟩
  · rw [hstore, List.append_assoc]
    rfl
  · rw [hanswers, List.map_append]
    simp
  · intro other hmem
    rcases List.mem_append.mp hmem with hmem | hmem
    · exact hfront other hmem
    · rw [List.mem_singleton.mp hmem]
      exact hgoes
  · exact ⟨List.mem_append_right _ List.mem_cons_self, hend⟩
  · rw [List.mem_append, List.mem_singleton, not_or]
    exact ⟨h.carried, fun hsame => hcarried hsame.symm⟩

/-- After the end the answers go on to say so. -/
theorem Said.again (h : Said store left true answers) :
    Said store left true (answers ++ [.ended]) := by
  obtain ⟨front, extra, hstore, hanswers, -, hended⟩ := h.parts
  refine ⟨⟨front, extra + 1, hstore, ?_, nofun, hended⟩, ?_⟩
  · rw [hanswers, List.append_assoc, List.replicate_succ']
  · rw [List.mem_append, List.mem_singleton, not_or]
    exact ⟨h.carried, nofun⟩

/-- Answer by answer they are what the store says. -/
theorem Said.eq (h : Said store left done answers) :
    answers = (List.range answers.length).map (answer store) := by
  obtain ⟨front, extra, hstore, hanswers, hopen, hended⟩ := h.parts
  refine List.ext_getElem (by simp) fun k hk _ => ?_
  rw [List.getElem_map, List.getElem_range, answer]
  by_cases hfront : k < front.length
  · have hstored : store[k]? = some front[k] := by
      rw [hstore, List.getElem?_append_left hfront, List.getElem?_eq_getElem hfront]
    have hanswer : answers[k] = front[k].pull := by
      simp only [hanswers]
      rw [List.getElem_append_left (by simpa using hfront), List.getElem_map]
    rw [hstored, hanswer]
  · -- Only after an end there are answers beyond the store.
    have hdone : done = true := by
      by_contra hgoes
      obtain ⟨rfl, -⟩ := hopen (by simpa using hgoes)
      simp only [hanswers, List.length_append, List.length_map, List.length_replicate] at hk
      omega
    obtain ⟨rfl, sig, hmem, hend⟩ := hended hdone
    rw [List.append_nil] at hstore
    have hnone : store[k]? = none := by
      rw [hstore]
      exact List.getElem?_eq_none (Nat.le_of_not_lt hfront)
    have hany : store.any isTerminal = true := by
      rw [hstore, List.any_eq_true]
      exact ⟨sig, hmem, hend⟩
    have hanswer : answers[k] = .ended := by
      simp only [hanswers]
      rw [List.getElem_append_right (by simpa using hfront), List.getElem_replicate]
    rw [hnone, hanswer]
    simp [hany]

/-- When nothing is left and there was no end, nothing will be answered. -/
theorem Said.dry (h : Said store [] false answers) : answer store answers.length = .pending := by
  obtain ⟨front, extra, hstore, hanswers, hopen, -⟩ := h.parts
  obtain ⟨rfl, hfront⟩ := hopen rfl
  rw [List.append_nil] at hstore
  subst hstore
  have hlength : answers.length = store.length := by simp [hanswers]
  have hany : store.any isTerminal = false := by simpa [List.any_eq_false] using hfront
  simp [answer, hlength, hany]

end Signal
/-! ## Runs -/

namespace Relay

/-- A relay that ends in a stream: what was answered comes first in the store, and what is left
is handed over. -/
structure Tells (store left : List (Signal Unit)) (done : Bool) (src : Source) (t : Relay) :
    Prop where
  hands : ∃ asked s, t.line.Hands left asked done [] [] s
  source : t.line.chain.source? = some src
  said : Signal.Said store left done t.answers

variable {store left : List (Signal Unit)} {done : Bool} {src : Source} {t : Relay}

/-- What a poll answers comes next in the store. -/
theorem Tells.poll (h : t.Tells store left done src) :
    ∃ left' done', t.poll.Tells store left' done' src := by
  obtain ⟨asked, s, hhands⟩ := h.hands
  have hsource := t.line.poll_source.trans h.source
  unfold Relay.poll
  cases done with
  | true =>
      rcases hhands.poll_of_done with ⟨hended, hafter⟩
      rw [hended]
      exact ⟨left, true, ⟨asked, s, hafter⟩, hsource, h.said.again⟩
  | false =>
      have hpolls := hhands.poll
      generalize t.line.poll = polled at hpolls hsource ⊢
      cases hpolls with
      | waits l' s' asked' hands hasked hdry =>
          refine ⟨left, false, ⟨asked', s', hands⟩, hsource, ?_⟩
          simpa [Pull.answered] using h.said
      | answers sig rest l' s' asked' hleft hcarried hlast hands =>
          have hsaid := h.said
          rw [hleft] at hsaid
          refine ⟨rest, sig.isTerminal, ⟨asked', s', hands⟩, hsource, ?_⟩
          simpa [Pull.answered, hcarried] using hsaid.next hcarried hlast

theorem Tells.wake (h : t.Tells store left done src) : t.wake.Tells store left done src.unpark := by
  obtain ⟨asked, s, hhands⟩ := h.hands
  exact ⟨⟨asked, s, hhands.wakes⟩, Chain.wakes_source h.source, h.said⟩

/-- Whatever happens along a relay that ends in a stream, what was answered comes first in the
store. -/
theorem Tells.step (h : t.Tells store left done src) (e : RelayEvent) :
    ∃ left' done' src', (t.step e).Tells store left' done' src' ∧
      src'.items.length ≤ src.items.length := by
  obtain ⟨asked, s, hhands⟩ := h.hands
  cases e with
  | ticks =>
      simp only [Relay.step]
      cases htick : t.line.tick with
      | none => exact ⟨left, done, src, h, Nat.le_refl _⟩
      | some l' =>
          obtain ⟨s', hafter⟩ := hhands.tick htick
          obtain ⟨src', hsource, hgoes⟩ := Line.tick_goes h.source htick
          exact ⟨left, done, src', ⟨⟨asked, s', hafter⟩, hsource, h.said⟩, hgoes.used⟩
  | prefers task =>
      obtain ⟨ready, hprefer, -⟩ := t.line.prefer_eq task
      refine ⟨left, done, src, ⟨⟨asked, s, hhands.prefer task⟩, ?_, h.said⟩, Nat.le_refl _⟩
      simp only [Relay.step, hprefer]
      exact h.source
  | wakes => exact ⟨left, done, src.unpark, h.wake, Nat.le_refl _⟩
  | polls =>
      obtain ⟨left', done', hafter⟩ := h.poll
      exact ⟨left', done', src, hafter, Nat.le_refl _⟩
  | reads call =>
      simp only [Relay.step, Relay.read, Line.attempt_of_stream hhands.sink]
      exact ⟨left, done, src, h, Nat.le_refl _⟩
  | interrupts =>
      refine ⟨left, done, src, ⟨⟨asked, s, ?_⟩, h.source, h.said⟩, Nat.le_refl _⟩
      exact ⟨hhands.sink, hhands.sound, hhands.tended, hhands.kept, hhands.asked_eq,
        hhands.done_eq, hhands.tuned, hhands.store⟩

/-- Every run tells what comes first in the store, and hands the rest over. -/
theorem Tells.run (h : t.Tells store left done src) (events : List RelayEvent) :
    ∃ left' done' src', (t.run events).Tells store left' done' src' ∧
      src'.items.length ≤ src.items.length := by
  induction events generalizing t left done src with
  | nil => exact ⟨left, done, src, h, Nat.le_refl _⟩
  | cons e events ih =>
      obtain ⟨left₁, done₁, src₁, hfirst, hused⟩ := h.step e
      obtain ⟨left', done', src', hafter, hused'⟩ := ih hfirst
      exact ⟨left', done', src', hafter, Nat.le_trans hused' hused⟩

/-! ## Polling to the end -/

/-- Whoever wakes the source and polls is answered, or the source has used an item up, or there
is nothing to be answered with. -/
theorem Tells.pull (h : t.Tells store left done src) :
    ∃ left' done' src', t.pull.Tells store left' done' src' ∧
      src'.items.length ≤ src.items.length ∧
        (t.pull.answers.length = t.answers.length + 1 ∨
          t.pull.answers = t.answers ∧ (src'.items.length < src.items.length ∨
            Signal.answer store t.answers.length = .pending)) := by
  have hwoken := h.wake
  obtain ⟨asked, s, hhands⟩ := hwoken.hands
  have hsaid : Signal.Said store left done t.answers := h.said
  unfold Relay.pull
  cases done with
  | true =>
      rcases hhands.settlePoll_of_done with ⟨hended, s', hafter⟩
      obtain ⟨src', hsource, hgoes⟩ := Line.settlePoll_goes hwoken.source
      dsimp only
      rw [hended]
      exact ⟨left, true, src', ⟨⟨asked, s', hafter⟩, hsource, hsaid.again⟩, hgoes.used,
        .inl (List.length_append ..)⟩
  | false =>
      have hsettles := hhands.settlePoll hwoken.source
      generalize Puller.settlePoll t.wake.line = polled at hsettles ⊢
      cases hsettles with
      | answers sig rest l' s' asked' src' hleft hcarried hlast hands hsource hgoes =>
          rw [hleft] at hsaid
          have hnew : sig.pull.answered = [sig.pull] := if_neg hcarried
          dsimp only
          rw [hnew]
          exact ⟨rest, sig.isTerminal, src', ⟨⟨asked', s', hands⟩, hsource,
            hsaid.next hcarried hlast⟩, hgoes.used, .inl (List.length_append ..)⟩
      | waits l' s' asked' src' hands hsource hgoes hparked hleft =>
          have hnone : t.answers ++ Pull.answered .pending = t.answers := List.append_nil _
          dsimp only
          rw [hnone]
          refine ⟨left, false, src', ⟨⟨asked', s', hands⟩, hsource, hsaid⟩, hgoes.used,
            .inr ⟨rfl, ?_⟩⟩
          -- The source was awake before, so it has come to a pause or to its open end.
          rcases hgoes.asleep hparked with hbefore | hless | ⟨hitems, hopen⟩
          · cases hbefore
          · exact .inl hless
          · have hempty : src'.cargo = [] := by
              simp [Source.cargo, hitems, hopen, Item.chunks, Item.failure?]
            rw [hempty] at hleft
            subst hleft
            exact .inr hsaid.dry

/-- Nothing is answered beyond what the store says. -/
theorem Tells.length_le (h : t.Tells store left done src) {k : Nat}
    (hdry : Signal.answer store k = .pending) : t.answers.length ≤ k := by
  by_contra hmore
  have hk : k < t.answers.length := Nat.lt_of_not_le hmore
  have hanswer : t.answers[k]? = some .pending := by
    rw [h.said.eq, List.getElem?_map, List.getElem?_range hk]
    exact congrArg some hdry
  exact h.said.carried (List.mem_of_getElem? hanswer)

/-- How long it takes until everything has been answered: as often as there are answers, and as
often as the script has items, each of which may be a pause. -/
theorem Tells.pulls (h : t.Tells store left done src) (j : Nat) :
    ∃ left' done' src', (Relay.pull^[j] t).Tells store left' done' src' ∧
      t.answers.length ≤ (Relay.pull^[j] t).answers.length ∧
        (j + t.answers.length + src'.items.length ≤
            src.items.length + (Relay.pull^[j] t).answers.length ∨
          Signal.answer store (Relay.pull^[j] t).answers.length = .pending) := by
  induction j generalizing t left done src with
  | zero => exact ⟨left, done, src, h, Nat.le_refl _, .inl (by simp [Nat.add_comm])⟩
  | succ j ih =>
      obtain ⟨left₁, done₁, src₁, hpulled, hused, hcases⟩ := h.pull
      obtain ⟨left', done', src', hafter, hlength, hreached⟩ := ih hpulled
      rw [Function.iterate_succ_apply]
      refine ⟨left', done', src', hafter, ?_, ?_⟩
      · rcases hcases with hone | ⟨hsame, -⟩
        · omega
        · rw [← hsame]
          exact hlength
      · rcases hcases with hone | ⟨hsame, hless | hdry⟩
        · exact hreached.imp_left fun hle => by omega
        · rw [hsame] at hlength hreached
          exact hreached.imp_left fun hle => by omega
        · rw [hsame] at hlength
          have hdone := hafter.length_le hdry
          have hfinal : (Relay.pull^[j] t.pull).answers.length = t.answers.length :=
            Nat.le_antisymm hdone hlength
          rw [hfinal]
          exact .inr hdry

end Relay
end CreditFlow
