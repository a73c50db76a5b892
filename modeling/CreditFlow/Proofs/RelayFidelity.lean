import CreditFlow.Proofs.RelayStream

/-!
# Hops are the identity on streams

However many hops a relay has, what comes out of it is what its source was going to yield: the
same chunks in the same order up to the first failure, then that failure, once, with the same
text and the same chain of causes, and then the end for ever.  A reader at the end is given the
bytes of those chunks, and then told of the end or of the failure, however it reads.  And the
source is never more than one item ahead of what the stream at the end has yielded.

A stream is polled to its end by waking the source, letting the tasks run, and polling, again
and again; a reader is drained by reading until there is nothing more, and again whenever it
had to wait and the source was woken.

Main results:

- {lit}`Relay.Budget.step`: the accounts of a relay.
- {lit}`Chain.bytes_le_volume`: draining does not give up too early.
- {lit}`Line.Carries.drain`, {lit}`Relay.Reads.drainAll`: what draining comes to.
- {lit}`Relay.run_relays`: what a relay yields.
-/

namespace CreditFlow

/-! ## The source is not ahead -/

namespace Relay

/-- The accounts of a relay that ends in a stream. -/
def Budget (t : Relay) : Prop :=
  t.line.Frugal .stream none t.yielded 0

variable {t : Relay}

/-- Waking the source asks it for nothing. -/
theorem Budget.wake (h : t.Budget) : t.wake.Budget := by
  have hkind : t.line.sink.ending? = some .stream := Line.Frugal.kind h
  rcases Line.Frugal.budget h with ⟨asked, hasked, hfrugal⟩
  exact ⟨hkind, asked, hasked, hfrugal.wakes⟩

theorem Budget.poll (h : t.Budget) : t.poll.Budget := by
  have hyielded : t.poll.yielded = t.yielded + if t.line.poll.1.isItem then 1 else 0 := by
    have hnew : t.line.poll.1.answered.countP Pull.isItem =
        if t.line.poll.1.isItem then 1 else 0 := by
      cases t.line.poll.1 <;> rfl
    rw [← hnew]
    exact List.countP_append
  unfold Budget
  rw [hyielded]
  exact Line.Frugal.poll h

/-- Whatever happens along a relay that ends in a stream, its accounts are right. -/
theorem Budget.step (h : t.Budget) (e : RelayEvent) : (t.step e).Budget := by
  cases e with
  | ticks =>
      simp only [Relay.step]
      cases htick : t.line.tick with
      | none => exact h
      | some l' => exact Line.Frugal.tick h htick
  | prefers task => exact Line.Frugal.prefer h task
  | wakes => exact h.wake
  | polls => exact h.poll
  | reads call =>
      rcases Line.Frugal.stream h with ⟨s, hsink⟩
      simp only [Relay.step, Relay.read, Line.attempt_of_stream hsink]
      exact h
  | interrupts => exact Line.Frugal.of_eq h rfl rfl (Nat.le_refl _)

/-- The accounts of a relay are right in every run. -/
theorem Budget.run (h : t.Budget) (events : List RelayEvent) : (t.run events).Budget := by
  induction events generalizing t with
  | nil => exact h
  | cons e events ih => exact ih (h.step e)

/-- What was pulled from the source is at most one item more than what was yielded. -/
theorem Budget.pulled_le (h : t.Budget) : t.pulled ≤ t.yielded + 1 := by
  rcases Line.Frugal.budget h with ⟨asked, hasked, hfrugal⟩
  have hroom := t.line.sink.room_le
  have hnone : t.line.passed .stream = 0 := rfl
  unfold Relay.pulled PumpScenario.pulled
  cases hsource : t.line.chain.source? with
  | none => exact Nat.zero_le _
  | some s =>
      have hpulled := hfrugal.pulled_le hsource
      change s.pulled ≤ t.yielded + 1
      omega

end Relay

/-! ## Volumes -/

/-- The bytes that wait in an inlet are part of its volume. -/
theorem Inlet.unread_le_volume (b : Inlet Unit) :
    b.unread.length ≤ (Sink.inlet b).volume := by
  have hqueue : ∀ queue : List Element,
      (queue.filterMap Element.chunk?).flatten.length ≤ volumeOf Element.volume queue := by
    intro queue
    induction queue with
    | nil => exact Nat.le_refl _
    | cons e queue ih =>
        cases e with
        | data chunk =>
            simp only [List.filterMap_cons, Element.chunk?_data, List.flatten_cons,
              List.length_append, volumeOf, Element.volume, Octets.volume]
            omega
        | finish | failure f => exact Nat.le_trans ih (Nat.le_add_left _ _)
  have hwaiting := hqueue b.queue
  simp only [Inlet.unread, Inlet.chunks, List.length_append, Sink.volume, Octets.volume]
  omega

/-- The bytes of an inbox are part of its volume. -/
theorem Signal.bytes_le_volume (inbox : List (Signal Unit)) :
    (Signal.bytes (Emission.cargo (inbox.map .signal))).length ≤ volumeOf Signal.volume inbox := by
  induction inbox with
  | nil => exact Nat.le_refl _
  | cons sig inbox ih =>
      have hfirst : Emission.cargo ((sig :: inbox).map .signal) =
          Emission.cargo [.signal sig] ++ Emission.cargo (inbox.map .signal) :=
        Emission.cargo_append [.signal sig] _
      have hone : (Signal.bytes (Emission.cargo [.signal sig])).length ≤ sig.volume := by
        cases sig with
        | next chunk =>
            simp [Emission.cargo, Emission.cargo?, Signal.bytes, Signal.chunk?, Signal.volume,
              Octets.volume]
        | subscribed handle | error cause | complete => exact Nat.le_refl 0
      rw [hfirst, Signal.bytes_append, List.length_append]
      simp only [volumeOf]
      omega

/-- The bytes of a script are part of its volume. -/
theorem Item.chunks_le_volume (items : List Item) :
    (chunks items).flatten.length ≤ volumeOf Item.volume items := by
  induction items with
  | nil => exact Nat.le_refl _
  | cons item items ih =>
      cases item with
      | chunk bytes =>
          simp only [chunks, List.flatten_cons, List.length_append, volumeOf, Item.volume,
            Octets.volume]
          omega
      | fail cause => exact Nat.zero_le _
      | pause | stepAside | act a => exact Nat.le_trans ih (Nat.le_add_left _ _)

/-- A source has the bytes of its chunks in store. -/
theorem Source.bytes_cargo (s : Source) :
    Signal.bytes s.cargo = (Item.chunks s.items).flatten := by
  have hchunks : ∀ chunks : List Octets, Signal.bytes (chunks.map .next) = chunks.flatten := by
    intro chunks
    simp [Signal.bytes, List.filterMap_map, Function.comp_def, Signal.chunk?]
  rw [Source.cargo, Signal.bytes_append, hchunks]
  cases Item.failure? s.items with
  | some cause => exact List.append_nil _
  | none => cases s.isOpen <;> exact List.append_nil _

/-- Relaying leaves the bytes what they are. -/
theorem Signal.bytes_relayed (sigs : List (Signal Unit)) :
    Signal.bytes (sigs.map Signal.relayed) = Signal.bytes sigs := by
  have hsame : Signal.chunk? ∘ Signal.relayed = Signal.chunk? := funext Signal.relayed_chunk?
  rw [Signal.bytes, List.filterMap_map, hsame, Signal.bytes]

/-- The bytes that are on their way through a chain are part of its volume. -/
theorem Chain.bytes_le_volume (c : Chain) : (Signal.bytes c.backlog).length ≤ c.volume := by
  induction c with
  | writer o => exact Nat.le_refl _
  | player p => exact Nat.zero_le _
  | source s p =>
      have hitems := Item.chunks_le_volume s.items
      rw [backlog]
      split
      · exact Nat.zero_le _
      · rw [s.bytes_cargo]
        exact hitems
  | hop before s p ih =>
      have hinbox := Signal.bytes_le_volume s.inbox
      rw [backlog]
      split
      · exact Nat.zero_le _
      · rw [Signal.bytes_relayed, Signal.bytes_append, List.length_append]
        change (Signal.bytes (Emission.cargo (s.inbox.map .signal))).length + _ ≤
          before.volume + _
        omega

/-! ## Draining -/

namespace Line

variable {given : Octets} {ends : List (Except Failure Unit)} {b : Inlet Unit} {l : Line}

/-- Letting the tasks run loses nothing that a line carries. -/
theorem Carries.settle (h : l.Carries given ends [] [] b) :
    ∃ b', l.settle.Carries given ends [] [] b' := by
  have hmove : ∀ {l moved : Line}, (∃ b, l.Carries given ends [] [] b) → l.tick = some moved →
      ∃ b, moved.Carries given ends [] [] b := by
    rintro l moved ⟨b, hbefore⟩ htick
    exact hbefore.tick htick
  exact settle_keeps hmove ⟨b, h⟩

/-- Waking the source brings nothing by itself. -/
theorem Carries.wakes (h : l.Carries given ends [] [] b) :
    (l.atSource id true).Carries given ends [] [] b := by
  rcases h.sound.wakes with ⟨hsound, hport, hbacklog⟩
  have htended := h.tended
  rw [List.append_nil] at htended
  refine ⟨h.sink, hsound, ?_, h.orderly, h.paced, ?_, ?_, ?_⟩
  · rw [List.append_nil]
    exact atSource_tended htended id fun _ => rfl
  · change ∃ q, b.Paired q ∧ q.emits [] = some (l.chain.atSource id true).1.port
    rw [hport]
    exact h.paired
  · change b.unread ++ Signal.bytes (Emission.cargo [] ++ (l.chain.atSource id true).1.backlog) = _
    rw [hbacklog]
    exact h.text
  · change b.ends ++ Signal.ends (Emission.cargo [] ++ (l.chain.atSource id true).1.backlog) = _
    rw [hbacklog]
    exact h.endings

/-- What is carried is part of the volume of a line. -/
theorem Carries.length_le (h : l.Carries given ends [] [] b) : given.length ≤ l.volume := by
  have hinlet := b.unread_le_volume
  have hchain := l.chain.bytes_le_volume
  have htext := congrArg List.length h.text
  rw [Emission.cargo_nil, List.nil_append, List.length_append] at htext
  simp only [Line.volume, h.sink]
  omega

/-- What draining has come to, by its last reply.  `rest` is what was not read. -/
inductive Drained (ends : List (Except Failure Unit)) (src : Source) (rest : Octets) :
    Reply → Prop
  | ended (hnone : rest = []) (hends : .ok () ∈ ends) : Drained ends src rest .endOfStream
  | failed (f : Failure) (hnone : rest = []) (hends : .error f ∈ ends) :
      Drained ends src rest (.ioFailed (.stream f))
  /-- The source was not woken, and has all that was not read. -/
  | waits (reply : Reply) (n : Nat) (hwaits : reply.waits = true) (hparked : src.parked = true)
      (hrest : rest = Signal.bytes (src.cargo.map (Signal.relayed^[n])))
      (hends : ends = Signal.ends (src.cargo.map (Signal.relayed^[n]))) :
      Drained ends src rest reply

/-- The interrupt token decides only whether a call that would wait fails instead. -/
theorem read_interrupted {size : Nat} (hsize : 0 < size) (interrupted : Bool) (b : Inlet Unit) :
    b.read size interrupted =
      match b.read size false with
      | some a => some a
      | none =>
          if interrupted then
            some { value := .error (.condition (.interrupted .data)), after := b }
          else none := by
  cases interrupted with
  | false => cases b.read size false <;> rfl
  | true =>
      simp only [Inlet.read, if_neg (Nat.ne_of_gt hsize), Inlet.hold]
      by_cases hcurrent : b.current.isEmpty = true
      · rw [if_pos hcurrent, if_pos hcurrent, b.refill_interrupted]
        cases hrefill : b.refill false with
        | none => rfl
        | some a => rfl
      · rw [if_neg hcurrent, if_neg hcurrent]
        rfl

/-- What draining a reader comes to, if it does not give up before everything was read. -/
theorem Carries.drain {size : Nat} (hsize : 0 < size) {supply : Nat}
    (h : l.Carries given ends [] [] b) {src : Source} (hsource : l.chain.source? = some src)
    (hsupply : given.length < supply) :
    let drained := PipeScenario.drain size supply l
    ∃ rest b' src', drained.1.flatten ++ rest = given ∧
      drained.2.2.Carries rest ends [] [] b' ∧ drained.2.2.chain.source? = some src' ∧
        src.Goes src' ∧ Drained ends src' rest drained.2.1 := by
  induction supply generalizing l given b src with
  | zero => exact absurd hsupply (Nat.not_lt_zero _)
  | succ supply ih =>
      rcases h.settle with ⟨b₁, h₁⟩
      rcases settle_goes hsource with ⟨src₁, hsource₁, hgoes₁⟩
      have hattempt : Reader.attempt (Inlet.read size) l.settle =
          (b₁.read size l.settle.interrupted).map fun a =>
            (a.value, l.settle.commit a.after a.reactions) :=
        attempt_answer h₁.sink (.upTo size)
      rw [read_interrupted hsize] at hattempt
      have hcommitted : ∀ a : Inlet.Answer Unit (Except Failure Octets),
          (l.settle.commit a.after a.reactions).chain.source? = some src₁ := by
        intro a
        exact (reactAll_source a.reactions { l.settle with sink := .inlet a.after }).trans hsource₁
      simp only [PipeScenario.drain]
      rw [hattempt]
      cases hread : b₁.read size false with
      | none =>
          rcases h₁.of_waiting l.settle_isIdle hread with ⟨htended, hlive, htext, hends⟩
          rcases Chain.idle_source h₁.sound htended hlive hsource₁ with ⟨hparked, hbacklog⟩
          rw [hbacklog] at htext hends
          cases l.settle.interrupted with
          | false =>
              exact ⟨given, b₁, src₁, rfl, h₁, hsource₁, hgoes₁,
                .waits .stuck _ rfl hparked htext hends⟩
          | true =>
              exact ⟨given, b₁, src₁, rfl,
                ⟨rfl, h₁.sound, h₁.tended, h₁.orderly, h₁.paced, h₁.paired, h₁.text, h₁.endings⟩,
                hsource₁, hgoes₁, .waits _ _ rfl hparked htext hends⟩
      | some a =>
          rcases h₁.read hread with ⟨rest, htext, hafter⟩
          rcases Inlet.read_value h₁.orderly hsize hread with
            ⟨o, hsome, hvalue⟩ | ⟨⟨v, hvalue, hverdict⟩, hunread⟩ | ⟨-, hslot, -⟩ |
              ⟨-, hfired, -⟩
          · rw [hvalue] at htext
            have hshort : rest.length < supply := by
              have hlength := congrArg List.length htext
              have hpos := List.length_pos_of_ne_nil hsome
              simp only [Inlet.bytes, List.length_append] at hlength
              omega
            obtain ⟨rest', b', src', hparts, hcarries, hsource', hgoes', hdrained⟩ :=
              ih hafter (hcommitted a) hshort
            cases o with
            | nil => exact absurd rfl hsome
            | cons byte bytes =>
                simp only [Option.map_some, hvalue]
                refine ⟨rest', b', src', ?_, hcarries, hsource', hgoes₁.trans hgoes', hdrained⟩
                rw [List.flatten_cons, List.append_assoc, hparts]
                exact htext
          · rcases h₁.of_end hread hverdict hunread with ⟨hmem, hnone⟩
            have hempty : rest = [] := by
              rw [hnone] at htext
              exact (List.append_eq_nil_iff.mp htext).2
            subst hempty
            cases v with
            | ok u =>
                have hend : a.value = .ok [] := hvalue
                simp only [Option.map_some, hend]
                exact ⟨[], a.after, src₁, hnone.symm, hafter, hcommitted a, hgoes₁, .ended rfl hmem⟩
            | error f =>
                have hfailed : a.value = .error f := hvalue
                simp only [Option.map_some, hfailed]
                exact ⟨[], a.after, src₁, hnone.symm, hafter, hcommitted a, hgoes₁,
                  .failed f rfl hmem⟩
          · rcases h₁.paired with ⟨q, hpaired, -⟩
            exact absurd hslot hpaired.not_closed
          · cases hfired

end Line
/-! ## Reading to the end -/

/-- What a reader is told last that drains a relay of a script over `n` hops. -/
def Item.Concludes (isOpen : Bool) (n : Nat) (items : List Item) (reply : Reply) : Prop :=
  match failure? items with
  | some cause => reply = .ioFailed (.stream (.producer (Cause.relayed^[n] cause)))
  | none => if isOpen then reply.waits = true else reply = .endOfStream

namespace Relay

/-- A relay that ends in a reader: the bytes that were returned, followed by those that are
carried, are all bytes of the script. -/
structure Reads (text : Octets) (ends : List (Except Failure Unit)) (src : Source) (t : Relay) :
    Prop where
  carries : ∃ given b, t.line.Carries given ends [] [] b ∧ t.returned ++ given = text
  source : t.line.chain.source? = some src

variable {text : Octets} {ends : List (Except Failure Unit)} {src : Source} {t : Relay}

theorem Reads.wake (h : t.Reads text ends src) : t.wake.Reads text ends src.unpark := by
  obtain ⟨given, b, hcarries, htext⟩ := h.carries
  exact ⟨⟨given, b, hcarries.wakes, htext⟩, Chain.wakes_source h.source⟩

/-- Whatever happens along a relay that ends in a reader, no byte is lost. -/
theorem Reads.step (h : t.Reads text ends src) (e : RelayEvent) :
    ∃ src', (t.step e).Reads text ends src' ∧ src'.items.length ≤ src.items.length := by
  obtain ⟨given, b, hcarries, htext⟩ := h.carries
  cases e with
  | ticks =>
      simp only [Relay.step]
      cases htick : t.line.tick with
      | none => exact ⟨src, h, Nat.le_refl _⟩
      | some l' =>
          obtain ⟨b', hafter⟩ := hcarries.tick htick
          obtain ⟨src', hsource, hgoes⟩ := Line.tick_goes h.source htick
          exact ⟨src', ⟨⟨given, b', hafter, htext⟩, hsource⟩, hgoes.used⟩
  | prefers task =>
      have hchain : (t.line.prefer task).chain = t.line.chain := by
        unfold Line.prefer
        split <;> rfl
      refine ⟨src, ⟨⟨given, b, hcarries.prefer task, htext⟩, ?_⟩, Nat.le_refl _⟩
      exact (congrArg Chain.source? hchain).trans h.source
  | wakes => exact ⟨src.unpark, h.wake, Nat.le_refl _⟩
  | polls =>
      have hpoll : t.line.poll = (.pending, t.line) := by
        simp only [Line.poll, hcarries.sink]
      refine ⟨src, ?_, Nat.le_refl _⟩
      simp only [Relay.step, Relay.poll, hpoll]
      exact ⟨⟨given, b, hcarries, htext⟩, h.source⟩
  | reads call =>
      simp only [Relay.step, Relay.read]
      rw [Line.attempt_answer hcarries.sink]
      cases hread : b.read call.wanted t.line.interrupted with
      | none => exact ⟨src, h, Nat.le_refl _⟩
      | some a =>
          obtain ⟨given', hsame, hafter⟩ := hcarries.read hread
          refine ⟨src, ⟨⟨given', a.after, hafter, ?_⟩, ?_⟩, Nat.le_refl _⟩
          · change (t.returned ++ Inlet.bytes a.value) ++ given' = text
            rw [List.append_assoc, hsame, htext]
          · exact (Line.reactAll_source a.reactions { t.line with sink := .inlet a.after }).trans
              h.source
  | interrupts =>
      refine ⟨src, ⟨⟨given, b, ?_, htext⟩, h.source⟩, Nat.le_refl _⟩
      exact ⟨hcarries.sink, hcarries.sound, hcarries.tended, hcarries.orderly, hcarries.paced,
        hcarries.paired, hcarries.text, hcarries.endings⟩

/-- Every run returns what comes first of the bytes, and carries the rest. -/
theorem Reads.run (h : t.Reads text ends src) (events : List RelayEvent) :
    ∃ src', (t.run events).Reads text ends src' ∧ src'.items.length ≤ src.items.length := by
  induction events generalizing t src with
  | nil => exact ⟨src, h, Nat.le_refl _⟩
  | cons e events ih =>
      obtain ⟨src₁, hfirst, hused⟩ := h.step e
      obtain ⟨src', hafter, hused'⟩ := ih hfirst
      exact ⟨src', hafter, Nat.le_trans hused' hused⟩

/-- What draining a reader once comes to, after its source was woken. -/
theorem Reads.drain (h : t.Reads text ends src) {size : Nat} (hsize : 0 < size) :
    ∃ rest src', (t.drain size).2.returned ++ rest = text ∧
      (t.drain size).2.Reads text ends src' ∧ src.unpark.Goes src' ∧
        Line.Drained ends src' rest (t.drain size).1 := by
  have hwoken := h.wake
  obtain ⟨given, b, hcarries, htext⟩ := hwoken.carries
  have hsupply : given.length < t.wake.line.volume + 2 :=
    Nat.lt_add_right 1 (Nat.lt_succ_of_le hcarries.length_le)
  obtain ⟨rest, b', src', hparts, hafter, hsource, hgoes, hdrained⟩ :=
    hcarries.drain hsize hwoken.source hsupply
  have hreturned : (t.drain size).2.returned ++ rest = text := by
    change (t.returned ++ _) ++ rest = text
    rw [List.append_assoc, hparts]
    exact htext
  exact ⟨rest, src', hreturned, ⟨⟨rest, b', hafter, hreturned⟩, hsource⟩, hgoes, hdrained⟩

/-- What a reader is told last, by the end that was carried to it. -/
def Told (ends : List (Except Failure Unit)) (reply : Reply) : Prop :=
  ends = [] ∧ reply.waits = true ∨ .ok () ∈ ends ∧ reply = .endOfStream ∨
    ∃ f, .error f ∈ ends ∧ reply = .ioFailed (.stream f)

/-- If draining has come to nothing although the source was woken, the source has used up a
pause of its script. -/
theorem told_of_drained {src' : Source} {rest : Octets} {reply : Reply}
    (h : Line.Drained ends src' rest reply) (hgoes : src.unpark.Goes src')
    (hproducer : ∀ f, .error f ∈ ends → ∃ cause, f = .producer cause) :
    rest = [] ∧ Told ends reply ∧ (reply.waits = true → src'.items = []) ∨
      src'.items.length < src.items.length ∧ reply.waits = true := by
  cases h with
  | ended hnone hends => exact .inl ⟨hnone, .inr (.inl ⟨hends, rfl⟩), nofun⟩
  | failed f hnone hends =>
      obtain ⟨cause, rfl⟩ := hproducer f hends
      exact .inl ⟨hnone, .inr (.inr ⟨_, hends, rfl⟩), nofun⟩
  | waits _ n hwaits hparked hrest hends =>
      rcases hgoes.asleep hparked with hbefore | hless | ⟨hitems, hopen⟩
      · cases hbefore
      · exact .inr ⟨hless, hwaits⟩
      · have hempty : src'.cargo = [] := by
          simp [Source.cargo, hitems, hopen, Item.chunks, Item.failure?]
        rw [hempty] at hrest hends
        exact .inl ⟨hrest, .inl ⟨hends, hwaits⟩, fun _ => hitems⟩

/-- A reader that is drained again whenever it had to wait has been given everything as soon as
it has waited as often as the script has items. -/
theorem Reads.drainAll (h : t.Reads text ends src) {size : Nat} (hsize : 0 < size)
    (hproducer : ∀ f, .error f ∈ ends → ∃ cause, f = .producer cause) {patience : Nat}
    (hpatience : src.items.length ≤ patience) :
    (t.drainAll size patience).2.returned = text ∧ Told ends (t.drainAll size patience).1 := by
  have hall : ∀ {returned rest : Octets}, returned ++ rest = text → rest = [] →
      returned = text := by
    rintro returned rest htext rfl
    exact (List.append_nil _).symm.trans htext
  induction patience generalizing t src with
  | zero =>
      obtain ⟨rest, src', htext, -, hgoes, hlast⟩ := h.drain hsize
      rcases told_of_drained hlast hgoes hproducer with ⟨hnone, htold, -⟩ | ⟨hless, -⟩
      · exact ⟨hall htext hnone, htold⟩
      · omega
  | succ patience ih =>
      obtain ⟨rest, src', htext, hafter, hgoes, hlast⟩ := h.drain hsize
      have hcases := told_of_drained hlast hgoes hproducer
      simp only [Relay.drainAll]
      cases hwaits : (t.drain size).1.waits with
      | true =>
          rw [if_pos rfl]
          refine ih hafter ?_
          rcases hcases with ⟨-, -, hend⟩ | ⟨hless, -⟩
          · rw [hend hwaits]
            exact Nat.zero_le _
          · omega
      | false =>
          rw [if_neg (by simp)]
          rcases hcases with ⟨hnone, htold, -⟩ | ⟨-, hother⟩
          · exact ⟨hall htext hnone, htold⟩
          · rw [hother] at hwaits
            cases hwaits

/-! ## The beginning -/

/-- A source that was not looked at. -/
theorem unstarted_source (s : Source) : (Chain.source s {}).Unstarted s.cargo :=
  ⟨Chain.serves_empty, rfl, Chain.minds_of_fresh List.mem_cons_self _, rfl⟩

/-- Hops stand behind the source. -/
theorem extend_source (n : Nat) (c : Chain) : (Chain.extend n c).source? = c.source? := by
  induction n generalizing c with
  | zero => rfl
  | succ n ih => exact ih (.hop c {} {})

section Start

variable (items : List Item) (isOpen : Bool) (n : Nat) (interrupted : Bool)

/-- A relay that was just put together has everything to come. -/
theorem start_unstarted (ending : PipeEnd) :
    (start items isOpen n ending interrupted).line.chain.Unstarted (Item.store isOpen n items) :=
  (unstarted_source { items := items, isOpen := isOpen }).extend n

theorem start_tells :
    (start items isOpen n .stream interrupted).Tells (Item.store isOpen n items)
      (Item.store isOpen n items) false { items := items, isOpen := isOpen } := by
  have hstart := start_unstarted items isOpen n interrupted .stream
  refine ⟨⟨false, {}, rfl, hstart.sound, ?_, rfl, rfl, rfl, ⟨.vacant, PullStream.tuned_empty, ?_⟩,
    hstart.stored⟩, extend_source n _, Signal.said_nil _⟩
  · exact hstart.tended.mono fun k hk => List.mem_append_left _ hk
  · exact congrArg some hstart.vacant.symm

theorem start_budget : (start items isOpen n .stream interrupted).Budget := by
  have hsource : (Chain.source { items := items, isOpen := isOpen } {}).Frugal none 0 0 0 :=
    ⟨rfl, Nat.le_refl _, fun _ _ => Nat.le_refl _, nofun⟩
  exact ⟨rfl, 0, Nat.zero_le _, Pipe.frugal_extend hsource n⟩

theorem start_reads :
    (start items isOpen n .reader interrupted).Reads
      (Signal.bytes (Item.store isOpen n items)) (Signal.ends (Item.store isOpen n items))
      { items := items, isOpen := isOpen } := by
  have hstart := start_unstarted items isOpen n interrupted .reader
  exact ⟨⟨_, {}, Line.carries_of_unstarted hstart rfl rfl rfl, rfl⟩, extend_source n _⟩

end Start

/-! ## What a relay yields -/

/-- The bytes and the end that a script has in store. -/
theorem store_parts (isOpen : Bool) (n : Nat) (items : List Item) :
    Signal.bytes (Item.store isOpen n items) = (Item.chunks items).flatten ∧
      Signal.ends (Item.store isOpen n items) =
        match Item.failure? items with
        | some cause => [.error (.producer (Cause.relayed^[n] cause))]
        | none => if isOpen then [] else [.ok ()] := by
  have hbytes : Signal.bytes ((Item.chunks items).map .next) = (Item.chunks items).flatten := by
    simp [Signal.bytes, List.filterMap_map, Function.comp_def, Signal.chunk?]
  have hends : Signal.ends ((Item.chunks items).map .next) = [] := by
    simp [Signal.ends, Signal.end?]
  rw [Item.store_eq, Signal.bytes_append, Signal.ends_append, hbytes, hends]
  cases Item.failure? items with
  | some cause => exact ⟨List.append_nil _, rfl⟩
  | none => cases isOpen <;> exact ⟨List.append_nil _, rfl⟩

/-- After the chunks of a script that stays open nothing more comes. -/
theorem told_pending {isOpen : Bool} {n : Nat} {items : List Item} {k i : Nat}
    (h : Item.told isOpen n items k = .pending) (hle : k ≤ i) :
    Item.told isOpen n items i = .pending := by
  unfold Item.told at h ⊢
  cases hk : (Item.chunks items)[k]? with
  | some chunk => simp [hk] at h
  | none =>
      have hi : (Item.chunks items)[i]? = none := by
        rw [List.getElem?_eq_none_iff] at hk ⊢
        omega
      rw [hk] at h
      rw [hi]
      cases hfailure : Item.failure? items with
      | some cause =>
          simp only [hfailure] at h
          split at h <;> cases h
      | none =>
          simp only [hfailure] at h
          exact h

/-- However many answers there are, the first of them are those that are not pending. -/
theorem take_answers {told : Nat → Pull} {answers : List Pull}
    (heq : answers = (List.range answers.length).map told) (hcarried : .pending ∉ answers)
    (hpending : ∀ {k i : Nat}, told k = .pending → k ≤ i → told i = .pending) {k : Nat}
    (hfar : k ≤ answers.length ∨ told answers.length = .pending) :
    answers.take k = ((List.range k).map told).filter (· ≠ .pending) := by
  have hkept : ∀ j ≤ answers.length,
      ((List.range j).map told).filter (· ≠ .pending) = (List.range j).map told := by
    intro j hj
    rw [List.filter_eq_self]
    intro p hp
    obtain ⟨i, hi, rfl⟩ := List.mem_map.mp hp
    have hlt : i < answers.length := Nat.lt_of_lt_of_le (List.mem_range.mp hi) hj
    have hmem : told i ∈ answers := by
      rw [heq]
      exact List.mem_map.mpr ⟨i, List.mem_range.mpr hlt, rfl⟩
    exact decide_eq_true fun hsame => hcarried (hsame ▸ hmem)
  by_cases hk : k ≤ answers.length
  · rw [hkept k hk]
    conv_lhs => rw [heq]
    rw [← List.map_take, List.take_range, Nat.min_eq_left hk]
  · have hdry := hfar.resolve_left hk
    have hsplit : List.range k = List.range answers.length ++
        (List.range (k - answers.length)).map (answers.length + ·) := by
      rw [← List.range_add]
      congr 1
      omega
    have hnone : (((List.range (k - answers.length)).map (answers.length + ·)).map told).filter
        (· ≠ .pending) = [] := by
      rw [List.filter_eq_nil_iff]
      intro p hp
      obtain ⟨i, hi, rfl⟩ := List.mem_map.mp hp
      obtain ⟨j, -, rfl⟩ := List.mem_map.mp hi
      simp [hpending hdry (Nat.le_add_right _ j)]
    rw [hsplit, List.map_append, List.filter_append, hnone, List.append_nil,
      hkept _ (Nat.le_refl _), ← heq, List.take_of_length_le (Nat.le_of_not_le hk)]

/-- Whatever happens along a relay of a script over any number of hops, in whatever order.
If it ends in a stream, the answers of its polls are what the script tells; at most one more
item was pulled from the source than the stream has yielded; and whoever goes on to wake the
source and to poll has had the next `k` answers, if there are so many, after `k` rounds and one
for each item of the script.  If it ends in a reader, draining it with a buffer of any size, and
again whenever it had to wait, returns the bytes of the chunks before the first failure, and
then the end or the failure.  A failure that was relayed has the text and the chain of causes
that it had. -/
theorem run_relays (items : List Item) (isOpen : Bool) (n : Nat) (interrupted : Bool)
    (events : List RelayEvent) :
    (let t := (start items isOpen n .stream interrupted).run events
     t.answers = (List.range t.answers.length).map (Item.told isOpen n items) ∧
       t.pulled ≤ t.yielded + 1 ∧
       ∀ k, (pull^[items.length + k] t).answers.take k =
         ((List.range k).map (Item.told isOpen n items)).filter (· ≠ .pending)) ∧
    (let t := (start items isOpen n .reader interrupted).run events
     ∀ size, (t.drainAll (size + 1) items.length).2.returned = (Item.chunks items).flatten ∧
       Item.Concludes isOpen n items (t.drainAll (size + 1) items.length).1) ∧
    ∀ cause : Cause, (Cause.relayed^[n] cause).message = cause.message ∧
      (Cause.relayed^[n] cause).chain = cause.chain := by
  refine ⟨?_, ?_, fun cause => ?_⟩
  · intro t
    obtain ⟨left, done, src, htells, hused⟩ := (start_tells items isOpen n interrupted).run events
    have htold : Signal.answer (Item.store isOpen n items) = Item.told isOpen n items :=
      funext fun k => (Item.told_eq isOpen n items k).symm
    have hanswers := htells.said.eq
    rw [htold] at hanswers
    refine ⟨hanswers, ((start_budget items isOpen n interrupted).run events).pulled_le, fun k => ?_⟩
    obtain ⟨left', done', src', hafter, -, hreached⟩ := htells.pulls (items.length + k)
    have hlast := hafter.said.eq
    rw [htold] at hlast hreached
    refine take_answers hlast hafter.said.carried told_pending (hreached.imp_left fun hle => ?_)
    change src.items.length ≤ items.length at hused
    omega
  · intro t size
    obtain ⟨src, hreads, hused⟩ := (start_reads items isOpen n interrupted).run events
    obtain ⟨hbytes, hends⟩ := store_parts isOpen n items
    rw [hbytes] at hreads
    have hproducer : ∀ f, .error f ∈ Signal.ends (Item.store isOpen n items) →
        ∃ cause, f = .producer cause := by
      intro f hmem
      rw [hends] at hmem
      cases hfailure : Item.failure? items with
      | some cause => exact ⟨Cause.relayed^[n] cause, by simpa [hfailure] using hmem⟩
      | none => cases isOpen <;> simp [hfailure] at hmem
    obtain ⟨hreturned, htold⟩ := hreads.drainAll (Nat.succ_pos size) hproducer hused
    refine ⟨hreturned, ?_⟩
    rw [hends] at htold
    unfold Item.Concludes Told at *
    cases hfailure : Item.failure? items with
    | some cause => simpa [hfailure] using htold
    | none => cases isOpen <;> simpa [hfailure] using htold
  · induction n with
    | zero => exact ⟨rfl, rfl⟩
    | succ n ih =>
        rw [Function.iterate_succ_apply']
        exact ih

end Relay
end CreditFlow
