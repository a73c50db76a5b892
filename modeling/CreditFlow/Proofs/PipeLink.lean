import CreditFlow.Proofs.ChainLink
import CreditFlow.Proofs.PipeFidelity

/-!
# Which hops of a pipe have taken their subscription

The inlet at the end of a pipe asks for its first chunk as soon as it is greeted, so a pipe is
linked from the beginning on, whatever happens along it.  Once it has been idle, every hop has
taken its subscription, and a cancellation that comes later will find its way.

Main results:

- {lit}`Line.Carries.tick_linked`, {lit}`Line.Carries.read_linked`: a line stays linked.
- {lit}`Pipe.Joins.step`: so does a pipe, while nobody ends the stream at either end.
- {lit}`Pipe.Joins.of_idle`: in an idle pipe every hop has taken its subscription.
-/

namespace CreditFlow

/-- The consumer at the end is an inlet that has taken its subscription. -/
def Sink.Taken : Sink → Prop
  | inlet b => b.slot ≠ .vacant
  | _ => False

/-- An inlet has taken its subscription when it has been greeted. -/
theorem Inlet.Paired.taken_iff {q : Port} {b : Inlet Unit} (h : b.Paired q) :
    b.slot ≠ .vacant ↔ q ≠ .vacant := by
  cases q with
  | vacant => simp [h.1]
  | live credit => simp [h.1]
  | ended gone => simp [h.1]

/-! ## Linked lines -/

namespace Line

/-- The chain of a line is linked to the inlet at its end.  `joined` says that everybody has
taken a subscription. -/
structure Linked (joined : Prop) (l : Line) : Prop where
  chain : l.chain.Linked joined l.sink.Taken
  taken : joined → l.sink.Taken

variable {joined taken : Prop} {given : Octets} {ends : List (Except Failure Unit)}
  {es : List Emission} {woken : List Nat} {b b' : Inlet Unit} {l : Line}

/-- An inlet that asks when it may leaves the line linked.  Before it asks, `taken` says whether
it has taken its subscription. -/
theorem reactAll_linked {q : Port} {rs : List (Reaction Unit)} (hsink : l.sink = .inlet b)
    (hsound : l.chain.Sound) (hchain : l.chain.Linked joined taken) (htells : b.Tells q rs)
    (hemits : q.emits es = some l.chain.port)
    (hsilent : Reaction.controls rs = [] → q ≠ .vacant → taken) (hjoined : joined → q ≠ .vacant) :
    (l.reactAll rs).Linked joined := by
  obtain ⟨hcontrols, hsink', -⟩ := reactAll_parts rs l
  rw [hsink] at hsink'
  rcases htells with ⟨hnone, hpaired⟩ | ⟨hone, hspent, hpaired⟩
  · rw [hnone] at hcontrols
    refine ⟨?_, fun h => ?_⟩
    · rw [hsink', hcontrols]
      exact hchain.mono fun htaken => hsilent hnone (hpaired.taken_iff.mp htaken)
    · rw [hsink']
      exact hpaired.taken_iff.mpr (hjoined h)
  · have hgreeted : q.grant ≠ .vacant := by
      rcases hspent with rfl | hended
      · exact nofun
      · cases q with
        | ended gone => exact nofun
        | vacant | live credit => cases hended
    rw [hone] at hcontrols
    refine ⟨?_, fun _ => ?_⟩
    · rw [hsink', hcontrols]
      exact (hchain.request hsound (Port.spent_of_emits hspent hemits)).mono fun _ => trivial
    · rw [hsink']
      exact hpaired.taken_iff.mpr hgreeted

/-- What the inlet makes of what it hears leaves the line linked. -/
theorem Carries.hear_linked {e : Emission} (h : l.Carries given ends (e :: es) woken b)
    (hlinked : l.Linked joined) : (l.hear e).Linked joined := by
  rcases h.paired with ⟨q, hpaired, hemits⟩
  rw [Port.emits_cons] at hemits
  rcases Option.bind_eq_some_iff.mp hemits with ⟨q', hemit, hrest⟩
  cases e with
  | signal s =>
      have hchain := hlinked.chain
      rw [h.sink] at hchain
      simp only [Line.hear, Sink.hear, h.sink]
      refine reactAll_linked rfl h.sound hchain
        (Inlet.signal_tells h.orderly h.paced hpaired hemit) hrest (fun hnone _ hslot => ?_)
        fun _ => Port.ne_vacant_of_emit hemit
      -- Whoever is greeted asks; whoever is told of anything else has been greeted.
      have hvacant : q = .vacant := by
        by_contra hgreeted
        exact hpaired.taken_iff.mpr hgreeted hslot
      subst hvacant
      cases s with
      | subscribed handle =>
          rw [Inlet.signal, Inlet.subscribed_of_vacant hslot] at hnone
          cases hnone
      | next chunk => cases hemit
      | error cause => cases hemit
      | complete => cases hemit
  | hangUp =>
      have hsame : (l.hear .hangUp).chain = l.chain ∧ (l.hear .hangUp).sink = l.sink := by
        simp only [Line.hear, Sink.hear, h.sink]
        exact ⟨rfl, rfl⟩
      refine ⟨?_, ?_⟩
      · rw [hsame.1, hsame.2]
        exact hlinked.chain
      · rw [hsame.2]
        exact hlinked.taken

/-- What the sink hears leaves the line linked. -/
theorem Carries.hears_linked (h : l.Carries given ends es woken b) (hlinked : l.Linked joined) :
    (es.foldl Line.hear l).Linked joined := by
  induction es generalizing l b with
  | nil => exact hlinked
  | cons e es ih =>
      rcases h.hear with ⟨b', hfirst⟩
      exact ih hfirst (h.hear_linked hlinked)

/-- A move that leaves the chain linked leaves the line linked. -/
theorem Carries.absorb_linked (h : l.Carries given ends [] [] b) (hlinked : l.Linked joined)
    {new : List (Signal Unit)} {r : Chain × Burst} (hmoves : Chain.Moves new l.chain r)
    {running : Option Nat} (htended : r.1.Tended (l.ready ++ r.2.wakes) running)
    (hchain : r.1.Linked joined l.sink.Taken) :
    ({ l with running := running }.absorb r).Linked joined := by
  have hplaced := h.place hmoves htended
  have hstart : ({ l with running := running, chain := r.1 }.note r.2.notes).Linked joined :=
    ⟨hchain, hlinked.taken⟩
  have hheard := hplaced.hears_linked hstart
  rcases hplaced.hears with ⟨b', htold⟩
  have hending : (r.2.emissions.foldl Line.hear
      ({ l with running := running, chain := r.1 }.note r.2.notes)).sink.ending? =
        some .reader := by
    rw [htold.sink]
    rfl
  simp only [Line.absorb, performs_of_ending r.2.acts hending]
  exact ⟨hheard.chain, hheard.taken⟩

/-- No move breaks a line apart. -/
theorem Carries.tick_linked (h : l.Carries given ends [] [] b) (hlinked : l.Linked joined)
    {l' : Line} (htick : l.tick = some l') : l'.Linked joined := by
  have htended := h.tended
  rw [List.append_nil] at htended
  unfold Line.tick at htick
  cases hrunning : l.running with
  | some k =>
      rw [hrunning] at htick htended
      cases htick
      exact h.absorb_linked hlinked (h.sound.turn k) (htended.turn h.sound)
        (hlinked.chain.turn h.sound k)
  | none =>
      rw [hrunning] at htick
      cases hready : l.ready with
      | nil =>
          rw [hready] at htick
          cases htick
      | cons k rest =>
          rw [hready] at htick
          cases htick
          exact ⟨hlinked.chain, hlinked.taken⟩

theorem Linked.prefer (h : l.Linked joined) (task : Nat) : (l.prefer task).Linked joined := by
  obtain ⟨ready, hprefer, -⟩ := l.prefer_eq task
  rw [hprefer]
  exact ⟨h.chain, h.taken⟩

/-- What a writer does while it serves its consumer leaves the line linked. -/
theorem Carries.atWriter_linked (h : l.Carries given ends [] [] b) (hlinked : l.Linked joined)
    {o : Outlet} (hwriter : l.chain.writer? = some o)
    {f : Outlet → Outlet × List Notice × List Emission} (hserving : (f o).1.Serving)
    (hemits : o.port.emits (f o).2.2 = some (f o).1.port) : (l.atWriter f).Linked joined := by
  have htended := h.tended
  rw [List.append_nil] at htended
  exact h.absorb_linked hlinked (h.sound.atWriter hwriter hserving hemits)
    (htended.atWriter h.sound hwriter hserving hemits)
    (hlinked.chain.atWriter h.sound hwriter hserving hemits)

/-- A reading call leaves a line linked. -/
theorem Carries.read_linked (h : l.Carries given ends [] [] b) (hlinked : l.Linked joined)
    {size : Nat} {interrupted : Bool} {a : Inlet.Answer Unit (Except Failure Octets)}
    (hread : b.read size interrupted = some a) : (l.commit a.after a.reactions).Linked joined := by
  rcases h.paired with ⟨q, hpaired, hemits⟩
  have hchain := hlinked.chain
  have htaken := hlinked.taken
  rw [h.sink] at hchain htaken
  exact reactAll_linked rfl h.sound hchain (Inlet.read_tells h.orderly h.paced hpaired hread) hemits
    (fun _ => hpaired.taken_iff.mpr) fun hjoined => hpaired.taken_iff.mp (htaken hjoined)

end Line

/-! ## Pipes that nobody has ended -/

/-- What a writer has done that may push. -/
def Standing.writing : Standing :=
  { finish := none, closed := false, held := true }

/-- A push by a writer that serves its consumer, and has not ended the stream, fails or is
handed over. -/
theorem Line.push_of_writing {l : Line}
    (hserves : ∀ {o : Outlet}, l.chain.writer? = some o → 0 < o.ledger.demand.items →
      o.Serving ∧ o.standing = .writing)
    {item : Octets} {answer : Except Failure Unit} {after : Line}
    (hpush : l.push item = some (answer, after)) :
    after = l ∨ ∃ o, l.chain.writer? = some o ∧ 0 < o.ledger.demand.items ∧
      o.downstream = .attached ∧
        after = (l.atWriter (handover o.ledger.spent item)).atWriter
          (quietly (Outlet.counted item.length)) := by
  have hpushes := pushes_push item l
  rw [hpush] at hpushes
  cases hpushes with
  | refused f => exact .inl rfl
  | unattached o hwriter hdemand hnobody f =>
      obtain ⟨hserving, hst⟩ := hserves hwriter hdemand
      refine absurd (hserving.attached ?_ (congrArg Standing.closed hst)
        (congrArg Standing.held hst)).1 hnobody
      rw [hst]
      exact ⟨rfl, rfl⟩
  | accepted o hwriter hopen hdemand hattached =>
      exact .inr ⟨o, hwriter, hdemand, hattached, rfl⟩

/-- Whatever a writer does that does not end the stream is to push, if it is anything. -/
theorem Writer.step_of_writing {s : WriterStep}
    (hwriting : (PipeEvent.writes s).endsWriting = false) (l : Line) :
    ((step s).carry [] l).2 = l ∨
      ∃ item answer, l.push item = some (answer, ((step s).carry [] l).2) := by
  have hsteps := steps_step s l
  generalize (step s).carry [] l = stepped at hsteps ⊢
  cases hsteps with
  | idles r hnothing => exact .inl rfl
  | pushes item hitem hheld answer after hpush r hreply => exact .inr ⟨item, answer, hpush⟩
  | closes hfinish hheld r =>
      subst hfinish
      cases hwriting
  | leaves hdrop hheld r =>
      subst hdrop
      cases hwriting

namespace Pipe

/-- A pipe that delivers and is linked, and whose writer may push. -/
structure Joins (joined : Prop) (n : Nat) (t : Pipe) : Prop where
  delivers : ∃ given b, t.Delivers n .writing given b
  linked : t.line.Linked joined

variable {joined : Prop} {n : Nat} {t : Pipe}

/-- An item that is handed over leaves the line linked. -/
theorem Delivers.push_linked {given : Octets} {b : Inlet Unit}
    (h : t.Delivers n .writing given b) (hlinked : t.line.Linked joined) {item : Octets}
    {answer : Except Failure Unit} {after : Line}
    (hpush : t.line.push item = some (answer, after)) : after.Linked joined := by
  rcases Line.push_of_writing (fun hwriter _ => h.serving hwriter) hpush with
    rfl | ⟨o, hwriter, hdemand, hattached, rfl⟩
  · exact hlinked
  · obtain ⟨hspent, hemits⟩ := (h.serving hwriter).1.spend hdemand hattached item
    obtain ⟨b₁, hcarries⟩ := h.carries.atWriter
      (f := Line.handover o.ledger.spent item) hwriter hspent hemits
    have hhanded := h.carries.atWriter_linked hlinked
      (f := Line.handover o.ledger.spent item) hwriter hspent hemits
    obtain ⟨o₁, hwriter₁, -⟩ := Option.map_eq_some_iff.mp
      (Line.atWriter_standing hwriter (Line.handover o.ledger.spent item)).1
    obtain ⟨hcounted, hport⟩ := (hcarries.sound.serving hwriter₁).of_counted item.length
    exact hcarries.atWriter_linked hhanded hwriter₁
      (f := Line.quietly (Outlet.counted item.length)) hcounted (congrArg some hport.symm)

/-- Whatever happens leaves a pipe linked while nobody ends the stream. -/
theorem Joins.step (h : t.Joins joined n) {e : PipeEvent} (hreading : e.endsReading = false)
    (hwriting : e.endsWriting = false) : (t.step e).Joins joined n := by
  obtain ⟨given, b, hdelivers⟩ := h.delivers
  have hlinked := h.linked
  constructor
  · obtain ⟨st', given', b', hdelivers', hhonest, hclosed, hheld⟩ :=
      hdelivers.step ⟨rfl, rfl⟩ hreading
    have hopen : st'.closed = false := by
      by_contra hends
      rcases hclosed.mp (by simpa using hends) with hbefore | ⟨rfl, -⟩
      · cases hbefore
      · cases hwriting
    have hthere : st'.held = true := by
      by_contra hgone
      rcases hheld.mp (by simpa using hgone) with hbefore | rfl
      · cases hbefore
      · cases hwriting
    have hsame : st' = .writing := by
      obtain ⟨finish, closed, held⟩ := st'
      obtain rfl : closed = false := hopen
      obtain rfl : held = true := hthere
      cases finish with
      | none => rfl
      | some f => cases f <;> simp [Standing.Honest] at hhonest
    exact ⟨given', b', hsame ▸ hdelivers'⟩
  · have hcarries := hdelivers.carries
    cases e with
    | ticks =>
        simp only [Pipe.step]
        cases htick : t.line.tick with
        | none => exact hlinked
        | some line => exact hcarries.tick_linked hlinked htick
    | prefers task => exact hlinked.prefer task
    | writes s =>
        change ((Writer.step s).carry [] t.line).2.Linked joined
        rcases Writer.step_of_writing hwriting t.line with hsame | ⟨item, answer, hpush⟩
        · rwa [hsame]
        · exact hdelivers.push_linked hlinked hpush
    | reads call =>
        simp only [Pipe.step]
        split
        · simp only [Pipe.read]
          rw [Line.attempt_answer hcarries.sink]
          cases hread : b.read call.wanted t.line.interrupted with
          | none => exact hlinked
          | some a => exact hcarries.read_linked hlinked hread
        · exact hlinked
    | closes => cases hreading
    | readerLeaves => cases hreading
    | interrupts => exact ⟨hlinked.chain, hlinked.taken⟩
    | polls =>
        rw [(step_of_inlet hcarries.sink).1]
        exact hlinked
    | streamLeaves =>
        rw [(step_of_inlet hcarries.sink).2]
        exact hlinked

/-- A pipe that nobody ends stays linked. -/
theorem Joins.run (h : t.Joins joined n) {events : List PipeEvent}
    (hreading : ∀ e ∈ events, e.endsReading = false)
    (hwriting : ∀ e ∈ events, e.endsWriting = false) : (t.run events).Joins joined n :=
  run_keeps (fun e hmem h => h.step (hreading e hmem) (hwriting e hmem)) h

/-- A pipe that was just put together is linked. -/
theorem start_joins (contentLength n : Nat) (interrupted : Bool) :
    (start contentLength n .reader interrupted).Joins False n := by
  refine ⟨?_, ?_, False.elim⟩
  · obtain ⟨b, hdelivers⟩ := start_delivers contentLength n interrupted
    exact ⟨[], b, hdelivers⟩
  · cases n with
    | zero =>
        obtain ⟨journal, hline⟩ := start_zero_reader contentLength interrupted
        rw [hline]
        trivial
    | succ n =>
        obtain ⟨journal, hline⟩ := start_succ contentLength n .reader interrupted
        have hfirst : (Chain.hop (.writer (Outlet.greeted contentLength))
            { inbox := [.subscribed ()] } {}).Linked False False :=
          ⟨trivial, fun _ _ => ⟨id, False.elim⟩⟩
        rw [hline]
        exact (hfirst.extend n).mono fun htaken => htaken rfl

/-- In an idle pipe every hop has taken its subscription. -/
theorem Joins.of_idle (h : t.Joins joined n) (hidle : t.line.isIdle = true) : t.Joins True n := by
  obtain ⟨given, b, hdelivers⟩ := h.delivers
  have hcarries := hdelivers.carries
  have htended := Line.tended_of_idle hcarries.tended hidle
  have htaken : t.line.sink.Taken := by
    obtain ⟨q, hpaired, hemits⟩ := hcarries.paired
    have hq : q = t.line.chain.port := Option.some.inj hemits
    rw [hcarries.sink]
    exact hpaired.taken_iff.mpr (hq ▸ Chain.idle_greeted hcarries.sound htended)
  refine ⟨h.delivers, ?_, fun _ => htaken⟩
  exact (h.linked.chain.of_idle hcarries.sound htended hdelivers.standing rfl htaken).mono
    fun _ => trivial

end Pipe
end CreditFlow
