import CreditFlow.Proofs.ChainCut
import CreditFlow.Proofs.InletClosing
import CreditFlow.Proofs.PipeLink

/-!
# How a cancellation goes through a pipe

When the reader of a pipe is closed, its inlet cancels the last publisher, and the cancellation
goes from there to the writer.  Until it has arrived the writer may push as before; nobody hears
of it any more.  When the pipe is idle again the cancellation has arrived, and from then on
nothing comes through at all: the writer is told so by whatever it tries, and the reader is left
with the bytes that it had.

Main results:

- {lit}`Pipe.Joins.quits`: closing the reader sends a cancellation on its way.
- {lit}`Line.Cancels.tick`, {lit}`Line.Cancels.push`: it is not lost.
- {lit}`Line.Cancels.severed`: in an idle line it has arrived.
- {lit}`Pipe.run_cancels_writer`: what the writer and the reader are told afterwards.
- {lit}`Pipe.writer_closes_before_it_is_told`: an end can overtake the cancellation.
-/

namespace CreditFlow

/-! ## Closed inlets -/

/-- An inlet that was closed before it had heard of an end. -/
structure Inlet.Quit (b : Inlet Unit) : Prop where
  orderly : b.Orderly
  closed : b.slot = .closed
  unended : b.ends = []

namespace Inlet

variable {b : Inlet Unit}

/-- Closing an inlet that has heard of no end, and letting go of it. -/
theorem Orderly.quit (h : b.Orderly) (hopen : b.terminated = false) (held : Bool) :
    { b.close.1 with readerHeld := held }.Quit := by
  have hends : b.close.1.ends = b.ends := by
    unfold close
    split <;> rfl
  refine ⟨(close_orderly h).of_eq rfl rfl rfl rfl rfl, close_slot b, ?_⟩
  exact hends.trans (h.ends_eq_nil hopen)

/-- A closed inlet stays what it is when it is closed again. -/
theorem Quit.close (h : b.Quit) (held : Bool) : { b.close.1 with readerHeld := held }.Quit ∧
    { b.close.1 with readerHeld := held }.unread = b.unread ∧ b.close.2 = [] := by
  have hsame : b.close = (b, []) := by simp [Inlet.close, h.closed]
  rw [hsame]
  exact ⟨⟨h.orderly.of_eq rfl rfl rfl rfl rfl, h.closed, h.unended⟩, rfl, rfl⟩

/-- A call at a closed inlet asks for nothing. -/
theorem Quit.read (h : b.Quit) {n : Nat} {interrupted : Bool}
    {a : Answer Unit (Except Failure Octets)} (hread : b.read n interrupted = some a) :
    a.after.Quit ∧ Reaction.controls a.reactions = [] := by
  refine ⟨⟨read_orderly h.orderly hread, (read_ahead h.orderly hread).slot.trans h.closed,
    (read_ends h.orderly hread).trans h.unended⟩, ?_⟩
  refine List.filterMap_eq_nil_iff.mpr fun r hr => ?_
  cases r with
  | control handle c =>
      have hslot := (read_control h.orderly hread hr).1
      rw [h.closed] at hslot
      cases hslot
  | note n => rfl
  | interrupt => rfl

end Inlet

/-! ## What goes on behind the chain -/

namespace Line

variable {l l' : Line} {b : Inlet Unit}

/-- The chain and its tasks are left alone; some tasks may have been woken. -/
structure Still (l l' : Line) : Prop where
  chain : l'.chain = l.chain
  running : l'.running = l.running
  ready : ∀ k ∈ l.ready, k ∈ l'.ready

theorem Still.refl (l : Line) : l.Still l :=
  ⟨rfl, rfl, fun _ hk => hk⟩

/-- An inlet that asks for nothing leaves the chain alone. -/
theorem commit_still (l : Line) (b : Inlet Unit) {rs : List (Reaction Unit)}
    (hnothing : Reaction.controls rs = []) : l.Still (l.commit b rs) := by
  obtain ⟨hchain, -, hrunning, hready⟩ := reactAll_parts rs { l with sink := .inlet b }
  rw [hnothing] at hchain hready
  exact ⟨hchain, hrunning, fun k hk => hready k (List.mem_append_left _ hk)⟩

/-- Nobody but a stream takes notice of a farewell. -/
theorem hears_farewell (hstream : l.sink.stream? = none) {es : List Emission}
    (hfarewell : ∀ e ∈ es, e = .hangUp) : es.foldl hear l = l := by
  induction es with
  | nil => rfl
  | cons e es ih =>
      obtain rfl := hfarewell e List.mem_cons_self
      have hsame : l.hear .hangUp = l := by
        simp only [hear, Sink.hear_hangUp hstream, List.append_nil, Bool.or_false]
        rfl
      rw [List.foldl_cons, hsame]
      exact ih fun e hmem => hfarewell e (List.mem_cons_of_mem _ hmem)

/-- When nothing but a farewell leaves the chain, whoever stands behind it stays as it is. -/
theorem absorb_farewell (hstream : l.sink.stream? = none) (hlistener : l.sink.listener? = none)
    {r : Chain × Burst} (hfarewell : ∀ e ∈ r.2.emissions, e = .hangUp) :
    (l.absorb r).sink = l.sink ∧ (l.absorb r).chain = r.1 ∧ (l.absorb r).running = l.running ∧
      ∀ k ∈ l.ready ++ r.2.wakes, k ∈ (l.absorb r).ready := by
  let placed : Line := { l with chain := r.1 }.note r.2.notes
  have hafter : l.absorb r = placed.wake r.2.wakes := by
    have hstream' : placed.sink.stream? = none := hstream
    have hlistener' : placed.sink.listener? = none := hlistener
    simp only [absorb]
    rw [hears_farewell hstream' hfarewell, performs_of_no_listener r.2.acts hlistener']
  rw [hafter]
  exact ⟨rfl, rfl, rfl, fun k hk => (mem_wake _ _).mpr (List.mem_append.mp hk)⟩

/-- An inlet is neither a stream nor a listener. -/
theorem absorb_at_inlet (hsink : l.sink = .inlet b) {r : Chain × Burst}
    (hfarewell : ∀ e ∈ r.2.emissions, e = .hangUp) :
    (l.absorb r).sink = .inlet b ∧ (l.absorb r).chain = r.1 ∧ (l.absorb r).running = l.running ∧
      ∀ k ∈ l.ready ++ r.2.wakes, k ∈ (l.absorb r).ready := by
  rw [← hsink]
  exact absorb_farewell (by rw [hsink]; rfl) (by rw [hsink]; rfl) hfarewell

/-! ## Until the cancellation has arrived -/

/-- A cancellation is on its way through a line whose inlet is closed, and the writer may still
push. -/
structure Cancels (b : Inlet Unit) (l : Line) : Prop where
  sink : l.sink = .inlet b
  cut : l.chain.Cut l.ready l.running
  standing : l.chain.standing = some .writing

/-- It goes on while something else happens at the end of the line. -/
theorem Cancels.still (h : l.Cancels b) (hstill : l.Still l') {b' : Inlet Unit}
    (hsink : l'.sink = .inlet b') : l'.Cancels b' := by
  refine ⟨hsink, ?_, ?_⟩
  · rw [hstill.chain, hstill.running]
    exact h.cut.mono hstill.ready
  · rw [hstill.chain]
    exact h.standing

/-- It goes on when the chain has changed and has said nothing but farewell. -/
theorem Cancels.absorb (hsink : l.sink = .inlet b) {r : Chain × Burst}
    (hfarewell : ∀ e ∈ r.2.emissions, e = .hangUp)
    (hcut : r.1.Cut (l.ready ++ r.2.wakes) l.running)
    (hstanding : r.1.standing = some .writing) : (l.absorb r).Cancels b := by
  obtain ⟨hsink', hchain, hrunning, hready⟩ := absorb_at_inlet hsink hfarewell
  refine ⟨hsink', ?_, ?_⟩
  · rw [hchain, hrunning]
    exact hcut.mono hready
  · rw [hchain]
    exact hstanding

/-- It goes on with every move. -/
theorem Cancels.tick (h : l.Cancels b) (htick : l.tick = some l') : l'.Cancels b := by
  have hcut := h.cut
  unfold Line.tick at htick
  cases hrunning : l.running with
  | some k =>
      rw [hrunning] at htick hcut
      cases htick
      obtain ⟨hturned, hfarewell⟩ := hcut.turn h.standing rfl
      let stopped : Line := { l with running := Chain.runningAfter k (l.chain.turn k).2 }
      exact Cancels.absorb (l := stopped) h.sink hfarewell hturned
        ((Chain.turn_standing k l.chain).trans h.standing)
  | none =>
      rw [hrunning] at htick hcut
      cases hready : l.ready with
      | nil =>
          rw [hready] at htick
          cases htick
      | cons k rest =>
          rw [hready] at htick hcut
          cases htick
          exact ⟨h.sink, hcut.starts, h.standing⟩

/-- Which task comes first does not matter. -/
theorem prefer_still (task : Nat) (l : Line) :
    l.Still (l.prefer task) ∧ (l.prefer task).sink = l.sink := by
  obtain ⟨ready, hprefer, hready⟩ := l.prefer_eq task
  rw [hprefer]
  exact ⟨⟨rfl, rfl, hready⟩, rfl⟩

/-- What the writer signals that has not been told of the cancellation gets lost on its way. -/
theorem Cancels.atWriter (h : l.Cancels b) {o : Outlet} (hwriter : l.chain.writer? = some o)
    (huncut : ¬o.Cut) {f : Outlet → Outlet × List Notice × List Emission}
    (hserving : (f o).1.Serving) (hemits : o.port.emits (f o).2.2 = some (f o).1.port)
    (hstanding : (f o).1.standing = .writing) :
    (l.atWriter f).Cancels b ∧ (l.atWriter f).chain.writer? = some (f o).1 := by
  obtain ⟨hcut, hwriter', hnothing⟩ := h.cut.atWriter hwriter huncut hserving hemits
  have hfarewell : ∀ e ∈ (l.chain.atWriter f).2.emissions, e = .hangUp := by simp [hnothing]
  refine ⟨.absorb h.sink hfarewell hcut ?_, ?_⟩
  · rw [Chain.standing, hwriter', Option.map_some, hstanding]
  · rw [Line.atWriter, (absorb_at_inlet h.sink hfarewell).2.1]
    exact hwriter'

/-- It goes on while the writer pushes. -/
theorem Cancels.push (h : l.Cancels b) {item : Octets} {answer : Except Failure Unit}
    {after : Line} (hpush : l.push item = some (answer, after)) : after.Cancels b := by
  -- A writer with credit has not been told, so it serves its consumer.
  have hserves : ∀ {o : Outlet}, l.chain.writer? = some o → 0 < o.ledger.demand.items →
      ¬o.Cut ∧ o.Serving ∧ o.standing = .writing := by
    intro o hwriter hdemand
    have huncut : ¬o.Cut := fun hcut => by
      have hspent := hcut.spent
      omega
    have hst := h.standing
    rw [Chain.standing, hwriter] at hst
    exact ⟨huncut, (h.cut.writer_cases hwriter).resolve_left huncut, Option.some.inj hst⟩
  rcases Line.push_of_writing (fun hwriter hdemand => (hserves hwriter hdemand).2) hpush with
    rfl | ⟨o, hwriter, hdemand, hattached, rfl⟩
  · exact h
  · obtain ⟨huncut, hserving, hst⟩ := hserves hwriter hdemand
    obtain ⟨hspent, hemits⟩ := hserving.spend hdemand hattached item
    obtain ⟨hhanded, hwriter₁⟩ := h.atWriter (f := Line.handover o.ledger.spent item) hwriter
      huncut hspent hemits hst
    obtain ⟨hcounted, hport⟩ := hspent.of_counted item.length
    have huncut₁ : ¬{ o with ledger := o.ledger.spent }.Cut := fun hcut => by
      have htold := hcut.cancelled
      rw [hspent.uncancelled] at htold
      cases htold
    exact (hhanded.atWriter (f := Line.quietly (Outlet.counted item.length)) hwriter₁ huncut₁
      hcounted (congrArg some hport.symm) hst).1

end Line

/-! ## A writer that was told -/

namespace Outlet

variable {o : Outlet}

/-- The end of a stream that was cancelled is told to nobody. -/
theorem Cut.ending (h : o.Cut) (f : Finish) :
    (Line.ending f true o).1.Cut ∧ ∀ e ∈ (Line.ending f true o).2.2, e = .hangUp := by
  have hputDown : (o.putDown f).Cut := ⟨h.cancelled, h.spent⟩
  simp only [Line.ending, Line.fuse]
  unfold conclude
  cases (o.putDown f).downstream with
  | waiting => exact ⟨hputDown, nofun⟩
  | attached => exact ⟨⟨hputDown.cancelled, hputDown.spent⟩, fun e he => List.mem_singleton.mp he⟩
  | done => exact ⟨hputDown, nofun⟩

/-- Giving an end is not closing. -/
theorem ending_closed (f : Finish) (silent : Bool) (o : Outlet) :
    (Line.ending f silent o).1.closed = o.closed := by
  simp only [Line.ending, Line.fuse, conclude]
  split <;> rfl

/-- All that a writer tells whoever stands right behind it when it takes a step. -/
def tells (s : WriterStep) (interrupted : Bool) (o : Outlet) : List Record :=
  let alone : Line := { chain := .writer o, sink := .recorder {}, interrupted := interrupted }
  ((((Writer.step s).carry [] alone).2.sink.recorder?).map Recorder.records).getD []

end Outlet

namespace Line

/-- A push fails. -/
theorem push_of_cut {l : Line} {o : Outlet} (hwriter : l.chain.writer? = some o) (hcut : o.Cut)
    (item : Octets) :
    l.push item =
      some (.error (.condition (if o.closed then .closed else .cancelled)), l) := by
  simp only [push, hwriter, Option.bind_some, Ledger.take, hcut.cancelled, if_true]
  cases o.closed <;> rfl

end Line

namespace Writer

/-- Where `holds` the writer has been told of the cancellation, and whatever it does changes
nothing of that, as long as it says nothing but farewell. -/
structure Mutes (holds : Line → Prop) : Prop where
  told : ∀ {l : Line}, holds l → ∃ o, l.chain.writer? = some o ∧ o.Cut
  keeps : ∀ {l : Line} {o : Outlet} {f : Outlet → Outlet × List Notice × List Emission},
    holds l → l.chain.writer? = some o → (f o).1.Cut → (∀ e ∈ (f o).2.2, e = .hangUp) →
      holds (l.atWriter f)

variable {holds : Line → Prop} {l : Line}

/-- What touches no ledger leaves the writer told. -/
theorem Mutes.quietly (h : Mutes holds) (hl : holds l) {f : Outlet → Outlet × List Notice}
    (hledger : ∀ o, (f o).1.ledger = o.ledger) : holds (l.atWriter (Line.quietly f)) := by
  obtain ⟨o, hwriter, hcut⟩ := h.told hl
  refine h.keeps hl hwriter ⟨?_, ?_⟩ nofun
  · exact (congrArg Ledger.cancelled (hledger o)).trans hcut.cancelled
  · exact (congrArg (fun ledger => ledger.demand.items) (hledger o)).trans hcut.spent

/-- Closing does, too: the end is told to nobody. -/
theorem Mutes.closes (h : Mutes holds) (hl : holds l) : holds l.closeWriter.2 := by
  obtain ⟨o, hwriter, hcut⟩ := h.told hl
  rcases l.closeWriter_cases with ⟨hsame, -⟩ | ⟨o', hwriter', -, hafter⟩
  · rwa [hsame]
  · obtain rfl := Option.some.inj (hwriter.symm.trans hwriter')
    have hshut : o.shut.1.Cut := ⟨hcut.cancelled, hcut.spent⟩
    obtain ⟨hended, hfarewell⟩ := hshut.ending .complete
    rw [hafter, hcut.cancelled]
    exact h.keeps hl hwriter hended hfarewell

/-- So does going away. -/
theorem Mutes.leaves (h : Mutes holds) (hl : holds l) : holds l.dropWriter := by
  obtain ⟨o, hwriter, hcut⟩ := h.told hl
  rcases l.dropWriter_cases with ⟨hsame, -⟩ | ⟨o', hwriter', ⟨-, hafter⟩ | ⟨-, hafter⟩⟩
  · rwa [hsame]
  · rw [hafter]
    exact h.quietly hl fun _ => rfl
  · obtain rfl := Option.some.inj (hwriter.symm.trans hwriter')
    obtain ⟨hended, hfarewell⟩ := hcut.ending .abandoned
    rw [hafter, hcut.cancelled]
    exact h.quietly (h.keeps hl hwriter hended hfarewell) fun _ => rfl

/-- A writer that goes away does not close the stream. -/
theorem closed_of_leaves {o : Outlet} (hafter : l.dropWriter.chain.writer? = some o)
    (hclosed : o.closed = true) : ∃ o', l.chain.writer? = some o' ∧ o'.closed = true := by
  rcases l.dropWriter_cases with ⟨hsame, -⟩ | ⟨o', hwriter, ⟨hbefore, -⟩ | ⟨hopen, hleft⟩⟩
  · rw [hsame] at hafter
    exact ⟨o, hafter, hclosed⟩
  · exact ⟨o', hwriter, hbefore⟩
  · -- It was open before, and neither step has closed it.
    obtain ⟨o₁, hwriter₁, hst₁⟩ := Option.map_eq_some_iff.mp
      (Line.atWriter_standing hwriter (Line.ending .abandoned o'.ledger.cancelled)).1
    have hst := (Line.atWriter_standing hwriter₁ (Line.quietly fun o => (o.dropWriter, []))).1
    rw [← hleft, Chain.standing, hafter, Option.map_some] at hst
    have hkept : o.closed = o'.closed := calc
      o.closed = o₁.closed := congrArg Standing.closed (Option.some.inj hst)
      _ = (Line.ending .abandoned o'.ledger.cancelled o').1.closed :=
        congrArg Standing.closed hst₁
      _ = o'.closed := Outlet.ending_closed _ _ o'
    rw [hkept, hopen] at hclosed
    cases hclosed

/-- No step of the writer changes anything of it, no push succeeds, and only closing closes the
stream. -/
theorem Mutes.carry (h : Mutes holds) (hl : holds l) (s : WriterStep) :
    holds ((step s).carry [] l).2 ∧
      (((step s).carry [] l).1.isAccepted = true → s.item? = none) ∧
      ∀ o, ((step s).carry [] l).2.chain.writer? = some o → o.closed = true →
        s = .finish ∨ ∃ o', l.chain.writer? = some o' ∧ o'.closed = true := by
  have hsteps := steps_step s l
  generalize (step s).carry [] l = stepped at hsteps ⊢
  cases hsteps with
  | idles r hnothing => exact ⟨hl, hnothing, fun o hwriter hclosed => .inr ⟨o, hwriter, hclosed⟩⟩
  | pushes item hitem hheld answer after hpush r hreply =>
      obtain ⟨o, hwriter, hcut⟩ := h.told hl
      rw [Line.push_of_cut hwriter hcut item] at hpush
      cases hpush
      refine ⟨hl, fun haccepted => ?_, fun o hwriter hclosed => .inr ⟨o, hwriter, hclosed⟩⟩
      cases hreply.mp haccepted
  | closes hstep hheld r =>
      subst hstep
      exact ⟨h.closes hl, fun _ => rfl, fun _ _ _ => .inl rfl⟩
  | leaves hstep hheld r =>
      subst hstep
      exact ⟨h.leaves hl, fun _ => rfl,
        fun _ hafter hclosed => .inr (closed_of_leaves hafter hclosed)⟩

/-- The first close says that the consumer has cancelled. -/
theorem Mutes.close_fails (h : Mutes holds) (hl : holds l) {o : Outlet}
    (hwriter : l.chain.writer? = some o) (hopen : o.closed = false) :
    l.closeWriter.1 = .error (.condition .cancelled) := by
  obtain ⟨o', hwriter', hcut⟩ := h.told (h.closes hl)
  simp only [Line.closeWriter, hwriter, hopen, Bool.false_eq_true, if_false] at hwriter' ⊢
  split at hwriter' <;> simp_all [hcut.cancelled]

end Writer

/-- A writer that was told of the cancellation tells nobody anything. -/
theorem Outlet.Cut.tells {o : Outlet} (h : o.Cut) (s : WriterStep) (interrupted : Bool) :
    o.tells s interrupted = [] := by
  let holds : Line → Prop := fun l =>
    (∃ o : Outlet, l.chain = .writer o ∧ o.Cut) ∧ l.sink = .recorder {}
  have hmutes : Writer.Mutes holds := by
    constructor
    · rintro l ⟨⟨o, hchain, hcut⟩, -⟩
      exact ⟨o, by rw [hchain]; rfl, hcut⟩
    · rintro l o f ⟨⟨o', hchain, -⟩, hsink⟩ hwriter hcut hfarewell
      rw [hchain] at hwriter
      cases hwriter
      have hmoved : l.chain.atWriter f =
          (.writer (f o).1, { notes := (f o).2.1, emissions := (f o).2.2 }) := by
        rw [hchain]
        rfl
      obtain ⟨hsink', hchain', -⟩ := Line.absorb_farewell (l := l) (by rw [hsink]; rfl)
        (by rw [hsink]; rfl) (r := l.chain.atWriter f) (by rw [hmoved]; exact hfarewell)
      exact ⟨⟨_, hchain'.trans (congrArg Prod.fst hmoved), hcut⟩, hsink'.trans hsink⟩
  let alone : Line := { chain := .writer o, sink := .recorder {}, interrupted := interrupted }
  have halone : holds alone := ⟨⟨o, rfl, h⟩, rfl⟩
  rw [Outlet.tells, (hmutes.carry halone s).1.2]
  rfl

/-- One that was not told is heard. -/
example :
    { Outlet.greeted 1 with ledger := { demand := Demand.zero.grant 1 } }.tells
      (.push [7]) false = [.next [7]] := by decide +kernel

/-! ## When the cancellation has arrived -/

namespace Line

variable {l l' : Line} {b : Inlet Unit}

/-- The cancellation has arrived, and nothing comes through the line any more. -/
structure Severed (b : Inlet Unit) (l : Line) : Prop where
  sink : l.sink = .inlet b
  chain : l.chain.Severed

/-- In an idle line the cancellation has arrived. -/
theorem Cancels.severed (h : l.Cancels b) (hidle : l.isIdle = true) : l.Severed b := by
  have hcut := h.cut
  obtain ⟨hrunning, hready⟩ := (isIdle_iff l).mp hidle
  rw [hrunning, hready] at hcut
  exact ⟨h.sink, hcut.severed⟩

/-- A task that is to run finds nothing to do. -/
theorem Severed.tick (h : l.Severed b) (htick : l.tick = some l') :
    l'.sink = .inlet b ∧ l'.chain = l.chain := by
  unfold Line.tick at htick
  split at htick
  · rename_i k hrunning
    cases htick
    rw [h.chain.turn k]
    exact ⟨h.sink, rfl⟩
  · split at htick
    · cases htick
    · cases htick
      exact ⟨h.sink, rfl⟩

/-- Nothing that the writer does comes through. -/
theorem mutes_severed (b : Inlet Unit) : Writer.Mutes (Severed b) := by
  refine ⟨fun h => h.chain.writer, fun {l o f} h hwriter hcut hfarewell => ?_⟩
  obtain ⟨hsevered, hfarewell'⟩ := h.chain.atWriter hwriter hcut hfarewell
  obtain ⟨hsink, hchain, -⟩ := absorb_at_inlet h.sink hfarewell'
  refine ⟨hsink, ?_⟩
  rw [Line.atWriter, hchain]
  exact hsevered

end Line

/-! ## Pipes whose reader was closed -/

/-- Whether an event happens at the end of a pipe. -/
def PipeEvent.atEnd : PipeEvent → Bool
  | .ticks => false
  | .prefers _ => false
  | .writes _ => false
  | _ => true

namespace Pipe

variable {text : Octets} {b : Inlet Unit} {t : Pipe} {e : PipeEvent}

/-- The reader of a pipe was closed; `text` is what it has been given and what is left for it. -/
structure Quits (text : Octets) (b : Inlet Unit) (t : Pipe) : Prop where
  quit : b.Quit
  kept : t.returned ++ b.unread = text

/-- Something has happened at the end of a pipe whose reader was closed: the chain was left
alone, and nothing was taken from the reader. -/
def Spares (text : Octets) (t t' : Pipe) : Prop :=
  ∃ b, t'.line.sink = .inlet b ∧ t'.Quits text b ∧ t.line.Still t'.line ∧
    t'.accepted = t.accepted

/-- Whoever closes the reader, and whether or not it goes away, the inlet is closed. -/
theorem step_of_endsReading (hsink : t.line.sink = .inlet b) (hending : e.endsReading = true) :
    ∃ held, t.step e =
      { t with line := t.line.commit { b.close.1 with readerHeld := held } b.close.2 } := by
  have hinlet : HasInlet.inlet? t.line = some b := by
    change t.line.sink.inlet? = some b
    rw [hsink]
    rfl
  cases e with
  | closes =>
      refine ⟨b.close.1.readerHeld, ?_⟩
      simp only [Pipe.step, Reader.change, hinlet]
      rfl
  | readerLeaves =>
      refine ⟨false, ?_⟩
      simp only [Pipe.step, Reader.change, hinlet]
      rfl
  | _ => cases hending

/-- Nothing else happens at the end of a pipe whose reader was closed. -/
theorem Quits.step (h : t.Quits text b) (hsink : t.line.sink = .inlet b)
    (hend : e.atEnd = true) : t.Spares text (t.step e) := by
  have hsame : t.Spares text t := ⟨b, hsink, h, .refl _, rfl⟩
  have hcommitted : ∀ (b' : Inlet Unit) (rs : List (Reaction Unit)),
      (t.line.commit b' rs).sink = .inlet b' :=
    fun b' rs => (Line.reactAll_parts rs { t.line with sink := .inlet b' }).2.1
  have hclosed : e.endsReading = true → t.Spares text (t.step e) := by
    intro hending
    obtain ⟨held, hstep⟩ := step_of_endsReading hsink hending
    obtain ⟨hquit, hunread, hnothing⟩ := h.quit.close held
    rw [hstep, hnothing]
    refine ⟨_, hcommitted _ _, ⟨hquit, ?_⟩, Line.commit_still _ _ rfl, rfl⟩
    rw [hunread]
    exact h.kept
  cases e with
  | ticks => cases hend
  | prefers task => cases hend
  | writes s => cases hend
  | reads call =>
      simp only [Pipe.step]
      split
      · simp only [Pipe.read]
        rw [Line.attempt_answer hsink]
        cases hread : b.read call.wanted t.line.interrupted with
        | none => exact hsame
        | some a =>
            obtain ⟨hquit, hnothing⟩ := h.quit.read hread
            refine ⟨a.after, hcommitted _ _, ⟨hquit, ?_⟩, Line.commit_still _ _ hnothing, rfl⟩
            change (t.returned ++ Inlet.bytes a.value) ++ a.after.unread = text
            rw [List.append_assoc, Inlet.read_unread h.quit.orderly hread]
            exact h.kept
      · exact hsame
  | closes => exact hclosed rfl
  | readerLeaves => exact hclosed rfl
  | interrupts => exact ⟨b, hsink, ⟨h.quit, h.kept⟩, ⟨rfl, rfl, fun _ hk => hk⟩, rfl⟩
  | polls =>
      rw [(step_of_inlet hsink).1]
      exact hsame
  | streamLeaves =>
      rw [(step_of_inlet hsink).2]
      exact hsame

/-- Closing the reader sends a cancellation on its way. -/
theorem Joins.quits {n : Nat} (h : t.Joins True n) (hsink : t.line.sink = .inlet b)
    (hending : e.endsReading = true) :
    ∃ b', (t.step e).line.Cancels b' ∧ (t.step e).Quits (t.returned ++ b.unread) b' := by
  obtain ⟨given, b₀, hdelivers⟩ := h.delivers
  have hcarries := hdelivers.carries
  obtain rfl : b₀ = b := Sink.inlet.inj (hcarries.sink.symm.trans hsink)
  obtain ⟨q, hpaired, hemits⟩ := hcarries.paired
  have hq : q = t.line.chain.port := Option.some.inj hemits
  have hunended := hcarries.sound.isEnded_of_unfinished hdelivers.standing rfl
  -- The inlet has been greeted, and the stream has not ended: there is somebody to cancel.
  have htaken := h.linked.taken trivial
  rw [hsink] at htaken
  obtain ⟨credit, hlive⟩ :=
    Port.live_of_unended (hpaired.taken_iff.mp htaken) (hq ▸ hunended)
  have hinstalled : b₀.slot = .installed () ∧ b₀.terminated = false := by
    rw [hlive] at hpaired
    exact ⟨hpaired.1, hpaired.2.1⟩
  have hreactions : b₀.close.2 = [.note .closedAndCancelling, .control () .cancel] := by
    simp [Inlet.close, hinstalled.1, hinstalled.2]
  have htended := hcarries.tended
  rw [List.append_nil] at htended
  have hlinked : t.line.chain.Linked True True :=
    h.linked.chain.mono fun _ => h.linked.taken trivial
  have hcut : (t.line.chain.controls [.cancel]).1.Cut
      (t.line.ready ++ (t.line.chain.controls [.cancel]).2.2) t.line.running :=
    hcarries.sound.cut hlinked htended hdelivers.standing (hq.symm.trans hlive)
      (List.forall_mem_nil _)
  obtain ⟨held, hstep⟩ := step_of_endsReading hsink hending
  rw [hstep, hreactions]
  obtain ⟨hchain, hsink', hrunning, hready⟩ := Line.reactAll_parts
    [.note .closedAndCancelling, .control () .cancel]
    { t.line with sink := .inlet { b₀.close.1 with readerHeld := held } }
  refine ⟨_, ⟨hsink', ?_, ?_⟩, hcarries.orderly.quit hinstalled.2 held, ?_⟩
  · change (Line.commit _ _ t.line).chain.Cut _ _
    rw [Line.commit, hchain, hrunning]
    exact hcut.mono hready
  · change (Line.commit _ _ t.line).chain.standing = _
    rw [Line.commit, hchain, Chain.controls_standing]
    exact hdelivers.standing
  · exact congrArg (t.returned ++ ·) (Inlet.close_unread b₀)

/-- The reader was closed, and the cancellation is on its way. -/
def Cancelling (text : Octets) (t : Pipe) : Prop :=
  ∃ b, t.Quits text b ∧ t.line.Cancels b

/-- Whatever happens, as long as the writer does not end the stream, the cancellation goes on. -/
theorem Cancelling.step (h : t.Cancelling text) (hwriting : e.endsWriting = false) :
    (t.step e).Cancelling text := by
  obtain ⟨b, hquits, hcancels⟩ := h
  have hatEnd : e.atEnd = true → (t.step e).Cancelling text := by
    intro hend
    obtain ⟨b', hsink, hquits', hstill, -⟩ := hquits.step hcancels.sink hend
    exact ⟨b', hquits', hcancels.still hstill hsink⟩
  cases e with
  | ticks =>
      simp only [Pipe.step]
      cases htick : t.line.tick with
      | none => exact ⟨b, hquits, hcancels⟩
      | some line => exact ⟨b, ⟨hquits.quit, hquits.kept⟩, hcancels.tick htick⟩
  | prefers task =>
      obtain ⟨hstill, hsink⟩ := Line.prefer_still task t.line
      exact ⟨b, ⟨hquits.quit, hquits.kept⟩, hcancels.still hstill (hsink.trans hcancels.sink)⟩
  | writes s =>
      refine ⟨b, ⟨hquits.quit, hquits.kept⟩, ?_⟩
      change ((Writer.step s).carry [] t.line).2.Cancels b
      rcases Writer.step_of_writing hwriting t.line with hsame | ⟨item, answer, hpush⟩
      · rwa [hsame]
      · exact hcancels.push hpush
  | _ => exact hatEnd rfl

/-- The cancellation has arrived, and since then nothing of `events` has come through. -/
structure Silent (text : Octets) (accepted : List Octets) (events : List PipeEvent)
    (b : Inlet Unit) (t : Pipe) : Prop where
  quits : t.Quits text b
  severed : t.line.Severed b
  accepted : t.accepted = accepted
  closed : ∀ o, t.line.chain.writer? = some o → o.closed = true → .writes .finish ∈ events

/-- When the pipe is idle the cancellation has arrived. -/
theorem Cancelling.silent (h : t.Cancelling text) (hidle : t.line.isIdle = true)
    (events : List PipeEvent) : ∃ b, t.Silent text t.accepted events b := by
  obtain ⟨b, hquits, hcancels⟩ := h
  refine ⟨b, hquits, hcancels.severed hidle, rfl, fun o hwriter hclosed => ?_⟩
  have hst := hcancels.standing
  rw [Chain.standing, hwriter, Option.map_some] at hst
  have hopen : o.closed = false := congrArg Standing.closed (Option.some.inj hst)
  rw [hopen] at hclosed
  cases hclosed

/-- Nothing comes through any more, whatever happens. -/
theorem Silent.step {accepted : List Octets} {events : List PipeEvent}
    (h : t.Silent text accepted events b) (hmem : e ∈ events) :
    ∃ b', (t.step e).Silent text accepted events b' := by
  have hquits : ∀ line, { t with line := line }.Quits text b :=
    fun _ => ⟨h.quits.quit, h.quits.kept⟩
  -- As long as the writer does nothing, the chain stays what it is.
  have hkept : ∀ {t' : Pipe} {b' : Inlet Unit}, t'.Quits text b' → t'.line.sink = .inlet b' →
      t'.line.chain = t.line.chain → t'.accepted = t.accepted →
        ∃ b', t'.Silent text accepted events b' := by
    intro t' b' hquits' hsink hchain haccepted
    refine ⟨b', hquits', ⟨hsink, ?_⟩, haccepted.trans h.accepted, ?_⟩
    · rw [hchain]
      exact h.severed.chain
    · rw [hchain]
      exact h.closed
  have hatEnd : e.atEnd = true → ∃ b', (t.step e).Silent text accepted events b' := by
    intro hend
    obtain ⟨b', hsink, hquits', hstill, haccepted⟩ := h.quits.step h.severed.sink hend
    exact hkept hquits' hsink hstill.chain haccepted
  cases e with
  | ticks =>
      simp only [Pipe.step]
      cases htick : t.line.tick with
      | none => exact ⟨b, h⟩
      | some line =>
          obtain ⟨hsink, hchain⟩ := h.severed.tick htick
          exact hkept (hquits line) hsink hchain rfl
  | prefers task =>
      obtain ⟨hstill, hsink⟩ := Line.prefer_still task t.line
      exact hkept (hquits _) (hsink.trans h.severed.sink) hstill.chain rfl
  | writes s =>
      obtain ⟨hsevered, hnothing, hcloses⟩ := (Line.mutes_severed b).carry h.severed s
      refine ⟨b, ⟨h.quits.quit, h.quits.kept⟩, hsevered, ?_, fun o hwriter hclosed => ?_⟩
      · exact (Writer.accepted_of_nothing hnothing t.accepted).trans h.accepted
      · rcases hcloses o hwriter hclosed with rfl | ⟨o', hwriter', hclosed'⟩
        · exact hmem
        · exact h.closed o' hwriter' hclosed'
  | _ => exact hatEnd rfl

/-- Nothing comes through any more, however long the pipe runs on. -/
theorem Silent.run {accepted : List Octets} {events more : List PipeEvent}
    (h : t.Silent text accepted events b) (hmore : ∀ e ∈ more, e ∈ events) :
    ∃ b', (t.run more).Silent text accepted events b' := by
  have hstep : ∀ {t : Pipe}, ∀ e ∈ more, (∃ b, t.Silent text accepted events b) →
      ∃ b, (t.step e).Silent text accepted events b :=
    fun e he ⟨_, h⟩ => h.step (hmore e he)
  exact @run_keeps (fun t => ∃ b, t.Silent text accepted events b) more hstep t ⟨b, h⟩

/-! ## What is told afterwards -/

/-- The reader of a pipe, which has got the first part of `text`, gets the rest of it and
nothing more.  A call for some bytes does not have to wait: it returns the next ones, or
reports, when none is left, that the reader is closed. -/
def RunsDry (text : Octets) (t : Pipe) : Prop :=
  ∃ b, t.line.sink = .inlet b ∧ t.returned ++ b.unread = text ∧
    ∀ call : ReadCall, 0 < call.wanted →
      ∃ a, b.answer call t.line.interrupted = some a ∧
        (b.unread ≠ [] → ∃ o, o ≠ [] ∧ a.value = .ok o ∧ o ++ a.after.unread = b.unread) ∧
        (b.unread = [] → a.value = .error (.condition .closed))

/-- A reader that was closed gets the bytes that it still has, and nothing more. -/
theorem Quits.runsDry (h : t.Quits text b) (hsink : t.line.sink = .inlet b) :
    t.RunsDry text := by
  refine ⟨b, hsink, h.kept, fun call hwanted => ?_⟩
  obtain ⟨a, hread, hsome, hnone⟩ :=
    Inlet.read_of_closed h.quit.orderly h.quit.closed hwanted t.line.interrupted
  refine ⟨a, ?_, hsome, fun hnothing => ?_⟩
  · rw [Inlet.answer_eq_read, hread]
  · rw [hnone hnothing, Inlet.farewell, h.quit.unended]

/-- A pipe of any length has become idle after it was put together.  When its reader is closed,
or goes away, while the writer may still push, then a cancellation is on its way; the writer
does not end the stream before the pipe is idle again.

From then on the reader gets the bytes that wait for it, and after them is told that it is
closed.  As soon as the pipe is idle again, and whatever happens `later`:

- the writer has been cancelled, and has no credit;
- every push fails, with the cancellation as long as the writer has not closed the stream
  itself, and so does the first close;
- the writer tells nobody of an item or an end, whatever it does. -/
theorem run_cancels_writer (contentLength n : Nat) (interrupted : Bool)
    (connecting before : List PipeEvent) (ending : PipeEvent) (meanwhile later : List PipeEvent)
    (hconnected : ((start contentLength n .reader interrupted).run connecting).line.isIdle = true)
    (hreading : ∀ e ∈ connecting ++ before, e.endsReading = false)
    (hending : ending.endsReading = true)
    (hwriting : ∀ e ∈ connecting ++ before ++ meanwhile, e.endsWriting = false)
    (hidle : ((start contentLength n .reader interrupted).run
      (connecting ++ before ++ ending :: meanwhile)).line.isIdle = true) :
    let closing := (start contentLength n .reader interrupted).run (connecting ++ before)
    let told := (closing.step ending).run meanwhile
    let t := told.run later
    (∃ b, closing.line.sink = .inlet b ∧ ∀ events, events <+: meanwhile ++ later →
      ((closing.step ending).run events).RunsDry (closing.returned ++ b.unread)) ∧
    ∃ o, t.line.chain.writer? = some o ∧
      o.ledger.cancelled = true ∧ o.ledger.demand.items = 0 ∧
      (o.closed = true → .writes .finish ∈ later) ∧
      (∀ item, t.line.push item =
        some (.error (.condition (if o.closed then .closed else .cancelled)), t.line)) ∧
      (o.closed = false → t.line.closeWriter.1 = .error (.condition .cancelled)) ∧
      (∀ s, o.tells s t.line.interrupted = []) ∧ t.accepted = told.accepted := by
  intro closing told t
  have hjoined : closing.Joins True n := by
    have hconnecting := (start_joins contentLength n interrupted).run
      (fun e he => hreading e (List.mem_append_left _ he))
      (fun e he => hwriting e (List.mem_append_left _ (List.mem_append_left _ he)))
    have hbefore := (hconnecting.of_idle hconnected).run
      (fun e he => hreading e (List.mem_append_right _ he))
      (fun e he => hwriting e (List.mem_append_left _ (List.mem_append_right _ he)))
    rwa [← run_append] at hbefore
  obtain ⟨given, b, hdelivers⟩ := hjoined.delivers
  have hsink := hdelivers.carries.sink
  obtain ⟨b', hcancels, hquits⟩ := hjoined.quits hsink hending
  -- Until the writer is told it goes on as before.
  have hgoesOn : ∀ events, (∀ e ∈ events, e.endsWriting = false) →
      ((closing.step ending).run events).Cancelling (closing.returned ++ b.unread) :=
    fun events hevents => run_keeps (fun e he h => h.step (hevents e he)) ⟨b', hquits, hcancels⟩
  have htold := hgoesOn meanwhile fun e he => hwriting e (List.mem_append_right _ he)
  have htoldIdle : told.line.isIdle = true := by
    rwa [run_append, run_cons] at hidle
  -- From then on nothing comes through.
  obtain ⟨b₀, htoldSilent⟩ := htold.silent htoldIdle later
  refine ⟨⟨b, hsink, fun events hprefix => ?_⟩, ?_⟩
  · obtain ⟨rest, hrest⟩ := hprefix
    rcases List.append_eq_append_iff.mp hrest with ⟨left, hmeanwhile, -⟩ | ⟨more, hevents, hlater⟩
    · obtain ⟨b₁, hquits₁, hcancels₁⟩ := hgoesOn events fun e he =>
        hwriting e (List.mem_append_right _ (hmeanwhile ▸ List.mem_append_left _ he))
      exact hquits₁.runsDry hcancels₁.sink
    · obtain ⟨b₁, hsilent₁⟩ := htoldSilent.run fun e he =>
        hlater ▸ List.mem_append_left _ he
      rw [hevents, run_append]
      exact hsilent₁.quits.runsDry hsilent₁.severed.sink
  · obtain ⟨b₁, hsilent₁⟩ := htoldSilent.run fun _ he => he
    obtain ⟨o, hwriter, hcut⟩ := hsilent₁.severed.chain.writer
    refine ⟨o, hwriter, hcut.cancelled, hcut.spent, hsilent₁.closed o hwriter,
      Line.push_of_cut hwriter hcut, ?_, fun s => hcut.tells s _, hsilent₁.accepted⟩
    exact (Line.mutes_severed b₁).close_fails hsilent₁.severed hwriter

/-- Behind two hops the reader of a pipe that has become idle is closed, and before the first
hop has got the cancellation the writer closes the stream: that is accepted, and if the end
overtakes the cancellation the writer is never cancelled and keeps its credit.  If the writer
closes the stream after it was cancelled, its later pushes are told of the closing; and a call
for no bytes is answered with none. -/
theorem writer_closes_before_it_is_told :
    let connecting := List.replicate 14 PipeEvent.ticks
    let ticking := List.replicate 30 PipeEvent.ticks
    let crossed := connecting ++ [.closes, .writes .finish, .prefers 1] ++ ticking
    let told := connecting ++ [.closes] ++ ticking
    ((start 3 2 .reader false).run connecting).line.isIdle = true ∧
      (((start 3 2 .reader false).run connecting).line.chain.writer?.map fun o =>
        (o.closed, o.writerHeld)) = some (false, true) ∧
      ((start 3 2 .reader false).run (connecting ++ [.closes])).line.closeWriter.1 = .ok () ∧
      ((start 3 2 .reader false).run crossed).line.isIdle = true ∧
      (((start 3 2 .reader false).run crossed).line.chain.writer?.map fun o =>
        (o.ledger.cancelled, o.ledger.demand.items)) = some (false, 1) ∧
      ((start 3 2 .reader false).run told).line.isIdle = true ∧
      (((start 3 2 .reader false).run (told ++ [.writes .finish])).line.push [4]).map Prod.fst =
        some (.error (.condition .closed)) ∧
      (((start 3 2 .reader false).run told).line.sink.inlet?.bind fun b =>
        (b.answer (.upTo 0) false).map (·.value)) = some (.ok []) := by
  decide +kernel

/-- Behind two hops a reader takes one byte, and closes; the writer, which has not been told yet,
pushes an item that nobody will see.  Then it is told, and the reader gets the byte that waited
for it and nothing more. -/
theorem closed_reader_cancels_writer :
    let connecting := List.replicate 14 PipeEvent.ticks
    let before := .writes (.push [1, 2]) :: List.replicate 8 .ticks ++
      .reads (.upTo 1) :: List.replicate 8 .ticks
    let meanwhile := .writes (.push [3]) :: List.replicate 12 .ticks
    let closing := (start 3 2 .reader false).run (connecting ++ before)
    let told := (closing.step .closes).run meanwhile
    let t := told.run [.reads .byte]
    closing.returned = [1] ∧ told.accepted = [[1, 2], [3]] ∧ t.returned = [1, 2] ∧
      (∃ b, t.line.sink = .inlet b ∧ ∀ call : ReadCall, 0 < call.wanted →
        ∃ a, b.answer call t.line.interrupted = some a ∧
          a.value = .error (.condition .closed)) ∧
      ∃ o, t.line.chain.writer? = some o ∧ o.ledger.cancelled = true ∧
        o.ledger.demand.items = 0 ∧
        t.line.push [4] = some (.error (.condition .cancelled), t.line) ∧
        t.line.closeWriter.1 = .error (.condition .cancelled) := by
  intro connecting before meanwhile closing told t
  have hconnected : ((start 3 2 .reader false).run connecting).line.isIdle = true := by
    decide +kernel
  have hreading : ∀ e ∈ connecting ++ before, e.endsReading = false := by decide +kernel
  have hwriting : ∀ e ∈ connecting ++ before ++ meanwhile, e.endsWriting = false := by
    decide +kernel
  have hidle : ((start 3 2 .reader false).run
      (connecting ++ before ++ .closes :: meanwhile)).line.isIdle = true := by decide +kernel
  have hgiven : closing.returned = [1] := by decide +kernel
  have haccepted : told.accepted = [[1, 2], [3]] := by decide +kernel
  have hreturned : t.returned = [1, 2] := by decide +kernel
  have hleft : t.line.sink.inlet?.map Inlet.unread = some [] := by decide +kernel
  obtain ⟨⟨b, -, hreader⟩, o, hwriter, hcancelled, hspent, hclosed, hpush, hclose, -, -⟩ :=
    run_cancels_writer 3 2 false connecting before .closes meanwhile [.reads .byte] hconnected
      hreading rfl hwriting hidle
  have hopen : o.closed = false := by
    by_contra hends
    have hmem := hclosed (by simpa using hends)
    simp at hmem
  have hrefused := hpush [4]
  rw [hopen, if_neg Bool.false_ne_true] at hrefused
  obtain ⟨b', hsink, -, hcalls⟩ := hreader (meanwhile ++ [.reads .byte]) (List.prefix_refl _)
  rw [run_append] at hsink hcalls
  -- The run is named once more, so that nobody evaluates it.
  have ht : t = run [.reads .byte] (run meanwhile
      ((run (connecting ++ before) (start 3 2 .reader false)).step .closes)) := rfl
  rw [← ht] at hsink hcalls hwriter hrefused hclose
  have hnothing : b'.unread = [] := by
    rw [hsink] at hleft
    exact Option.some.inj hleft
  refine ⟨hgiven, haccepted, hreturned, ⟨b', hsink, fun call hwanted => ?_⟩, o, hwriter,
    hcancelled, hspent, hrefused, hclose hopen⟩
  obtain ⟨a, hanswer, -, hend⟩ := hcalls call hwanted
  exact ⟨a, hanswer, hend hnothing⟩

end Pipe
end CreditFlow
