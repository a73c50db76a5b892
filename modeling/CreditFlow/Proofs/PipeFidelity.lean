import CreditFlow.Proofs.Insertion
import CreditFlow.Proofs.LineWatch
import Mathlib.Data.List.Induction
import Mathlib.Tactic.Common

/-!
# What a pipe delivers

A pipe with a reader at its end hands on what its writer pushes, all of it, once, and in
order, and then the end that the writer gave.  A line *carries* bytes and an end when they
are what its inlet holds, followed by what the inlet is still to hear, followed by what is
on its way through the chain; everything that happens along the line moves them towards
the reader and leaves them what they are.

When the line is idle and its reader would wait, the reader has asked for a chunk; then
nothing is on its way, and the writer may still push.

Main results:

- {lit}`Line.reactAll_carries`: an inlet that asks when it may keeps its line going.
- {lit}`Line.Carries.absorb`, {lit}`Line.Carries.tick`: no move loses anything.
- {lit}`Pipe.Delivers.step`: neither does anything else, unless the reader is closed.
- {lit}`Pipe.run_delivers`: what the reader of a pipe is told.
-/

namespace CreditFlow

namespace Line

/-- A line that ends in an inlet carries bytes and an end.  The inlet is still to hear
`es`, and the tasks in `woken` are still to be woken. -/
structure Carries (given : Octets) (ends : List (Except Failure Unit)) (es : List Emission)
    (woken : List Nat) (b : Inlet Unit) (l : Line) : Prop where
  sink : l.sink = .inlet b
  sound : l.chain.Sound
  tended : l.chain.Tended (l.ready ++ woken) l.running
  orderly : b.Orderly
  paced : b.Paced
  paired : ∃ q, b.Paired q ∧ q.emits es = some l.chain.port
  text : b.unread ++ Signal.bytes (Emission.cargo es ++ l.chain.backlog) = given
  endings : b.ends ++ Signal.ends (Emission.cargo es ++ l.chain.backlog) = ends

variable {given : Octets} {ends : List (Except Failure Unit)} {es : List Emission}
  {woken : List Nat} {b : Inlet Unit} {l : Line}

/-! ## Hearing -/

/-- What an inlet asks for when it may reaches the last publisher. -/
theorem reactAll_carries {q : Port} {rs : List (Reaction Unit)} (hsink : l.sink = .inlet b)
    (hsound : l.chain.Sound) (htended : l.chain.Tended (l.ready ++ woken) l.running)
    (horderly : b.Orderly) (hpaced : b.Paced) (htells : b.Tells q rs)
    (hemits : q.emits es = some l.chain.port)
    (htext : b.unread ++ Signal.bytes (Emission.cargo es ++ l.chain.backlog) = given)
    (hends : b.ends ++ Signal.ends (Emission.cargo es ++ l.chain.backlog) = ends) :
    (l.reactAll rs).Carries given ends es woken b := by
  rcases reactAll_parts rs l with ⟨hchain, hsink', -, -⟩
  have htended' := reactAll_tended htended rs
  rcases htells with ⟨hnone, hpaired⟩ | ⟨hone, hspent, hpaired⟩
  · have hsame : (l.reactAll rs).chain = l.chain := by
      rw [hchain, hnone]
      rfl
    refine ⟨hsink'.trans hsink, ?_, htended', horderly, hpaced, ⟨q, hpaired, ?_⟩, ?_, ?_⟩
    · rwa [hsame]
    · rwa [hsame]
    · rwa [hsame]
    · rwa [hsame]
  · have hport := Port.spent_of_emits hspent hemits
    have hgreeted : q ≠ .vacant := by
      rintro rfl
      rcases hspent with hlive | hended
      · cases hlive
      · cases hended
    have hasked : (l.reactAll rs).chain = (l.chain.control (.request 1)).1 := by
      rw [hchain, hone]
      rfl
    rcases hsound.control_request hport with ⟨hsound', hgrant, hbacklog⟩
    refine ⟨hsink'.trans hsink, ?_, htended', horderly, hpaced, ⟨q.grant, hpaired, ?_⟩, ?_, ?_⟩
    · rwa [hasked]
    · rw [hasked, hgrant]
      exact Port.emits_grant hgreeted hemits
    · rwa [hasked, hbacklog]
    · rwa [hasked, hbacklog]

/-- The inlet hears what its port allows, and holds it. -/
theorem Carries.hear {e : Emission} (h : l.Carries given ends (e :: es) woken b) :
    ∃ b', (l.hear e).Carries given ends es woken b' := by
  rcases h.paired with ⟨q, hpaired, hemits⟩
  rw [Port.emits_cons] at hemits
  rcases Option.bind_eq_some_iff.mp hemits with ⟨q', hemit, hrest⟩
  have hcargo : Emission.cargo (e :: es) = Emission.cargo [e] ++ Emission.cargo es :=
    Emission.cargo_append [e] es
  have htext := h.text
  have hends := h.endings
  rw [hcargo, List.append_assoc, Signal.bytes_append, ← List.append_assoc] at htext
  rw [hcargo, List.append_assoc, Signal.ends_append, ← List.append_assoc] at hends
  cases e with
  | signal s =>
      refine ⟨(b.signal s).1, ?_⟩
      simp only [Line.hear, Sink.hear, h.sink]
      refine reactAll_carries rfl h.sound h.tended (Inlet.signal_orderly h.orderly s)
        (Inlet.signal_paced h.paced s) (Inlet.signal_tells h.orderly h.paced hpaired hemit)
        hrest ?_ ?_
      · rw [Inlet.signal_text hpaired hemit]
        exact htext
      · rw [Inlet.signal_ends h.orderly hpaired hemit]
        exact hends
  | hangUp =>
      have hended : b.Paired q' := by
        rcases Port.emit_hangUp hemit with ⟨rfl, rfl⟩
        exact hpaired
      refine ⟨b, ?_⟩
      simp only [Line.hear, Sink.hear, h.sink]
      refine reactAll_carries rfl h.sound h.tended h.orderly h.paced (.inl ⟨rfl, hended⟩) hrest
        ?_ ?_
      · exact (congrArg (· ++ _) (List.append_nil _).symm).trans htext
      · exact (congrArg (· ++ _) (List.append_nil _).symm).trans hends

/-- Whatever the sink is still to hear, the line carries the same when it has heard of it. -/
theorem Carries.hears (h : l.Carries given ends es woken b) :
    ∃ b', (es.foldl Line.hear l).Carries given ends [] woken b' := by
  induction es generalizing l b with
  | nil => exact ⟨b, h⟩
  | cons e es ih =>
      rcases h.hear with ⟨b', hfirst⟩
      exact ih hfirst

/-! ## Moves -/

/-- A chain that has moved is put in place; the inlet is still to hear of it. -/
theorem Carries.place (h : l.Carries given ends [] [] b) {new : List (Signal Unit)}
    {r : Chain × Burst} (hmoves : Chain.Moves new l.chain r) {running : Option Nat}
    (htended : r.1.Tended (l.ready ++ r.2.wakes) running) :
    ({ l with running := running, chain := r.1 }.note r.2.notes).Carries
      (given ++ Signal.bytes new) (ends ++ Signal.ends new) r.2.emissions r.2.wakes b := by
  rcases h.paired with ⟨q, hpaired, hemits⟩
  have hq : q = l.chain.port := Option.some.inj hemits
  have htext := h.text
  have hends := h.endings
  rw [Emission.cargo_nil, List.nil_append] at htext hends
  refine ⟨h.sink, hmoves.sound, htended, h.orderly, h.paced, ⟨q, hpaired, ?_⟩, ?_, ?_⟩
  · rw [hq]
    exact hmoves.emits
  · change b.unread ++ Signal.bytes (Emission.cargo r.2.emissions ++ r.1.backlog) = _
    rw [hmoves.kept, Signal.bytes_append, ← List.append_assoc, htext]
  · change b.ends ++ Signal.ends (Emission.cargo r.2.emissions ++ r.1.backlog) = _
    rw [hmoves.kept, Signal.ends_append, ← List.append_assoc, hends]

/-- A move of the chain adds what is new, and loses nothing. -/
theorem Carries.absorb (h : l.Carries given ends [] [] b) {new : List (Signal Unit)}
    {r : Chain × Burst} (hmoves : Chain.Moves new l.chain r) {running : Option Nat}
    (htended : r.1.Tended (l.ready ++ r.2.wakes) running) :
    ∃ b', ({ l with running := running }.absorb r).Carries (given ++ Signal.bytes new)
      (ends ++ Signal.ends new) [] [] b' := by
  rcases (h.place hmoves htended).hears with ⟨b', htold⟩
  refine ⟨b', ?_⟩
  have hending : (r.2.emissions.foldl Line.hear
      ({ l with running := running, chain := r.1 }.note r.2.notes)).sink.ending? =
        some .reader := by
    rw [htold.sink]
    rfl
  simp only [Line.absorb, performs_of_ending r.2.acts hending]
  refine ⟨htold.sink, htold.sound, ?_, htold.orderly, htold.paced, htold.paired, htold.text,
    htold.endings⟩
  refine htold.tended.mono fun k hk => ?_
  rw [List.append_nil, mem_wake]
  exact List.mem_append.mp hk

/-- A move of the tasks loses nothing. -/
theorem Carries.tick (h : l.Carries given ends [] [] b) {l' : Line} (htick : l.tick = some l') :
    ∃ b', l'.Carries given ends [] [] b' := by
  have htended := h.tended
  rw [List.append_nil] at htended
  unfold Line.tick at htick
  cases hrunning : l.running with
  | some k =>
      rw [hrunning] at htick htended
      cases htick
      have hturned := h.absorb (h.sound.turn k) (htended.turn h.sound)
      rw [Signal.bytes, Signal.ends, List.filterMap_nil, List.filterMap_nil, List.flatten_nil,
        List.append_nil, List.append_nil] at hturned
      exact hturned
  | none =>
      rw [hrunning] at htick htended
      cases hready : l.ready with
      | nil =>
          rw [hready] at htick
          cases htick
      | cons k rest =>
          rw [hready] at htick htended
          cases htick
          refine ⟨b, h.sink, h.sound, ?_, h.orderly, h.paced, h.paired, h.text, h.endings⟩
          rw [List.append_nil]
          exact htended.starts

/-- Which task comes first does not matter. -/
theorem Carries.prefer (h : l.Carries given ends [] [] b) (task : Nat) :
    (l.prefer task).Carries given ends [] [] b := by
  obtain ⟨ready, hprefer, hready⟩ := l.prefer_eq task
  rw [hprefer]
  refine ⟨h.sink, h.sound, h.tended.mono fun k hk => ?_, h.orderly, h.paced, h.paired, h.text,
    h.endings⟩
  rw [List.append_nil] at hk ⊢
  exact hready k hk

/-! ## Operations at the writer -/

/-- What the writer signals is on its way, as the hops relay it. -/
theorem Carries.atWriter (h : l.Carries given ends [] [] b) {o : Outlet}
    (hwriter : l.chain.writer? = some o) {f : Outlet → Outlet × List Notice × List Emission}
    (hserving : (f o).1.Serving) (hemits : o.port.emits (f o).2.2 = some (f o).1.port) :
    ∃ b', (l.atWriter f).Carries
      (given ++ Signal.bytes ((Emission.cargo (f o).2.2).map (Signal.relayed^[l.chain.hops])))
      (ends ++ Signal.ends ((Emission.cargo (f o).2.2).map (Signal.relayed^[l.chain.hops])))
      [] [] b' := by
  have htended := h.tended
  rw [List.append_nil] at htended
  exact h.absorb (h.sound.atWriter hwriter hserving hemits)
    (htended.atWriter h.sound hwriter hserving hemits)

/-- What signals nobody adds nothing. -/
theorem Carries.quietly (h : l.Carries given ends [] [] b) {o : Outlet}
    (hwriter : l.chain.writer? = some o) {f : Outlet → Outlet × List Notice}
    (hserving : (f o).1.Serving) (hport : (f o).1.port = o.port) :
    ∃ b', (l.atWriter (Line.quietly f)).Carries given ends [] [] b' := by
  have hemits : o.port.emits [] = some (f o).1.port := congrArg some hport.symm
  have hafter := h.atWriter hwriter (f := Line.quietly f) hserving hemits
  simpa [Line.quietly, Signal.bytes, Signal.ends] using hafter

/-! ## Reading calls -/

section Reading

variable {size : Nat} {interrupted : Bool} {a : Inlet.Answer Unit (Except Failure Octets)}

/-- What a call returns comes first of what is carried. -/
theorem Carries.read (h : l.Carries given ends [] [] b) (hread : b.read size interrupted = some a) :
    ∃ given', Inlet.bytes a.value ++ given' = given ∧
      (l.commit a.after a.reactions).Carries given' ends [] [] a.after := by
  rcases h.paired with ⟨q, hpaired, hemits⟩
  have htext := h.text
  rw [← Inlet.read_unread h.orderly hread, List.append_assoc] at htext
  have hends := h.endings
  rw [← Inlet.read_ends h.orderly hread] at hends
  refine ⟨_, htext, ?_⟩
  exact reactAll_carries rfl h.sound h.tended (Inlet.read_orderly h.orderly hread)
    (Inlet.read_paced h.orderly h.paced hread)
    (Inlet.read_tells h.orderly h.paced hpaired hread) hemits rfl hends

/-- A call that tells of an end tells of the one that is carried, after the last byte. -/
theorem Carries.of_end (h : l.Carries given ends [] [] b)
    (hread : b.read size interrupted = some a) {v : Except Failure Unit}
    (hverdict : a.after.verdict = some v) (hunread : b.unread = []) : v ∈ ends ∧ given = [] := by
  rcases h.paired with ⟨q, hpaired, hemits⟩
  have hends : v ∈ b.ends := by
    rw [← Inlet.read_ends h.orderly hread, Inlet.ends, hverdict]
    exact List.mem_cons_self
  -- The inlet has been told of an end, so the chain has nothing more.
  have hended : l.chain.port.isEnded = true := by
    rw [← Option.some.inj hemits]
    exact hpaired.isEnded (h.orderly.terminated_of_ends (List.ne_nil_of_mem hends))
  have hbacklog := Chain.backlog_of_ended hended
  have htext := h.text
  rw [hbacklog] at htext
  refine ⟨?_, ?_⟩
  · rw [← h.endings]
    exact List.mem_append_left _ hends
  · rw [← htext, hunread]
    rfl

/-- Where a call would have to wait in an idle line, the inlet has asked for a chunk, and all
that is carried is still on its way through the chain. -/
theorem Carries.of_waiting (h : l.Carries given ends [] [] b) (hidle : l.isIdle = true)
    (hread : b.read size interrupted = none) :
    l.chain.Tended [] none ∧ l.chain.port = .live 1 ∧ given = Signal.bytes l.chain.backlog ∧
      ends = Signal.ends l.chain.backlog := by
  rcases Inlet.read_eq_none h.orderly hread with ⟨-, hopen, hunread, hempty⟩
  rcases h.paired with ⟨q, hpaired, hemits⟩
  have hq : q = l.chain.port := Option.some.inj hemits
  have htended := tended_of_idle h.tended hidle
  refine ⟨htended, ?_, ?_, ?_⟩
  · rcases hpaired.waits h.paced hopen hempty with hvacant | hlive
    · exact absurd (hq.symm.trans hvacant) (Chain.idle_greeted h.sound htended)
    · exact hq.symm.trans hlive
  · have htext := h.text
    rw [hunread] at htext
    exact htext.symm
  · have hends := h.endings
    rw [h.orderly.ends_eq_nil hopen] at hends
    exact hends.symm

end Reading

/-- What the writer has done after an operation is what the operation makes of it. -/
theorem atWriter_standing {o : Outlet} (hwriter : l.chain.writer? = some o)
    (f : Outlet → Outlet × List Notice × List Emission) :
    (l.atWriter f).chain.standing = some (f o).1.standing ∧
      (l.atWriter f).chain.hops = l.chain.hops := by
  rcases absorb_chain (l.chain.atWriter f) l with ⟨cs, hchain⟩
  have hafter : (l.atWriter f).chain = ((l.chain.atWriter f).1.controls cs).1 := hchain
  rw [hafter, Chain.controls_standing, Chain.controls_hops, Chain.atWriter_hops]
  exact ⟨Chain.atWriter_standing hwriter f, rfl⟩

end Line

/-! ## What the writer may do -/

/-- What the reader is told of the end that the writer gave, `n` hops away. -/
def Finish.told (n : Nat) : Finish → Except Failure Unit
  | .complete => .ok ()
  | .abandoned => .error (.producer (Cause.relayed^[n] (.condition .abandoned)))

/-- A writer that closes completes its stream, and one that is gone without closing has
abandoned it. -/
def Standing.Honest (st : Standing) : Prop :=
  match st.finish with
  | none => st.closed = false ∧ st.held = true
  | some .complete => st.closed = true
  | some .abandoned => st.closed = false ∧ st.held = false

/-- What a step makes of a writer: if it closes, the writer has closed from then on, provided
that it was there to do so; if it drops the writer, the writer is gone from then on.  Nothing
else does either. -/
structure Standing.Since (s : WriterStep) (st st' : Standing) : Prop where
  closed : st'.closed = true ↔ st.closed = true ∨ s = .finish ∧ st.held = true
  gone : st'.held = false ↔ st.held = false ∨ s = .drop

/-- A writer that is gone, or neither closes nor goes away, is the same as before. -/
theorem Standing.since_refl {st : Standing} {s : WriterStep}
    (hwriting : st.held = true → s ≠ .finish ∧ s ≠ .drop) : Since s st st := by
  refine ⟨⟨.inl, ?_⟩, ⟨.inl, ?_⟩⟩
  · rintro (hclosed | ⟨hfinish, hheld⟩)
    · exact hclosed
    · exact absurd hfinish (hwriting hheld).1
  · rintro (hgone | hdrop)
    · exact hgone
    · by_contra hheld
      exact (hwriting (by simpa using hheld)).2 hdrop

/-- Relaying leaves the bytes of an item what they are. -/
theorem Signal.relayed_next (n : Nat) (item : Octets) :
    Signal.relayed^[n] (.next item) = .next item :=
  Function.iterate_fixed rfl n

theorem Signal.relayed_complete (n : Nat) : Signal.relayed^[n] .complete = .complete :=
  Function.iterate_fixed rfl n

/-- Every hop marks a cause. -/
theorem Signal.relayed_error (n : Nat) (cause : Cause) :
    Signal.relayed^[n] (.error cause) = .error (Cause.relayed^[n] cause) := by
  induction n generalizing cause with
  | zero => rfl
  | succ n ih => exact ih cause.relayed

/-- What is on its way when the writer has given an end. -/
theorem Outlet.farewell_told (n : Nat) (f : Finish) :
    Signal.bytes ((Emission.cargo (farewell f).2).map (Signal.relayed^[n])) = [] ∧
      Signal.ends ((Emission.cargo (farewell f).2).map (Signal.relayed^[n])) = [f.told n] := by
  cases f with
  | complete =>
      have hcargo : (Emission.cargo (farewell .complete).2).map (Signal.relayed^[n]) =
          [.complete] := congrArg (fun s => [s]) (Signal.relayed_complete n)
      rw [hcargo]
      exact ⟨rfl, rfl⟩
  | abandoned =>
      have hcargo : (Emission.cargo (farewell .abandoned).2).map (Signal.relayed^[n]) =
          [.error (Cause.relayed^[n] (.condition .abandoned))] :=
        congrArg (fun s => [s]) (Signal.relayed_error n _)
      rw [hcargo]
      exact ⟨rfl, rfl⟩

namespace Outlet

variable {o : Outlet}

/-- A writer that may push has a consumer. -/
theorem Serving.attached (h : o.Serving) (hhonest : o.standing.Honest) (hopen : o.closed = false)
    (hheld : o.writerHeld = true) : o.downstream = .attached ∧ o.ledger.finish = none := by
  have hfinish : o.ledger.finish = none := by
    unfold Standing.Honest at hhonest
    cases hf : o.ledger.finish with
    | none => rfl
    | some f =>
        cases f with
        | complete =>
            simp only [standing, hf] at hhonest
            simp [hopen] at hhonest
        | abandoned =>
            simp only [standing, hf] at hhonest
            simp [hheld] at hhonest
  refine ⟨?_, hfinish⟩
  cases hdown : o.downstream with
  | waiting => exact absurd hdown h.subscribed
  | attached => rfl
  | done =>
      rcases h.ended hdown with ⟨f, hf, -⟩
      rw [hfinish] at hf
      cases hf

/-- Handing an item over uses the credit for it. -/
theorem Serving.spend (h : o.Serving) (hdemand : 0 < o.ledger.demand.items)
    (hattached : o.downstream = .attached) (item : Octets) :
    { o with ledger := o.ledger.spent }.Serving ∧
      o.port.emits [.signal (.next item)] =
        some { o with ledger := o.ledger.spent }.port := by
  rcases h.opened hattached with ⟨hfinish, hclosed, hheld, hle⟩
  have hsome : o.ledger.demand.items = o.ledger.spent.demand.items + 1 := by
    change o.ledger.demand.items = o.ledger.demand.spend.items + 1
    rw [Demand.spend_items]
    omega
  refine ⟨⟨h.uncancelled, h.subscribed, fun _ => ⟨hfinish, hclosed, hheld, ?_⟩, h.ended⟩, ?_⟩
  · change o.ledger.spent.demand.items ≤ 1
    omega
  · simp only [port, hattached, Port.emits_singleton]
    rw [hsome]
    rfl

/-- An end that is given reaches the consumer. -/
theorem conclude_serving (huncancelled : o.ledger.cancelled = false)
    (hattached : o.downstream = .attached) {f : Finish}
    (hclosed : o.closed = true ↔ f = .complete) :
    ((o.putDown f).conclude f false).1.Serving ∧
      o.port.emits ((o.putDown f).conclude f false).2.2 =
        some ((o.putDown f).conclude f false).1.port ∧
      ((o.putDown f).conclude f false).2.2 = (farewell f).2 ∧
      ((o.putDown f).conclude f false).1.standing =
        { finish := some f, closed := o.closed, held := o.writerHeld } := by
  have hdone : (o.putDown f).conclude f false =
      ({ o.putDown f with downstream := .done }, farewell f) := by
    simp [Outlet.conclude, putDown, hattached]
  rw [hdone]
  refine ⟨⟨huncancelled, ?_, ?_, fun _ => ⟨f, rfl, hclosed⟩⟩, ?_, rfl, rfl⟩
  · simp
  · simp
  · cases f <;> simp [port, hattached, farewell, Port.emits, Port.emit]

/-- A writer that has given an end may go away. -/
theorem Serving.dropWriter (h : o.Serving) (hfinish : o.ledger.finish ≠ none) :
    o.dropWriter.Serving ∧ o.dropWriter.port = o.port :=
  ⟨⟨h.uncancelled, h.subscribed, fun hattached => absurd (h.opened hattached).1 hfinish, h.ended⟩,
    rfl⟩

/-- Only its ledger and its place in the stream decide what a writer serves. -/
theorem Serving.of_counted (h : o.Serving) (length : Nat) :
    (o.counted length).1.Serving ∧ (o.counted length).1.port = o.port :=
  ⟨⟨h.uncancelled, h.subscribed, h.opened, h.ended⟩, rfl⟩

end Outlet

/-! ## Everything that happens along a pipe -/

/-- Whether an event ends the reading. -/
def PipeEvent.endsReading : PipeEvent → Bool
  | .closes => true
  | .readerLeaves => true
  | _ => false

/-- Whether an event ends the writing. -/
def PipeEvent.endsWriting : PipeEvent → Bool
  | .writes .finish => true
  | .writes .drop => true
  | _ => false

namespace Pipe

/-- What holds of a pipe of `n` hops that delivers: the bytes that were returned and those
that are carried are the accepted items, and the end that is carried is the writer's. -/
structure Delivers (n : Nat) (st : Standing) (given : Octets) (b : Inlet Unit) (t : Pipe) :
    Prop where
  hops : t.line.chain.hops = n
  standing : t.line.chain.standing = some st
  carries : t.line.Carries given (st.finish.map (Finish.told n)).toList [] [] b
  conserved : t.returned ++ given = t.accepted.flatten

variable {n : Nat} {st : Standing} {given : Octets} {b : Inlet Unit} {t : Pipe}

/-- The writer of a pipe that delivers. -/
theorem Delivers.writer (h : t.Delivers n st given b) :
    ∃ o, t.line.chain.writer? = some o ∧ o.Serving ∧ o.standing = st := by
  rcases Option.map_eq_some_iff.mp h.standing with ⟨o, hwriter, hst⟩
  exact ⟨o, hwriter, h.carries.sound.serving hwriter, hst⟩

/-- The writer of a pipe that delivers serves its consumer. -/
theorem Delivers.serving (h : t.Delivers n st given b) {o : Outlet}
    (hwriter : t.line.chain.writer? = some o) : o.Serving ∧ o.standing = st := by
  rcases h.writer with ⟨o', hwriter', hserving, hst⟩
  rw [hwriter] at hwriter'
  cases hwriter'
  exact ⟨hserving, hst⟩

/-- A line that changes without its writer delivers as long as it carries. -/
theorem Delivers.of_carries (h : t.Delivers n st given b) {line : Line} {b' : Inlet Unit}
    (hhops : line.chain.hops = t.line.chain.hops)
    (hstanding : line.chain.standing = t.line.chain.standing)
    (hcarries : line.Carries given (st.finish.map (Finish.told n)).toList [] [] b') :
    { t with line := line }.Delivers n st given b' :=
  ⟨hhops.trans h.hops, hstanding.trans h.standing, hcarries, h.conserved⟩

/-- No move loses anything that a pipe delivers. -/
theorem Delivers.tick (h : t.Delivers n st given b) :
    ∃ b', (t.step .ticks).Delivers n st given b' := by
  simp only [Pipe.step]
  cases htick : t.line.tick with
  | none => exact ⟨b, h⟩
  | some line =>
      rcases h.carries.tick htick with ⟨b', hcarries⟩
      have hchain : line.chain.hops = t.line.chain.hops ∧
          line.chain.standing = t.line.chain.standing := by
        unfold Line.tick at htick
        split at htick
        · rename_i k hrunning
          cases htick
          obtain ⟨cs, hchain⟩ := Line.absorb_chain (t.line.chain.turn k)
            { t.line with running := if (t.line.chain.turn k).2.goesOn then some k else none }
          rw [hchain, Chain.controls_hops, Chain.turn_hops, Chain.controls_standing]
          exact ⟨rfl, Chain.turn_standing k t.line.chain⟩
        · split at htick
          · cases htick
          · cases htick
            exact ⟨rfl, rfl⟩
      exact ⟨b', h.of_carries hchain.1 hchain.2 hcarries⟩

theorem Delivers.prefer (h : t.Delivers n st given b) (task : Nat) :
    (t.step (.prefers task)).Delivers n st given b := by
  have hcarries := h.carries.prefer task
  obtain ⟨ready, hprefer, -⟩ := t.line.prefer_eq task
  simp only [Pipe.step, hprefer] at hcarries ⊢
  exact h.of_carries rfl rfl hcarries

/-! ## The writer's steps -/

/-- What the writer signals is delivered: `items` that it hands over, and the end that it
gives. -/
theorem Delivers.atWriter (h : t.Delivers n st given b) {o : Outlet}
    (hwriter : t.line.chain.writer? = some o)
    {f : Outlet → Outlet × List Notice × List Emission} (hserving : (f o).1.Serving)
    (hemits : o.port.emits (f o).2.2 = some (f o).1.port) {items : List Octets}
    (hitems : Signal.bytes ((Emission.cargo (f o).2.2).map (Signal.relayed^[n])) = items.flatten)
    (hends : (st.finish.map (Finish.told n)).toList ++
        Signal.ends ((Emission.cargo (f o).2.2).map (Signal.relayed^[n])) =
      ((f o).1.standing.finish.map (Finish.told n)).toList) :
    ∃ b', { t with line := t.line.atWriter f, accepted := t.accepted ++ items }.Delivers n
      (f o).1.standing (given ++ items.flatten) b' := by
  rcases h.carries.atWriter hwriter hserving hemits with ⟨b', hcarries⟩
  rcases Line.atWriter_standing hwriter f with ⟨hstanding, hhops⟩
  rw [h.hops, hitems, hends] at hcarries
  refine ⟨b', hhops.trans h.hops, hstanding, hcarries, ?_⟩
  rw [← List.append_assoc, h.conserved, List.flatten_append]

/-- What the writer does without signalling anybody changes at most what it has done. -/
theorem Delivers.quietly (h : t.Delivers n st given b) {o : Outlet}
    (hwriter : t.line.chain.writer? = some o) {f : Outlet → Outlet × List Notice}
    (hserving : (f o).1.Serving) (hport : (f o).1.port = o.port)
    (hfinish : (f o).1.standing.finish = st.finish) :
    ∃ b', { t with line := t.line.atWriter (Line.quietly f) }.Delivers n (f o).1.standing given
      b' := by
  rcases h.carries.quietly hwriter hserving hport with ⟨b', hcarries⟩
  rcases Line.atWriter_standing hwriter (Line.quietly f) with ⟨hstanding, hhops⟩
  rw [← hfinish] at hcarries
  exact ⟨b', hhops.trans h.hops, hstanding, hcarries, h.conserved⟩

/-- An accepted item is on its way. -/
theorem Delivers.push (h : t.Delivers n st given b) {o : Outlet}
    (hwriter : t.line.chain.writer? = some o) (hserving : o.Serving) (hst : o.standing = st)
    (hdemand : 0 < o.ledger.demand.items) (hattached : o.downstream = .attached) (item : Octets) :
    let line := (t.line.atWriter (Line.handover o.ledger.spent item)).atWriter
      (Line.quietly (Outlet.counted item.length))
    ∃ b', { t with line := line, accepted := t.accepted ++ [item] }.Delivers n st
      (given ++ item) b' := by
  intro line
  rcases hserving.spend hdemand hattached item with ⟨hspent, hemits⟩
  have hcargo : (Emission.cargo [.signal (.next item)]).map (Signal.relayed^[n]) = [.next item] :=
    congrArg (fun s => [s]) (Signal.relayed_next n item)
  have hitems : Signal.bytes ((Emission.cargo [.signal (.next item)]).map (Signal.relayed^[n])) =
      [item].flatten := by
    rw [hcargo]
    simp [Signal.bytes, Signal.chunk?]
  have hends : (st.finish.map (Finish.told n)).toList ++
      Signal.ends ((Emission.cargo [.signal (.next item)]).map (Signal.relayed^[n])) =
        (o.standing.finish.map (Finish.told n)).toList := by
    rw [hcargo, hst]
    exact List.append_nil _
  obtain ⟨b₁, hhanded⟩ := h.atWriter (f := Line.handover o.ledger.spent item) hwriter hspent hemits
    hitems hends
  rcases hhanded.writer with ⟨o₁, hwriter₁, hserving₁, hst₁⟩
  rcases hserving₁.of_counted item.length with ⟨hcounted, hport⟩
  have hsame : o₁.standing = st := hst₁.trans hst
  obtain ⟨b₂, hdelivers⟩ := hhanded.quietly (f := Outlet.counted item.length) hwriter₁ hcounted
    hport (congrArg Standing.finish hst₁)
  have hstanding : (o₁.counted item.length).1.standing = st := hsame
  rw [hstanding, List.flatten_singleton] at hdelivers
  exact ⟨b₂, hdelivers⟩

/-- An end that is given is on its way. -/
theorem Delivers.conclude (h : t.Delivers n st given b) {o : Outlet}
    (hwriter : t.line.chain.writer? = some o) (hunfinished : st.finish = none)
    {f : Outlet → Outlet × List Notice × List Emission} {finish : Finish}
    (hserving : (f o).1.Serving) (hemits : o.port.emits (f o).2.2 = some (f o).1.port)
    (hfarewell : (f o).2.2 = (Outlet.farewell finish).2)
    (hfinish : (f o).1.standing.finish = some finish) :
    ∃ b', { t with line := t.line.atWriter f }.Delivers n (f o).1.standing given b' := by
  rcases Outlet.farewell_told n finish with ⟨htext, htold⟩
  have hitems : Signal.bytes ((Emission.cargo (f o).2.2).map (Signal.relayed^[n])) =
      [].flatten := by
    rw [hfarewell, htext, List.flatten_nil]
  have hends : (st.finish.map (Finish.told n)).toList ++
      Signal.ends ((Emission.cargo (f o).2.2).map (Signal.relayed^[n])) =
        ((f o).1.standing.finish.map (Finish.told n)).toList := by
    rw [hfarewell, htold, hunfinished, hfinish]
    rfl
  rcases h.atWriter hwriter hserving hemits hitems hends with ⟨b', hdelivers⟩
  rw [List.append_nil, List.flatten_nil, List.append_nil] at hdelivers
  exact ⟨b', hdelivers⟩

/-- The writer exists as long as nothing has dropped it. -/
theorem Delivers.isHeld (h : t.Delivers n st given b) : Writer.isHeld t.line = st.held := by
  rcases h.writer with ⟨o, hwriter, -, rfl⟩
  rw [Writer.isHeld, hwriter]
  exact Option.any_some

/-- A writer that closes is one that has closed. -/
theorem Delivers.closeWriter (h : t.Delivers n st given b) (hhonest : st.Honest)
    (hheld : st.held = true) :
    ∃ st' b', { t with line := t.line.closeWriter.2 }.Delivers n st' given b' ∧ st'.Honest ∧
      st'.closed = true ∧ st'.held = st.held := by
  rcases t.line.closeWriter_cases with ⟨hsame, hclosed⟩ | ⟨o, hwriter, hclosed, hafter⟩
  · rcases h.writer with ⟨o, hwriter, -, rfl⟩
    rw [hsame]
    exact ⟨_, b, h, hhonest, hclosed o hwriter, rfl⟩
  · rcases h.serving hwriter with ⟨hserving, rfl⟩
    have hthere : o.writerHeld = true := hheld
    rcases hserving.attached hhonest hclosed hthere with ⟨hattached, hfinish⟩
    obtain ⟨hserving', hemits, hfarewell, hstanding⟩ :=
      Outlet.conclude_serving (o := o.shut.1) (f := .complete) hserving.uncancelled hattached
        (by simp [Outlet.shut])
    obtain ⟨b', hdelivers⟩ := h.conclude hwriter hfinish
      (f := Line.fuse Outlet.shut (Line.ending .complete false)) hserving' hemits hfarewell
      (congrArg Standing.finish hstanding)
    have hst : (Line.fuse Outlet.shut (Line.ending .complete false) o).1.standing = _ := hstanding
    rw [hst] at hdelivers
    rw [hafter, hserving.uncancelled]
    exact ⟨_, b', hdelivers, rfl, rfl, rfl⟩

/-- A writer that is dropped is gone. -/
theorem Delivers.dropWriter (h : t.Delivers n st given b) (hhonest : st.Honest)
    (hheld : st.held = true) :
    ∃ st' b', { t with line := t.line.dropWriter }.Delivers n st' given b' ∧ st'.Honest ∧
      st'.closed = st.closed ∧ st'.held = false := by
  rcases t.line.dropWriter_cases with ⟨-, hnobody⟩ | ⟨o, hwriter, hcases⟩
  · rcases h.writer with ⟨o, hwriter, -⟩
    rw [hnobody] at hwriter
    cases hwriter
  · rcases h.serving hwriter with ⟨hserving, rfl⟩
    have hthere : o.writerHeld = true := hheld
    rcases hcases with ⟨hclosed, hafter⟩ | ⟨hclosed, hafter⟩
    · have hcomplete : o.ledger.finish = some .complete := by
        cases hdown : o.downstream with
        | waiting => exact absurd hdown hserving.subscribed
        | attached => simp [(hserving.opened hdown).2.1] at hclosed
        | done =>
            rcases hserving.ended hdown with ⟨f, hf, hiff⟩
            rw [hf, hiff.mp hclosed]
      rcases hserving.dropWriter (by simp [hcomplete]) with ⟨hserving', hport⟩
      obtain ⟨b', hdelivers⟩ := h.quietly (f := fun o => (o.dropWriter, [])) hwriter hserving'
        hport rfl
      rw [hafter]
      refine ⟨_, b', hdelivers, ?_, rfl, rfl⟩
      simp only [Standing.Honest, Outlet.standing, Outlet.dropWriter, hcomplete, hclosed]
    · rcases hserving.attached hhonest hclosed hthere with ⟨hattached, hfinish⟩
      obtain ⟨hserving', hemits, hfarewell, hstanding⟩ :=
        Outlet.conclude_serving (o := o) (f := .abandoned) hserving.uncancelled hattached
          (by simp [hclosed])
      obtain ⟨b₁, hconcluded⟩ := h.conclude hwriter hfinish (f := Line.ending .abandoned false)
        hserving' hemits hfarewell (congrArg Standing.finish hstanding)
      have hst : (Line.ending .abandoned false o).1.standing = _ := hstanding
      rw [hst] at hconcluded
      rcases hconcluded.writer with ⟨o₁, hwriter₁, hserving₁, hst₁⟩
      have habandoned : o₁.ledger.finish = some .abandoned := congrArg Standing.finish hst₁
      have hunclosed : o₁.closed = o.closed := congrArg Standing.closed hst₁
      rcases hserving₁.dropWriter (by simp [habandoned]) with ⟨hserving₂, hport⟩
      obtain ⟨b₂, hdelivers⟩ := hconcluded.quietly (f := fun o => (o.dropWriter, [])) hwriter₁
        hserving₂ hport habandoned
      rw [hafter, hserving.uncancelled]
      refine ⟨_, b₂, hdelivers, ?_, hunclosed, rfl⟩
      simp [Standing.Honest, Outlet.standing, Outlet.dropWriter, habandoned, hunclosed, hclosed]

/-- A push that is accepted is delivered, and one that is not leaves nothing behind. -/
theorem Delivers.pushes (h : t.Delivers n st given b) {item : Octets}
    {answer : Except Failure Unit} {after : Line}
    (hpush : t.line.push item = some (answer, after)) :
    ∃ b',
      (answer = .ok () ∧
        { t with line := after, accepted := t.accepted ++ [item] }.Delivers n st (given ++ item)
          b') ∨
        (answer ≠ .ok () ∧ { t with line := after }.Delivers n st given b') := by
  have hpushes := Line.pushes_push item t.line
  rw [hpush] at hpushes
  cases hpushes with
  | refused f => exact ⟨b, .inr ⟨nofun, h⟩⟩
  | unattached o hwriter hdemand hnobody f =>
      rcases h.serving hwriter with ⟨hserving, hst⟩
      have hserving' : { o with ledger := o.ledger.spent }.Serving :=
        ⟨hserving.uncancelled, hserving.subscribed, fun hattached => absurd hattached hnobody,
          hserving.ended⟩
      have hport : { o with ledger := o.ledger.spent }.port = o.port := by
        cases hdown : o.downstream with
        | waiting => simp [Outlet.port, hdown]
        | attached => exact absurd hdown hnobody
        | done => simp [Outlet.port, hdown]
      obtain ⟨b', hdelivers⟩ := h.quietly
        (f := fun o' => ({ o' with ledger := o.ledger.spent }, [])) hwriter hserving' hport
        (congrArg Standing.finish hst)
      have hsame : { o with ledger := o.ledger.spent }.standing = st := hst
      rw [hsame] at hdelivers
      exact ⟨b', .inr ⟨nofun, hdelivers⟩⟩
  | accepted o hwriter hopen hdemand hattached =>
      rcases h.serving hwriter with ⟨hserving, hst⟩
      rcases h.push hwriter hserving hst hdemand hattached item with ⟨b', hdelivers⟩
      exact ⟨b', .inl ⟨rfl, hdelivers⟩⟩

/-- Whatever the writer does, the pipe delivers it. -/
theorem Delivers.write (h : t.Delivers n st given b) (hhonest : st.Honest) (s : WriterStep) :
    ∃ st' given' b', (t.write s).Delivers n st' given' b' ∧ st'.Honest ∧
      Standing.Since s st st' := by
  have hsteps := Writer.steps_step s t.line
  unfold Pipe.write
  generalize (Writer.step s).carry [] t.line = stepped at hsteps ⊢
  cases hsteps with
  | idles r hnothing hwriting =>
      simp only [Writer.accepted_of_nothing hnothing]
      exact ⟨st, given, b, h, hhonest, Standing.since_refl (h.isHeld ▸ hwriting)⟩
  | closes hstep hheld r =>
      subst hstep
      simp only [Writer.accepted_of_nothing (s := .finish) (r := r) fun _ => rfl]
      rw [h.isHeld] at hheld
      rcases h.closeWriter hhonest hheld with ⟨st', b', hdelivers, hhonest', hclosed, hkept⟩
      exact ⟨st', given, b', hdelivers, hhonest', by simp [hclosed, hheld], by simp [hkept]⟩
  | leaves hstep hheld r =>
      subst hstep
      simp only [Writer.accepted_of_nothing (s := .drop) (r := r) fun _ => rfl]
      rw [h.isHeld] at hheld
      rcases h.dropWriter hhonest hheld with ⟨st', b', hdelivers, hhonest', hkept, hgone⟩
      exact ⟨st', given, b', hdelivers, hhonest', by simp [hkept], by simp [hgone]⟩
  | pushes item hitem hheld answer after hpush r hreply =>
      have hsame : Standing.Since s st st :=
        Standing.since_refl fun _ => Writer.writing_of_item hitem
      rcases h.pushes hpush with ⟨b', ⟨hok, hdelivers⟩ | ⟨hfailed, hdelivers⟩⟩
      · have haccepted : r.isAccepted = true := hreply.mpr hok
        simp only [haccepted, if_true, hitem, Option.toList]
        exact ⟨st, given ++ item, b', hdelivers, hhonest, hsame⟩
      · simp only [Writer.accepted_of_nothing fun haccepted =>
          absurd (hreply.mp haccepted) hfailed]
        exact ⟨st, given, b', hdelivers, hhonest, hsame⟩

/-! ## The reader's calls -/

/-- What a call returns comes first of what the pipe delivers. -/
theorem Delivers.read (h : t.Delivers n st given b) (call : ReadCall) :
    ∃ given' b', (t.read call).Delivers n st given' b' := by
  unfold Pipe.read
  rw [Line.attempt_answer h.carries.sink]
  cases hread : b.read call.wanted t.line.interrupted with
  | none => exact ⟨given, b, h⟩
  | some a =>
      rcases h.carries.read hread with ⟨given', htext, hcommit⟩
      have hchain : (t.line.commit a.after a.reactions).chain =
          (t.line.chain.controls (Reaction.controls a.reactions)).1 :=
        (Line.reactAll_parts a.reactions { t.line with sink := .inlet a.after }).1
      refine ⟨given', a.after, ?_, ?_, hcommit, ?_⟩
      · exact (congrArg Chain.hops hchain).trans ((Chain.controls_hops _ _).trans h.hops)
      · exact (congrArg Chain.standing hchain).trans
          ((Chain.controls_standing _ _).trans h.standing)
      · change (t.returned ++ Inlet.bytes a.value) ++ _ = t.accepted.flatten
        rw [List.append_assoc, htext, h.conserved]

/-- Whatever happens without the reader's being closed, the pipe delivers. -/
theorem Delivers.step (h : t.Delivers n st given b) (hhonest : st.Honest) {e : PipeEvent}
    (hreading : e.endsReading = false) :
    ∃ st' given' b', (t.step e).Delivers n st' given' b' ∧ st'.Honest ∧
      (st'.closed = true ↔ st.closed = true ∨ e = .writes .finish ∧ st.held = true) ∧
        (st'.held = false ↔ st.held = false ∨ e = .writes .drop) := by
  have hkept : e.endsWriting = false → ∀ {t' : Pipe} {given' : Octets} {b' : Inlet Unit},
      t'.Delivers n st given' b' → ∃ st' given' b', t'.Delivers n st' given' b' ∧ st'.Honest ∧
        (st'.closed = true ↔ st.closed = true ∨ e = .writes .finish ∧ st.held = true) ∧
          (st'.held = false ↔ st.held = false ∨ e = .writes .drop) := by
    intro hwriting t' given' b' hdelivers
    refine ⟨st, given', b', hdelivers, hhonest, ⟨.inl, ?_⟩, ⟨.inl, ?_⟩⟩
    · rintro (hclosed | ⟨rfl, -⟩)
      · exact hclosed
      · cases hwriting
    · rintro (hgone | rfl)
      · exact hgone
      · cases hwriting
  cases e with
  | ticks =>
      rcases h.tick with ⟨b', hdelivers⟩
      exact hkept rfl hdelivers
  | prefers task => exact hkept rfl (h.prefer task)
  | writes s =>
      rcases h.write hhonest s with ⟨st', given', b', hdelivers, hhonest', hsince⟩
      refine ⟨st', given', b', hdelivers, hhonest', ?_, ?_⟩
      · rw [PipeEvent.writes.injEq]
        exact hsince.closed
      · rw [PipeEvent.writes.injEq]
        exact hsince.gone
  | reads call =>
      simp only [Pipe.step]
      split
      · rcases h.read call with ⟨given', b', hdelivers⟩
        exact hkept rfl hdelivers
      · exact hkept rfl h
  | closes => cases hreading
  | readerLeaves => cases hreading
  | interrupts =>
      have hcarries : (t.line.react .interrupt).Carries given
          (st.finish.map (Finish.told n)).toList [] [] b :=
        ⟨h.carries.sink, h.carries.sound, h.carries.tended, h.carries.orderly, h.carries.paced,
          h.carries.paired, h.carries.text, h.carries.endings⟩
      exact hkept rfl (h.of_carries rfl rfl hcarries)
  | polls =>
      rw [(step_of_inlet h.carries.sink).1]
      exact hkept rfl h
  | streamLeaves =>
      rw [(step_of_inlet h.carries.sink).2]
      exact hkept rfl h

end Pipe

/-! ## The beginning -/

/-- Before anything has happened, a line carries all that will come. -/
theorem Line.carries_of_unstarted {l : Line} {store : List (Signal Unit)}
    (h : l.chain.Unstarted store) (hsink : l.sink = .inlet {}) (hready : l.ready = l.chain.tasks)
    (hrunning : l.running = none) :
    l.Carries (Signal.bytes store) (Signal.ends store) [] [] {} := by
  refine ⟨hsink, h.sound, ?_, Inlet.orderly_empty, Inlet.paced_empty,
    ⟨.vacant, ⟨rfl, rfl⟩, congrArg some h.vacant.symm⟩, ?_, ?_⟩
  · rw [hready, hrunning, List.append_nil]
    exact h.tended
  · rw [h.stored]
    rfl
  · rw [h.stored]
    rfl

/-- A writer that has just been greeted serves its consumer. -/
theorem Outlet.greeted_serving (contentLength : Nat) :
    (greeted contentLength).Serving := by
  constructor <;> simp [greeted, Demand.zero_items]

namespace Pipe

variable {n : Nat} {st : Standing} {given : Octets} {b : Inlet Unit} {t : Pipe}

/-- A pipe that was just put together carries nothing. -/
theorem start_delivers (contentLength n : Nat) (interrupted : Bool) :
    ∃ b, (start contentLength n .reader interrupted).Delivers n
      { finish := none, closed := false, held := true } [] b := by
  cases n with
  | zero =>
      rcases start_zero_reader contentLength interrupted with ⟨journal, hline⟩
      have hserving : { Outlet.greeted contentLength with
          ledger := { demand := Demand.zero.grant 1 } }.Serving := by
        constructor <;> simp [Outlet.greeted, Demand.ceiling, UInt64.size]
      refine ⟨{ slot := .installed (), credit := 1 }, ?_, ?_, ?_, rfl⟩
      · rw [hline]
        rfl
      · rw [hline]
        rfl
      · rw [hline]
        refine ⟨rfl, hserving, trivial, ?_, rfl, ⟨.live 1, ⟨rfl, rfl, rfl⟩, rfl⟩, rfl, rfl⟩
        exact Inlet.orderly_empty.of_eq rfl rfl rfl rfl rfl
  | succ n =>
      rcases start_succ contentLength n .reader interrupted with ⟨journal, hline⟩
      have hfirst : (Chain.hop (.writer (Outlet.greeted contentLength))
          { inbox := [.subscribed ()] } {}).Unstarted [] := by
        refine ⟨⟨Outlet.greeted_serving contentLength, ?_, ?_⟩, rfl, ⟨trivial, ?_⟩, rfl⟩
        · exact ⟨fun _ => rfl, fun hdropped => absurd hdropped (by simp), fun _ _ => rfl⟩
        · exact Chain.fits_empty.of_eq (by rfl) (by rfl) none
        · exact Chain.minds_of_fresh (by simp [Chain.tasks, Chain.hops]) _
      have hstart := hfirst.extend n
      refine ⟨{}, ?_, ?_, ?_, rfl⟩
      · rw [hline, Chain.extend_hops]
        exact Nat.add_comm 1 n
      · rw [hline, Chain.extend_standing]
        rfl
      · have hunstarted : (start contentLength (n + 1) .reader interrupted).line.chain.Unstarted
            ([].map (Signal.relayed^[n])) := by
          rw [hline]
          exact hstart
        refine Line.carries_of_unstarted hunstarted ?_ ?_ ?_
        · rw [hline]
          rfl
        · rw [hline]
        · rw [hline]

/-- A pipe delivers, and its writer has done what the events say: it has closed the stream if
it was told to before it was dropped, and it is gone if it was dropped. -/
def Delivering (n : Nat) (events : List PipeEvent) (t : Pipe) : Prop :=
  ∃ st given b, t.Delivers n st given b ∧ st.Honest ∧
    (st.closed = true ↔ ∃ before e later, events = before ++ e :: later ∧
      e = .writes .finish ∧ .writes .drop ∉ before) ∧
    (st.held = false ↔ .writes .drop ∈ events)

/-- Whatever happens without the reader's being closed, the pipe delivers. -/
theorem run_delivering (contentLength n : Nat) (interrupted : Bool) {events : List PipeEvent}
    (hreading : ∀ e ∈ events, e.endsReading = false) :
    ((start contentLength n .reader interrupted).run events).Delivering n events := by
  induction events using List.reverseRecOn with
  | nil =>
      rcases start_delivers contentLength n interrupted with ⟨b, hstart⟩
      exact ⟨_, _, b, hstart, ⟨rfl, rfl⟩, by simp, by simp⟩
  | append_singleton events e ih =>
      obtain ⟨st, given, b, hdelivers, hhonest, hclosed, hgone⟩ :=
        ih fun e he => hreading e (List.mem_append_left _ he)
      obtain ⟨st', given', b', hdelivers', hhonest', hclosed', hgone'⟩ :=
        hdelivers.step hhonest (hreading e (List.mem_append_right _ List.mem_cons_self))
      rw [run_append, run_cons, run_nil]
      refine ⟨st', given', b', hdelivers', hhonest', ?_, ?_⟩
      · have hheld : st.held = true ↔ .writes .drop ∉ events := by
          rw [← hgone, Bool.not_eq_false]
        rw [hclosed', hclosed, hheld]
        exact exists_split_append_singleton.symm
      · rw [hgone', hgone, List.mem_append, List.mem_singleton, eq_comm]

/-! ## What the reader is told -/

/-- A call that tells of an end tells of the writer's, and comes after the last byte. -/
theorem Delivers.of_end (h : t.Delivers n st given b) {call : ReadCall}
    {a : Inlet.Answer Unit (Except Failure Octets)}
    (hread : b.read call.wanted t.line.interrupted = some a) {v : Except Failure Unit}
    (hverdict : a.after.verdict = some v) (hunread : b.unread = []) :
    st.finish.map (Finish.told n) = some v ∧ t.returned = t.accepted.flatten := by
  rcases h.carries.of_end hread hverdict hunread with ⟨hends, hnone⟩
  refine ⟨Option.mem_toList.mp hends, ?_⟩
  rw [← h.conserved, hnone, List.append_nil]

/-- A call that reports the end of the stream reports that the writer has closed it. -/
theorem Delivers.of_complete (h : t.Delivers n st given b) (hhonest : st.Honest)
    {call : ReadCall} {a : Inlet.Answer Unit (Except Failure Octets)}
    (hread : b.read call.wanted t.line.interrupted = some a) (hwanted : 0 < call.wanted)
    (hvalue : a.value = .ok []) : st.closed = true ∧ t.returned = t.accepted.flatten := by
  rcases Inlet.read_eq_end h.carries.orderly hwanted hread hvalue with ⟨hverdict, hunread⟩
  rcases h.of_end hread hverdict hunread with ⟨htold, hreturned⟩
  refine ⟨?_, hreturned⟩
  unfold Standing.Honest at hhonest
  cases hfinish : st.finish with
  | none => simp [hfinish] at htold
  | some f =>
      cases f with
      | complete => simpa [hfinish] using hhonest
      | abandoned => simp [hfinish, Finish.told] at htold

/-- A call that fails was interrupted, or reports that the writer has abandoned the stream. -/
theorem Delivers.of_failure (h : t.Delivers n st given b) (hhonest : st.Honest)
    {call : ReadCall} {a : Inlet.Answer Unit (Except Failure Octets)}
    (hread : b.read call.wanted t.line.interrupted = some a) {f : Failure}
    (hvalue : a.value = .error f) :
    f = .condition (.interrupted .data) ∧ t.line.interrupted = true ∨
      f = .producer (Cause.relayed^[n] (.condition .abandoned)) ∧ st.closed = false ∧
        st.held = false ∧ t.returned = t.accepted.flatten := by
  have hwanted : 0 < call.wanted := by
    by_contra hzero
    rw [Nat.eq_zero_of_not_pos hzero, Inlet.read_zero] at hread
    cases hread
    cases hvalue
  rcases Inlet.read_value h.carries.orderly hwanted hread with
    ⟨o, -, ho⟩ | ⟨⟨v, hv, hverdict⟩, hunread⟩ | ⟨-, hslot, -⟩ | ⟨hinterrupted, hfired, -⟩
  · rw [hvalue] at ho
    cases ho
  · cases v with
    | ok u =>
        rw [hvalue] at hv
        cases hv
    | error f' =>
        have hsame : f = f' := by
          rw [hvalue] at hv
          exact Except.error.inj hv
        subst hsame
        rcases h.of_end hread hverdict hunread with ⟨htold, hreturned⟩
        unfold Standing.Honest at hhonest
        cases hfinish : st.finish with
        | none => simp [hfinish] at htold
        | some finish =>
            cases finish with
            | complete => simp [hfinish, Finish.told] at htold
            | abandoned =>
                simp only [hfinish] at hhonest
                simp only [hfinish, Option.map_some, Finish.told, Option.some.injEq,
                  Except.error.injEq] at htold
                exact .inr ⟨htold.symm, hhonest.1, hhonest.2, hreturned⟩
  · rcases h.carries.paired with ⟨q, hpaired, -⟩
    exact absurd hslot hpaired.not_closed
  · rw [hvalue] at hinterrupted
    exact .inl ⟨Except.error.inj hinterrupted, hfired⟩

/-- A call that has to wait in an idle pipe waits for the writer. -/
theorem Delivers.of_waiting (h : t.Delivers n st given b) (hidle : t.line.isIdle = true)
    {call : ReadCall} (hread : b.read call.wanted t.line.interrupted = none) :
    t.returned = t.accepted.flatten ∧ st.closed = false ∧ st.held = true := by
  rcases h.carries.of_waiting hidle hread with ⟨htended, hwaits, htext, -⟩
  rcases h.writer with ⟨o, hwriter, -⟩
  rcases Chain.idle_backlog h.carries.sound htended hwaits hwriter with ⟨hbacklog, hstanding⟩
  rw [h.standing] at hstanding
  cases hstanding
  refine ⟨?_, rfl, rfl⟩
  rw [hbacklog] at htext
  rw [← h.conserved, htext]
  exact (List.append_nil _).symm

/-- Whatever happens along a pipe, in whatever order, as long as its reader is not closed:
the bytes that were returned, those that wait in the inlet, and those that are held along
the chain are the accepted items, in order.  The end of the stream is reported only if the
writer has closed it, a failure of the producer only if the writer went away without, and
both only after the last accepted byte; the only other failure is that of a call that would
wait when the token was fired.  In an idle pipe a call has to wait only if every accepted
byte was returned and nobody has ended the writing.  The writer has closed the stream if and
only if it was told to before it was dropped, and it is gone if and only if it was dropped. -/
theorem run_delivers (contentLength n : Nat) (interrupted : Bool) (events : List PipeEvent)
    (hreading : ∀ e ∈ events, e.endsReading = false) :
    let t := (start contentLength n .reader interrupted).run events
    ∃ b o, t.line.sink = .inlet b ∧ t.line.chain.writer? = some o ∧
      (o.closed = true ↔ ∃ before e later, events = before ++ e :: later ∧
        e = .writes .finish ∧ .writes .drop ∉ before) ∧
      (o.writerHeld = false ↔ .writes .drop ∈ events) ∧
      t.returned ++ (b.current ++ b.chunks.flatten) ++ t.line.chain.held = t.accepted.flatten ∧
      (∀ call a, b.answer call t.line.interrupted = some a →
        (0 < call.wanted → a.value = .ok [] →
          o.closed = true ∧ .writes .finish ∈ events ∧ t.returned = t.accepted.flatten) ∧
        ∀ f, a.value = .error f →
          f = .condition (.interrupted .data) ∧ t.line.interrupted = true ∨
          f = .producer (Cause.relayed^[n] (.condition .abandoned)) ∧ o.closed = false ∧
            o.writerHeld = false ∧ .writes .drop ∈ events ∧
              t.returned = t.accepted.flatten) ∧
      (t.line.isIdle = true → ∀ call, b.answer call t.line.interrupted = none →
        t.returned = t.accepted.flatten ∧ o.closed = false ∧ o.writerHeld = true ∧
          ∀ e ∈ events, e.endsWriting = false) := by
  intro t
  obtain ⟨st, given, b, h, hhonest, hclosed, hgone⟩ :=
    run_delivering contentLength n interrupted hreading
  rcases h.writer with ⟨o, hwriter, -, rfl⟩
  have hfinishes : o.closed = true → .writes .finish ∈ events := by
    intro hcomplete
    obtain ⟨before, e, later, rfl, rfl, -⟩ := hclosed.mp hcomplete
    simp
  refine ⟨b, o, h.carries.sink, hwriter, hclosed, hgone, ?_, ?_, ?_⟩
  · have htext := h.carries.text
    rw [Emission.cargo_nil, List.nil_append, h.carries.sound.bytes_backlog hwriter] at htext
    rw [List.append_assoc]
    exact (congrArg (t.returned ++ ·) htext).trans h.conserved
  · intro call a hanswer
    rw [Inlet.answer_eq_read] at hanswer
    constructor
    · intro hwanted hvalue
      rcases h.of_complete hhonest hanswer hwanted hvalue with ⟨hcomplete, hreturned⟩
      exact ⟨hcomplete, hfinishes hcomplete, hreturned⟩
    · intro f hvalue
      rcases h.of_failure hhonest hanswer hvalue with hinterrupted | ⟨hf, hopen, hleft, hreturned⟩
      · exact .inl hinterrupted
      · exact .inr ⟨hf, hopen, hleft, hgone.mp hleft, hreturned⟩
  · intro hidle call hanswer
    rw [Inlet.answer_eq_read] at hanswer
    obtain ⟨hreturned, hopen, hheld⟩ := h.of_waiting hidle hanswer
    refine ⟨hreturned, hopen, hheld, fun e hmem => ?_⟩
    have hdrop : .writes .drop ∉ events := by
      rw [← hgone]
      simpa using hheld
    -- A step that closes would have closed: nobody has dropped the writer before it.
    have hfinish : .writes .finish ∉ events := by
      intro hmem
      obtain ⟨before, later, hsplit⟩ := List.append_of_mem hmem
      have hbefore : .writes .drop ∉ before :=
        fun hdropped => hdrop (hsplit ▸ List.mem_append_left _ hdropped)
      have hclosing := hclosed.mpr ⟨before, _, later, hsplit, rfl, hbefore⟩
      exact absurd hclosing (by simpa using hopen)
    unfold PipeEvent.endsWriting
    split
    · exact absurd hmem hfinish
    · exact absurd hmem hdrop
    · rfl

/-- Two items go through one hop, are read by pieces, and are followed by the end. -/
theorem closed_pipe_delivers :
    let events : List PipeEvent :=
      List.replicate 12 .ticks ++ [.writes (.push [1, 2])] ++ List.replicate 12 .ticks ++
        [.reads (.upTo 1)] ++ [.reads .byte] ++ List.replicate 12 .ticks ++
        [.writes (.writeByte 3)] ++ [.writes .finish] ++ List.replicate 24 .ticks ++
        [.reads (.upTo 7)] ++ List.replicate 12 .ticks
    let t := (start 3 1 .reader false).run events
    (∀ e ∈ events, e.endsReading = false) ∧
      ∃ b o, t.line.sink = .inlet b ∧ t.line.chain.writer? = some o ∧
        (b.answer .byte t.line.interrupted).map (·.value) = some (.ok []) ∧ o.closed = true ∧
          t.returned = t.accepted.flatten ∧ t.returned = [1, 2, 3] := by
  intro events t
  have hreading : ∀ e ∈ events, e.endsReading = false := by decide
  have hreturned : t.returned = [1, 2, 3] := by decide +kernel
  have hend : t.line.sink.inlet?.bind (fun b =>
      (b.answer .byte t.line.interrupted).map (·.value)) = some (.ok []) := by
    decide +kernel
  rcases run_delivers 3 1 false events hreading with ⟨b, o, hsink, hwriter, -, -, -, hcalls, -⟩
  have hanswer : (b.answer .byte t.line.interrupted).map (·.value) = some (.ok []) := by
    rw [hsink] at hend
    exact hend
  rcases Option.map_eq_some_iff.mp hanswer with ⟨a, ha, hvalue⟩
  rcases (hcalls .byte a ha).1 Nat.one_pos hvalue with ⟨hclosed, -, hall⟩
  exact ⟨hreading, b, o, hsink, hwriter, hanswer, hclosed, hall, hreturned⟩

end Pipe
end CreditFlow
