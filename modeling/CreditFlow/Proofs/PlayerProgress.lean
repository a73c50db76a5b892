import CreditFlow.Proofs.PlayerFidelity

/-!
# The reader of a player comes to the end

Every errand, every chunk of the script and every byte in the inlet can come to so many events
and no more.  An event either uses some of them up, or its thread has to wait; and the two
threads never wait at once, for the one item of credit is always somewhere between them.  So a
schedule that comes round to both threads again and again brings the reader to the end, after
a number of rounds that only the chunks decide.

Main results:

- {lit}`Duet.perform_toil`: an errand pays for everything that follows from it.
- {lit}`Duet.Sound.not_both_idle`: one of the two threads can go on.
- {lit}`Duet.run_reads_script`: what the reader is given, and that it comes to the end.
-/

namespace CreditFlow

/-! ## What can still happen -/

/-- How many events an errand can come to, with all that follows from it. -/
def Errand.toil : Errand → Nat
  | .enters (.subscribed _) => 5
  | .enters (.next chunk) => chunk.length + 5
  | .notify => 2
  | _ => 1

/-- How many events several errands can come to. -/
def toilOf (errands : List Errand) : Nat :=
  (errands.map Errand.toil).sum

@[simp]
theorem toilOf_nil : toilOf [] = 0 := rfl

@[simp]
theorem toilOf_cons (x : Errand) (rest : List Errand) :
    toilOf (x :: rest) = x.toil + toilOf rest := by
  simp [toilOf]

@[simp]
theorem toilOf_append (errands others : List Errand) :
    toilOf (errands ++ others) = toilOf errands + toilOf others := by
  simp [toilOf]

/-- A control comes to three errands, the last of which may wake the thread. -/
@[simp]
theorem Control.toil_errands (c : Control) : toilOf c.errands = 4 := rfl

/-- How many events a script can come to. -/
def scriptToil : List Step → Nat
  | [] => 2
  | .chunk bytes :: rest => bytes.length + 6 + scriptToil rest
  | .fail _ :: _ => 4
  | .complete :: _ => 4

/-- A script can come to six events for each chunk, one for each byte, and four for its end. -/
theorem scriptToil_chunks (chunks : List Octets) (e : Finale) (after : List Step) :
    scriptToil (chunks.map .chunk ++ e.step :: after) =
      chunks.flatten.length + 6 * chunks.length + 4 := by
  induction chunks with
  | nil => cases e <;> rfl
  | cons chunk rest ih =>
      simp only [List.map_cons, List.cons_append, scriptToil, ih, List.flatten_cons,
        List.length_append, List.length_cons]
      omega

/-- How many events a thread that stands somewhere before a script can come to. -/
def Performance.toil (script : List Step) : Performance → Nat
  | .fresh => scriptToil script + 6
  | .playing => scriptToil script
  | .leaving => 1
  | .over => 0

/-- How many events the thread of a player can come to, beside the call that it is making. -/
def Player.toil (p : Player) : Nat :=
  p.performance.toil p.script + if p.asleep then 0 else 1

/-- How many events the contents of an inlet can come to.  The reader asks for another chunk
when it takes one. -/
def Inlet.toil (b : Inlet Unit) : Nat :=
  b.unread.length + 4 * b.chunks.length

namespace Duet

/-- How many events can use something up before the end. -/
def toil (d : Duet) : Nat :=
  d.player.toil + d.inlet.toil + toilOf d.playing + toilOf d.reading

/-- A whole duet can come to no more events than this. -/
theorem start_toil (chunks : List Octets) (e : Finale) (after : List Step) :
    (start (chunks.map .chunk ++ e.step :: after)).toil =
      chunks.flatten.length + 6 * chunks.length + 11 := by
  have hscript := scriptToil_chunks chunks e after
  simp only [toil, start, Player.toil, Performance.toil, hscript, Inlet.toil, Inlet.unread,
    Inlet.chunks, toilOf_nil, List.filterMap_nil, List.flatten_nil, List.append_nil,
    List.length_nil, Bool.false_eq_true, if_false]

end Duet

/-! ## Errands use something up -/

namespace Inlet

/-- Resolving the metadata leaves nothing more to do. -/
theorem resolves_toil (s : Signal Unit) (b : Inlet Unit) :
    (b.resolves s).1.toil = b.toil ∧ Reaction.errands (b.resolves s).2 = [] := by
  cases s <;> exact ⟨rfl, rfl⟩

/-- A subscription leaves at most a request to do. -/
theorem subscribed_toil (handle : Unit) (b : Inlet Unit) :
    (b.subscribed handle).1.toil = b.toil ∧
      toilOf (Reaction.errands (b.subscribed handle).2) = 4 := by
  cases hslot : b.slot <;> simp [subscribed, hslot, toil, unread, chunks, Reaction.errands]

/-- A chunk brings its bytes and a request, or nothing but a control. -/
theorem next_toil (chunk : Octets) (b : Inlet Unit) :
    (b.next chunk).1.toil + toilOf (Reaction.errands (b.next chunk).2) ≤
      b.toil + chunk.length + 4 := by
  unfold next
  split
  · split
    · simp [toil, unread, chunks, Reaction.errands]
    · split
      · simp [Reaction.errands]
      · have hchunks : Inlet.chunks { b with
            credit := b.credit - 1
            queue := b.queue ++ [.data chunk] } = b.chunks ++ [chunk] := by simp [chunks]
        simp only [toil, unread, hchunks, List.flatten_append, List.flatten_cons, List.flatten_nil,
          List.append_nil, List.length_append, List.length_cons, List.length_nil, Reaction.errands,
          Reaction.controls_note, Reaction.controls_nil, List.flatMap_nil, toilOf_nil]
        omega
  · simp only [Reaction.errands, Reaction.controls_note, Reaction.controls_nil, List.flatMap_nil,
      toilOf_nil]
    omega

/-- A failing stream leaves nothing more to do. -/
theorem failStream_toil (f : Failure) (b : Inlet Unit) :
    (b.failStream f).1.toil = b.toil ∧ Reaction.errands (b.failStream f).2 = [] := by
  simp [toil, Reaction.errands, failStream_controls]

/-- A completing stream leaves nothing more to do. -/
theorem completeStream_toil (b : Inlet Unit) :
    b.completeStream.1.toil = b.toil ∧ Reaction.errands b.completeStream.2 = [] := by
  have hchunks : b.completeStream.1.chunks = b.chunks := by
    unfold completeStream
    split
    · rfl
    · simp [chunks]
  simp [toil, Reaction.errands, completeStream_controls, hchunks]

end Inlet

namespace Player

theorem putDown_toil (c : Control) (p : Player) : (p.putDown c).toil = p.toil := rfl

theorem count_toil (c : Control) (p : Player) : (p.count c).toil = p.toil := by
  cases c with
  | request n =>
      simp only [count]
      split <;> rfl
  | cancel => rfl
  | release => rfl

/-- A thread that is woken has at most to look around once more. -/
theorem notify_toil (p : Player) : p.notify.toil ≤ p.toil + 1 := by
  simp only [toil, notify, Bool.false_eq_true, if_false]
  omega

end Player

namespace Duet

/-- An errand changes neither what is left of the calls nor what the reader was given. -/
theorem perform_kept (d : Duet) (x : Errand) :
    (d.perform x).1.playing = d.playing ∧ (d.perform x).1.reading = d.reading ∧
      (d.perform x).1.returned = d.returned := by
  cases x <;> exact ⟨rfl, rfl, rfl⟩

/-- An errand pays for everything that follows from it. -/
theorem perform_toil (d : Duet) (x : Errand) :
    (d.perform x).1.toil + toilOf (d.perform x).2 < d.toil + x.toil := by
  cases x with
  | resolves s =>
      obtain ⟨hsame, hnone⟩ := d.inlet.resolves_toil s
      simp [perform, toil, hsame, hnone, Errand.toil]
  | enters s =>
      cases s with
      | subscribed handle =>
          obtain ⟨hsame, hcalls⟩ := d.inlet.subscribed_toil handle
          simp only [perform, Inlet.enters, toil, hsame, hcalls, Errand.toil]
          omega
      | next chunk =>
          have hbrings := d.inlet.next_toil chunk
          simp only [perform, Inlet.enters, toil, Errand.toil]
          omega
      | error cause =>
          obtain ⟨hsame, hnone⟩ := d.inlet.failStream_toil (.producer cause)
          simp [perform, Inlet.enters, toil, hsame, hnone, Errand.toil]
      | complete =>
          obtain ⟨hsame, hnone⟩ := d.inlet.completeStream_toil
          simp [perform, Inlet.enters, toil, hsame, hnone, Errand.toil]
  | putDown c => simp [perform, toil, Player.putDown_toil, Errand.toil]
  | count c => simp [perform, toil, Player.count_toil, Errand.toil]
  | notify =>
      have hwakes := d.player.notify_toil
      simp only [perform, toil, Errand.toil, toilOf_nil]
      omega

end Duet

/-! ## The player uses something up -/

/-- A thread that tells the end has little left. -/
theorem Player.finishWith_toil {s : Signal Unit} (hcost : toilOf s.errands = 2) {p : Player}
    (hawake : p.asleep = false) :
    (p.finishWith s).1.toil + toilOf (p.finishWith s).2.2.errands ≤ 4 := by
  unfold finishWith
  split <;> simp [toil, hawake, Performance.toil, Move.errands, hcost]

/-- A thread that is awake and not over uses something up. -/
theorem Player.advance_toil {p : Player} (hawake : p.asleep = false)
    (hgoes : p.performance ≠ .over) :
    p.advance.1.toil + toilOf p.advance.2.2.errands < p.toil := by
  have hpaid : p.toil = p.performance.toil p.script + 1 := by simp [toil, hawake]
  rw [hpaid]
  cases hperformance : p.performance with
  | fresh =>
      simp [advance, hperformance, toil, hawake, Performance.toil, Move.errands, Signal.errands,
        Errand.toil]
  | playing =>
      simp only [advance, hperformance, Performance.toil]
      cases hscript : p.script with
      | nil => simp [toil, hawake, Performance.toil, Move.errands, scriptToil]
      | cons step rest =>
          cases step with
          | chunk bytes =>
              dsimp only
              split
              · simp only [toil, hawake, Performance.toil, Move.errands, scriptToil, toilOf_nil,
                  Bool.false_eq_true, if_false]
                omega
              · split
                · simp [toil, Performance.toil, Move.errands]
                · simp only [toil, hawake, Performance.toil, Move.errands, Signal.errands,
                    Errand.toil, scriptToil, toilOf_cons, toilOf_nil, Bool.false_eq_true, if_false]
                  omega
          | fail text =>
              have htold := finishWith_toil (s := .error (.test text)) rfl hawake
              simp only [scriptToil]
              omega
          | complete =>
              have htold := finishWith_toil (s := .complete) rfl hawake
              simp only [scriptToil]
              omega
  | leaving => simp [advance, hperformance, toil, hawake, Performance.toil, Move.errands]
  | _ => exact absurd hperformance hgoes

/-! ## The reader uses something up -/

namespace Duet

/-- A call for some bytes that answers with an end reports it. -/
theorem reportsEnd_verdict {call : ReadCall} (hwanted : 0 < call.wanted)
    (v : Except Failure Unit) : reportsEnd (call, v.map fun _ => []) = true := by
  cases v <;> simp [reportsEnd, hwanted, Except.map]

end Duet

/-- A call that is answered with bytes uses some up, even if it asks for another chunk. -/
theorem Inlet.Reads.toil_lt {b : Inlet Unit} (h : b.Orderly) {call : ReadCall}
    (hwanted : 0 < call.wanted) {a : Inlet.Answer Unit (Except Failure Octets)}
    (hreads : Inlet.Reads b call.wanted a) :
    a.after.toil + toilOf (Reaction.errands a.reactions) < b.toil ∨
      Duet.reportsEnd (call, a.value) = true := by
  cases hreads with
  | held hcurrent =>
      have hsome := List.length_pos_iff.mpr hcurrent
      refine .inl ?_
      simp only [toil, unread, chunks, Reaction.errands, Reaction.controls_nil, List.flatMap_nil,
        toilOf_nil, List.length_append, List.length_drop]
      omega
  | takes c rest hcurrent hqueue hslot hverdict =>
      have hc : c ≠ [] := h.chunks_ne c (by simp [chunks, hqueue])
      have hsome := List.length_pos_iff.mpr hc
      refine .inl ?_
      have hchunks : b.chunks = c :: rest.filterMap Element.chunk? := by simp [chunks, hqueue]
      have hcalls : toilOf (Reaction.errands
          [.note .requestingNextChunk, .control () (.request 1)]) = 4 := rfl
      simp only [toil, unread, hcurrent, hchunks, hcalls, List.flatten_cons, List.nil_append,
        List.length_append, List.length_cons, List.length_drop]
      simp only [chunks]
      omega
  | known v hcurrent hverdict => exact .inr (Duet.reportsEnd_verdict hwanted v)
  | sees m note hcurrent hqueue hmark hverdict =>
      exact .inr (Duet.reportsEnd_verdict hwanted m.verdict)

namespace Duet

/-! ## Threads that wait -/

/-- Whether an event finds nothing to do. -/
def idles (d : Duet) : DuetEvent → Prop
  | .plays => d.playing = [] ∧ (d.player.asleep = true ∨ d.player.performance = .over)
  | .reads call => d.reading = [] ∧ (call.wanted = 0 ∨ d.inlet.answer call false = none)

/-- The thread of the player uses something up, or has to wait. -/
theorem step_plays_toil (d : Duet) :
    (d.step .plays).toil < d.toil ∨ d.idles .plays ∧ d.step .plays = d := by
  cases hplaying : d.playing with
  | cons x rest =>
      have hpays := d.perform_toil x
      obtain ⟨hkept, -, -⟩ := d.perform_kept x
      refine .inl ?_
      simp only [toil, hkept, hplaying, toilOf_cons] at hpays
      simp only [step, hplaying, toil, toilOf_append, toilOf_cons]
      omega
  | nil =>
      by_cases hasleep : d.player.asleep = true
      · exact .inr ⟨⟨hplaying, .inl hasleep⟩, by simp [step, hplaying, hasleep]⟩
      · by_cases hover : d.player.performance = .over
        · have hstep : d.step .plays = { d with playing := [] } := by
            simp [step, hplaying, hasleep, Player.advance, hover, Move.errands]
          exact .inr ⟨⟨hplaying, .inr hover⟩, by rw [hstep, ← hplaying]⟩
        · have hpays := Player.advance_toil (by simpa using hasleep) hover
          refine .inl ?_
          simp only [step, hplaying, hasleep, toil, toilOf_nil, Bool.false_eq_true, if_false]
          omega

section Sound

variable {chunks : List Octets} {e : Finale} {after : List Step} {left : List Octets} {d : Duet}

/-- The reader uses something up, or is told of the end, or finds nothing to do. -/
theorem Sound.step_reads_toil (h : d.Sound chunks e after left) (call : ReadCall) :
    (d.step (.reads call)).toil < d.toil ∨ (d.step (.reads call)).reachedEnd = true ∨
      d.idles (.reads call) ∧
        ∃ returned, d.step (.reads call) = { d with returned := returned } := by
  cases hreading : d.reading with
  | cons x rest =>
      have hpays := d.perform_toil x
      obtain ⟨-, hkept, -⟩ := d.perform_kept x
      refine .inl ?_
      simp only [toil, hkept, hreading, toilOf_cons] at hpays
      simp only [Duet.step, hreading, toil, toilOf_append, toilOf_cons]
      omega
  | nil =>
      cases hanswer : d.inlet.answer call false with
      | none =>
          refine .inr (.inr ⟨⟨hreading, .inr hanswer⟩, d.returned, ?_⟩)
          rw [step_of_nothing hreading hanswer, ← hreading]
      | some a =>
          have hread : d.inlet.read call.wanted false = some a := by
            rw [← Inlet.answer_eq_read, hanswer]
          rw [step_of_answer hreading hanswer]
          rcases Nat.eq_zero_or_pos call.wanted with hwanted | hwanted
          · rw [hwanted, Inlet.read_zero] at hread
            cases hread
            refine .inr (.inr ⟨⟨hreading, .inl hwanted⟩, d.returned ++ [(call, .ok [])], ?_⟩)
            simp [Reaction.errands]
          · have hreads := Inlet.reads_of_read h.orderly h.paced h.course.not_closed hwanted hread
            rcases hreads.toil_lt h.orderly hwanted with huses | hreports
            · refine .inl ?_
              simp only [toil, hreading, toilOf_nil]
              omega
            · refine .inr (.inl ?_)
              simp [reachedEnd, hreports]

/-- The two threads are never both idle: someone has the credit, and goes on with it. -/
theorem Sound.not_both_idle (h : d.Sound chunks e after left) {call : ReadCall}
    (hwanted : 0 < call.wanted) (hplays : d.idles .plays) : ¬d.idles (.reads call) := by
  rintro ⟨hreading, hnothing⟩
  have hnone : d.inlet.read call.wanted false = none := by
    rw [← Inlet.answer_eq_read]
    exact hnothing.resolve_left (by omega)
  obtain ⟨-, hopen, -, hempty⟩ := Inlet.read_eq_none h.orderly hnone
  obtain ⟨hplaying, hasleep | hover⟩ := hplays
  · -- A player that sleeps has no credit, so a chunk waits for the reader.
    obtain ⟨-, hperformance, hbroke⟩ := h.broke hreading hasleep
    have hcounted := h.counted
    simp only [hplaying, hreading, hbroke, List.countP_nil] at hcounted
    have hcourse := h.course
    rw [hplaying] at hcourse
    have hwindow := h.paced
    simp only [Inlet.Paced, hcourse.installed_of_playing hperformance, hempty,
      List.length_nil] at hwindow
    omega
  · cases hopen.symm.trans (h.course.terminated_of_over hover)

/-! ## Rounds -/

/-- Answers that were given stay given. -/
theorem step_returned (d : Duet) (event : DuetEvent) :
    ∃ more, (d.step event).returned = d.returned ++ more := by
  have hkept : ∀ x, (d.perform x).1.returned = d.returned := fun x => (d.perform_kept x).2.2
  cases event with
  | plays =>
      refine ⟨[], ?_⟩
      simp only [step, List.append_nil]
      split
      · exact hkept _
      · split <;> rfl
  | reads call =>
      cases hreading : d.reading with
      | cons x rest => exact ⟨[], by simp [step, hreading, hkept]⟩
      | nil =>
          cases hanswer : d.inlet.answer call false with
          | none => exact ⟨[], by simp [step_of_nothing hreading hanswer]⟩
          | some a => exact ⟨[(call, a.value)], by rw [step_of_answer hreading hanswer]⟩

/-- The end, once reported, stays reported. -/
theorem reachedEnd_step (hend : d.reachedEnd = true) (event : DuetEvent) :
    (d.step event).reachedEnd = true := by
  obtain ⟨more, hmore⟩ := d.step_returned event
  simp only [reachedEnd] at hend ⊢
  rw [hmore, List.any_append, hend, Bool.true_or]

/-- An end that was reported stays reported. -/
theorem reachedEnd_run (hend : d.reachedEnd = true) (events : List DuetEvent) :
    (d.run events).reachedEnd = true := by
  induction events generalizing d with
  | nil => exact hend
  | cons event events ih => exact ih (reachedEnd_step hend event)

/-- An event uses something up, or tells of the end, or finds nothing to do. -/
theorem Sound.step_toil (h : d.Sound chunks e after left) (event : DuetEvent) :
    (d.step event).toil < d.toil ∨ (d.step event).reachedEnd = true ∨
      d.idles event ∧ ∃ returned, d.step event = { d with returned := returned } := by
  cases event with
  | plays =>
      rcases d.step_plays_toil with huses | ⟨hidles, hsame⟩
      · exact .inl huses
      · exact .inr (.inr ⟨hidles, d.returned, hsame⟩)
  | reads call => exact h.step_reads_toil call

/-- So do several events; and if they use nothing up, none of them found anything to do. -/
theorem Sound.run_toil (h : d.Sound chunks e after left) (events : List DuetEvent) :
    (d.run events).toil < d.toil ∨ (d.run events).reachedEnd = true ∨
      (∀ event ∈ events, d.idles event) ∧
        ∃ returned, d.run events = { d with returned := returned } := by
  induction events generalizing d left with
  | nil => exact .inr (.inr ⟨by simp, d.returned, rfl⟩)
  | cons event events ih =>
      obtain ⟨rest, hnext⟩ := h.step event
      have hrun : d.run (event :: events) = (d.step event).run events := rfl
      rw [hrun]
      rcases h.step_toil event with huses | hend | ⟨hidles, returned, hstep⟩
      · rcases ih hnext with hmore | hend | ⟨-, others, hsame⟩
        · exact .inl (Nat.lt_trans hmore huses)
        · exact .inr (.inl hend)
        · refine .inl ?_
          rw [hsame]
          exact huses
      · exact .inr (.inl (reachedEnd_run hend events))
      · rw [hstep] at hnext ⊢
        rcases ih hnext with hmore | hend | ⟨hothers, others, hsame⟩
        · exact .inl hmore
        · exact .inr (.inl hend)
        · exact .inr (.inr ⟨List.forall_mem_cons.mpr ⟨hidles, hothers⟩, others, hsame⟩)

/-- Whether a list of events comes round to both threads, the reader asking for some bytes. -/
def IsRound (events : List DuetEvent) : Prop :=
  .plays ∈ events ∧ ∃ call, .reads call ∈ events ∧ 0 < call.wanted

/-- A round uses something up, or brings the reader to the end. -/
theorem Sound.round_toil (h : d.Sound chunks e after left) {events : List DuetEvent}
    (hround : IsRound events) :
    (d.run events).toil < d.toil ∨ (d.run events).reachedEnd = true := by
  obtain ⟨hplays, call, hreads, hwanted⟩ := hround
  rcases h.run_toil events with huses | hend | ⟨hidles, -⟩
  · exact .inl huses
  · exact .inr hend
  · exact absurd (hidles _ hreads) (h.not_both_idle hwanted (hidles _ hplays))

/-- Enough rounds bring the reader to the end. -/
theorem Sound.rounds_end (h : d.Sound chunks e after left) {rounds : List (List DuetEvent)}
    (hrounds : ∀ round ∈ rounds, IsRound round) (henough : d.toil < rounds.length) :
    (d.run rounds.flatten).reachedEnd = true := by
  induction rounds generalizing d left with
  | nil => exact absurd henough (Nat.not_lt_zero _)
  | cons round rounds ih =>
      obtain ⟨rest, hnext⟩ := h.run round
      have hrun : d.run (round :: rounds).flatten = (d.run round).run rounds.flatten := by
        simp [Duet.run]
      rw [hrun]
      rcases h.round_toil (hrounds round List.mem_cons_self) with huses | hend
      · refine ih hnext (fun other hmem => hrounds other (List.mem_cons_of_mem _ hmem)) ?_
        simp only [List.length_cons] at henough
        omega
      · exact reachedEnd_run hend rounds.flatten

end Sound

/-! ## The whole script -/

/-- However the threads of a player and of its reader take turns, whatever the reader asks for,
and wherever the first end of the script stands: the reader is given the beginning of the
bytes.  When it comes to the end it was given all of them, the player was asked for one item
at a time, once at first and once for every chunk, and every later call answers with the end
at once.  And it does come to the end, after so many rounds. -/
theorem run_reads_script (chunks : List Octets) (e : Finale) (after : List Step) :
    (∀ events : List DuetEvent,
      let d := (start (chunks.map .chunk ++ e.step :: after)).run events
      d.text <+: chunks.flatten ∧
        (d.reachedEnd = true →
          d.text = chunks.flatten ∧
            d.player.log = { requests := List.replicate (1 + chunks.length) 1, cancels := 0 } ∧
            (∃ first last, d.returned = first ++ last ∧
              (first.map fun p => Inlet.bytes p.2).flatten = chunks.flatten ∧
                (∀ p ∈ first, reportsEnd p = false) ∧
                  ∀ p ∈ last, p.2 = if p.1.wanted = 0 then .ok [] else e.answer) ∧
            ∀ call, d.step (.reads call) =
              { d with
                returned := d.returned ++
                  [(call, if call.wanted = 0 then .ok [] else e.answer)] })) ∧
      ∀ rounds : List (List DuetEvent), (∀ round ∈ rounds, IsRound round) →
        chunks.flatten.length + 6 * chunks.length + 11 < rounds.length →
          ((start (chunks.map .chunk ++ e.step :: after)).run rounds.flatten).reachedEnd =
            true := by
  constructor
  · intro events d
    obtain ⟨left, h⟩ := run_sound chunks e after events
    have hcarried : d.text ++ (d.inlet.unread ++ left.flatten) = chunks.flatten := by
      rw [← List.append_assoc]
      exact h.carried
    refine ⟨⟨_, hcarried⟩, fun hend => ?_⟩
    have hverdict := h.verdict_of_reachedEnd hend
    obtain ⟨-, -, htext, -, hlog⟩ := h.of_seen hverdict
    exact ⟨htext, hlog, h.heard.afterwards (by simp [hverdict]), h.reads_of_seen hverdict⟩
  · intro rounds hrounds henough
    refine (start_sound chunks e after).rounds_end hrounds ?_
    rw [start_toil]
    exact henough

/-- A script with an empty chunk and another one behind its end, read two bytes at a time. -/
theorem short_script_is_read :
    let script : List Step := [.chunk [1, 2, 3], .chunk [], .chunk [4], .fail "gone", .complete]
    let rounds := List.replicate 34 [DuetEvent.plays, .reads (.upTo 2)]
    let d := (start script).run rounds.flatten
    d.reachedEnd = true ∧ d.text = [1, 2, 3, 4] ∧
      d.player.log = { requests := [1, 1, 1, 1], cancels := 0 } ∧
        (d.step (.reads .byte)).returned =
          d.returned ++ [(.byte, .error (.producer (.test "gone")))] := by
  have hscript := run_reads_script [[1, 2, 3], [], [4]] (.fail "gone") [.complete]
  have hend := hscript.2 (List.replicate 34 [.plays, .reads (.upTo 2)])
    (fun round hmem => by
      rw [List.eq_of_mem_replicate hmem]
      exact ⟨by simp, .upTo 2, by simp, by decide⟩)
    (by decide)
  obtain ⟨htext, hlog, -, hlater⟩ := (hscript.1 _).2 hend
  exact ⟨hend, htext, hlog, congrArg returned (hlater .byte)⟩

end Duet
end CreditFlow
