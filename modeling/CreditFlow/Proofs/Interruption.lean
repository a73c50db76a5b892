import CreditFlow.Proofs.InletInterruption
import CreditFlow.Proofs.OutletInterruption

/-!
# Interruption

A thread that is blocked at a bridge can be interrupted.  This is transparent on both sides:
the interrupt token decides whether a call that would have to wait fails instead, and nothing
else, so calls that were interrupted might as well not have been made.

Callers of byte-stream calls try again on their own when they are told of an interruption under
the kind that is meant for it.  A bridge never uses that kind, not even for a cause that came
with it.

Main results:

- {lit}`interruption_is_transparent`: the whole law, for reading and for writing.
-/

namespace CreditFlow

/-- A failure of the producer is classed the same whatever it was classed as by the producer. -/
theorem IoFailure.stream_producer_ioKind (kind : IoKind) (text : String) :
    (stream (.producer (.io kind text))).ioKind = .other := rfl

/-- No byte-stream call fails under the kind that callers answer by trying again. -/
theorem IoFailure.ioKind_ne_interrupted (g : IoFailure) : g.ioKind ≠ .interrupted := by
  cases g with
  | stream f => exact f.ioKind_ne_interrupted
  | notSeekable => simp [ioKind]
  | endedEarly => simp [ioKind]

/-- Interruption is transparent.

- A call of a reader that need not wait answers the same when the token was fired: the same
  value, the same inlet, the same calls on others.  One that would have to wait says what it
  was waiting for, and leaves the inlet and all that is under way as it was.
- A step of a writer whose push need not wait comes to the same when the token was fired.  A
  push that would have to wait says that it was waiting for demand; the outlet, the
  subscription and what the consumer has heard stay as they were.
- Interrupted calls can be put in anywhere in a run, and the token can be fired for any call
  that need not wait: the run ends as it would have, and every other call is answered the
  same.
- No byte-stream call ever fails under the kind that callers answer by trying again, also when
  the cause was of that kind.
-/
theorem interruption_is_transparent :
    (∀ (t : InletTraffic) (call : ReaderCall),
      (∀ a, t.inlet.reply call false = some a → t.inlet.reply call true = some a ∧
        ∀ fired fired', t.ask call fired = t.ask call fired') ∧
      (t.inlet.reply call false = none →
        t.inlet.reply call true = some { value := call.refusal, after := t.inlet } ∧
          t.ask call true = t)) ∧
    (∀ (t : OutletTraffic) (s : WriterStep),
      (s.item? = none ∨ ¬t.Waits → t.attempt s true = t.attempt s false) ∧
      (∀ item, s.item? = some item → t.Waits → t.attempt s false = t ∧
        t.attempt s true =
          { t with
            pushes := t.pushes ++ [(item, .error (.condition (.interrupted .demand)))] })) ∧
    (∀ (edits : List (Edit InletMove)) (t : InletTraffic),
      Edit.Allowed InletTraffic.party InletTraffic.Interrupts InletTraffic.Heedless edits t →
      InletTraffic.party.run (Edit.before edits) t = InletTraffic.party.run (Edit.after edits) t ∧
        InletTraffic.party.replies (Edit.before edits) t = Edit.kept InletTraffic.party edits t) ∧
    (∀ (edits : List (Edit OutletEvent)) (t : OutletTraffic),
      Edit.Allowed OutletTraffic.party OutletTraffic.Interrupts OutletTraffic.Heedless edits t →
      (OutletTraffic.party.run (Edit.before edits) t).unlogged =
          (OutletTraffic.party.run (Edit.after edits) t).unlogged ∧
        OutletTraffic.party.replies (Edit.before edits) t =
          Edit.kept OutletTraffic.party edits t) ∧
    (∀ g : IoFailure, g.ioKind ≠ .interrupted) ∧
    ∀ kind text, (IoFailure.stream (.producer (.io kind text))).ioKind = .other := by
  refine ⟨fun t call => ⟨fun a hreply => ?_, fun hwaits => ?_⟩,
    fun t s => ⟨fun hready => ?_, fun item hitem hwaits => ?_⟩,
    InletTraffic.run_edited, OutletTraffic.run_edited, IoFailure.ioKind_ne_interrupted,
    IoFailure.stream_producer_ioKind⟩
  · have hready : t.inlet.reply call false ≠ none := by simp [hreply]
    exact ⟨Inlet.reply_fired_of_some hreply,
      fun fired fired' => (InletTraffic.ask_ready hready fired fired').2⟩
  · exact ⟨Inlet.reply_fired_of_none hwaits, (InletTraffic.ask_waiting hwaits).1⟩
  · exact OutletTraffic.attempt_ready hready true false
  · exact OutletTraffic.attempt_waiting hitem hwaits

/-- Interrupted calls before a producer comes and after everything was read, and interrupted
pushes before a consumer comes and after its credit was used up. -/
theorem interrupted_calls_leave_no_trace :
    let publisher : Peer InletCue := { name := "publisher", onRequest := [[.next [1, 2]]] }
    let reads : List (Edit InletMove) :=
      [.inserts (.asks (.bytes (.upTo 3)) true), .inserts (.asks .metadata true),
        .keeps (.happens (.begins (.subscribe publisher)))] ++
      List.replicate 4 (.keeps (.happens (.proceeds 0))) ++
      [.alters (.asks (.bytes (.upTo 3)) false) (.asks (.bytes (.upTo 3)) true),
        .inserts (.asks (.bytes .byte) true)]
    let pushes : List (Edit OutletEvent) :=
      [.inserts (.push [7] true), .keeps .subscribe, .keeps (.request 0 1), .keeps .arrive,
        .keeps .arrive, .alters (.push [1] false) (.push [1] true), .keeps .proceed,
        .keeps .proceed, .inserts (.push [2] true)]
    let t := InletTraffic.start false
    let u := OutletTraffic.start 1
    (InletTraffic.party.run (Edit.after reads) t).returned = [1, 2] ∧
      (Edit.kept InletTraffic.party reads t).map (Option.map ReaderReply.octets) =
        [none, none, none, none, none, some [1, 2]] ∧
      (OutletTraffic.party.run (Edit.after pushes) u).unlogged =
        (OutletTraffic.party.run (Edit.before pushes) u).unlogged ∧
      (Edit.kept OutletTraffic.party pushes u).map Prod.fst =
        [[], [], [], [], [], [], [([1], .ok ())]] ∧
      t.inlet.reply .metadata true =
        some { value := ReaderCall.refusal .metadata, after := t.inlet } ∧
      (u.attempt (.write [1, 2]) true).pushes =
        [([1, 2], .error (.condition (.interrupted .demand)))] ∧
      u.attempt (.write []) true = u := by
  intro publisher reads pushes t u
  obtain ⟨hreader, hwriter, hreads, hpushes, -, -⟩ := interruption_is_transparent
  have hinserted : Edit.Allowed InletTraffic.party InletTraffic.Interrupts
      InletTraffic.Heedless reads t := by
    refine ⟨⟨_, rfl, ?_⟩, ⟨_, rfl, ?_⟩, ⟨_, _, _, rfl, rfl, ?_⟩, ⟨_, rfl, ?_⟩, trivial⟩
    · rfl
    · rfl
    · exact Option.isSome_iff_ne_none.mp (by decide +kernel)
    · exact Option.isNone_iff_eq_none.mp (by decide +kernel)
  have hpushed : Edit.Allowed OutletTraffic.party OutletTraffic.Interrupts
      OutletTraffic.Heedless pushes u := by
    refine ⟨⟨_, rfl, ?_⟩, ⟨_, _, _, rfl, rfl, fun hwaits => ?_⟩, ⟨_, rfl, ?_⟩, trivial⟩
    · exact ⟨rfl, rfl, rfl⟩
    · exact Option.isSome_iff_ne_none.mp (by decide +kernel) hwaits.2.2
    · refine ⟨?_, ?_, Option.isNone_iff_eq_none.mp ?_⟩
      · decide +kernel
      · decide +kernel
      · decide +kernel
  obtain ⟨hend, hanswers⟩ := hreads reads t hinserted
  obtain ⟨hends, hreplies⟩ := hpushes pushes u hpushed
  refine ⟨?_, ?_, hends.symm, ?_, ((hreader t .metadata).2 rfl).1, ?_, ?_⟩
  · rw [← hend]
    decide +kernel
  · rw [← hanswers]
    decide +kernel
  · rw [← hreplies]
    rfl
  · rw [((hwriter u (.write [1, 2])).2 [1, 2] rfl ⟨rfl, rfl, rfl⟩).2]
    rfl
  · exact (hwriter u (.write [])).1 (.inl rfl)

end CreditFlow
