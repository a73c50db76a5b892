import CreditFlow.Proofs.MetadataErasure

/-!
# Publications that are put into a run

Somebody publishes the metadata between two events of a run, and is through at once.  The
metadata may be another one afterwards, and other notices are written down; but as many of
them as before, so whatever was under way still stands in its place, and the events that
follow find the same tasks there.

Main results:

- {lit}`InletTraffic.Matches.step`: traffic that differs in nothing but the metadata and the
  notices goes on so.
- {lit}`InletTraffic.plainEvents_publication`: a publication can be put in anywhere.
-/

namespace CreditFlow

/-! ## Tasks up to notices -/

namespace Task

/-- A task that is no notice is itself without the notices. -/
theorem eq_of_silence {task quiet : Task} (hquiet : task.silence = some quiet) : task = quiet := by
  cases task with
  | cue c =>
      cases hquiet
      rfl
  | reaction r =>
      cases r with
      | note n => cases hquiet
      | _ =>
          cases hquiet
          rfl

/-- What is left out is a notice. -/
theorem note_of_silence {task : Task} (hquiet : task.silence = none) :
    ∃ n, task = .reaction (.note n) := by
  cases task with
  | cue c => cases hquiet
  | reaction r =>
      cases r with
      | note n => exact ⟨n, rfl⟩
      | _ => cases hquiet

/-- Two tasks that are the same up to notices. -/
theorem silence_cases {task other : Task} (hsame : task.silence = other.silence) :
    task = other ∨ ∃ n n', task = .reaction (.note n) ∧ other = .reaction (.note n') := by
  cases hquiet : task.silence with
  | none =>
      obtain ⟨n, hn⟩ := note_of_silence hquiet
      obtain ⟨n', hn'⟩ := note_of_silence (hsame.symm.trans hquiet)
      exact .inr ⟨n, n', hn, hn'⟩
  | some quiet =>
      exact .inl ((eq_of_silence hquiet).trans (eq_of_silence (hsame.symm.trans hquiet)).symm)

end Task

/-! ## Runs side by side -/

namespace Exchange

/-- Two exchanges differ in nothing but the metadata and the record of notices. -/
structure Matches (w w' : Exchange) : Prop where
  inlet : w.inlet.plain = w'.inlet.plain
  interrupted : w.interrupted = w'.interrupted
  peers : w.peers = w'.peers
  calls : w.calls = w'.calls

variable {w w' : Exchange}

/-- They go on so, whatever is done in them. -/
theorem Matches.step (h : w.Matches w') {task other : Task}
    (hsame : task.silence = other.silence) :
    (w.step task).1.Matches (w'.step other).1 ∧
      (w.step task).2.map Task.silence = (w'.step other).2.map Task.silence := by
  obtain ⟨hinlet, hinterrupted, hpeers, hcalls⟩ := h
  rcases Task.silence_cases hsame with rfl | ⟨n, n', rfl, rfl⟩
  · cases task with
    | cue c =>
        obtain ⟨hafter, hout⟩ := Inlet.heed_plain_congr c w'.peers.length hinlet
        simp only [Exchange.step, perform_eq, hpeers, hinterrupted, Task.map_silence_reactions,
          hout]
        exact ⟨⟨hafter, rfl, rfl, hcalls⟩, trivial⟩
    | reaction r =>
        cases r with
        | note n => exact ⟨⟨hinlet, hinterrupted, hpeers, hcalls⟩, rfl⟩
        | control handle c =>
            simp only [Exchange.step, carryOut, hpeers, hcalls]
            exact ⟨⟨hinlet, hinterrupted, rfl, rfl⟩, trivial⟩
        | interrupt => exact ⟨⟨hinlet, rfl, hpeers, hcalls⟩, rfl⟩
  · exact ⟨⟨hinlet, hinterrupted, hpeers, hcalls⟩, rfl⟩

end Exchange

namespace InletTraffic

variable {t u : InletTraffic}

/-- Traffic and other traffic differ in nothing but the metadata, the notices, and the record of
what was told. -/
structure Matches (t u : InletTraffic) : Prop where
  world : t.world.Matches u.world
  underway : t.underway.map Task.silence = u.underway.map Task.silence
  returned : t.returned = u.returned

namespace Matches

/-- The same tasks are under way at each place, but for the notices. -/
theorem getElem? (h : t.Matches u) (place : Nat) :
    t.underway[place]?.map Task.silence = u.underway[place]?.map Task.silence := by
  rw [← List.getElem?_map, ← List.getElem?_map, h.underway]

/-- Of an event the same is left in both. -/
theorem plainEvent? (h : t.Matches u) (e : InletEvent) : t.plainEvent? e = u.plainEvent? e := by
  cases e with
  | proceeds place =>
      have htake : (t.underway.take place).map Task.silence =
          (u.underway.take place).map Task.silence := by
        rw [List.map_take, List.map_take, h.underway]
      have hrank : t.rank place = u.rank place :=
        congrArg List.length (Task.filterMap_plain?_congr htake)
      have htask : t.underway[place]?.bind Task.plain? = u.underway[place]?.bind Task.plain? := by
        have hall : ∀ o : Option Task, o.bind Task.plain? =
            (o.map Task.silence).bind fun quiet => quiet.bind Task.plain? := by
          intro o
          cases o with
          | none => rfl
          | some task => exact task.plain?_eq
        rw [hall, hall, h.getElem? place]
      simp only [InletTraffic.plainEvent?, hrank, htask]
  | _ => rfl

/-- Tasks that are the same but for the notices leave the same, but for the metadata. -/
theorem carry (h : t.Matches u) {task other : Task} (hsame : task.silence = other.silence) :
    (t.carry task).Matches (u.carry other) := by
  obtain ⟨hafter, hout⟩ := h.world.step hsame
  have hunderway : ((t.world.step task).2 ++ t.underway).map Task.silence =
      ((u.world.step other).2 ++ u.underway).map Task.silence := by
    rw [List.map_append, List.map_append, hout, h.underway]
  cases task <;> cases other <;> exact ⟨hafter, hunderway, h.returned⟩

/-- A changed inlet leaves the same, but for the metadata. -/
theorem change (h : t.Matches u) {after after' : Inlet Nat} (hafter : after.plain = after'.plain)
    (out : List (Reaction Nat)) : (t.change after out).Matches (u.change after' out) := by
  refine ⟨⟨hafter, h.world.interrupted, h.world.peers, h.world.calls⟩, ?_, h.returned⟩
  simp only [InletTraffic.change, List.map_append, h.underway]

/-- A reading call leaves the same, but for the metadata. -/
theorem read (h : t.Matches u) (call : ReadCall) : (t.read call).Matches (u.read call) := by
  have hanswer : (t.inlet.answer call t.world.interrupted).map
        (fun a => { a with after := a.after.plain }) =
      (u.inlet.answer call u.world.interrupted).map
        (fun a => { a with after := a.after.plain }) := by
    rw [← Inlet.answer_plain, ← Inlet.answer_plain, h.world.interrupted]
    exact congrArg _ h.world.inlet
  simp only [InletTraffic.read]
  cases ha : t.inlet.answer call t.world.interrupted with
  | none =>
      rw [ha] at hanswer
      rw [Option.map_eq_none_iff.mp hanswer.symm]
      exact h
  | some a =>
      rw [ha] at hanswer
      obtain ⟨a', ha', hsame⟩ := Option.map_eq_some_iff.mp hanswer.symm
      obtain ⟨value, after, reactions⟩ := a
      obtain ⟨value', after', reactions'⟩ := a'
      simp only [Inlet.Answer.mk.injEq] at hsame
      obtain ⟨rfl, hafter, rfl⟩ := hsame
      rw [ha']
      obtain ⟨hworld, hunderway, hreturned⟩ := h.change hafter.symm reactions'
      refine ⟨hworld, hunderway, ?_⟩
      simp only [h.returned]

/-- Whatever happens, they stay alike. -/
theorem step (h : t.Matches u) (e : InletEvent) : (t.step e).Matches (u.step e) := by
  cases e with
  | begins c =>
      refine ⟨h.world, ?_, h.returned⟩
      simp only [InletTraffic.step, List.map_cons, h.underway]
  | proceeds place =>
      have htask := h.getElem? place
      simp only [InletTraffic.step]
      cases hfirst : t.underway[place]? with
      | none =>
          rw [hfirst] at htask
          rw [Option.map_eq_none_iff.mp htask.symm]
          exact h
      | some task =>
          rw [hfirst] at htask
          obtain ⟨other, hother, hsame⟩ := Option.map_eq_some_iff.mp htask.symm
          rw [hother]
          apply carry _ hsame.symm
          refine ⟨h.world, ?_, h.returned⟩
          simp only [List.eraseIdx_eq_take_drop_succ, List.map_append, List.map_take, List.map_drop,
            h.underway]
  | reads call => exact h.read call
  | readerLeaves =>
      obtain ⟨hafter, hout⟩ := Inlet.dropReader_aloof.plain_congr h.world.inlet
      simp only [InletTraffic.step, InletTraffic.inlet, hout]
      exact h.change hafter _

/-- Of a run the same is left in both. -/
theorem plainEvents (h : t.Matches u) (events : List InletEvent) :
    plainEvents events t = plainEvents events u := by
  induction events generalizing t u with
  | nil => rfl
  | cons e events ih =>
      simp only [InletTraffic.plainEvents, h.plainEvent? e, ih (h.step e)]

end Matches

/-! ## Publications -/

/-- Somebody publishes the metadata, and is through at once. -/
def publication (value : String) : List InletEvent :=
  [.begins (.aside (.publish value)), .proceeds 0, .proceeds 0]

/-- A publication changes nothing but the metadata. -/
theorem run_publication (value : String) (t : InletTraffic) :
    (t.run (publication value)).Matches t :=
  ⟨⟨rfl, rfl, rfl, rfl⟩, rfl, rfl⟩

/-- What is left of a longer run is what is left of its first part, and then of the rest. -/
theorem plainEvents_append (first second : List InletEvent) (t : InletTraffic) :
    plainEvents (first ++ second) t = plainEvents first t ++ plainEvents second (t.run first) := by
  induction first generalizing t with
  | nil => rfl
  | cons e first ih => simp only [List.cons_append, plainEvents, ih, List.append_assoc, run_cons]

/-- A publication can be put in anywhere, and the same is left of the run. -/
theorem plainEvents_publication (first rest : List InletEvent) (value : String)
    (t : InletTraffic) :
    plainEvents (first ++ publication value ++ rest) t = plainEvents (first ++ rest) t := by
  have hnothing : ∀ t : InletTraffic, plainEvents (publication value) t = [] := fun _ => rfl
  rw [List.append_assoc, plainEvents_append, plainEvents_append, plainEvents_append, hnothing,
    List.nil_append, (run_publication value (t.run first)).plainEvents]

end InletTraffic
end CreditFlow
