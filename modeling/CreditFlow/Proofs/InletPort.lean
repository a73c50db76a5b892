import CreditFlow.Proofs.ChainPort
import CreditFlow.Proofs.InletContents
import Mathlib.Tactic.Common

/-!
# An inlet at its port

An inlet that stands behind a publisher, seen from the port between them.  It is *paired*
with the port when its subscription, its credit and its end are what the port says.  A
signal that the port allows, and every reading call, leaves the inlet paired with what the
port allows next; whenever it asks for an item, it has no credit left, or the stream has
ended and nobody minds.

What an inlet was given is what its reader has seen of it and what still waits: bytes, and
the end of the stream.

Main results:

- {lit}`Inlet.signal_tells`, {lit}`Inlet.read_tells`: an inlet asks only when it may.
- {lit}`Inlet.signal_text`, {lit}`Inlet.signal_ends`: what a signal brings is appended.
- {lit}`Inlet.read_ends`: the end that a reader sees is the one that was brought.
- {lit}`Inlet.read_eq_none`: what is known when a call has to wait.
-/

namespace CreditFlow

/-! ## Controls and ends -/

/-- The control of a reaction, if it is one. -/
def Reaction.control? {ι : Type} : Reaction ι → Option Control
  | .control _ c => some c
  | _ => none

/-- The controls of several reactions, in order. -/
def Reaction.controls {ι : Type} (rs : List (Reaction ι)) : List Control :=
  rs.filterMap control?

/-- How a signal ends the stream for a reader, if it does. -/
def Signal.end? : Signal Unit → Option (Except Failure Unit)
  | .error cause => some (.error (.producer cause))
  | .complete => some (.ok ())
  | _ => none

/-- The ends that several signals bring. -/
def Signal.ends (sigs : List (Signal Unit)) : List (Except Failure Unit) :=
  sigs.filterMap end?

@[simp]
theorem Signal.bytes_append (sigs others : List (Signal Unit)) :
    bytes (sigs ++ others) = bytes sigs ++ bytes others := by
  simp [bytes]

@[simp]
theorem Signal.ends_append (sigs others : List (Signal Unit)) :
    ends (sigs ++ others) = ends sigs ++ ends others := by
  simp [ends]

@[simp]
theorem Reaction.controls_nil {ι : Type} : controls ([] : List (Reaction ι)) = [] := rfl

@[simp]
theorem Reaction.controls_note {ι : Type} (n : Notice) (rs : List (Reaction ι)) :
    controls (.note n :: rs) = controls rs := rfl

@[simp]
theorem Reaction.controls_control {ι : Type} (handle : ι) (c : Control)
    (rs : List (Reaction ι)) : controls (.control handle c :: rs) = c :: controls rs := rfl

@[simp]
theorem Reaction.controls_append {ι : Type} (rs others : List (Reaction ι)) :
    controls (rs ++ others) = controls rs ++ controls others :=
  List.filterMap_append

/-- Reactions that are controls one by one are these controls. -/
theorem Reaction.controls_map {ι α : Type} (handle : α → ι) (c : α → Control) (told : List α) :
    controls (told.map fun a => control (handle a) (c a)) = told.map c := by
  induction told with
  | nil => rfl
  | cons a told ih => exact congrArg (c a :: ·) ih

@[simp]
theorem Reaction.controls_notes {ι : Type} (notes : List Notice) :
    controls (notes.map (note (ι := ι))) = [] := by
  induction notes with
  | nil => rfl
  | cons n notes ih => exact ih

namespace Inlet

/-- The end that the reader has seen, and the one that waits for it. -/
def ends {ι : Type} (b : Inlet ι) : List (Except Failure Unit) :=
  b.verdict.toList ++ b.marks.map Element.verdict

/-- The subscription, the credit and the end of an inlet are what its port says. -/
def Paired (q : Port) (b : Inlet Unit) : Prop :=
  match q with
  | .vacant => b.slot = .vacant ∧ b.terminated = false
  | .live credit => b.slot = .installed () ∧ b.terminated = false ∧ b.credit = credit
  | .ended _ => b.slot = .installed () ∧ b.terminated = true

/-- An inlet with its reactions is paired with a port as soon as they are carried out: it
asks for nothing, or for one item when it may. -/
def Tells (q : Port) (rs : List (Reaction Unit)) (b : Inlet Unit) : Prop :=
  (Reaction.controls rs = [] ∧ b.Paired q) ∨
    (Reaction.controls rs = [.request 1] ∧ (q = .live 0 ∨ q.isEnded = true) ∧ b.Paired q.grant)

variable {b : Inlet Unit} {q q' : Port}

/-- Only the subscription, the credit and the end decide what an inlet is paired with. -/
theorem Paired.of_eq (h : b.Paired q) {b' : Inlet Unit} (hslot : b'.slot = b.slot)
    (hend : b'.terminated = b.terminated) (hcredit : b'.credit = b.credit) : b'.Paired q := by
  cases q with
  | vacant => exact ⟨hslot.trans h.1, hend.trans h.2⟩
  | live credit => exact ⟨hslot.trans h.1, hend.trans h.2.1, hcredit.trans h.2.2⟩
  | ended gone => exact ⟨hslot.trans h.1, hend.trans h.2⟩

/-- A paired inlet was not closed. -/
theorem Paired.not_closed (h : b.Paired q) : b.slot ≠ .closed := by
  cases q with
  | vacant => simp [h.1]
  | live credit => simp [h.1]
  | ended gone => simp [h.1]

/-- An inlet whose stream has ended is behind a port that has. -/
theorem Paired.isEnded (h : b.Paired q) (hend : b.terminated = true) : q.isEnded = true := by
  cases q with
  | vacant => simp [h.2] at hend
  | live credit => simp [h.2.1] at hend
  | ended gone => rfl

/-- A failure of the stream calls nobody. -/
@[simp]
theorem failStream_controls {ι : Type} (f : Failure) (b : Inlet ι) :
    Reaction.controls (b.failStream f).2 = [] := by
  unfold failStream
  split
  · rfl
  · split
    · split <;> rfl
    · rfl

/-- Nor does a completion. -/
@[simp]
theorem completeStream_controls {ι : Type} (b : Inlet ι) :
    Reaction.controls b.completeStream.2 = [] := by
  unfold completeStream
  split <;> rfl

/-- While the stream goes on its end has not been seen. -/
theorem Orderly.undrained {ι : Type} {b : Inlet ι} (h : b.Orderly)
    (hopen : b.terminated = false) : b.drained = false := by
  by_contra hseen
  have hend := h.drained_terminated (by simpa using hseen)
  simp [hopen] at hend

/-- While the stream goes on there is no end. -/
theorem Orderly.ends_eq_nil {ι : Type} {b : Inlet ι} (h : b.Orderly)
    (hopen : b.terminated = false) : b.ends = [] := by
  have hverdict : b.verdict = none := by
    simpa [h.undrained hopen] using h.drained_eq.symm
  rw [ends, hverdict, h.marks_eq_nil hopen]
  rfl

/-- A mark that is appended brings its end. -/
theorem ends_of_mark {ι : Type} {b b' : Inlet ι} {e : Element} (hmark : e.isMark = true)
    (hqueue : b'.queue = b.queue ++ [e]) (hverdict : b'.verdict = b.verdict) :
    b'.ends = b.ends ++ [e.verdict] := by
  have hmarks : b'.marks = b.marks ++ [e] := by simp [marks, hqueue, hmark]
  rw [ends, ends, hverdict, hmarks, List.map_append, List.append_assoc]
  rfl

/-! ## Signals -/

/-- A failure that is told of while the stream goes on ends it. -/
theorem error_of_open (hopen : b.terminated = false) (hunseen : b.drained = false)
    (cause : Cause) :
    ∃ metadata, ∃ notes : List Notice,
      b.error cause =
        ({ b with
            metadata := metadata
            queue := b.queue ++ [.failure (.producer cause)]
            terminated := true },
          notes.map .note) := by
  refine ⟨(b.metadata.resolve (.failed cause)).1, [.producerError cause,
    if (b.metadata.resolve (.failed cause)).2 then .failedBeforeMetadata
    else .metadataAlreadyResolved], ?_⟩
  simp [error, resolveMetadata, failStream, hopen, hunseen]

/-- So does a completion. -/
theorem complete_of_open (hopen : b.terminated = false) :
    ∃ metadata, ∃ notes : List Notice,
      b.complete =
        ({ b with metadata := metadata, queue := b.queue ++ [.finish], terminated := true },
          notes.map .note) := by
  refine ⟨(b.metadata.resolve .missing).1, [
    if (b.metadata.resolve .missing).2 then .completedWithoutMetadata
    else .metadataAlreadyResolved, .producerComplete], ?_⟩
  simp [complete, resolveMetadata, completeStream, hopen]

/-- The first subscription is installed, and asks for an item. -/
theorem subscribed_of_vacant (hslot : b.slot = .vacant) :
    b.subscribed () =
      ({ b with slot := .installed (), credit := 1 },
        [.note .requestingFirstChunk, .control () (.request 1)]) := by
  simp [subscribed, hslot]

/-- An inlet asks for an item only when it may. -/
theorem signal_tells (h : b.Orderly) (hpaced : b.Paced) (hpaired : b.Paired q)
    {s : Signal Unit} (hemit : q.emit (.signal s) = some q') :
    (b.signal s).1.Tells q' (b.signal s).2 := by
  cases s with
  | subscribed handle =>
      rcases Port.emit_subscribed hemit with ⟨rfl, rfl⟩
      rcases hpaired with ⟨hslot, hopen⟩
      rw [signal, subscribed_of_vacant hslot]
      exact .inr ⟨rfl, .inl rfl, rfl, hopen, rfl⟩
  | next chunk =>
      rcases Port.emit_next hemit with ⟨credit, rfl, rfl⟩
      rcases hpaired with ⟨hslot, hopen, hcredit⟩
      have hwindow := hpaced
      simp only [Paced, hslot, hcredit] at hwindow
      have hzero : credit = 0 := by omega
      subst hzero
      have hsome : b.credit ≠ 0 := by omega
      by_cases hempty : chunk.isEmpty
      · have hnext : b.next chunk =
            (b, [.note .emptyChunkSkipped, .control () (.request 1)]) := by
          simp [next, hslot, hopen, hsome, hempty]
        rw [signal, hnext]
        exact .inr ⟨rfl, .inl rfl, hslot, hopen, hcredit⟩
      · have hnext : b.next chunk =
            ({ b with credit := b.credit - 1, queue := b.queue ++ [.data chunk] },
              [.note (.chunkQueued chunk.length)]) := by
          simp [next, hslot, hopen, hsome, hempty]
        rw [signal, hnext]
        refine .inl ⟨rfl, hslot, hopen, ?_⟩
        change b.credit - 1 = 0
        omega
  | error cause =>
      rcases Port.emit_error hemit with ⟨credit, rfl, rfl⟩
      rcases hpaired with ⟨hslot, hopen, -⟩
      rcases error_of_open hopen (h.undrained hopen) cause with ⟨metadata, notes, herror⟩
      rw [signal, herror]
      exact .inl ⟨Reaction.controls_notes notes, hslot, rfl⟩
  | complete =>
      rcases Port.emit_complete hemit with ⟨credit, rfl, rfl⟩
      rcases hpaired with ⟨hslot, hopen, -⟩
      rcases complete_of_open hopen with ⟨metadata, notes, hcomplete⟩
      rw [signal, hcomplete]
      exact .inl ⟨Reaction.controls_notes notes, hslot, rfl⟩

/-- The bytes of a signal that the port allows are appended. -/
theorem signal_text (hpaired : b.Paired q) {s : Signal Unit}
    (hemit : q.emit (.signal s) = some q') :
    (b.signal s).1.unread = b.unread ++ Signal.bytes (Emission.cargo [.signal s]) := by
  cases s with
  | subscribed handle => simp [signal, Emission.cargo, Emission.cargo?, Signal.bytes]
  | error cause =>
      simp [signal, error, Emission.cargo, Emission.cargo?, Signal.bytes, Signal.chunk?]
  | complete =>
      simp [signal, complete, Emission.cargo, Emission.cargo?, Signal.bytes, Signal.chunk?]
  | next chunk =>
      rcases Port.emit_next hemit with ⟨credit, rfl, -⟩
      rcases hpaired with ⟨hslot, hopen, hcredit⟩
      have haccepts : b.accepts = true := b.accepts_iff.mpr ⟨⟨(), hslot⟩, hopen, by omega⟩
      rw [signal, next_unread, if_pos haccepts]
      simp [Emission.cargo, Emission.cargo?, Signal.bytes, Signal.chunk?]

/-- An end that the port allows is appended. -/
theorem signal_ends (h : b.Orderly) (hpaired : b.Paired q) {s : Signal Unit}
    (hemit : q.emit (.signal s) = some q') :
    (b.signal s).1.ends = b.ends ++ Signal.ends (Emission.cargo [.signal s]) := by
  cases s with
  | subscribed handle =>
      rcases Port.emit_subscribed hemit with ⟨rfl, -⟩
      rw [signal, subscribed_of_vacant hpaired.1]
      exact (List.append_nil _).symm
  | next chunk =>
      rcases Port.emit_next hemit with ⟨credit, rfl, -⟩
      rcases hpaired with ⟨hslot, hopen, hcredit⟩
      have hsome : b.credit ≠ 0 := by omega
      have hsame : (b.next chunk).1.ends = b.ends := by
        unfold next
        rw [hslot, hopen]
        simp only [if_neg hsome]
        split
        · rfl
        · simp [ends, marks]
      rw [signal, hsame]
      exact (List.append_nil _).symm
  | error cause =>
      rcases Port.emit_error hemit with ⟨credit, rfl, -⟩
      rcases hpaired with ⟨-, hopen, -⟩
      rcases error_of_open hopen (h.undrained hopen) cause with ⟨metadata, notes, herror⟩
      rw [signal, herror]
      exact ends_of_mark (e := .failure (.producer cause)) rfl rfl rfl
  | complete =>
      rcases Port.emit_complete hemit with ⟨credit, rfl, -⟩
      rcases hpaired with ⟨-, hopen, -⟩
      rcases complete_of_open hopen with ⟨metadata, notes, hcomplete⟩
      rw [signal, hcomplete]
      exact ends_of_mark (e := .finish) rfl rfl rfl

/-! ## Reading calls -/

/-- What is taken of the bytes in hand changes neither port nor end. -/
theorem takeUpTo_paired (h : b.Paired q) (n : Nat) (held : Except Failure Bool) :
    (takeUpTo n held b).2.Paired q := by
  match held with
  | .ok true => exact h.of_eq rfl rfl rfl
  | .ok false => exact h
  | .error f => exact h

@[simp]
theorem takeUpTo_ends {ι : Type} (n : Nat) (held : Except Failure Bool) (b : Inlet ι) :
    (takeUpTo n held b).2.ends = b.ends := by
  match held with
  | .ok true => rfl
  | .ok false => rfl
  | .error f => rfl

/-- A chunk is taken and the next one asked for when there is no credit left, or when the
stream has ended. -/
theorem Refilling.tells {interrupted : Bool} {a : Answer Unit (Except Failure Bool)}
    (hrefill : Refilling b interrupted a) (hpaced : b.Paced) (hpaired : b.Paired q) :
    a.after.Tells q a.reactions := by
  cases hrefill with
  | known v hverdict => exact .inl ⟨rfl, hpaired⟩
  | chunk c rest handle hverdict hqueue hslot =>
      have hwindow := hpaced
      simp only [Paced, hslot, chunks, hqueue, List.filterMap_cons, Element.chunk?_data,
        List.length_cons] at hwindow
      cases q with
      | vacant => simp [hpaired.1] at hslot
      | live credit =>
          rcases hpaired with ⟨hinstalled, hopen, hcredit⟩
          have hzero : credit = 0 := by omega
          subst hzero
          exact .inr ⟨rfl, .inl rfl, hinstalled, hopen, by simp [hcredit]⟩
      | ended gone => exact .inr ⟨rfl, .inr rfl, hpaired.1, hpaired.2⟩
  | leftover c rest hverdict hqueue hslot =>
      cases q with
      | vacant => simp [Paced, hpaired.1, chunks, hqueue] at hpaced
      | live credit => exact absurd hpaired.1 (hslot ())
      | ended gone => exact absurd hpaired.1 (hslot ())
  | mark e note hverdict hmark hqueue => exact .inl ⟨rfl, hpaired.of_eq rfl rfl rfl⟩
  | closed hverdict hqueue hslot => exact .inl ⟨rfl, hpaired⟩
  | interrupted hverdict hqueue hfired => exact .inl ⟨rfl, hpaired⟩

/-- Seeing the end takes it from what waits. -/
theorem Refilling.ends_eq {ι : Type} {b : Inlet ι} {interrupted : Bool}
    {a : Answer ι (Except Failure Bool)} (hrefill : Refilling b interrupted a) :
    a.after.ends = b.ends := by
  cases hrefill with
  | known v hverdict => rfl
  | chunk c rest handle hverdict hqueue hslot => simp [ends, marks, hqueue]
  | leftover c rest hverdict hqueue hslot => simp [ends, marks, hqueue]
  | mark e note hverdict hmark hqueue => simp [ends, marks, hverdict, hqueue, hmark]
  | closed hverdict hqueue hslot => rfl
  | interrupted hverdict hqueue hfired => rfl

section Calls

variable {n : Nat} {interrupted : Bool} {a : Answer Unit (Except Failure Octets)}

/-- A reading call asks for an item only when it may. -/
theorem read_tells (h : b.Orderly) (hpaced : b.Paced) (hpaired : b.Paired q)
    (hread : b.read n interrupted = some a) : a.after.Tells q a.reactions := by
  rcases Nat.eq_zero_or_pos n with rfl | hn
  · cases hread
    exact .inl ⟨rfl, hpaired⟩
  · rcases hold_of_read hn hread with ⟨held, hhold, rfl⟩
    rcases hold_cases h hhold with ⟨-, rfl⟩ | ⟨-, hrefill⟩
    · exact .inl ⟨rfl, takeUpTo_paired hpaired n _⟩
    · rcases hrefill.tells hpaced hpaired with ⟨hnone, hafter⟩ | ⟨hone, hspent, hafter⟩
      · exact .inl ⟨hnone, takeUpTo_paired hafter n _⟩
      · exact .inr ⟨hone, hspent, takeUpTo_paired hafter n _⟩

/-- A reading call neither brings nor loses an end. -/
theorem read_ends {ι : Type} {b : Inlet ι} {a : Answer ι (Except Failure Octets)} (h : b.Orderly)
    (hread : b.read n interrupted = some a) : a.after.ends = b.ends := by
  rcases Nat.eq_zero_or_pos n with rfl | hn
  · cases hread
    rfl
  · rcases hold_of_read hn hread with ⟨held, hhold, rfl⟩
    have htake := takeUpTo_ends n held.value held.after
    rcases hold_cases h hhold with ⟨-, rfl⟩ | ⟨-, hrefill⟩
    · exact htake
    · exact htake.trans hrefill.ends_eq

/-- A call that has to wait finds an inlet that was not closed, without bytes and without
an end, and the token was not fired. -/
theorem read_eq_none {ι : Type} {b : Inlet ι} (h : b.Orderly)
    (hread : b.read n interrupted = none) :
    interrupted = false ∧ b.terminated = false ∧ b.unread = [] ∧ b.chunks = [] := by
  have hsome : n ≠ 0 := by
    rintro rfl
    cases hread
  rw [read, if_neg hsome, Option.map_eq_none_iff] at hread
  have hcurrent : b.current = [] := by
    by_contra hheld
    simp [hold, hheld] at hread
  have hrefill : b.refill interrupted = none := by simpa [hold, hcurrent] using hread
  unfold refill at hrefill
  cases hverdict : b.verdict with
  | some v => cases v <;> simp [hverdict] at hrefill
  | none =>
      cases hqueue : b.queue with
      | cons e rest =>
          cases e with
          | data chunk => cases hslot : b.slot <;> simp [hverdict, hqueue, hslot] at hrefill
          | finish => simp [hverdict, hqueue] at hrefill
          | failure f => simp [hverdict, hqueue] at hrefill
      | nil =>
          have hunfired : interrupted = false := by
            cases hslot : b.slot <;> simp_all
          have hopen : b.terminated = false := by
            have hlength := h.marks_length
            simp only [marks, hqueue, h.drained_eq, hverdict, List.filter_nil, List.length_nil]
              at hlength
            by_contra hend
            simp [hend] at hlength
          exact ⟨hunfired, hopen, by simp [unread, chunks, hcurrent, hqueue],
            by simp [chunks, hqueue]⟩

end Calls

/-- An end that was brought has ended the stream. -/
theorem Orderly.terminated_of_ends (h : b.Orderly) (hends : b.ends ≠ []) :
    b.terminated = true := by
  by_contra hopen
  exact hends (h.ends_eq_nil (by simpa using hopen))

/-- An inlet that waits for its first greeting or for an item has asked for it. -/
theorem Paired.waits (h : b.Paired q) (hpaced : b.Paced) (hopen : b.terminated = false)
    (hempty : b.chunks = []) : q = .vacant ∨ q = .live 1 := by
  cases q with
  | vacant => exact .inl rfl
  | live credit =>
      rcases h with ⟨hslot, -, hcredit⟩
      simp only [Paced, hslot, hempty, List.length_nil, Nat.add_zero] at hpaced
      exact .inr (by rw [← hcredit, hpaced])
  | ended gone => simp [h.2] at hopen

end Inlet
end CreditFlow
