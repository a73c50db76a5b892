import CreditFlow.PullStream
import Mathlib.Tactic.Common

/-!
# Ports

Where a publisher and its consumer meet.  A *port* says what the consumer can still be
told: a greeting first, then as many items as it has asked for, then one end, and last
that the publisher has let go of it.  Both sides of a line are described by the port
between them, so that neither has to be looked into when something is shown of the other.

A pull stream is *tuned* to a port when the signals in its inbox lead from what it has
looked at to that port.

Main results:

- {lit}`Port.emits_grant`: what may be told with some credit may be told with more.
- {lit}`PullStream.Tuned.hear`, {lit}`PullStream.Tuned.hangUp`: a tuned stream hears
  everything that its port allows.
- {lit}`PullStream.Tuned.attends`: what a poll of a tuned stream comes to.
-/

namespace CreditFlow

/-- What a consumer can still be told. -/
inductive Port where
  /-- It has not been greeted. -/
  | vacant
  /-- It has asked for `credit` items that it was not given, and the stream has not ended. -/
  | live (credit : Nat)
  /-- It has been told of the end.  `gone` means that the publisher has let go of it. -/
  | ended (gone : Bool)
  deriving DecidableEq

/-- What an emission carries beside greetings: an item or an end. -/
def Emission.cargo? : Emission → Option (Signal Unit)
  | .signal (.subscribed _) => none
  | .signal s => some s
  | .hangUp => none

/-- What several emissions carry. -/
def Emission.cargo (es : List Emission) : List (Signal Unit) :=
  es.filterMap cargo?

@[simp]
theorem Emission.cargo_nil : cargo [] = [] := rfl

@[simp]
theorem Emission.cargo_append (es fs : List Emission) : cargo (es ++ fs) = cargo es ++ cargo fs :=
  List.filterMap_append

namespace Port

/-- What can be told after an emission; `none` means that the emission was not allowed. -/
def emit : Port → Emission → Option Port
  | vacant, .signal (.subscribed _) => some (live 0)
  | live (credit + 1), .signal (.next _) => some (live credit)
  | live _, .signal (.error _) => some (ended false)
  | live _, .signal .complete => some (ended false)
  | ended false, .hangUp => some (ended true)
  | _, _ => none

/-- What can be told after several emissions. -/
def emits : List Emission → Port → Option Port
  | [], q => some q
  | e :: es, q => (q.emit e).bind (emits es)

/-- One more item is asked for. -/
def grant : Port → Port
  | live credit => live (credit + 1)
  | q => q

/-- Whether the consumer has been told of the end. -/
def isEnded : Port → Bool
  | ended _ => true
  | _ => false

@[simp]
theorem emits_nil (q : Port) : q.emits [] = some q := rfl

@[simp]
theorem emits_singleton (q : Port) (e : Emission) : q.emits [e] = q.emit e := by
  change (q.emit e).bind some = q.emit e
  exact Option.bind_fun_some _

theorem emits_cons (q : Port) (e : Emission) (es : List Emission) :
    q.emits (e :: es) = (q.emit e).bind (emits es) := rfl

theorem emits_append (q : Port) (es fs : List Emission) :
    q.emits (es ++ fs) = (q.emits es).bind (emits fs) := by
  induction es generalizing q with
  | nil => rfl
  | cons e es ih =>
      rw [List.cons_append, emits_cons, emits_cons]
      cases q.emit e with
      | none => rfl
      | some r => exact ih r

/-- A greeting comes first. -/
theorem emit_subscribed {q r : Port} {handle : Unit}
    (hemit : q.emit (.signal (.subscribed handle)) = some r) : q = vacant ∧ r = live 0 := by
  cases q <;> simp_all [emit]

/-- An item uses credit. -/
theorem emit_next {q r : Port} {chunk : Octets} (hemit : q.emit (.signal (.next chunk)) = some r) :
    ∃ credit, q = live (credit + 1) ∧ r = live credit := by
  cases q with
  | live credit => cases credit <;> simp_all [emit]
  | vacant | ended gone => simp [emit] at hemit

/-- An end comes once. -/
theorem emit_error {q r : Port} {cause : Cause} (hemit : q.emit (.signal (.error cause)) = some r) :
    ∃ credit, q = live credit ∧ r = ended false := by
  cases q <;> simp_all [emit]

/-- A completion can be told to a consumer that waits, and is the last that it is told. -/
theorem emit_complete {q r : Port} (hemit : q.emit (.signal .complete) = some r) :
    ∃ credit, q = live credit ∧ r = ended false := by
  cases q <;> simp_all [emit]

/-- A publisher lets go after the end, and once. -/
theorem emit_hangUp {q r : Port} (hemit : q.emit .hangUp = some r) :
    q = ended false ∧ r = ended true := by
  cases q with
  | ended gone => cases gone <;> simp_all [emit]
  | vacant | live credit => simp [emit] at hemit

/-- All that can be told at a port. -/
theorem emit_cases {q r : Port} {e : Emission} (hemit : q.emit e = some r) :
    (q = vacant ∧ e = .signal (.subscribed ()) ∧ r = live 0) ∨
      (∃ credit chunk, q = live (credit + 1) ∧ e = .signal (.next chunk) ∧ r = live credit) ∨
      (∃ credit cause, q = live credit ∧ e = .signal (.error cause) ∧ r = ended false) ∨
      (∃ credit, q = live credit ∧ e = .signal .complete ∧ r = ended false) ∨
      (q = ended false ∧ e = .hangUp ∧ r = ended true) := by
  cases e with
  | signal s =>
      cases s with
      | subscribed handle =>
          rcases emit_subscribed hemit with ⟨hq, hr⟩
          exact .inl ⟨hq, rfl, hr⟩
      | next chunk =>
          rcases emit_next hemit with ⟨credit, hq, hr⟩
          exact .inr (.inl ⟨credit, chunk, hq, rfl, hr⟩)
      | error cause =>
          rcases emit_error hemit with ⟨credit, hq, hr⟩
          exact .inr (.inr (.inl ⟨credit, cause, hq, rfl, hr⟩))
      | complete =>
          rcases emit_complete hemit with ⟨credit, hq, hr⟩
          exact .inr (.inr (.inr (.inl ⟨credit, hq, rfl, hr⟩)))
  | hangUp =>
      rcases emit_hangUp hemit with ⟨hq, hr⟩
      exact .inr (.inr (.inr (.inr ⟨hq, rfl, hr⟩)))

/-- Whoever has been told anything has been greeted. -/
theorem ne_vacant_of_emit {q r : Port} {e : Emission} (hemit : q.emit e = some r) :
    r ≠ vacant := by
  rcases emit_cases hemit with ⟨-, -, rfl⟩ | ⟨_, _, -, -, rfl⟩ | ⟨_, _, -, -, rfl⟩ |
    ⟨_, -, -, rfl⟩ | ⟨-, -, rfl⟩ <;> simp

/-- A consumer that was greeted stays greeted. -/
theorem ne_vacant_of_emits {q r : Port} {es : List Emission} (hgreeted : q ≠ vacant)
    (hemits : q.emits es = some r) : r ≠ vacant := by
  induction es generalizing q with
  | nil =>
      cases hemits
      exact hgreeted
  | cons e es ih =>
      rw [emits_cons] at hemits
      rcases Option.bind_eq_some_iff.mp hemits with ⟨q', hemit, hrest⟩
      exact ih (ne_vacant_of_emit hemit) hrest

/-- Whoever was greeted, and has not been told of an end, may be given what it asks for. -/
theorem live_of_unended {q : Port} (hgreeted : q ≠ vacant) (hopen : q.isEnded = false) :
    ∃ credit, q = live credit := by
  cases q with
  | vacant => exact absurd rfl hgreeted
  | live credit => exact ⟨credit, rfl⟩
  | ended gone => cases hopen

/-- What may be told with some credit may be told with more. -/
theorem emit_grant {q r : Port} {e : Emission} (hgreeted : q ≠ vacant)
    (hemit : q.emit e = some r) : q.grant.emit e = some r.grant := by
  rcases emit_cases hemit with ⟨rfl, -, -⟩ | ⟨credit, chunk, rfl, rfl, rfl⟩ |
    ⟨credit, cause, rfl, rfl, rfl⟩ | ⟨credit, rfl, rfl, rfl⟩ | ⟨rfl, rfl, rfl⟩
  · exact absurd rfl hgreeted
  · rfl
  · rfl
  · rfl
  · rfl

/-- What can be told with some credit can be told with more. -/
theorem emits_grant {q r : Port} {es : List Emission} (hgreeted : q ≠ vacant)
    (hemits : q.emits es = some r) : q.grant.emits es = some r.grant := by
  induction es generalizing q with
  | nil =>
      cases hemits
      rfl
  | cons e es ih =>
      rw [emits_cons] at hemits
      rcases Option.bind_eq_some_iff.mp hemits with ⟨q', hemit, hrest⟩
      rw [emits_cons, emit_grant hgreeted hemit]
      exact ih (ne_vacant_of_emit hemit) hrest

/-- After the end nothing is carried any more. -/
theorem emits_of_ended {gone : Bool} {r : Port} {es : List Emission}
    (hemits : (ended gone).emits es = some r) : r.isEnded = true ∧ Emission.cargo es = [] := by
  induction es generalizing gone with
  | nil =>
      cases hemits
      exact ⟨rfl, rfl⟩
  | cons e es ih =>
      rw [emits_cons] at hemits
      rcases Option.bind_eq_some_iff.mp hemits with ⟨q', hemit, hrest⟩
      rcases emit_cases hemit with ⟨h, -, -⟩ | ⟨_, _, h, -, -⟩ | ⟨_, _, h, -, -⟩ | ⟨_, h, -, -⟩ |
        ⟨-, rfl, rfl⟩
      · cases h
      · cases h
      · cases h
      · cases h
      · rcases ih hrest with ⟨hended, hnone⟩
        exact ⟨hended, hnone⟩

/-- Without credit nothing but an end can follow. -/
theorem emits_of_spent {r : Port} {es : List Emission} (hemits : (live 0).emits es = some r) :
    r = live 0 ∨ r.isEnded = true := by
  cases es with
  | nil =>
      cases hemits
      exact .inl rfl
  | cons e es =>
      rw [emits_cons] at hemits
      rcases Option.bind_eq_some_iff.mp hemits with ⟨q', hemit, hrest⟩
      rcases emit_cases hemit with ⟨h, -, -⟩ | ⟨_, _, h, -, -⟩ | ⟨_, _, h, -, rfl⟩ |
        ⟨_, h, -, rfl⟩ | ⟨h, -, -⟩
      · cases h
      · cases h
      · exact .inr (emits_of_ended hrest).1
      · exact .inr (emits_of_ended hrest).1
      · cases h

/-- Whoever had no credit, or had been told of the end, is no better off after what is told. -/
theorem spent_of_emits {q r : Port} {es : List Emission}
    (hspent : q = live 0 ∨ q.isEnded = true) (hemits : q.emits es = some r) :
    r = live 0 ∨ r.isEnded = true := by
  rcases hspent with rfl | hended
  · exact emits_of_spent hemits
  · cases q with
    | ended gone => exact .inr (emits_of_ended hemits).1
    | vacant | live credit => cases hended

theorem isEnded_iff {q : Port} : q.isEnded = true ↔ ∃ gone, q = ended gone := by
  cases q <;> simp [isEnded]

end Port

/-! ## Tuned streams -/

namespace PullStream

/-- What a stream can still be told, by what it has looked at. -/
def seen (s : PullStream Unit) : Port :=
  if s.done then .ended false
  else
    match s.subscription with
    | none => .vacant
    | some _ => .live (if s.requested then 1 else 0)

/-- What has arrived at a stream and was not looked at. -/
def arrived (s : PullStream Unit) : List Emission :=
  s.inbox.map .signal ++ (if s.connected then [] else [.hangUp])

/-- The items and the end in the inbox of a stream. -/
def cargo (s : PullStream Unit) : List (Signal Unit) :=
  Emission.cargo (s.inbox.map .signal)

/-- What has arrived at a stream leads to a port.  A stream that was dropped is told
nothing, which is right after an end only. -/
structure Tuned (q : Port) (s : PullStream Unit) : Prop where
  told : s.dropped = false → s.seen.emits s.arrived = some q
  gone : s.dropped = true → q.isEnded = true ∧ s.inbox = []
  /-- Nobody asks before it has been greeted. -/
  quiet : s.dropped = false → s.subscription = none → s.requested = false

/-- A new stream has been told nothing. -/
theorem tuned_empty : Tuned .vacant ({} : PullStream Unit) :=
  ⟨fun _ => rfl, fun h => by simp at h, fun _ _ => rfl⟩

section Tuned

variable {q q' : Port} {s : PullStream Unit}

/-- A stream that is told something has its sending end still. -/
theorem Tuned.connected_of_emit (h : Tuned q s) {e : Emission} (hemit : q.emit e = some q')
    (hkept : s.dropped = false) : s.connected = true := by
  by_contra hleft
  have harrived : s.arrived = s.inbox.map .signal ++ [.hangUp] := by simp [arrived, hleft]
  have htold := h.told hkept
  rw [harrived, Port.emits_append] at htold
  rcases Option.bind_eq_some_iff.mp htold with ⟨r, -, hlast⟩
  rw [Port.emits_singleton] at hlast
  rw [(Port.emit_hangUp hlast).2] at hemit
  simp [Port.emit] at hemit

/-- A tuned stream hears every signal that its port allows. -/
theorem Tuned.hear (h : Tuned q s) {sig : Signal Unit}
    (hemit : q.emit (.signal sig) = some q') :
    s.hear sig = ({ s with inbox := s.inbox ++ [sig], parked := false }, s.parked, []) ∧
      s.connected = true ∧ s.dropped = false ∧
      Tuned q' { s with inbox := s.inbox ++ [sig], parked := false } := by
  have hkept : s.dropped = false := by
    by_contra hdropped
    rcases Port.isEnded_iff.mp (h.gone (by simpa using hdropped)).1 with ⟨gone, hend⟩
    rw [hend] at hemit
    cases gone <;> simp [Port.emit] at hemit
  have hconnected := h.connected_of_emit hemit hkept
  have htold := h.told hkept
  refine ⟨by simp [PullStream.hear, hkept, hconnected], hconnected, hkept, ?_, ?_, h.quiet⟩
  · intro _
    have harrived : arrived { s with inbox := s.inbox ++ [sig], parked := false } =
        s.arrived ++ [.signal sig] := by
      simp [arrived, hconnected]
    change s.seen.emits _ = some q'
    rw [harrived, Port.emits_append, htold]
    exact (Port.emits_singleton _ _).trans hemit
  · intro hdropped
    rw [show s.dropped = true from hdropped] at hkept
    cases hkept

/-- And it hears that its publisher has let go of it. -/
theorem Tuned.hangUp (h : Tuned q s) (hemit : q.emit .hangUp = some q') :
    Tuned q' s.hangUp.1 := by
  have hended : q'.isEnded = true := by
    rw [(Port.emit_hangUp hemit).2]
    rfl
  unfold PullStream.hangUp
  by_cases hconnected : s.connected = true
  · rw [if_pos hconnected]
    refine ⟨fun hkept => ?_, fun hdropped => ⟨hended, (h.gone hdropped).2⟩, h.quiet⟩
    have htold := h.told hkept
    have harrived : arrived { s with connected := false, parked := false } =
        s.arrived ++ [.hangUp] := by
      simp [arrived, hconnected]
    change s.seen.emits _ = some q'
    rw [harrived, Port.emits_append, htold]
    exact (Port.emits_singleton _ _).trans hemit
  · rw [if_neg hconnected]
    refine ⟨fun hkept => ?_, fun hdropped => ⟨hended, (h.gone hdropped).2⟩, h.quiet⟩
    exact absurd (h.connected_of_emit hemit hkept) hconnected

/-- A stream that has seen its end is at an end, and has nothing left. -/
theorem Tuned.ended_of_done (h : Tuned q s) (hdone : s.done = true) : q.isEnded = true := by
  by_cases hdropped : s.dropped = true
  · exact (h.gone hdropped).1
  · have htold := h.told (by simpa using hdropped)
    have hseen : s.seen = .ended false := by simp [seen, hdone]
    rw [hseen] at htold
    exact (Port.emits_of_ended htold).1

/-- A tuned stream may be let go after its end. -/
theorem tuned_discard (hended : q.isEnded = true) (s : PullStream Unit) :
    Tuned q s.discard.1 :=
  ⟨fun hkept => by simp [PullStream.discard] at hkept, fun _ => ⟨hended, rfl⟩,
    fun hkept => by simp [PullStream.discard] at hkept⟩

/-! ## Polls of a tuned stream -/

/-- All that a poll of a tuned stream can come to.  `cargo` is what was in its inbox. -/
inductive Attends (q : Port) (cargo : List (Signal Unit)) :
    PullStream Unit → Attention Unit → Prop
  /-- It asks for an item, and is tuned as soon as its publisher has been asked. -/
  | asks (s' : PullStream Unit) (hspent : q = .live 0) (hcargo : cargo = [])
      (hopen : s'.done = false ∧ s'.dropped = false) (hempty : s'.cargo = [])
      (htuned : Tuned (.live 1) s') : Attends q cargo s' (.asks ())
  /-- It has nothing, and either has asked or has not been greeted. -/
  | sleeps (s' : PullStream Unit) (hcargo : cargo = [])
      (hopen : s'.done = false ∧ s'.dropped = false) (hinbox : s'.inbox = [])
      (hconnected : s'.connected = true) (hparked : s'.parked = true)
      (hasked : s'.requested = true ∨ s'.subscription = none)
      (htuned : Tuned q s') : Attends q cargo s' (.answer .pending)
  | item (s' : PullStream Unit) (chunk : Octets) (hcargo : cargo = .next chunk :: s'.cargo)
      (hopen : s'.done = false ∧ s'.dropped = false) (htuned : Tuned q s') :
      Attends q cargo s' (.answer (.item chunk))
  | failed (s' : PullStream Unit) (cause : Cause) (hcargo : cargo = [.error cause])
      (hdone : s'.done = true ∧ s'.dropped = false) (hinbox : s'.inbox = [])
      (hended : q.isEnded = true) (htuned : Tuned q s') :
      Attends q cargo s' (.answer (.failed cause))
  | completed (s' : PullStream Unit) (hcargo : cargo = [.complete])
      (hdone : s'.done = true ∧ s'.dropped = false) (hinbox : s'.inbox = [])
      (hended : q.isEnded = true) (htuned : Tuned q s') :
      Attends q cargo s' (.answer .ended)

/-- Nothing is in an inbox after the end. -/
theorem inbox_eq_nil {gone : Bool} {inbox : List (Signal Unit)} {rest : List Emission}
    (hemits : (Port.ended gone).emits (inbox.map .signal ++ rest) = some q) : inbox = [] := by
  cases inbox with
  | nil => rfl
  | cons sig inbox =>
      rw [List.map_cons, List.cons_append, Port.emits_cons] at hemits
      rcases Option.bind_eq_some_iff.mp hemits with ⟨r, hemit, -⟩
      cases gone <;> simp [Port.emit] at hemit

/-- A stream that has nothing left asks, if it can. -/
theorem attendTo_nil_attends (hopen : s.done = false ∧ s.dropped = false)
    (htold : s.seen.emits (if s.connected then [] else [.hangUp]) = some q)
    (hquiet : s.subscription = none → s.requested = false) :
    Attends q [] (s.attendTo []).1 (s.attendTo []).2.2 := by
  have hgone : ∀ s' : PullStream Unit, s'.dropped = s.dropped → s'.dropped = true →
      q.isEnded = true ∧ s'.inbox = [] := by
    intro s' hsame hdropped
    rw [hsame, hopen.2] at hdropped
    cases hdropped
  by_cases hconnected : s.connected = true
  · rw [if_pos hconnected] at htold
    have hport : s.seen = q := by simpa using htold
    by_cases hasks : s.requested = false ∧ s.subscription ≠ none
    · rcases Option.ne_none_iff_exists'.mp hasks.2 with ⟨handle, hsub⟩
      have heq : s.attendTo [] =
          ({ s with inbox := [], parked := true, requested := true }, [], .asks handle) := by
        simp [attendTo, hconnected, hasks.1, hsub]
      rw [heq]
      refine .asks _ ?_ rfl hopen rfl ⟨fun _ => ?_, fun hdropped => ?_, ?_⟩
      · rw [← hport]
        simp [seen, hsub, hopen.1, hasks.1]
      · simp [seen, arrived, hconnected, hsub, hopen.1]
      · rw [show s.dropped = true from hdropped] at hopen
        cases hopen.2
      · intro _ hnone
        exact absurd hnone hasks.2
    · have heq : s.attendTo [] =
          ({ s with inbox := [], parked := true }, [], .answer .pending) := by
        cases hsub : s.subscription with
        | none => simp [attendTo, hconnected, hsub]
        | some handle =>
            have hrequested : s.requested = true := by simpa [hsub] using hasks
            simp [attendTo, hconnected, hsub, hrequested]
      have hwaits : s.requested = true ∨ s.subscription = none := by
        by_cases hrequested : s.requested = true
        · exact .inl hrequested
        · by_contra hneither
          exact hasks ⟨by simpa using hrequested, fun hnone => hneither (.inr hnone)⟩
      rw [heq]
      refine .sleeps _ rfl hopen rfl hconnected rfl hwaits
        ⟨fun _ => ?_, hgone _ rfl, fun _ => hquiet⟩
      have harrived : arrived { s with inbox := [], parked := true } = [] := by
        simp [arrived, hconnected]
      rw [harrived, Port.emits_nil, ← hport]
      rfl
  · rw [if_neg hconnected] at htold
    -- The publisher may let go only after an end, and then the stream is done.
    rw [Port.emits_singleton] at htold
    have hseen := (Port.emit_hangUp htold).1
    cases hsub : s.subscription <;> simp [seen, hopen.1, hsub] at hseen

/-- What looking through the inbox of a tuned stream comes to. -/
theorem attendTo_attends {inbox : List (Signal Unit)}
    (hopen : s.done = false ∧ s.dropped = false)
    (htold : s.seen.emits (inbox.map .signal ++ if s.connected then [] else [.hangUp]) = some q)
    (hquiet : s.subscription = none → s.requested = false) :
    Attends q (Emission.cargo (inbox.map .signal)) (s.attendTo inbox).1
      (s.attendTo inbox).2.2 := by
  have hgone : ∀ s' : PullStream Unit, s'.dropped = s.dropped → s'.dropped = true →
      q.isEnded = true ∧ s'.inbox = [] := by
    intro s' hsame hdropped
    rw [hsame, hopen.2] at hdropped
    cases hdropped
  induction inbox generalizing s with
  | nil => exact attendTo_nil_attends hopen htold hquiet
  | cons sig rest ih =>
      rw [List.map_cons, List.cons_append, Port.emits_cons] at htold
      rcases Option.bind_eq_some_iff.mp htold with ⟨r, hemit, hrest⟩
      cases sig with
      | subscribed handle =>
          rcases Port.emit_subscribed hemit with ⟨hvacant, rfl⟩
          have hsub : s.subscription = none := by
            cases hsub : s.subscription with
            | none => rfl
            | some first => simp [seen, hopen.1, hsub] at hvacant
          have hrequested := hquiet hsub
          exact ih (s := { s with subscription := some handle }) hopen
            (by simpa [seen, hopen.1, hrequested] using hrest) (fun hnone => by cases hnone)
            hgone
      | next chunk =>
          rcases Port.emit_next hemit with ⟨credit, hlive, rfl⟩
          refine .item _ chunk rfl hopen ⟨fun _ => ?_, hgone _ rfl, fun _ _ => rfl⟩
          have hnext : seen { s with inbox := rest, requested := false } = .live credit := by
            cases hsub : s.subscription with
            | none => simp [seen, hopen.1, hsub] at hlive
            | some handle =>
                -- A stream asks for one item at a time.
                cases hrequested : s.requested with
                | false => simp [seen, hopen.1, hsub, hrequested] at hlive
                | true =>
                    simp only [seen, hopen.1, hsub, hrequested] at hlive ⊢
                    cases hlive
                    rfl
          change Port.emits _ (seen { s with inbox := rest, requested := false }) = some q
          rw [hnext]
          exact hrest
      | error cause =>
          rcases Port.emit_error hemit with ⟨-, -, rfl⟩
          have hinbox := inbox_eq_nil hrest
          refine .failed _ cause (by simp [Emission.cargo, Emission.cargo?, hinbox])
            ⟨rfl, hopen.2⟩ hinbox (Port.emits_of_ended hrest).1
            ⟨fun _ => hrest, hgone _ rfl, ?_⟩
          intro _ hnone
          exact hquiet hnone
      | complete =>
          rcases Port.emit_complete hemit with ⟨-, -, rfl⟩
          have hinbox := inbox_eq_nil hrest
          refine .completed _ (by simp [Emission.cargo, Emission.cargo?, hinbox])
            ⟨rfl, hopen.2⟩ hinbox (Port.emits_of_ended hrest).1
            ⟨fun _ => hrest, hgone _ rfl, ?_⟩
          intro _ hnone
          exact hquiet hnone

/-- A stream that has seen its end has nothing in its inbox. -/
theorem Tuned.inbox_of_done (h : Tuned q s) (hdone : s.done = true) : s.inbox = [] := by
  by_cases hdropped : s.dropped = true
  · exact (h.gone hdropped).2
  · have htold := h.told (by simpa using hdropped)
    have hseen : s.seen = .ended false := by simp [seen, hdone]
    rw [hseen] at htold
    exact inbox_eq_nil htold

/-- What a poll of a tuned stream comes to. -/
theorem Tuned.attends (h : Tuned q s) (hopen : s.done = false ∧ s.dropped = false)
    {s' : PullStream Unit} {notes : List Notice} {attention : Attention Unit}
    (hattend : s.attend = (s', notes, attention)) : Attends q s.cargo s' attention := by
  have hall := attendTo_attends hopen (h.told hopen.2) (h.quiet hopen.2)
  have hsame : s.attend = s.attendTo s.inbox := by simp [attend, hopen.1]
  rw [← hsame, hattend] at hall
  exact hall

end Tuned
end PullStream
end CreditFlow
