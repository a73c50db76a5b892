import CreditFlow.Player
import CreditFlow.Proofs.InletPort

/-!
# A player and its reader

A player plays its script on a thread of its own into an inlet, and a reader takes from the
inlet on another.  Neither thread does anything in one step that touches both: a signal goes
through the metadata and then through the stream of the inlet, and a control is put down in
the log of the player, then counted, and only then the thread is woken.  Such a part of a call
is an *errand*, and between any two of them the other thread may do what it likes.  A *duet*
is the player and the inlet together with the errands that are still to be run.

Main results:

- {lit}`Player.control_sections`, {lit}`Inlet.signal_sections`: the errands of a call come to
  the call.
- {lit}`Inlet.reads_of_read`, {lit}`Inlet.Reads.asks`: what a reading call can come to, and
  what it asks for.
-/

namespace CreditFlow

/-! ## Calls in sections -/

namespace Player

/-- A control is put down. -/
def putDown (c : Control) (p : Player) : Player :=
  { p with log := p.log.hear c }

/-- A control reaches the counter. -/
def count (c : Control) (p : Player) : Player :=
  match c with
  | .request n => if p.hasRoom c then { p with outstanding := p.outstanding + n } else p
  | .cancel => { p with cancelled := true }
  | .release => p

/-- The thread is woken. -/
def notify (p : Player) : Player :=
  { p with asleep := false }

/-- A control that there is room for comes to its three sections. -/
theorem control_sections {c : Control} {p : Player} (hroom : p.hasRoom c = true)
    (hkept : c ≠ .release) : (p.control c).1 = ((p.putDown c).count c).notify := by
  cases c with
  | request n =>
      have hfits : (p.putDown (.request n)).hasRoom (.request n) = true := hroom
      simp only [control, count, hroom, hfits, if_true]
      rfl
  | cancel => rfl
  | release => exact absurd rfl hkept

end Player

namespace Inlet

variable {ι : Type}

/-- What a signal does to the metadata. -/
def resolves (s : Signal ι) (b : Inlet ι) : Inlet ι × List (Reaction ι) :=
  match s with
  | .error cause => b.resolveMetadata (.failed cause) .failedBeforeMetadata
  | .complete => b.resolveMetadata .missing .completedWithoutMetadata
  | _ => (b, [])

/-- What a signal does to the stream. -/
def enters (s : Signal ι) (b : Inlet ι) : Inlet ι × List (Reaction ι) :=
  match s with
  | .subscribed handle => b.subscribed handle
  | .next chunk => b.next chunk
  | .error cause => b.failStream (.producer cause)
  | .complete => b.completeStream

/-- A signal comes to its two sections, which call whom the signal calls. -/
theorem signal_sections (s : Signal ι) (b : Inlet ι) :
    (b.signal s).1 = ((b.resolves s).1.enters s).1 ∧
      Reaction.controls (b.signal s).2 =
        Reaction.controls (b.resolves s).2 ++
          Reaction.controls ((b.resolves s).1.enters s).2 := by
  cases s with
  | subscribed handle => exact ⟨rfl, rfl⟩
  | next chunk => exact ⟨rfl, rfl⟩
  | error cause => exact ⟨rfl, rfl⟩
  | complete => exact ⟨rfl, rfl⟩

end Inlet

/-- A part of a call that nothing can interrupt. -/
inductive Errand where
  /-- A signal reaches the metadata. -/
  | resolves (s : Signal Unit)
  /-- A signal reaches the stream. -/
  | enters (s : Signal Unit)
  /-- A control is put down. -/
  | putDown (c : Control)
  /-- A control reaches the counter. -/
  | count (c : Control)
  /-- The thread of the player is woken. -/
  | notify

/-- The errands of a control. -/
def Control.errands (c : Control) : List Errand :=
  [.putDown c, .count c, .notify]

/-- The errands of several reactions. -/
def Reaction.errands (rs : List (Reaction Unit)) : List Errand :=
  (controls rs).flatMap Control.errands

/-- The errands of a signal. -/
def Signal.errands (s : Signal Unit) : List Errand :=
  match s with
  | .subscribed _ => [.enters s]
  | .next _ => [.enters s]
  | .error _ => [.resolves s, .enters s]
  | .complete => [.resolves s, .enters s]

/-- The errands of a move of the thread of a player. -/
def Move.errands : Move → List Errand
  | .deliver s => s.errands
  | _ => []

/-! ## The duet -/

/-- A player and an inlet, and what their threads have still to do. -/
structure Duet where
  player : Player
  inlet : Inlet Unit := {}
  /-- What is left of the call that the thread of the player is making. -/
  playing : List Errand := []
  /-- What is left of the call that the reader is making. -/
  reading : List Errand := []
  /-- The calls that the reader has made, with their answers. -/
  returned : List (ReadCall × Except Failure Octets) := []

/-- One thing that happens in a duet. -/
inductive DuetEvent where
  /-- The thread of the player goes on. -/
  | plays
  /-- The reader goes on with its call, or sets about this one. -/
  | reads (call : ReadCall)

namespace Duet

/-- Nothing has happened yet. -/
def start (script : List Step) : Duet :=
  { player := { script := script } }

/-- Run an errand; more may follow from it. -/
def perform (d : Duet) : Errand → Duet × List Errand
  | .resolves s =>
      ({ d with inlet := (d.inlet.resolves s).1 }, Reaction.errands (d.inlet.resolves s).2)
  | .enters s => ({ d with inlet := (d.inlet.enters s).1 }, Reaction.errands (d.inlet.enters s).2)
  | .putDown c => ({ d with player := d.player.putDown c }, [])
  | .count c => ({ d with player := d.player.count c }, [])
  | .notify => ({ d with player := d.player.notify }, [])

/-- What an event does.  A player that sleeps and a reader that finds nothing to take wait. -/
def step (d : Duet) : DuetEvent → Duet
  | .plays =>
      match d.playing with
      | x :: rest => { (d.perform x).1 with playing := (d.perform x).2 ++ rest }
      | [] =>
          if d.player.asleep then d
          else
            { d with player := d.player.advance.1, playing := d.player.advance.2.2.errands }
  | .reads call =>
      match d.reading with
      | x :: rest => { (d.perform x).1 with reading := (d.perform x).2 ++ rest }
      | [] =>
          match d.inlet.answer call false with
          | none => d
          | some a =>
              { d with
                inlet := a.after
                reading := Reaction.errands a.reactions
                returned := d.returned ++ [(call, a.value)] }

/-- A call that is answered. -/
theorem step_of_answer {d : Duet} (hidle : d.reading = []) {call : ReadCall}
    {a : Inlet.Answer Unit (Except Failure Octets)}
    (hanswer : d.inlet.answer call false = some a) :
    d.step (.reads call) =
      { d with
        inlet := a.after
        reading := Reaction.errands a.reactions
        returned := d.returned ++ [(call, a.value)] } := by
  simp [step, hidle, hanswer]

/-- A call that has to wait. -/
theorem step_of_nothing {d : Duet} (hidle : d.reading = []) {call : ReadCall}
    (hanswer : d.inlet.answer call false = none) : d.step (.reads call) = d := by
  simp [step, hidle, hanswer]

/-- What a list of events comes to. -/
def run (events : List DuetEvent) (d : Duet) : Duet :=
  events.foldl step d

/-- The bytes that the reader was given, in order. -/
def text (d : Duet) : Octets :=
  (d.returned.map fun p => Inlet.bytes p.2).flatten

end Duet

/-- How a script ends. -/
inductive Finale where
  | fail (text : String)
  | complete

namespace Finale

/-- The step that plays the end. -/
def step : Finale → Step
  | fail text => .fail text
  | complete => .complete

/-- The signal that the step gives. -/
def signal : Finale → Signal Unit
  | fail text => .error (.test text)
  | complete => .complete

/-- How the stream ends for the reader. -/
def verdict : Finale → Except Failure Unit
  | fail text => .error (.producer (.test text))
  | complete => .ok ()

/-- What a call for some bytes answers at the end. -/
def answer (e : Finale) : Except Failure Octets :=
  e.verdict.map fun _ => []

end Finale

/-! ## Requests in sections -/

/-- The errands of a request for one item. -/
def asking : List Errand :=
  Control.errands (.request 1)

/-- What is left of a request when its next errand has been run. -/
theorem asking_cases {x : Errand} {rest : List Errand} (hasks : x :: rest <:+ asking) :
    (x = .putDown (.request 1) ∧ rest = [.count (.request 1), .notify]) ∨
      (x = .count (.request 1) ∧ rest = [.notify]) ∨ (x = .notify ∧ rest = []) := by
  simpa [asking, Control.errands, List.suffix_cons_iff] using hasks

/-- What is left of a request after one more errand is left of it still. -/
theorem asking_tail {x : Errand} {rest : List Errand} (hasks : x :: rest <:+ asking) :
    rest <:+ asking :=
  (List.suffix_cons x rest).trans hasks

/-- Whether an errand is to put a control down. -/
def Errand.isEntry : Errand → Bool
  | .putDown _ => true
  | _ => false

/-- Whether an errand is to bring a control to the counter. -/
def Errand.isGrant : Errand → Bool
  | .count _ => true
  | _ => false

/-- Whether an errand is to deliver a chunk. -/
def Errand.isDelivery : Errand → Bool
  | .enters (.next _) => true
  | _ => false

@[simp]
theorem asking_entries : asking.countP Errand.isEntry = 1 := rfl

@[simp]
theorem asking_grants : asking.countP Errand.isGrant = 1 := rfl

@[simp]
theorem asking_deliveries : asking.countP Errand.isDelivery = 0 := rfl

/-! ## Reading calls -/

namespace Inlet

/-- All that a call for some bytes can come to at an inlet that was not closed. -/
inductive Reads (b : Inlet Unit) (n : Nat) : Answer Unit (Except Failure Octets) → Prop
  /-- Some bytes of the chunk in hand are taken. -/
  | held (hcurrent : b.current ≠ []) :
      Reads b n
        { value := .ok (b.current.take n), after := { b with current := b.current.drop n } }
  /-- The next chunk is taken and another one asked for, and some bytes of it are taken. -/
  | takes (c : Octets) (rest : List Element) (hcurrent : b.current = [])
      (hqueue : b.queue = .data c :: rest) (hslot : b.slot = .installed ())
      (hverdict : b.verdict = none) :
      Reads b n
        { value := .ok (c.take n)
          after := { b with queue := rest, current := c.drop n, credit := b.credit + 1 }
          reactions := [.note .requestingNextChunk, .control () (.request 1)] }
  /-- The end was seen before. -/
  | known (v : Except Failure Unit) (hcurrent : b.current = []) (hverdict : b.verdict = some v) :
      Reads b n { value := v.map fun _ => [], after := b }
  /-- The end is seen. -/
  | sees (e : Element) (note : Notice) (hcurrent : b.current = []) (hqueue : b.queue = [e])
      (hmark : e.isMark = true) (hverdict : b.verdict = none) :
      Reads b n
        { value := e.verdict.map fun _ => []
          after := { b with queue := [], drained := true, verdict := some e.verdict }
          reactions := [.note note] }

variable {b : Inlet Unit} {n : Nat} {a : Answer Unit (Except Failure Octets)}

/-- Every call for some bytes at an inlet that was not closed is in the list. -/
theorem reads_of_read (h : b.Orderly) (hpaced : b.Paced) (hslot : b.slot ≠ .closed) (hn : 0 < n)
    (hread : b.read n false = some a) : Reads b n a := by
  obtain ⟨held, hhold, rfl⟩ := hold_of_read hn hread
  rcases hold_cases h hhold with ⟨hcurrent, rfl⟩ | ⟨hcurrent, hrefill⟩
  · exact .held hcurrent
  · cases hrefill with
    | known v hverdict =>
        have hknown := Reads.known (n := n) v hcurrent hverdict
        cases v <;> exact hknown
    | chunk c rest handle hverdict hqueue hinstalled =>
        exact .takes c rest hcurrent hqueue hinstalled hverdict
    | leftover c rest hverdict hqueue hnobody =>
        -- A chunk without a subscription is left over from a closed inlet.
        cases hs : b.slot with
        | vacant => simp [Paced, hs, chunks, hqueue] at hpaced
        | installed handle => exact absurd hs (hnobody handle)
        | closed => exact absurd hs hslot
    | mark e note hverdict hmark hqueue =>
        have hsees := Reads.sees (n := n) e note hcurrent hqueue hmark hverdict
        cases hv : e.verdict with
        | ok u =>
            rw [hv] at hsees
            exact hsees
        | error f =>
            rw [hv] at hsees
            exact hsees
    | closed hverdict hqueue hclosed => exact absurd hclosed hslot
    | interrupted hverdict hqueue hfired => cases hfired

/-- A reading call leaves the subscription and the end as they are. -/
theorem Reads.kept (hreads : Reads b n a) :
    a.after.slot = b.slot ∧ a.after.terminated = b.terminated := by
  cases hreads <;> exact ⟨rfl, rfl⟩

/-- A reading call asks for another chunk when it takes one, and else for nothing. -/
theorem Reads.asks (hreads : Reads b n a) :
    Reaction.errands a.reactions = [] ∧ a.after.credit = b.credit ∨
      Reaction.errands a.reactions = asking ∧ a.after.credit = b.credit + 1 ∧
        a.after.verdict = none := by
  cases hreads with
  | takes c rest hcurrent hqueue hslot hverdict => exact .inr ⟨rfl, rfl, hverdict⟩
  | held | known | sees => exact .inl ⟨rfl, rfl⟩

end Inlet

end CreditFlow
