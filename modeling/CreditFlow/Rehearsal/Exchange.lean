import CreditFlow.Inlet.Reading
import CreditFlow.Rehearsal.Cue

/-!
# An inlet opposite hand-driven publishers

An exchange is an inlet, the subscriptions that its publishers hold, and the record
of what happened.  Publishers may answer from inside the calls they receive.  Since
an inlet decides everything before it calls a handle, such an answer is a cue that
comes next; so an exchange keeps an agenda, carries out its first task, and puts
what follows from it in front of the rest.

Main results:

- {lit}`Exchange.step_weight`: every step of an agenda uses up some weight, so an
  agenda always comes to its end.
- {lit}`Exchange.settle_nil`, {lit}`Exchange.settle_cons`: settling an agenda is
  carrying out its first task and then settling what follows.
- {lit}`Exchange.settle_append`: an agenda can be settled in parts.
-/

namespace CreditFlow

/-- What a hand-driven publisher does to an inlet beside signalling. -/
inductive InletAside where
  /-- The transfer has failed outside the stream. -/
  | failure (cause : Cause)
  /-- The metadata arrives. -/
  | publish (value : String)
  /-- Someone closes the inlet. -/
  | close
  /-- Someone fires the interrupt token. -/
  | interrupt
  deriving DecidableEq, Repr

/-- What a hand-driven publisher does to an inlet. -/
abbrev InletCue := Cue InletAside

/-- An inlet opposite hand-driven publishers; handles are places in `peers`. -/
structure Exchange where
  inlet : Inlet Nat := {}
  /-- Whether the interrupt token was fired. -/
  interrupted : Bool := false
  peers : List (Peer InletCue) := []
  /-- The calls that reached the peers, in order. -/
  calls : List Call := []
  /-- The notices of the inlet, in order. -/
  journal : List Notice := []

/-- What is left to do. -/
inductive Task where
  | cue (c : InletCue)
  | reaction (r : Reaction Nat)

namespace Exchange

/-- Put a changed inlet in place, with the reactions that came with it. -/
def told (w : Exchange) (change : Inlet Nat × List (Reaction Nat)) :
    Exchange × List (Reaction Nat) :=
  ({ w with inlet := change.1 }, change.2)

/-- What a cue does to the inlet. -/
def perform (w : Exchange) : InletCue → Exchange × List (Reaction Nat)
  | .subscribe peer =>
      { w with peers := w.peers ++ [peer] }.told (w.inlet.subscribed w.peers.length)
  | .next chunk => w.told (w.inlet.next chunk)
  | .error cause => w.told (w.inlet.error cause)
  | .complete => w.told w.inlet.complete
  | .aside (.failure cause) => w.told (w.inlet.failure cause)
  | .aside (.publish value) => w.told (w.inlet.publish value)
  | .aside .close => w.told w.inlet.close
  | .aside .interrupt => ({ w with interrupted := true }, [])

/-- Carry out one reaction; a control brings the script of the peer it reaches. -/
def carryOut (w : Exchange) : Reaction Nat → Exchange × List InletCue
  | .note n => ({ w with journal := w.journal ++ [n] }, [])
  | .control handle c =>
      let answer := Peer.answerAt c handle w.peers
      ({ w with calls := w.calls ++ answer.1, peers := answer.2.2 }, answer.2.1)
  | .interrupt => ({ w with interrupted := true }, [])

/-- Carry out one task; what follows from it comes next. -/
def step (w : Exchange) : Task → Exchange × List Task
  | .cue c => ((w.perform c).1, (w.perform c).2.map .reaction)
  | .reaction r => ((w.carryOut r).1, (w.carryOut r).2.map .cue)

/-! ## Weights -/

/-- The weight of a task. -/
def taskWeight : Task → Nat
  | .cue c => c.weight
  | .reaction _ => 1

/-- The weight of an agenda. -/
def agendaWeight : List Task → Nat
  | [] => 0
  | t :: rest => taskWeight t + agendaWeight rest

theorem agendaWeight_append (a b : List Task) :
    agendaWeight (a ++ b) = agendaWeight a + agendaWeight b := by
  induction a with
  | nil => simp [agendaWeight]
  | cons t rest ih => simp only [List.cons_append, agendaWeight, ih, Nat.add_assoc]

/-- Each reaction of an agenda weighs one. -/
theorem agendaWeight_reactions (out : List (Reaction Nat)) :
    agendaWeight (out.map .reaction) = out.length := by
  induction out with
  | nil => rfl
  | cons r out ih =>
      simp only [List.map_cons, agendaWeight, List.length_cons, taskWeight, ih, Nat.add_comm]

/-- The cues of a script weigh what the script weighs. -/
theorem agendaWeight_cues (script : List InletCue) :
    agendaWeight (script.map .cue) = Cue.scriptWeight script := by
  induction script with
  | nil => simp [agendaWeight, Cue.scriptWeight]
  | cons c script ih =>
      simp only [List.map_cons, agendaWeight, taskWeight, Cue.scriptWeight, ih]

theorem failStream_length (f : Failure) (b : Inlet Nat) : (b.failStream f).2.length ≤ 1 := by
  unfold Inlet.failStream
  split
  · simp
  · split
    · split <;> simp
    · simp

theorem completeStream_length (b : Inlet Nat) : b.completeStream.2.length = 1 := by
  unfold Inlet.completeStream
  split <;> rfl

/-- A cue causes at most three reactions, and brings in at most the scripts that it
carries. -/
theorem perform_weight (w : Exchange) (c : InletCue) :
    Cue.bank (w.perform c).1.peers + (w.perform c).2.length < Cue.bank w.peers + c.weight := by
  cases c with
  | subscribe peer =>
      have hout : (w.inlet.subscribed w.peers.length).2.length = 2 := by
        unfold Inlet.subscribed
        split <;> rfl
      simp only [perform, told, Cue.bank_append, Cue.bank, Cue.weight, hout]
      omega
  | next chunk =>
      have hout : (w.inlet.next chunk).2.length ≤ 2 := by
        unfold Inlet.next
        split
        · split
          · simp
          · split <;> simp
        · simp
      simp only [perform, told, Cue.weight]
      omega
  | error cause =>
      have hfail := failStream_length (.producer cause)
        (w.inlet.resolveMetadata (.failed cause) .failedBeforeMetadata).1
      simp only [perform, told, Inlet.error, List.length_append, List.length_cons, Cue.weight]
      simp only [Inlet.resolveMetadata, List.length_cons, List.length_nil] at hfail ⊢
      omega
  | complete =>
      have hend := completeStream_length
        (w.inlet.resolveMetadata .missing .completedWithoutMetadata).1
      simp only [perform, told, Inlet.complete, List.length_append, Cue.weight]
      simp only [Inlet.resolveMetadata, List.length_cons, List.length_nil] at hend ⊢
      omega
  | aside e =>
      cases e with
      | failure cause =>
          have hfail := failStream_length (.producer cause)
            (w.inlet.resolveMetadata (.failed cause) (.failedBeforeMetadataBy cause)).1
          simp only [perform, told, Inlet.failure, List.length_append, Cue.weight]
          simp only [Inlet.resolveMetadata, List.length_cons, List.length_nil] at hfail ⊢
          omega
      | publish value =>
          simp only [perform, told, Inlet.publish, Inlet.resolveMetadata, List.length_cons,
            List.length_nil, Cue.weight]
          omega
      | close =>
          have hout : w.inlet.close.2.length ≤ 2 := by
            unfold Inlet.close
            split
            · simp
            · split <;> simp
            · simp
          simp only [perform, told, Cue.weight]
          omega
      | interrupt =>
          simp only [perform, List.length_nil, Cue.weight]
          omega

/-- A reaction moves a script from the peers to the agenda and adds nothing. -/
theorem carryOut_weight (w : Exchange) (r : Reaction Nat) :
    Cue.bank (w.carryOut r).1.peers + Cue.scriptWeight (w.carryOut r).2 = Cue.bank w.peers := by
  cases r with
  | note n => simp [carryOut, Cue.scriptWeight]
  | control handle c =>
      have h := Peer.answerAt_bank c handle w.peers
      simp only [carryOut]
      omega
  | interrupt => simp [carryOut, Cue.scriptWeight]

/-- Every step uses up some weight. -/
theorem step_weight (w : Exchange) (t : Task) :
    Cue.bank (w.step t).1.peers + agendaWeight (w.step t).2 <
      Cue.bank w.peers + taskWeight t := by
  cases t with
  | cue c =>
      have h := perform_weight w c
      simpa only [step, agendaWeight_reactions, taskWeight] using h
  | reaction r =>
      have h := carryOut_weight w r
      simp only [step, agendaWeight_cues, taskWeight]
      omega

/-! ## Settling -/

/-- Carry out an agenda to its end. -/
def settle (w : Exchange) : List Task → Exchange
  | [] => w
  | t :: rest => settle (w.step t).1 ((w.step t).2 ++ rest)
termination_by agenda => Cue.bank w.peers + agendaWeight agenda
decreasing_by
  have h := step_weight w t
  simp only [agendaWeight_append]
  simp only [agendaWeight] at h ⊢
  omega

@[simp]
theorem settle_nil (w : Exchange) : w.settle [] = w := by
  rw [settle]

/-- Settling an agenda is carrying out its first task and then settling what follows. -/
theorem settle_cons (w : Exchange) (t : Task) (rest : List Task) :
    w.settle (t :: rest) = (w.step t).1.settle ((w.step t).2 ++ rest) := by
  rw [settle]

/-- What one part of an agenda leaves is what the rest of it starts from. -/
theorem settle_append (w : Exchange) (first second : List Task) :
    w.settle (first ++ second) = (w.settle first).settle second := by
  fun_induction settle w first with
  | case1 w => rfl
  | case2 w t rest ih =>
      rw [List.cons_append, settle_cons, ← List.append_assoc]
      exact ih

/-- Carry out cues, each with all that follows from it. -/
def play (w : Exchange) (cues : List InletCue) : Exchange :=
  w.settle (cues.map .cue)

/-- Put a changed inlet in place and carry out the reactions that came with it. -/
def commit (inlet : Inlet Nat) (out : List (Reaction Nat)) (w : Exchange) : Exchange :=
  { w with inlet := inlet }.settle (out.map .reaction)

end Exchange
end CreditFlow
