import CreditFlow.Signal

/-!
# Cues and peers

A rehearsal puts a party of the library opposite counterparts whose behaviour is
written down beforehand.  A *cue* is one thing that a hand-driven publisher does:
it signals, or does something of its own kind aside.  A *peer* is a subscription
of such a publisher.  It has a script for each request and for each cancellation
that will reach it: a list of cues, carried out inside that very call.  Since a
cue may bring in a further peer, every finite behaviour of a publisher, however it
depends on the calls that reach it, is the behaviour of some peer.

Main results:

- {lit}`Peer.answerAt_bank`: answering a call takes a script out of the peers and
  loses nothing.
- {lit}`Cue.weight_pos`: every cue weighs something.
-/

namespace CreditFlow

/-- A subscription with a script for each call that will reach it. -/
structure Peer (α : Type) where
  name : String
  onRequest : List (List α) := []
  onCancel : List (List α) := []

/-- One thing that a hand-driven publisher does.  `ε` are its asides. -/
inductive Cue (ε : Type) where
  | subscribe (peer : Peer (Cue ε))
  | next (chunk : Octets)
  | error (cause : Cause)
  | complete
  | aside (e : ε)

/-- A call that reached a counterpart. -/
inductive Call where
  | requested (name : String) (n : Nat)
  | cancelled (name : String)
  | subscribed
  | next (chunk : Octets)
  | error (cause : Cause)
  | complete
  deriving DecidableEq, Repr

/-- How a call is written down. -/
def Call.text : Call → String
  | .requested name n => name ++ ".request(" ++ toString n ++ ")"
  | .cancelled name => name ++ ".cancel()"
  | .subscribed => "on_subscribe"
  | .next chunk => "on_next(" ++ chunk.hex ++ ")"
  | .error cause => "on_error(" ++ cause.message ++ ")"
  | .complete => "on_complete"

/-! ## Answering -/

namespace Peer

variable {α : Type}

/-- What a peer hears when a control reaches it.  A handle that is let go is not heard. -/
def heard (c : Control) (p : Peer α) : List Call :=
  match c with
  | .request n => [.requested p.name n]
  | .cancel => [.cancelled p.name]
  | .release => []

/-- The script for a control, and the peer without it. -/
def answer (c : Control) (p : Peer α) : List α × Peer α :=
  match c with
  | .request _ => (p.onRequest.headD [], { p with onRequest := p.onRequest.tail })
  | .cancel => (p.onCancel.headD [], { p with onCancel := p.onCancel.tail })
  | .release => ([], p)

/-- What the peer at a given place hears, its script, and the peers without it. -/
def answerAt (c : Control) : Nat → List (Peer α) → List Call × List α × List (Peer α)
  | _, [] => ([], [], [])
  | 0, p :: rest => (p.heard c, (p.answer c).1, (p.answer c).2 :: rest)
  | place + 1, p :: rest =>
      let found := answerAt c place rest
      (found.1, found.2.1, p :: found.2.2)

end Peer

/-! ## Weights -/

namespace Cue

variable {ε : Type}

mutual

/-- A bound for the work that a cue can cause: what it does at once, and all that the
peer it brings in can do. -/
def weight : Cue ε → Nat
  | .subscribe peer => 5 + peerWeight peer
  | .next _ => 5
  | .error _ => 5
  | .complete => 5
  | .aside _ => 5

/-- The weight of all scripts of a peer. -/
def peerWeight : Peer (Cue ε) → Nat
  | ⟨_, onRequest, onCancel⟩ => scriptsWeight onRequest + scriptsWeight onCancel

/-- The weight of several scripts. -/
def scriptsWeight : List (List (Cue ε)) → Nat
  | [] => 0
  | script :: rest => scriptWeight script + scriptsWeight rest

/-- The weight of one script. -/
def scriptWeight : List (Cue ε) → Nat
  | [] => 0
  | cue :: rest => weight cue + scriptWeight rest

end

/-- The weight of all scripts of several peers. -/
def bank : List (Peer (Cue ε)) → Nat
  | [] => 0
  | p :: rest => peerWeight p + bank rest

theorem bank_append (peers others : List (Peer (Cue ε))) :
    bank (peers ++ others) = bank peers + bank others := by
  induction peers with
  | nil => simp [bank]
  | cons p rest ih => simp only [List.cons_append, bank, ih, Nat.add_assoc]

/-- Every cue weighs more than the reactions that it can cause at once. -/
theorem weight_pos (cue : Cue ε) : 4 < weight cue := by
  cases cue <;> simp only [weight] <;> omega

/-- Taking the first of several scripts takes its weight. -/
theorem scriptWeight_headD_add (scripts : List (List (Cue ε))) :
    scriptWeight (scripts.headD []) + scriptsWeight scripts.tail = scriptsWeight scripts := by
  cases scripts <;> simp [scriptWeight, scriptsWeight]

/-- A peer weighs what its scripts weigh. -/
theorem peerWeight_eq (p : Peer (Cue ε)) :
    peerWeight p = scriptsWeight p.onRequest + scriptsWeight p.onCancel := by
  cases p
  rw [peerWeight]

end Cue

/-- A peer's answer takes a script out of it and loses nothing. -/
theorem Peer.answer_weight {ε : Type} (c : Control) (p : Peer (Cue ε)) :
    Cue.scriptWeight (p.answer c).1 + Cue.peerWeight (p.answer c).2 = Cue.peerWeight p := by
  cases c with
  | request n =>
      have h := Cue.scriptWeight_headD_add p.onRequest
      simp only [Peer.answer, Cue.peerWeight_eq]
      omega
  | cancel =>
      have h := Cue.scriptWeight_headD_add p.onCancel
      simp only [Peer.answer, Cue.peerWeight_eq]
      omega
  | release => simp [Peer.answer, Cue.scriptWeight]

/-- Answering a call takes a script out of the peers and loses nothing. -/
theorem Peer.answerAt_bank {ε : Type} (c : Control) (place : Nat) (peers : List (Peer (Cue ε))) :
    Cue.scriptWeight (Peer.answerAt c place peers).2.1 + Cue.bank (Peer.answerAt c place peers).2.2 =
      Cue.bank peers := by
  induction peers generalizing place with
  | nil => simp [Peer.answerAt, Cue.scriptWeight]
  | cons p rest ih =>
      cases place with
      | zero =>
          have h := Peer.answer_weight c p
          simp only [Peer.answerAt, Cue.bank]
          omega
      | succ place =>
          have h := ih place
          simp only [Peer.answerAt, Cue.bank] at h ⊢
          omega

end CreditFlow
