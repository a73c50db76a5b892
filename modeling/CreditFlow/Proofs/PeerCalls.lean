import CreditFlow.Rehearsal.Cue

/-!
# What reaches the peers

A control names the peer that it is for by a handle, the peer's place.  What is written down
when it arrives is the peer's name.  Peers keep their places and their names whatever reaches
them, so the record of a run can be told from the handles alone.

Main results:

- {lit}`Peer.answerAt_heard`: what is written down when a control arrives.
- {lit}`Peer.answerAt_names`: a control changes no peer's place or name.
-/

namespace CreditFlow.Peer

variable {α : Type}

/-- What is heard when a control reaches the peer at a given place, if there is one. -/
def heardAt (c : Control) (place : Nat) (peers : List (Peer α)) : List Call :=
  match peers[place]? with
  | some p => p.heard c
  | none => []

/-- What is written down when a control arrives is what its peer hears. -/
@[simp]
theorem answerAt_heard (c : Control) (place : Nat) (peers : List (Peer α)) :
    (answerAt c place peers).1 = heardAt c place peers := by
  induction peers generalizing place with
  | nil => simp [answerAt, heardAt]
  | cons p rest ih =>
      cases place with
      | zero => rfl
      | succ place => simpa [answerAt, heardAt] using ih place

/-- A control changes no peer's place or name. -/
@[simp]
theorem answerAt_names (c : Control) (place : Nat) (peers : List (Peer α)) :
    (answerAt c place peers).2.2.map name = peers.map name := by
  induction peers generalizing place with
  | nil => simp [answerAt]
  | cons p rest ih =>
      cases place with
      | zero => cases c <;> rfl
      | succ place => simp [answerAt, ih]

@[simp]
theorem answerAt_length (c : Control) (place : Nat) (peers : List (Peer α)) :
    (answerAt c place peers).2.2.length = peers.length := by
  have hnames := congrArg List.length (answerAt_names c place peers)
  rwa [List.length_map, List.length_map] at hnames

/-- The peer that joined last is at the place behind all others. -/
theorem answerAt_last (c : Control) (peers : List (Peer α)) (p : Peer α) :
    answerAt c peers.length (peers ++ [p]) =
      (p.heard c, (p.answer c).1, peers ++ [(p.answer c).2]) := by
  induction peers with
  | nil => rfl
  | cons first rest ih =>
      rw [List.length_cons, List.cons_append, answerAt, ih]
      rfl

/-- Only the name decides what a peer hears. -/
theorem heardAt_eq (c : Control) (place : Nat) (peers : List (Peer α)) :
    heardAt c place peers =
      match (peers.map name)[place]? with
      | some given => heard c ({ name := given } : Peer α)
      | none => [] := by
  rw [heardAt, List.getElem?_map]
  cases hplace : peers[place]? with
  | none => rfl
  | some p => cases c <;> rfl

/-- Neither what has reached the peers since nor peers that joined change what one hears. -/
theorem heardAt_of_prefix {peers others : List (Peer α)}
    (hnames : peers.map name <+: others.map name) {place : Nat} (hplace : place < peers.length)
    (c : Control) : heardAt c place others = heardAt c place peers := by
  obtain ⟨more, hmore⟩ := hnames
  have hshort : place < (peers.map name).length := by simpa using hplace
  rw [heardAt_eq, heardAt_eq, ← hmore, List.getElem?_append_left hshort]

/-- A handle is let go of unheard. -/
@[simp]
theorem heardAt_release (place : Nat) (peers : List (Peer α)) :
    heardAt .release place peers = [] := by
  unfold heardAt
  split <;> rfl

end CreditFlow.Peer
