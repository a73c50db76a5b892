import CreditFlow.Proofs.Insertion
import CreditFlow.Proofs.InletClosing

/-!
# Interrupting the calls of a reader

A call of a reader that finds nothing has to wait, and while it waits it looks at the
interrupt token.  The token decides nothing else.  A call that need not wait comes to the same
whether or not the token was fired; one that would have to wait fails, names what it was
waiting for, and leaves the inlet as it was.

So an interrupted call is a call that was not made.  Whatever else happens at the inlet, calls
that are interrupted can be put in anywhere, and everything goes on as it would have without
them.

Main results:

- {lit}`Inlet.reply_fired`: what a call answers when the token was fired.
- {lit}`InletTraffic.ask_waiting`: an interrupted call changes nothing.
- {lit}`InletTraffic.run_edited`: interrupted calls among any traffic.
-/

namespace CreditFlow

/-! ## Calls that may have to wait -/

/-- A call of a reader that may have to wait. -/
inductive ReaderCall where
  /-- A call for bytes. -/
  | bytes (call : ReadCall)
  /-- A call for the metadata. -/
  | metadata
  deriving DecidableEq, Repr

/-- What such a call answers. -/
inductive ReaderReply where
  | bytes (r : Except Failure Octets)
  | metadata (r : Except Failure String)

namespace ReaderCall

/-- What a call waits for. -/
def point : ReaderCall → WaitPoint
  | .bytes _ => .data
  | .metadata => .metadata

/-- A failure, as the answer of a call. -/
def fails (f : Failure) : ReaderCall → ReaderReply
  | .bytes _ => .bytes (.error f)
  | .metadata => .metadata (.error f)

/-- The answer of a call that is interrupted. -/
def refusal (call : ReaderCall) : ReaderReply :=
  call.fails (.condition (.interrupted call.point))

end ReaderCall

/-- The bytes that an answer brings. -/
def ReaderReply.octets : ReaderReply → Octets
  | .bytes r => Inlet.bytes r
  | .metadata _ => []

namespace Inlet

variable {ι : Type}

/-- Change the value of an answer. -/
def Answer.map {α β : Type} (f : α → β) (a : Answer ι α) : Answer ι β :=
  { value := f a.value, after := a.after, reactions := a.reactions }

/-- What a call answers when the token was fired or not; `none` means that it has to wait. -/
def reply (call : ReaderCall) (fired : Bool) (b : Inlet ι) : Option (Answer ι ReaderReply) :=
  match call with
  | .bytes call => (b.answer call fired).map (Answer.map .bytes)
  | .metadata => (b.awaitMetadata fired).map (Answer.map .metadata)

/-! ## The token -/

/-- Reading when the token was fired is reading, unless the call would have to wait. -/
theorem read_fired (n : Nat) (b : Inlet ι) :
    b.read n true =
      some ((b.read n false).getD
        { value := .error (.condition (.interrupted .data)), after := b }) := by
  by_cases hn : n = 0
  · subst hn
    rfl
  · by_cases hcurrent : b.current.isEmpty = true
    · rw [read, read, if_neg hn, if_neg hn, hold, hold, if_pos hcurrent, if_pos hcurrent,
        refill_interrupted]
      cases b.refill false with
      | none => rfl
      | some a => rfl
    · rw [read, read, if_neg hn, if_neg hn, hold, hold, if_neg hcurrent, if_neg hcurrent]
      rfl

/-- So is waiting for the metadata. -/
theorem awaitMetadata_fired (b : Inlet ι) :
    b.awaitMetadata true =
      some ((b.awaitMetadata false).getD
        { value := .error (.condition (.interrupted .metadata)), after := b }) := by
  unfold awaitMetadata Cell.wait
  cases b.metadata.result? with
  | none => rfl
  | some r => rfl

/-- A call that need not wait answers the same when the token was fired; one that would have
to wait says that it was interrupted while it waited for its own, and leaves the inlet as it
was. -/
theorem reply_fired (call : ReaderCall) (b : Inlet ι) :
    b.reply call true = some ((b.reply call false).getD { value := call.refusal, after := b }) := by
  cases call with
  | bytes call =>
      simp only [reply, answer_eq_read, read_fired]
      cases b.read call.wanted false with
      | none => rfl
      | some a => rfl
  | metadata =>
      simp only [reply, awaitMetadata_fired]
      cases b.awaitMetadata false with
      | none => rfl
      | some a => rfl

/-- A call that need not wait does not look at the token. -/
theorem reply_fired_of_some {call : ReaderCall} {b : Inlet ι} {a : Answer ι ReaderReply}
    (hreply : b.reply call false = some a) : b.reply call true = some a := by
  rw [reply_fired, hreply]
  rfl

/-- A call that would have to wait is refused when the token was fired. -/
theorem reply_fired_of_none {call : ReaderCall} {b : Inlet ι}
    (hwaits : b.reply call false = none) :
    b.reply call true = some { value := call.refusal, after := b } := by
  rw [reply_fired, hwaits]
  rfl

/-- A call that need not wait does not look at the token. -/
theorem reply_eq_of_ne {call : ReaderCall} {b : Inlet ι} (hready : b.reply call false ≠ none)
    (fired fired' : Bool) : b.reply call fired = b.reply call fired' := by
  obtain ⟨a, hreply⟩ := Option.ne_none_iff_exists'.mp hready
  have hsame : ∀ fired, b.reply call fired = some a := by
    intro fired
    cases fired with
    | false => exact hreply
    | true => exact reply_fired_of_some hreply
  rw [hsame, hsame]

end Inlet

/-! ## Calls among traffic -/

/-- One thing that happens at an inlet, or a call of its reader. -/
inductive InletMove where
  | happens (e : InletEvent)
  /-- The reader makes a call, while the token was fired or not. -/
  | asks (call : ReaderCall) (fired : Bool)

namespace InletTraffic

variable {t : InletTraffic}

/-- The reader makes a call.  A call that would have to wait does nothing yet. -/
def ask (call : ReaderCall) (fired : Bool) (t : InletTraffic) : InletTraffic :=
  match t.inlet.reply call fired with
  | none => t
  | some a => { t.change a.after a.reactions with returned := t.returned ++ a.value.octets }

/-- What a move does. -/
def move (t : InletTraffic) : InletMove → InletTraffic
  | .happens e => t.step e
  | .asks call fired => t.ask call fired

/-- What the reader is answered by a move, if it is answered. -/
def reply? (t : InletTraffic) : InletMove → Option ReaderReply
  | .happens (.reads call) => (t.answers call).map fun a => .bytes a.value
  | .happens _ => none
  | .asks call fired => (t.inlet.reply call fired).map (·.value)

/-- Traffic at an inlet, with the calls of its reader. -/
def party : Party InletTraffic InletMove (Option ReaderReply) where
  step := move
  reply := reply?

/-- A call for the metadata changes nothing. -/
theorem ask_metadata (fired : Bool) (t : InletTraffic) : t.ask .metadata fired = t := by
  simp only [ask, Inlet.reply, Inlet.awaitMetadata]
  cases t.inlet.metadata.wait fired with
  | none => rfl
  | some r =>
      change { t.change t.inlet [] with returned := t.returned ++ [] } = t
      rw [List.append_nil]
      rfl

/-- A call that would have to wait changes nothing when it is interrupted, and says so. -/
theorem ask_waiting {call : ReaderCall} (hwaits : t.inlet.reply call false = none) :
    t.ask call true = t ∧ t.reply? (.asks call true) = some call.refusal := by
  have hreply := Inlet.reply_fired_of_none hwaits
  constructor
  · have hnothing : call.refusal.octets = [] := by cases call <;> rfl
    simp only [ask, hreply, hnothing, List.append_nil]
    rfl
  · rw [reply?, hreply]
    rfl

/-- A call that need not wait comes to the same whether or not the token was fired. -/
theorem ask_ready {call : ReaderCall} (hready : t.inlet.reply call false ≠ none)
    (fired fired' : Bool) :
    t.reply? (.asks call fired) = t.reply? (.asks call fired') ∧
      t.ask call fired = t.ask call fired' := by
  have hsame := Inlet.reply_eq_of_ne hready fired fired'
  simp only [reply?, ask, hsame]
  exact ⟨trivial, trivial⟩

/-- A call that is interrupted. -/
def Interrupts (t : InletTraffic) (m : InletMove) : Prop :=
  ∃ call, m = .asks call true ∧ t.inlet.reply call false = none

/-- A call that need not wait, while the token was fired or not. -/
def Heedless (t : InletTraffic) (m m' : InletMove) : Prop :=
  ∃ call fired fired', m = .asks call fired ∧ m' = .asks call fired' ∧
    t.inlet.reply call false ≠ none

/-- Calls that are interrupted can be put in anywhere, and the token can be fired for any call
that need not wait: everything ends as it would have, and every other call is answered the
same. -/
theorem run_edited (edits : List (Edit InletMove)) (t : InletTraffic)
    (hallowed : Edit.Allowed party Interrupts Heedless edits t) :
    party.run (Edit.before edits) t = party.run (Edit.after edits) t ∧
      party.replies (Edit.before edits) t = Edit.kept party edits t := by
  refine Edit.run_alike (R := Eq) ?_ ?_ ?_ rfl hallowed
  · rintro t u m rfl
    exact ⟨rfl, rfl⟩
  · rintro t u m rfl ⟨call, rfl, hwaits⟩
    exact (ask_waiting hwaits).1.symm
  · rintro u m m' ⟨call, fired, fired', rfl, rfl, hready⟩
    exact ask_ready hready fired fired'

end InletTraffic
end CreditFlow
