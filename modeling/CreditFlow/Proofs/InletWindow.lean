import CreditFlow.Proofs.InletPort
import CreditFlow.Proofs.InletTraffic
import CreditFlow.Proofs.PeerCalls

/-!
# The window of an inlet under traffic

An inlet has one item in its window: a chunk that waits, or a request that was not
answered.  What it calls on a subscription is decided in the step that changes its state,
and made afterwards; a call is *issued* when it is decided.  However the threads meet, an
inlet has issued as many requests as it has accepted deliveries and has credit left, each
of them for one item.  So its credit is what the publisher may still deliver, and the
delivery that an inlet answers with a breach of the protocol is the first one that nobody
had asked for.

Main results:

- {lit}`InletTraffic.turn_step`: all that an event can come to.
- {lit}`InletTraffic.run_windowed`: the window, and the requests that account for it.
- {lit}`Inlet.heed_exceeded`: a breach is a delivery without credit.
- {lit}`InletTraffic.Windowed.run_shut`: after a breach nothing is accepted, and only late
  subscriptions are called.
- {lit}`InletTraffic.run_respected`: who delivers what was asked for commits no breach.
-/

namespace CreditFlow

/-! ## Calls that are issued -/

/-- The control that a call has brought to a counterpart, if any. -/
def Call.control? : Call → Option Control
  | .requested _ n => some (.request n)
  | .cancelled _ => some .cancel
  | _ => none

/-- The control that a task is about to bring, if any. -/
def Task.control? : Task → Option Control
  | .cue _ => none
  | .reaction r => r.control?

@[simp]
theorem Task.filterMap_cues (script : List InletCue) :
    (script.map Task.cue).filterMap control? = [] := by
  induction script with
  | nil => rfl
  | cons c script ih => exact ih

@[simp]
theorem Task.filterMap_reactions (out : List (Reaction Nat)) :
    (out.map Task.reaction).filterMap control? = Reaction.controls out := by
  rw [List.filterMap_map]
  rfl

/-- A peer hears of every control that reaches it, unless its handle is let go. -/
theorem Peer.answerAt_control {α : Type} {c : Control} (hkept : c ≠ .release) {place : Nat}
    {peers : List (Peer α)} (hplace : place < peers.length) :
    (Peer.answerAt c place peers).1.filterMap Call.control? = [c] := by
  induction peers generalizing place with
  | nil => simp at hplace
  | cons p rest ih =>
      cases place with
      | zero =>
          cases c with
          | request n => rfl
          | cancel => rfl
          | release => exact absurd rfl hkept
      | succ place => exact ih (by simpa using hplace)

namespace InletTraffic

/-- The controls that have reached the publishers. -/
def made (t : InletTraffic) : List Control :=
  t.world.calls.filterMap Call.control?

/-- The controls that are decided and have not reached anyone yet. -/
def pending (t : InletTraffic) : List Control :=
  t.underway.filterMap Task.control?

/-- The controls that the inlet has decided on. -/
def issued (t : InletTraffic) : List Control :=
  t.made ++ t.pending

/-- How many requests the inlet has issued. -/
def requests (t : InletTraffic) : Nat :=
  t.issued.count (.request 1)

/-- How many chunks were handed to the inlet. -/
def deliveries (t : InletTraffic) : Nat :=
  t.told.countP fun c => c.chunk?.isSome

/-- How many subscriptions were handed to the inlet. -/
def arrivals (t : InletTraffic) : Nat :=
  t.told.countP Cue.isSubscribe

end InletTraffic

namespace Inlet

variable {ι : Type}

/-- How an inlet reacts to a cue; `handle` names the subscription that it may bring. -/
def echo (c : InletCue) (handle : ι) (b : Inlet ι) : List (Reaction ι) :=
  match c with
  | .subscribe _ => (b.subscribed handle).2
  | .next chunk => (b.next chunk).2
  | .error cause => (b.error cause).2
  | .complete => b.complete.2
  | .aside (.failure cause) => (b.failure cause).2
  | .aside (.publish value) => (b.publish value).2
  | .aside .close => b.close.2
  | .aside .interrupt => []

end Inlet

/-- What follows from an act in an exchange is what the inlet does at its cue. -/
theorem Exchange.perform_echo (w : Exchange) (c : InletCue) :
    (w.perform c).2 = w.inlet.echo c w.peers.length := by
  cases c with
  | aside e => cases e <;> rfl
  | _ => rfl

/-! ## What a cue does to the window -/

namespace Inlet

variable {ι : Type} {b : Inlet ι}

/-- An inlet calls only the subscription that a cue brings and the one it has installed, and
it asks for one item or cancels. -/
theorem echo_control {c : InletCue} {fresh handle : ι} {control : Control}
    (hecho : Reaction.control handle control ∈ b.echo c fresh) :
    (handle = fresh ∧ c.isSubscribe = true ∨ b.slot = .installed handle) ∧
      (control = .request 1 ∨ control = .cancel) := by
  have hnone : ∀ rs : List (Reaction ι), Reaction.controls rs = [] →
      Reaction.control handle control ∉ rs := by
    intro rs hrs hmem
    have hcontrol : control ∈ Reaction.controls rs := List.mem_filterMap.mpr ⟨_, hmem, rfl⟩
    simp [hrs] at hcontrol
  cases c with
  | subscribe peer =>
      simp only [echo, subscribed] at hecho
      split at hecho
      · obtain ⟨rfl, rfl⟩ : handle = fresh ∧ control = .request 1 := by simpa using hecho
        exact ⟨.inl ⟨rfl, rfl⟩, .inl rfl⟩
      · obtain ⟨rfl, rfl⟩ : handle = fresh ∧ control = .cancel := by simpa using hecho
        exact ⟨.inl ⟨rfl, rfl⟩, .inr rfl⟩
      · obtain ⟨rfl, rfl⟩ : handle = fresh ∧ control = .cancel := by simpa using hecho
        exact ⟨.inl ⟨rfl, rfl⟩, .inr rfl⟩
  | next chunk =>
      simp only [echo, next] at hecho
      split at hecho
      · rename_i installed hslot hopen
        split at hecho
        · obtain ⟨rfl, rfl⟩ : handle = installed ∧ control = .cancel := by simpa using hecho
          exact ⟨.inr hslot, .inr rfl⟩
        · split at hecho
          · obtain ⟨rfl, rfl⟩ : handle = installed ∧ control = .request 1 := by simpa using hecho
            exact ⟨.inr hslot, .inl rfl⟩
          · simp at hecho
      · simp at hecho
  | error cause =>
      refine absurd hecho (hnone _ ?_)
      simp [echo, error, resolveMetadata]
  | complete =>
      refine absurd hecho (hnone _ ?_)
      simp [echo, complete, resolveMetadata]
  | aside e =>
      cases e with
      | failure cause =>
          refine absurd hecho (hnone _ ?_)
          simp [echo, failure, resolveMetadata]
      | publish value => exact absurd hecho (hnone _ rfl)
      | close =>
          simp only [echo, close] at hecho
          split at hecho
          · simp at hecho
          · rename_i installed hslot
            split at hecho
            · simp at hecho
            · obtain ⟨rfl, rfl⟩ : handle = installed ∧ control = .cancel := by simpa using hecho
              exact ⟨.inr hslot, .inr rfl⟩
          · simp at hecho
      | interrupt => simp [echo] at hecho

/-- A subscription is installed once, and wanted no more after that. -/
theorem heed_slot (c : InletCue) (fresh : ι) (b : Inlet ι) :
    (b.heed c fresh).slot = b.slot ∨ (b.heed c fresh).slot = .closed ∨
      (c.isSubscribe = true ∧ b.slot = .vacant ∧ (b.heed c fresh).slot = .installed fresh) := by
  cases c with
  | subscribe peer =>
      simp only [heed, subscribed]
      split
      · rename_i hslot
        exact .inr (.inr ⟨rfl, hslot, rfl⟩)
      · exact .inl rfl
      · exact .inl rfl
  | next chunk =>
      simp only [heed, next]
      split
      · split
        · exact .inr (.inl rfl)
        · split <;> exact .inl rfl
      · exact .inl rfl
  | error cause => exact .inl (by simp [heed, error, resolveMetadata])
  | complete =>
      simp only [heed, complete, completeStream]
      split <;> exact .inl rfl
  | aside e =>
      cases e with
      | failure cause => exact .inl (by simp [heed, failure, resolveMetadata])
      | publish value => exact .inl rfl
      | close => exact .inr (.inl (by simp [heed]))
      | interrupt => exact .inl rfl

/-- An end is not taken back. -/
theorem heed_terminated (h : b.Orderly) (hend : b.terminated = true) (c : InletCue)
    (fresh : ι) : (b.heed c fresh).terminated = true := by
  cases c with
  | subscribe peer =>
      simp only [heed, subscribed]
      split <;> exact hend
  | next chunk =>
      rw [heed, next_of_terminated hend]
      exact hend
  | error cause => exact failStream_terminated (resolveMetadata_orderly h _ _) _
  | complete => exact completeStream_terminated _
  | aside e =>
      cases e with
      | failure cause => exact failStream_terminated (resolveMetadata_orderly h _ _) _
      | publish value => exact hend
      | close =>
          simp only [heed, close]
          split <;> exact hend
      | interrupt => exact hend

/-- Once no subscription is wanted, only one that comes too late is called. -/
theorem echo_of_closed (hslot : b.slot = .closed) (c : InletCue) (fresh : ι) :
    Reaction.controls (b.echo c fresh) = if c.isSubscribe then [.cancel] else [] := by
  cases c with
  | subscribe peer => simp [echo, subscribed, hslot, Cue.isSubscribe]
  | next chunk => simp [echo, next, hslot, Cue.isSubscribe]
  | error cause => simp [echo, error, resolveMetadata, Cue.isSubscribe]
  | complete => simp [echo, complete, resolveMetadata, Cue.isSubscribe]
  | aside e =>
      cases e with
      | failure cause => simp [echo, failure, resolveMetadata, Cue.isSubscribe]
      | publish value => rfl
      | close => simp [echo, close, hslot, Cue.isSubscribe]
      | interrupt => rfl

@[simp]
theorem completeStream_credit (b : Inlet ι) : b.completeStream.1.credit = b.credit := by
  unfold completeStream
  split <;> rfl

/-- Whatever cue comes, the window stays what it was, or is opened for one item. -/
theorem heed_paced (h : b.Paced) (c : InletCue) (fresh : ι) : (b.heed c fresh).Paced := by
  cases c with
  | subscribe peer => exact subscribed_paced h fresh
  | next chunk => exact next_paced h chunk
  | error cause => exact signal_paced h (.error cause)
  | complete => exact signal_paced h .complete
  | aside e =>
      cases e with
      | failure cause => exact failure_paced h cause
      | publish value => exact resolveMetadata_paced h _ _
      | close => exact close_paced h
      | interrupt => exact h

/-- A delivery is accepted on credit, or brings the credit back with a request. -/
theorem next_balances (chunk : Octets) (b : Inlet ι) :
    (Reaction.controls (b.next chunk).2).count (.request 1) + b.credit =
      (b.acceptedBy (.next chunk)).length + (b.next chunk).1.credit := by
  unfold next acceptedBy accepts
  cases hslot : b.slot with
  | vacant => simp
  | closed => simp
  | installed handle =>
      cases hend : b.terminated with
      | true => simp
      | false =>
          by_cases hcredit : b.credit = 0
          · simp [hcredit]
          · by_cases hempty : chunk.isEmpty
            · simp [hcredit, hempty, Cue.chunk?]
            · simp only [if_neg hcredit, if_neg hempty, Reaction.controls_note,
                Reaction.controls_nil, List.count_nil]
              simp [hcredit, Cue.chunk?]
              omega

/-- What an inlet asks for in answer to a cue is what it has accepted by it and what its
credit has grown by. -/
theorem heed_balances (h : b.Paced) (c : InletCue) (fresh : ι) :
    (Reaction.controls (b.echo c fresh)).count (.request 1) + b.credit =
      (b.acceptedBy c).length + (b.heed c fresh).credit := by
  have hquiet : ∀ {c : InletCue}, c.chunk? = none → b.acceptedBy c = [] := by
    intro c hchunk
    simp [acceptedBy, hchunk]
  cases c with
  | next chunk => exact next_balances chunk b
  | subscribe peer =>
      rw [hquiet rfl]
      simp only [echo, heed, subscribed]
      cases hslot : b.slot with
      | vacant =>
          simp only [Paced, hslot] at h
          simp [h.1]
      | installed first => simp
      | closed => simp
  | error cause =>
      rw [hquiet rfl]
      simp [echo, heed, error, resolveMetadata]
  | complete =>
      rw [hquiet rfl]
      simp [echo, heed, complete, resolveMetadata]
  | aside e =>
      rw [hquiet rfl]
      cases e with
      | failure cause => simp [echo, heed, failure, resolveMetadata]
      | publish value => simp [echo, heed, publish, resolveMetadata]
      | close =>
          simp only [echo, heed, close]
          split
          · simp
          · split <;> simp
          · simp
      | interrupt => simp [echo, heed]

/-- What a reading call asks for is what the credit has grown by. -/
theorem read_balances (h : b.Orderly) {n : Nat} {interrupted : Bool}
    {a : Answer ι (Except Failure Octets)} (hread : b.read n interrupted = some a) :
    (Reaction.controls a.reactions).count (.request 1) + b.credit = a.after.credit := by
  have htake : ∀ (held : Except Failure Bool) (b' : Inlet ι),
      (takeUpTo n held b').2.credit = b'.credit := by
    intro held b'
    match held with
    | .ok true => rfl
    | .ok false => rfl
    | .error f => rfl
  rcases Nat.eq_zero_or_pos n with rfl | hn
  · cases hread
    simp
  · rcases hold_of_read hn hread with ⟨held, hhold, rfl⟩
    simp only [Answer.andThen, htake]
    rcases hold_cases h hhold with ⟨-, rfl⟩ | ⟨-, hrefill⟩
    · simp
    · cases hrefill with
      | chunk c rest handle hverdict hqueue hslot => simp [Nat.add_comm]
      | _ => simp

/-- A reading call asks only the subscription that is installed, and for one item. -/
theorem read_control (h : b.Orderly) {n : Nat} {interrupted : Bool} {handle : ι}
    {control : Control} {a : Answer ι (Except Failure Octets)}
    (hread : b.read n interrupted = some a)
    (hreaction : Reaction.control handle control ∈ a.reactions) :
    b.slot = .installed handle ∧ control = .request 1 := by
  rcases Nat.eq_zero_or_pos n with rfl | hn
  · cases hread
    simp at hreaction
  · rcases hold_of_read hn hread with ⟨held, hhold, rfl⟩
    simp only [Answer.andThen] at hreaction
    rcases hold_cases h hhold with ⟨-, rfl⟩ | ⟨-, hrefill⟩
    · simp at hreaction
    · cases hrefill with
      | chunk c rest installed hverdict hqueue hslot =>
          obtain ⟨rfl, rfl⟩ : handle = installed ∧ control = .request 1 := by
            simpa using hreaction
          exact ⟨hslot, rfl⟩
      | _ => simp at hreaction

/-! ## Breaches of the protocol -/

/-- The stream has ended because more was delivered than was asked for. -/
def Exceeded (b : Inlet ι) : Prop :=
  .error (.condition .demandExceeded) ∈ b.ends

/-- A cue delivers what nobody has asked for. -/
def Overruns (c : InletCue) (b : Inlet ι) : Prop :=
  c.chunk?.isSome = true ∧ (∃ handle, b.slot = .installed handle) ∧ b.terminated = false ∧
    b.credit = 0

/-- A failure that the publisher tells of is not a breach, and takes no breach back. -/
theorem failStream_exceeded (h : b.Orderly) {f : Failure}
    (hf : f ≠ .condition .demandExceeded) : (b.failStream f).1.Exceeded ↔ b.Exceeded := by
  unfold failStream
  by_cases hdrained : b.drained = true
  · rw [if_pos hdrained]
  · rw [if_neg hdrained]
    by_cases hend : b.terminated = true
    · rw [if_pos hend]
      split
      · rename_i hlast
        -- The failure takes the place of the completion, which is the only end there is.
        have hunseen : b.drained = false := by simpa using hdrained
        obtain ⟨e, -, hmarks⟩ := h.marks_eq_singleton hend hunseen
        have hqueue := h.queue_eq
        rw [hmarks] at hqueue
        have hfinish : e = .finish := by simpa [hqueue] using hlast
        have hverdict : b.verdict = none := by simpa [hunseen] using h.drained_eq.symm
        simp [Exceeded, ends, hverdict, hfinish, marks, hqueue, Element.verdict,
          List.filter_map, hf]
      · rfl
    · rw [if_neg hend]
      have hends : Inlet.ends { b with queue := b.queue ++ [.failure f], terminated := true } =
          b.ends ++ [.error f] := ends_of_mark (Element.isMark_failure f) rfl rfl
      simp [Exceeded, hends, hf.symm]

/-- A breach is a delivery without credit. -/
theorem next_exceeded (chunk : Octets) (b : Inlet ι) :
    (b.next chunk).1.Exceeded ↔ b.Exceeded ∨ b.Overruns (.next chunk) := by
  unfold next
  split
  · rename_i handle hslot hopen
    by_cases hcredit : b.credit = 0
    · rw [if_pos hcredit]
      have hends : Inlet.ends { b with
          slot := .closed
          queue := b.queue ++ [.failure (.condition .demandExceeded)]
          terminated := true } = b.ends ++ [.error (.condition .demandExceeded)] :=
        ends_of_mark (Element.isMark_failure _) rfl rfl
      refine ⟨fun _ => .inr ⟨rfl, ⟨handle, hslot⟩, hopen, hcredit⟩, fun _ => ?_⟩
      rw [Exceeded, hends]
      exact List.mem_append_right _ (List.mem_singleton_self _)
    · rw [if_neg hcredit]
      have hnever : ¬b.Overruns (.next chunk) := fun hover => hcredit hover.2.2.2
      by_cases hempty : chunk.isEmpty
      · rw [if_pos hempty]
        simp [hnever]
      · rw [if_neg hempty]
        simp [hnever, Exceeded, ends, marks]
  · rename_i hrefused
    have hnever : ¬b.Overruns (.next chunk) := fun hover => by
      obtain ⟨-, ⟨handle, hslot⟩, hopen, -⟩ := hover
      exact hrefused handle hslot hopen
    simp [hnever]

/-- A completion is no breach of the protocol, and hides none. -/
theorem completeStream_exceeded (b : Inlet ι) :
    b.completeStream.1.Exceeded ↔ b.Exceeded := by
  unfold completeStream
  split
  · rfl
  · simp [Exceeded, ends, marks, Element.verdict]

/-- Whatever else is told to an inlet neither breaks the protocol nor takes a breach back. -/
theorem heed_exceeded (h : b.Orderly) (c : InletCue) (fresh : ι) :
    (b.heed c fresh).Exceeded ↔ b.Exceeded ∨ b.Overruns c := by
  have hfails : ∀ (outcome : Cell String) (note : Notice) (cause : Cause),
      ((b.resolveMetadata outcome note).1.failStream (.producer cause)).1.Exceeded ↔
        b.Exceeded := by
    intro outcome note cause
    exact failStream_exceeded (resolveMetadata_orderly h outcome note) (by simp)
  cases c with
  | next chunk => exact next_exceeded chunk b
  | subscribe peer =>
      have hsame : (b.subscribed fresh).1.ends = b.ends := by
        unfold subscribed
        split <;> rfl
      simp [heed, Exceeded, hsame, Overruns, Cue.chunk?]
  | error cause =>
      have hsame := hfails (.failed cause) .failedBeforeMetadata cause
      simpa [heed, error, Overruns, Cue.chunk?] using hsame
  | complete =>
      have hsame : (b.heed .complete fresh).Exceeded ↔ b.Exceeded :=
        completeStream_exceeded (b.resolveMetadata .missing .completedWithoutMetadata).1
      simp [hsame, Overruns, Cue.chunk?]
  | aside e =>
      cases e with
      | failure cause =>
          have hsame := hfails (.failed cause) (.failedBeforeMetadataBy cause) cause
          simpa [heed, failure, Overruns, Cue.chunk?] using hsame
      | publish value =>
          have hsame : (b.publish value).1.Exceeded ↔ b.Exceeded := Iff.rfl
          simp [heed, hsame, Overruns, Cue.chunk?]
      | close =>
          have hsame : b.close.1.ends = b.ends := by
            unfold close
            split <;> rfl
          simp [heed, Exceeded, hsame, Overruns, Cue.chunk?]
      | interrupt => simp [heed, Overruns, Cue.chunk?]

end Inlet

/-! ## What an event can come to -/

namespace InletTraffic

variable {t t' : InletTraffic}

/-- Every handle in use belongs to a publisher, and whoever is called is asked for one item
or cancelled. -/
structure Addressed (t : InletTraffic) : Prop where
  slot : ∀ handle, t.inlet.slot = .installed handle → handle < t.world.peers.length
  tasks : ∀ handle c, Task.reaction (.control handle c) ∈ t.underway →
    handle < t.world.peers.length ∧ (c = .request 1 ∨ c = .cancel)

/-- What the inlet is told when an event happens, if anything. -/
def cue? (t : InletTraffic) : InletEvent → Option InletCue
  | .proceeds place =>
      match t.underway[place]? with
      | some (.cue c) => some c
      | _ => none
  | _ => none

/-- What the inlet is told is what the event tells it. -/
theorem told_step (e : InletEvent) (t : InletTraffic) :
    (t.step e).told = t.told ++ (t.cue? e).toList := by
  cases e with
  | begins c => simp [step, cue?]
  | proceeds place =>
      cases htask : t.underway[place]? with
      | none => simp [step, cue?, htask]
      | some task => cases task <;> simp [step, cue?, htask, carry]
  | reads call =>
      rcases read_cases call t with ⟨-, hkept⟩ | ⟨a, -, hafter⟩
      · simp [step, cue?, hkept]
      · simp [step, cue?, hafter, change]
  | readerLeaves => simp [step, cue?, change]

/-- All that an event can come to. -/
inductive Turn (t : InletTraffic) (e : InletEvent) (t' : InletTraffic) : Prop where
  /-- The inlet stays as it is; a call that was issued may have reached its publisher. -/
  | rests (hinlet : t'.inlet = t.inlet) (htold : t'.told = t.told)
      (haccepted : t'.accepted = t.accepted) (hissued : t'.issued.Perm t.issued)
  /-- The inlet is told something. -/
  | heeds (c : InletCue) (hcue : t.cue? e = some c)
      (hinlet : t'.inlet = t.inlet.heed c t.world.peers.length) (htold : t'.told = t.told ++ [c])
      (haccepted : t'.accepted = t.accepted ++ t.inlet.acceptedBy c)
      (hissued : t'.issued.Perm
        (Reaction.controls (t.inlet.echo c t.world.peers.length) ++ t.issued))
  /-- The reader takes something. -/
  | reads (n : Nat) (a : Inlet.Answer Nat (Except Failure Octets))
      (hread : t.inlet.read n t.world.interrupted = some a) (hinlet : t'.inlet = a.after)
      (htold : t'.told = t.told) (haccepted : t'.accepted = t.accepted)
      (hissued : t'.issued.Perm (Reaction.controls a.reactions ++ t.issued))
  /-- The reader goes away. -/
  | leaves (hinlet : t'.inlet = t.inlet.dropReader.1) (htold : t'.told = t.told)
      (haccepted : t'.accepted = t.accepted)
      (hissued : t'.issued.Perm (Reaction.controls t.inlet.dropReader.2 ++ t.issued))

/-- What is put under way is issued. -/
theorem issued_change (after : Inlet Nat) (out : List (Reaction Nat)) (t : InletTraffic) :
    (t.change after out).issued.Perm (Reaction.controls out ++ t.issued) := by
  simp only [issued, made, pending, change, List.filterMap_append, Task.filterMap_reactions]
  exact List.perm_append_comm_assoc _ _ _

/-- A cue that is carried out adds the controls of its echo to those that were issued. -/
theorem issued_carry_cue (c : InletCue) (t : InletTraffic) :
    (t.carry (.cue c)).issued.Perm
      (Reaction.controls (t.inlet.echo c t.world.peers.length) ++ t.issued) := by
  have hcalls : (t.world.perform c).1.calls = t.world.calls := by
    cases c with
    | aside e => cases e <;> rfl
    | _ => rfl
  simp only [issued, made, pending, carry, Exchange.step, List.filterMap_append,
    Task.filterMap_reactions, hcalls, Exchange.perform_echo]
  exact List.perm_append_comm_assoc _ _ _

/-- A call that is made was issued before. -/
theorem issued_carry_reaction {r : Reaction Nat}
    (hknown : ∀ handle c, r = .control handle c →
      handle < t.world.peers.length ∧ (c = .request 1 ∨ c = .cancel)) :
    (t.carry (.reaction r)).issued.Perm (r.control?.toList ++ t.issued) := by
  cases r with
  | note n => exact List.Perm.refl _
  | interrupt => exact List.Perm.refl _
  | control handle c =>
      obtain ⟨hplace, hmodest⟩ := hknown handle c rfl
      have hkept : c ≠ .release := by rcases hmodest with rfl | rfl <;> simp
      simp only [issued, made, pending, carry, Exchange.step, Exchange.carryOut,
        List.filterMap_append, Task.filterMap_cues, Peer.answerAt_control hkept hplace,
        List.nil_append, List.append_assoc]
      exact List.perm_append_comm_assoc _ _ _

/-- What goes on is taken from what is under way. -/
theorem issued_eraseIdx {place : Nat} {task : Task} (htask : t.underway[place]? = some task) :
    t.issued.Perm
      (task.control?.toList ++ { t with underway := t.underway.eraseIdx place }.issued) := by
  obtain ⟨hplace, rfl⟩ := List.getElem?_eq_some_iff.mp htask
  have htasks : t.underway.Perm (t.underway[place] :: t.underway.eraseIdx place) := by
    conv_lhs => rw [← List.take_append_drop place t.underway, List.drop_eq_getElem_cons hplace]
    rw [List.eraseIdx_eq_take_drop_succ]
    exact List.perm_middle
  have hpending := htasks.filterMap Task.control?
  rw [List.filterMap_cons] at hpending
  cases hcontrol : t.underway[place].control? with
  | none =>
      rw [hcontrol] at hpending
      exact hpending.append_left _
  | some c =>
      rw [hcontrol] at hpending
      exact (hpending.append_left _).trans (List.perm_append_comm_assoc _ [c] _)

/-- Every event is in the list. -/
theorem turn_step (h : t.Addressed) (e : InletEvent) : Turn t e (t.step e) := by
  cases e with
  | begins c => exact .rests rfl rfl rfl (List.Perm.refl _)
  | proceeds place =>
      simp only [step]
      cases htask : t.underway[place]? with
      | none => exact .rests rfl rfl rfl (List.Perm.refl _)
      | some task =>
          have hissued := issued_eraseIdx htask
          cases task with
          | cue c =>
              exact .heeds c (by simp [cue?, htask]) (carry_inlet_cue c _) rfl rfl
                ((issued_carry_cue c _).trans (hissued.symm.append_left _))
          | reaction r =>
              have hmem := List.mem_of_getElem? htask
              refine .rests (carry_inlet_reaction r _) rfl rfl
                ((issued_carry_reaction ?_).trans hissued.symm)
              rintro handle c rfl
              exact h.tasks handle c hmem
  | reads call =>
      rcases read_cases call t with ⟨-, hkept⟩ | ⟨a, hread, hafter⟩
      · rw [step, hkept]
        exact .rests rfl rfl rfl (List.Perm.refl _)
      · rw [step, hafter]
        exact .reads _ a hread rfl rfl rfl (issued_change a.after a.reactions t)
  | readerLeaves => exact .leaves rfl rfl rfl (issued_change _ _ t)

/-! ## The window -/

/-- What holds of the window at any time: its chunk and its credit make up one item, and the
requests that were issued are the deliveries that were accepted and the credit. -/
structure Windowed (t : InletTraffic) : Prop extends Addressed t where
  orderly : t.inlet.Orderly
  paced : t.inlet.Paced
  modest : ∀ c ∈ t.issued, c = .request 1 ∨ c = .cancel
  balanced : t.requests = t.accepted.length + t.inlet.credit
  /-- Nobody delivers anything before the first subscription. -/
  fresh : t.inlet.slot = .vacant → t.accepted = []

theorem start_windowed (interrupted : Bool) : (start interrupted).Windowed := by
  refine ⟨⟨?_, ?_⟩, Inlet.orderly_empty, Inlet.paced_empty, ?_, rfl, fun _ => rfl⟩
  · intro handle hslot
    cases hslot
  · intro handle c htask
    cases htask
  · intro c hissued
    cases hissued

/-- A publisher is added by every subscription, and by nothing else. -/
theorem perform_peers (w : Exchange) (c : InletCue) :
    (w.perform c).1.peers.length = w.peers.length + if c.isSubscribe then 1 else 0 := by
  cases c with
  | subscribe peer => simp [Exchange.perform, Exchange.told, Cue.isSubscribe]
  | aside e => cases e <;> rfl
  | _ => rfl

@[simp]
theorem carryOut_peers (w : Exchange) (r : Reaction Nat) :
    (w.carryOut r).1.peers.length = w.peers.length := by
  cases r with
  | note n => rfl
  | control handle c => exact Peer.answerAt_length c handle w.peers
  | interrupt => rfl

/-- A cue is carried out: what it brings, and whom it calls, has a place. -/
theorem Addressed.carry_cue (h : t.Addressed) (c : InletCue) : (t.carry (.cue c)).Addressed := by
  have hpeers : (t.carry (.cue c)).world.peers.length =
      t.world.peers.length + if c.isSubscribe then 1 else 0 := perform_peers t.world c
  constructor
  · intro handle hslot
    rw [carry_inlet_cue] at hslot
    rw [hpeers]
    rcases Inlet.heed_slot c t.world.peers.length t.inlet with
      hsame | hclosed | ⟨hsubscribe, -, hinstalled⟩
    · rw [hsame] at hslot
      have hplace := h.slot handle hslot
      omega
    · rw [hclosed] at hslot
      cases hslot
    · rw [hinstalled, Slot.installed.injEq] at hslot
      rw [hsubscribe, if_pos rfl]
      omega
  · intro handle control htask
    have hmem : Task.reaction (.control handle control) ∈
        (t.world.perform c).2.map Task.reaction ++ t.underway := htask
    rw [hpeers]
    rcases List.mem_append.mp hmem with hnew | hold
    · obtain ⟨r, hr, hreaction⟩ := List.mem_map.mp hnew
      cases hreaction
      rw [Exchange.perform_echo] at hr
      rcases Inlet.echo_control hr with ⟨⟨rfl, hsubscribe⟩ | hslot, hmodest⟩
      · rw [hsubscribe, if_pos rfl]
        exact ⟨Nat.lt_succ_self _, hmodest⟩
      · have hplace := h.slot handle hslot
        exact ⟨by omega, hmodest⟩
    · obtain ⟨hplace, hmodest⟩ := h.tasks handle control hold
      exact ⟨by omega, hmodest⟩

/-- A reaction that is carried out calls nobody who is not there. -/
theorem Addressed.carry_reaction (h : t.Addressed) (r : Reaction Nat) :
    (t.carry (.reaction r)).Addressed := by
  have hpeers : (t.carry (.reaction r)).world.peers.length = t.world.peers.length :=
    carryOut_peers t.world r
  constructor
  · intro handle hslot
    rw [carry_inlet_reaction] at hslot
    rw [hpeers]
    exact h.slot handle hslot
  · intro handle control htask
    have hmem : Task.reaction (.control handle control) ∈
        (t.world.carryOut r).2.map Task.cue ++ t.underway := htask
    rw [hpeers]
    rcases List.mem_append.mp hmem with hnew | hold
    · obtain ⟨c, -, hcue⟩ := List.mem_map.mp hnew
      cases hcue
    · exact h.tasks handle control hold

/-- The inlet is changed, and calls only whom it has installed. -/
theorem Addressed.change (h : t.Addressed) {after : Inlet Nat} {out : List (Reaction Nat)}
    (hslot : ∀ handle, after.slot = .installed handle → t.inlet.slot = .installed handle)
    (hout : ∀ handle c, Reaction.control handle c ∈ out →
      t.inlet.slot = .installed handle ∧ (c = .request 1 ∨ c = .cancel)) :
    (t.change after out).Addressed := by
  constructor
  · intro handle hinstalled
    exact h.slot handle (hslot handle hinstalled)
  · intro handle c htask
    have hmem : Task.reaction (.control handle c) ∈ out.map Task.reaction ++ t.underway := htask
    rcases List.mem_append.mp hmem with hnew | hold
    · obtain ⟨r, hr, hreaction⟩ := List.mem_map.mp hnew
      cases hreaction
      obtain ⟨hinstalled, hmodest⟩ := hout handle c hr
      exact ⟨h.slot handle hinstalled, hmodest⟩
    · exact h.tasks handle c hold

/-- Whatever happens, nobody is called who is not there, or for anything else. -/
theorem Addressed.step (h : t.Addressed) (horderly : t.inlet.Orderly) (e : InletEvent) :
    (t.step e).Addressed := by
  cases e with
  | begins c =>
      refine ⟨h.slot, fun handle control htask => ?_⟩
      rcases List.mem_cons.mp htask with hcue | hold
      · cases hcue
      · exact h.tasks handle control hold
  | proceeds place =>
      rcases proceeds_cases place t with hkept | ⟨task, hafter⟩
      · rwa [hkept]
      · have hrest : { t with underway := t.underway.eraseIdx place }.Addressed :=
          ⟨h.slot, fun handle c htask => h.tasks handle c (List.mem_of_mem_eraseIdx htask)⟩
        rw [hafter]
        cases task with
        | cue c => exact hrest.carry_cue c
        | reaction r => exact hrest.carry_reaction r
  | reads call =>
      rcases read_cases call t with ⟨-, hkept⟩ | ⟨a, hread, hafter⟩
      · rwa [InletTraffic.step, hkept]
      · rw [InletTraffic.step, hafter]
        have hchanged : (t.change a.after a.reactions).Addressed := by
          refine h.change ?_ ?_
          · intro handle hslot
            rwa [(Inlet.read_ahead horderly hread).slot] at hslot
          · intro handle c hreaction
            obtain ⟨hslot, hone⟩ := Inlet.read_control horderly hread hreaction
            exact ⟨hslot, .inl hone⟩
        exact ⟨hchanged.slot, hchanged.tasks⟩
  | readerLeaves =>
      refine h.change ?_ ?_
      · intro handle hslot
        have hclosed : t.inlet.dropReader.1.slot = .closed := Inlet.close_slot t.inlet
        rw [hclosed] at hslot
        cases hslot
      · intro handle c hreaction
        have hecho : Reaction.control handle c ∈ t.inlet.echo (.aside .close) handle := hreaction
        rcases Inlet.echo_control hecho with ⟨⟨-, hsubscribe⟩ | hslot, hmodest⟩
        · cases hsubscribe
        · exact ⟨hslot, hmodest⟩

/-- A control among those of some reactions comes from one of them. -/
theorem mem_controls {ι : Type} {rs : List (Reaction ι)} {c : Control}
    (hmem : c ∈ Reaction.controls rs) : ∃ handle, Reaction.control handle c ∈ rs := by
  obtain ⟨r, hr, hcontrol⟩ := List.mem_filterMap.mp hmem
  cases r with
  | note n => cases hcontrol
  | interrupt => cases hcontrol
  | control handle c' =>
      cases hcontrol
      exact ⟨handle, hr⟩

/-- Controls that are issued further are requests for one item and cancellations. -/
theorem Windowed.modest_of_perm (h : t.Windowed) (cs : List Control)
    (hissued : t'.issued.Perm (cs ++ t.issued))
    (hcs : ∀ c ∈ cs, c = .request 1 ∨ c = .cancel) :
    ∀ c ∈ t'.issued, c = .request 1 ∨ c = .cancel := by
  intro c hc
  rcases List.mem_append.mp (hissued.mem_iff.mp hc) with hnew | hold
  · exact hcs c hnew
  · exact h.modest c hold

/-- Requests are counted among the controls that were issued, in whatever order. -/
theorem requests_of_perm (cs : List Control) (hissued : t'.issued.Perm (cs ++ t.issued)) :
    t'.requests = cs.count (.request 1) + t.requests := by
  rw [requests, hissued.count_eq, List.count_append, requests]

/-- Every event keeps the window. -/
theorem Windowed.step (h : t.Windowed) (e : InletEvent) : (t.step e).Windowed := by
  have haddressed := h.toAddressed.step h.orderly e
  have hbalanced := h.balanced
  cases turn_step h.toAddressed e with
  | rests hinlet htold haccepted hissued =>
      refine ⟨haddressed, ?_, ?_, ?_, ?_, ?_⟩
      · rw [hinlet]
        exact h.orderly
      · rw [hinlet]
        exact h.paced
      · exact h.modest_of_perm [] hissued (by simp)
      · rw [requests_of_perm [] hissued, haccepted, hinlet]
        simpa using hbalanced
      · rw [hinlet, haccepted]
        exact h.fresh
  | heeds c hcue hinlet htold haccepted hissued =>
      have hheed := Inlet.heed_balances h.paced c t.world.peers.length
      refine ⟨haddressed, ?_, ?_, ?_, ?_, ?_⟩
      · rw [hinlet]
        exact Inlet.heed_orderly h.orderly c _
      · rw [hinlet]
        exact Inlet.heed_paced h.paced c _
      · refine h.modest_of_perm _ hissued fun control hcontrol => ?_
        obtain ⟨handle, hecho⟩ := mem_controls hcontrol
        exact (Inlet.echo_control hecho).2
      · rw [requests_of_perm _ hissued, haccepted, hinlet, List.length_append]
        omega
      · intro hvacant
        rw [hinlet] at hvacant
        have hbefore : t.inlet.slot = .vacant := by
          rcases Inlet.heed_slot c t.world.peers.length t.inlet with
            hsame | hclosed | ⟨-, hslot, -⟩
          · rwa [hsame] at hvacant
          · rw [hclosed] at hvacant
            cases hvacant
          · exact hslot
        rw [haccepted, h.fresh hbefore]
        simp [Inlet.acceptedBy, Inlet.accepts, hbefore]
  | reads n a hread hinlet htold haccepted hissued =>
      have hgrown := Inlet.read_balances h.orderly hread
      refine ⟨haddressed, ?_, ?_, ?_, ?_, ?_⟩
      · rw [hinlet]
        exact Inlet.read_orderly h.orderly hread
      · rw [hinlet]
        exact Inlet.read_paced h.orderly h.paced hread
      · refine h.modest_of_perm _ hissued fun control hcontrol => ?_
        obtain ⟨handle, hreaction⟩ := mem_controls hcontrol
        exact .inl (Inlet.read_control h.orderly hread hreaction).2
      · rw [requests_of_perm _ hissued, haccepted, hinlet]
        omega
      · rw [hinlet, haccepted, (Inlet.read_ahead h.orderly hread).slot]
        exact h.fresh
  | leaves hinlet htold haccepted hissued =>
      have hclose := Inlet.heed_balances h.paced (.aside .close) 0
      have hcredit : t.inlet.dropReader.1.credit = (t.inlet.heed (.aside .close) 0).credit := rfl
      have hecho : t.inlet.dropReader.2 = t.inlet.echo (.aside .close) 0 := rfl
      refine ⟨haddressed, ?_, ?_, ?_, ?_, ?_⟩
      · rw [hinlet]
        exact Inlet.dropReader_orderly h.orderly
      · rw [hinlet]
        exact Inlet.dropReader_paced h.paced
      · refine h.modest_of_perm _ hissued fun control hcontrol => ?_
        obtain ⟨handle, hreaction⟩ := mem_controls hcontrol
        rw [hecho] at hreaction
        exact (Inlet.echo_control hreaction).2
      · rw [requests_of_perm _ hissued, haccepted, hinlet, hcredit, hecho]
        have hnone : (t.inlet.acceptedBy (.aside .close)).length = 0 := by
          simp [Inlet.acceptedBy, Cue.chunk?]
        omega
      · intro hvacant
        rw [hinlet] at hvacant
        have hclosed : t.inlet.dropReader.1.slot = .closed := Inlet.close_slot t.inlet
        rw [hclosed] at hvacant
        cases hvacant

/-- What holds of the window holds in every run. -/
theorem run_windowed (interrupted : Bool) (events : List InletEvent) :
    ((start interrupted).run events).Windowed :=
  run_keeps (fun e h => h.step e) (start_windowed interrupted) events

/-! ## After a breach -/

/-- Nothing is wanted any more: since `before` nothing was accepted, and only subscriptions
that came too late were called. -/
structure Shut (before t : InletTraffic) : Prop extends Windowed t where
  closed : t.inlet.slot = .closed
  refused : t.accepted = before.accepted
  late : ∃ k, t.arrivals = before.arrivals + k ∧
    t.issued.Perm (List.replicate k .cancel ++ before.issued)

/-- A closed inlet is shut from the moment of its closing. -/
theorem Windowed.shut (h : t.Windowed) (hclosed : t.inlet.slot = .closed) : Shut t t :=
  ⟨h, hclosed, rfl, 0, rfl, List.Perm.refl _⟩

/-- Whatever happens leaves a closed inlet shut. -/
theorem Shut.step {before : InletTraffic} (h : Shut before t) (e : InletEvent) :
    Shut before (t.step e) := by
  have hwindowed := h.toWindowed.step e
  obtain ⟨k, harrivals, hlate⟩ := h.late
  cases turn_step h.toAddressed e with
  | rests hinlet htold haccepted hissued =>
      refine ⟨hwindowed, hinlet ▸ h.closed, haccepted.trans h.refused, k, ?_,
        hissued.trans hlate⟩
      rw [arrivals, htold]
      exact harrivals
  | heeds c hcue hinlet htold haccepted hissued =>
      rw [Inlet.echo_of_closed h.closed] at hissued
      refine ⟨hwindowed, ?_, ?_, k + (if c.isSubscribe then 1 else 0), ?_, ?_⟩
      · rw [hinlet]
        rcases Inlet.heed_slot c t.world.peers.length t.inlet with
          hsame | hclosed | ⟨-, hslot, -⟩
        · exact hsame.trans h.closed
        · exact hclosed
        · rw [h.closed] at hslot
          cases hslot
      · rw [haccepted, h.refused]
        simp [Inlet.acceptedBy, Inlet.accepts, h.closed]
      · rw [arrivals] at harrivals
        rw [arrivals, htold, List.countP_append, harrivals, List.countP_singleton]
        omega
      · by_cases hsubscribe : c.isSubscribe = true
        · rw [if_pos hsubscribe] at hissued ⊢
          exact hissued.trans (hlate.cons _)
        · rw [if_neg hsubscribe] at hissued ⊢
          exact hissued.trans hlate
  | reads n a hread hinlet htold haccepted hissued =>
      have hnobody : Reaction.controls a.reactions = [] := by
        refine List.eq_nil_iff_forall_not_mem.mpr fun c hc => ?_
        obtain ⟨handle, hreaction⟩ := mem_controls hc
        have hslot := (Inlet.read_control h.orderly hread hreaction).1
        rw [h.closed] at hslot
        cases hslot
      rw [hnobody] at hissued
      refine ⟨hwindowed, ?_, haccepted.trans h.refused, k, ?_, hissued.trans hlate⟩
      · rw [hinlet, (Inlet.read_ahead h.orderly hread).slot]
        exact h.closed
      · rw [arrivals, htold]
        exact harrivals
  | leaves hinlet htold haccepted hissued =>
      have hnobody : Reaction.controls t.inlet.dropReader.2 = [] :=
        Inlet.echo_of_closed h.closed (.aside .close) 0
      rw [hnobody] at hissued
      refine ⟨hwindowed, ?_, haccepted.trans h.refused, k, ?_, hissued.trans hlate⟩
      · rw [hinlet]
        exact Inlet.close_slot t.inlet
      · rw [arrivals, htold]
        exact harrivals

/-- Whatever happens after the inlet was closed, nothing is accepted, and only subscriptions
that come too late are called. -/
theorem Windowed.run_shut (h : t.Windowed) (hclosed : t.inlet.slot = .closed)
    (events : List InletEvent) : Shut t (t.run events) :=
  run_keeps (fun e hshut => hshut.step e) (h.shut hclosed) events

/-! ## Publishers that respect demand -/

/-- Whether an event hands a chunk to the inlet. -/
def delivers (t : InletTraffic) (e : InletEvent) : Bool :=
  (t.cue? e).any fun c => c.chunk?.isSome

/-- Nobody delivers more than the requests that have reached the publishers. -/
def Respected : List InletEvent → InletTraffic → Prop
  | [], _ => True
  | e :: events, t =>
      (t.delivers e = true → t.deliveries < t.made.count (.request 1)) ∧
        Respected events (t.step e)

instance Respected.decidable : (events : List InletEvent) → (t : InletTraffic) →
    Decidable (Respected events t)
  | [], _ => .isTrue trivial
  | e :: events, t =>
      have := Respected.decidable events (t.step e)
      inferInstanceAs (Decidable ((_ → _) ∧ _))

/-- The protocol was never broken, and until the stream ends or is closed every delivery was
accepted. -/
structure Heeded (t : InletTraffic) : Prop extends Windowed t where
  unbroken : ¬t.inlet.Exceeded
  counted : t.inlet.terminated = false → t.inlet.slot ≠ .closed →
    t.deliveries = t.accepted.length

/-- Before anything has happened the protocol is kept. -/
theorem start_heeded (interrupted : Bool) : (start interrupted).Heeded := by
  refine ⟨start_windowed interrupted, ?_, fun _ _ => rfl⟩
  intro hexceeded
  cases hexceeded

/-- No more requests have reached the publishers than the inlet has issued. -/
theorem made_le_requests (t : InletTraffic) : t.made.count (.request 1) ≤ t.requests := by
  rw [requests, issued, List.count_append]
  exact Nat.le_add_right _ _

/-- While the stream goes on, a delivery that was asked for is accepted. -/
theorem Heeded.accepts (h : t.Heeded) (hopen : t.inlet.terminated = false)
    (hwanted : t.inlet.slot ≠ .closed) (hdemand : t.deliveries < t.made.count (.request 1)) :
    t.inlet.accepts = true := by
  have hcounted := h.counted hopen hwanted
  have hbalanced := h.balanced
  have hmade := made_le_requests t
  have hcredit : t.inlet.credit ≠ 0 := by omega
  cases hslot : t.inlet.slot with
  | vacant =>
      have hnone := h.paced
      simp only [Inlet.Paced, hslot] at hnone
      exact absurd hnone.1 hcredit
  | installed handle => exact (Inlet.accepts_iff _).mpr ⟨⟨handle, hslot⟩, hopen, hcredit⟩
  | closed => exact absurd hslot hwanted

/-- A delivery that was asked for by a request that has reached its publisher is within the
window, so the protocol is kept. -/
theorem Heeded.step (h : t.Heeded) {e : InletEvent}
    (hrespect : t.delivers e = true → t.deliveries < t.made.count (.request 1)) :
    (t.step e).Heeded := by
  have hwindowed := h.toWindowed.step e
  cases turn_step h.toAddressed e with
  | rests hinlet htold haccepted hissued =>
      refine ⟨hwindowed, hinlet ▸ h.unbroken, ?_⟩
      rw [hinlet, haccepted, deliveries, htold]
      exact h.counted
  | heeds c hcue hinlet htold haccepted hissued =>
      have hdemand : c.chunk?.isSome = true → t.deliveries < t.made.count (.request 1) :=
        fun hchunk => hrespect (by simp [delivers, hcue, hchunk])
      refine ⟨hwindowed, ?_, ?_⟩
      · rw [hinlet, Inlet.heed_exceeded h.orderly]
        rintro (hbefore | ⟨hchunk, ⟨handle, hslot⟩, hopen, hcredit⟩)
        · exact h.unbroken hbefore
        · have haccepts := h.accepts hopen (by simp [hslot]) (hdemand hchunk)
          exact ((Inlet.accepts_iff _).mp haccepts).2.2 hcredit
      · intro hopen hwanted
        rw [hinlet] at hopen hwanted
        have hopen' : t.inlet.terminated = false := by
          by_contra hend
          rw [Inlet.heed_terminated h.orderly (by simpa using hend)] at hopen
          cases hopen
        have hwanted' : t.inlet.slot ≠ .closed := by
          intro hclosed
          rcases Inlet.heed_slot c t.world.peers.length t.inlet with
            hsame | hshut | ⟨-, hslot, -⟩
          · exact hwanted (hsame.trans hclosed)
          · exact hwanted hshut
          · rw [hclosed] at hslot
            cases hslot
        have hcounted := h.counted hopen' hwanted'
        rw [deliveries] at hcounted
        rw [deliveries, htold, haccepted, List.countP_append, hcounted, List.length_append,
          List.countP_singleton]
        cases hchunk : c.chunk? with
        | none => simp [Inlet.acceptedBy, hchunk]
        | some chunk =>
            have haccepts := h.accepts hopen' hwanted' (hdemand (by simp [hchunk]))
            simp [Inlet.acceptedBy, hchunk, haccepts]
  | reads n a hread hinlet htold haccepted hissued =>
      have hahead := Inlet.read_ahead h.orderly hread
      have hends := Inlet.read_ends h.orderly hread
      refine ⟨hwindowed, ?_, ?_⟩
      · rw [hinlet, Inlet.Exceeded, hends]
        exact h.unbroken
      · rw [hinlet, hahead.terminated, hahead.slot, haccepted, deliveries, htold]
        exact h.counted
  | leaves hinlet htold haccepted hissued =>
      refine ⟨hwindowed, ?_, ?_⟩
      · have hclose := Inlet.heed_exceeded h.orderly (.aside .close) 0
        have hsame : t.inlet.dropReader.1.Exceeded ↔
            (t.inlet.heed (.aside .close) 0).Exceeded := Iff.rfl
        rw [hinlet, hsame, hclose]
        rintro (hbefore | ⟨hchunk, -⟩)
        · exact h.unbroken hbefore
        · cases hchunk
      · intro _ hwanted
        rw [hinlet] at hwanted
        exact absurd (Inlet.close_slot t.inlet) hwanted

/-- Who delivers only what was asked for commits no breach. -/
theorem run_respected {events : List InletEvent} (h : t.Heeded) (hrespect : Respected events t) :
    (t.run events).Heeded := by
  induction events generalizing t with
  | nil => exact h
  | cons e events ih => exact ih (h.step hrespect.1) hrespect.2

/-! ## A delivery at an open inlet -/

/-- A chunk is handed to the inlet, and nothing comes in between. -/
def handOver (chunk : Octets) : List InletEvent :=
  [.begins (.next chunk), .proceeds 0]

theorem run_handOver (chunk : Octets) (t : InletTraffic) :
    t.run (handOver chunk) = t.carry (.cue (.next chunk)) := rfl

/-- A delivery is a breach exactly when everything that was asked for has been accepted. -/
theorem Windowed.exceeds_iff (h : t.Windowed) {handle : Nat}
    (hslot : t.inlet.slot = .installed handle) (hopen : t.inlet.terminated = false)
    (chunk : Octets) :
    (t.run (handOver chunk)).inlet.Exceeded ↔ t.accepted.length = t.requests := by
  have hbalanced := h.balanced
  have hnever : ¬t.inlet.Exceeded := by
    simp [Inlet.Exceeded, h.orderly.ends_eq_nil hopen]
  have hover : t.inlet.Overruns (.next chunk) ↔ t.inlet.credit = 0 :=
    ⟨fun hbreach => hbreach.2.2.2, fun hcredit => ⟨rfl, ⟨handle, hslot⟩, hopen, hcredit⟩⟩
  rw [run_handOver, carry_inlet_cue, Inlet.heed_exceeded h.orderly, or_iff_right hnever,
    hover]
  omega

/-- Any other delivery is accepted. -/
theorem Windowed.accepted_of_ne (h : t.Windowed) {handle : Nat}
    (hslot : t.inlet.slot = .installed handle) (hopen : t.inlet.terminated = false)
    (hmore : t.accepted.length ≠ t.requests) (chunk : Octets) :
    (t.run (handOver chunk)).accepted = t.accepted ++ [chunk] := by
  have hbalanced := h.balanced
  have haccepts : t.inlet.accepts = true :=
    (Inlet.accepts_iff _).mpr ⟨⟨handle, hslot⟩, hopen, by omega⟩
  change t.accepted ++ t.inlet.acceptedBy (.next chunk) = t.accepted ++ [chunk]
  rw [Inlet.acceptedBy, if_pos haccepts]
  rfl

/-- A breach ends the stream behind what waits, and cancels the subscription once. -/
theorem Windowed.breach (h : t.Windowed) {handle : Nat}
    (hslot : t.inlet.slot = .installed handle) (hopen : t.inlet.terminated = false)
    (hnone : t.accepted.length = t.requests) (chunk : Octets) :
    (t.run (handOver chunk)).inlet =
        { t.inlet with
          slot := .closed
          queue := t.inlet.queue ++ [.failure (.condition .demandExceeded)]
          terminated := true } ∧
      (t.run (handOver chunk)).underway =
        [.reaction (.note (.demandExceeded chunk.length)), .reaction (.control handle .cancel)] ++
          t.underway := by
  have hbalanced := h.balanced
  have hcredit : t.inlet.credit = 0 := by omega
  have hnext : t.inlet.next chunk =
      ({ t.inlet with
          slot := .closed
          queue := t.inlet.queue ++ [.failure (.condition .demandExceeded)]
          terminated := true },
        [.note (.demandExceeded chunk.length), .control handle .cancel]) := by
    simp [Inlet.next, hslot, hopen, hcredit]
  constructor
  · rw [run_handOver, carry_inlet_cue, Inlet.heed, hnext]
  · change (t.inlet.next chunk).2.map Task.reaction ++ t.underway = _
    rw [hnext]
    rfl

/-! ## The window, whatever happens -/

/-- Whatever happens and in whatever order: the chunk that waits and the credit make up one
item while a subscription is installed; behind the chunk stands the mark of an end exactly
while the end has not been seen; and the requests, each for one item, are the accepted
deliveries and the credit.  So while the stream goes on a delivery is a breach of the protocol
exactly when all that was asked for has been accepted.  A breach closes the inlet, puts the
error behind what waits and cancels the subscription; after it nothing is accepted, and only
subscriptions that come too late are called.  A publisher that never delivers more than has
been asked of it commits no breach, and its first delivery beyond what was asked for is one. -/
theorem run_keeps_window (interrupted : Bool) (events : List InletEvent) :
    let t := (start interrupted).run events
    ((match t.inlet.slot with
        | .vacant => t.inlet.chunks.length + t.inlet.credit = 0
        | .installed _ => t.inlet.chunks.length + t.inlet.credit = 1
        | .closed => t.inlet.chunks.length + t.inlet.credit ≤ 1) ∧
      t.inlet.queue = t.inlet.chunks.map .data ++ t.inlet.marks ∧
      t.inlet.marks.length = (if t.inlet.terminated && !t.inlet.drained then 1 else 0) ∧
      t.inlet.queue.length ≤ 2 ∧ t.inlet.credit ≤ 1) ∧
    ((∀ c ∈ t.issued, c = .request 1 ∨ c = .cancel) ∧
      t.requests = t.accepted.length + t.inlet.credit) ∧
    (∀ handle, t.inlet.slot = .installed handle → t.inlet.terminated = false → ∀ chunk,
      let after := t.run (handOver chunk)
      (after.inlet.Exceeded ↔ t.accepted.length = t.requests) ∧
      (t.accepted.length ≠ t.requests → after.accepted = t.accepted ++ [chunk]) ∧
      (t.accepted.length = t.requests →
        after.inlet =
            { t.inlet with
              slot := .closed
              queue := t.inlet.queue ++ [.failure (.condition .demandExceeded)]
              terminated := true } ∧
          after.underway =
            [.reaction (.note (.demandExceeded chunk.length)),
              .reaction (.control handle .cancel)] ++ t.underway ∧
          ∀ later, (after.run later).accepted = after.accepted ∧
            ∃ k, (after.run later).arrivals = after.arrivals + k ∧
              (after.run later).issued.Perm (List.replicate k .cancel ++ after.issued))) ∧
    (Respected events (start interrupted) →
      ¬t.inlet.Exceeded ∧
        ∀ handle, t.inlet.slot = .installed handle → t.inlet.terminated = false → ∀ chunk,
          (t.run (handOver chunk)).inlet.Exceeded ↔ t.deliveries = t.requests) := by
  intro t
  have h : t.Windowed := run_windowed interrupted events
  have hpaced := h.paced
  have hle := hpaced.le_one
  have hmarks : t.inlet.marks.length ≤ 1 := by
    rw [h.orderly.marks_length]
    split <;> omega
  refine ⟨⟨?_, h.orderly.queue_eq, h.orderly.marks_length, ?_, by omega⟩,
    ⟨h.modest, h.balanced⟩, ?_, ?_⟩
  · unfold Inlet.Paced at hpaced
    cases hslot : t.inlet.slot with
    | vacant =>
        rw [hslot] at hpaced
        simp [hpaced.1, hpaced.2]
    | installed handle =>
        rw [hslot] at hpaced
        exact (Nat.add_comm _ _).trans hpaced
    | closed => exact (Nat.add_comm _ _).le.trans hle
  · rw [h.orderly.queue_eq, List.length_append, List.length_map]
    omega
  · intro handle hslot hopen chunk
    refine ⟨h.exceeds_iff hslot hopen chunk, fun hmore => h.accepted_of_ne hslot hopen hmore chunk,
      fun hnone => ?_⟩
    obtain ⟨hinlet, hunderway⟩ := h.breach hslot hopen hnone chunk
    refine ⟨hinlet, hunderway, fun later => ?_⟩
    have hafter : (t.run (handOver chunk)).Windowed :=
      run_keeps (fun e hw => hw.step e) h (handOver chunk)
    have hshut := hafter.run_shut (by rw [hinlet]) later
    exact ⟨hshut.refused, hshut.late⟩
  · intro hrespect
    have hheeded : t.Heeded := run_respected (start_heeded interrupted) hrespect
    refine ⟨hheeded.unbroken, fun handle hslot hopen chunk => ?_⟩
    rw [h.exceeds_iff hslot hopen chunk, hheeded.counted hopen (by simp [hslot])]

/-- A publisher delivers a chunk and an empty one from inside the calls that ask it to, and
then, while the next request is on its way, one chunk more than was asked for; a second
subscription comes too late. -/
theorem nested_run_keeps_window :
    let publisher : Peer InletCue :=
      { name := "publisher", onRequest := [[.next [1, 2]], [.next []]] }
    let events : List InletEvent :=
      .begins (.subscribe publisher) :: List.replicate 5 (.proceeds 0) ++ [.reads (.upTo 2)] ++
        List.replicate 4 (.proceeds 0) ++ [.begins (.next [3]), .proceeds 0]
    let t := (start false).run events
    let after := t.run (handOver [4])
    t.requests = 3 ∧ t.accepted = [[1, 2], [], [3]] ∧ t.made.count (.request 1) = 2 ∧
      after.inlet.Exceeded ∧
      (after.run (.reads .byte :: .begins (.subscribe publisher) :: handOver [5])).accepted =
        [[1, 2], [], [3]] ∧
      Respected (events.take 10) (start false) ∧
      ¬((start false).run (events.take 10)).inlet.Exceeded := by
  intro publisher events t after
  have hslot : t.inlet.slot = .installed 0 := by decide +kernel
  have hopen : t.inlet.terminated = false := by decide +kernel
  have hnone : t.accepted.length = t.requests := by decide +kernel
  have haccepted : after.accepted = [[1, 2], [], [3]] := by decide +kernel
  have hrespect : Respected (events.take 10) (start false) := by decide +kernel
  have hdelivery := (run_keeps_window false events).2.2.1 0 hslot hopen [4]
  have hlater := (hdelivery.2.2 hnone).2.2
    (.reads .byte :: .begins (.subscribe publisher) :: handOver [5])
  refine ⟨by decide +kernel, by decide +kernel, by decide +kernel, hdelivery.1.mpr hnone,
    hlater.1.trans haccepted, hrespect, ?_⟩
  exact ((run_keeps_window false (events.take 10)).2.2.2 hrespect).1

end InletTraffic
end CreditFlow
