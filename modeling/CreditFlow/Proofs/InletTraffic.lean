import CreditFlow.Proofs.InletContents
import CreditFlow.Rehearsal.Exchange
import Mathlib.Data.List.TakeWhile

/-!
# An inlet under traffic

Several threads use an inlet at once: publishers signal, someone reports a failure,
someone closes, and one thread reads.  What such a thread does to the inlet is one step
that nothing can interrupt; the calls on a subscription that follow from it are made
afterwards, and a publisher may answer from inside them.  *Traffic* is an exchange
together with everything that is still under way in it.  At any time somebody may set
about something new, any of the things under way may go on, and the reader may make a
call, so every order in which threads can meet, and every way in which calls can nest, is
the order of some list of events.

Main results:

- {lit}`InletTraffic.run_sound`: the bytes that were returned and those that can still be
  taken are the accepted chunks, and a completion is behind every end of the stream.
- {lit}`InletTraffic.run_ended`: an end that was reported is reported for good.
- {lit}`InletTraffic.settle_eq_run`: what settling an agenda comes to is one of the runs.
-/

namespace CreditFlow

/-! ## What was told to an inlet -/

namespace Cue

variable {ε : Type}

/-- Whether a cue is a subscription. -/
def isSubscribe : Cue ε → Bool
  | .subscribe _ => true
  | _ => false

/-- Whether a cue is a completion. -/
def isComplete : Cue ε → Bool
  | .complete => true
  | _ => false

/-- Whether a cue closes an inlet. -/
def isClose : InletCue → Bool
  | .aside .close => true
  | _ => false

/-- The chunk that a cue delivers, if it does. -/
def chunk? : Cue ε → Option Octets
  | .next chunk => some chunk
  | _ => none

/-- The chunks that were delivered between the first subscription and the first
completion. -/
def delivered (told : List (Cue ε)) : List Octets :=
  ((told.takeWhile fun c => !c.isComplete).dropWhile fun c => !c.isSubscribe).filterMap chunk?

/-- After the first completion nothing is counted any more. -/
theorem delivered_append_of_complete {told : List (Cue ε)}
    (hcomplete : told.any isComplete = true) (c : Cue ε) :
    delivered (told ++ [c]) = delivered told := by
  rcases List.any_eq_true.mp hcomplete with ⟨d, hd, hdc⟩
  have htake : (told ++ [c]).takeWhile (fun c => !c.isComplete) =
      told.takeWhile fun c => !c.isComplete := by
    rw [List.takeWhile_append, if_neg]
    intro hall
    have hlength : (told.takeWhile fun c => !c.isComplete) = told :=
      (List.takeWhile_prefix _).eq_of_length hall
    have hnot := List.mem_takeWhile_imp (hlength.symm ▸ hd)
    simp [hdc] at hnot
  rw [delivered, htake, ← delivered]

/-- Before it, a chunk is counted if someone has subscribed. -/
theorem delivered_append_of_open {told : List (Cue ε)}
    (hopen : told.any isComplete = false) (c : Cue ε) :
    delivered (told ++ [c]) =
      delivered told ++ (if told.any isSubscribe then c.chunk?.toList else []) := by
  have hall : ∀ d ∈ told, (!d.isComplete) = true := by
    intro d hd
    simpa using List.any_eq_false.mp hopen d hd
  have htold : (told.takeWhile fun c => !c.isComplete) = told :=
    List.takeWhile_eq_self_iff.mpr hall
  have htake : (told ++ [c]).takeWhile (fun c => !c.isComplete) =
      told ++ [c].takeWhile fun c => !c.isComplete := by
    rw [List.takeWhile_append, if_pos (by rw [htold])]
  rw [delivered, delivered, htake, htold, List.dropWhile_append]
  by_cases hsubscribed : told.any isSubscribe = true
  · have hne : (told.dropWhile fun c => !c.isSubscribe).isEmpty = false := by
      by_contra hempty
      have hnone : ∀ d ∈ told, d.isSubscribe = false := by simpa using hempty
      rcases List.any_eq_true.mp hsubscribed with ⟨d, hd, hds⟩
      simp [hnone d hd] at hds
    rw [hne, if_neg Bool.false_ne_true, if_pos hsubscribed, List.filterMap_append]
    cases c <;> rfl
  · have hnil : (told.dropWhile fun c => !c.isSubscribe) = [] := by
      refine List.dropWhile_eq_nil_iff.mpr fun d hd => ?_
      simpa using List.any_eq_false.mp (by simpa using hsubscribed) d hd
    rw [hnil, if_neg hsubscribed]
    cases c <;> rfl

/-- What is told without a chunk delivers nothing. -/
theorem delivered_append_of_none {told : List (Cue ε)} {c : Cue ε} (hchunk : c.chunk? = none) :
    delivered (told ++ [c]) = delivered told := by
  by_cases hcomplete : told.any isComplete = true
  · exact delivered_append_of_complete hcomplete c
  · rw [delivered_append_of_open (by simpa using hcomplete), hchunk]
    split <;> simp

end Cue

/-! ## Events -/

/-- One thing that happens at an inlet under traffic. -/
inductive InletEvent where
  /-- Someone sets about something. -/
  | begins (c : InletCue)
  /-- One of the things under way goes on. -/
  | proceeds (place : Nat)
  /-- The reader makes a call, unless the call would have to wait. -/
  | reads (call : ReadCall)
  /-- The reader goes away. -/
  | readerLeaves

/-- An exchange, what is under way in it, and what has come of it. -/
structure InletTraffic where
  world : Exchange := {}
  /-- What is left to do in the calls that are under way. -/
  underway : List Task := []
  /-- What was done to the inlet by others than its reader, in order. -/
  told : List InletCue := []
  /-- The chunks that were accepted, in order. -/
  accepted : List Octets := []
  /-- The bytes that the reader's calls have returned, in order. -/
  returned : Octets := []

/-- The chunks that an inlet accepts by a cue. -/
def Inlet.acceptedBy {ι : Type} (c : InletCue) (b : Inlet ι) : List Octets :=
  if b.accepts then c.chunk?.toList else []

namespace InletTraffic

/-- Nothing has happened yet. -/
def start (interrupted : Bool) : InletTraffic :=
  { world := { interrupted := interrupted } }

/-- The inlet itself. -/
def inlet (t : InletTraffic) : Inlet Nat := t.world.inlet

/-- Carry out a task; what follows from it is under way afterwards. -/
def carry (task : Task) (t : InletTraffic) : InletTraffic :=
  let changed :=
    { t with
      world := (t.world.step task).1
      underway := (t.world.step task).2 ++ t.underway }
  match task with
  | .cue c =>
      { changed with told := t.told ++ [c], accepted := t.accepted ++ t.inlet.acceptedBy c }
  | .reaction _ => changed

/-- Put a changed inlet in place; the reactions that came with it are under way
afterwards. -/
def change (after : Inlet Nat) (out : List (Reaction Nat)) (t : InletTraffic) : InletTraffic :=
  { t with
    world := { t.world with inlet := after }
    underway := out.map .reaction ++ t.underway }

/-- The reader makes a call.  A call that would have to wait does nothing yet. -/
def read (call : ReadCall) (t : InletTraffic) : InletTraffic :=
  match t.inlet.answer call t.world.interrupted with
  | none => t
  | some a => { t.change a.after a.reactions with returned := t.returned ++ Inlet.bytes a.value }

/-- What an event does. -/
def step (t : InletTraffic) : InletEvent → InletTraffic
  | .begins c => { t with underway := .cue c :: t.underway }
  | .proceeds place =>
      match t.underway[place]? with
      | none => t
      | some task => { t with underway := t.underway.eraseIdx place }.carry task
  | .reads call => t.read call
  | .readerLeaves => t.change t.inlet.dropReader.1 t.inlet.dropReader.2

/-- What a list of events comes to. -/
def run (events : List InletEvent) (t : InletTraffic) : InletTraffic :=
  events.foldl step t

/-- Whether a call that is made now reports the end of the stream. -/
def reportsEnd (call : ReadCall) (t : InletTraffic) : Prop :=
  match call with
  | .upTo n => 0 < n ∧ (t.inlet.read n t.world.interrupted).map (·.value) = some (.ok [])
  | .byte => (t.inlet.readByte t.world.interrupted).map (·.value) = some (.ok none)

/-- Every call that is made now reports the end of the stream, changes nothing, and calls
nobody. -/
def AtEnd (t : InletTraffic) : Prop :=
  (∀ n, t.inlet.read n t.world.interrupted = some { value := .ok [], after := t.inlet }) ∧
    t.inlet.readByte t.world.interrupted = some { value := .ok none, after := t.inlet }

/-- Whether someone has closed the inlet. -/
def wasClosed (t : InletTraffic) : Bool :=
  t.told.any Cue.isClose || !t.inlet.readerHeld

@[simp]
theorem run_nil (t : InletTraffic) : t.run [] = t := rfl

theorem run_cons (e : InletEvent) (events : List InletEvent) (t : InletTraffic) :
    t.run (e :: events) = (t.step e).run events := rfl

theorem run_append (first second : List InletEvent) (t : InletTraffic) :
    t.run (first ++ second) = (t.run first).run second :=
  List.foldl_append

/-- What every event keeps is kept by every run. -/
theorem run_keeps {holds : InletTraffic → Prop}
    (hstep : ∀ {t : InletTraffic} (e : InletEvent), holds t → holds (t.step e))
    {t : InletTraffic} (ht : holds t) (events : List InletEvent) : holds (t.run events) := by
  induction events generalizing t with
  | nil => exact ht
  | cons e events ih => exact ih (hstep e ht)

/-! ## The invariant -/

end InletTraffic

/-- A completion is on its way to the reader, or was seen. -/
def Inlet.Completing {ι : Type} (b : Inlet ι) : Prop :=
  .finish ∈ b.queue ∨ b.verdict = some (.ok ())

/-- What has been done so far agrees with where a subscription is kept. -/
def Inlet.SlotAgrees {ι : Type} (told : List InletCue) (b : Inlet ι) : Prop :=
  match b.slot with
  | .vacant => told.any Cue.isSubscribe = false
  | .installed _ => told.any Cue.isSubscribe = true
  | .closed => False

/-- As long as nobody closes, the chunks that were delivered are the accepted ones, until
the stream fails. -/
structure Inlet.Faithful {ι : Type} (told : List InletCue) (accepted : List Octets)
    (b : Inlet ι) : Prop where
  slot : b.terminated = false → b.SlotAgrees told
  incomplete : b.terminated = false → told.any Cue.isComplete = false
  accepted_eq : b.terminated = false ∨ b.Completing → accepted = Cue.delivered told

namespace InletTraffic

/-- What holds of traffic at any time. -/
structure Sound (t : InletTraffic) : Prop where
  orderly : t.inlet.Orderly
  conserved : t.returned ++ t.inlet.unread = t.accepted.flatten
  completed : t.inlet.Completing → t.told.any Cue.isComplete = true
  faithful : t.wasClosed = false → t.inlet.Faithful t.told t.accepted

/-- Nothing has gone wrong at the beginning. -/
theorem start_sound (interrupted : Bool) : (start interrupted).Sound := by
  refine ⟨Inlet.orderly_empty, rfl, ?_, ?_⟩
  · rintro (hfinish | hverdict)
    · simp [start, inlet] at hfinish
    · simp [start, inlet] at hverdict
  · intro _
    exact ⟨fun _ => rfl, fun _ => rfl, fun _ => rfl⟩

end InletTraffic

/-! ## What a cue does -/

namespace Inlet

variable {ι : Type}

/-- What a cue makes of an inlet; `handle` names the subscription that it may bring. -/
def heed (c : InletCue) (handle : ι) (b : Inlet ι) : Inlet ι :=
  match c with
  | .subscribe _ => (b.subscribed handle).1
  | .next chunk => (b.next chunk).1
  | .error cause => (b.error cause).1
  | .complete => b.complete.1
  | .aside (.failure cause) => (b.failure cause).1
  | .aside (.publish value) => (b.publish value).1
  | .aside .close => b.close.1
  | .aside .interrupt => b

end Inlet

/-- A publisher that acts in an exchange changes the inlet as its cue says. -/
theorem Exchange.perform_inlet (w : Exchange) (c : InletCue) :
    (w.perform c).1.inlet = w.inlet.heed c w.peers.length := by
  cases c with
  | aside e => cases e <;> rfl
  | _ => rfl

@[simp]
theorem Exchange.carryOut_inlet (w : Exchange) (r : Reaction Nat) :
    (w.carryOut r).1.inlet = w.inlet := by
  cases r <;> rfl

namespace Inlet

variable {ι : Type} {b : Inlet ι} {told : List InletCue} {accepted : List Octets}

/-- A cue appends the chunks that are accepted by it. -/
theorem heed_unread (c : InletCue) (handle : ι) (b : Inlet ι) :
    (b.heed c handle).unread = b.unread ++ (b.acceptedBy c).flatten := by
  cases c with
  | subscribe peer => simp [heed, acceptedBy, Cue.chunk?]
  | next chunk =>
      rw [heed, next_unread, acceptedBy]
      by_cases haccepts : b.accepts = true
      · simp [haccepts, Cue.chunk?]
      · simp [haccepts]
  | error cause => simp [heed, error, acceptedBy, Cue.chunk?]
  | complete => simp [heed, complete, acceptedBy, Cue.chunk?]
  | aside e =>
      cases e with
      | failure cause => simp [heed, acceptedBy, Cue.chunk?]
      | publish value => simp [heed, publish, acceptedBy, Cue.chunk?]
      | close => simp [heed, acceptedBy, Cue.chunk?]
      | interrupt => simp [heed, acceptedBy, Cue.chunk?]

/-- Whatever cue comes, an inlet stays in order. -/
theorem heed_orderly (h : b.Orderly) (c : InletCue) (handle : ι) :
    (b.heed c handle).Orderly := by
  cases c with
  | subscribe peer => exact subscribed_orderly h handle
  | next chunk => exact next_orderly h chunk
  | error cause => exact signal_orderly h (.error cause)
  | complete => exact signal_orderly h .complete
  | aside e =>
      cases e with
      | failure cause => exact failure_orderly h cause
      | publish value => exact resolveMetadata_orderly h _ _
      | close => exact close_orderly h
      | interrupt => exact h

/-! ## Completions -/

/-- While the stream has not ended, no completion is on its way. -/
theorem Orderly.not_completing (h : b.Orderly) (hopen : b.terminated = false) :
    ¬b.Completing := by
  rintro (hfinish | hverdict)
  · have hmem : Element.finish ∈ b.marks := List.mem_filter.mpr ⟨hfinish, rfl⟩
    rw [h.marks_eq_nil hopen] at hmem
    simp at hmem
  · have hdrained : b.drained = true := by simp [h.drained_eq, hverdict]
    simp [h.drained_terminated hdrained] at hopen

/-- A failure never brings a completion about. -/
theorem completing_of_failStream (h : b.Orderly) {f : Failure}
    (hcompleting : (b.failStream f).1.Completing) : b.Completing := by
  unfold failStream at hcompleting
  by_cases hdrained : b.drained = true
  · rwa [if_pos hdrained] at hcompleting
  · rw [if_neg hdrained] at hcompleting
    have hunseen : b.drained = false := by simpa using hdrained
    have hverdict : b.verdict = none := by simpa [hunseen] using h.drained_eq.symm
    by_cases hend : b.terminated = true
    · rw [if_pos hend] at hcompleting
      split at hcompleting
      · rename_i hlast
        exact .inl (List.mem_of_getLast? hlast)
      · exact hcompleting
    · rw [if_neg hend] at hcompleting
      rcases hcompleting with hfinish | hfinished
      · exact .inl (by simpa using hfinish)
      · simp [hverdict] at hfinished

/-- Nor does one that fails the metadata as well. -/
theorem completing_of_resolved (h : b.Orderly) {outcome : Cell String} {note : Notice}
    {f : Failure} (hcompleting : ((b.resolveMetadata outcome note).1.failStream f).1.Completing) :
    b.Completing := by
  have hresolved := completing_of_failStream (resolveMetadata_orderly h outcome note) hcompleting
  exact hresolved

/-- A stream that has failed is over. -/
theorem failStream_terminated (h : b.Orderly) (f : Failure) :
    (b.failStream f).1.terminated = true := by
  unfold failStream
  by_cases hdrained : b.drained = true
  · rw [if_pos hdrained]
    exact h.drained_terminated hdrained
  · rw [if_neg hdrained]
    by_cases hend : b.terminated = true
    · rw [if_pos hend]
      split <;> exact hend
    · rw [if_neg hend]

/-- A stream that has completed is over. -/
theorem completeStream_terminated (b : Inlet ι) : b.completeStream.1.terminated = true := by
  unfold completeStream
  by_cases hend : b.terminated = true
  · rwa [if_pos hend]
  · rw [if_neg hend]

/-- A completion that is behind an end was there before, or is just being told. -/
theorem completing_of_heed (h : b.Orderly) (c : InletCue) (handle : ι)
    (hcompleting : (b.heed c handle).Completing) : b.Completing ∨ c.isComplete = true := by
  cases c with
  | subscribe peer =>
      refine .inl ?_
      simp only [heed, subscribed] at hcompleting
      split at hcompleting <;> exact hcompleting
  | next chunk =>
      refine .inl ?_
      simp only [heed, next] at hcompleting
      split at hcompleting
      · split at hcompleting
        · rcases hcompleting with hfinish | hfinished
          · exact .inl (by simpa using hfinish)
          · exact .inr hfinished
        · split at hcompleting
          · exact hcompleting
          · rcases hcompleting with hfinish | hfinished
            · exact .inl (by simpa using hfinish)
            · exact .inr hfinished
      · exact hcompleting
  | error cause => exact .inl (completing_of_resolved h hcompleting)
  | complete => exact .inr rfl
  | aside e =>
      cases e with
      | failure cause => exact .inl (completing_of_resolved h hcompleting)
      | publish value => exact .inl hcompleting
      | close =>
          refine .inl ?_
          simp only [heed, close] at hcompleting
          split at hcompleting <;> exact hcompleting
      | interrupt => exact .inl hcompleting

/-! ## Deliveries -/

/-- A cue without a chunk leaves the accepted chunks as they were told. -/
theorem Faithful.heed (hf : b.Faithful told accepted) {c : InletCue} (hchunk : c.chunk? = none)
    {b' : Inlet ι}
    (hopen : b'.terminated = false →
      b.terminated = false ∧ c.isComplete = false ∧ b'.SlotAgrees (told ++ [c]))
    (hends : b'.Completing → b.terminated = false ∨ b.Completing) :
    b'.Faithful (told ++ [c]) accepted := by
  refine ⟨fun hopen' => (hopen hopen').2.2, ?_, ?_⟩
  · intro hopen'
    have hincomplete := hf.incomplete (hopen hopen').1
    simp [hincomplete, (hopen hopen').2.1]
  · intro hcases
    rw [Cue.delivered_append_of_none hchunk]
    rcases hcases with hopen' | hcompleting
    · exact hf.accepted_eq (.inl (hopen hopen').1)
    · exact hf.accepted_eq (hends hcompleting)

/-- A chunk that comes before an end leaves the slot and the end as they were told. -/
theorem Faithful.slot_next (hf : b.Faithful told accepted) (chunk : Octets) {b' : Inlet ι}
    (hsame : b'.slot = b.slot) (hopen : b.terminated = false) :
    b'.SlotAgrees (told ++ [.next chunk]) ∧
      (told ++ [Cue.next chunk]).any Cue.isComplete = false := by
  constructor
  · have hagrees := hf.slot hopen
    unfold SlotAgrees at hagrees ⊢
    rw [hsame]
    simpa [Cue.isSubscribe] using hagrees
  · simpa [Cue.isComplete] using hf.incomplete hopen

/-- A chunk that is accepted was delivered by the subscription that was told of first. -/
theorem Faithful.next_accepted (hf : b.Faithful told accepted) {chunk : Octets}
    (haccepts : b.accepts = true) :
    (b.next chunk).1.Faithful (told ++ [.next chunk]) (accepted ++ b.acceptedBy (.next chunk)) := by
  rcases (accepts_iff b).mp haccepts with ⟨⟨handle, hinstalled⟩, hopen, hcredit⟩
  have hsubscribed : told.any Cue.isSubscribe = true := by
    have hagrees := hf.slot hopen
    simpa [SlotAgrees, hinstalled] using hagrees
  have haccepted : accepted ++ b.acceptedBy (.next chunk) =
      Cue.delivered (told ++ [.next chunk]) := by
    rw [Cue.delivered_append_of_open (hf.incomplete hopen), if_pos hsubscribed,
      acceptedBy, if_pos haccepts, hf.accepted_eq (.inl hopen)]
  have hkept : (b.next chunk).1.slot = b.slot := by
    by_cases hempty : chunk.isEmpty
    · simp [Inlet.next, hcredit, hempty, hinstalled, hopen]
    · simp [Inlet.next, hcredit, hempty, hinstalled, hopen]
  rcases hf.slot_next chunk hkept hopen with ⟨hslot, hincomplete⟩
  exact ⟨fun _ => hslot, fun _ => hincomplete, fun _ => haccepted⟩

/-- A chunk that comes before an end and is not accepted came too early, or without credit. -/
theorem Faithful.next_refused (h : b.Orderly) (hf : b.Faithful told accepted) {chunk : Octets}
    (haccepts : ¬b.accepts = true) (hopen : b.terminated = false) :
    (b.next chunk).1.Faithful (told ++ [.next chunk]) accepted := by
  have hagrees := hf.slot hopen
  cases hs : b.slot with
  | vacant =>
      have hkept : (b.next chunk).1 = b := by simp [Inlet.next, hs]
      rcases hf.slot_next chunk rfl hopen with ⟨hslot, hincomplete⟩
      rw [hkept]
      refine ⟨fun _ => hslot, fun _ => hincomplete, fun _ => ?_⟩
      rw [Cue.delivered_append_of_open (hf.incomplete hopen), if_neg, List.append_nil]
      · exact hf.accepted_eq (.inl hopen)
      · simp only [SlotAgrees, hs] at hagrees
        simp [hagrees]
  | installed handle =>
      -- No credit: the publisher has broken the protocol, and the stream fails.
      have hcredit : b.credit = 0 := by
        by_contra hcredit
        exact haccepts ((accepts_iff b).mpr ⟨⟨handle, hs⟩, hopen, hcredit⟩)
      have hend : (b.next chunk).1.terminated = true := by
        simp [Inlet.next, hs, hopen, hcredit]
      have hnever : ¬(b.next chunk).1.Completing := fun hcompleting =>
        (completing_of_heed h (.next chunk) handle hcompleting).elim
          (h.not_completing hopen) (by simp [Cue.isComplete])
      refine ⟨?_, ?_, ?_⟩
      · simp [hend]
      · simp [hend]
      · rintro (hopen' | hcompleting)
        · simp [hend] at hopen'
        · exact absurd hcompleting hnever
  | closed => simp [SlotAgrees, hs] at hagrees

/-- Whether a chunk is accepted is seen from what was told. -/
theorem Faithful.next (h : b.Orderly) (hf : b.Faithful told accepted)
    (hcompleted : b.Completing → told.any Cue.isComplete = true) (chunk : Octets) :
    (b.next chunk).1.Faithful (told ++ [.next chunk]) (accepted ++ b.acceptedBy (.next chunk)) := by
  by_cases haccepts : b.accepts = true
  · exact hf.next_accepted haccepts
  · have hnone : accepted ++ b.acceptedBy (.next chunk) = accepted := by
      rw [acceptedBy, if_neg haccepts, List.append_nil]
    rw [hnone]
    by_cases hopen : b.terminated = false
    · exact Faithful.next_refused h hf haccepts hopen
    · have hend : b.terminated = true := by simpa using hopen
      have hkept : (b.next chunk).1 = b := by rw [next_of_terminated hend]
      rw [hkept]
      refine ⟨fun hopen' => absurd hopen' hopen, fun hopen' => absurd hopen' hopen, ?_⟩
      rintro (hopen' | hcompleting)
      · exact absurd hopen' hopen
      · rw [Cue.delivered_append_of_complete (hcompleted hcompleting)]
        exact hf.accepted_eq (.inr hcompleting)

/-- As long as nobody closes, a cue leaves the accepted chunks those that were delivered. -/
theorem heed_faithful (h : b.Orderly) (hf : b.Faithful told accepted)
    (hcompleted : b.Completing → told.any Cue.isComplete = true) {c : InletCue}
    (hclose : c.isClose = false) (handle : ι) :
    (b.heed c handle).Faithful (told ++ [c]) (accepted ++ b.acceptedBy c) := by
  have hquiet : ∀ {c : InletCue}, c.chunk? = none → b.acceptedBy c = [] := by
    intro c hchunk
    simp [acceptedBy, hchunk]
  cases c with
  | subscribe peer =>
      rw [hquiet rfl, List.append_nil]
      refine hf.heed rfl (fun hopen => ?_) (fun hcompleting => ?_)
      · have hopen' : b.terminated = false := by
          simp only [heed, subscribed] at hopen
          split at hopen <;> exact hopen
        have hagrees := hf.slot hopen'
        refine ⟨hopen', rfl, ?_⟩
        cases hs : b.slot with
        | vacant => simp [SlotAgrees, heed, subscribed, hs, Cue.isSubscribe]
        | installed first => simp [SlotAgrees, heed, subscribed, hs, Cue.isSubscribe]
        | closed => simp [SlotAgrees, hs] at hagrees
      · exact .inr ((completing_of_heed h (.subscribe peer) handle hcompleting).resolve_right
          (by simp [Cue.isComplete]))
  | next chunk => exact hf.next h hcompleted chunk
  | error cause =>
      rw [hquiet rfl, List.append_nil]
      refine hf.heed rfl (fun hopen => ?_) (fun hcompleting => ?_)
      · simp [heed, error, failStream_terminated (resolveMetadata_orderly h _ _)] at hopen
      · exact .inr ((completing_of_heed h (.error cause) handle hcompleting).resolve_right
          (by simp [Cue.isComplete]))
  | complete =>
      rw [hquiet rfl, List.append_nil]
      refine hf.heed rfl (fun hopen => ?_) (fun hcompleting => ?_)
      · simp [heed, complete, completeStream_terminated] at hopen
      · by_cases hend : b.terminated = true
        · refine .inr ?_
          simpa [heed, complete, completeStream, resolveMetadata, hend, Completing] using
            hcompleting
        · exact .inl (by simpa using hend)
  | aside e =>
      rw [hquiet rfl, List.append_nil]
      have hsame : ∀ b' : Inlet ι, b'.slot = b.slot → b'.terminated = b.terminated →
          (b'.Completing → b.Completing) → ∀ e, b'.Faithful (told ++ [.aside e]) accepted := by
        intro b' hslot hend hcompleting e
        refine hf.heed rfl (fun hopen => ?_) (fun hc => .inr (hcompleting hc))
        rw [hend] at hopen
        have hagrees := hf.slot hopen
        refine ⟨hopen, rfl, ?_⟩
        unfold SlotAgrees at hagrees ⊢
        rw [hslot]
        simpa [Cue.isSubscribe] using hagrees
      cases e with
      | failure cause =>
          refine hf.heed rfl (fun hopen => ?_) (fun hcompleting => ?_)
          · simp [heed, failure, failStream_terminated (resolveMetadata_orderly h _ _)] at hopen
          · exact .inr (completing_of_resolved h hcompleting)
      | publish value => exact hsame (b.publish value).1 rfl rfl id _
      | close => simp [Cue.isClose] at hclose
      | interrupt => exact hsame _ rfl rfl id _

/-! ## What a reading call does -/

/-- The reader of an inlet has moved on in the same stream. -/
structure Ahead (b b' : Inlet ι) : Prop where
  slot : b'.slot = b.slot
  terminated : b'.terminated = b.terminated
  readerHeld : b'.readerHeld = b.readerHeld
  completing : b'.Completing → b.Completing

/-- Taking the next element moves the reader on. -/
theorem Refilling.ahead {interrupted : Bool} {a : Answer ι (Except Failure Bool)}
    (hrefill : Refilling b interrupted a) : b.Ahead a.after := by
  cases hrefill with
  | known v hverdict => exact ⟨rfl, rfl, rfl, id⟩
  | chunk c rest handle hverdict hqueue hslot =>
      refine ⟨rfl, rfl, rfl, ?_⟩
      rintro (hfinish | hfinished)
      · exact .inl (by rw [hqueue]; exact List.mem_cons_of_mem _ hfinish)
      · exact .inr hfinished
  | leftover c rest hverdict hqueue hslot =>
      refine ⟨rfl, rfl, rfl, ?_⟩
      rintro (hfinish | hfinished)
      · exact .inl (by rw [hqueue]; exact List.mem_cons_of_mem _ hfinish)
      · exact .inr hfinished
  | mark e note hverdict hmark hqueue =>
      refine ⟨rfl, rfl, rfl, ?_⟩
      rintro (hfinish | hfinished)
      · simp at hfinish
      · cases e with
        | data chunk => simp at hmark
        | finish => exact .inl (by simp [hqueue])
        | failure f => simp [Element.verdict] at hfinished
  | closed hverdict hqueue hslot => exact ⟨rfl, rfl, rfl, id⟩
  | interrupted hverdict hqueue hfired => exact ⟨rfl, rfl, rfl, id⟩

/-- Taking bytes from the chunk in hand moves the reader on. -/
theorem takeUpTo_ahead {b' : Inlet ι} (h : b.Ahead b') (n : Nat) (held : Except Failure Bool) :
    b.Ahead (takeUpTo n held b').2 := by
  match held with
  | .ok true => exact ⟨h.slot, h.terminated, h.readerHeld, h.completing⟩
  | .ok false => exact h
  | .error f => exact h

/-- A reading call moves on in the same stream. -/
theorem read_ahead (h : b.Orderly) {n : Nat} {interrupted : Bool}
    {a : Answer ι (Except Failure Octets)} (hread : b.read n interrupted = some a) :
    b.Ahead a.after := by
  rcases Nat.eq_zero_or_pos n with rfl | hn
  · cases hread
    exact ⟨rfl, rfl, rfl, id⟩
  · rcases hold_of_read hn hread with ⟨held, hhold, rfl⟩
    rcases hold_cases h hhold with ⟨-, rfl⟩ | ⟨-, hrefill⟩
    · exact takeUpTo_ahead ⟨rfl, rfl, rfl, id⟩ n _
    · exact takeUpTo_ahead hrefill.ahead n _

/-- Moving on in a stream does not change what was accepted of it. -/
theorem Faithful.ahead (hf : b.Faithful told accepted) {b' : Inlet ι} (h : b.Ahead b') :
    b'.Faithful told accepted := by
  refine ⟨fun hopen => ?_, fun hopen => ?_, ?_⟩
  · rw [h.terminated] at hopen
    unfold SlotAgrees
    rw [h.slot]
    exact hf.slot hopen
  · rw [h.terminated] at hopen
    exact hf.incomplete hopen
  · rintro (hopen | hcompleting)
    · rw [h.terminated] at hopen
      exact hf.accepted_eq (.inl hopen)
    · exact hf.accepted_eq (.inr (h.completing hcompleting))

/-- What others do to an inlet leaves the reader's own side alone. -/
theorem failStream_reader (f : Failure) (b : Inlet ι) :
    (b.failStream f).1.readerHeld = b.readerHeld ∧
      (b.failStream f).1.verdict = b.verdict := by
  unfold failStream
  split
  · exact ⟨rfl, rfl⟩
  · split
    · split <;> exact ⟨rfl, rfl⟩
    · exact ⟨rfl, rfl⟩

/-- A cue leaves the reader alone: what it has in hand, and the end that it has come to. -/
theorem heed_reader (c : InletCue) (handle : ι) (b : Inlet ι) :
    (b.heed c handle).readerHeld = b.readerHeld ∧ (b.heed c handle).verdict = b.verdict ∧
      (b.heed c handle).current = b.current := by
  have hfail : ∀ (b : Inlet ι) (f : Failure),
      (b.failStream f).1.readerHeld = b.readerHeld ∧ (b.failStream f).1.verdict = b.verdict ∧
        (b.failStream f).1.current = b.current := by
    intro b f
    rcases failStream_reader f b with ⟨hheld, hverdict⟩
    exact ⟨hheld, hverdict, failStream_current f b⟩
  cases c with
  | subscribe peer =>
      simp only [heed, subscribed]
      split <;> exact ⟨rfl, rfl, rfl⟩
  | next chunk =>
      simp only [heed, next]
      split
      · split
        · exact ⟨rfl, rfl, rfl⟩
        · split <;> exact ⟨rfl, rfl, rfl⟩
      · exact ⟨rfl, rfl, rfl⟩
  | error cause => exact hfail _ _
  | complete =>
      simp only [heed, complete, completeStream]
      split <;> exact ⟨rfl, rfl, rfl⟩
  | aside e =>
      cases e with
      | failure cause => exact hfail _ _
      | publish value => exact ⟨rfl, rfl, rfl⟩
      | close =>
          simp only [heed, close]
          split <;> exact ⟨rfl, rfl, rfl⟩
      | interrupt => exact ⟨rfl, rfl, rfl⟩

end Inlet

/-! ## Every step keeps the invariant -/

namespace InletTraffic

variable {t : InletTraffic}

@[simp]
theorem carry_inlet_cue (c : InletCue) (t : InletTraffic) :
    (t.carry (.cue c)).inlet = t.inlet.heed c t.world.peers.length :=
  Exchange.perform_inlet t.world c

@[simp]
theorem carry_inlet_reaction (r : Reaction Nat) (t : InletTraffic) :
    (t.carry (.reaction r)).inlet = t.inlet :=
  Exchange.carryOut_inlet t.world r

/-- What others do keeps the invariant. -/
theorem Sound.carry (h : t.Sound) (task : Task) : (t.carry task).Sound := by
  cases task with
  | reaction r =>
      have hinlet := carry_inlet_reaction r t
      refine ⟨?_, ?_, ?_, ?_⟩
      · rw [hinlet]
        exact h.orderly
      · rw [hinlet]
        exact h.conserved
      · rw [hinlet]
        exact h.completed
      · intro hclosed
        rw [wasClosed, hinlet] at hclosed
        rw [hinlet]
        exact h.faithful hclosed
  | cue c =>
      have hinlet := carry_inlet_cue c t
      refine ⟨?_, ?_, ?_, ?_⟩
      · rw [hinlet]
        exact Inlet.heed_orderly h.orderly c _
      · rw [hinlet, Inlet.heed_unread]
        change t.returned ++ (t.inlet.unread ++ (t.inlet.acceptedBy c).flatten) =
          (t.accepted ++ t.inlet.acceptedBy c).flatten
        rw [← List.append_assoc, h.conserved, List.flatten_append]
      · intro hcompleting
        rw [hinlet] at hcompleting
        change (t.told ++ [c]).any Cue.isComplete = true
        rcases Inlet.completing_of_heed h.orderly c _ hcompleting with hbefore | htold
        · simp [h.completed hbefore]
        · simp [htold]
      · intro hclosed
        have hparts : t.wasClosed = false ∧ c.isClose = false := by
          rw [wasClosed, hinlet, (Inlet.heed_reader c _ _).1] at hclosed
          change ((t.told ++ [c]).any Cue.isClose || !t.inlet.readerHeld) = false at hclosed
          simp only [List.any_append, List.any_cons, List.any_nil, Bool.or_false,
            Bool.or_eq_false_iff] at hclosed
          exact ⟨by rw [wasClosed, hclosed.1.1, hclosed.2]; rfl, hclosed.1.2⟩
        rw [hinlet]
        exact Inlet.heed_faithful h.orderly (h.faithful hparts.1) h.completed hparts.2 _

/-- Moving on keeps the invariant if what was taken is returned. -/
theorem Sound.ahead (h : t.Sound) {after : Inlet Nat} (horderly : after.Orderly)
    (hahead : t.inlet.Ahead after) {taken : Octets}
    (hunread : taken ++ after.unread = t.inlet.unread) (out : List (Reaction Nat)) :
    { t.change after out with returned := t.returned ++ taken }.Sound := by
  refine ⟨horderly, ?_, ?_, ?_⟩
  · change (t.returned ++ taken) ++ after.unread = t.accepted.flatten
    rw [List.append_assoc, hunread, h.conserved]
  · intro hcompleting
    exact h.completed (hahead.completing hcompleting)
  · intro hclosed
    refine (h.faithful ?_).ahead hahead
    change (t.told.any Cue.isClose || !after.readerHeld) = false at hclosed
    rwa [hahead.readerHeld] at hclosed

/-- A call that has to wait changes nothing; any other returns what it takes. -/
theorem read_cases (call : ReadCall) (t : InletTraffic) :
    (t.inlet.read call.wanted t.world.interrupted = none ∧ t.read call = t) ∨
      ∃ a, t.inlet.read call.wanted t.world.interrupted = some a ∧
        t.read call =
          { t.change a.after a.reactions with
            returned := t.returned ++ Inlet.bytes a.value } := by
  simp only [read, Inlet.answer_eq_read]
  cases hread : t.inlet.read call.wanted t.world.interrupted with
  | none => exact .inl ⟨rfl, rfl⟩
  | some a => exact .inr ⟨a, rfl, rfl⟩

/-- A byte-wise call reports the end when a call for one byte does. -/
theorem reportsEnd_iff (call : ReadCall) (t : InletTraffic) :
    t.reportsEnd call ↔
      0 < call.wanted ∧
        (t.inlet.read call.wanted t.world.interrupted).map (·.value) = some (.ok []) := by
  cases call with
  | upTo n => exact Iff.rfl
  | byte =>
      rw [reportsEnd, Inlet.readByte_eq_none_iff]
      exact (and_iff_right Nat.one_pos).symm

/-- Either nothing is under way at a place, or it goes on. -/
theorem proceeds_cases (place : Nat) (t : InletTraffic) :
    t.step (.proceeds place) = t ∨
      ∃ task, t.step (.proceeds place) =
        { t with underway := t.underway.eraseIdx place }.carry task := by
  simp only [step]
  cases htask : t.underway[place]? with
  | none => exact .inl rfl
  | some task => exact .inr ⟨task, rfl⟩

/-- A reading call keeps the invariant. -/
theorem Sound.read (h : t.Sound) (call : ReadCall) : (t.read call).Sound := by
  rcases read_cases call t with ⟨-, hkept⟩ | ⟨a, hread, hafter⟩
  · rwa [hkept]
  · rw [hafter]
    exact h.ahead (Inlet.read_orderly h.orderly hread) (Inlet.read_ahead h.orderly hread)
      (Inlet.read_unread h.orderly hread) a.reactions

/-- The reader may go away at any time. -/
theorem Sound.leave (h : t.Sound) : (t.step .readerLeaves).Sound := by
  refine ⟨Inlet.dropReader_orderly h.orderly, ?_, ?_, ?_⟩
  · change t.returned ++ t.inlet.dropReader.1.unread = t.accepted.flatten
    rw [Inlet.dropReader_unread, h.conserved]
  · intro hcompleting
    apply h.completed
    change t.inlet.dropReader.1.Completing at hcompleting
    simp only [Inlet.dropReader, Inlet.close] at hcompleting
    split at hcompleting <;> exact hcompleting
  · intro hclosed
    change (t.told.any Cue.isClose || !false) = false at hclosed
    simp at hclosed

/-- Every event keeps the invariant. -/
theorem Sound.step (h : t.Sound) (e : InletEvent) : (t.step e).Sound := by
  cases e with
  | begins c => exact ⟨h.orderly, h.conserved, h.completed, h.faithful⟩
  | proceeds place =>
      rcases proceeds_cases place t with hkept | ⟨task, hafter⟩
      · rwa [hkept]
      · have hrest : { t with underway := t.underway.eraseIdx place }.Sound :=
          ⟨h.orderly, h.conserved, h.completed, h.faithful⟩
        rw [hafter]
        exact hrest.carry task
  | reads call => exact h.read call
  | readerLeaves => exact h.leave

/-- Whatever happens, the bytes that were returned and those that can still be taken are
the accepted chunks, and a completion is behind every end of the stream. -/
theorem run_sound (interrupted : Bool) (events : List InletEvent) :
    ((start interrupted).run events).Sound :=
  run_keeps (fun e h => h.step e) (start_sound interrupted) events

/-! ## An end is an end -/

/-- The reader has seen the completion, and has nothing in hand. -/
def Ended (t : InletTraffic) : Prop :=
  t.inlet.verdict = some (.ok ()) ∧ t.inlet.current = []

/-- A reader that has seen the completion is told so by every call. -/
theorem Ended.atEnd (h : t.Ended) : t.AtEnd :=
  ⟨fun n => Inlet.read_of_ended h.1 h.2 n _, Inlet.readByte_of_ended h.1 h.2 _⟩

theorem Ended.carry (h : t.Ended) (task : Task) : (t.carry task).Ended := by
  cases task with
  | reaction r =>
      unfold Ended
      rw [carry_inlet_reaction]
      exact h
  | cue c =>
      rcases Inlet.heed_reader c t.world.peers.length t.inlet with ⟨-, hverdict, hcurrent⟩
      unfold Ended
      rw [carry_inlet_cue, hverdict, hcurrent]
      exact h

/-- Nothing that happens brings a reader back from the completion. -/
theorem Ended.step (h : t.Ended) (e : InletEvent) : (t.step e).Ended := by
  cases e with
  | begins c => exact h
  | proceeds place =>
      rcases proceeds_cases place t with hkept | ⟨task, hafter⟩
      · rwa [hkept]
      · have hrest : { t with underway := t.underway.eraseIdx place }.Ended := h
        rw [hafter]
        exact hrest.carry task
  | reads call =>
      rcases read_cases call t with ⟨-, hkept⟩ | ⟨a, ha, hafter⟩
      · rwa [InletTraffic.step, hkept]
      · rw [h.atEnd.1] at ha
        cases ha
        rw [InletTraffic.step, hafter]
        exact h
  | readerLeaves =>
      have hsame : t.inlet.close.1.verdict = t.inlet.verdict ∧
          t.inlet.close.1.current = t.inlet.current := by
        unfold Inlet.close
        split <;> exact ⟨rfl, rfl⟩
      exact ⟨hsame.1.trans h.1, hsame.2.trans h.2⟩

/-- An end that was seen is reported by every later call. -/
theorem run_ended (h : t.Ended) (events : List InletEvent) : (t.run events).AtEnd := by
  have hended : (t.run events).Ended := run_keeps (fun e h => h.step e) h events
  exact hended.atEnd

/-- A call that reports the end comes after a completion and after the last byte, and the
reader has seen the end then. -/
theorem Sound.of_reportsEnd (h : t.Sound) {call : ReadCall} (hend : t.reportsEnd call) :
    t.inlet.Completing ∧ t.inlet.unread = [] ∧ (t.step (.reads call)).Ended := by
  rcases (reportsEnd_iff call t).mp hend with ⟨hn, hanswer⟩
  rcases Option.map_eq_some_iff.mp hanswer with ⟨a, hread, hvalue⟩
  rcases Inlet.read_eq_end h.orderly hn hread hvalue with ⟨hverdict, hunread⟩
  have hrest := Inlet.read_unread h.orderly hread
  rw [hunread, List.append_eq_nil_iff] at hrest
  have hcurrent := (List.append_eq_nil_iff.mp hrest.2).1
  refine ⟨(Inlet.read_ahead h.orderly hread).completing (.inr hverdict), hunread, ?_⟩
  rcases read_cases call t with ⟨hnone, -⟩ | ⟨a', ha', hafter⟩
  · rw [hread] at hnone
    cases hnone
  · rw [hread] at ha'
    cases ha'
    rw [InletTraffic.step, hafter]
    exact ⟨hverdict, hcurrent⟩

/-- Whatever happens and in whatever order, the bytes that were returned and those that
can still be taken are the accepted chunks.  The end of the stream is reported only after
a completion, only after the last byte, if nobody has closed only after every chunk that
was delivered between the first subscription and the first completion, and then for good,
without a call on any subscription. -/
theorem run_conserves_and_ends_soundly (interrupted : Bool) (events : List InletEvent) :
    let t := (start interrupted).run events
    t.returned ++ (t.inlet.current ++ t.inlet.chunks.flatten) = t.accepted.flatten ∧
      ∀ call, t.reportsEnd call →
        t.told.any Cue.isComplete = true ∧
          t.returned = t.accepted.flatten ∧
          (t.wasClosed = false → t.returned = (Cue.delivered t.told).flatten) ∧
          ∀ later, ((t.step (.reads call)).run later).AtEnd := by
  intro t
  have hsound : t.Sound := run_sound interrupted events
  refine ⟨hsound.conserved, fun call hend => ?_⟩
  rcases hsound.of_reportsEnd hend with ⟨hcompleting, hunread, hended⟩
  have hreturned : t.returned = t.accepted.flatten := by
    rw [← hsound.conserved, hunread, List.append_nil]
  refine ⟨hsound.completed hcompleting, hreturned, fun hclosed => ?_, run_ended hended⟩
  rw [hreturned, (hsound.faithful hclosed).accepted_eq (.inr hcompleting)]

/-- A publisher that delivers from inside the calls that ask it to, an empty chunk among
the others. -/
theorem nested_run_ends_soundly :
    let publisher : Peer InletCue :=
      { name := "publisher"
        onRequest := [[.next [1, 2, 3]], [.next []], [.next [4]], [.complete]] }
    let events : List InletEvent :=
      .begins (.subscribe publisher) :: List.replicate 6 (.proceeds 0) ++
        [.reads (.upTo 2)] ++ [.reads (.upTo 2)] ++ List.replicate 12 (.proceeds 0) ++
        [.reads .byte] ++ List.replicate 8 (.proceeds 0)
    let t := (start false).run events
    t.reportsEnd (.upTo 1) ∧ t.wasClosed = false ∧ t.returned = [1, 2, 3, 4] ∧
      t.returned = (Cue.delivered t.told).flatten ∧
      ((t.step (.reads (.upTo 1))).run [.reads .byte]).AtEnd := by
  intro publisher events t
  have hend : t.reportsEnd (.upTo 1) := ⟨Nat.one_pos, by decide +kernel⟩
  have hclosed : t.wasClosed = false := by decide +kernel
  have hreturned : t.returned = [1, 2, 3, 4] := by decide +kernel
  have hrun := (run_conserves_and_ends_soundly false events).2 (.upTo 1) hend
  exact ⟨hend, hclosed, hreturned, hrun.2.2.1 hclosed, hrun.2.2.2 [.reads .byte]⟩

/-! ## Settling is a run -/

/-- Carrying out what is under way, always the latest first, settles it. -/
theorem settle_eq_run (t : InletTraffic) :
    ∃ n, (t.run (List.replicate n (.proceeds 0))).world = t.world.settle t.underway ∧
      (t.run (List.replicate n (.proceeds 0))).underway = [] := by
  have hall : ∀ (world : Exchange) (underway : List Task) (t : InletTraffic), t.world = world →
      t.underway = underway →
        ∃ n, (t.run (List.replicate n (.proceeds 0))).world = world.settle underway ∧
          (t.run (List.replicate n (.proceeds 0))).underway = [] := by
    intro world underway
    fun_induction Exchange.settle world underway with
    | case1 world =>
        intro t hworld hunderway
        exact ⟨0, hworld, hunderway⟩
    | case2 world task rest ih =>
        intro t hworld hunderway
        have hstep : t.step (.proceeds 0) = { t with underway := rest }.carry task := by
          simp [step, hunderway]
        obtain ⟨n, hn⟩ := ih (t.step (.proceeds 0))
          (by rw [hstep, ← hworld]; cases task <;> rfl)
          (by rw [hstep, ← hworld]; cases task <;> rfl)
        exact ⟨n + 1, hn⟩
  exact hall t.world t.underway t rfl rfl

end InletTraffic
end CreditFlow
