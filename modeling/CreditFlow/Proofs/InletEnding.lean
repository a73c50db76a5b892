import CreditFlow.Proofs.InletClosing

/-!
# The end that a reader comes to

A stream can be ended more than once: its publisher may complete it and fail it, somebody
may report a failure beside it, and a publisher that delivers what nobody has asked for ends
it as well.  Until the reader takes the end out of the queue all of these count, in the order
in which they are brought about; after that none does.

What the reader comes to is then a function of that list.  After the bytes of every accepted
chunk it is the first failure in the list, even one that came after a completion; it is the
completion if nothing failed.  A reader who has come to it is told the same for ever, however
traffic goes on.

Main results:

- {lit}`Inlet.foldl_amend_of_ne`: of several ends the first failure stands.
- {lit}`InletTraffic.Windowed.run_brings`: the end that waits is what stands of those that
  were brought about.
- {lit}`InletTraffic.Windowed.breach_first`: only the first end can be a breach of the
  protocol.
- {lit}`InletTraffic.run_comes_to_end`: what every call of the reader answers.
-/

namespace CreditFlow
namespace Inlet

variable {ι : Type} {b : Inlet ι}

/-! ## Which of several ends stands -/

/-- The first failure among several ends. -/
def firstFailure? : List (Except Failure Unit) → Option Failure
  | [] => none
  | .error f :: _ => some f
  | .ok _ :: ends => firstFailure? ends

/-- What a reader is told for whom all these ends were brought about: the first failure, and
the end of the stream if nothing failed. -/
def lastWord (ends : List (Except Failure Unit)) : Except Failure Octets :=
  match firstFailure? ends with
  | some f => .error f
  | none => .ok []

/-- An end as it is told to a reader. -/
def word (v : Except Failure Unit) : Except Failure Octets :=
  v.map fun _ => []

/-- Among several ends one stands, and it is told as the first failure among them. -/
theorem foldl_amend_singleton (v : Except Failure Unit) (vs : List (Except Failure Unit)) :
    ∃ w, vs.foldl amend [v] = [w] ∧ word w = lastWord (v :: vs) := by
  induction vs generalizing v with
  | nil => cases v <;> exact ⟨_, rfl, rfl⟩
  | cons u vs ih =>
      cases v with
      | error f =>
          obtain ⟨w, hstands, htold⟩ := ih (.error f)
          exact ⟨w, hstands, htold⟩
      | ok done =>
          cases u with
          | error f => exact ih (.error f)
          | ok again => exact ih (.ok done)

/-- Of several ends the first failure stands, and the completion if nothing failed. -/
theorem foldl_amend_of_ne {vs : List (Except Failure Unit)} (hsome : vs ≠ []) :
    ∃ w, vs.foldl amend [] = [w] ∧ word w = lastWord vs := by
  cases vs with
  | nil => exact absurd rfl hsome
  | cons v vs => exact foldl_amend_singleton v vs

/-! ## The end that a cue brings about -/

/-- The end that a breach of the protocol brings about. -/
def breach : Except Failure Unit :=
  .error (.condition .demandExceeded)

/-- Whether a chunk that arrives now is a breach of the protocol. -/
def overruns (b : Inlet ι) : Bool :=
  match b.slot with
  | .installed _ => !b.terminated && b.credit == 0
  | _ => false

/-- A chunk overruns an inlet when no item was asked for that it could be. -/
theorem overruns_iff (b : Inlet ι) (chunk : Octets) :
    b.overruns = true ↔ b.Overruns (.next chunk) := by
  unfold overruns Overruns
  cases b.slot <;> simp [Cue.chunk?]

/-- The end that a cue brings about for a reader who has not come to one. -/
def ending? (c : InletCue) (b : Inlet ι) : Option (Except Failure Unit) :=
  if b.drained then none
  else if c.chunk?.isSome && b.overruns then some breach
  else c.end?

/-- A cue with a chunk is nothing but the delivery of that chunk. -/
theorem overruns_of_cue (c : InletCue) (b : Inlet ι) :
    (c.chunk?.isSome && b.overruns) = true ↔ b.Overruns c := by
  cases c with
  | next chunk =>
      rw [← b.overruns_iff chunk]
      simp [Cue.chunk?]
  | _ => simp [Cue.chunk?, Overruns]

/-- What is no breach brings the end about that it tells of. -/
theorem ending_of_modest {c : InletCue} (hmodest : ¬b.Overruns c) :
    b.ending? c = if b.drained then none else c.end? := by
  rw [ending?, if_neg (mt (overruns_of_cue c b).mp hmodest)]

/-- A cue that keeps to the protocol brings about the end that it tells of. -/
theorem end_of_ending {c : InletCue} (hmodest : ¬b.Overruns c) {v : Except Failure Unit}
    (hending : b.ending? c = some v) : c.end? = some v := by
  rw [ending_of_modest hmodest] at hending
  split at hending
  · cases hending
  · exact hending

/-- Nobody tells of a breach. -/
theorem ne_breach_of_end {c : InletCue} {v : Except Failure Unit} (hend : c.end? = some v) :
    v ≠ breach := by
  cases c with
  | error cause =>
      cases hend
      simp [breach]
  | complete =>
      cases hend
      simp [breach]
  | aside e =>
      cases e with
      | failure cause =>
          cases hend
          simp [breach]
      | _ => cases hend
  | _ => cases hend

/-- A breach comes while the stream goes on, and is the only end there is then. -/
theorem heed_ends_of_overruns (h : b.Orderly) {c : InletCue} (hover : b.Overruns c)
    (fresh : ι) : (b.heed c fresh).ends = amend b.ends breach := by
  obtain ⟨hchunk, ⟨handle, hslot⟩, hopen, hcredit⟩ := hover
  cases c with
  | next chunk =>
      have hnext : (b.next chunk).1 =
          { b with
            slot := .closed
            queue := b.queue ++ [.failure (.condition .demandExceeded)]
            terminated := true } := by
        simp [next, hslot, hopen, hcredit]
      have hends : (b.next chunk).1.ends = b.ends ++ [breach] :=
        ends_of_mark (Element.isMark_failure _) (by rw [hnext]) (by rw [hnext])
      rw [heed, hends, h.ends_eq_nil hopen]
      rfl
  | _ => simp [Cue.chunk?] at hchunk

/-- Every end that a cue brings about is weighed against the one that waits. -/
theorem heed_ends_of_ending (h : b.Orderly) (c : InletCue) (fresh : ι) :
    (b.heed c fresh).ends = (b.ending? c).toList.foldl amend b.ends := by
  by_cases hover : b.Overruns c
  · have hunseen : b.drained = false := h.undrained hover.2.2.1
    rw [ending?, hunseen, if_neg Bool.false_ne_true, if_pos ((overruns_of_cue c b).mpr hover)]
    exact heed_ends_of_overruns h hover fresh
  · rw [heed_ends h hover fresh, ending_of_modest hover]
    by_cases hdrained : b.drained = true
    · rw [if_pos hdrained, if_pos hdrained]
      rfl
    · rw [if_neg hdrained, if_neg hdrained]

/-- There is an end as soon as one was told of. -/
theorem amend_ne_nil (ends : List (Except Failure Unit)) (v : Except Failure Unit) :
    amend ends v ≠ [] := by
  unfold amend
  split <;> simp_all

/-- An end that is brought about ends the stream. -/
theorem terminated_of_ending (h : b.Orderly) {c : InletCue} {v : Except Failure Unit}
    (hending : b.ending? c = some v) (fresh : ι) : (b.heed c fresh).terminated = true := by
  by_contra hopen
  have hnone := (heed_orderly h c fresh).ends_eq_nil (by simpa using hopen)
  rw [heed_ends_of_ending h, hending] at hnone
  exact amend_ne_nil _ _ hnone

/-- Once the stream has ended nothing is a breach. -/
theorem ending_ne_breach (hend : b.terminated = true) {c : InletCue}
    {v : Except Failure Unit} (hending : b.ending? c = some v) : v ≠ breach := by
  have hmodest : ¬b.Overruns c := fun hover => by simp [hover.2.2.1] at hend
  exact ne_breach_of_end (end_of_ending hmodest hending)

/-! ## What the reader is answered -/

/-- All that a call for some bytes can come to: bytes, the end behind them, or a word that
changes nothing. -/
inductive Comes (b : Inlet ι) (interrupted : Bool) (a : Answer ι (Except Failure Octets)) :
    Prop where
  | bytes (o : Octets) (hsome : o ≠ []) (hvalue : a.value = .ok o)
      (hrest : o ++ a.after.unread = b.unread) (hunseen : a.after.drained = false)
  | ending (v : Except Failure Unit) (hnothing : b.unread = []) (hends : b.ends = [v])
      (hvalue : a.value = word v) (hseen : a.after.drained = true)
  | refused (hnothing : b.unread = []) (hends : b.ends = [])
      (hafter : a.after = b) (hsilent : a.reactions = [])
      (hreason : (a.value = .error (.condition .closed) ∧ b.slot = .closed) ∨
        (a.value = .error (.condition (.interrupted .data)) ∧ interrupted = true))

/-- A reader who has come to the end has nothing but its verdict. -/
theorem Orderly.ends_of_verdict (h : b.Orderly) {v : Except Failure Unit}
    (hverdict : b.verdict = some v) : b.ends = [v] := by
  have hdrained : b.drained = true := by simp [h.drained_eq, hverdict]
  have hmarks : b.marks = [] := by
    apply List.length_eq_zero_iff.mp
    rw [h.marks_length, hdrained]
    simp
  rw [ends, hverdict, hmarks]
  rfl

/-- An inlet whose queue is empty has neither bytes nor an end, unless in the reader's
hands. -/
theorem nothing_of_queue (hqueue : b.queue = []) (hcurrent : b.current = [])
    (hverdict : b.verdict = none) : b.unread = [] ∧ b.ends = [] := by
  constructor
  · simp [unread, chunks, hqueue, hcurrent]
  · simp [ends, marks, hqueue, hverdict]

/-- A call for some bytes of those in hand returns some of them. -/
theorem take_of_hand {n : Nat} (hn : 0 < n) (hhand : b.current ≠ []) :
    b.current.take n ≠ [] := by
  intro hnil
  rcases List.take_eq_nil_iff.mp hnil with hzero | hempty
  · omega
  · exact hhand hempty

/-- Behind the end there is nothing to take. -/
theorem takeUpTo_of_end (n : Nat) (v : Except Failure Unit) (b : Inlet ι) :
    takeUpTo n (v.map fun _ => false) b = (word v, b) := by
  cases v <;> rfl

/-- Every call for some bytes is in the list. -/
theorem comes_of_read (h : b.Orderly) {n : Nat} (hn : 0 < n) {interrupted : Bool}
    {a : Answer ι (Except Failure Octets)} (hread : b.read n interrupted = some a) :
    b.Comes interrupted a := by
  have hkept := read_unread h hread
  obtain ⟨held, hhold, rfl⟩ := hold_of_read hn hread
  rcases hold_cases h hhold with ⟨hcurrent, rfl⟩ | ⟨hcurrent, hrefill⟩
  · have hunseen : b.drained = false := by
      by_contra hdrained
      have hnil := h.drained_unread (by simpa using hdrained)
      exact hcurrent (List.append_eq_nil_iff.mp hnil).1
    exact .bytes _ (take_of_hand hn hcurrent) rfl hkept hunseen
  · cases hrefill with
    | known v hverdict =>
        have hdrained : b.drained = true := by simp [h.drained_eq, hverdict]
        have htake := takeUpTo_of_end n v b
        exact .ending v (h.drained_unread hdrained) (h.ends_of_verdict hverdict)
          (congrArg Prod.fst htake) ((congrArg (·.2.drained) htake).trans hdrained)
    | chunk c rest handle hverdict hqueue hslot =>
        have hchunk : c ≠ [] := h.chunks_ne c (by simp [chunks, hqueue])
        have hunseen : b.drained = false := by simp [h.drained_eq, hverdict]
        exact .bytes _ (take_of_hand (b := { b with current := c }) hn hchunk) rfl hkept hunseen
    | leftover c rest hverdict hqueue hslot =>
        have hchunk : c ≠ [] := h.chunks_ne c (by simp [chunks, hqueue])
        have hunseen : b.drained = false := by simp [h.drained_eq, hverdict]
        exact .bytes _ (take_of_hand (b := { b with current := c }) hn hchunk) rfl hkept hunseen
    | mark e note hverdict hmark hqueue =>
        have hnothing : b.unread = [] := by
          simp [unread, chunks, hqueue, hcurrent, Element.chunk?_of_isMark hmark]
        have hends : b.ends = [e.verdict] := by
          simp [ends, marks, hqueue, hverdict, hmark]
        have htake := takeUpTo_of_end n e.verdict
          { b with queue := [], drained := true, verdict := some e.verdict }
        exact .ending e.verdict hnothing hends (congrArg Prod.fst htake)
          (congrArg (·.2.drained) htake)
    | closed hverdict hqueue hslot =>
        obtain ⟨hnothing, hends⟩ := nothing_of_queue hqueue hcurrent hverdict
        exact .refused hnothing hends rfl rfl (.inl ⟨rfl, hslot⟩)
    | interrupted hverdict hqueue hfired =>
        obtain ⟨hnothing, hends⟩ := nothing_of_queue hqueue hcurrent hverdict
        exact .refused hnothing hends rfl rfl (.inr ⟨rfl, hfired⟩)

/-- A call answers as long as there is something to take or an end to tell of. -/
theorem read_answers (h : b.Orderly) (hsome : b.unread ≠ [] ∨ b.ends ≠ []) (n : Nat)
    (interrupted : Bool) : ∃ a, b.read n interrupted = some a := by
  by_contra hwaits
  have hnone : b.read n interrupted = none := by
    simpa [Option.eq_none_iff_forall_ne_some] using hwaits
  obtain ⟨-, hopen, hnothing, -⟩ := read_eq_none h hnone
  rcases hsome with hunread | hends
  · exact hunread hnothing
  · exact hends (h.ends_eq_nil hopen)

/-- A reader who has come to the end is told the same again, and nothing changes. -/
theorem read_of_drained (h : b.Orderly) (hdrained : b.drained = true)
    {v : Except Failure Unit} (hends : b.ends = [v]) {n : Nat} (hn : 0 < n)
    (interrupted : Bool) : b.read n interrupted = some { value := word v, after := b } := by
  have hcurrent : b.current = [] := (List.append_eq_nil_iff.mp (h.drained_unread hdrained)).1
  have hsome : b.verdict.isSome = true := by rw [← h.drained_eq, hdrained]
  obtain ⟨w, hverdict⟩ := Option.isSome_iff_exists.mp hsome
  obtain rfl : w = v := by
    have hknown := h.ends_of_verdict hverdict
    simpa [hends] using hknown.symm
  rw [read, if_neg (by omega), hold, if_pos (by simp [hcurrent])]
  cases w with
  | ok done => simp [refill_of_complete hverdict, Answer.andThen, takeUpTo, word, Except.map]
  | error f => simp [refill_of_failed hverdict, Answer.andThen, takeUpTo, word, Except.map]

end Inlet

/-! ## The ends of a run -/

namespace InletTraffic

variable {t : InletTraffic}

/-- The end that an event brings about. -/
def brings (t : InletTraffic) (e : InletEvent) : Option (Except Failure Unit) :=
  (t.cue? e).bind fun c => t.inlet.ending? c

/-- The ends that are brought about in a run before the reader comes to one, in order. -/
def brought : List InletEvent → InletTraffic → List (Except Failure Unit)
  | [], _ => []
  | e :: events, t => (t.brings e).toList ++ brought events (t.step e)

/-- What a longer run brings about is what its first part does, and then the rest. -/
theorem brought_append (first second : List InletEvent) (t : InletTraffic) :
    brought (first ++ second) t = brought first t ++ brought second (t.run first) := by
  induction first generalizing t with
  | nil => rfl
  | cons e first ih =>
      rw [List.cons_append, brought, ih, brought, run_cons, List.append_assoc]

/-- An event that tells the inlet nothing brings no end about. -/
theorem brings_of_told {e : InletEvent} (htold : (t.step e).told = t.told) :
    t.brings e = none := by
  have hcue : t.cue? e = none := by simpa [htold] using told_step e t
  rw [brings, hcue]
  rfl

/-- An event leaves the end that waits as it is, or weighs one that it brings about against
it. -/
theorem Windowed.ends_step (h : t.Windowed) (e : InletEvent) :
    (t.step e).inlet.ends = (t.brings e).toList.foldl Inlet.amend t.inlet.ends := by
  cases turn_step h.toAddressed e with
  | rests hinlet htold haccepted hissued =>
      rw [brings_of_told htold, hinlet]
      rfl
  | heeds c hcue hinlet htold haccepted hissued =>
      rw [brings, hcue, hinlet]
      exact Inlet.heed_ends_of_ending h.orderly c _
  | reads n a hread hinlet htold haccepted hissued =>
      rw [brings_of_told htold, hinlet]
      exact Inlet.read_ends h.orderly hread
  | leaves hinlet htold haccepted hissued =>
      rw [brings_of_told htold, hinlet, Inlet.dropReader, Inlet.close]
      split <;> rfl

/-- The end that waits for the reader, or that the reader has come to, is what stands of those
that were brought about. -/
theorem Windowed.run_brings (h : t.Windowed) (events : List InletEvent) :
    (t.run events).inlet.ends = (brought events t).foldl Inlet.amend t.inlet.ends := by
  induction events generalizing t with
  | nil => rfl
  | cons e events ih => rw [run_cons, ih (h.step e), brought, List.foldl_append, h.ends_step e]

/-! ## Breaches -/

/-- The end of a stream is not taken back. -/
theorem Windowed.terminated_step (h : t.Windowed) (hend : t.inlet.terminated = true)
    (e : InletEvent) : (t.step e).inlet.terminated = true := by
  cases turn_step h.toAddressed e with
  | rests hinlet htold haccepted hissued => rwa [hinlet]
  | heeds c hcue hinlet htold haccepted hissued =>
      rw [hinlet]
      exact Inlet.heed_terminated h.orderly hend c _
  | reads n a hread hinlet htold haccepted hissued =>
      rwa [hinlet, (Inlet.read_ahead h.orderly hread).terminated]
  | leaves hinlet htold haccepted hissued =>
      rw [hinlet, Inlet.dropReader, Inlet.close]
      split <;> exact hend

/-- Nothing is accepted after it. -/
theorem Windowed.accepted_step (h : t.Windowed) (hend : t.inlet.terminated = true)
    (e : InletEvent) : (t.step e).accepted = t.accepted := by
  cases turn_step h.toAddressed e with
  | heeds c hcue hinlet htold haccepted hissued =>
      have hrefuses : t.inlet.accepts = false := by
        by_contra haccepts
        have hopen := ((Inlet.accepts_iff _).mp (by simpa using haccepts)).2.1
        simp [hend] at hopen
      rw [haccepted, Inlet.acceptedBy, hrefuses]
      simp
  | rests hinlet htold haccepted hissued => exact haccepted
  | reads n a hread hinlet htold haccepted hissued => exact haccepted
  | leaves hinlet htold haccepted hissued => exact haccepted

/-- Once the stream has ended no chunk is accepted any more. -/
theorem Windowed.run_accepted (h : t.Windowed) (hend : t.inlet.terminated = true)
    (events : List InletEvent) : (t.run events).accepted = t.accepted := by
  induction events generalizing t with
  | nil => rfl
  | cons e events ih =>
      rw [run_cons, ih (h.step e) (h.terminated_step hend e), h.accepted_step hend e]

/-- Once the stream has ended no breach is brought about. -/
theorem Windowed.no_breach (h : t.Windowed) (hend : t.inlet.terminated = true)
    (events : List InletEvent) : ∀ v ∈ brought events t, v ≠ Inlet.breach := by
  induction events generalizing t with
  | nil => simp [brought]
  | cons e events ih =>
      intro v hv
      rcases List.mem_append.mp hv with hnow | hlater
      · obtain ⟨c, -, hending⟩ := Option.bind_eq_some_iff.mp (Option.mem_toList.mp hnow)
        exact Inlet.ending_ne_breach hend hending
      · exact ih (h.step e) (h.terminated_step hend e) v hlater

/-- Only the first end that is brought about can be a breach. -/
theorem Windowed.breach_first (h : t.Windowed) (events : List InletEvent) :
    ∀ v ∈ (brought events t).tail, v ≠ Inlet.breach := by
  induction events generalizing t with
  | nil => simp [brought]
  | cons e events ih =>
      cases hbrings : t.brings e with
      | none => simpa [brought, hbrings] using ih (h.step e)
      | some v =>
          have hend : (t.step e).inlet.terminated = true := by
            cases turn_step h.toAddressed e with
            | heeds c hcue hinlet htold haccepted hissued =>
                rw [brings, hcue] at hbrings
                rw [hinlet]
                exact Inlet.terminated_of_ending h.orderly hbrings _
            | rests hinlet htold haccepted hissued => simp [brings_of_told htold] at hbrings
            | reads n a hread hinlet htold haccepted hissued =>
                simp [brings_of_told htold] at hbrings
            | leaves hinlet htold haccepted hissued => simp [brings_of_told htold] at hbrings
          simpa [brought, hbrings] using (h.step e).no_breach hend events

/-! ## After the end -/

/-- A reader who has come to the end stays there. -/
theorem Windowed.drained_step (h : t.Windowed) (hdrained : t.inlet.drained = true)
    (e : InletEvent) : (t.step e).inlet.drained = true := by
  cases turn_step h.toAddressed e with
  | rests hinlet htold haccepted hissued => rwa [hinlet]
  | heeds c hcue hinlet htold haccepted hissued => rwa [hinlet, Inlet.heed_drained h.orderly]
  | reads n a hread hinlet htold haccepted hissued =>
      rw [hinlet]
      exact Inlet.read_drained h.orderly hread hdrained
  | leaves hinlet htold haccepted hissued =>
      rw [hinlet, Inlet.dropReader, Inlet.close]
      split <;> exact hdrained

/-- What is told of afterwards counts for nothing. -/
theorem Windowed.brought_of_drained (h : t.Windowed) (hdrained : t.inlet.drained = true)
    (events : List InletEvent) :
    brought events t = [] ∧ (t.run events).inlet.drained = true := by
  induction events generalizing t with
  | nil => exact ⟨rfl, hdrained⟩
  | cons e events ih =>
      have hnothing : t.brings e = none := by
        rw [brings, Option.bind_eq_none_iff]
        intro c hc
        rw [Inlet.ending?, if_pos hdrained]
      obtain ⟨hbrought, hstays⟩ := ih (h.step e) (h.drained_step hdrained e)
      rw [brought, hnothing, hbrought]
      exact ⟨rfl, hstays⟩

/-- What stands of the ends that were brought about is what waits for the reader. -/
theorem ends_of_brought (interrupted : Bool) (events : List InletEvent) :
    ((start interrupted).run events).inlet.ends =
      (brought events (start interrupted)).foldl Inlet.amend [] :=
  (start_windowed interrupted).run_brings events

/-! ## What every call answers -/

variable {ends : List (Except Failure Unit)} {call : ReadCall}

/-- While bytes are left, a call for some bytes returns the next ones. -/
theorem Windowed.answers_of_unread (h : t.Windowed) (hwanted : 0 < call.wanted)
    (hunread : t.inlet.unread ≠ []) :
    ∃ a o, t.answers call = some a ∧ a.value = .ok o ∧ o ≠ [] ∧
      o ++ a.after.unread = t.inlet.unread ∧ a.after.drained = false := by
  obtain ⟨a, hread⟩ :=
    Inlet.read_answers h.orderly (.inl hunread) call.wanted t.world.interrupted
  rw [answers, Inlet.answer_eq_read]
  cases Inlet.comes_of_read h.orderly hwanted hread with
  | bytes o hsome hvalue hrest hunseen => exact ⟨a, o, hread, hvalue, hsome, hrest, hunseen⟩
  | ending v hnothing => exact absurd hnothing hunread
  | refused hnothing => exact absurd hnothing hunread

/-- Bytes that are returned were left. -/
theorem not_taken {o rest : Octets} (hnothing : t.inlet.unread = []) (hsome : o ≠ [])
    (hrest : o ++ rest = t.inlet.unread) : False := by
  rw [hnothing] at hrest
  exact hsome (List.append_eq_nil_iff.mp hrest).1

/-- Behind the bytes it takes the end, if one was brought about. -/
theorem Windowed.answers_of_ends (h : t.Windowed) (hwanted : 0 < call.wanted)
    (hends : t.inlet.ends = ends.foldl Inlet.amend []) (hnothing : t.inlet.unread = [])
    (hsome : ends ≠ []) :
    ∃ a, t.answers call = some a ∧ a.value = Inlet.lastWord ends ∧ a.after.drained = true := by
  obtain ⟨w, hlast, hword⟩ := Inlet.foldl_amend_of_ne hsome
  rw [hlast] at hends
  obtain ⟨a, hread⟩ :=
    Inlet.read_answers h.orderly (.inr (by simp [hends])) call.wanted t.world.interrupted
  rw [answers, Inlet.answer_eq_read]
  refine ⟨a, hread, ?_⟩
  cases Inlet.comes_of_read h.orderly hwanted hread with
  | bytes o hsome hvalue hrest => exact (not_taken hnothing hsome hrest).elim
  | ending v hnothing hwaits hvalue hseen =>
      obtain rfl : w = v := by simpa [hends] using hwaits
      exact ⟨hvalue.trans hword, hseen⟩
  | refused hnothing hwaits => simp [hends] at hwaits

/-- Without either it changes nothing, and says why it does not wait if it does not. -/
theorem Windowed.answers_of_nothing (h : t.Windowed) (hwanted : 0 < call.wanted)
    (hends : t.inlet.ends = []) (hnothing : t.inlet.unread = [])
    {a : Inlet.Answer Nat (Except Failure Octets)} (hanswer : t.answers call = some a) :
    a.after = t.inlet ∧ a.reactions = [] ∧
      ((a.value = .error (.condition .closed) ∧ t.inlet.slot = .closed) ∨
        (a.value = .error (.condition (.interrupted .data)) ∧
          t.world.interrupted = true)) := by
  rw [answers, Inlet.answer_eq_read] at hanswer
  cases Inlet.comes_of_read h.orderly hwanted hanswer with
  | bytes o hsome hvalue hrest => exact (not_taken hnothing hsome hrest).elim
  | ending v hnothing hwaits => simp [hends] at hwaits
  | refused hnothing hwaits hafter hsilent hreason => exact ⟨hafter, hsilent, hreason⟩

/-- A reader who has come to the end is told the same again, and nothing changes. -/
theorem Windowed.answers_of_drained (h : t.Windowed) (hdrained : t.inlet.drained = true)
    (hends : t.inlet.ends = ends.foldl Inlet.amend []) (hwanted : 0 < call.wanted) :
    t.answers call = some { value := Inlet.lastWord ends, after := t.inlet } := by
  have hseen : t.inlet.verdict.isSome = true := by rw [← h.orderly.drained_eq, hdrained]
  obtain ⟨v, hverdict⟩ := Option.isSome_iff_exists.mp hseen
  have hstands := h.orderly.ends_of_verdict hverdict
  have hsome : ends ≠ [] := by
    rintro rfl
    rw [hends] at hstands
    cases hstands
  obtain ⟨w, hlast, hword⟩ := Inlet.foldl_amend_of_ne hsome
  rw [answers, Inlet.answer_eq_read, ← hword]
  exact Inlet.read_of_drained h.orderly hdrained (hends.trans hlast) hwanted _

/-- Whoever has come to the end has been given every accepted chunk. -/
theorem Sound.returned_of_drained (h : t.Sound) (hdrained : t.inlet.drained = true) :
    t.returned = t.accepted.flatten := by
  rw [← h.conserved, h.orderly.drained_unread hdrained, List.append_nil]

/-- The end that a reader comes to, in every run.  Let `ends` be the ends that are brought
about before the reader takes the end out of the queue, in order:

- what was returned and what is left are the accepted chunks;
- only the first end can be a breach of the protocol;
- as long as bytes are left, a call for some bytes returns the next ones;
- behind them it takes the end, and tells the first failure in `ends` even if the stream was
  completed before, or the end of the stream if nothing failed;
- without either it takes nothing, and if it need not wait says that the inlet is closed or
  that it was interrupted; a call for no bytes takes nothing either;
- once the end was taken, `ends` is final, no byte is returned any more, and every call for
  some bytes tells the same again without changing anything, whatever happens.
-/
theorem run_comes_to_end (interrupted : Bool) (events : List InletEvent) :
    let t := (start interrupted).run events
    let ends := brought events (start interrupted)
    t.returned ++ t.inlet.unread = t.accepted.flatten ∧
    (∀ v ∈ ends.tail, v ≠ Inlet.breach) ∧
    (∀ call : ReadCall, 0 < call.wanted →
      (t.inlet.unread ≠ [] → ∃ a o, t.answers call = some a ∧ a.value = .ok o ∧ o ≠ [] ∧
        o ++ a.after.unread = t.inlet.unread ∧ a.after.drained = false) ∧
      (t.inlet.unread = [] → ends ≠ [] → ∃ a, t.answers call = some a ∧
        a.value = Inlet.lastWord ends ∧ a.after.drained = true) ∧
      (t.inlet.unread = [] → ends = [] → ∀ a, t.answers call = some a →
        a.after = t.inlet ∧ a.reactions = [] ∧
          ((a.value = .error (.condition .closed) ∧ t.inlet.slot = .closed) ∨
            (a.value = .error (.condition (.interrupted .data)) ∧
              t.world.interrupted = true)))) ∧
    (∀ call : ReadCall, call.wanted = 0 →
      t.answers call = some { value := .ok [], after := t.inlet }) ∧
    (t.inlet.drained = true → ∀ later,
      let u := (start interrupted).run (events ++ later)
      brought (events ++ later) (start interrupted) = ends ∧
        u.returned = t.returned ∧ t.returned = t.accepted.flatten ∧
        ∀ call : ReadCall, 0 < call.wanted →
          u.answers call = some { value := Inlet.lastWord ends, after := u.inlet }) := by
  intro t ends
  have hsound : t.Sound := run_sound interrupted events
  have hwindowed : t.Windowed := run_windowed interrupted events
  have hends : t.inlet.ends = ends.foldl Inlet.amend [] := ends_of_brought interrupted events
  refine ⟨hsound.conserved, (start_windowed interrupted).breach_first events, ?_, ?_, ?_⟩
  · intro call hwanted
    refine ⟨hwindowed.answers_of_unread hwanted, hwindowed.answers_of_ends hwanted hends, ?_⟩
    intro hnothing hnone a hanswer
    exact hwindowed.answers_of_nothing hwanted (by rw [hends, hnone]; rfl) hnothing hanswer
  · intro call hwanted
    rw [answers, Inlet.answer_eq_read, hwanted, Inlet.read_zero]
  · intro hdrained later u
    have hu : u.Windowed := run_windowed interrupted (events ++ later)
    obtain ⟨hnothing, hstays⟩ := hwindowed.brought_of_drained hdrained later
    have hfinal : brought (events ++ later) (start interrupted) = ends := by
      rw [brought_append, hnothing, List.append_nil]
    have haccepted := hwindowed.run_accepted (hsound.orderly.drained_terminated hdrained) later
    rw [← run_append] at hstays haccepted
    have hall := hsound.returned_of_drained hdrained
    have hreturned := (run_sound interrupted (events ++ later)).returned_of_drained hstays
    refine ⟨hfinal, ?_, hall, fun call hwanted => ?_⟩
    · rw [hall, ← haccepted]
      exact hreturned
    · apply hu.answers_of_drained hstays ?_ hwanted
      rw [← hfinal]
      exact ends_of_brought interrupted (events ++ later)

/-- A failure takes the place of a completion that the reader has not seen, stands against the
error that follows it, and is told again after everything that is told of later. -/
theorem failure_after_completion_is_told :
    let publisher : Peer InletCue :=
      { name := "publisher", onRequest := [[.next [1, 2], .complete]] }
    let events : List InletEvent :=
      .begins (.subscribe publisher) :: List.replicate 6 (.proceeds 0) ++
        [.begins (.aside (.failure (.test "reset"))), .proceeds 0,
          .begins (.error (.test "late")), .proceeds 0, .reads (.upTo 2), .reads .byte]
    let later : List InletEvent :=
      [.begins .complete, .proceeds 0, .begins (.aside (.failure (.test "again"))), .proceeds 0,
        .begins (.next [3]), .proceeds 0, .begins (.aside .close), .proceeds 0, .reads (.upTo 1)]
    let t := (start false).run events
    let u := (start false).run (events ++ later)
    brought events (start false) =
        [.ok (), .error (.producer (.test "reset")), .error (.producer (.test "late"))] ∧
      t.inlet.drained = true ∧ u.returned = [1, 2] ∧
      u.answers (.upTo 5) =
        some { value := .error (.producer (.test "reset")), after := u.inlet } := by
  intro publisher events later t u
  have hends : brought events (start false) =
      [.ok (), .error (.producer (.test "reset")), .error (.producer (.test "late"))] := by
    decide +kernel
  have hdrained : t.inlet.drained = true := by decide +kernel
  have haccepted : t.accepted.flatten = [1, 2] := by decide +kernel
  obtain ⟨-, -, -, -, hend⟩ := run_comes_to_end false events
  obtain ⟨-, hkept, hall, hanswers⟩ := hend hdrained later
  have hreturned : u.returned = [1, 2] := by rw [hkept, hall, haccepted]
  have hanswer := hanswers (.upTo 5) (by decide)
  rw [hends] at hanswer
  exact ⟨hends, hdrained, hreturned, hanswer⟩

end InletTraffic
end CreditFlow
