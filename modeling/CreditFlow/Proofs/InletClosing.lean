import CreditFlow.Proofs.InletWindow
import Mathlib.Data.List.Infix

/-!
# Closing an inlet under traffic

What is left for the reader once an inlet has been closed.  No chunk is accepted any more,
so the bytes that were there when it was closed are all that will be read; and no call has
to wait, because behind the bytes there is an end that was told of, or the word that the
inlet is closed.

Closing does not settle which of the two it will be.  An inlet that is closed still listens
to the ends of its stream: as long as the reader has not come to the end, a completion or a
failure that is told of afterwards is put where the reader will find it, and a failure takes
the place of a completion that waits.  What was there when the inlet was closed is final
when nobody tells of an end afterwards, when a failure waits already, and when the reader
has come to the end.

Main results:

- {lit}`Inlet.heed_ends`: what an end that is told of makes of the ends that wait.
- {lit}`Inlet.read_of_closed`: what a closed inlet answers.
- {lit}`InletTraffic.Windowed.run_sealed`: which ends have been heard since an inlet was closed.
- {lit}`InletTraffic.run_after_closing`: the bytes, the answers, and the end.
-/

namespace CreditFlow

/-- The end of the stream that a cue tells of, if it tells of one. -/
def Cue.end? : InletCue → Option (Except Failure Unit)
  | .error cause => some (.error (.producer cause))
  | .complete => some (.ok ())
  | .aside (.failure cause) => some (.error (.producer cause))
  | _ => none

namespace Inlet

variable {ι : Type} {b : Inlet ι}

/-! ## Ends that are told of -/

/-- What becomes of the end that waits, if one does, when another one is told of.  A
failure takes the place of a completion; otherwise what came first stands. -/
def amend : List (Except Failure Unit) → Except Failure Unit → List (Except Failure Unit)
  | [], v => [v]
  | [.ok _], .error f => [.error f]
  | ends, _ => ends

/-- Ends that are told of in vain leave what waits as it is. -/
theorem foldl_amend_eq_self {ends vs : List (Except Failure Unit)}
    (hvain : ∀ v ∈ vs, amend ends v = ends) : vs.foldl amend ends = ends := by
  induction vs with
  | nil => rfl
  | cons v vs ih =>
      rw [List.foldl_cons, hvain v List.mem_cons_self]
      apply ih
      intro w hw
      exact hvain w (List.mem_cons_of_mem v hw)

/-- While the reader has not come to the end, the ends are the verdicts of the marks. -/
theorem Orderly.ends_of_unseen (h : b.Orderly) (hunseen : b.drained = false) :
    b.ends = b.marks.map Element.verdict := by
  have hverdict : b.verdict = none := by simpa [hunseen] using h.drained_eq.symm
  rw [ends, hverdict]
  rfl

/-- An end that has not been seen is the only one. -/
theorem Orderly.ends_of_ended (h : b.Orderly) (hend : b.terminated = true)
    (hunseen : b.drained = false) :
    ∃ e, e.isMark = true ∧ b.queue = b.chunks.map .data ++ [e] ∧ b.ends = [e.verdict] := by
  obtain ⟨e, hmark, hmarks⟩ := h.marks_eq_singleton hend hunseen
  refine ⟨e, hmark, ?_, ?_⟩
  · rw [← hmarks, ← h.queue_eq]
  · rw [h.ends_of_unseen hunseen, hmarks]
    rfl

/-- A failure is amended to the ends, unless the reader has come to one. -/
theorem failStream_ends (h : b.Orderly) (f : Failure) :
    (b.failStream f).1.ends = if b.drained then b.ends else amend b.ends (.error f) := by
  unfold failStream
  by_cases hdrained : b.drained = true
  · rw [if_pos hdrained, if_pos hdrained]
  · rw [if_neg hdrained, if_neg hdrained]
    have hunseen : b.drained = false := by simpa using hdrained
    by_cases hend : b.terminated = true
    · rw [if_pos hend]
      obtain ⟨e, hmark, hqueue, hends⟩ := h.ends_of_ended hend hunseen
      have hlast : b.queue.getLast? = some e := by simp [hqueue]
      rw [hlast, hends]
      cases e with
      | data chunk => simp at hmark
      | finish =>
          have hrest : b.queue.dropLast = b.chunks.map .data := by simp [hqueue]
          have hmarked : ({ b with queue := b.queue.dropLast ++ [.failure f] } : Inlet ι).Orderly :=
            h.mark hunseen (Element.isMark_failure f) (by rw [hrest]) hend rfl rfl
          have hmarks : marks { b with queue := b.queue.dropLast ++ [.failure f] } =
              [.failure f] := by simp [marks, hrest, List.filter_map]
          simp only
          rw [hmarked.ends_of_unseen hunseen, hmarks]
          rfl
      | failure g => exact hends
    · rw [if_neg hend]
      have hnone : b.ends = [] := h.ends_eq_nil (by simpa using hend)
      have hends : Inlet.ends { b with queue := b.queue ++ [.failure f], terminated := true } =
          b.ends ++ [.error f] := ends_of_mark (Element.isMark_failure f) rfl rfl
      rw [hends, hnone]
      rfl

/-- A completion is amended to the ends, unless the reader has come to one. -/
theorem completeStream_ends (h : b.Orderly) :
    b.completeStream.1.ends = if b.drained then b.ends else amend b.ends (.ok ()) := by
  unfold completeStream
  by_cases hend : b.terminated = true
  · rw [if_pos hend]
    by_cases hdrained : b.drained = true
    · rw [if_pos hdrained]
    · rw [if_neg hdrained]
      have hunseen : b.drained = false := by simpa using hdrained
      obtain ⟨e, -, -, hends⟩ := h.ends_of_ended hend hunseen
      rw [hends]
      cases e.verdict <;> rfl
  · rw [if_neg hend]
    have hopen : b.terminated = false := by simpa using hend
    have hends : Inlet.ends { b with queue := b.queue ++ [.finish], terminated := true } =
        b.ends ++ [.ok ()] := ends_of_mark Element.isMark_finish rfl rfl
    rw [hends, h.ends_eq_nil hopen, h.undrained hopen]
    rfl

/-- An end that is told of counts until the reader has come to the end; nothing else brings
an end about, unless more is delivered than was asked for. -/
theorem heed_ends (h : b.Orderly) {c : InletCue} (hmodest : ¬b.Overruns c) (fresh : ι) :
    (b.heed c fresh).ends = if b.drained then b.ends else c.end?.toList.foldl amend b.ends := by
  have hnothing : (if b.drained then b.ends else b.ends) = b.ends := ite_self _
  cases c with
  | subscribe peer =>
      refine Eq.trans ?_ hnothing.symm
      simp only [heed, subscribed]
      split <;> rfl
  | next chunk =>
      refine Eq.trans ?_ hnothing.symm
      simp only [heed, next]
      split
      · rename_i handle hslot hopen
        by_cases hcredit : b.credit = 0
        · exact absurd ⟨rfl, ⟨handle, hslot⟩, hopen, hcredit⟩ hmodest
        · rw [if_neg hcredit]
          split
          · rfl
          · simp [ends, marks]
      · rfl
  | error cause => exact failStream_ends (resolveMetadata_orderly h _ _) _
  | complete => exact completeStream_ends (resolveMetadata_orderly h _ _)
  | aside e =>
      cases e with
      | failure cause => exact failStream_ends (resolveMetadata_orderly h _ _) _
      | publish value => exact hnothing.symm
      | close =>
          refine Eq.trans ?_ hnothing.symm
          simp only [heed, close]
          split <;> rfl
      | interrupt => exact hnothing.symm

/-- Only the reader comes to the end. -/
theorem heed_drained (h : b.Orderly) (c : InletCue) (fresh : ι) :
    (b.heed c fresh).drained = b.drained := by
  rw [(heed_orderly h c fresh).drained_eq, (heed_reader c fresh b).2.1, h.drained_eq]

/-- The end is not taken back from a reader who has come to it. -/
theorem read_drained (h : b.Orderly) {n : Nat} {interrupted : Bool}
    {a : Answer ι (Except Failure Octets)} (hread : b.read n interrupted = some a)
    (hdrained : b.drained = true) : a.after.drained = true := by
  have hseen : b.verdict.isSome = true := by rw [← h.drained_eq, hdrained]
  have htake : ∀ (held : Except Failure Bool) (b' : Inlet ι),
      (takeUpTo n held b').2.drained = b'.drained := by
    intro held b'
    match held with
    | .ok true => rfl
    | .ok false => rfl
    | .error f => rfl
  rcases Nat.eq_zero_or_pos n with rfl | hn
  · cases hread
    exact hdrained
  · rcases hold_of_read hn hread with ⟨held, hhold, rfl⟩
    refine (htake _ _).trans ?_
    rcases hold_cases h hhold with ⟨-, rfl⟩ | ⟨-, hrefill⟩
    · exact hdrained
    · cases hrefill with
      | known v hverdict => exact hdrained
      | _ => simp_all

/-! ## What a closed inlet answers -/

/-- What a reader is told who comes to the end of a closed inlet. -/
def farewell (b : Inlet ι) : Except Failure Octets :=
  match b.ends with
  | [] => .error (.condition .closed)
  | v :: _ => v.map fun _ => []

/-- Behind a mark there is nothing but the end that it stands for. -/
theorem Orderly.farewell_of_mark (h : b.Orderly) (hcurrent : b.current = [])
    (hverdict : b.verdict = none) {e : Element} {rest : List Element} (hmark : e.isMark = true)
    (hqueue : b.queue = e :: rest) :
    b.unread = [] ∧ b.farewell = e.verdict.map fun _ => [] := by
  have hrest := h.queue_of_mark hmark hqueue
  subst hrest
  constructor
  · simp [unread, chunks, hcurrent, hqueue, Element.chunk?_of_isMark hmark]
  · have hmarks : b.marks = [e] := by simp [marks, hqueue, hmark]
    simp [farewell, ends, hverdict, hmarks]

/-- A closed inlet hands out what it has. -/
theorem refill_of_closed (h : b.Orderly) (hclosed : b.slot = .closed) (hcurrent : b.current = [])
    (interrupted : Bool) :
    ∃ a, b.refill interrupted = some a ∧
      ((a.value = .ok true ∧ a.after.current ≠ []) ∨
        (b.unread = [] ∧ ∀ n, (takeUpTo n a.value a.after).1 = b.farewell)) := by
  unfold refill
  cases hverdict : b.verdict with
  | some v =>
      have hdrained : b.drained = true := by simp [h.drained_eq, hverdict]
      have hfarewell : b.farewell = v.map fun _ => [] := by simp [farewell, ends, hverdict]
      cases v with
      | ok u => exact ⟨_, rfl, .inr ⟨h.drained_unread hdrained, fun n => hfarewell.symm⟩⟩
      | error f => exact ⟨_, rfl, .inr ⟨h.drained_unread hdrained, fun n => hfarewell.symm⟩⟩
  | none =>
      cases hqueue : b.queue with
      | nil =>
          have hnothing : b.unread = [] := by simp [unread, chunks, hcurrent, hqueue]
          have hfarewell : b.farewell = .error (.condition .closed) := by
            simp [farewell, ends, hverdict, marks, hqueue]
          simp only [hclosed]
          exact ⟨_, rfl, .inr ⟨hnothing, fun n => hfarewell.symm⟩⟩
      | cons e rest =>
          cases e with
          | data chunk =>
              have hchunk : chunk ≠ [] := h.chunks_ne chunk (by simp [chunks, hqueue])
              simp only [hclosed]
              exact ⟨_, rfl, .inl ⟨rfl, hchunk⟩⟩
          | finish =>
              obtain ⟨hnothing, hfarewell⟩ :=
                h.farewell_of_mark hcurrent hverdict Element.isMark_finish hqueue
              exact ⟨_, rfl, .inr ⟨hnothing, fun n => hfarewell.symm⟩⟩
          | failure f =>
              obtain ⟨hnothing, hfarewell⟩ :=
                h.farewell_of_mark hcurrent hverdict (Element.isMark_failure f) hqueue
              exact ⟨_, rfl, .inr ⟨hnothing, fun n => hfarewell.symm⟩⟩

/-- A call for some bytes of a closed inlet never waits: it returns the next bytes, and the
end when there are none. -/
theorem read_of_closed (h : b.Orderly) (hclosed : b.slot = .closed) {n : Nat} (hn : 0 < n)
    (interrupted : Bool) :
    ∃ a, b.read n interrupted = some a ∧
      (b.unread ≠ [] → ∃ o, o ≠ [] ∧ a.value = .ok o ∧ o ++ a.after.unread = b.unread) ∧
      (b.unread = [] → a.value = b.farewell) := by
  have htaken : ∀ c : Octets, c ≠ [] → c.take n ≠ [] := by
    intro c hc hnil
    rcases List.take_eq_nil_iff.mp hnil with hzero | hnil
    · omega
    · exact hc hnil
  have hread : ∀ held, b.hold interrupted = some held →
      b.read n interrupted = some (held.andThen (takeUpTo n)) := by
    intro held hhold
    rw [read, if_neg (by omega), hhold]
    rfl
  by_cases hcurrent : b.current = []
  · obtain ⟨held, hrefill, hcases⟩ := refill_of_closed h hclosed hcurrent interrupted
    have hhold : b.hold interrupted = some held := by simp [hold, hcurrent, hrefill]
    have hanswer := hread held hhold
    have hkept := read_unread h hanswer
    refine ⟨_, hanswer, ?_⟩
    rcases hcases with ⟨hvalue, hheld⟩ | ⟨hnothing, hfarewell⟩
    · have hbytes : (held.andThen (takeUpTo n)).value = .ok (held.after.current.take n) := by
        simp [Answer.andThen, hvalue, takeUpTo]
      rw [hbytes] at hkept
      constructor
      · intro _
        exact ⟨_, htaken _ hheld, hbytes, hkept⟩
      · intro hnothing
        rw [hnothing] at hkept
        exact absurd (List.append_eq_nil_iff.mp hkept).1 (htaken _ hheld)
    · constructor
      · intro hsome
        exact absurd hnothing hsome
      · intro _
        exact hfarewell n
  · have hhold : b.hold interrupted = some { value := .ok true, after := b } := by
      simp [hold, hcurrent]
    have hanswer := hread _ hhold
    have hkept := read_unread h hanswer
    refine ⟨_, hanswer, ?_, ?_⟩
    · intro _
      exact ⟨b.current.take n, htaken _ hcurrent, rfl, hkept⟩
    · intro hnothing
      exact absurd (List.append_eq_nil_iff.mp hnothing).1 hcurrent

end Inlet

/-! ## Since the inlet was closed -/

namespace InletTraffic

variable {before t : InletTraffic}

/-- A reading call returns further bytes, and nothing takes bytes back. -/
theorem returned_prefix_step (t : InletTraffic) (e : InletEvent) :
    t.returned <+: (t.step e).returned := by
  cases e with
  | begins c => exact List.prefix_refl _
  | proceeds place =>
      rcases proceeds_cases place t with hkept | ⟨task, hafter⟩
      · rw [hkept]
      · rw [hafter]
        cases task <;> exact List.prefix_refl _
  | reads call =>
      rcases read_cases call t with ⟨-, hkept⟩ | ⟨a, -, hafter⟩
      · rw [step, hkept]
      · rw [step, hafter]
        exact List.prefix_append _ _
  | readerLeaves => exact List.prefix_refl _

/-- What was returned is not taken back. -/
theorem returned_prefix_run (events : List InletEvent) (t : InletTraffic) :
    t.returned <+: (t.run events).returned :=
  @run_keeps (fun u => t.returned <+: u.returned)
    (fun e h => h.trans (returned_prefix_step _ e)) t (List.prefix_refl _) events

/-- Since `before` the inlet has been closed, and of what was told to it since then the ends
that were `heard` count: all of them until the reader comes to the end, and none after
that. -/
structure Sealed (before t : InletTraffic) : Prop extends Shut before t where
  ending : ∃ heard missed, t.told = before.told ++ (heard ++ missed) ∧
    (t.inlet.drained = false → missed = []) ∧
    (before.inlet.drained = true → t.inlet.drained = true ∧ heard = []) ∧
    t.inlet.ends = (heard.filterMap Cue.end?).foldl Inlet.amend before.inlet.ends

/-- A closed inlet is sealed from the moment of its closing. -/
theorem Windowed.sealed (h : t.Windowed) (hclosed : t.inlet.slot = .closed) : Sealed t t :=
  ⟨h.shut hclosed, [], [], by simp, fun _ => rfl, fun hdrained => ⟨hdrained, rfl⟩, rfl⟩

/-- Whatever happens leaves a closed inlet sealed. -/
theorem Sealed.step (h : Sealed before t) (e : InletEvent) : Sealed before (t.step e) := by
  refine ⟨h.toShut.step e, ?_⟩
  obtain ⟨heard, missed, htold', hopen, hseen, hends⟩ := h.ending
  cases turn_step h.toAddressed e with
  | rests hinlet htold haccepted hissued =>
      rw [hinlet, htold]
      exact ⟨heard, missed, htold', hopen, hseen, hends⟩
  | heeds c hcue hinlet htold haccepted hissued =>
      have hmodest : ¬t.inlet.Overruns c := by
        rintro ⟨-, ⟨handle, hslot⟩, -⟩
        rw [h.closed] at hslot
        cases hslot
      have hafter := Inlet.heed_ends h.orderly hmodest t.world.peers.length
      have hdrained := Inlet.heed_drained h.orderly c t.world.peers.length
      rw [hinlet, htold, hdrained, hafter, htold']
      by_cases hover : t.inlet.drained = true
      · rw [if_pos hover]
        refine ⟨heard, missed ++ [c], by simp, ?_, hseen, hends⟩
        intro hunseen
        rw [hover] at hunseen
        cases hunseen
      · have hunseen : t.inlet.drained = false := by simpa using hover
        have hnone := hopen hunseen
        subst hnone
        rw [if_neg hover, hends]
        refine ⟨heard ++ [c], [], by simp, fun _ => rfl, ?_, ?_⟩
        · intro hbefore
          exact absurd (hseen hbefore).1 hover
        · rw [List.filterMap_append, List.foldl_append]
          cases hend : c.end? with
          | none => simp [hend]
          | some v => simp [hend]
  | reads n a hread hinlet htold haccepted hissued =>
      rw [hinlet, htold, Inlet.read_ends h.orderly hread]
      have hlater := Inlet.read_drained h.orderly hread
      refine ⟨heard, missed, htold', ?_, ?_, hends⟩
      · intro hunseen
        apply hopen
        by_contra hover
        rw [hlater (by simpa using hover)] at hunseen
        cases hunseen
      · intro hbefore
        exact ⟨hlater (hseen hbefore).1, (hseen hbefore).2⟩
  | leaves hinlet htold haccepted hissued =>
      have hkept : t.inlet.dropReader.1.ends = t.inlet.ends ∧
          t.inlet.dropReader.1.drained = t.inlet.drained := by
        simp only [Inlet.dropReader, Inlet.close, h.closed]
        exact ⟨rfl, trivial⟩
      rw [hinlet, htold, hkept.1, hkept.2]
      exact ⟨heard, missed, htold', hopen, hseen, hends⟩

/-- However traffic goes on at a closed inlet, the ends that were heard since account for the
end that its reader will come to. -/
theorem Windowed.run_sealed (h : t.Windowed) (hclosed : t.inlet.slot = .closed)
    (events : List InletEvent) : Sealed t (t.run events) :=
  run_keeps (fun e hsealed => hsealed.step e) (h.sealed hclosed) events

/-- The bytes that were there when the inlet was closed are all that is read afterwards. -/
theorem Sealed.conserved (hearlier : before.returned <+: t.returned) (h : Sealed before t)
    (hbefore : before.Sound) (ht : t.Sound) :
    ∃ taken, t.returned = before.returned ++ taken ∧
      taken ++ t.inlet.unread = before.inlet.unread := by
  obtain ⟨taken, htaken⟩ := hearlier
  refine ⟨taken, htaken.symm, ?_⟩
  have hsame : t.returned ++ t.inlet.unread = before.returned ++ before.inlet.unread := by
    rw [ht.conserved, hbefore.conserved, h.refused]
  rw [← htaken, List.append_assoc] at hsame
  exact List.append_cancel_left hsame

/-- The end is final for a reader who has come to it, and as long as what is told of ends is
told in vain. -/
theorem Sealed.farewell_eq (h : Sealed before t)
    (hfinal : before.inlet.drained = true ∨
      ∀ v ∈ (t.told.drop before.told.length).filterMap Cue.end?,
        Inlet.amend before.inlet.ends v = before.inlet.ends) :
    t.inlet.farewell = before.inlet.farewell := by
  obtain ⟨heard, missed, htold, -, hseen, hends⟩ := h.ending
  have hkept : t.inlet.ends = before.inlet.ends := by
    rw [hends]
    apply Inlet.foldl_amend_eq_self
    rcases hfinal with hdrained | hvain
    · rw [(hseen hdrained).2]
      simp
    · intro v hv
      apply hvain
      rw [htold, List.drop_left, List.filterMap_append]
      exact List.mem_append_left _ hv
  rw [Inlet.farewell, Inlet.farewell, hkept]

/-- What the reader is answered when it makes a call now, unless the call has to wait. -/
def answers (call : ReadCall) (t : InletTraffic) :
    Option (Inlet.Answer Nat (Except Failure Octets)) :=
  t.inlet.answer call t.world.interrupted

/-- Once an inlet is closed, whatever happens and in whatever order:

- what is read is taken from the bytes that were there when it was closed, in order;
- no call has to wait, and one that asks for something returns some of these bytes, or when
  none is left the end, or that the inlet is closed;
- that end is made of the one that was there when the inlet was closed and of those that were
  told of afterwards, until the reader had come to it;
- so it is the one that was there when the inlet was closed, or that the inlet is closed, if
  the reader had come to it then, and if every end that is told of afterwards is told in
  vain. -/
theorem run_after_closing (interrupted : Bool) (events : List InletEvent)
    (hclosed : ((start interrupted).run events).inlet.slot = .closed) (later : List InletEvent) :
    let t := (start interrupted).run events
    let u := t.run later
    (∃ taken, u.returned = t.returned ++ taken ∧ taken ++ u.inlet.unread = t.inlet.unread) ∧
    (∀ call : ReadCall, 0 < call.wanted →
      ∃ a, u.answers call = some a ∧
        (u.inlet.unread ≠ [] → ∃ o, o ≠ [] ∧ a.value = .ok o ∧ o <+: u.inlet.unread) ∧
        (u.inlet.unread = [] → a.value = u.inlet.farewell)) ∧
    (∃ heard missed, u.told = t.told ++ (heard ++ missed) ∧
      (u.inlet.drained = false → missed = []) ∧
      u.inlet.ends = (heard.filterMap Cue.end?).foldl Inlet.amend t.inlet.ends) ∧
    ((t.inlet.drained = true ∨
        ∀ v ∈ (u.told.drop t.told.length).filterMap Cue.end?,
          Inlet.amend t.inlet.ends v = t.inlet.ends) →
      u.inlet.farewell = t.inlet.farewell) := by
  intro t u
  have hsealed : Sealed t u := (run_windowed interrupted events).run_sealed hclosed later
  have hsound : u.Sound := by
    have hall := run_sound interrupted (events ++ later)
    rwa [run_append] at hall
  refine ⟨hsealed.conserved (returned_prefix_run later t) (run_sound interrupted events) hsound,
    ?_, ?_, hsealed.farewell_eq⟩
  · intro call hwanted
    obtain ⟨a, hread, hsome, hnone⟩ :=
      Inlet.read_of_closed hsealed.orderly hsealed.closed hwanted u.world.interrupted
    refine ⟨a, ?_, ?_, hnone⟩
    · rw [answers, Inlet.answer_eq_read, hread]
    · intro hunread
      obtain ⟨o, ho, hvalue, hrest⟩ := hsome hunread
      exact ⟨o, ho, hvalue, a.after.unread, hrest⟩
  · obtain ⟨heard, missed, htold, hopen, -, hends⟩ := hsealed.ending
    exact ⟨heard, missed, htold, hopen, hends⟩

/-- A publisher that is cancelled while one of its bytes waits goes on from inside the
cancellation with a chunk, and with a subscription that comes too late. -/
theorem nested_run_after_closing :
    let publisher : Peer InletCue :=
      { name := "publisher"
        onRequest := [[.next [1, 2, 3]]]
        onCancel := [[.next [9], .subscribe { name := "late" }, .aside (.publish "meta")]] }
    let events : List InletEvent :=
      .begins (.subscribe publisher) :: List.replicate 6 (.proceeds 0) ++
        [.reads (.upTo 2), .begins (.aside .close), .proceeds 0]
    let later : List InletEvent := List.replicate 14 (.proceeds 0) ++ [.reads .byte]
    let t := (start false).run events
    let u := t.run later
    t.inlet.slot = .closed ∧ t.inlet.unread = [3] ∧ (u.told.drop t.told.length).length = 3 ∧
      u.returned = [1, 2, 3] ∧ u.inlet.farewell = .error (.condition .closed) ∧
      ∀ call : ReadCall, 0 < call.wanted →
        ∃ a, u.answers call = some a ∧
          a.value = .error (.condition .closed) := by
  intro publisher events later t u
  have hclosed : t.inlet.slot = .closed := by decide +kernel
  have hunread : t.inlet.unread = [3] := by decide +kernel
  have hreturned : t.returned = [1, 2] := by decide +kernel
  have hnothing : u.inlet.unread = [] := by decide +kernel
  have hunended : t.inlet.farewell = .error (.condition .closed) := by decide +kernel
  have hvain : ∀ v ∈ (u.told.drop t.told.length).filterMap Cue.end?,
      Inlet.amend t.inlet.ends v = t.inlet.ends := by decide +kernel
  have htold : (u.told.drop t.told.length).length = 3 := by decide +kernel
  obtain ⟨⟨taken, hlater, htaken⟩, hanswers, -, hfinal⟩ :=
    run_after_closing false events hclosed later
  have hfarewell : u.inlet.farewell = .error (.condition .closed) :=
    (hfinal (.inr hvain)).trans hunended
  have hbytes : u.returned = [1, 2, 3] := by
    have hrest : taken ++ u.inlet.unread = t.inlet.unread := htaken
    rw [hnothing, hunread, List.append_nil] at hrest
    have hall : u.returned = t.returned ++ taken := hlater
    rw [hall, hreturned, hrest]
    rfl
  have hend : ∀ call : ReadCall, 0 < call.wanted →
      ∃ a, u.answers call = some a ∧
        a.value = .error (.condition .closed) := by
    intro call hwanted
    obtain ⟨a, hanswer, -, hend⟩ := hanswers call hwanted
    exact ⟨a, hanswer, (hend hnothing).trans hfarewell⟩
  exact ⟨hclosed, hunread, htold, hbytes, hfarewell, hend⟩

/-- Closing does not settle the end.  When nothing was left and no end had been told of, the
reader is told that the inlet is closed; after a completion that comes late, the same call
reports the end of the stream. -/
theorem completion_after_closing_is_heard :
    let t := (start false).run
      [.begins (.subscribe { name := "publisher" }), .proceeds 0, .begins (.aside .close),
        .proceeds 0]
    let u := t.run [.begins .complete, .proceeds 0]
    t.inlet.slot = .closed ∧ t.inlet.unread = [] ∧ t.inlet.ends = [] ∧
      (t.inlet.read 1 false).map (·.value) = some (.error (.condition .closed)) ∧
      (u.inlet.read 1 false).map (·.value) = some (.ok []) := by
  intro t u
  have hbefore : t.inlet.slot = .closed ∧ t.inlet.unread = [] ∧ t.inlet.ends = [] := by
    decide +kernel
  refine ⟨hbefore.1, hbefore.2.1, hbefore.2.2, ?_, ?_⟩
  · decide +kernel
  · decide +kernel

end InletTraffic
end CreditFlow
