import CreditFlow.Proofs.CellWaking
import CreditFlow.Proofs.InletCancellation
import CreditFlow.Proofs.InletMetadata
import CreditFlow.Proofs.Publication

/-!
# Views of the metadata

Whoever wants the metadata of an inlet may look whether it is there, block until it is, or hold
a waiter and poll it whenever it is woken.  All of them see the same: nothing as long as nobody
has said anything about the metadata, and from then on what was said first.

The stream goes its own way beside that.  What its reader is answered, and the calls that reach
the subscriptions, are the same whether or not anything is published, and whether or not
anybody asks for it.

Main results:

- {lit}`InletTraffic.run_metadata`: the metadata is what was said about it first.
- {lit}`MetadataTraffic.Awake.run`: nobody who waits for the metadata sleeps beside it.
- {lit}`MetadataTraffic.run_views`: the metadata under traffic, and traffic without it.
-/

namespace CreditFlow

/-! ## What is said about the metadata -/

namespace Cue

/-- What a cue says about the metadata, as whoever asks for it will be told. -/
def metadata? : InletCue → Option (Except Failure String)
  | .aside (.publish value) => some (.ok value)
  | .aside (.failure cause) => some (.error (.producer cause))
  | .error cause => some (.error (.producer cause))
  | .complete => some (.error (.condition .missingMetadata))
  | _ => none

/-- What a cue says about the metadata is what a cell would tell that it resolved. -/
theorem metadata?_eq (c : InletCue) : c.metadata? = c.settlement?.bind Cell.result? := by
  cases c with
  | aside e => cases e <;> rfl
  | _ => rfl

/-- What was said first decides. -/
theorem findSome?_metadata? (told : List InletCue) :
    told.findSome? metadata? = (told.findSome? settlement?).bind Cell.result? := by
  induction told with
  | nil => rfl
  | cons c told ih =>
      rw [List.findSome?_cons, List.findSome?_cons, metadata?_eq]
      cases hsettles : c.settlement? with
      | none => exact ih
      | some outcome =>
          have hresolved := settlement?_resolved hsettles
          cases outcome with
          | pending => cases hresolved
          | _ => rfl

end Cue

/-- In every run the metadata is what was said about it first. -/
theorem InletTraffic.run_metadata (interrupted : Bool) (events : List InletEvent) :
    ((start interrupted).run events).inlet.metadata? =
      ((start interrupted).run events).told.findSome? Cue.metadata? := by
  obtain ⟨sections, hinlet, harrived⟩ := Overlap.run_of_traffic interrupted events
  have hmetadata := (Overlap.run_settled (ι := Nat) sections).metadata
  rw [hinlet, Overlap.settled, harrived] at hmetadata
  rw [Inlet.metadata?, hmetadata, Cue.findSome?_metadata?]
  cases ((start interrupted).run events).told.findSome? Cue.settlement? <;> rfl

/-! ## Waiters -/

namespace Waiter

variable {α : Type} {cell : Cell α}

/-- As long as a cell is pending a poll brings nothing. -/
theorem poll_of_pending (hpending : cell.result? = none) (w : Waiter) :
    (w.poll cell).2 = none := by
  rcases register_cases w with ⟨-, hregister⟩ | ⟨-, hregister⟩
  · rw [poll, hregister]
    rfl
  · rw [poll, hregister]
    simp [look, hpending]

/-- Whoever does not sleep finds the result of a resolved cell at the next poll. -/
theorem poll_of_result {r : Except Failure α} (hresult : cell.result? = some r) {w : Waiter}
    (hawake : w ≠ .suspended false) : w.poll cell = (.idle, some r) := by
  rcases register_cases w with ⟨hasleep, -⟩ | ⟨-, hregister⟩
  · exact absurd hasleep hawake
  · rw [poll, hregister]
    simp [look, hresult]

end Waiter

/-! ## Traffic with calls for the metadata -/

/-- One thing that happens at an inlet, or a call for its metadata. -/
inductive MetadataEvent where
  | happens (e : InletEvent)
  /-- Somebody blocks until the metadata is there, while the token was fired or not.  A call that
  would have to wait does nothing yet. -/
  | asks (fired : Bool)
  /-- Somebody looks whether the metadata is there. -/
  | looks
  /-- Somebody sets about waiting for the metadata, poll by poll. -/
  | awaits
  /-- One of those who wait polls, woken or not. -/
  | polls (place : Nat)

/-- Traffic at an inlet, and those who wait for its metadata poll by poll. -/
structure MetadataTraffic where
  traffic : InletTraffic := {}
  waiters : List Waiter := []

/-- What happens at the inlet in a run, but for the calls for its metadata. -/
def MetadataEvent.happenings (events : List MetadataEvent) : List InletEvent :=
  events.filterMap fun
    | .happens e => some e
    | _ => none

namespace MetadataTraffic

variable {t : MetadataTraffic}

/-- Nothing has happened yet. -/
def start (interrupted : Bool) : MetadataTraffic :=
  { traffic := .start interrupted }

/-- The inlet itself. -/
def inlet (t : MetadataTraffic) : Inlet Nat := t.traffic.inlet

/-- What an event does. -/
def step (t : MetadataTraffic) : MetadataEvent → MetadataTraffic
  | .happens e =>
      { traffic := t.traffic.step e
        waiters := t.waiters.map (Reader.overhear t.traffic.world (t.traffic.step e).world) }
  | .asks fired => { t with traffic := t.traffic.ask .metadata fired }
  | .looks => t
  | .awaits => { t with waiters := t.waiters ++ [.idle] }
  | .polls place =>
      match t.waiters[place]? with
      | none => t
      | some w => { t with waiters := t.waiters.set place (w.poll t.inlet.metadata).1 }

/-- What a call for bytes answers, if an event is one. -/
def reading? (t : MetadataTraffic) : MetadataEvent → Option (Option (Except Failure Octets))
  | .happens e => t.traffic.reading? e
  | _ => none

/-- Traffic, with what the reader is answered. -/
def reader : Party MetadataTraffic MetadataEvent (Option (Option (Except Failure Octets))) where
  step := step
  reply := reading?

/-- What a list of events comes to. -/
def run (events : List MetadataEvent) (t : MetadataTraffic) : MetadataTraffic :=
  reader.run events t

/-- What the calls for bytes of a run answer, in order. -/
def readings (events : List MetadataEvent) (t : MetadataTraffic) :
    List (Option (Except Failure Octets)) :=
  (reader.replies events t).reduceOption

/-- What is left of a run from the beginning when the metadata is left out. -/
def remainder (interrupted : Bool) (events : List MetadataEvent) : List InletEvent :=
  InletTraffic.plainEvents (MetadataEvent.happenings events) (.start interrupted)

theorem run_cons (e : MetadataEvent) (events : List MetadataEvent) (t : MetadataTraffic) :
    t.run (e :: events) = (t.step e).run events := rfl

theorem run_append (first second : List MetadataEvent) (t : MetadataTraffic) :
    t.run (first ++ second) = (t.run first).run second :=
  List.foldl_append

/-! ## The stream beside the metadata -/

/-- The calls for the metadata do nothing to the inlet, and its reader is not answered
otherwise. -/
theorem run_happenings (events : List MetadataEvent) (t : MetadataTraffic) :
    (t.run events).traffic = t.traffic.run (MetadataEvent.happenings events) ∧
      readings events t =
        InletTraffic.readings (MetadataEvent.happenings events) t.traffic := by
  induction events generalizing t with
  | nil => exact ⟨rfl, rfl⟩
  | cons e events ih =>
      obtain ⟨hrun, hreadings⟩ := ih (t.step e)
      have hquiet : (t.step e).traffic = t.traffic → t.reading? e = none →
          MetadataEvent.happenings (e :: events) = MetadataEvent.happenings events →
          (t.run (e :: events)).traffic =
              t.traffic.run (MetadataEvent.happenings (e :: events)) ∧
            readings (e :: events) t =
              InletTraffic.readings (MetadataEvent.happenings (e :: events)) t.traffic := by
        intro hsame hnone hrest
        rw [hsame] at hrun hreadings
        have hskip : readings (e :: events) t = readings events (t.step e) := by
          change (t.reading? e :: _).reduceOption = _
          rw [hnone]
          rfl
        rw [hrest, run_cons, hskip]
        exact ⟨hrun, hreadings⟩
      cases e with
      | happens e =>
          refine ⟨hrun, ?_⟩
          change (t.traffic.reading? e :: _).reduceOption = (t.traffic.reading? e :: _).reduceOption
          have hrest : (reader.replies events (t.step (.happens e))).reduceOption =
              (InletTraffic.reader.replies (MetadataEvent.happenings events)
                (t.traffic.step e)).reduceOption := hreadings
          cases t.traffic.reading? e with
          | none => exact hrest
          | some r => exact congrArg (r :: ·) hrest
      | asks fired => exact hquiet (InletTraffic.ask_metadata fired t.traffic) rfl rfl
      | looks => exact hquiet rfl rfl rfl
      | awaits => exact hquiet rfl rfl rfl
      | polls place =>
          refine hquiet ?_ rfl rfl
          simp only [step]
          split <;> rfl

/-! ## Those who wait -/

/-- Nobody sleeps beside metadata that is there. -/
def Awake (t : MetadataTraffic) : Prop :=
  t.inlet.metadata.isPending = false → ∀ w ∈ t.waiters, w ≠ .suspended false

/-- Whatever happens, those who sleep are woken when the metadata is resolved. -/
theorem Awake.step (h : t.Awake) (e : MetadataEvent) : (t.step e).Awake := by
  intro hresolved w hw
  cases e with
  | happens e =>
      obtain ⟨before, hbefore, rfl⟩ := List.mem_map.mp hw
      have hafter : (Reader.cell (t.traffic.step e).world).isPending = false := hresolved
      unfold Reader.overhear
      rw [hafter]
      cases hpending : (Reader.cell t.traffic.world).isPending with
      | true => exact Waiter.notify_ne_sleeping before
      | false => exact h hpending before hbefore
  | asks fired =>
      have hsame : t.step (.asks fired) = t := by
        simp only [MetadataTraffic.step, InletTraffic.ask_metadata]
      rw [hsame] at hresolved hw
      exact h hresolved w hw
  | looks => exact h hresolved w hw
  | awaits =>
      rcases List.mem_append.mp hw with hbefore | hnew
      · exact h hresolved w hbefore
      · rw [List.mem_singleton.mp hnew]
        simp
  | polls place =>
      simp only [MetadataTraffic.step] at hresolved hw
      cases hplace : t.waiters[place]? with
      | none =>
          rw [hplace] at hresolved hw
          exact h hresolved w hw
      | some poller =>
          rw [hplace] at hresolved hw
          rcases List.mem_or_eq_of_mem_set hw with hbefore | rfl
          · exact h hresolved w hbefore
          · -- A poll beside a resolved cell is over.
            have hpoller := h hresolved poller (List.mem_of_getElem? hplace)
            obtain ⟨r, hr⟩ := (Cell.resolved_iff t.inlet.metadata).mp hresolved
            rw [Waiter.poll_of_result hr hpoller]
            simp

theorem start_awake (interrupted : Bool) : (start interrupted).Awake := by
  intro hresolved
  cases hresolved

/-- Whatever happens, nobody falls asleep beside metadata that is there. -/
theorem Awake.run (h : t.Awake) (events : List MetadataEvent) : (t.run events).Awake := by
  induction events generalizing t with
  | nil => exact h
  | cons e events ih => exact ih (h.step e)

/-! ## Runs -/

/-- What can be put into a run: a publication that goes through at once, and calls for the
metadata. -/
inductive Insertable : List MetadataEvent → Prop where
  | publication (value : String) :
      Insertable ((InletTraffic.publication value).map .happens)
  | calls (added : List MetadataEvent) (hcalls : MetadataEvent.happenings added = []) :
      Insertable added

/-- Of a run into which that was put the same is left. -/
theorem Insertable.remainder {added : List MetadataEvent} (h : Insertable added)
    (interrupted : Bool) (first rest : List MetadataEvent) :
    remainder interrupted (first ++ added ++ rest) = remainder interrupted (first ++ rest) := by
  have happend : ∀ events others : List MetadataEvent,
      MetadataEvent.happenings (events ++ others) =
        MetadataEvent.happenings events ++ MetadataEvent.happenings others := fun _ _ =>
    List.filterMap_append
  unfold MetadataTraffic.remainder
  rw [happend, happend, happend]
  cases h with
  | publication value =>
      have hadded : MetadataEvent.happenings ((InletTraffic.publication value).map .happens) =
          InletTraffic.publication value := rfl
      rw [hadded, InletTraffic.plainEvents_publication]
  | calls _ hcalls => rw [hcalls, List.append_nil]

/-- Runs of which the same is left answer the same to whoever reads, and the same calls reach
the subscriptions. -/
theorem alike_of_remainder {interrupted : Bool} {events others : List MetadataEvent}
    (hsame : remainder interrupted events = remainder interrupted others) :
    readings events (start interrupted) = readings others (start interrupted) ∧
      ((start interrupted).run events).traffic.world.calls =
        ((start interrupted).run others).traffic.world.calls := by
  obtain ⟨hplain, hreadings⟩ := InletTraffic.run_alike rfl hsame
  obtain ⟨hrun, hanswered⟩ := run_happenings events (start interrupted)
  obtain ⟨hrun', hanswered'⟩ := run_happenings others (start interrupted)
  refine ⟨hanswered.trans (hreadings.trans hanswered'.symm), ?_⟩
  rw [hrun, hrun']
  have hcalls := congrArg (fun u : InletTraffic => u.world.calls) hplain
  exact hcalls

/-- Of every run the same is left as of one in which nothing is published, and nobody asks for
the metadata. -/
theorem exists_remainder (interrupted : Bool) (events : List MetadataEvent) :
    ∃ others, remainder interrupted others = remainder interrupted events ∧
      ∀ e ∈ others, ∃ d, e = .happens d ∧ ∀ c, d = .begins c → c.plain? = some c := by
  obtain ⟨others, hothers, hquiet⟩ := InletTraffic.exists_plain (t := .start interrupted)
    (MetadataEvent.happenings events) rfl
  have hhappenings : MetadataEvent.happenings (others.map .happens) = others := by
    rw [MetadataEvent.happenings, List.filterMap_map]
    exact List.filterMap_some
  refine ⟨others.map .happens, ?_, ?_⟩
  · rw [remainder, hhappenings]
    exact hothers
  · intro e he
    obtain ⟨d, hd, rfl⟩ := List.mem_map.mp he
    refine ⟨d, rfl, ?_⟩
    rintro c rfl
    exact hquiet c hd

/-- In every run of signals, failures, closings and reading calls, among which the metadata is
asked for in any of the three ways:

- as long as nobody has said anything about the metadata there is none, and whoever asks for it
  waits;
- from then on it is what was said about it first, for whoever asks for it in whatever way,
  and whatever happens later: who looks, who blocks, who has waited and who sets about waiting;
- runs of which the same is left when the metadata is left out answer the same to whoever
  reads, and the same calls reach the subscriptions;
- the same is left if publications and calls for the metadata are put in anywhere, and of every
  run the same is left as of one in which nothing is published, not even inside a call, and
  nobody asks for the metadata. -/
theorem run_views (interrupted : Bool) (events : List MetadataEvent) :
    let t := (start interrupted).run events
    (t.traffic.told.findSome? Cue.metadata? = none →
      t.inlet.metadata? = none ∧ t.inlet.awaitMetadata false = none ∧
        ∀ w : Waiter, (w.poll t.inlet.metadata).2 = none) ∧
    (∀ r, t.traffic.told.findSome? Cue.metadata? = some r → ∀ later,
      let u := t.run later
      u.inlet.metadata? = some r ∧
        (∀ fired, u.inlet.awaitMetadata fired = some { value := r, after := u.inlet }) ∧
        ∀ w, w = .idle ∨ w ∈ u.waiters → w.poll u.inlet.metadata = (.idle, some r)) ∧
    (∀ others, remainder interrupted others = remainder interrupted events →
      readings others (start interrupted) = readings events (start interrupted) ∧
        ((start interrupted).run others).traffic.world.calls = t.traffic.world.calls) ∧
    (∀ first rest added, events = first ++ rest → Insertable added →
      remainder interrupted (first ++ added ++ rest) = remainder interrupted events) ∧
    ∃ others, remainder interrupted others = remainder interrupted events ∧
      ∀ e ∈ others, ∃ d, e = .happens d ∧ ∀ c, d = .begins c → c.plain? = some c := by
  intro t
  have htraffic : ∀ events, ((start interrupted).run events).traffic =
      (InletTraffic.start interrupted).run (MetadataEvent.happenings events) := fun events =>
    (run_happenings events (start interrupted)).1
  have hmetadata : ∀ events, ((start interrupted).run events).inlet.metadata? =
      ((start interrupted).run events).traffic.told.findSome? Cue.metadata? := by
    intro events
    rw [inlet, htraffic]
    exact InletTraffic.run_metadata interrupted _
  refine ⟨fun hsilent => ?_, fun r hsaid later => ?_, fun others hsame => alike_of_remainder hsame,
    fun first rest added hevents hadded => ?_, exists_remainder interrupted events⟩
  · have hpending : t.inlet.metadata? = none := (hmetadata events).trans hsilent
    exact ⟨hpending, (Overlap.awaited_of_pending hpending).1, Waiter.poll_of_pending hpending⟩
  · intro u
    have hrun : u = (start interrupted).run (events ++ later) :=
      (run_append events later (start interrupted)).symm
    -- What was said first stays what was said first.
    have hprefix : t.traffic.told <+: u.traffic.told := by
      have hlater : u.traffic = t.traffic.run (MetadataEvent.happenings later) :=
        (run_happenings later t).1
      rw [hlater, htraffic events]
      exact InletTraffic.told_prefix_run (InletTraffic.run_windowed interrupted _) _
    have hresult : u.inlet.metadata? = some r := by
      rw [hrun, hmetadata, ← hrun]
      exact hprefix.findSome?_eq_some hsaid
    have hawake : u.Awake := (start_awake interrupted).run events |>.run later
    have hresolved : u.inlet.metadata.isPending = false :=
      (Cell.resolved_iff _).mpr ⟨r, hresult⟩
    refine ⟨hresult, (Overlap.there_of_result hresult).1, ?_⟩
    rintro w (rfl | hw)
    · exact (Overlap.there_of_result hresult).2
    · exact Waiter.poll_of_result hresult (hawake hresolved w hw)
  · rw [hevents]
    exact hadded.remainder interrupted first rest

/-- Somebody polls before anything is published.  Then one value is published from outside, and
another one from inside the call that asks for the first chunk; the publisher fails from inside
the call that asks for the second one.  The first value stays, and the reader is answered as if
it had not been published. -/
theorem first_publication_stays :
    let publisher : Peer InletCue :=
      { name := "publisher"
        onRequest := [[.next [1, 2], .aside (.publish "late")], [.error (.test "reset")]] }
    let waiting : List MetadataEvent := [.awaits, .polls 0]
    let first : List MetadataEvent :=
      waiting ++ [.happens (.begins (.subscribe publisher)), .happens (.proceeds 0)]
    let published : List MetadataEvent := (InletTraffic.publication "first").map .happens
    let rest : List MetadataEvent :=
      [.looks, .happens (.proceeds 1), .happens (.proceeds 0), .happens (.proceeds 1), .polls 0,
        .happens (.reads (.upTo 1)), .happens (.proceeds 1), .happens (.proceeds 0), .asks false,
        .happens (.reads .byte), .happens (.reads .byte)]
    let t := (start false).run (first ++ published)
    let u := t.run rest
    (∀ w : Waiter, (w.poll ((start false).run waiting).inlet.metadata).2 = none) ∧
      t.waiters = [.suspended true] ∧
      u.inlet.metadata? = some (.ok "first") ∧
      u.inlet.awaitMetadata false = some { value := .ok "first", after := u.inlet } ∧
      (∀ w ∈ u.waiters, w.poll u.inlet.metadata = (.idle, some (.ok "first"))) ∧
      readings (first ++ rest) (start false) =
        [some (.ok [1]), some (.ok [2]), some (.error (.producer (.test "reset")))] ∧
      readings (first ++ published ++ rest) (start false) =
        readings (first ++ rest) (start false) := by
  intro publisher waiting first published rest t u
  obtain ⟨hsilent, -⟩ := run_views false waiting
  obtain ⟨-, hsaid, -⟩ := run_views false (first ++ published)
  obtain ⟨-, -, halike, hinserted, -⟩ := run_views false (first ++ rest)
  have hnothing : ((start false).run waiting).traffic.told.findSome? Cue.metadata? = none := by
    decide +kernel
  have hfirst : t.traffic.told.findSome? Cue.metadata? = some (.ok "first") := by decide +kernel
  obtain ⟨hlook, hblock, hpoll⟩ := hsaid _ hfirst rest
  have hsame := hinserted first rest published rfl (.publication "first")
  exact ⟨(hsilent hnothing).2.2, by decide +kernel, hlook, hblock false,
    fun w hw => hpoll w (.inr hw), by decide +kernel, (halike _ hsame).1⟩

end MetadataTraffic
end CreditFlow
