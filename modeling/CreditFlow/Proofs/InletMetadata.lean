import CreditFlow.Proofs.InletEnding

/-!
# Metadata beside a stream that ends

The metadata of an inlet and its stream are kept apart, and whoever ends the stream does two
things in turn: first the metadata is resolved, then the end is put into the queue.  Between
the two anything else can happen.  Signals may overlap here as they like: each one first does
its first section, then waits at a place from where it goes on whenever it is its turn.

At every moment the metadata is what the first signal has made of it that says anything about
it.  So it is resolved before an end can be seen, with one exception: an inlet that ends the
stream itself, because more was delivered than was asked for, says nothing about the metadata.
After such a breach the metadata is pending until somebody else resolves it.

Main results:

- {lit}`Inlet.heed_eq_sections`: a cue that nothing comes between is its two sections.
- {lit}`Overlap.Settled.step`: what holds between any two sections.
- {lit}`Overlap.run_of_traffic`: traffic is one of the ways in which signals overlap.
- {lit}`Overlap.run_resolves_metadata`: when the metadata of an ended stream is there.
-/

namespace CreditFlow

/-! ## The two sections of a cue -/

/-- What a cue resolves the metadata to, if it says anything about it. -/
def Cue.settlement? : InletCue → Option (Cell String)
  | .error cause => some (.failed cause)
  | .complete => some .missing
  | .aside (.failure cause) => some (.failed cause)
  | .aside (.publish value) => some (.ready value)
  | _ => none

/-- Whatever a cue says about the metadata resolves it. -/
theorem Cue.settlement?_resolved {c : InletCue} {outcome : Cell String}
    (hsettles : c.settlement? = some outcome) : outcome.isPending = false := by
  cases c with
  | error cause =>
      cases hsettles
      rfl
  | complete =>
      cases hsettles
      rfl
  | aside e =>
      cases e with
      | failure cause =>
          cases hsettles
          rfl
      | publish value =>
          cases hsettles
          rfl
      | _ => cases hsettles
  | _ => cases hsettles

/-- Whoever tells of an end says something about the metadata. -/
theorem Cue.settlement?_of_end {c : InletCue} (hend : c.end?.isSome = true) :
    c.settlement?.isSome = true := by
  cases c with
  | error cause => rfl
  | complete => rfl
  | aside e =>
      cases e with
      | failure cause => rfl
      | _ => simp [Cue.end?] at hend
  | _ => simp [Cue.end?] at hend

namespace Inlet

variable {ι : Type} {b : Inlet ι}

/-- The first section of a cue, in which the metadata is resolved. -/
def settle (c : InletCue) (b : Inlet ι) : Inlet ι :=
  match c.settlement? with
  | some outcome => { b with metadata := (b.metadata.resolve outcome).1 }
  | none => b

/-- The last section of a cue, in which the stream goes on or ends; `fresh` names the
subscription that the cue may bring. -/
def convey (c : InletCue) (fresh : ι) (b : Inlet ι) : Inlet ι :=
  match c with
  | .subscribe _ => (b.subscribed fresh).1
  | .next chunk => (b.next chunk).1
  | .error cause => (b.failStream (.producer cause)).1
  | .complete => b.completeStream.1
  | .aside (.failure cause) => (b.failStream (.producer cause)).1
  | .aside (.publish _) => b
  | .aside .close => b.close.1
  | .aside .interrupt => b

/-- A cue that nothing comes between is its two sections. -/
theorem heed_eq_sections (c : InletCue) (fresh : ι) (b : Inlet ι) :
    b.heed c fresh = (b.settle c).convey c fresh := by
  cases c with
  | aside e => cases e <;> rfl
  | _ => rfl

/-- Resolving the metadata touches nothing else. -/
theorem settle_eq (c : InletCue) (b : Inlet ι) :
    ∃ metadata, b.settle c = { b with metadata := metadata } := by
  unfold settle
  split
  · exact ⟨_, rfl⟩
  · exact ⟨b.metadata, rfl⟩

/-- Failing the stream does not look at the metadata. -/
theorem failStream_metadata (f : Failure) (b : Inlet ι) (metadata : Cell String) :
    ({ b with metadata := metadata }.failStream f).1 =
      { (b.failStream f).1 with metadata := metadata } := by
  simp only [failStream]
  split
  · rfl
  · split
    · split <;> rfl
    · rfl

/-- Completing the stream does not look at the metadata. -/
theorem completeStream_metadata (b : Inlet ι) (metadata : Cell String) :
    { b with metadata := metadata }.completeStream.1 =
      { b.completeStream.1 with metadata := metadata } := by
  simp only [completeStream]
  split <;> rfl

/-- The last section does not look at the metadata. -/
theorem convey_metadata (c : InletCue) (fresh : ι) (b : Inlet ι) (metadata : Cell String) :
    { b with metadata := metadata }.convey c fresh =
      { b.convey c fresh with metadata := metadata } := by
  cases c with
  | subscribe peer =>
      simp only [convey, subscribed]
      split <;> rfl
  | next chunk =>
      simp only [convey, next]
      split
      · split
        · rfl
        · split <;> rfl
      · rfl
  | error cause => exact failStream_metadata _ b metadata
  | complete => exact completeStream_metadata b metadata
  | aside e =>
      cases e with
      | failure cause => exact failStream_metadata _ b metadata
      | publish value => rfl
      | close =>
          simp only [convey, close]
          split <;> rfl
      | interrupt => rfl

/-- Up to the metadata the last section is the whole cue. -/
theorem convey_eq (c : InletCue) (fresh : ι) (b : Inlet ι) :
    b.convey c fresh = { b.heed c fresh with metadata := b.metadata } := by
  obtain ⟨metadata, hsettle⟩ := settle_eq c b
  have hheed : b.heed c fresh = { b.convey c fresh with metadata := metadata } := by
    rw [heed_eq_sections, hsettle]
    exact convey_metadata c fresh b metadata
  rw [hheed]
  exact convey_metadata c fresh b b.metadata

/-- The metadata is of no concern to the queue. -/
theorem Orderly.with_metadata (h : b.Orderly) (metadata : Cell String) :
    { b with metadata := metadata }.Orderly :=
  h.of_eq rfl rfl rfl rfl rfl

/-- A cue ends the stream exactly when it brings an end about. -/
theorem terminated_heed (h : b.Orderly) {c : InletCue} {fresh : ι}
    (hend : (b.heed c fresh).terminated = true) :
    b.terminated = true ∨ (b.ending? c).isSome = true := by
  by_contra hneither
  rw [not_or] at hneither
  obtain ⟨hopen, hnothing⟩ := hneither
  have hopen : b.terminated = false := by simpa using hopen
  have hending : b.ending? c = none := by simpa using hnothing
  have hafter := heed_orderly h c fresh
  have hunseen : (b.heed c fresh).drained = false := by
    rw [heed_drained h]
    exact h.undrained hopen
  obtain ⟨e, -, -, hends⟩ := hafter.ends_of_ended hend hunseen
  rw [heed_ends_of_ending h, hending, h.ends_eq_nil hopen] at hends
  cases hends

/-- A reading call leaves the metadata alone. -/
theorem read_metadata (h : b.Orderly) {n : Nat} {interrupted : Bool}
    {a : Answer ι (Except Failure Octets)} (hread : b.read n interrupted = some a) :
    a.after.metadata = b.metadata := by
  have htake : ∀ (held : Except Failure Bool) (b' : Inlet ι),
      (takeUpTo n held b').2.metadata = b'.metadata := by
    intro held b'
    match held with
    | .ok true => rfl
    | .ok false => rfl
    | .error f => rfl
  rcases Nat.eq_zero_or_pos n with rfl | hn
  · cases hread
    rfl
  · obtain ⟨held, hhold, rfl⟩ := hold_of_read hn hread
    refine (htake _ _).trans ?_
    rcases hold_cases h hhold with ⟨-, rfl⟩ | ⟨-, hrefill⟩
    · rfl
    · cases hrefill <;> rfl

end Inlet

/-! ## Signals that overlap -/

/-- An inlet, and the cues that have done their first section. -/
structure Overlap (ι : Type) where
  inlet : Inlet ι := {}
  /-- Those that have not done their last section. -/
  halfway : List InletCue := []
  /-- All of them, in order. -/
  arrived : List InletCue := []

/-- One section, or one thing that the reader does. -/
inductive OverlapEvent (ι : Type) where
  /-- A cue does its first section. -/
  | arrives (c : InletCue)
  /-- The cue at a place does its last section. -/
  | goesOn (place : Nat) (fresh : ι)
  /-- The reader makes a call, unless the call would have to wait. -/
  | reads (call : ReadCall) (interrupted : Bool)
  /-- The reader goes away. -/
  | readerLeaves

namespace Overlap

variable {ι : Type} {t : Overlap ι}

/-- What an event does. -/
def step (t : Overlap ι) : OverlapEvent ι → Overlap ι
  | .arrives c =>
      { inlet := t.inlet.settle c, halfway := c :: t.halfway, arrived := t.arrived ++ [c] }
  | .goesOn place fresh =>
      match t.halfway[place]? with
      | none => t
      | some c =>
          { t with inlet := t.inlet.convey c fresh, halfway := t.halfway.eraseIdx place }
  | .reads call interrupted =>
      match t.inlet.answer call interrupted with
      | none => t
      | some a => { t with inlet := a.after }
  | .readerLeaves => { t with inlet := t.inlet.dropReader.1 }

/-- What a list of events comes to. -/
def run (events : List (OverlapEvent ι)) (t : Overlap ι) : Overlap ι :=
  events.foldl step t

@[simp]
theorem run_nil (t : Overlap ι) : t.run [] = t := rfl

theorem run_cons (e : OverlapEvent ι) (events : List (OverlapEvent ι)) (t : Overlap ι) :
    t.run (e :: events) = (t.step e).run events := rfl

theorem run_append (first second : List (OverlapEvent ι)) (t : Overlap ι) :
    t.run (first ++ second) = (t.run first).run second :=
  List.foldl_append

/-- The first thing that was said about the metadata. -/
def settled (t : Overlap ι) : Option (Cell String) :=
  t.arrived.findSome? Cue.settlement?

/-- What holds between any two sections: the metadata is what the first cue made of it that
says anything about it, and the stream has not ended unless it was broken off or somebody
told of an end. -/
structure Settled (t : Overlap ι) : Prop where
  orderly : t.inlet.Orderly
  metadata : t.inlet.metadata = t.settled.getD .pending
  known : ∀ c ∈ t.halfway, c ∈ t.arrived
  ended : t.inlet.terminated = true →
    t.inlet.Exceeded ∨ ∃ c ∈ t.arrived, c.end?.isSome = true

theorem start_settled : ({} : Overlap ι).Settled := by
  refine ⟨Inlet.orderly_empty, rfl, ?_, ?_⟩
  · intro c hc
    cases hc
  · intro hend
    cases hend

/-- The inlet is changed by its reader or by a last section: the metadata stays as it is, and
a stream that ends has a reason. -/
theorem Settled.change (h : t.Settled) {after : Inlet ι} {halfway : List InletCue}
    (horderly : after.Orderly) (hmetadata : after.metadata = t.inlet.metadata)
    (hknown : ∀ c ∈ halfway, c ∈ t.halfway)
    (hended : after.terminated = true → (t.inlet.terminated = true ∧
      (t.inlet.Exceeded → after.Exceeded)) ∨ after.Exceeded ∨
        ∃ c ∈ t.halfway, c.end?.isSome = true) :
    { t with inlet := after, halfway := halfway }.Settled := by
  refine ⟨horderly, hmetadata.trans h.metadata, fun c hc => h.known c (hknown c hc), ?_⟩
  intro hend
  rcases hended hend with ⟨hbefore, hkept⟩ | hexceeded | ⟨c, hc, hends⟩
  · rcases h.ended hbefore with hexceeded | htold
    · exact .inl (hkept hexceeded)
    · exact .inr htold
  · exact .inl hexceeded
  · exact .inr ⟨c, h.known c hc, hends⟩

/-- What a cue says about the metadata counts if nothing was said before. -/
theorem Settled.settle_metadata (h : t.Settled) (c : InletCue) :
    (t.inlet.settle c).metadata = (t.step (.arrives c)).settled.getD .pending := by
  have hmetadata := h.metadata
  simp only [settled, step, List.findSome?_append, List.findSome?_singleton]
  unfold Inlet.settle
  cases hsettled : t.arrived.findSome? Cue.settlement? with
  | none =>
      rw [settled, hsettled] at hmetadata
      cases houtcome : c.settlement? with
      | none => simpa using hmetadata
      | some outcome => simp [hmetadata, Cell.resolve, Cell.isPending]
  | some first =>
      rw [settled, hsettled] at hmetadata
      obtain ⟨d, -, hfirst⟩ := List.exists_of_findSome?_eq_some hsettled
      have hresolved := Cue.settlement?_resolved hfirst
      cases houtcome : c.settlement? with
      | none => simpa using hmetadata
      | some outcome => simp [hmetadata, Cell.resolve_of_resolved hresolved]

/-- A cue that arrives resolves the metadata if nobody has done so before. -/
theorem Settled.arrives (h : t.Settled) (c : InletCue) : (t.step (.arrives c)).Settled := by
  obtain ⟨metadata, hsettle⟩ := Inlet.settle_eq c t.inlet
  refine ⟨?_, h.settle_metadata c, ?_, ?_⟩
  · change (t.inlet.settle c).Orderly
    rw [hsettle]
    exact h.orderly.with_metadata metadata
  · intro d hd
    rcases List.mem_cons.mp hd with rfl | hbefore
    · exact List.mem_append_right _ (List.mem_singleton_self _)
    · exact List.mem_append_left _ (h.known d hbefore)
  · intro hend
    change (t.inlet.settle c).terminated = true at hend
    change (t.inlet.settle c).Exceeded ∨ _
    rw [hsettle] at hend ⊢
    rcases h.ended hend with hexceeded | ⟨d, hd, hends⟩
    · exact .inl hexceeded
    · exact .inr ⟨d, List.mem_append_left _ hd, hends⟩

/-- The last section of a cue leaves the metadata as the first one made it. -/
theorem Settled.goesOn (h : t.Settled) (place : Nat) (fresh : ι) :
    (t.step (.goesOn place fresh)).Settled := by
  cases hplace : t.halfway[place]? with
  | none => simpa [step, hplace] using h
  | some c =>
      simp only [step, hplace]
      have hheed := Inlet.convey_eq c fresh t.inlet
      apply h.change
      · rw [hheed]
        exact (Inlet.heed_orderly h.orderly c fresh).with_metadata _
      · rw [hheed]
      · intro d hd
        exact List.mem_of_mem_eraseIdx hd
      · intro hend
        have hexceeded : (t.inlet.convey c fresh).Exceeded ↔
            t.inlet.Exceeded ∨ t.inlet.Overruns c := by
          rw [hheed]
          exact Inlet.heed_exceeded h.orderly c fresh
        rw [hheed] at hend
        rcases Inlet.terminated_heed h.orderly hend with hbefore | hending
        · exact .inl ⟨hbefore, fun hover => hexceeded.mpr (.inl hover)⟩
        · by_cases hover : t.inlet.Overruns c
          · exact .inr (.inl (hexceeded.mpr (.inr hover)))
          · obtain ⟨v, hv⟩ := Option.isSome_iff_exists.mp hending
            have htold : c.end?.isSome = true := by rw [Inlet.end_of_ending hover hv]; rfl
            exact .inr (.inr ⟨c, List.mem_of_getElem? hplace, htold⟩)

/-- A reading call resolves nothing, and ends nothing. -/
theorem Settled.reads (h : t.Settled) (call : ReadCall) (interrupted : Bool) :
    (t.step (.reads call interrupted)).Settled := by
  simp only [step, Inlet.answer_eq_read]
  cases hread : t.inlet.read call.wanted interrupted with
  | none => exact h
  | some a =>
      have hahead := Inlet.read_ahead h.orderly hread
      have hends := Inlet.read_ends h.orderly hread
      apply h.change (Inlet.read_orderly h.orderly hread) (Inlet.read_metadata h.orderly hread)
        (fun c hc => hc)
      intro hend
      rw [hahead.terminated] at hend
      refine .inl ⟨hend, fun hexceeded => ?_⟩
      rwa [Inlet.Exceeded, hends]

/-- A reader that goes away resolves nothing. -/
theorem Settled.readerLeaves (h : t.Settled) : (t.step .readerLeaves).Settled := by
  have hkept : t.inlet.dropReader.1.terminated = t.inlet.terminated ∧
      t.inlet.dropReader.1.ends = t.inlet.ends := by
    simp only [Inlet.dropReader, Inlet.close]
    split <;> exact ⟨rfl, rfl⟩
  apply h.change (Inlet.dropReader_orderly h.orderly) (Inlet.close_metadata t.inlet)
    (fun c hc => hc)
  intro hend
  rw [hkept.1] at hend
  refine .inl ⟨hend, fun hexceeded => ?_⟩
  rwa [Inlet.Exceeded, hkept.2]

/-- Every section keeps what holds between the sections. -/
theorem Settled.step (h : t.Settled) (e : OverlapEvent ι) : (t.step e).Settled := by
  cases e with
  | arrives c => exact h.arrives c
  | goesOn place fresh => exact h.goesOn place fresh
  | reads call interrupted => exact h.reads call interrupted
  | readerLeaves => exact h.readerLeaves

/-- What holds between two sections holds in every run. -/
theorem run_settled (events : List (OverlapEvent ι)) :
    (({} : Overlap ι).run events).Settled := by
  have hkeeps : ∀ {t : Overlap ι}, t.Settled → (t.run events).Settled := by
    induction events with
    | nil => exact fun h => h
    | cons e events ih => exact fun h => ih (h.step e)
  exact hkeeps start_settled

/-! ## Traffic is one of the ways in which signals overlap -/

/-- An event of traffic, as the sections that it goes through. -/
theorem step_of_traffic {u : InletTraffic} {t : Overlap Nat} (hinlet : t.inlet = u.inlet)
    (hhalfway : t.halfway = []) (harrived : t.arrived = u.told) (e : InletEvent) :
    ∃ events, (t.run events).inlet = (u.step e).inlet ∧ (t.run events).halfway = [] ∧
      (t.run events).arrived = (u.step e).told := by
  cases e with
  | begins c => exact ⟨[], hinlet, hhalfway, harrived⟩
  | proceeds place =>
      cases htask : u.underway[place]? with
      | none =>
          refine ⟨[], ?_⟩
          simp only [InletTraffic.step, htask]
          exact ⟨hinlet, hhalfway, harrived⟩
      | some task =>
          simp only [InletTraffic.step, htask]
          cases task with
          | reaction r =>
              refine ⟨[], ?_, hhalfway, harrived⟩
              rw [InletTraffic.carry_inlet_reaction]
              exact hinlet
          | cue c =>
              refine ⟨[.arrives c, .goesOn 0 u.world.peers.length], ?_, ?_, ?_⟩
              · rw [InletTraffic.carry_inlet_cue, Inlet.heed_eq_sections, run_cons, run_cons]
                simp only [run_nil, step, List.getElem?_cons_zero, hinlet]
                rfl
              · simp [run_cons, step, hhalfway]
              · simp [run_cons, step, harrived, InletTraffic.carry]
  | reads call =>
      refine ⟨[.reads call u.world.interrupted], ?_⟩
      simp only [run_cons, run_nil, step, InletTraffic.step, InletTraffic.read, hinlet]
      cases u.inlet.answer call u.world.interrupted with
      | none => exact ⟨hinlet, hhalfway, harrived⟩
      | some a => exact ⟨rfl, hhalfway, harrived⟩
  | readerLeaves =>
      refine ⟨[.readerLeaves], ?_, hhalfway, harrived⟩
      change t.inlet.dropReader.1 = u.inlet.dropReader.1
      rw [hinlet]

/-- Whatever traffic comes to, signals that overlap can come to. -/
theorem run_of_traffic (interrupted : Bool) (events : List InletEvent) :
    ∃ sections, (({} : Overlap Nat).run sections).inlet =
        ((InletTraffic.start interrupted).run events).inlet ∧
      (({} : Overlap Nat).run sections).arrived =
        ((InletTraffic.start interrupted).run events).told := by
  have hall : ∀ (u : InletTraffic) (t : Overlap Nat), t.inlet = u.inlet → t.halfway = [] →
      t.arrived = u.told → ∃ sections, (t.run sections).inlet = (u.run events).inlet ∧
        (t.run sections).arrived = (u.run events).told := by
    induction events with
    | nil => exact fun u t hinlet _ harrived => ⟨[], hinlet, harrived⟩
    | cons e events ih =>
        intro u t hinlet hhalfway harrived
        obtain ⟨first, hinlet', hhalfway', harrived'⟩ :=
          step_of_traffic hinlet hhalfway harrived e
        obtain ⟨rest, hrest⟩ := ih (u.step e) (t.run first) hinlet' hhalfway' harrived'
        exact ⟨first ++ rest, by rwa [run_append, InletTraffic.run_cons]⟩
  exact hall _ _ rfl rfl rfl

/-! ## When the metadata is there -/

/-- Metadata that was resolved is there for whoever asks, and nobody has to wait for it. -/
theorem there_of_result {b : Inlet ι} {r : Except Failure String} (hresult : b.metadata? = some r) :
    (∀ interrupted, b.awaitMetadata interrupted = some { value := r, after := b }) ∧
      Waiter.idle.poll b.metadata = (.idle, some r) := by
  constructor
  · intro interrupted
    rw [Inlet.awaitMetadata, Cell.wait_eq_of_result hresult]
    rfl
  · have hcell : b.metadata.result? = some r := hresult
    simp [Waiter.poll, Waiter.register, Waiter.look, hcell]

/-- Metadata that is pending is waited for. -/
theorem awaited_of_pending {b : Inlet ι} (hpending : b.metadata? = none) :
    b.awaitMetadata false = none ∧
      Waiter.idle.poll b.metadata = (.suspended false, none) := by
  have hcell : b.metadata.result? = none := hpending
  constructor
  · simp [Inlet.awaitMetadata, Cell.wait, hcell]
  · simp [Waiter.poll, Waiter.register, Waiter.look, hcell]

/-- The metadata at every point between the sections of signals that overlap in any way:

- it is what the first of them has made of it that says anything about it;
- once the stream has ended it is there, and nobody has to wait for it, if the end is not a
  breach of the protocol or if anything was said about it;
- as long as nothing was said about it, also after a breach, whoever asks for it waits.
-/
theorem run_resolves_metadata (events : List (OverlapEvent ι)) :
    let t := ({} : Overlap ι).run events
    t.inlet.metadata? = t.settled.bind Cell.result? ∧
    (t.inlet.terminated = true → (¬t.inlet.Exceeded ∨ t.settled.isSome = true) →
      ∃ r, t.inlet.metadata? = some r ∧
        (∀ interrupted, t.inlet.awaitMetadata interrupted =
          some { value := r, after := t.inlet }) ∧
        Waiter.idle.poll t.inlet.metadata = (.idle, some r)) ∧
    (t.settled = none →
      t.inlet.metadata? = none ∧ t.inlet.awaitMetadata false = none ∧
        Waiter.idle.poll t.inlet.metadata = (.suspended false, none)) := by
  intro t
  have h : t.Settled := run_settled events
  have hmetadata : t.inlet.metadata? = t.settled.bind Cell.result? := by
    rw [Inlet.metadata?, h.metadata]
    cases t.settled <;> rfl
  refine ⟨hmetadata, fun hend hreason => ?_, fun hnothing => ?_⟩
  · have hsettled : t.settled.isSome = true := by
      rcases hreason with hmodest | hsettled
      · rcases h.ended hend with hexceeded | ⟨c, hc, hends⟩
        · exact absurd hexceeded hmodest
        · exact List.findSome?_isSome_iff.mpr ⟨c, hc, Cue.settlement?_of_end hends⟩
      · exact hsettled
    obtain ⟨outcome, houtcome⟩ := Option.isSome_iff_exists.mp hsettled
    obtain ⟨c, -, hc⟩ := List.exists_of_findSome?_eq_some houtcome
    have hresolved := Cue.settlement?_resolved hc
    obtain ⟨r, hr⟩ : ∃ r, outcome.result? = some r := by
      cases outcome with
      | pending => cases hresolved
      | ready value => exact ⟨_, rfl⟩
      | failed cause => exact ⟨_, rfl⟩
      | missing => exact ⟨_, rfl⟩
    have hresult : t.inlet.metadata? = some r := by rw [hmetadata, houtcome, Option.bind_some, hr]
    exact ⟨r, hresult, there_of_result hresult⟩
  · have hpending : t.inlet.metadata? = none := by rw [hmetadata, hnothing, Option.bind_none]
    exact ⟨hpending, awaited_of_pending hpending⟩

/-- An error that comes between the two sections of a completion: the completion has resolved
the metadata before the error ends the stream. -/
theorem crossed_ends_resolve_metadata :
    let events : List (OverlapEvent Nat) :=
      [.arrives (.subscribe { name := "publisher" }), .goesOn 0 7, .arrives .complete,
        .arrives (.error (.test "reset")), .goesOn 0 7]
    let t := ({} : Overlap Nat).run events
    t.halfway.length = 1 ∧ t.inlet.terminated = true ∧
      t.inlet.awaitMetadata false =
        some { value := .error (.condition .missingMetadata), after := t.inlet } := by
  intro events t
  have hend : t.inlet.terminated = true := rfl
  have hsettled : t.settled.isSome = true := rfl
  obtain ⟨hmetadata, hthere, -⟩ := run_resolves_metadata events
  obtain ⟨r, hresult, hawait, -⟩ := hthere hend (.inr hsettled)
  have hmissing : t.settled.bind Cell.result? = some (.error (.condition .missingMetadata)) := rfl
  obtain rfl : r = .error (.condition .missingMetadata) := by
    have hsame : some r = some (.error (.condition .missingMetadata)) :=
      hresult.symm.trans (hmetadata.trans hmissing)
    simpa using hsame
  exact ⟨rfl, hend, hawait false⟩

end Overlap

/-- A publisher that delivers what nobody has asked for ends the stream, and whoever asks for
the metadata waits. -/
theorem InletTraffic.breach_leaves_metadata_pending :
    let t := (start false).run
      [.begins (.subscribe { name := "publisher" }), .proceeds 0, .begins (.next [1]),
        .proceeds 0, .begins (.next [2]), .proceeds 0]
    t.inlet.terminated = true ∧ t.inlet.metadata? = none ∧ t.inlet.awaitMetadata false = none ∧
      (Waiter.idle.poll t.inlet.metadata).2 = none := by
  refine ⟨rfl, rfl, rfl, rfl⟩

end CreditFlow
