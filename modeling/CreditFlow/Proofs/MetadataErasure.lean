import CreditFlow.Proofs.InletInterruption
import CreditFlow.Proofs.InletPortions

/-!
# An inlet without its metadata

What becomes of a run if nothing is published in it: neither from outside nor from inside the
calls that reach a publisher.  The metadata is resolved in another way, or not at all, and
other notices are written down; everything else is as it was.

Two runs are compared by what is left of them when the metadata is left out.  The tasks that
are left out stand between the others, so a place among the tasks of one run is another place
in the other; what counts is how many tasks that are left in stand before it.

Main results:

- {lit}`Exchange.step_plain`, {lit}`Exchange.step_hidden`: what a task does, with the metadata
  left out.
- {lit}`InletTraffic.step_plain`: what an event does, with the metadata left out.
- {lit}`InletTraffic.run_alike`: runs of which the same is left come to the same.
- {lit}`InletTraffic.exists_plain`: of every run there is one in which nothing is published.
-/

namespace CreditFlow

/-! ## Cues -/

namespace Cue

/-- Whether a cue publishes the metadata. -/
def publishes : InletCue → Bool
  | .aside (.publish _) => true
  | _ => false

mutual

/-- A cue in whose scripts nothing is published. -/
def plain : InletCue → InletCue
  | .subscribe peer => .subscribe (peerPlain peer)
  | .next chunk => .next chunk
  | .error cause => .error cause
  | .complete => .complete
  | .aside e => .aside e

/-- A peer in whose scripts nothing is published. -/
def peerPlain : Peer InletCue → Peer InletCue
  | ⟨name, onRequest, onCancel⟩ => ⟨name, scriptsPlain onRequest, scriptsPlain onCancel⟩

/-- Several scripts in which nothing is published. -/
def scriptsPlain : List (List InletCue) → List (List InletCue)
  | [] => []
  | script :: rest => scriptPlain script :: scriptsPlain rest

/-- A script in which nothing is published. -/
def scriptPlain : List InletCue → List InletCue
  | [] => []
  | c :: rest => if c.publishes then scriptPlain rest else plain c :: scriptPlain rest

end

@[simp]
theorem publishes_plain (c : InletCue) : c.plain.publishes = c.publishes := by
  cases c <;> rfl

mutual

/-- What is left of an exchange stays when the metadata is left out again. -/
theorem plain_plain : ∀ c : InletCue, c.plain.plain = c.plain
  | .subscribe peer => congrArg Cue.subscribe (peerPlain_peerPlain peer)
  | .next _ => rfl
  | .error _ => rfl
  | .complete => rfl
  | .aside _ => rfl

theorem peerPlain_peerPlain : ∀ p : Peer InletCue, peerPlain (peerPlain p) = peerPlain p
  | ⟨_, onRequest, onCancel⟩ => by
      simp only [peerPlain, scriptsPlain_scriptsPlain onRequest,
        scriptsPlain_scriptsPlain onCancel]

theorem scriptsPlain_scriptsPlain :
    ∀ scripts : List (List InletCue), scriptsPlain (scriptsPlain scripts) = scriptsPlain scripts
  | [] => rfl
  | script :: rest => by
      simp only [scriptsPlain, scriptPlain_scriptPlain script, scriptsPlain_scriptsPlain rest]

/-- What is left of a script publishes nothing that could be left out again. -/
theorem scriptPlain_scriptPlain :
    ∀ script : List InletCue, scriptPlain (scriptPlain script) = scriptPlain script
  | [] => rfl
  | c :: rest => by
      by_cases hpublishes : c.publishes = true
      · simp only [scriptPlain, hpublishes, if_true, scriptPlain_scriptPlain rest]
      · have hquiet : ¬c.plain.publishes = true := by rwa [publishes_plain]
        rw [scriptPlain, if_neg hpublishes, scriptPlain, if_neg hquiet, plain_plain c,
          scriptPlain_scriptPlain rest]

end

/-- What is left of a cue when the metadata is left out. -/
def plain? (c : InletCue) : Option InletCue :=
  if c.publishes then none else some c.plain

theorem scriptPlain_eq (script : List InletCue) : scriptPlain script = script.filterMap plain? := by
  induction script with
  | nil => rfl
  | cons c rest ih =>
      by_cases hpublishes : c.publishes = true <;> simp [scriptPlain, plain?, hpublishes, ih]

/-- What is left is left whole. -/
theorem plain?_idem {c c' : InletCue} (hplain : c.plain? = some c') : c'.plain? = some c' := by
  unfold plain? at hplain ⊢
  split at hplain
  · cases hplain
  · rename_i hquiet
    cases hplain
    rw [publishes_plain, if_neg hquiet, plain_plain]

@[simp]
theorem map_peerPlain (peers : List (Peer InletCue)) :
    (peers.map peerPlain).map peerPlain = peers.map peerPlain := by
  rw [List.map_map]
  exact List.map_congr_left fun p _ => peerPlain_peerPlain p

/-- The peer that a cue brings in. -/
def newcomers : InletCue → List (Peer InletCue)
  | .subscribe peer => [peer]
  | _ => []

/-- Whether a cue fires the interrupt token. -/
def fires : InletCue → Bool
  | .aside .interrupt => true
  | _ => false

@[simp]
theorem newcomers_plain (c : InletCue) : c.plain.newcomers = c.newcomers.map peerPlain := by
  cases c <;> rfl

@[simp]
theorem fires_plain (c : InletCue) : c.plain.fires = c.fires := by
  cases c <;> rfl

end Cue

/-! ## Inlets -/

/-- A reaction, unless it is a notice. -/
def Reaction.silence {ι : Type} : Reaction ι → Option (Reaction ι)
  | .note _ => none
  | r => some r

namespace Inlet

variable {ι : Type}

/-- An inlet without its metadata. -/
def plain (b : Inlet ι) : Inlet ι :=
  { b with metadata := .pending }

@[simp]
theorem plain_plain (b : Inlet ι) : b.plain.plain = b.plain := rfl

/-- An operation that does not look at the metadata does the same without it. -/
theorem Aloof.plain {α : Type} {op : Inlet ι → Inlet ι × α} (h : Aloof op) (b : Inlet ι) :
    op b.plain = ((op b).1.plain, (op b).2) :=
  calc op b.plain
      = ({ (op b).1 with current := b.current, metadata := .pending }, (op b).2) :=
        h b.current .pending b
    _ = ((op b).1.plain, (op b).2) := by
      rw [← (h.keeps b).1]
      rfl

/-- Nor does it matter what the metadata was resolved to meanwhile. -/
theorem Aloof.plain_congr {α : Type} {op : Inlet ι → Inlet ι × α} (h : Aloof op)
    {b b' : Inlet ι} (hsame : b.plain = b'.plain) :
    (op b).1.plain = (op b').1.plain ∧ (op b).2 = (op b').2 := by
  have hboth := h.plain b
  rw [hsame, h.plain b', Prod.mk.injEq] at hboth
  exact ⟨hboth.1.symm, hboth.2.symm⟩

/-- What follows at once from a cue. -/
def utter (c : InletCue) (fresh : ι) (b : Inlet ι) : List (Reaction ι) :=
  match c with
  | .subscribe _ => (b.subscribed fresh).2
  | .next chunk => (b.next chunk).2
  | .error cause => (b.error cause).2
  | .complete => b.complete.2
  | .aside (.failure cause) => (b.failure cause).2
  | .aside (.publish value) => (b.publish value).2
  | .aside .close => b.close.2
  | .aside .interrupt => []

/-- What a cue does to an inlet, and what follows from it but for the notices, does not depend
on the metadata. -/
theorem heed_plain_congr (c : InletCue) (fresh : ι) {b b' : Inlet ι} (hsame : b.plain = b'.plain) :
    (b.heed c fresh).plain = (b'.heed c fresh).plain ∧
      (b.utter c fresh).map Reaction.silence = (b'.utter c fresh).map Reaction.silence := by
  have hresolved : ∀ outcome note, (b.resolveMetadata outcome note).1.plain =
      (b'.resolveMetadata outcome note).1.plain := fun _ _ => hsame
  have haloof : ∀ {op : Inlet ι → Inlet ι × List (Reaction ι)}, Aloof op →
      (op b).1.plain = (op b').1.plain ∧
        (op b).2.map Reaction.silence = (op b').2.map Reaction.silence := by
    intro op h
    obtain ⟨hafter, hout⟩ := h.plain_congr hsame
    exact ⟨hafter, congrArg _ hout⟩
  cases c with
  | subscribe peer => exact haloof (subscribed_aloof fresh)
  | next chunk => exact haloof (next_aloof chunk)
  | error cause =>
      obtain ⟨hafter, hout⟩ := (failStream_aloof (.producer cause)).plain_congr
        (hresolved (.failed cause) .failedBeforeMetadata)
      refine ⟨hafter, ?_⟩
      simp only [utter, error, List.map_append, List.map_cons, hout]
      rfl
  | complete =>
      obtain ⟨hafter, hout⟩ := completeStream_aloof.plain_congr
        (hresolved .missing .completedWithoutMetadata)
      refine ⟨hafter, ?_⟩
      simp only [utter, complete, List.map_append, hout]
      rfl
  | aside e =>
      cases e with
      | failure cause =>
          obtain ⟨hafter, hout⟩ := (failStream_aloof (.producer cause)).plain_congr
            (hresolved (.failed cause) (.failedBeforeMetadataBy cause))
          refine ⟨hafter, ?_⟩
          simp only [utter, failure, List.map_append, hout]
          rfl
      | publish value => exact ⟨hsame, rfl⟩
      | close => exact haloof close_aloof
      | interrupt => exact ⟨hsame, rfl⟩

/-- Taking the next element does not look at the metadata. -/
theorem refill_plain (interrupted : Bool) (b : Inlet ι) :
    b.plain.refill interrupted =
      (b.refill interrupted).map fun a => { a with after := a.after.plain } := by
  unfold refill
  cases hverdict : b.verdict with
  | some v => cases v <;> simp [plain, hverdict]
  | none =>
      match hqueue : b.queue with
      | [] => cases hslot : b.slot <;> cases interrupted <;> simp [plain, hverdict, hqueue, hslot]
      | .data chunk :: rest => cases hslot : b.slot <;> simp [plain, hverdict, hqueue, hslot]
      | .finish :: rest => simp [plain, hverdict, hqueue]
      | .failure f :: rest => simp [plain, hverdict, hqueue]

/-- What an inlet is told of is the same for a peer in whose scripts nothing is published. -/
theorem heed_cue_plain (c : InletCue) (fresh : ι) (b : Inlet ι) :
    b.heed c.plain fresh = b.heed c fresh ∧ b.utter c.plain fresh = b.utter c fresh := by
  cases c <;> exact ⟨rfl, rfl⟩

/-- Reading does not look at the metadata. -/
theorem read_plain (n : Nat) (interrupted : Bool) (b : Inlet ι) :
    b.plain.read n interrupted =
      (b.read n interrupted).map fun a => { a with after := a.after.plain } := by
  have htake : ∀ (held : Except Failure Bool) (b' : Inlet ι),
      takeUpTo n held b'.plain = ((takeUpTo n held b').1, (takeUpTo n held b').2.plain) := by
    intro held b'
    match held with
    | .ok true => rfl
    | .ok false => rfl
    | .error f => rfl
  have hhold : b.plain.hold interrupted =
      (b.hold interrupted).map fun a => { a with after := a.after.plain } := by
    unfold hold
    change (if b.current.isEmpty then _ else _) = _
    split
    · exact refill_plain interrupted b
    · rfl
  unfold read
  split
  · rfl
  · simp only [hhold, Option.map_map]
    congr 1
    funext a
    simp only [Function.comp_apply, Answer.andThen, htake]

/-- Nor does any call for bytes. -/
theorem answer_plain (call : ReadCall) (interrupted : Bool) (b : Inlet ι) :
    b.plain.answer call interrupted =
      (b.answer call interrupted).map fun a => { a with after := a.after.plain } := by
  rw [answer_eq_read, answer_eq_read, read_plain]

end Inlet

/-! ## Tasks -/

/-- What is left of a task when the metadata is left out. -/
def Task.plain? : Task → Option Task
  | .cue c => c.plain?.map .cue
  | .reaction (.note _) => none
  | .reaction r => some (.reaction r)

namespace Task

/-- What is left of a cue stays when the metadata is left out again. -/
theorem plain?_idem {task task' : Task} (hplain : task.plain? = some task') :
    task'.plain? = some task' := by
  cases task with
  | cue c =>
      obtain ⟨c', hc, rfl⟩ := Option.map_eq_some_iff.mp hplain
      exact Option.map_eq_some_iff.mpr ⟨c', Cue.plain?_idem hc, rfl⟩
  | reaction r =>
      cases r with
      | note n => cases hplain
      | control handle c =>
          cases hplain
          rfl
      | interrupt =>
          cases hplain
          rfl

/-- What is left of an agenda stays when the metadata is left out again. -/
theorem filterMap_plain? (tasks : List Task) :
    (tasks.filterMap plain?).filterMap plain? = tasks.filterMap plain? := by
  rw [List.filterMap_filterMap]
  congr 1
  funext task
  cases hplain : task.plain? with
  | none => rfl
  | some task' => exact plain?_idem hplain

/-- A task, unless it is to write a notice down. -/
def silence : Task → Option Task
  | .cue c => some (.cue c)
  | .reaction r => r.silence.map .reaction

/-- Leaving the metadata out of a task is leaving out its notices first. -/
theorem plain?_eq (task : Task) : task.plain? = task.silence.bind plain? := by
  cases task with
  | cue c => rfl
  | reaction r => cases r <;> rfl

/-- Up to the notices, tasks of which the same is left. -/
theorem filterMap_plain?_congr {tasks others : List Task}
    (hsame : tasks.map silence = others.map silence) :
    tasks.filterMap plain? = others.filterMap plain? := by
  have hall : ∀ tasks : List Task, tasks.filterMap plain? =
      (tasks.map silence).filterMap fun quiet => quiet.bind plain? := by
    intro tasks
    rw [List.filterMap_map]
    congr 1
    funext task
    exact plain?_eq task
  rw [hall, hall, hsame]

theorem map_silence_reactions (out : List (Reaction Nat)) :
    (out.map reaction).map silence = (out.map Reaction.silence).map (Option.map reaction) := by
  rw [List.map_map, List.map_map]
  rfl

/-- What is left of the tasks of a script are the tasks of what is left of it. -/
theorem filterMap_script (script : List InletCue) :
    (script.map cue).filterMap plain? = (Cue.scriptPlain script).map cue := by
  rw [Cue.scriptPlain_eq, List.filterMap_map, List.map_filterMap]
  rfl

end Task

/-! ## Exchanges -/

/-- A call reaches a peer in whose scripts nothing is published. -/
theorem Peer.answerAt_plain (c : Control) (place : Nat) (peers : List (Peer InletCue)) :
    answerAt c place (peers.map Cue.peerPlain) =
      ((answerAt c place peers).1, Cue.scriptPlain (answerAt c place peers).2.1,
        (answerAt c place peers).2.2.map Cue.peerPlain) := by
  have hhead : ∀ scripts : List (List InletCue),
      (Cue.scriptsPlain scripts).headD [] = Cue.scriptPlain (scripts.headD []) := by
    intro scripts
    cases scripts <;> rfl
  have htail : ∀ scripts : List (List InletCue),
      (Cue.scriptsPlain scripts).tail = Cue.scriptsPlain scripts.tail := by
    intro scripts
    cases scripts <;> rfl
  induction peers generalizing place with
  | nil => simp [answerAt, Cue.scriptPlain]
  | cons p rest ih =>
      cases place with
      | zero =>
          obtain ⟨name, onRequest, onCancel⟩ := p
          cases c with
          | request n =>
              simp only [List.map_cons, answerAt, Cue.peerPlain, answer, heard, hhead, htail]
          | cancel =>
              simp only [List.map_cons, answerAt, Cue.peerPlain, answer, heard, hhead, htail]
          | release => rfl
      | succ place => simp only [List.map_cons, answerAt, ih place]

namespace Exchange

/-- An exchange without the metadata, without what is published in it, and without the
record of notices. -/
def plain (w : Exchange) : Exchange :=
  { w with inlet := w.inlet.plain, peers := w.peers.map Cue.peerPlain, journal := [] }

theorem plain_plain (w : Exchange) : w.plain.plain = w.plain := by
  simp only [plain, Cue.map_peerPlain, Inlet.plain_plain]

/-- What a cue does to an exchange. -/
theorem perform_eq (w : Exchange) (c : InletCue) :
    w.perform c =
      ({ w with
          inlet := w.inlet.heed c w.peers.length
          peers := w.peers ++ c.newcomers
          interrupted := w.interrupted || c.fires },
        w.inlet.utter c w.peers.length) := by
  cases c with
  | aside e =>
      cases e <;> simp [perform, told, Inlet.heed, Inlet.utter, Cue.newcomers, Cue.fires]
  | _ => simp [perform, told, Inlet.heed, Inlet.utter, Cue.newcomers, Cue.fires]

/-- What a cue does that publishes nothing itself. -/
theorem perform_plain (w : Exchange) {c c' : InletCue} (hplain : c.plain? = some c') :
    (w.perform c).1.plain = (w.plain.perform c').1.plain ∧
      ((w.perform c).2.map Task.reaction).filterMap Task.plain? =
        ((w.plain.perform c').2.map Task.reaction).filterMap Task.plain? := by
  obtain rfl : c.plain = c' := by
    unfold Cue.plain? at hplain
    split at hplain
    · cases hplain
    · exact Option.some.inj hplain
  have hinlet : w.inlet.plain = w.plain.inlet.plain := rfl
  have hfresh : w.plain.peers.length = w.peers.length := List.length_map _
  obtain ⟨hheed, hutter⟩ := Inlet.heed_cue_plain c w.peers.length w.plain.inlet
  obtain ⟨hafter, hout⟩ := Inlet.heed_plain_congr c w.peers.length hinlet
  rw [perform_eq, perform_eq, hfresh, hheed, hutter]
  constructor
  · simp only [plain, hafter, List.map_append, Cue.newcomers_plain, Cue.fires_plain,
      Cue.map_peerPlain]
  · apply Task.filterMap_plain?_congr
    rw [Task.map_silence_reactions, Task.map_silence_reactions, hout]

/-- What a task does that is left in. -/
theorem step_plain (w : Exchange) {task task' : Task} (hplain : task.plain? = some task') :
    (w.step task).1.plain = (w.plain.step task').1.plain ∧
      (w.step task).2.filterMap Task.plain? = (w.plain.step task').2.filterMap Task.plain? := by
  cases task with
  | cue c =>
      obtain ⟨c', hc, rfl⟩ := Option.map_eq_some_iff.mp hplain
      exact perform_plain w hc
  | reaction r =>
      cases r with
      | note n => cases hplain
      | control handle c =>
          cases hplain
          have hanswer := Peer.answerAt_plain c handle w.peers
          have hpeers : w.plain.peers = w.peers.map Cue.peerPlain := rfl
          simp only [step, carryOut, hpeers, hanswer, Task.filterMap_script,
            Cue.scriptPlain_scriptPlain, and_true]
          simp only [plain, Cue.map_peerPlain, Inlet.plain_plain]
      | interrupt =>
          cases hplain
          refine ⟨?_, rfl⟩
          calc (w.step (.reaction .interrupt)).1.plain
              = { w.plain with interrupted := true } := rfl
            _ = { w.plain.plain with interrupted := true } := by rw [w.plain_plain]
            _ = (w.plain.step (.reaction .interrupt)).1.plain := rfl

/-- A task that is left out does nothing to what is left in. -/
theorem step_hidden (w : Exchange) {task : Task} (hidden : task.plain? = none) :
    (w.step task).1.plain = w.plain ∧ (w.step task).2.filterMap Task.plain? = [] := by
  cases task with
  | cue c =>
      cases c with
      | aside e =>
          cases e with
          | publish value => exact ⟨rfl, rfl⟩
          | _ => cases hidden
      | _ => cases hidden
  | reaction r =>
      cases r with
      | note n => exact ⟨rfl, rfl⟩
      | _ => cases hidden

end Exchange

/-! ## Traffic -/

namespace InletTraffic

variable {t u : InletTraffic}

/-- Traffic without the metadata, and without the record of what was told. -/
def plain (t : InletTraffic) : InletTraffic :=
  { world := t.world.plain
    underway := t.underway.filterMap Task.plain?
    returned := t.returned }

/-- How many tasks that are left in stand before a place. -/
def rank (t : InletTraffic) (place : Nat) : Nat :=
  ((t.underway.take place).filterMap Task.plain?).length

/-- What is left of an event when the metadata is left out.  A task is named by its place among
those that are left in. -/
def plainEvent? (t : InletTraffic) : InletEvent → Option InletEvent
  | .begins c => c.plain?.map .begins
  | .proceeds place =>
      (t.underway[place]?.bind Task.plain?).map fun _ => .proceeds (t.rank place)
  | .reads call => some (.reads call)
  | .readerLeaves => some .readerLeaves

/-- What is left of a run. -/
def plainEvents : List InletEvent → InletTraffic → List InletEvent
  | [], _ => []
  | e :: events, t => (t.plainEvent? e).toList ++ plainEvents events (t.step e)

/-- What a call for bytes answers, if an event is one; it answers {lit}`none` if it has to
wait. -/
def reading? (t : InletTraffic) : InletEvent → Option (Option (Except Failure Octets))
  | .reads call => some ((t.answers call).map (·.value))
  | _ => none

/-- Traffic, with what the reader is answered. -/
def reader : Party InletTraffic InletEvent (Option (Option (Except Failure Octets))) where
  step := step
  reply := reading?

/-- Traffic without the metadata, with what the reader is answered. -/
def plainReader : Party InletTraffic InletEvent (Option (Option (Except Failure Octets))) where
  step t e := (t.step e).plain
  reply := reading?

/-- What the calls for bytes of a run answer, in order. -/
def readings (events : List InletEvent) (t : InletTraffic) :
    List (Option (Except Failure Octets)) :=
  (reader.replies events t).reduceOption

@[simp]
theorem plain_plain (t : InletTraffic) : t.plain.plain = t.plain := by
  simp [plain, Exchange.plain_plain, Task.filterMap_plain?]

/-- A task that is left in does the same with the metadata and without. -/
theorem carry_plain (task : Task) (t : InletTraffic) :
    (t.carry task).plain =
      { world := (t.world.step task).1.plain
        underway := ((t.world.step task).2 ++ t.underway).filterMap Task.plain?
        returned := t.returned } := by
  cases task <;> rfl

/-- The task at a place, and what is left of the tasks around it. -/
theorem underway_split {place : Nat} {task : Task} (htask : t.underway[place]? = some task) :
    t.underway.filterMap Task.plain? =
        (t.underway.take place).filterMap Task.plain? ++
          (task.plain?.toList ++ (t.underway.drop (place + 1)).filterMap Task.plain?) ∧
      (t.underway.eraseIdx place).filterMap Task.plain? =
        (t.underway.take place).filterMap Task.plain? ++
          (t.underway.drop (place + 1)).filterMap Task.plain? := by
  obtain ⟨hplace, hget⟩ := List.getElem?_eq_some_iff.mp htask
  constructor
  · conv_lhs => rw [← List.take_append_drop place t.underway, List.drop_eq_getElem_cons hplace, hget]
    rw [List.filterMap_append, List.filterMap_cons]
    cases task.plain? <;> rfl
  · rw [List.eraseIdx_eq_take_drop_succ, List.filterMap_append]

/-- A task that is left out goes on, and nothing happens to what is left in. -/
theorem proceeds_hidden {place : Nat} {task : Task} (htask : t.underway[place]? = some task)
    (hhidden : task.plain? = none) : (t.step (.proceeds place)).plain = t.plain := by
  obtain ⟨hall, hrest⟩ := underway_split htask
  obtain ⟨hworld, hout⟩ := t.world.step_hidden hhidden
  have hstep : t.step (.proceeds place) =
      { t with underway := t.underway.eraseIdx place }.carry task := by
    simp only [step, htask]
  rw [hstep, carry_plain, List.filterMap_append, hworld, hout, hrest]
  simp only [plain, hall, hhidden, Option.toList_none, List.nil_append]

/-- The tasks that are left in keep their order. -/
theorem plain_underway {place : Nat} {task task' : Task}
    (htask : t.underway[place]? = some task) (hplain : task.plain? = some task') :
    t.plain.underway[t.rank place]? = some task' ∧
      t.plain.underway.eraseIdx (t.rank place) =
        (t.underway.eraseIdx place).filterMap Task.plain? := by
  obtain ⟨hall, hrest⟩ := underway_split htask
  have hunderway : t.plain.underway = t.underway.filterMap Task.plain? := rfl
  rw [hplain] at hall
  rw [hunderway, hall, hrest, rank, List.eraseIdx_append_of_length_le (Nat.le_refl _)]
  simp

/-- A task that is left in goes on. -/
theorem proceeds_plain {place : Nat} {task task' : Task}
    (htask : t.underway[place]? = some task) (hplain : task.plain? = some task') :
    (t.step (.proceeds place)).plain = (t.plain.step (.proceeds (t.rank place))).plain := by
  obtain ⟨hworld, hout⟩ := t.world.step_plain hplain
  obtain ⟨htask', hrest⟩ := plain_underway htask hplain
  have hstep : t.step (.proceeds place) =
      { t with underway := t.underway.eraseIdx place }.carry task := by
    simp only [step, htask]
  have hstep' : t.plain.step (.proceeds (t.rank place)) =
      { t.plain with underway := (t.underway.eraseIdx place).filterMap Task.plain? }.carry
        task' := by
    simp only [step, htask', hrest]
  rw [hstep, hstep', carry_plain, carry_plain, List.filterMap_append, List.filterMap_append, hworld,
    hout, Task.filterMap_plain?]
  rfl

/-- A reader that changes the inlet changes what is left of it. -/
theorem change_plain (after : Inlet Nat) (out : List (Reaction Nat)) (t : InletTraffic) :
    (t.change after out).plain = (t.plain.change after.plain out).plain := by
  simp only [change, plain, Exchange.plain, Inlet.plain_plain, Cue.map_peerPlain,
    List.filterMap_append, Task.filterMap_plain?]

/-- What an event does, with the metadata left out. -/
theorem step_plain (t : InletTraffic) (e : InletEvent) :
    (t.step e).plain =
      match t.plainEvent? e with
      | none => t.plain
      | some e' => (t.plain.step e').plain := by
  cases e with
  | begins c =>
      cases hc : c.plain? with
      | none =>
          have hhidden : (Task.cue c).plain? = none := by simp [Task.plain?, hc]
          simp [plainEvent?, hc, step, plain, hhidden]
      | some c' =>
          have hvisible : (Task.cue c).plain? = some (.cue c') := by simp [Task.plain?, hc]
          have hvisible' : (Task.cue c').plain? = some (.cue c') := Task.plain?_idem hvisible
          simp [plainEvent?, hc, step, plain, hvisible, hvisible', Task.filterMap_plain?,
            Exchange.plain_plain]
  | proceeds place =>
      cases htask : t.underway[place]? with
      | none => simp [plainEvent?, step, htask]
      | some task =>
          cases hplain : task.plain? with
          | none =>
              simp only [plainEvent?, htask, Option.bind_some, hplain, Option.map_none]
              exact proceeds_hidden htask hplain
          | some task' =>
              simp only [plainEvent?, htask, Option.bind_some, hplain, Option.map_some]
              exact proceeds_plain htask hplain
  | reads call =>
      have hanswer : t.plain.inlet.answer call t.plain.world.interrupted =
          (t.inlet.answer call t.world.interrupted).map fun a =>
            { a with after := a.after.plain } := Inlet.answer_plain call _ t.inlet
      simp only [plainEvent?, step, read, hanswer]
      cases t.inlet.answer call t.world.interrupted with
      | none => exact t.plain_plain.symm
      | some a =>
          have hchange := change_plain a.after a.reactions t
          have hreturned : ∀ (v v' : InletTraffic) (o : Octets), v.plain = v'.plain →
              { v with returned := o }.plain = { v' with returned := o }.plain := by
            intro v v' o hsame
            exact congrArg (fun v : InletTraffic => { v with returned := o }) hsame
          exact hreturned _ _ _ hchange
  | readerLeaves =>
      have hdrop : t.plain.inlet.dropReader = (t.inlet.dropReader.1.plain, t.inlet.dropReader.2) :=
        Inlet.dropReader_aloof.plain t.inlet
      simp only [plainEvent?, step, hdrop]
      exact change_plain _ _ t

/-- What the reader is answered does not depend on the metadata. -/
theorem reading_plain (t : InletTraffic) (e : InletEvent) :
    t.reading? e = (t.plainEvent? e).bind t.plain.reading? := by
  cases e with
  | begins c =>
      cases hc : c.plain? with
      | none => simp [reading?, plainEvent?, hc]
      | some c' => simp [reading?, plainEvent?, hc]
  | proceeds place =>
      simp only [reading?, plainEvent?]
      cases t.underway[place]?.bind Task.plain? <;> rfl
  | reads call =>
      have hanswer : t.plain.answers call =
          (t.answers call).map fun a => { a with after := a.after.plain } :=
        Inlet.answer_plain call _ t.inlet
      simp only [reading?, plainEvent?, Option.bind_some, hanswer, Option.map_map]
      rfl
  | readerLeaves => rfl

/-- What a run comes to with the metadata left out, and what its reader is answered, is seen
from what is left of it. -/
theorem run_plain (events : List InletEvent) (t : InletTraffic) :
    (t.run events).plain = plainReader.run (plainEvents events t) t.plain ∧
      readings events t = (plainReader.replies (plainEvents events t) t.plain).reduceOption := by
  induction events generalizing t with
  | nil => exact ⟨rfl, rfl⟩
  | cons e events ih =>
      obtain ⟨hrun, hreadings⟩ := ih (t.step e)
      have hstep := step_plain t e
      have hreading : readings (e :: events) t =
          (t.reading? e).toList ++ readings events (t.step e) := by
        simp only [readings, Party.replies]
        change (t.reading? e :: _).reduceOption = _
        cases t.reading? e <;> rfl
      rw [run_cons, hreading, reading_plain, hrun, hreadings, hstep]
      cases hevent : t.plainEvent? e with
      | none => simp [plainEvents, hevent]
      | some e' =>
          simp only [plainEvents, hevent, Option.toList_some, Option.bind_some]
          refine ⟨rfl, ?_⟩
          simp only [List.singleton_append, Party.replies]
          change _ = (t.plain.reading? e' :: _).reduceOption
          cases t.plain.reading? e' <;> rfl

/-- Runs of which the same is left come to the same, and their readers are answered the same. -/
theorem run_alike {events others : List InletEvent} (hworld : t.plain = u.plain)
    (hsame : plainEvents events t = plainEvents others u) :
    (t.run events).plain = (u.run others).plain ∧ readings events t = readings others u := by
  obtain ⟨hrun, hreadings⟩ := run_plain events t
  obtain ⟨hrun', hreadings'⟩ := run_plain others u
  rw [hrun, hreadings, hrun', hreadings', hworld, hsame]
  exact ⟨rfl, rfl⟩

/-- What is left of the tasks under way is left of some task. -/
theorem exists_rank {k : Nat} {task' : Task} (htask : t.plain.underway[k]? = some task') :
    ∃ place task, t.underway[place]? = some task ∧ task.plain? = some task' ∧
      t.rank place = k := by
  have hall : ∀ (tasks : List Task) (k : Nat), (tasks.filterMap Task.plain?)[k]? = some task' →
      ∃ place task, tasks[place]? = some task ∧ task.plain? = some task' ∧
        ((tasks.take place).filterMap Task.plain?).length = k := by
    intro tasks
    induction tasks with
    | nil => intro k hk; simp at hk
    | cons first rest ih =>
        intro k hk
        cases hfirst : first.plain? with
        | none =>
            rw [List.filterMap_cons_none hfirst] at hk
            obtain ⟨place, task, hplace, hplain, hrank⟩ := ih k hk
            exact ⟨place + 1, task, hplace, hplain, by simp [hfirst, hrank]⟩
        | some first' =>
            rw [List.filterMap_cons_some hfirst] at hk
            cases k with
            | zero =>
                rw [List.getElem?_cons_zero] at hk
                exact ⟨0, first, rfl, hfirst.trans hk, rfl⟩
            | succ k =>
                obtain ⟨place, task, hplace, hplain, hrank⟩ := ih k hk
                exact ⟨place + 1, task, hplace, hplain, by simp [hfirst, hrank]⟩
  exact hall t.underway k htask

/-- Whatever is left of an event can happen without anything being published. -/
theorem exists_plainEvent {e e' : InletEvent} (hworld : t.plain = u.plain)
    (hevent : t.plainEvent? e = some e') :
    ∃ d, u.plainEvent? d = some e' ∧ ∀ c, d = .begins c → c.plain? = some c := by
  cases e with
  | begins c =>
      obtain ⟨c', hc, rfl⟩ := Option.map_eq_some_iff.mp hevent
      have hidem := Cue.plain?_idem hc
      refine ⟨.begins c', by simp [plainEvent?, hidem], ?_⟩
      rintro d ⟨⟩
      exact hidem
  | proceeds place =>
      obtain ⟨task', htask, rfl⟩ := Option.map_eq_some_iff.mp hevent
      obtain ⟨task, hplace, hplain⟩ := Option.bind_eq_some_iff.mp htask
      obtain ⟨hranked, -⟩ := plain_underway hplace hplain
      rw [hworld] at hranked
      obtain ⟨other, task'', hother, hplain', hrank⟩ := exists_rank hranked
      refine ⟨.proceeds other, by simp [plainEvent?, hother, hplain', hrank], ?_⟩
      rintro d ⟨⟩
  | reads call =>
      refine ⟨.reads call, hevent, ?_⟩
      rintro d ⟨⟩
  | readerLeaves =>
      refine ⟨.readerLeaves, hevent, ?_⟩
      rintro d ⟨⟩

/-- Of every run the same is left as of one in which nothing is published. -/
theorem exists_plain (events : List InletEvent) (hworld : t.plain = u.plain) :
    ∃ others, plainEvents others u = plainEvents events t ∧
      ∀ c, .begins c ∈ others → c.plain? = some c := by
  induction events generalizing t u with
  | nil => exact ⟨[], rfl, by simp⟩
  | cons e events ih =>
      have hstep := step_plain t e
      cases hevent : t.plainEvent? e with
      | none =>
          rw [hevent] at hstep
          obtain ⟨others, hothers, hquiet⟩ := ih (hstep.trans hworld)
          exact ⟨others, by simp [plainEvents, hevent, hothers], hquiet⟩
      | some e' =>
          obtain ⟨d, hd, hbegins⟩ := exists_plainEvent hworld hevent
          have hstep' := step_plain u d
          rw [hevent] at hstep
          rw [hd, ← hworld, ← hstep] at hstep'
          obtain ⟨others, hothers, hquiet⟩ := ih hstep'.symm
          refine ⟨d :: others, by simp [plainEvents, hevent, hd, hothers], ?_⟩
          intro c hc
          rcases List.mem_cons.mp hc with hfirst | hlater
          · exact hbegins c hfirst.symm
          · exact hquiet c hlater

end InletTraffic

end CreditFlow
