import CreditFlow.Proofs.ChainBudget
import CreditFlow.Proofs.LineWatch
import Mathlib.Tactic.Common

/-!
# Backpressure along a pipe

However many hops a pipe has, its writer is at most one item ahead of what is consumed at
the end, and never has credit for more than one.  The end of a pipe keeps room for one
item: an inlet as soon as it has been subscribed, and a stream while it has asked.  What an
end asks for, it asks for because it has used an item up, or to fill its room.  So what was
asked of the chain is at most what was consumed and the room, and the accounts of the chain
carry this to the writer.

Main results:

- {lit}`Sink.hear_balances`, {lit}`Sink.read_balances`: an end asks for what it has used up,
  or to fill its room.
- {lit}`Line.Frugal.absorb`: a move of the chain leaves the accounts of the line right.
- {lit}`Pipe.Frugal.step`: so does everything that can happen along a pipe.
- {lit}`Pipe.run_backpressure`: hops add no buffering.
-/

namespace CreditFlow

/-! ## The end of a pipe -/

/-- Whether a reaction notes an empty chunk that was skipped. -/
def Reaction.isSkip {ι : Type} : Reaction ι → Bool
  | .note n => n.isSkip
  | _ => false

/-- An inlet has room for one item as soon as it has been subscribed. -/
def Inlet.room (b : Inlet Unit) : Nat :=
  match b.slot with
  | .vacant => 0
  | _ => 1

namespace Sink

/-- How many items wait at the end. -/
def items : Sink → Nat
  | inlet b => b.chunks.length
  | stream s => s.items
  | _ => 0

/-- The room that the end keeps. -/
def room : Sink → Nat
  | inlet b => b.room
  | stream s => s.room
  | _ => 0

/-- The end of a line has room for one item at most. -/
theorem room_le (k : Sink) : k.room ≤ 1 := by
  cases k with
  | inlet b =>
      simp only [room, Inlet.room]
      split <;> omega
  | stream s => exact s.room_le
  | nobody => exact Nat.zero_le _
  | listener l => exact Nat.zero_le _
  | recorder r => exact Nat.zero_le _

/-- The end of a pipe changes, and `cs` are its controls.  It has been given `gained` items
and has used up `used`: what waits and what it asks for fits into its room, and it asks for
what it has used up or to fill its room. -/
structure Balances (k k' : Sink) (cs : List Control) (gained used : Nat) : Prop where
  ending : k'.ending? = k.ending?
  held : (cs.map Control.asks).sum + k'.items + k.room ≤ k'.room + k.items + gained
  asked : (cs.map Control.asks).sum + k.room ≤ used + k'.room

/-- An inlet that asks for nothing is in balance when its room stays and no more waits. -/
theorem inlet_balances {b b' : Inlet Unit} {cs : List Control}
    (hitems : b'.chunks.length ≤ b.chunks.length) (hroom : b'.room = b.room)
    (hnone : (cs.map Control.asks).sum = 0) (gained used : Nat) :
    Balances (.inlet b) (.inlet b') cs gained used := by
  refine ⟨rfl, ?_, ?_⟩
  · simp only [items, room, hroom, hnone]
    omega
  · simp only [room, hroom, hnone]
    omega

/-- A completion takes no chunk, and makes no room. -/
theorem completeStream_parts (b : Inlet Unit) :
    b.completeStream.1.chunks = b.chunks ∧ b.completeStream.1.room = b.room := by
  unfold Inlet.completeStream
  split
  · exact ⟨rfl, rfl⟩
  · exact ⟨by simp [Inlet.chunks], rfl⟩

/-- An inlet that has room for one item. -/
theorem room_of_installed {b : Inlet Unit} {handle : Unit} (hslot : b.slot = .installed handle) :
    b.room = 1 := by
  simp [Inlet.room, hslot]

/-- The first subscription is asked for one item, for which there is room from then on. -/
theorem subscribed_balances (handle : Unit) (b : Inlet Unit) (gained used : Nat) :
    Balances (.inlet b) (.inlet (b.subscribed handle).1) (Reaction.controls (b.subscribed handle).2)
      gained used := by
  unfold Inlet.subscribed
  cases hslot : b.slot with
  | vacant =>
      have hroom : b.room = 0 := by simp [Inlet.room, hslot]
      refine ⟨rfl, ?_, ?_⟩
      · simp only [items, room, hroom]
        change 1 + 0 + b.chunks.length + 0 ≤ 1 + b.chunks.length + gained
        omega
      · simp only [room, hroom]
        exact Nat.le_add_left _ _
  | installed first => exact inlet_balances (Nat.le_refl _) rfl rfl _ _
  | closed => exact inlet_balances (Nat.le_refl _) rfl rfl _ _

/-- A chunk that is accepted waits, and an empty one is skipped and asked for again. -/
theorem next_balances (chunk : Octets) (b : Inlet Unit) :
    Balances (.inlet b) (.inlet (b.next chunk).1) (Reaction.controls (b.next chunk).2) 1
      ((b.next chunk).2.countP Reaction.isSkip) := by
  unfold Inlet.next
  split
  · rename_i handle hslot hopen
    have hroom := room_of_installed hslot
    by_cases hcredit : b.credit = 0
    · rw [if_pos hcredit]
      refine inlet_balances ?_ (hroom.symm ▸ rfl) rfl _ _
      simp [Inlet.chunks]
    · rw [if_neg hcredit]
      by_cases hempty : chunk.isEmpty
      · rw [if_pos hempty]
        refine ⟨rfl, ?_, ?_⟩
        · change 1 + 0 + b.chunks.length + b.room ≤ b.room + b.chunks.length + 1
          omega
        · change 1 + 0 + b.room ≤ 1 + b.room
          omega
      · rw [if_neg hempty]
        refine ⟨rfl, ?_, Nat.le_refl (0 + b.room)⟩
        have hone : Inlet.chunks
            { b with credit := b.credit - 1, queue := b.queue ++ [.data chunk] } =
              b.chunks ++ [chunk] := by
          simp [Inlet.chunks]
        simp only [items, hone, List.length_append, List.length_singleton]
        change 0 + (b.chunks.length + 1) + b.room ≤ b.room + b.chunks.length + 1
        omega
  · exact inlet_balances (Nat.le_refl _) rfl rfl _ _

/-- An inlet that is told of an item or of anything else asks only for what it has room for. -/
theorem signal_balances (s : Signal Unit) (b : Inlet Unit) :
    Balances (.inlet b) (.inlet (b.signal s).1) (Reaction.controls (b.signal s).2)
      (Emission.item (.signal s)) ((b.signal s).2.countP Reaction.isSkip) := by
  cases s with
  | subscribed handle => exact subscribed_balances handle b _ _
  | next chunk => exact next_balances chunk b
  | error cause =>
      refine inlet_balances ?_ ?_ ?_ _ _
      · exact Nat.le_of_eq (congrArg List.length (Inlet.failStream_chunks _ _))
      · simp [Inlet.room, Inlet.signal, Inlet.error, Inlet.resolveMetadata]
      · simp [Inlet.signal, Inlet.error, Inlet.resolveMetadata]
  | complete =>
      obtain ⟨hchunks, hroom⟩ := completeStream_parts
        (b.resolveMetadata .missing .completedWithoutMetadata).1
      refine inlet_balances ?_ ?_ ?_ _ _
      · exact Nat.le_of_eq (congrArg List.length hchunks)
      · exact hroom
      · simp [Inlet.signal, Inlet.complete, Inlet.resolveMetadata]

/-- What a stream hears waits in it. -/
theorem stream_balances (e : Emission) (p : PullStream Unit) :
    Balances (.stream p) (hear e (.stream p)).1
      (Reaction.controls (hear e (.stream p)).2.reactions) e.item 0 := by
  cases e with
  | signal s =>
      rcases p.hear_items s with ⟨hitems, hroom⟩
      have hnone : ((Reaction.controls (hear (.signal s) (.stream p)).2.reactions).map
          Control.asks).sum = 0 := by
        simp only [hear]
        rw [Reaction.controls_map (fun _ => ()) fun _ => .release]
        exact Chain.releases_ask _
      refine ⟨rfl, ?_, ?_⟩
      · rw [hnone]
        simp only [hear, items, room, hroom]
        omega
      · rw [hnone]
        simp only [hear, room, hroom]
        omega
  | hangUp =>
      rcases p.hangUp_items with ⟨hitems, hroom⟩
      refine ⟨rfl, ?_, ?_⟩
      · simp only [hear, items, room, hitems, hroom]
        exact Nat.le_of_eq (by simp [Emission.item, Nat.add_comm])
      · simp only [hear, room, hroom]
        exact Nat.le_refl _

/-- Whatever the end of a pipe hears, it asks only for what it has room for, and for what it
has skipped. -/
theorem hear_balances (e : Emission) {k : Sink} {ending : PipeEnd}
    (hending : k.ending? = some ending) :
    k.Balances (k.hear e).1 (Reaction.controls (k.hear e).2.reactions) e.item
      (if ending = .reader then (k.hear e).2.reactions.countP Reaction.isSkip else 0) := by
  cases k with
  | inlet b =>
      cases hending
      cases e with
      | signal s => exact signal_balances s b
      | hangUp => exact inlet_balances (Nat.le_refl _) rfl rfl _ _
  | stream p =>
      cases hending
      exact stream_balances e p
  | nobody | listener l | recorder r => cases hending

/-- Closing asks for nothing, and leaves room for nothing that would come. -/
theorem close_balances (b : Inlet Unit) :
    Balances (.inlet b) (.inlet b.close.1) (Reaction.controls b.close.2) 0 0 := by
  unfold Inlet.close
  cases hslot : b.slot with
  | vacant =>
      have hroom : b.room = 0 := by simp [Inlet.room, hslot]
      refine ⟨rfl, ?_, ?_⟩
      · simp only [items, room, hroom]
        change 0 + b.chunks.length + 0 ≤ 1 + b.chunks.length + 0
        omega
      · simp only [room, hroom]
        exact Nat.zero_le _
  | installed handle =>
      have hroom := room_of_installed hslot
      dsimp only
      refine inlet_balances ?_ ?_ ?_ 0 0
      · exact Nat.le_refl _
      · exact hroom.symm
      · split <;> rfl
  | closed => exact inlet_balances (Nat.le_refl _) rfl rfl 0 0

/-- Whoever takes a chunk asks for the next one. -/
theorem refill_balances {b : Inlet Unit} {interrupted : Bool}
    {a : Inlet.Answer Unit (Except Failure Bool)} (hrefill : b.refill interrupted = some a) :
    Balances (.inlet b) (.inlet a.after) (Reaction.controls a.reactions) 0
      (b.chunks.length - a.after.chunks.length) := by
  have hsame : Balances (.inlet b) (.inlet b) [] 0 (b.chunks.length - b.chunks.length) :=
    inlet_balances (Nat.le_refl _) rfl rfl 0 _
  have hskipped : ∀ {rest : List Element} (e : Element), e.chunk? = none →
      b.queue = e :: rest → b.chunks = rest.filterMap Element.chunk? := by
    intro rest e hnone hqueue
    simp [Inlet.chunks, hqueue, hnone]
  unfold Inlet.refill at hrefill
  split at hrefill
  · cases hrefill
    exact hsame
  · cases hrefill
    exact hsame
  · split at hrefill
    · rename_i chunk rest hqueue
      have hchunks : b.chunks.length =
          (rest.filterMap Element.chunk?).length + 1 := by
        simp [Inlet.chunks, hqueue]
      split at hrefill
      · rename_i handle hslot
        have hroom := room_of_installed hslot
        cases hrefill
        have htaken : b.chunks.length - (rest.filterMap Element.chunk?).length = 1 := by omega
        refine ⟨rfl, ?_, ?_⟩
        · change 1 + 0 + (rest.filterMap Element.chunk?).length + b.room ≤
            b.room + b.chunks.length + 0
          omega
        · change 1 + 0 + b.room ≤
            (b.chunks.length - (rest.filterMap Element.chunk?).length) + b.room
          omega
      · cases hrefill
        refine inlet_balances ?_ ?_ ?_ 0 _
        · change (rest.filterMap Element.chunk?).length ≤ b.chunks.length
          omega
        · rfl
        · rfl
    · rename_i rest hqueue
      cases hrefill
      refine inlet_balances ?_ ?_ ?_ 0 _
      · exact Nat.le_of_eq (congrArg List.length (hskipped _ rfl hqueue).symm)
      · rfl
      · rfl
    · rename_i f rest hqueue
      cases hrefill
      refine inlet_balances ?_ ?_ ?_ 0 _
      · exact Nat.le_of_eq (congrArg List.length (hskipped _ rfl hqueue).symm)
      · rfl
      · rfl
    · split at hrefill
      · cases hrefill
        exact hsame
      · split at hrefill
        · cases hrefill
          exact hsame
        · cases hrefill

/-- A reading call asks for as many chunks as it takes. -/
theorem read_balances {b : Inlet Unit} {n : Nat} {interrupted : Bool}
    {a : Inlet.Answer Unit (Except Failure Octets)} (hread : b.read n interrupted = some a) :
    Balances (.inlet b) (.inlet a.after) (Reaction.controls a.reactions) 0
      (b.chunks.length - a.after.chunks.length) := by
  have hsame : ∀ b' : Inlet Unit, b'.chunks = b.chunks → b'.room = b.room →
      Balances (.inlet b) (.inlet b') [] 0 (b.chunks.length - b'.chunks.length) :=
    fun b' hchunks hroom => inlet_balances (Nat.le_of_eq (congrArg _ hchunks)) hroom rfl 0 _
  rcases Nat.eq_zero_or_pos n with rfl | hn
  · cases hread
    exact hsame b rfl rfl
  · rcases Inlet.hold_of_read hn hread with ⟨held, hhold, rfl⟩
    have htake : ∀ b' : Inlet Unit, (Inlet.takeUpTo n held.value b').2.chunks = b'.chunks ∧
        (Inlet.takeUpTo n held.value b').2.room = b'.room := by
      intro b'
      match held.value with
      | .ok true => exact ⟨rfl, rfl⟩
      | .ok false => exact ⟨rfl, rfl⟩
      | .error f => exact ⟨rfl, rfl⟩
    unfold Inlet.hold at hhold
    split at hhold
    · rcases htake held.after with ⟨hchunks, hroom⟩
      have hrefilled := refill_balances hhold
      refine ⟨rfl, ?_, ?_⟩
      · have hheld := hrefilled.held
        simp only [items, room] at hheld ⊢
        rw [Inlet.Answer.andThen, hchunks, hroom]
        exact hheld
      · have hasked := hrefilled.asked
        simp only [room] at hasked ⊢
        rw [Inlet.Answer.andThen, hchunks, hroom]
        exact hasked
    · cases hhold
      rcases htake b with ⟨hchunks, hroom⟩
      exact hsame _ hchunks hroom

end Sink

/-! ## The accounts of a line -/

namespace Line

/-- How many items the end of a line has let pass by itself. -/
def passed (ending : PipeEnd) (l : Line) : Nat :=
  match ending with
  | .reader => l.skipped
  | .stream => 0

/-- The accounts of a line whose writer has pushed so many items, and from whose end `used`
items were taken.  The end is still to be given `pending` items. -/
structure Frugal (ending : PipeEnd) (pushes : Option Nat) (used pending : Nat) (l : Line) :
    Prop where
  kind : l.sink.ending? = some ending
  budget : ∃ asked, asked ≤ used + l.passed ending + l.sink.room ∧
    l.chain.Frugal pushes asked (l.sink.items + pending) l.sink.room

variable {ending : PipeEnd} {pushes : Option Nat} {used pending : Nat} {l : Line}

/-- A pipe with a reader ends in an inlet, whatever becomes of it. -/
theorem Frugal.inlet (h : l.Frugal .reader pushes used pending) : ∃ b, l.sink = .inlet b := by
  have hkind := h.kind
  cases hsink : l.sink with
  | inlet b => exact ⟨b, rfl⟩
  | stream s => simp [hsink, Sink.ending?] at hkind
  | nobody | listener listener | recorder r => simp [hsink, Sink.ending?] at hkind

/-- A line that ends in a stream has a stream at its end. -/
theorem Frugal.stream (h : l.Frugal .stream pushes used pending) : ∃ s, l.sink = .stream s := by
  have hkind := h.kind
  cases hsink : l.sink with
  | stream s => exact ⟨s, rfl⟩
  | inlet b => simp [hsink, Sink.ending?] at hkind
  | nobody | listener listener | recorder r => simp [hsink, Sink.ending?] at hkind

/-- Skips that are noted are counted. -/
theorem skipped_reactAll (rs : List (Reaction Unit)) (l : Line) :
    l.skipped + rs.countP Reaction.isSkip ≤ (l.reactAll rs).skipped := by
  induction rs generalizing l with
  | nil => exact Nat.le_refl _
  | cons r rs ih =>
      have hrest := ih (l.react r)
      have hfirst : l.skipped + (if r.isSkip then 1 else 0) ≤ (l.react r).skipped := by
        cases r with
        | note n =>
            simp only [react, note, skipped, List.countP_append, List.countP_cons,
              List.countP_nil, Nat.zero_add]
            exact Nat.le_refl _
        | interrupt => exact Nat.le_refl _
        | control handle c =>
            simp only [react, note, wake, skipped, List.countP_append]
            exact Nat.le_add_right _ _
      rw [List.countP_cons]
      change _ ≤ ((l.react r).reactAll rs).skipped
      omega

/-- The end changes and carries out its controls. -/
theorem Frugal.reactAll {gained used' : Nat}
    (h : l.Frugal ending pushes used (gained + pending)) (spent : Nat) {l' : Line}
    {rs : List (Reaction Unit)}
    (hchain : l'.chain = l.chain)
    (hbalances : l.sink.Balances l'.sink (Reaction.controls rs) gained spent)
    (hused : used + l.passed ending + spent ≤ used' + (l'.reactAll rs).passed ending) :
    (l'.reactAll rs).Frugal ending pushes used' pending := by
  rcases h.budget with ⟨asked, hasked, hchainfrugal⟩
  rcases reactAll_parts rs l' with ⟨hchain', hsink', -, -⟩
  have hheld := hbalances.held
  have hfilled := hbalances.asked
  refine ⟨?_, asked + ((Reaction.controls rs).map Control.asks).sum, ?_, ?_⟩
  · rw [hsink', hbalances.ending]
    exact h.kind
  · rw [hsink']
    omega
  · rw [hchain', hchain, hsink']
    exact (hchainfrugal.controls _).mono (Nat.le_refl _) (by omega)

/-- What a line hears is given to its end. -/
theorem Frugal.hear {e : Emission} (h : l.Frugal ending pushes used (e.item + pending)) :
    (l.hear e).Frugal ending pushes used pending := by
  let heard : Line :=
    { l with
      sink := (l.sink.hear e).1
      calls := l.calls ++ (l.sink.hear e).2.calls
      woken := l.woken || (l.sink.hear e).2.woken }
  have hskipped : l.skipped + (l.sink.hear e).2.reactions.countP Reaction.isSkip ≤
      (heard.reactAll (l.sink.hear e).2.reactions).skipped :=
    skipped_reactAll (l.sink.hear e).2.reactions heard
  change (heard.reactAll (l.sink.hear e).2.reactions).Frugal ending pushes used pending
  apply h.reactAll
  · rfl
  · exact Sink.hear_balances e h.kind
  · cases ending with
    | reader =>
        simp only [passed, if_true]
        omega
    | stream => exact Nat.le_refl _

/-- What the end is still to be given it has been given when it has heard of it. -/
theorem Frugal.hears {es : List Emission}
    (h : l.Frugal ending pushes used (Emission.items es + pending)) :
    (es.foldl Line.hear l).Frugal ending pushes used pending := by
  induction es generalizing l with
  | nil => simpa using h
  | cons e es ih =>
      rw [Emission.items_cons, Nat.add_assoc] at h
      exact ih h.hear

/-- What concerns neither the chain nor the end changes no account. -/
theorem Frugal.of_eq (h : l.Frugal ending pushes used pending) {l' : Line}
    (hchain : l'.chain = l.chain) (hsink : l'.sink = l.sink)
    (hskipped : l.skipped ≤ l'.skipped) : l'.Frugal ending pushes used pending := by
  rcases h.budget with ⟨asked, hasked, hfrugal⟩
  have hpassed : l.passed ending ≤ l'.passed ending := by
    cases ending with
    | reader => exact hskipped
    | stream => exact Nat.le_refl _
  refine ⟨?_, asked, ?_, ?_⟩
  · rw [hsink]
    exact h.kind
  · rw [hsink]
    omega
  · rw [hchain, hsink]
    exact hfrugal

/-! ## Moves -/

/-- Whatever keeps the accounts of the chain keeps those of the line: what the chain emits is
given to the end. -/
theorem Frugal.absorb (h : l.Frugal ending pushes used 0) {r : Chain × Burst}
    {pushes' : Option Nat}
    (hmove : ∀ {asked items room : Nat}, l.chain.Frugal pushes asked items room →
      r.1.Frugal pushes' asked (items + Emission.items r.2.emissions) room)
    (running : Option Nat) :
    ({ l with running := running }.absorb r).Frugal ending pushes' used 0 := by
  rcases h.budget with ⟨asked, hasked, hfrugal⟩
  have hplaced : ({ l with running := running, chain := r.1 }.note r.2.notes).Frugal ending pushes'
      used (Emission.items r.2.emissions + 0) := by
    have hskipped : l.passed ending ≤
        ({ l with running := running, chain := r.1 }.note r.2.notes).passed ending := by
      cases ending with
      | reader =>
          simp only [passed, note, skipped, List.countP_append]
          exact Nat.le_add_right _ _
      | stream => exact Nat.le_refl _
    refine ⟨h.kind, asked, ?_, hmove hfrugal⟩
    change asked ≤ used + _ + l.sink.room
    omega
  have htold := hplaced.hears
  unfold Line.absorb
  dsimp only
  rw [performs_of_ending _ htold.kind]
  exact htold.of_eq rfl rfl (Nat.le_refl _)

/-- Every move of the tasks keeps the accounts. -/
theorem Frugal.tick (h : l.Frugal ending pushes used 0) {l' : Line} (htick : l.tick = some l') :
    l'.Frugal ending pushes used 0 := by
  unfold Line.tick at htick
  cases hrunning : l.running with
  | some k =>
      rw [hrunning] at htick
      cases htick
      exact h.absorb (fun hfrugal => hfrugal.turn k) _
  | none =>
      rw [hrunning] at htick
      cases hready : l.ready with
      | nil =>
          rw [hready] at htick
          cases htick
      | cons k rest =>
          rw [hready] at htick
          cases htick
          exact h.of_eq rfl rfl (Nat.le_refl _)

theorem Frugal.prefer (h : l.Frugal ending pushes used 0) (task : Nat) :
    (l.prefer task).Frugal ending pushes used 0 := by
  obtain ⟨ready, hprefer, -⟩ := l.prefer_eq task
  rw [hprefer]
  exact h.of_eq rfl rfl (Nat.le_refl _)

/-! ## Operations at the writer -/

/-- The writer of a line whose accounts are right may push at most one item. -/
theorem Frugal.writer {pushed : Nat} (h : l.Frugal ending (some pushed) used pending) :
    ∃ o, l.chain.writer? = some o ∧ o.ledger.demand.items ≤ 1 := by
  rcases h.budget with ⟨asked, -, hfrugal⟩
  exact hfrugal.demand_le l.sink.room_le

/-- What the writer hands over uses the credit that it was given. -/
theorem Frugal.atWriter {pushed pushed' : Nat} (h : l.Frugal ending (some pushed) used 0)
    {o : Outlet} (hwriter : l.chain.writer? = some o)
    {f : Outlet → Outlet × List Notice × List Emission}
    (hheld : (f o).1.ledger.demand.items + Emission.items (f o).2.2 ≤ o.ledger.demand.items)
    (hpushes : pushed' + (f o).1.ledger.demand.items ≤ pushed + o.ledger.demand.items) :
    (l.atWriter f).Frugal ending (some pushed') used 0 :=
  h.absorb (fun hfrugal => hfrugal.atWriter hwriter hheld hpushes) l.running

/-- An operation that hands nothing over and leaves the credit alone. -/
theorem Frugal.calmly {pushed : Nat} (h : l.Frugal ending (some pushed) used 0)
    {f : Outlet → Outlet × List Notice × List Emission}
    (hcredit : ∀ o, (f o).1.ledger.demand = o.ledger.demand)
    (hnothing : ∀ o, Emission.items (f o).2.2 = 0) :
    (l.atWriter f).Frugal ending (some pushed) used 0 := by
  rcases h.writer with ⟨o, hwriter, -⟩
  apply h.atWriter hwriter
  · rw [hcredit, hnothing]
    exact Nat.le_refl _
  · exact Nat.le_of_eq (congrArg (pushed + ·.items) (hcredit o))

/-- The end of a stream brings no item. -/
theorem ending_items (f : Finish) (silent : Bool) (o : Outlet) :
    (Line.ending f silent o).1.ledger.demand = o.ledger.demand ∧
      Emission.items (Line.ending f silent o).2.2 = 0 := by
  have hfarewell : Emission.items (Outlet.farewell f).2 = 0 := by cases f <;> rfl
  simp only [Line.ending, fuse, Outlet.conclude]
  split
  · exact ⟨rfl, rfl⟩
  · split
    · exact ⟨rfl, rfl⟩
    · exact ⟨rfl, hfarewell⟩
  · exact ⟨rfl, rfl⟩

/-- Closing the stream pushes nothing. -/
theorem Frugal.closeWriter {pushed : Nat} (h : l.Frugal ending (some pushed) used 0) :
    l.closeWriter.2.Frugal ending (some pushed) used 0 := by
  rcases l.closeWriter_cases with ⟨hsame, -⟩ | ⟨o, -, -, hafter⟩
  · rw [hsame]
    exact h
  · rw [hafter]
    apply h.calmly
    · exact fun o' => (ending_items .complete o.ledger.cancelled o'.shut.1).1
    · exact fun o' => (ending_items .complete o.ledger.cancelled o'.shut.1).2

/-- Going away pushes nothing. -/
theorem Frugal.dropWriter {pushed : Nat} (h : l.Frugal ending (some pushed) used 0) :
    l.dropWriter.Frugal ending (some pushed) used 0 := by
  rcases l.dropWriter_cases with ⟨hsame, -⟩ | ⟨o, -, ⟨-, hafter⟩ | ⟨-, hafter⟩⟩
  · rw [hsame]
    exact h
  · rw [hafter]
    exact h.calmly (fun _ => rfl) fun _ => rfl
  · rw [hafter]
    have hended := h.calmly (fun o' => (ending_items .abandoned o.ledger.cancelled o').1)
      fun o' => (ending_items .abandoned o.ledger.cancelled o').2
    exact hended.calmly (fun _ => rfl) fun _ => rfl

/-- An item that is accepted was asked for. -/
theorem Frugal.push {pushed : Nat} (h : l.Frugal ending (some pushed) used 0) {item : Octets}
    {answer : Except Failure Unit} {after : Line} (hpush : l.push item = some (answer, after)) :
    (answer = .ok () ∧ after.Frugal ending (some (pushed + 1)) used 0) ∨
      (answer ≠ .ok () ∧ after.Frugal ending (some pushed) used 0) := by
  have hpushes := pushes_push item l
  rw [hpush] at hpushes
  cases hpushes with
  | refused f => exact .inr ⟨nofun, h⟩
  | unattached o hwriter hdemand hnobody f =>
      refine .inr ⟨nofun, h.atWriter hwriter ?_ ?_⟩
      · simp only [quietly, Ledger.spent, Demand.spend_items, Emission.items_nil]
        omega
      · simp only [quietly, Ledger.spent, Demand.spend_items]
        omega
  | accepted o hwriter hopen hdemand hattached =>
      have hhanded : (l.atWriter (handover o.ledger.spent item)).Frugal ending
          (some (pushed + 1)) used 0 := by
        apply h.atWriter hwriter
        · change o.ledger.demand.spend.items + 1 ≤ _
          rw [Demand.spend_items]
          omega
        · change pushed + 1 + o.ledger.demand.spend.items ≤ _
          rw [Demand.spend_items]
          omega
      exact .inl ⟨rfl, hhanded.calmly (fun _ => rfl) fun _ => rfl⟩

/-! ## Operations at the end -/

/-- The end does something, and asks for what it has used up or to fill its room. -/
theorem Frugal.atEnd (h : l.Frugal ending pushes used 0) (spent : Nat) {l' : Line}
    {rs : List (Reaction Unit)} (hchain : l'.chain = l.chain) (hskipped : l.skipped ≤ l'.skipped)
    (hbalances : l.sink.Balances l'.sink (Reaction.controls rs) 0 spent) :
    (l'.reactAll rs).Frugal ending pushes (used + spent) 0 := by
  have hpassed : l.passed ending ≤ (l'.reactAll rs).passed ending := by
    cases ending with
    | reader =>
        have hnoted := skipped_reactAll rs l'
        simp only [passed]
        omega
    | stream => exact Nat.le_refl _
  rw [← Nat.zero_add 0] at h
  apply h.reactAll spent hchain hbalances
  omega

/-- An inlet at the end is changed. -/
theorem Frugal.commit (h : l.Frugal ending pushes used 0) {b b' : Inlet Unit}
    (hsink : l.sink = .inlet b) {rs : List (Reaction Unit)} {spent : Nat}
    (hbalances : Sink.Balances (.inlet b) (.inlet b') (Reaction.controls rs) 0 spent) :
    (l.commit b' rs).Frugal ending pushes (used + spent) 0 := by
  unfold Line.commit
  apply h.atEnd
  · rfl
  · exact Nat.le_refl _
  · rw [hsink]
    exact hbalances

/-- Whoever closes the inlet at the end of a line asks for nothing. -/
theorem Frugal.change (h : l.Frugal ending pushes used 0)
    {f : Inlet Unit → Inlet Unit × List (Reaction Unit)}
    (hbalances : ∀ b, Sink.Balances (.inlet b) (.inlet (f b).1) (Reaction.controls (f b).2) 0 0) :
    (Reader.change f l).Frugal ending pushes used 0 := by
  unfold Reader.change
  cases hinlet : l.sink.inlet? with
  | none =>
      have hnone : HasInlet.inlet? l = none := hinlet
      rw [hnone]
      exact h
  | some b =>
      have hsome : HasInlet.inlet? l = some b := hinlet
      have hsink : l.sink = .inlet b := by
        cases hk : l.sink <;> simp_all [Sink.inlet?]
      rw [hsome]
      exact h.commit hsink (hbalances b)

/-- What a poll asks of the publisher. -/
def asking : Attention Unit → List (Reaction Unit)
  | .asks handle => [.control handle (.request 1)]
  | .answer _ => []

/-- How many items a poll has yielded. -/
def yielding : Attention Unit → Nat
  | .answer p => if p.isItem then 1 else 0
  | .asks _ => 0

/-- A stream that is looked at asks when it has no room, and gives its room away with the
item that it yields. -/
theorem attend_balances {s s' : PullStream Unit} {notes : List Notice}
    {attention : Attention Unit} (hattend : s.attend = (s', notes, attention)) :
    Sink.Balances (.stream s) (.stream s') (Reaction.controls (asking attention)) 0
      (yielding attention) := by
  have hbalanced := PullStream.attend_balanced hattend
  have hle := s.room_le
  cases attention with
  | asks handle =>
      rcases hbalanced with ⟨hnone, hone, hempty⟩
      refine ⟨rfl, ?_, ?_⟩
      · change 1 + 0 + s'.items + s.room ≤ s'.room + s.items + 0
        omega
      · change 1 + 0 + s.room ≤ 0 + s'.room
        omega
  | answer p =>
      cases p with
      | item chunk =>
          rcases hbalanced with ⟨hnone, hitems⟩
          refine ⟨rfl, ?_, ?_⟩
          · change 0 + s'.items + s.room ≤ s'.room + s.items + 0
            omega
          · change 0 + s.room ≤ 1 + s'.room
            omega
      | pending | failed cause | ended =>
          rcases hbalanced with ⟨hroom, hitems⟩
          refine ⟨rfl, ?_, ?_⟩
          · change 0 + s'.items + s.room ≤ s'.room + s.items + 0
            omega
          · change 0 + s.room ≤ 0 + s'.room
            omega

/-- The stream at the end of a line is looked at. -/
theorem Frugal.attends (h : l.Frugal ending pushes used 0) {s s' : PullStream Unit}
    (hsink : l.sink = .stream s) {notes : List Notice} {attention : Attention Unit}
    (hattend : s.attend = (s', notes, attention)) (woken : Bool) :
    (({ l with woken := woken, sink := .stream s' }.note notes).reactAll
      (asking attention)).Frugal ending pushes (used + yielding attention) 0 := by
  apply h.atEnd
  · rfl
  · simp only [note, skipped, List.countP_append]
    exact Nat.le_add_right _ _
  · rw [hsink]
    exact attend_balances hattend

/-- A poll that yields an item has used it up. -/
theorem Frugal.poll (h : l.Frugal ending pushes used 0) :
    l.poll.2.Frugal ending pushes (used + if l.poll.1.isItem then 1 else 0) 0 := by
  cases hsink : l.sink with
  | stream s =>
      obtain ⟨s', notes, attention, hattend⟩ : ∃ s' notes attention,
          s.attend = (s', notes, attention) := ⟨_, _, _, rfl⟩
      have hfirst := h.attends hsink hattend false
      cases attention with
      | answer p =>
          have hpoll : l.poll = (p, { l.unwoken with sink := .stream s' }.note notes) := by
            simp only [Line.poll, hsink, hattend]
          rw [hpoll]
          exact hfirst
      | asks handle =>
          rcases PullStream.attend_balanced hattend with ⟨-, hone, -⟩
          obtain ⟨s'', more, attention, hagain⟩ : ∃ s'' more attention,
              s'.attend = (s'', more, attention) := ⟨_, _, _, rfl⟩
          cases attention with
          | answer p =>
              let asked := ({ l.unwoken with sink := .stream s' }.note notes).react
                (.control handle (.request 1))
              have hstream : asked.sink = .stream s' := rfl
              have hpoll : l.poll = (p, { asked with sink := .stream s'' }.note more) := by
                simp only [Line.poll, hsink, hattend, asked, react, wake, note, hagain]
              have hsecond := Frugal.attends hfirst hstream hagain false
              rw [hpoll]
              exact hsecond
          | asks handle' =>
              -- A stream that has asked does not ask again.
              rcases PullStream.attend_balanced hagain with ⟨hnone, -⟩
              rw [hone] at hnone
              cases hnone
  | inlet b | nobody | listener listener | recorder r =>
      have hpoll : l.poll = (.pending, l) := by simp only [Line.poll, hsink]
      rw [hpoll]
      exact h

/-- A stream that is dropped asks for nothing more. -/
theorem Frugal.dropStream (h : l.Frugal ending pushes used 0) :
    l.dropStream.Frugal ending pushes used 0 := by
  unfold Line.dropStream
  cases hsink : l.sink with
  | stream s =>
      rcases s.drop_items with ⟨hempty, hroom, hnone⟩
      apply Frugal.atEnd h 0
      · rfl
      · simp only [note, skipped, List.countP_append]
        exact Nat.le_add_right _ _
      · rw [hsink, Reaction.controls_map]
        refine ⟨rfl, ?_, ?_⟩
        · simp only [note, Sink.items, Sink.room, hnone, hempty, hroom]
          omega
        · simp only [note, Sink.room, hnone, hroom]
          exact Nat.le_refl _
  | inlet b | nobody | listener listener | recorder r => exact h

end Line

/-! ## Pipes -/

namespace Pipe

variable {ending : PipeEnd} {t : Pipe}

/-- What was taken at the end of a pipe. -/
def drawn (ending : PipeEnd) (t : Pipe) : Nat :=
  match ending with
  | .reader => t.taken
  | .stream => t.yielded

/-- How many items the end of a pipe has consumed: the chunks that the reader has taken and
the empty ones that the inlet has skipped, or the items that the stream has yielded. -/
def consumed (ending : PipeEnd) (t : Pipe) : Nat :=
  t.drawn ending + t.line.passed ending

/-- The accounts of a pipe. -/
def Frugal (ending : PipeEnd) (t : Pipe) : Prop :=
  t.line.Frugal ending (some t.accepted.length) (t.drawn ending) 0

/-- Whatever the writer does, the accounts are right. -/
theorem Frugal.write (h : t.Frugal ending) (s : WriterStep) : (t.write s).Frugal ending := by
  have hsteps := Writer.steps_step s t.line
  unfold Pipe.write
  generalize (Writer.step s).carry [] t.line = stepped at hsteps ⊢
  have hnone : ∀ {line : Line} {r : Reply},
      line.Frugal ending (some t.accepted.length) (t.drawn ending) 0 →
      (r.isAccepted = true → s.item? = none) →
        Frugal ending { t with
          line := line
          accepted := t.accepted ++ if r.isAccepted then s.item?.toList else [] } := by
    intro line r hline hnothing
    rw [Writer.accepted_of_nothing hnothing]
    exact hline
  cases hsteps with
  | idles r hnothing => exact hnone h hnothing
  | closes hstep hheld r =>
      subst hstep
      exact hnone h.closeWriter fun _ => rfl
  | leaves hstep hheld r =>
      subst hstep
      exact hnone h.dropWriter fun _ => rfl
  | pushes item hitem hheld answer after hpush r hreply =>
      rcases Line.Frugal.push h hpush with ⟨hok, hafter⟩ | ⟨hfailed, hafter⟩
      · have haccepted : r.isAccepted = true := hreply.mpr hok
        simp only [haccepted, if_true, hitem, Option.toList]
        change Line.Frugal ending (some (t.accepted ++ [item]).length) _ 0 after
        rw [List.length_append]
        exact hafter
      · exact hnone hafter fun haccepted => absurd (hreply.mp haccepted) hfailed

/-- What a call takes was asked for. -/
theorem Frugal.read (h : t.Frugal .reader) (call : ReadCall) : (t.read call).Frugal .reader := by
  rcases Line.Frugal.inlet h with ⟨b, hsink⟩
  unfold Pipe.read
  rw [Line.attempt_answer hsink]
  cases hread : b.read call.wanted t.line.interrupted with
  | none => exact h
  | some a =>
      have hwaiting : t.line.waiting = b.chunks.length := by
        simp [Line.waiting, hsink, Sink.inlet?]
      have hafter : (t.line.commit a.after a.reactions).waiting = a.after.chunks.length := by
        have hcommitted : (t.line.commit a.after a.reactions).sink = .inlet a.after :=
          (Line.reactAll_parts a.reactions { t.line with sink := .inlet a.after }).2.1
        simp [Line.waiting, hcommitted, Sink.inlet?]
      have htaken := Line.Frugal.commit h hsink (Sink.read_balances hread)
      rw [← hwaiting, ← hafter] at htaken
      exact htaken

/-- Whatever happens along a pipe, its accounts are right. -/
theorem Frugal.step (h : t.Frugal ending) (e : PipeEvent) : (t.step e).Frugal ending := by
  cases e with
  | ticks =>
      simp only [Pipe.step]
      cases htick : t.line.tick with
      | none => exact h
      | some l' => exact Line.Frugal.tick h htick
  | prefers task => exact Line.Frugal.prefer h task
  | writes s => exact h.write s
  | reads call =>
      cases ending with
      | reader =>
          simp only [Pipe.step]
          split
          · exact h.read call
          · exact h
      | stream =>
          rcases Line.Frugal.stream h with ⟨s, hsink⟩
          have hnone : Reader.isHeld t.line = false := by
            simp [Reader.isHeld, HasInlet.inlet?, hsink, Sink.inlet?]
          simp only [Pipe.step, hnone, Bool.false_eq_true, if_false]
          exact h
  | closes => exact Line.Frugal.change h Sink.close_balances
  | readerLeaves =>
      refine Line.Frugal.change h fun b => ?_
      rcases Sink.close_balances b with ⟨hending, hheld, hasked⟩
      exact ⟨hending, hheld, hasked⟩
  | interrupts => exact Line.Frugal.of_eq h rfl rfl (Nat.le_refl _)
  | polls =>
      cases ending with
      | reader =>
          rcases Line.Frugal.inlet h with ⟨b, hsink⟩
          rw [(Pipe.step_of_inlet hsink).1]
          exact h
      | stream =>
          simp only [Pipe.step]
          split
          · exact Line.Frugal.poll h
          · exact h
  | streamLeaves =>
      simp only [Pipe.step, Puller.drop]
      split
      · exact Line.Frugal.dropStream h
      · exact h

/-! ## The beginning -/

/-- Hops that nothing was asked of have asked for nothing. -/
theorem frugal_extend {pushes : Option Nat} {c : Chain} (h : c.Frugal pushes 0 0 0) (n : Nat) :
    (Chain.extend n c).Frugal pushes 0 0 0 := by
  induction n generalizing c with
  | zero => exact h
  | succ n ih =>
      refine ih ⟨0, h, Nat.le_refl _, fun _ _ => ?_, nofun⟩
      simp [Demand.zero_items]

/-- A pipe that was just put together has one item's room at most. -/
theorem start_frugal (contentLength n : Nat) (ending : PipeEnd) (interrupted : Bool) :
    (start contentLength n ending interrupted).Frugal ending := by
  unfold Frugal
  cases n with
  | zero =>
      cases ending with
      | reader =>
          rcases start_zero_reader contentLength interrupted with ⟨journal, hline⟩
          rw [hline]
          refine ⟨rfl, 1, ?_, ⟨0, rfl, ?_⟩, ?_⟩
          · exact Nat.le_add_left _ _
          · exact Nat.le_refl 1
          · exact Nat.le_refl 1
      | stream =>
          rcases start_zero_stream contentLength interrupted with ⟨journal, hline⟩
          rw [hline]
          refine ⟨rfl, 0, ?_, ⟨0, rfl, ?_⟩, ?_⟩
          · exact Nat.zero_le _
          · exact Nat.le_refl 0
          · exact Nat.le_refl 0
  | succ n =>
      rcases start_succ contentLength n ending interrupted with ⟨journal, hline⟩
      have hfirst : (Chain.hop (.writer (Outlet.greeted contentLength))
          { inbox := [.subscribed ()] } {}).Frugal (some 0) 0 0 0 := by
        refine ⟨0, ⟨⟨0, rfl, ?_⟩, ?_⟩, Nat.le_refl _, fun _ _ => ?_, nofun⟩
        · exact Nat.le_refl 0
        · exact Nat.le_refl 0
        · exact Nat.le_refl 0
      have hchain := frugal_extend hfirst n
      rw [hline]
      cases ending with
      | reader => exact ⟨rfl, 0, Nat.zero_le _, hchain⟩
      | stream => exact ⟨rfl, 0, Nat.zero_le _, hchain⟩

/-- However many hops a pipe has, and whatever happens along it, in whatever order: the
items whose push was accepted are at most one more than those that its end has consumed, and
the writer has credit for one item at most. -/
theorem run_backpressure (contentLength n : Nat) (ending : PipeEnd) (interrupted : Bool)
    (events : List PipeEvent) :
    let t := (start contentLength n ending interrupted).run events
    t.accepted.length ≤ t.consumed ending + 1 ∧
      ∃ o, t.line.chain.writer? = some o ∧ o.ledger.demand.items ≤ 1 := by
  intro t
  have h : t.Frugal ending :=
    run_keeps (fun e _ hbefore => hbefore.step e) (start_frugal contentLength n ending interrupted)
  refine ⟨?_, Line.Frugal.writer h⟩
  rcases Line.Frugal.budget h with ⟨asked, hasked, hfrugal⟩
  have hpushes := hfrugal.pushes_le
  have hroom := t.line.sink.room_le
  unfold consumed
  omega

end Pipe
end CreditFlow
