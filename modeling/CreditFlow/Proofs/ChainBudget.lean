import CreditFlow.Proofs.HopTurn
import CreditFlow.Proofs.Pipe
import Mathlib.Tactic.Common

/-!
# The budget of a chain

How many items a writer can have pushed into a chain, or a chain can have pulled from its
source, when its consumer has asked for so many.  A consumer that pulls keeps *room* for one
item while it has asked and has not been given it, and holds the items that wait for it.  Three
accounts are kept along the chain.

The writer has pushed at most what was asked of it, less what it may still push.  What it
may push, with what waits for the first consumer behind it, fits into the room there.  And
a hop has asked the chain before it for at most what it was asked for itself; the item
that it has room for is one that it still owes.

None of the accounts depends on the protocol's being kept: consumers may cancel, streams
may be dropped, and ends may come at any time.

Main results:

- {lit}`PullStream.attend_balanced`: what a poll does to the room and to what waits.
- {lit}`Chain.Frugal.controls`: what a consumer asks for is put down as asked.
- {lit}`Chain.Frugal.turn`, {lit}`Chain.Frugal.atWriter`: every move keeps the accounts.
- {lit}`Chain.Frugal.pushes_le`, {lit}`Chain.Frugal.demand_le`: what the accounts say of
  the writer.
- {lit}`Chain.Frugal.pulled_le`: and of the source.
-/

namespace CreditFlow

/-! ## What is counted -/

/-- Whether a signal brings an item. -/
def Signal.isNext {ι : Type} : Signal ι → Bool
  | .next _ => true
  | _ => false

/-- How many items an emission brings. -/
def Emission.item : Emission → Nat
  | .signal s => if s.isNext then 1 else 0
  | .hangUp => 0

/-- How many items several emissions bring. -/
def Emission.items (es : List Emission) : Nat :=
  (es.map item).sum

@[simp]
theorem Emission.items_nil : items [] = 0 := rfl

@[simp]
theorem Emission.items_cons (e : Emission) (es : List Emission) :
    items (e :: es) = e.item + items es := rfl

/-- How many items a control asks for. -/
def Control.asks : Control → Nat
  | .request n => n
  | _ => 0

namespace PullStream

/-- How many items wait in a stream. -/
def items (s : PullStream Unit) : Nat :=
  s.inbox.countP Signal.isNext

/-- The item that a stream has asked for and was not given. -/
def room (s : PullStream Unit) : Nat :=
  if s.requested then 1 else 0

/-- A stream has room for one item at most. -/
theorem room_le (s : PullStream Unit) : s.room ≤ 1 := by
  unfold room
  split <;> omega

/-- What a poll does to the room and to what waits. -/
def Balanced (s s' : PullStream Unit) : Attention Unit → Prop
  | .asks _ => s.room = 0 ∧ s'.room = 1 ∧ s'.items = 0
  | .answer (.item _) => s'.room = 0 ∧ s'.items + 1 ≤ s.items
  | .answer _ => s'.room = s.room ∧ s'.items ≤ s.items

theorem Balanced.of_eq {s t s' : PullStream Unit} {attention : Attention Unit}
    (h : Balanced s s' attention) (hroom : t.room = s.room) (hitems : t.items = s.items) :
    Balanced t s' attention := by
  cases attention with
  | asks handle => exact ⟨hroom.trans h.1, h.2⟩
  | answer p =>
      cases p with
      | item chunk => exact ⟨h.1, Nat.le_trans h.2 (Nat.le_of_eq hitems.symm)⟩
      | pending => exact ⟨h.1.trans hroom.symm, Nat.le_trans h.2 (Nat.le_of_eq hitems.symm)⟩
      | failed cause => exact ⟨h.1.trans hroom.symm, Nat.le_trans h.2 (Nat.le_of_eq hitems.symm)⟩
      | ended => exact ⟨h.1.trans hroom.symm, Nat.le_trans h.2 (Nat.le_of_eq hitems.symm)⟩

/-- A poll asks when there is no room, and an item that it yields takes the room away. -/
theorem attendTo_balanced (s : PullStream Unit) (inbox : List (Signal Unit)) :
    Balanced { s with inbox := inbox } (s.attendTo inbox).1 (s.attendTo inbox).2.2 := by
  induction inbox generalizing s with
  | nil =>
      unfold attendTo
      split
      · split
        · rename_i hrequested hsub
          exact ⟨by simp [room, hrequested], rfl, rfl⟩
        · exact ⟨rfl, Nat.le_refl _⟩
      · exact ⟨rfl, Nat.le_refl _⟩
  | cons sig rest ih =>
      cases sig with
      | subscribed handle =>
          have hitems : items { s with inbox := .subscribed handle :: rest } =
              items { s with inbox := rest } := by
            simp [items, Signal.isNext]
          exact (ih { s with subscription := some handle }).of_eq rfl hitems
      | next chunk =>
          exact ⟨rfl, Nat.le_of_eq (List.countP_cons_of_pos rfl).symm⟩
      | error cause =>
          refine ⟨rfl, ?_⟩
          simp [attendTo, items, Signal.isNext]
      | complete =>
          refine ⟨rfl, ?_⟩
          simp [attendTo, items, Signal.isNext]

/-- A poll of a stream keeps its accounts. -/
theorem attend_balanced {s s' : PullStream Unit} {notes : List Notice}
    {attention : Attention Unit} (hattend : s.attend = (s', notes, attention)) :
    Balanced s s' attention := by
  unfold attend at hattend
  split at hattend
  · cases hattend
    exact ⟨rfl, Nat.le_refl _⟩
  · have hbalanced := s.attendTo_balanced s.inbox
    rw [hattend] at hbalanced
    exact hbalanced

/-- A stream that hears holds at most what it held and what it has heard. -/
theorem hear_items (sig : Signal Unit) (s : PullStream Unit) :
    (s.hear sig).1.items ≤ s.items + Emission.item (.signal sig) ∧
      (s.hear sig).1.room = s.room := by
  unfold hear
  split
  · exact ⟨Nat.le_add_right _ _, rfl⟩
  · split
    · refine ⟨?_, rfl⟩
      simp only [items, Emission.item, List.countP_append, List.countP_cons, List.countP_nil,
        Nat.zero_add]
      exact Nat.le_refl _
    · exact ⟨Nat.le_add_right _ _, rfl⟩

/-- Hanging up neither takes an item nor makes room for one. -/
theorem hangUp_items (s : PullStream Unit) :
    s.hangUp.1.items = s.items ∧ s.hangUp.1.room = s.room := by
  unfold hangUp
  split <;> exact ⟨rfl, rfl⟩

/-- A stream that is dropped holds nothing, and asks for nothing. -/
theorem drop_items (s : PullStream Unit) :
    s.drop.1.items = 0 ∧ s.drop.1.room = s.room ∧
      ((s.drop.2.2.map Prod.snd).map Control.asks).sum = 0 := by
  have hleft : s.cancelEarly.1.room = s.room ∧
      ((s.cancelEarly.2.2.map Prod.snd).map Control.asks).sum = 0 := by
    unfold cancelEarly
    split
    · split <;> exact ⟨rfl, rfl⟩
    · exact ⟨rfl, rfl⟩
  have hgone : ∀ p : PullStream Unit, p.discard.1.items = 0 ∧ p.discard.1.room = p.room ∧
      ((p.discard.2.map Prod.snd).map Control.asks).sum = 0 := by
    intro p
    have hzero : (Control.asks ∘ Prod.snd ∘ fun handle : Unit => (handle, Control.release)) =
        fun _ => 0 := rfl
    exact ⟨rfl, rfl, by simp [discard, hzero]⟩
  rcases hgone s.cancelEarly.1 with ⟨hempty, hroom, hnone⟩
  refine ⟨hempty, hroom.trans hleft.1, ?_⟩
  change (((s.cancelEarly.2.2 ++ s.cancelEarly.1.discard.2).map Prod.snd).map _).sum = 0
  rw [List.map_append, List.map_append, List.sum_append, hleft.2, hnone]

end PullStream

/-! ## The accounts -/

/-- A pump was asked for `asked` items, and its stream has asked for `r`.  While it goes on,
what it still owes is kept apart; only the item that its stream has room for is counted
twice. -/
structure Pump.Within (r asked room : Nat) (p : Pump) : Prop where
  le : r ≤ asked
  owed : p.stage ≠ .leaving → p.stage ≠ .over → r + (p.demand.items + p.grants.sum) ≤ asked + room
  polling : p.stage = .polling → 1 ≤ p.demand.items

namespace Chain

/-- The accounts of a chain whose writer has pushed so many items, and whose consumer has
asked for `asked`, holds `items`, and has room for `room`.  Nothing is pushed into a source;
what the first pump asks of it is what was pulled from it. -/
def Frugal (pushes : Option Nat) (asked items room : Nat) : Chain → Prop
  | writer o =>
      (∃ pushed, pushes = some pushed ∧ pushed + o.ledger.demand.items ≤ asked) ∧
        o.ledger.demand.items + items ≤ room
  | hop before s p =>
      ∃ r, before.Frugal pushes r s.items s.room ∧ p.Within r asked s.room
  | source s p => pushes = none ∧ p.Within s.pulled asked 0
  | player _ => False

variable {pushes : Option Nat} {asked items room : Nat} {c : Chain}

/-- A pump that keeps within what it was asked for keeps within more. -/
theorem within_mono {r asked' : Nat} {p : Pump} (h : p.Within r asked room)
    (hasked : asked ≤ asked') : p.Within r asked' room := by
  refine ⟨Nat.le_trans h.le hasked, fun hleaving hover => ?_, h.polling⟩
  have howed := h.owed hleaving hover
  omega

/-- The consumer may hold less, have more room, or have asked for more. -/
theorem Frugal.mono (h : c.Frugal pushes asked items room) {asked' items' room' : Nat}
    (hasked : asked ≤ asked') (hroom : items' + room ≤ room' + items) :
    c.Frugal pushes asked' items' room' := by
  cases c with
  | writer o =>
      rcases h with ⟨⟨pushed, hpushes, hpushed⟩, hdemand⟩
      exact ⟨⟨pushed, hpushes, by omega⟩, by omega⟩
  | source s p => exact ⟨h.1, within_mono h.2 hasked⟩
  | player p => exact h.elim
  | hop before s p =>
      rcases h with ⟨r, hbefore, hwithin⟩
      exact ⟨r, hbefore, within_mono hwithin hasked⟩

/-- The writer has pushed no more than was asked for. -/
theorem Frugal.pushes_le {pushed : Nat} (h : c.Frugal (some pushed) asked items room) :
    pushed ≤ asked := by
  induction c generalizing asked items room with
  | writer o =>
      rcases h with ⟨⟨_, hsame, hpushed⟩, -⟩
      cases hsame
      exact Nat.le_trans (Nat.le_add_right _ _) hpushed
  | source s p => cases h.1
  | player p => exact h.elim
  | hop before s p ih =>
      rcases h with ⟨r, hbefore, hwithin⟩
      exact Nat.le_trans (ih hbefore) hwithin.le

/-- It may push at most one item. -/
theorem Frugal.demand_le {pushed : Nat} (h : c.Frugal (some pushed) asked items room)
    (hroom : room ≤ 1) : ∃ o, c.writer? = some o ∧ o.ledger.demand.items ≤ 1 := by
  induction c generalizing asked items room with
  | writer o =>
      refine ⟨o, rfl, ?_⟩
      have hdemand := h.2
      omega
  | source s p => cases h.1
  | player p => exact h.elim
  | hop before s p ih =>
      rcases h with ⟨r, hbefore, hwithin⟩
      exact ih hbefore s.room_le

/-- No more was pulled from the source than was asked for. -/
theorem Frugal.pulled_le (h : c.Frugal pushes asked items room) {s : Source}
    (hsource : c.source? = some s) : s.pulled ≤ asked := by
  induction c generalizing asked items room with
  | writer o => cases hsource
  | source s' p =>
      cases hsource
      exact h.2.le
  | player p => exact h.elim
  | hop before s' p ih =>
      rcases h with ⟨r, hbefore, hwithin⟩
      exact Nat.le_trans (ih hbefore hsource) hwithin.le

/-! ## Controls -/

/-- A control grants a writer at most what it asks for. -/
theorem control_demand (control : Control) (o : Outlet) :
    (o.control control).1.ledger.demand.items ≤ o.ledger.demand.items + control.asks := by
  have hsame : o.ledger.demand.items ≤ o.ledger.demand.items + control.asks := by omega
  unfold Outlet.control
  split
  · cases control with
    | request n =>
        simp only [Ledger.request, Control.asks]
        split
        · exact Nat.le_add_right _ _
        · split
          · exact hsame
          · simp only [Demand.grant_items]
            omega
    | cancel =>
        simp only [Ledger.cancel]
        split
        · exact hsame
        · simp
    | release => exact hsame
  · exact hsame

/-- It adds to what a pump owes at most what it asks for. -/
theorem control_owed (control : Control) (p : Pump) :
    (p.control control).1.stage = p.stage ∧ (p.control control).1.demand = p.demand ∧
      (p.control control).1.grants.sum ≤ p.grants.sum + control.asks := by
  unfold Pump.control
  split
  · exact ⟨rfl, rfl, Nat.le_add_right _ _⟩
  · cases control with
    | request n => dsimp only; split <;> exact ⟨rfl, rfl, by simp [Control.asks]⟩
    | cancel => dsimp only; split <;> exact ⟨rfl, rfl, Nat.le_add_right _ _⟩
    | release => dsimp only; split <;> exact ⟨rfl, rfl, Nat.le_add_right _ _⟩

/-- A control adds what it asks for to what the pump may owe. -/
theorem within_control {r : Nat} {p : Pump} (h : p.Within r asked room) (control : Control) :
    (p.control control).1.Within r (asked + control.asks) room := by
  rcases control_owed control p with ⟨hstage, hdemand, hgrants⟩
  refine ⟨Nat.le_trans h.le (Nat.le_add_right _ _), ?_, ?_⟩
  · rw [hstage, hdemand]
    intro hleaving hover
    have howed := h.owed hleaving hover
    omega
  · rw [hstage, hdemand]
    exact h.polling

/-- What a consumer asks for is put down as asked, and needs room. -/
theorem Frugal.control (h : c.Frugal pushes asked items room) (control : Control) :
    (c.control control).1.Frugal pushes (asked + control.asks) items (room + control.asks) := by
  cases c with
  | writer o =>
      rcases h with ⟨⟨pushed, hpushes, hpushed⟩, hdemand⟩
      have hgrant := control_demand control o
      exact ⟨⟨pushed, hpushes, by omega⟩, by omega⟩
  | source s p => exact ⟨h.1, within_control h.2 control⟩
  | player p => exact h.elim
  | hop before s p =>
      rcases h with ⟨r, hbefore, hwithin⟩
      exact ⟨r, hbefore, within_control hwithin control⟩

/-- Controls add what they ask for to the accounts of a chain. -/
theorem Frugal.controls (h : c.Frugal pushes asked items room) (cs : List Control) :
    (c.controls cs).1.Frugal pushes (asked + (cs.map Control.asks).sum) items
      (room + (cs.map Control.asks).sum) := by
  induction cs generalizing c asked room with
  | nil => exact h
  | cons control cs ih =>
      have hrest := ih (h.control control)
      rw [Nat.add_assoc, Nat.add_assoc] at hrest
      rw [List.map_cons, List.sum_cons]
      exact hrest

/-! ## Hearing -/

/-- Being woken changes no account. -/
theorem within_rouse {r asked room : Nat} {p : Pump} (h : p.Within r asked room) (woken : Bool) :
    (p.rouse woken).1.Within r asked room := by
  rcases p.rouse_eq woken with ⟨sleep, hrouse⟩
  rw [hrouse]
  exact ⟨h.le, h.owed, h.polling⟩

/-- What a hop lets go of while it hears asks for nothing. -/
theorem releases_ask (handles : List Unit) :
    ((handles.map fun _ => Control.release).map Control.asks).sum = 0 := by
  simp [Control.asks]

/-- What a hop hears waits in its stream. -/
theorem hear_frugal {before : Chain} {s : PullStream Unit} {p : Pump} {es : List Emission}
    {r : Nat} (hbefore : before.Frugal pushes r (s.items + Emission.items es) s.room)
    (hwithin : p.Within r asked s.room) :
    (hear es (hop before s p)).1.Frugal pushes asked items room := by
  induction es generalizing before s p with
  | nil => exact ⟨r, hbefore, hwithin⟩
  | cons e es ih =>
      rw [Emission.items_cons] at hbefore
      cases e with
      | signal sig =>
          rcases s.hear_items sig with ⟨hitems, hroom⟩
          have hreleased := hbefore.controls ((s.hear sig).2.2.map fun _ => .release)
          rw [releases_ask, Nat.add_zero, Nat.add_zero] at hreleased
          refine ih (hreleased.mono (Nat.le_refl r) ?_) ?_
          · rw [hroom]
            omega
          · rw [hroom]
            exact within_rouse hwithin _
      | hangUp =>
          rcases s.hangUp_items with ⟨hitems, hroom⟩
          refine ih (hbefore.mono (Nat.le_refl r) ?_) ?_
          · rw [hitems, hroom]
            simp only [Emission.item]
            omega
          · rw [hroom]
            exact within_rouse hwithin _

/-! ## Turns -/

/-- A pump that goes on without polling owes no more than before. -/
theorem within_goesOn {r asked room : Nat} {p p' : Pump} (h : p.Within r asked room)
    (hlive : p.stage ≠ .leaving ∧ p.stage ≠ .over)
    (howed : p'.demand.items + p'.grants.sum ≤ p.demand.items + p.grants.sum)
    (hstage : p'.stage ≠ .polling) : p'.Within r asked room := by
  refine ⟨h.le, fun _ _ => ?_, fun hpolling => absurd hpolling hstage⟩
  have hbefore := h.owed hlive.1 hlive.2
  omega

/-- A pump that leaves owes nothing. -/
theorem within_leaves {r asked room room' : Nat} {p p' : Pump} (h : p.Within r asked room)
    (hstage : p'.stage = .leaving ∨ p'.stage = .over) : p'.Within r asked room' := by
  refine ⟨h.le, fun hleaving hover => ?_, fun hpolling => ?_⟩
  · exact (hstage.elim hleaving hover).elim
  · rw [hpolling] at hstage
    simp at hstage

/-- Folding grants in adds no more than they grant. -/
theorem fold_le (grants : List Nat) (demand : Demand) :
    (Pump.fold grants demand).1.items ≤ demand.items + grants.sum := by
  induction grants generalizing demand with
  | nil => exact Nat.le_refl _
  | cons n rest ih =>
      cases n with
      | zero => exact Nat.le_add_right _ _
      | succ n =>
          have hrest := ih (demand.grant (n + 1))
          rw [Demand.grant_items] at hrest
          rw [List.sum_cons]
          change (Pump.fold rest (demand.grant (n + 1))).1.items ≤ _
          omega

/-- A pump that polls has demand. -/
theorem within_polls {r asked room : Nat} {p p' : Pump} (h : p.Within r asked room)
    (hpolls : p.Polls p') :
    1 ≤ p'.demand.items ∧ r + (p'.demand.items + p'.grants.sum) ≤ asked + room := by
  rw [hpolls.demand, hpolls.grants]
  cases hpolls with
  | begins hstage hdemand hopen =>
      exact ⟨hdemand, h.owed (by simp [hstage]) (by simp [hstage])⟩
  | goesOn hstage => exact ⟨h.polling hstage, h.owed (by simp [hstage]) (by simp [hstage])⟩

/-- What a pump does with what its stream has yielded. -/
theorem within_receive {r asked : Nat} {p : Pump} (hle : r ≤ asked) {room : Nat}
    (howed : r + (p.demand.items + p.grants.sum) ≤ asked + room) (hdemand : 1 ≤ p.demand.items)
    {answer : Pull} {yielded : Option (Except Cause Octets)}
    (hpulled : pulled answer = some yielded) {room' : Nat}
    (hroom : answer.isItem = true → room ≤ room' + 1) :
    (p.receive yielded).1.Within r asked room' := by
  have hleaves : ∀ p' : Pump, p'.stage = .leaving → p'.Within r asked room' := by
    intro p' hstage
    refine ⟨hle, fun hleaving => absurd hstage hleaving, fun hpolling => ?_⟩
    rw [hstage] at hpolling
    cases hpolling
  unfold Pump.receive
  split
  · exact hleaves _ rfl
  · cases answer with
    | pending => cases hpulled
    | item chunk =>
        cases hpulled
        have hspare := hroom rfl
        refine ⟨hle, fun _ _ => ?_, fun hpolling => by cases hpolling⟩
        simp only [Demand.spend_items]
        omega
    | failed cause =>
        cases hpulled
        exact hleaves _ rfl
    | ended =>
        cases hpulled
        exact hleaves _ rfl

/-- Every turn of a hop keeps the accounts. -/
theorem Frugal.hopTurn {before : Chain} {s : PullStream Unit} {p : Pump}
    (h : (hop before s p).Frugal pushes asked items room) (items' room' : Nat) :
    (Chain.hopTurn before s p).1.Frugal pushes asked items' room' := by
  rcases h with ⟨r, hbefore, hwithin⟩
  have hturn := hopTurns_hopTurn before s p
  generalize Chain.hopTurn before s p = result at hturn ⊢
  cases hturn with
  | greets hstage =>
      exact ⟨r, hbefore, within_goesOn hwithin (by simp [hstage]) (Nat.le_refl _) (by simp)⟩
  | starts hstage =>
      exact ⟨r, hbefore, within_goesOn hwithin (by simp [hstage]) (Nat.le_refl _) (by simp)⟩
  | cancels note hstage hcancelled => exact ⟨r, hbefore, within_leaves hwithin (.inl rfl)⟩
  | orphaned hstage hheld => exact ⟨r, hbefore, within_leaves hwithin (.inl rfl)⟩
  | takes n rest hstage hdemand hgrants =>
      refine ⟨r, hbefore, within_goesOn hwithin (by simp [hstage]) ?_ (by simp [hstage])⟩
      simp only [Demand.grant_items, hgrants, List.sum_cons]
      omega
  | refuses grants demand hstage hzero => exact ⟨r, hbefore, within_leaves hwithin (.inl rfl)⟩
  | waits hstage hdemand hgrants hheld =>
      exact ⟨r, hbefore, within_goesOn hwithin (by simp [hstage]) (Nat.le_refl _)
        (by simp [hstage])⟩
  | folds demand hstage hfold =>
      refine ⟨r, hbefore, within_goesOn hwithin (by simp [hstage]) ?_ (by simp)⟩
      have hle := fold_le p.grants p.demand
      rw [hfold] at hle
      exact hle
  | asks s' p' notes hpolls hattend =>
      have hbalanced := PullStream.attend_balanced hattend
      rcases hbalanced with ⟨hnone, hone, hempty⟩
      rcases within_polls hwithin hpolls with ⟨hdemand, howed⟩
      have hasked := hbefore.control (.request 1)
      refine ⟨r + 1, hasked.mono (Nat.le_refl _) ?_, ?_, ?_, fun _ => hdemand⟩
      · simp only [hempty, hone, hnone, Control.asks]
        omega
      · omega
      · intro _ _
        rw [hone]
        omega
  | sleeps s' p' notes hpolls hattend =>
      have hbalanced := PullStream.attend_balanced hattend
      rcases hbalanced with ⟨hroom, hitems⟩
      rcases within_polls hwithin hpolls with ⟨hdemand, howed⟩
      refine ⟨r, hbefore.mono (Nat.le_refl _) ?_, hwithin.le, fun _ _ => ?_, fun hpolling => ?_⟩
      · rw [hroom]
        omega
      · rw [hroom]
        exact howed
      · cases hpolling
  | yields s' p' notes answer yielded hpolls hattend hpulled =>
      have hbalanced := PullStream.attend_balanced hattend
      rcases within_polls hwithin hpolls with ⟨hdemand, howed⟩
      have hle := s.room_le
      refine ⟨r, hbefore.mono (Nat.le_refl _) ?_,
        within_receive hwithin.le howed hdemand hpulled fun _ => by omega⟩
      cases answer with
      | pending => cases hpulled
      | item chunk =>
          rcases hbalanced with ⟨hnone, hitems⟩
          omega
      | failed cause =>
          rcases hbalanced with ⟨hroom, hitems⟩
          omega
      | ended =>
          rcases hbalanced with ⟨hroom, hitems⟩
          omega
  | leaves hstage =>
      rcases s.drop_items with ⟨hempty, hroom, hnone⟩
      have hreleased := hbefore.controls (s.drop.2.2.map Prod.snd)
      rw [hnone, Nat.add_zero, Nat.add_zero] at hreleased
      refine ⟨r, hreleased.mono (Nat.le_refl _) ?_, within_leaves hwithin (.inr rfl)⟩
      rw [hempty, hroom]
      omega
  | rests hstage => exact ⟨r, hbefore, hwithin⟩

/-- What a pump over a source has handed on or lost it has pulled. -/
theorem within_yielded {s s' : Source} {p : Pump} {y : Yield}
    {r : Option (Except Cause Octets)} (hdemand : 1 ≤ p.demand.items)
    (howed : s.pulled + (p.demand.items + p.grants.sum) ≤ asked) (hpolled : s.Polled s' y)
    (hyield : y.yielded? = some r) : (p.receive r).1.Within s'.pulled asked 0 := by
  have hpulled : s'.pulled ≤ s.pulled + 1 ∧ ((∃ chunk, r = some (.ok chunk)) ∨
      (∃ cause, r = some (.error cause)) ∨ r = none ∧ s'.pulled = s.pulled) := by
    cases hpolled with
    | chunk bytes rest hitems =>
        cases hyield
        exact ⟨Nat.le_refl _, .inl ⟨bytes, rfl⟩⟩
    | fails cause rest hitems =>
        cases hyield
        exact ⟨Nat.le_refl _, .inr (.inl ⟨cause, rfl⟩)⟩
    | ends hitems hclosed =>
        cases hyield
        exact ⟨Nat.le_succ _, .inr (.inr ⟨rfl, rfl⟩)⟩
    | pauses rest hitems | stepsAside rest hitems | acts a rest hitems | waits hitems hopen =>
        cases hyield
  have hleaves : ∀ p' : Pump, p'.stage = .leaving → p'.Within s'.pulled asked 0 := by
    intro p' hstage
    refine ⟨by omega, fun hleaving => absurd hstage hleaving, fun hpolling => ?_⟩
    rw [hstage] at hpolling
    cases hpolling
  unfold Pump.receive
  split
  · exact hleaves _ rfl
  · rcases hpulled.2 with ⟨chunk, rfl⟩ | ⟨cause, rfl⟩ | ⟨rfl, -⟩
    · refine ⟨by omega, fun _ _ => ?_, fun hpolling => by cases hpolling⟩
      simp only [Demand.spend_items]
      omega
    · exact hleaves _ rfl
    · exact hleaves _ rfl

/-- Every turn of a pump over a source keeps the accounts. -/
theorem within_sourceTurn {s s' : Source} {p p' : Pump} {burst : Burst}
    (h : p.Within s.pulled asked 0) (hturn : SourceTurns s p (source s' p', burst)) :
    p'.Within s'.pulled asked 0 := by
  -- What a poll comes to without yielding anything pulls nothing.
  have hpending : ∀ {q : Pump} {y : Yield}, p.Polls q → s.poll = (s', y) → y.yielded? = none →
      ∀ p'' : Pump, p''.demand = q.demand → p''.grants = q.grants →
        p''.Within s'.pulled asked 0 := by
    intro q y hpolls hpoll hnone p'' hdemand hgrants
    have hpulled : s'.pulled = s.pulled := by
      cases Source.polled_of_poll hpoll with
      | chunk bytes rest hitems => cases hnone
      | fails cause rest hitems => cases hnone
      | _ => rfl
    rcases within_polls h hpolls with ⟨hpositive, howed⟩
    rw [hpulled]
    refine ⟨h.le, fun _ _ => ?_, fun _ => ?_⟩
    · rw [hdemand, hgrants]
      exact howed
    · rw [hdemand]
      exact hpositive
  cases hturn with
  | delivers _ notes sig hmove =>
      cases hmove with
      | greets hstage => exact within_goesOn h (by simp [hstage]) (Nat.le_refl _) (by simp)
      | refuses rest hstage hdemand hopen hgrants => exact within_leaves h (.inl rfl)
      | balks grants demand hstage hzero hfold => exact within_leaves h (.inl rfl)
  | goesOn _ notes hmove =>
      cases hmove with
      | starts hstage => exact within_goesOn h (by simp [hstage]) (Nat.le_refl _) (by simp)
      | cancels note hstage hcancelled => exact within_leaves h (.inl rfl)
      | orphaned hstage hdemand hopen hgrants hheld => exact within_leaves h (.inl rfl)
      | takes n rest hstage hdemand hopen hgrants =>
          refine within_goesOn h (by simp [hstage]) ?_ (by simp [hstage])
          simp only [Demand.grant_items, hgrants, List.sum_cons]
          omega
      | folds demand hstage hsome hfold =>
          refine within_goesOn h (by simp [hstage]) ?_ (by simp)
          have hle := fold_le p.grants p.demand
          rw [hfold] at hle
          exact hle
  | parks _ notes hmove =>
      cases hmove with
      | waits hstage hdemand hopen hgrants hheld =>
          exact within_goesOn h (by simp [hstage]) (Nat.le_refl _) (by simp [hstage])
      | rests hstage => exact h
  | leaves _ notes hmove =>
      cases hmove with
      | leaves hstage => exact within_leaves h (.inr rfl)
  | yields _ q y r hpolls hpoll hyield =>
      rcases within_polls h hpolls with ⟨hpositive, howed⟩
      exact within_yielded hpositive howed (Source.polled_of_poll hpoll) hyield
  | sleeps _ q wakesItself hpolls hpoll =>
      have haside : (q.stepAside wakesItself).1.demand = q.demand ∧
          (q.stepAside wakesItself).1.grants = q.grants := by
        unfold Pump.stepAside Pump.streamReady
        split
        · split <;> exact ⟨rfl, rfl⟩
        · exact ⟨rfl, rfl⟩
      exact hpending hpolls hpoll rfl _ haside.1 haside.2
  | acts _ _ a hpolls hpoll => exact hpending hpolls hpoll rfl _ rfl rfl

/-- Every turn keeps the accounts, when what it emits is held by the consumer. -/
theorem Frugal.turn (h : c.Frugal pushes asked items room) (k : Nat) :
    (c.turn k).1.Frugal pushes asked (items + Emission.items (c.turn k).2.emissions) room := by
  induction c generalizing asked items room with
  | writer o => exact h
  | source s p =>
      unfold Chain.turn
      split
      · have hturn := sourceTurns_sourceTurn s p
        generalize sourceTurn s p = r at hturn ⊢
        obtain ⟨s', p', hafter⟩ := hturn.source
        rcases r with ⟨c, burst⟩
        cases hafter
        exact ⟨h.1, within_sourceTurn h.2 hturn⟩
      · exact h
  | player p => exact h.elim
  | hop before s p ih =>
      by_cases hk : k = before.hops + 1
      · rw [hk, turn_last]
        exact h.hopTurn _ _
      · rcases h with ⟨r, hbefore, hwithin⟩
        rw [turn_before hk]
        exact hear_frugal (ih hbefore) hwithin

/-- So does what the writer does, when what it hands over was asked for. -/
theorem Frugal.atWriter {pushed pushed' : Nat} (h : c.Frugal (some pushed) asked items room)
    {o : Outlet} (hwriter : c.writer? = some o)
    {f : Outlet → Outlet × List Notice × List Emission}
    (hheld : (f o).1.ledger.demand.items + Emission.items (f o).2.2 ≤ o.ledger.demand.items)
    (hpushes : pushed' + (f o).1.ledger.demand.items ≤ pushed + o.ledger.demand.items) :
    (c.atWriter f).1.Frugal (some pushed') asked
      (items + Emission.items (c.atWriter f).2.emissions) room := by
  induction c generalizing asked items room with
  | writer o' =>
      cases hwriter
      rcases h with ⟨⟨_, hsame, hall⟩, hdemand⟩
      cases hsame
      refine ⟨⟨pushed', rfl, Nat.le_trans hpushes hall⟩, ?_⟩
      change (f o).1.ledger.demand.items + (items + Emission.items (f o).2.2) ≤ room
      omega
  | source s p => cases hwriter
  | player p => exact h.elim
  | hop before s p ih =>
      rcases h with ⟨r, hbefore, hwithin⟩
      exact hear_frugal (ih hbefore hwriter) hwithin

end Chain
end CreditFlow
