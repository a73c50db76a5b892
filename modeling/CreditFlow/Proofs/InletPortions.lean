import CreditFlow.Proofs.InletTraffic
import CreditFlow.Scenario.Reading

/-!
# Portions

A reader may take the bytes of a stream in portions of any size, or one by one.  Both ways end
in the same place: the first call takes a chunk if none is in hand, and asks for the next one;
whatever is taken from the hand after that concerns nobody else, so it does not matter when it
is taken, or in how many calls.

Main results:

- {lit}`Inlet.Aloof.inHand`, {lit}`Exchange.settle_inHand`: nobody but the reader looks at what
  the reader has in hand.
- {lit}`InletTraffic.run_takes`: taking from the hand can be put off.
- {lit}`Reader.Portions.bytewise`: what calls of any size return, calls for one byte return.
- {lit}`InletTraffic.run_portions`: calls that return the same number of bytes come to the same.
-/

namespace CreditFlow

namespace Inlet

variable {ι : Type} {b : Inlet ι}

/-! ## What is in the reader's hand -/

/-- The same inlet with other bytes in its reader's hand. -/
def inHand (c : Octets) (b : Inlet ι) : Inlet ι :=
  { b with current := c }

@[simp]
theorem inHand_current (b : Inlet ι) : b.inHand b.current = b := rfl

/-- An operation that looks neither at what the reader has in hand nor at the metadata. -/
def Aloof {α : Type} (op : Inlet ι → Inlet ι × α) : Prop :=
  ∀ c m b, op { b with current := c, metadata := m } =
    ({ (op b).1 with current := c, metadata := m }, (op b).2)

/-- It leaves both alone. -/
theorem Aloof.keeps {α : Type} {op : Inlet ι → Inlet ι × α} (h : Aloof op) (b : Inlet ι) :
    (op b).1.current = b.current ∧ (op b).1.metadata = b.metadata := by
  have hsame : op b = ({ (op b).1 with current := b.current, metadata := b.metadata }, (op b).2) :=
    h b.current b.metadata b
  exact ⟨congrArg (fun changed => changed.1.current) hsame,
    congrArg (fun changed => changed.1.metadata) hsame⟩

/-- Other bytes in the reader's hand stay there. -/
theorem Aloof.inHand {α : Type} {op : Inlet ι → Inlet ι × α} (h : Aloof op) (c : Octets)
    (b : Inlet ι) : op (b.inHand c) = ((op b).1.inHand c, (op b).2) :=
  calc op (b.inHand c)
      = ({ (op b).1 with current := c, metadata := b.metadata }, (op b).2) := h c b.metadata b
    _ = ((op b).1.inHand c, (op b).2) := by
      rw [← (h.keeps b).2]
      rfl

/-- A subscription that arrives does not look at what the reader has in hand. -/
theorem subscribed_aloof (handle : ι) : Aloof (subscribed handle) := by
  intro c m b
  unfold subscribed
  cases hslot : b.slot <;> simp [hslot]

/-- Nor does a chunk. -/
theorem next_aloof (chunk : Octets) : Aloof (ι := ι) (next chunk) := by
  intro c m b
  unfold next
  cases hslot : b.slot <;> cases hend : b.terminated <;> simp only [hslot, hend]
  by_cases hcredit : b.credit = 0
  · simp [hcredit]
  · by_cases hempty : chunk.isEmpty = true <;> simp [hcredit, hempty, hslot, hend]

/-- Nor does a failure of the stream. -/
theorem failStream_aloof (f : Failure) : Aloof (ι := ι) (failStream f) := by
  intro c m b
  unfold failStream
  cases hdrained : b.drained with
  | true => simp [hdrained]
  | false =>
      cases hend : b.terminated with
      | false => simp
      | true =>
          rcases hlast : b.queue.getLast? with - | (chunk | - | g) <;> simp [hdrained, hend]

theorem completeStream_aloof : Aloof (ι := ι) completeStream := by
  intro c m b
  unfold completeStream
  by_cases hend : b.terminated = true <;> simp [hend]

theorem close_aloof : Aloof (ι := ι) close := by
  intro c m b
  unfold close
  cases hslot : b.slot <;> simp [hslot]

theorem dropReader_aloof : Aloof (ι := ι) dropReader := by
  intro c m b
  rw [dropReader, dropReader, close_aloof c m b]

/-- Who resolves the metadata does not look at the reader's hand either. -/
theorem resolveMetadata_inHand (outcome : Cell String) (note : Notice) (c : Octets)
    (b : Inlet ι) :
    (b.inHand c).resolveMetadata outcome note =
      ((b.resolveMetadata outcome note).1.inHand c, (b.resolveMetadata outcome note).2) := rfl

/-- A publisher that fails does not look at what the reader has in hand. -/
theorem error_inHand (cause : Cause) (c : Octets) (b : Inlet ι) :
    (b.inHand c).error cause = ((b.error cause).1.inHand c, (b.error cause).2) := by
  simp only [error, resolveMetadata_inHand, (failStream_aloof _).inHand]

/-- Nor does one that completes. -/
theorem complete_inHand (c : Octets) (b : Inlet ι) :
    (b.inHand c).complete = (b.complete.1.inHand c, b.complete.2) := by
  simp only [complete, resolveMetadata_inHand, completeStream_aloof.inHand]

/-- Nor does a failure from beside the stream. -/
theorem failure_inHand (cause : Cause) (c : Octets) (b : Inlet ι) :
    (b.inHand c).failure cause = ((b.failure cause).1.inHand c, (b.failure cause).2) := by
  simp only [failure, resolveMetadata_inHand, (failStream_aloof _).inHand]

/-! ## Taking from the hand -/

/-- From what is in hand a byte is taken at once, and nobody is asked for more. -/
theorem readByte_of_current {x : UInt8} {rest : Octets} (hcurrent : b.current = x :: rest)
    (interrupted : Bool) :
    b.readByte interrupted = some { value := .ok (some x), after := b.inHand rest } := by
  simp [readByte, hold, hcurrent, Answer.andThen, takeByte, inHand]

/-- A call that returns bytes has something in hand, and takes the front of it. -/
theorem hold_of_read_bytes {n : Nat} {interrupted : Bool} {a : Answer ι (Except Failure Octets)}
    (hread : b.read n interrupted = some a) {o : Octets} (hvalue : a.value = .ok o)
    (hsome : o ≠ []) :
    ∃ held, b.hold interrupted = some held ∧ held.value = .ok true ∧
      o = held.after.current.take n ∧ a.after = held.after.inHand (held.after.current.drop n) ∧
      a.reactions = held.reactions := by
  rcases Nat.eq_zero_or_pos n with rfl | hn
  · cases hread
    cases hvalue
    exact absurd rfl hsome
  · obtain ⟨held, hhold, rfl⟩ := hold_of_read hn hread
    refine ⟨held, hhold, ?_⟩
    match hheld : held.value with
    | .ok true =>
        simp only [Answer.andThen, hheld, takeUpTo] at hvalue ⊢
        cases hvalue
        exact ⟨trivial, rfl, rfl, trivial⟩
    | .ok false =>
        simp only [Answer.andThen, hheld, takeUpTo] at hvalue
        cases hvalue
        exact absurd rfl hsome
    | .error f =>
        simp only [Answer.andThen, hheld, takeUpTo] at hvalue
        cases hvalue

/-- A call that returns bytes takes one chunk at most. -/
theorem queue_of_read_bytes (h : b.Orderly) {n : Nat} {interrupted : Bool}
    {a : Answer ι (Except Failure Octets)} (hread : b.read n interrupted = some a) {o : Octets}
    (hvalue : a.value = .ok o) (hsome : o ≠ []) :
    a.after.queue = b.queue ∨ ∃ chunk, b.queue = .data chunk :: a.after.queue := by
  obtain ⟨held, hhold, hheld, -, hafter, -⟩ := hold_of_read_bytes hread hvalue hsome
  have hqueue : a.after.queue = held.after.queue := by
    rw [hafter]
    rfl
  rw [hqueue]
  rcases hold_cases h hhold with ⟨-, rfl⟩ | ⟨-, hrefill⟩
  · exact .inl rfl
  · cases hrefill with
    | chunk c rest handle hverdict hdata hslot => exact .inr ⟨c, hdata⟩
    | leftover c rest hverdict hdata hslot => exact .inr ⟨c, hdata⟩
    | known v hverdict | closed hverdict hempty hslot | interrupted hverdict hempty hfired =>
        exact .inl rfl
    | mark e note hverdict hmark hlast =>
        cases e with
        | data chunk => cases hmark
        | finish | failure f => cases hheld

/-- Of what is in hand a call for one byte takes the first. -/
theorem readByte_of_hold {interrupted : Bool} {held : Answer ι (Except Failure Bool)}
    (hhold : b.hold interrupted = some held) (hheld : held.value = .ok true) {x : UInt8}
    {rest : Octets} (hcurrent : held.after.current = x :: rest) :
    b.readByte interrupted =
      some
        { value := .ok (some x), after := held.after.inHand rest, reactions := held.reactions } := by
  simp [readByte, hhold, Answer.andThen, hheld, takeByte, hcurrent, inHand]

/-! ## Calls that return nothing -/

/-- What is held is not empty. -/
theorem held_ne (h : b.Orderly) {interrupted : Bool} {held : Answer ι (Except Failure Bool)}
    (hhold : b.hold interrupted = some held) (hheld : held.value = .ok true) :
    held.after.current ≠ [] := by
  rcases hold_cases h hhold with ⟨hcurrent, rfl⟩ | ⟨hcurrent, hrefill⟩
  · exact hcurrent
  · rcases hrefill.value_eq h hcurrent with
      ⟨-, hsome⟩ | ⟨⟨v, hvalue, -⟩, -⟩ | ⟨hvalue, -⟩ | ⟨hvalue, -⟩
    · exact hsome
    · rw [hheld] at hvalue
      cases v <;> simp [Except.map] at hvalue
    · rw [hheld] at hvalue
      cases hvalue
    · rw [hheld] at hvalue
      cases hvalue

section Agreement

variable {n : Nat} (hn : 0 < n)
include hn

/-- A call finds nothing to take exactly if a call for one byte does. -/
theorem read_eq_none_iff (interrupted : Bool) (b : Inlet ι) :
    b.read n interrupted = none ↔ b.readByte interrupted = none := by
  have hne : n ≠ 0 := by omega
  simp [read, readByte, hne]

/-- A call returns no bytes exactly if a call for one byte returns none, and both fail alike. -/
theorem read_value_iff (h : b.Orderly) (interrupted : Bool) :
    ((b.read n interrupted).map (·.value) = some (.ok []) ↔
        (b.readByte interrupted).map (·.value) = some (.ok none)) ∧
      ∀ f, (b.read n interrupted).map (·.value) = some (.error f) ↔
        (b.readByte interrupted).map (·.value) = some (.error f) := by
  have hne : n ≠ 0 := by omega
  cases hhold : b.hold interrupted with
  | none => simp [read, readByte, hne, hhold]
  | some held =>
      cases hheld : held.value with
      | error f =>
          simp [read, readByte, hne, hhold, hheld, Answer.andThen, takeUpTo, takeByte]
      | ok more =>
          cases more with
          | false =>
              simp [read, readByte, hne, hhold, hheld, Answer.andThen, takeUpTo, takeByte]
          | true =>
              have hsome := held_ne h hhold hheld
              simp [read, readByte, hne, hhold, hheld, Answer.andThen, takeUpTo, takeByte, hsome]

/-- A call that returns no bytes does what a call for one byte does. -/
theorem read_of_no_bytes (h : b.Orderly) {interrupted : Bool}
    {a : Answer ι (Except Failure Octets)} (hread : b.read n interrupted = some a)
    (hnone : bytes a.value = []) : b.read 1 interrupted = some a := by
  obtain ⟨held, hhold, rfl⟩ := hold_of_read hn hread
  have hone : b.read 1 interrupted = some (held.andThen (takeUpTo 1)) := by
    simp [read, hhold]
  rw [hone]
  cases hheld : held.value with
  | error f => simp [Answer.andThen, hheld, takeUpTo]
  | ok more =>
      cases more with
      | false => simp [Answer.andThen, hheld, takeUpTo]
      | true =>
          have hsome := held_ne h hhold hheld
          have hempty : held.after.current.take n = [] := by
            simpa [Answer.andThen, hheld, takeUpTo, bytes] using hnone
          rcases List.take_eq_nil_iff.mp hempty with hzero | hnil
          · omega
          · exact absurd hnil hsome

end Agreement

end Inlet

/-! ## What follows from a call -/

namespace Exchange

/-- The same exchange with other bytes in its reader's hand. -/
def inHand (c : Octets) (w : Exchange) : Exchange :=
  { w with inlet := w.inlet.inHand c }

@[simp]
theorem inHand_inHand (c d : Octets) (w : Exchange) : (w.inHand c).inHand d = w.inHand d := rfl

/-- No cue looks at what the reader has in hand. -/
theorem perform_inHand (c : Octets) (w : Exchange) (cue : InletCue) :
    (w.inHand c).perform cue = ((w.perform cue).1.inHand c, (w.perform cue).2) := by
  cases cue with
  | subscribe peer => simp [perform, told, inHand, (Inlet.subscribed_aloof _).inHand]
  | next chunk => simp [perform, told, inHand, (Inlet.next_aloof _).inHand]
  | error cause => simp [perform, told, inHand, Inlet.error_inHand]
  | complete => simp [perform, told, inHand, Inlet.complete_inHand]
  | aside e =>
      cases e with
      | failure cause => simp [perform, told, inHand, Inlet.failure_inHand]
      | publish value => rfl
      | close => simp [perform, told, inHand, Inlet.close_aloof.inHand]
      | interrupt => rfl

/-- No task of an exchange looks at what the reader has in hand. -/
theorem step_inHand (c : Octets) (w : Exchange) (task : Task) :
    (w.inHand c).step task = ((w.step task).1.inHand c, (w.step task).2) := by
  cases task with
  | cue cue => simp [step, perform_inHand]
  | reaction r => cases r <;> rfl

/-- Nobody but the reader looks at what the reader has in hand. -/
theorem settle_inHand (c : Octets) (w : Exchange) (agenda : List Task) :
    (w.inHand c).settle agenda = (w.settle agenda).inHand c := by
  fun_induction settle w agenda with
  | case1 w => rw [settle_nil]
  | case2 w task rest ih => rw [settle_cons, step_inHand, ih]

@[simp]
theorem step_current (w : Exchange) (task : Task) :
    (w.step task).1.inlet.current = w.inlet.current := by
  cases task with
  | cue cue =>
      change (w.perform cue).1.inlet.current = w.inlet.current
      rw [perform_inlet]
      exact (Inlet.heed_reader cue _ _).2.2
  | reaction r => exact congrArg Inlet.current (carryOut_inlet w r)

end Exchange

/-! ## Taking from the hand under traffic -/

namespace InletEvent

/-- Whether an event is a call for one byte. -/
def isByte : InletEvent → Bool
  | .reads .byte => true
  | _ => false

/-- Whether it is the reader who does something. -/
def isReaders : InletEvent → Bool
  | .reads _ => true
  | .readerLeaves => true
  | _ => false

end InletEvent

namespace InletTraffic

variable {t : InletTraffic}

/-- The reader takes bytes that it has in hand. -/
def takes (k : Nat) (t : InletTraffic) : InletTraffic :=
  { t with
    world := t.world.inHand (t.inlet.current.drop k)
    returned := t.returned ++ t.inlet.current.take k }

/-- Taking bytes twice is taking as many at once. -/
theorem takes_takes (j k : Nat) (t : InletTraffic) : (t.takes j).takes k = t.takes (j + k) := by
  simp only [takes, inlet, Exchange.inHand, Inlet.inHand, List.take_add, List.drop_drop,
    List.append_assoc]

/-- A task does the same before the reader takes bytes and after. -/
theorem carry_takes (k : Nat) (t : InletTraffic) (task : Task) :
    (t.takes k).carry task = (t.carry task).takes k := by
  have hstep := t.world.step_inHand (t.world.inlet.current.drop k) task
  have hcurrent := t.world.step_current task
  cases task with
  | cue c =>
      simp only [carry, takes, inlet, hstep, hcurrent]
      rfl
  | reaction r => simp only [carry, takes, inlet, hstep, hcurrent]

/-- What others do does not depend on when the reader takes what it has in hand. -/
theorem step_takes (k : Nat) (t : InletTraffic) {e : InletEvent} (hother : e.isReaders = false) :
    (t.takes k).step e = (t.step e).takes k ∧ (t.step e).inlet.current = t.inlet.current := by
  cases e with
  | begins c => exact ⟨rfl, rfl⟩
  | reads call => cases hother
  | readerLeaves => cases hother
  | proceeds place =>
      have hsame : (t.takes k).underway = t.underway := rfl
      simp only [step, hsame]
      cases htask : t.underway[place]? with
      | none => exact ⟨rfl, rfl⟩
      | some task =>
          refine ⟨carry_takes k { t with underway := t.underway.eraseIdx place } task, ?_⟩
          cases task <;> exact t.world.step_current _

/-- A call for one byte takes it from the hand, if there is something in it. -/
theorem read_byte_takes (hcurrent : t.inlet.current ≠ []) : t.read .byte = t.takes 1 := by
  obtain ⟨x, rest, hhand⟩ := List.exists_cons_of_ne_nil hcurrent
  have hbyte := Inlet.readByte_of_current hhand t.world.interrupted
  simp only [read, Inlet.answer, hbyte, Option.map_some, takes, hhand]
  rfl

/-- What others do meanwhile is the same before the reader takes bytes and after. -/
theorem run_others_takes (k : Nat) (t : InletTraffic) {events : List InletEvent}
    (hothers : ∀ e ∈ events, e.isReaders = false) :
    (t.takes k).run events = (t.run events).takes k := by
  induction events generalizing t with
  | nil => rfl
  | cons e events ih =>
      have hfirst := (step_takes k t (hothers e List.mem_cons_self)).1
      rw [run_cons, run_cons, hfirst]
      exact ih (t.step e) fun e' he' => hothers e' (List.mem_cons_of_mem e he')

/-- Without the calls for one byte only others do something. -/
theorem others_of_filter {events : List InletEvent}
    (hothers : ∀ e ∈ events, e.isByte = true ∨ e.isReaders = false) :
    ∀ e ∈ events.filter fun e => !e.isByte, e.isReaders = false := by
  intro e he
  obtain ⟨hmem, hno⟩ := List.mem_filter.mp he
  exact (hothers e hmem).resolve_left (by simpa using hno)

/-- Taking from the hand can be put off until others have done what they do meanwhile. -/
theorem run_takes {events : List InletEvent}
    (hothers : ∀ e ∈ events, e.isByte = true ∨ e.isReaders = false)
    (hhand : events.countP InletEvent.isByte ≤ t.inlet.current.length) :
    t.run events =
      (t.run (events.filter fun e => !e.isByte)).takes (events.countP InletEvent.isByte) := by
  induction events generalizing t with
  | nil => simp [takes, Exchange.inHand, inlet]
  | cons e events ih =>
      have hlater : ∀ e ∈ events, e.isByte = true ∨ e.isReaders = false :=
        fun e' he' => hothers e' (List.mem_cons_of_mem e he')
      rw [List.countP_cons] at hhand ⊢
      rw [run_cons]
      cases hbyte : e.isByte with
      | true =>
          rw [hbyte, if_pos rfl] at hhand
          have htakes : t.step e = t.takes 1 := by
            have hcall : e = .reads .byte := by
              cases e with
              | reads call => cases call <;> first | rfl | cases hbyte
              | _ => cases hbyte
            rw [hcall]
            exact read_byte_takes (List.ne_nil_of_length_pos (by omega))
          have hrest : (t.takes 1).inlet.current.length = t.inlet.current.length - 1 :=
            List.length_drop
          rw [htakes, ih hlater (by omega), run_others_takes 1 t (others_of_filter hlater), takes_takes,
            List.filter_cons_of_neg (by simp [hbyte]), if_pos rfl, Nat.add_comm 1]
      | false =>
          have hother := (hothers e List.mem_cons_self).resolve_left (by simp [hbyte])
          have hcurrent := (step_takes 0 t hother).2
          rw [hbyte, if_neg Bool.false_ne_true, Nat.add_zero] at hhand
          rw [ih hlater (by rw [hcurrent]; exact hhand), List.filter_cons_of_pos (by simp [hbyte]),
            run_cons, if_neg Bool.false_ne_true, Nat.add_zero]

/-- A call that returns bytes comes to as many calls for one byte, the first of them in its
place and the others at any time before the reader does anything else. -/
theorem run_bytewise {n : Nat} {a : Inlet.Answer Nat (Except Failure Octets)} {o : Octets}
    (hread : t.inlet.read n t.world.interrupted = some a) (hvalue : a.value = .ok o)
    (hsome : o ≠ []) {later : List InletEvent}
    (hothers : ∀ e ∈ later, e.isByte = true ∨ e.isReaders = false)
    (hbytes : later.countP InletEvent.isByte + 1 = o.length) :
    t.run (.reads .byte :: later) =
      t.run (.reads (.upTo n) :: later.filter fun e => !e.isByte) := by
  obtain ⟨held, hhold, hheld, htaken, hafter, hreactions⟩ :=
    Inlet.hold_of_read_bytes hread hvalue hsome
  let u := t.change held.after held.reactions
  have hhand : u.inlet.current = held.after.current := rfl
  have hcurrent : held.after.current ≠ [] := by
    intro hnil
    rw [hnil, List.take_nil] at htaken
    exact hsome htaken
  have hlength : o.length ≤ held.after.current.length := by
    rw [htaken, List.length_take]
    exact Nat.min_le_right _ _
  have hfront : held.after.current.take o.length = o := by
    rw [htaken, List.length_take, ← List.take_eq_take_min]
  have hback : held.after.current.drop o.length = held.after.current.drop n := by
    rw [htaken, List.length_take]
    rcases Nat.le_total n held.after.current.length with hle | hle
    · rw [Nat.min_eq_left hle]
    · rw [Nat.min_eq_right hle, List.drop_length, List.drop_eq_nil_of_le hle]
  have hupTo : t.step (.reads (.upTo n)) = u.takes o.length := by
    simp only [step, read, Inlet.answer, hread, hvalue, hafter, hreactions, Inlet.bytes, takes,
      hhand, hfront, hback]
    rfl
  have hbyte : t.step (.reads .byte) = u.takes 1 := by
    obtain ⟨x, rest, hcons⟩ := List.exists_cons_of_ne_nil hcurrent
    have hone := Inlet.readByte_of_hold hhold hheld hcons
    simp only [step, read, Inlet.answer, hone, Option.map_some, takes, hhand, hcons]
    rfl
  have hquiet := others_of_filter hothers
  have hrest : (u.takes 1).inlet.current.length = held.after.current.length - 1 :=
    List.length_drop
  calc t.run (.reads .byte :: later)
      = (u.takes 1).run later := by rw [run_cons, hbyte]
    _ = ((u.takes 1).run (later.filter fun e => !e.isByte)).takes
          (later.countP InletEvent.isByte) := run_takes hothers (by omega)
    _ = (u.run (later.filter fun e => !e.isByte)).takes o.length := by
        rw [run_others_takes 1 u hquiet, takes_takes, Nat.add_comm, hbytes]
    _ = t.run (.reads (.upTo n) :: later.filter fun e => !e.isByte) := by
        rw [run_cons, hupTo, run_others_takes _ u hquiet]

/-- A call that returns no bytes, or has to wait, comes to a call for one byte. -/
theorem step_of_no_bytes (h : t.inlet.Orderly) {n : Nat} (hn : 0 < n)
    (hnone : ∀ a, t.inlet.read n t.world.interrupted = some a → Inlet.bytes a.value = []) :
    t.step (.reads (.upTo n)) = t.step (.reads .byte) := by
  simp only [step, read, Inlet.answer_eq_read, ReadCall.wanted]
  cases hread : t.inlet.read n t.world.interrupted with
  | some a => rw [Inlet.read_of_no_bytes hn h hread (hnone a hread)]
  | none =>
      have hbyte := (Inlet.read_eq_none_iff hn t.world.interrupted t.inlet).mp hread
      rw [(Inlet.read_eq_none_iff Nat.one_pos t.world.interrupted t.inlet).mpr hbyte]

end InletTraffic

/-! ## Portions -/

namespace Reader

/-- Several calls in a row, which may wait; each of them returns at least one byte unless it
asks for none. -/
inductive Portions : List ReadCall → Assisted Exchange → Octets → Assisted Exchange → Prop
  | none (s : Assisted Exchange) : Portions [] s [] s
  | call (c : ReadCall) (cs : List ReadCall) (o o' : Octets) (s s' s'' : Assisted Exchange)
      (hcall : await (attempt (Inlet.answer c)) s = some (.ok o, s'))
      (hsome : 0 < c.wanted → o ≠ []) (hrest : Portions cs s' o' s'') :
      Portions (c :: cs) s (o ++ o') s''

variable {cs : List ReadCall} {o o' : Octets} {s s' s'' : Assisted Exchange}

/-- Calls in a row can be put behind one another. -/
theorem Portions.append {cs' : List ReadCall} (h : Portions cs s o s')
    (h' : Portions cs' s' o' s'') : Portions (cs ++ cs') s (o ++ o') s'' := by
  induction h with
  | none s => exact h'
  | call c cs first o s t s' hcall hsome hrest ih =>
      rw [List.cons_append, List.append_assoc]
      exact .call c (cs ++ cs') first (o ++ o') s t s'' hcall hsome (ih h')

/-- Calls come to one thing only. -/
theorem Portions.unique (h : Portions cs s o s') (h' : Portions cs s o' s'') :
    o = o' ∧ s' = s'' := by
  induction h generalizing o' s'' with
  | none s =>
      cases h'
      exact ⟨rfl, rfl⟩
  | call c cs first o s t s' hcall hsome hrest ih =>
      cases h' with
      | call _ _ first' o' _ t' s'' hcall' hsome' hrest' =>
          rw [hcall] at hcall'
          cases hcall'
          obtain ⟨rfl, rfl⟩ := ih hrest'
          exact ⟨rfl, rfl⟩

/-- From what is in hand a call takes its bytes at once, and nobody notices. -/
theorem attempt_of_current {c : ReadCall} {w : Exchange} (hcurrent : w.inlet.current ≠ [])
    (hn : 0 < c.wanted) :
    attempt (Inlet.answer c) w =
      some (.ok (w.inlet.current.take c.wanted), w.inHand (w.inlet.current.drop c.wanted)) := by
  have hne : c.wanted ≠ 0 := by omega
  simp only [attempt, HasInlet.inlet?, HasInlet.interrupted, HasInlet.commit, Option.bind_some,
    Inlet.answer_eq_read, Inlet.read, hne, if_false, Inlet.hold, List.isEmpty_iff, hcurrent,
    Option.map_some, Inlet.Answer.andThen, Inlet.takeUpTo, Exchange.commit, List.map_nil,
    Exchange.settle_nil]
  rfl

/-- Bytes that are in hand can be taken one by one. -/
theorem portions_of_current {w : Exchange} (helpers : List (Exchange → Exchange))
    {front rest : Octets} (hcurrent : w.inlet.current = front ++ rest) :
    Portions (List.replicate front.length .byte) ⟨w, helpers⟩ front ⟨w.inHand rest, helpers⟩ := by
  induction front generalizing w with
  | nil =>
      have hsame : w.inHand rest = w := by
        rw [List.nil_append] at hcurrent
        rw [← hcurrent]
        rfl
      rw [hsame]
      exact .none _
  | cons x front ih =>
      have hcall := attempt_of_current (c := .byte) (w := w) (by simp [hcurrent]) Nat.one_pos
      have hready := await_of_ready (s := ⟨w, helpers⟩) hcall
      rw [hcurrent] at hready
      have hrest := ih (w := w.inHand (front ++ rest)) rfl
      rw [Exchange.inHand_inHand] at hrest
      exact .call .byte _ [x] front _ _ _ hready (by simp) hrest

/-- What a call returns, calls for one byte return, whatever follows from the first of them. -/
theorem portions_of_attempt {c : ReadCall} {w w' : Exchange}
    (hattempt : attempt (Inlet.answer c) w = some (.ok o, w')) (hsome : o ≠ [])
    (helpers : List (Exchange → Exchange)) :
    Portions (List.replicate o.length .byte) ⟨w, helpers⟩ o ⟨w', helpers⟩ := by
  obtain ⟨a, hread, hpair⟩ : ∃ a, w.inlet.read c.wanted w.interrupted = some a ∧
      (a.value, Exchange.commit a.after a.reactions w) = (.ok o, w') := by
    simpa only [attempt, HasInlet.inlet?, HasInlet.interrupted, HasInlet.commit, Option.bind_some,
      Inlet.answer_eq_read, Option.map_eq_some_iff] using hattempt
  obtain ⟨hvalue, hworld⟩ := Prod.mk.inj hpair
  obtain ⟨held, hhold, hheld, htaken, hafter, hreactions⟩ :=
    Inlet.hold_of_read_bytes hread hvalue hsome
  obtain ⟨x, front, rfl⟩ := List.exists_cons_of_ne_nil hsome
  -- What follows from taking a chunk has happened when the first call returns.
  let v := ({ w with inlet := held.after } : Exchange).settle (held.reactions.map .reaction)
  let rest := held.after.current.drop c.wanted
  have hcurrent : held.after.current = x :: (front ++ rest) := by
    rw [← List.cons_append, htaken, List.take_append_drop]
  have hcommit : ∀ hand : Octets,
      Exchange.commit (held.after.inHand hand) held.reactions w = v.inHand hand :=
    fun hand => Exchange.settle_inHand hand { w with inlet := held.after } _
  have hlast : w' = v.inHand rest := by
    rw [← hworld, hafter, hreactions, hcommit]
  have hbyte := Inlet.readByte_of_hold hhold hheld hcurrent
  have hfirst : attempt (Inlet.answer .byte) w = some (.ok [x], v.inHand (front ++ rest)) := by
    simp only [attempt, HasInlet.inlet?, HasInlet.interrupted, HasInlet.commit, Inlet.answer,
      Option.bind_some, hbyte, Option.map_some, hcommit]
    rfl
  have hrest := portions_of_current (w := v.inHand (front ++ rest)) helpers rfl
  rw [Exchange.inHand_inHand, ← hlast] at hrest
  have hready := await_of_ready (s := ⟨w, helpers⟩) hfirst
  exact .call .byte _ [x] front _ _ _ hready (by simp) hrest

/-- A call for no bytes has no effect. -/
theorem await_of_zero {c : ReadCall} (hzero : c.wanted = 0) (s : Assisted Exchange) :
    await (attempt (Inlet.answer c)) s = some (.ok [], s) := by
  have hattempt : attempt (Inlet.answer c) s.world = some (.ok [], s.world) := by
    simp only [attempt, HasInlet.inlet?, HasInlet.interrupted, HasInlet.commit, Option.bind_some,
      Inlet.answer_eq_read, hzero, Inlet.read_zero, Option.map_some, Exchange.commit,
      List.map_nil, Exchange.settle_nil]
  exact await_of_ready hattempt

/-- A call has to wait exactly if a call for one byte has to. -/
theorem attempt_byte_of_none {c : ReadCall} {w : Exchange}
    (hnone : attempt (Inlet.answer c) w = none) : attempt (Inlet.answer .byte) w = none := by
  have hread : w.inlet.read c.wanted w.interrupted = none := by
    simpa only [attempt, HasInlet.inlet?, HasInlet.interrupted, Option.bind_some,
      Inlet.answer_eq_read, Option.map_eq_none_iff] using hnone
  have hn : 0 < c.wanted := by
    rcases Nat.eq_zero_or_pos c.wanted with hzero | hn
    · rw [hzero, Inlet.read_zero] at hread
      cases hread
    · exact hn
  have hbyte := (Inlet.read_eq_none_iff hn w.interrupted w.inlet).mp hread
  simp [attempt, HasInlet.inlet?, HasInlet.interrupted, Inlet.answer, hbyte]

/-- What a call returns, be it that it had to wait, calls for one byte return. -/
theorem portions_of_await {c : ReadCall}
    (hcall : await (attempt (Inlet.answer c)) s = some (.ok o, s')) (hsome : o ≠ []) :
    Portions (List.replicate o.length .byte) s o s' := by
  obtain ⟨w, helpers⟩ := s
  induction helpers generalizing w with
  | nil =>
      cases hattempt : attempt (Inlet.answer c) w with
      | none => simp [await, awaitIn, hattempt] at hcall
      | some answer =>
          rw [await_of_ready (s := ⟨w, []⟩) hattempt] at hcall
          obtain ⟨value, w'⟩ := answer
          cases hcall
          exact portions_of_attempt hattempt hsome []
  | cons helper helpers ih =>
      cases hattempt : attempt (Inlet.answer c) w with
      | none =>
          rw [await_of_waiting hattempt] at hcall
          -- The first call for one byte waits for the same helper.
          obtain ⟨x, front, rfl⟩ := List.exists_cons_of_ne_nil hsome
          have hwaits : await (attempt (Inlet.answer .byte)) ⟨w, helper :: helpers⟩ =
              await (attempt (Inlet.answer .byte)) ⟨helper w, helpers⟩ :=
            await_of_waiting (attempt_byte_of_none hattempt)
          have hlater := ih (helper w) hcall
          rw [List.length_cons, List.replicate_succ] at hlater ⊢
          generalize x :: front = all at hlater ⊢
          cases hlater with
          | call _ _ first o' _ t _ hfirst hbytes hrest =>
              exact .call .byte _ first o' _ t s' (hwaits.trans hfirst) hbytes hrest
      | some answer =>
          rw [await_of_ready (s := ⟨w, helper :: helpers⟩) hattempt] at hcall
          obtain ⟨value, w'⟩ := answer
          cases hcall
          exact portions_of_attempt hattempt hsome _

/-- What calls of any size return, calls for one byte return, and end in the same place. -/
theorem Portions.bytewise (h : Portions cs s o s') :
    Portions (List.replicate o.length .byte) s o s' := by
  induction h with
  | none s => exact .none s
  | call c cs first o s t s' hcall hsome hrest ih =>
      rw [List.length_append, List.replicate_add]
      by_cases hfirst : first = []
      · have hzero : c.wanted = 0 := by
          by_contra hn
          exact hsome (Nat.pos_of_ne_zero hn) hfirst
        rw [await_of_zero hzero] at hcall
        cases hcall
        exact ih
      · exact (portions_of_await hcall hfirst).append ih

/-- Calls that return the same number of bytes return the same bytes, and end in the same
place. -/
theorem Portions.interchange {cs' : List ReadCall} (h : Portions cs s o s')
    (h' : Portions cs' s o' s'') (hlength : o.length = o'.length) : o = o' ∧ s' = s'' := by
  have hbytes := h'.bytewise
  rw [← hlength] at hbytes
  exact h.bytewise.unique hbytes

end Reader
namespace InletTraffic

/-! ## Runs -/

/-- In every state that can come about, whoever delivers and whenever:

- a call for some bytes has to wait, reports the end, or fails exactly if a call for one byte
  does, and then comes to the same;
- a call for no bytes has no effect;
- a call that returns bytes returns no more than were asked for, takes one chunk at most, and
  comes to as many calls for one byte, whatever others do between these;
- calls in a row, which may wait and whose publishers may answer from inside, come to as many
  calls for one byte as they return bytes, so any two lists of calls that return the same number
  of bytes return the same bytes and end in the same place. -/
theorem run_portions (interrupted : Bool) (events : List InletEvent) :
    let t := (start interrupted).run events
    (∀ n, 0 < n →
      (t.inlet.read n t.world.interrupted = none ↔
        t.inlet.readByte t.world.interrupted = none) ∧
      ((t.inlet.read n t.world.interrupted).map (·.value) = some (.ok []) ↔
        (t.inlet.readByte t.world.interrupted).map (·.value) = some (.ok none)) ∧
      (∀ f, (t.inlet.read n t.world.interrupted).map (·.value) = some (.error f) ↔
        (t.inlet.readByte t.world.interrupted).map (·.value) = some (.error f)) ∧
      ((∀ a, t.inlet.read n t.world.interrupted = some a → Inlet.bytes a.value = []) →
        t.step (.reads (.upTo n)) = t.step (.reads .byte))) ∧
    t.step (.reads (.upTo 0)) = t ∧
    (∀ n a o, t.inlet.read n t.world.interrupted = some a → a.value = .ok o → o ≠ [] →
      o.length ≤ n ∧
      (a.after.queue = t.inlet.queue ∨ ∃ chunk, t.inlet.queue = .data chunk :: a.after.queue) ∧
      ∀ later, (∀ e ∈ later, e.isByte = true ∨ e.isReaders = false) →
        later.countP InletEvent.isByte + 1 = o.length →
          t.run (.reads .byte :: later) =
            t.run (.reads (.upTo n) :: later.filter fun e => !e.isByte)) ∧
    ∀ helpers calls o s, Reader.Portions calls ⟨t.world, helpers⟩ o s →
      Reader.Portions (List.replicate o.length .byte) ⟨t.world, helpers⟩ o s ∧
      ∀ calls' o' s', Reader.Portions calls' ⟨t.world, helpers⟩ o' s' → o.length = o'.length →
        o = o' ∧ s = s' := by
  intro t
  have h : t.inlet.Orderly := (run_sound interrupted events).orderly
  refine ⟨fun n hn => ?_, ?_, fun n a o hread hvalue hsome => ?_, fun helpers calls o s hcalls => ?_⟩
  · obtain ⟨hend, hfails⟩ := Inlet.read_value_iff hn h t.world.interrupted
    exact ⟨Inlet.read_eq_none_iff hn _ _, hend, hfails, step_of_no_bytes h hn⟩
  · simp only [step, read, Inlet.answer, Inlet.read_zero, Inlet.bytes, List.append_nil]
    rfl
  · refine ⟨?_, Inlet.queue_of_read_bytes h hread hvalue hsome, fun later hothers hbytes =>
      run_bytewise hread hvalue hsome hothers hbytes⟩
    have hlength := Inlet.bytes_length_le hread
    rwa [hvalue] at hlength
  · exact ⟨hcalls.bytewise, fun calls' o' s' hcalls' hlength => hcalls.interchange hcalls' hlength⟩

/-- A publisher delivers its second chunk from inside the call that asks for it.  Three bytes are
taken of the first chunk in one call, or one by one while that goes on; and what is left of it
after one byte is taken with an empty call in between. -/
theorem divided_chunk_is_one_portion :
    let publisher : Peer InletCue :=
      { name := "publisher", onRequest := [[.next [1, 2, 3]], [.next [4, 5]]] }
    let events : List InletEvent :=
      .begins (.subscribe publisher) :: List.replicate 6 (.proceeds 0)
    let t := (start false).run events
    let meanwhile : List InletEvent :=
      [.proceeds 0, .reads .byte, .proceeds 0, .proceeds 0, .reads .byte]
    let u := (start false).run (events ++ [.reads (.upTo 1)])
    t.run (.reads .byte :: meanwhile) =
        t.run [.reads (.upTo 9), .proceeds 0, .proceeds 0, .proceeds 0] ∧
      (t.run (.reads .byte :: meanwhile)).returned = [1, 2, 3] ∧
      ∃ s, Reader.Portions [.upTo 1, .upTo 0, .byte] ⟨u.world, []⟩ [2, 3] s ∧
        Reader.Portions [.byte, .byte] ⟨u.world, []⟩ [2, 3] s := by
  intro publisher events t meanwhile u
  have hanswer : (((start false).run events).inlet.read 9
      ((start false).run events).world.interrupted).map (·.value) = some (.ok [1, 2, 3]) := by
    decide +kernel
  obtain ⟨a, hread, hvalue⟩ := Option.map_eq_some_iff.mp hanswer
  have hcurrent : u.world.inlet.current = [2, 3] := by decide +kernel
  have hrest : meanwhile.filter (fun e => !e.isByte) = [.proceeds 0, .proceeds 0, .proceeds 0] := rfl
  have hportions : ∀ w : Exchange, w.inlet.current = [2, 3] →
      ∃ s, Reader.Portions [.upTo 1, .upTo 0, .byte] ⟨w, []⟩ [2, 3] s := by
    intro w hcurrent
    have hfirst := await_of_ready (s := ⟨w, []⟩)
      (Reader.attempt_of_current (c := .upTo 1) (by simp [hcurrent]) Nat.one_pos)
    have hlast := await_of_ready (s := ⟨w.inHand [3], []⟩)
      (Reader.attempt_of_current (c := .byte) (by simp [Exchange.inHand, Inlet.inHand])
        Nat.one_pos)
    rw [hcurrent] at hfirst
    exact ⟨_, .call (.upTo 1) _ [2] [3] _ _ _ hfirst (by simp)
      (.call (.upTo 0) _ [] [3] _ _ _ (Reader.await_of_zero rfl _) (by simp [ReadCall.wanted])
        (.call .byte _ [3] [] _ _ _ hlast (by simp) (.none _)))⟩
  obtain ⟨-, -, hbytes, -⟩ := run_portions false events
  obtain ⟨-, -, -, hcalls⟩ := run_portions false (events ++ [.reads (.upTo 1)])
  have hsame := (hbytes 9 a [1, 2, 3] hread hvalue (by simp)).2.2 meanwhile (by decide) rfl
  rw [hrest] at hsame
  obtain ⟨s, hs⟩ := hportions u.world hcurrent
  exact ⟨hsame, by decide +kernel, s, hs, (hcalls [] _ [2, 3] s hs).1⟩

end InletTraffic
end CreditFlow
