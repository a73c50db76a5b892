import CreditFlow.Inlet.Reading
import Mathlib.Data.List.Basic
import Mathlib.Tactic.Common

/-!
# What an inlet holds

The bytes that the reader of an inlet can still take, the shape of the queue in which
they wait, and the window of one item that keeps the queue short.

A queue is *orderly* when it holds chunks that are not empty, and behind them one mark of
the end exactly as long as the stream has ended and its reader has not seen that.  An
inlet is *paced* when the chunks that wait and the items that are asked for make up one
item together.  Every operation keeps both, and every operation but a delivery and a
reading call keeps the bytes.

Main results:

- {lit}`Inlet.next_unread`: an accepted chunk is appended to the bytes, and a refused one
  leaves them as they were.
- {lit}`Inlet.read_unread`: what a reading call returns is taken from the front of the
  bytes.
- {lit}`Inlet.read_eq_end`: a call that reports the end of the stream has seen its
  completion, and nothing is left to take.
- {lit}`Inlet.answer_eq_read`: a byte-wise call is a call for one byte.
- {lit}`Inlet.signal_orderly`, {lit}`Inlet.signal_paced`: no signal breaks the queue or
  the window.
-/

namespace CreditFlow

namespace Element

/-- The chunk of an element, if it is one. -/
def chunk? : Element → Option Octets
  | .data chunk => some chunk
  | _ => none

/-- Whether an element marks the end of the stream. -/
def isMark : Element → Bool
  | .data _ => false
  | _ => true

@[simp]
theorem chunk?_data (chunk : Octets) : (data chunk).chunk? = some chunk := rfl

@[simp]
theorem isMark_data (chunk : Octets) : (data chunk).isMark = false := rfl

@[simp]
theorem isMark_finish : finish.isMark = true := rfl

@[simp]
theorem isMark_failure (f : Failure) : (failure f).isMark = true := rfl

@[simp]
theorem filterMap_finish : [finish].filterMap chunk? = [] := rfl

@[simp]
theorem filterMap_failure (f : Failure) : [failure f].filterMap chunk? = [] := rfl

@[simp]
theorem chunk?_comp_data : chunk? ∘ data = some := rfl

@[simp]
theorem isMark_comp_data : isMark ∘ data = fun _ => false := rfl

/-- An element that marks the end carries no chunk. -/
theorem chunk?_of_isMark {e : Element} (hmark : e.isMark = true) : e.chunk? = none := by
  cases e with
  | data chunk => simp at hmark
  | finish => rfl
  | failure f => rfl

end Element

namespace Inlet

variable {ι : Type}

/-! ## Chunks, marks, and bytes -/

/-- The chunks that wait in an inlet, the oldest first. -/
def chunks (b : Inlet ι) : List Octets :=
  b.queue.filterMap Element.chunk?

/-- The marks of an end that wait in an inlet. -/
def marks (b : Inlet ι) : List Element :=
  b.queue.filter Element.isMark

/-- The bytes that the reader of an inlet can still take. -/
def unread (b : Inlet ι) : Octets :=
  b.current ++ b.chunks.flatten

/-- Whether a chunk that arrives now is accepted. -/
def accepts (b : Inlet ι) : Bool :=
  match b.slot with
  | .installed _ => !b.terminated && b.credit != 0
  | _ => false

/-- Acceptance means a subscription, a stream that has not ended, and credit. -/
theorem accepts_iff (b : Inlet ι) :
    b.accepts = true ↔
      (∃ handle, b.slot = .installed handle) ∧ b.terminated = false ∧ b.credit ≠ 0 := by
  unfold accepts
  cases b.slot with
  | vacant => simp
  | installed handle => simp
  | closed => simp

/-! ## Orderly queues -/

/-- Chunks that are not empty, then a mark while an end has not been seen. -/
structure Orderly (b : Inlet ι) : Prop where
  queue_eq : b.queue = b.chunks.map .data ++ b.marks
  chunks_ne : ∀ c ∈ b.chunks, c ≠ []
  marks_length : b.marks.length = if b.terminated && !b.drained then 1 else 0
  drained_eq : b.drained = b.verdict.isSome
  drained_terminated : b.drained = true → b.terminated = true
  drained_unread : b.drained = true → b.unread = []

/-- A new inlet is orderly. -/
theorem orderly_empty : ({} : Inlet ι).Orderly := by
  constructor <;> simp [chunks, marks, unread]

namespace Orderly

variable {b b' : Inlet ι}

/-- Without an end there is no mark. -/
theorem marks_eq_nil (h : b.Orderly) (hopen : b.terminated = false) : b.marks = [] := by
  have hlength := h.marks_length
  rw [hopen] at hlength
  exact List.length_eq_zero_iff.mp (by simpa using hlength)

/-- An end that has not been seen leaves one mark. -/
theorem marks_eq_singleton (h : b.Orderly) (hend : b.terminated = true)
    (hunseen : b.drained = false) : ∃ e, e.isMark = true ∧ b.marks = [e] := by
  have hlength := h.marks_length
  rw [hend, hunseen] at hlength
  rcases List.length_eq_one_iff.mp (by simpa using hlength) with ⟨e, he⟩
  have hmem : e ∈ b.marks := by simp [he]
  exact ⟨e, (List.mem_filter.mp hmem).2, he⟩

/-- Only what a queue holds, and what is known of its end, decides whether it is orderly. -/
theorem of_eq (h : b.Orderly) (hqueue : b'.queue = b.queue)
    (hend : b'.terminated = b.terminated) (hdrained : b'.drained = b.drained)
    (hverdict : b'.verdict = b.verdict) (hcurrent : b'.current = b.current) : b'.Orderly := by
  have hchunks : b'.chunks = b.chunks := by simp only [chunks, hqueue]
  have hmarks : b'.marks = b.marks := by simp only [marks, hqueue]
  have hunread : b'.unread = b.unread := by simp only [unread, hcurrent, hchunks]
  refine ⟨?_, ?_, ?_, ?_, ?_, ?_⟩
  · rw [hqueue, hchunks, hmarks]
    exact h.queue_eq
  · rw [hchunks]
    exact h.chunks_ne
  · rw [hmarks, hend, hdrained]
    exact h.marks_length
  · rw [hdrained, hverdict]
    exact h.drained_eq
  · rw [hdrained, hend]
    exact h.drained_terminated
  · rw [hdrained, hunread]
    exact h.drained_unread

/-- A chunk that is not empty may be appended while the stream has not ended. -/
theorem enqueue (h : b.Orderly) (hopen : b.terminated = false) {chunk : Octets}
    (hchunk : chunk ≠ []) (hqueue : b'.queue = b.queue ++ [.data chunk])
    (hend : b'.terminated = false) (hdrained : b'.drained = b.drained)
    (hverdict : b'.verdict = b.verdict) : b'.Orderly := by
  have hunseen : b.drained = false := by
    by_contra hseen
    have hterminated := h.drained_terminated (by simpa using hseen)
    simp [hopen] at hterminated
  have hchunks : b'.chunks = b.chunks ++ [chunk] := by simp [chunks, hqueue]
  have hmarks : b'.marks = [] := by
    have hnil := h.marks_eq_nil hopen
    simp only [marks] at hnil
    simp [marks, hqueue, hnil]
  refine ⟨?_, ?_, ?_, ?_, ?_, ?_⟩
  · rw [hqueue, hchunks, hmarks, h.queue_eq, h.marks_eq_nil hopen]
    simp
  · intro c hc
    rw [hchunks] at hc
    rcases List.mem_append.mp hc with hc | hc
    · exact h.chunks_ne c hc
    · rw [List.mem_singleton.mp hc]
      exact hchunk
  · simp [hmarks, hend]
  · rw [hdrained, hverdict]
    exact h.drained_eq
  · simp [hdrained, hunseen]
  · simp [hdrained, hunseen]

/-- A mark stands behind the chunks when the stream ends. -/
theorem mark (h : b.Orderly) (hunseen : b.drained = false) {e : Element}
    (hmark : e.isMark = true) (hqueue : b'.queue = b.chunks.map .data ++ [e])
    (hend : b'.terminated = true) (hdrained : b'.drained = b.drained)
    (hverdict : b'.verdict = b.verdict) : b'.Orderly := by
  have hchunks : b'.chunks = b.chunks := by
    simp [chunks, hqueue, Element.chunk?_of_isMark hmark, List.filterMap_map]
  have hmarks : b'.marks = [e] := by
    simp [marks, hqueue, hmark, List.filter_map]
  refine ⟨?_, ?_, ?_, ?_, ?_, ?_⟩
  · rw [hqueue, hchunks, hmarks]
  · rw [hchunks]
    exact h.chunks_ne
  · simp [hmarks, hend, hdrained, hunseen]
  · rw [hdrained, hverdict]
    exact h.drained_eq
  · intro _
    exact hend
  · simp [hdrained, hunseen]

end Orderly

/-! ## The window of one item -/

/-- The chunks that wait and the items that are asked for make up one item; less only
when nobody has subscribed, or when no subscription is wanted any more. -/
def Paced (b : Inlet ι) : Prop :=
  match b.slot with
  | .vacant => b.credit = 0 ∧ b.chunks = []
  | .installed _ => b.credit + b.chunks.length = 1
  | .closed => b.credit + b.chunks.length ≤ 1

/-- A new inlet is paced. -/
theorem paced_empty : ({} : Inlet ι).Paced := by
  simp [Paced, chunks]

/-- Whatever its subscription, a paced inlet has room for one item at most. -/
theorem Paced.le_one {b : Inlet ι} (h : b.Paced) : b.credit + b.chunks.length ≤ 1 := by
  unfold Paced at h
  cases hslot : b.slot with
  | vacant =>
      rw [hslot] at h
      simp [h.1, h.2]
  | installed handle =>
      rw [hslot] at h
      exact Nat.le_of_eq h
  | closed =>
      rw [hslot] at h
      exact h

/-! ## Closing and subscribing -/

@[simp]
theorem close_unread (b : Inlet ι) : b.close.1.unread = b.unread := by
  unfold close
  split <;> rfl

theorem close_orderly {b : Inlet ι} (h : b.Orderly) : b.close.1.Orderly := by
  unfold close
  split <;> exact h.of_eq rfl rfl rfl rfl rfl

/-- A closed inlet keeps what was in its window. -/
theorem close_paced {b : Inlet ι} (h : b.Paced) : b.close.1.Paced := by
  have hle := h.le_one
  unfold close
  split
  · exact hle
  · exact hle
  · exact h

@[simp]
theorem dropReader_unread (b : Inlet ι) : b.dropReader.1.unread = b.unread :=
  close_unread b

theorem dropReader_orderly {b : Inlet ι} (h : b.Orderly) : b.dropReader.1.Orderly :=
  (close_orderly h).of_eq rfl rfl rfl rfl rfl

theorem dropReader_paced {b : Inlet ι} (h : b.Paced) : b.dropReader.1.Paced :=
  close_paced h

@[simp]
theorem subscribed_unread (handle : ι) (b : Inlet ι) :
    (b.subscribed handle).1.unread = b.unread := by
  unfold subscribed
  split <;> rfl

theorem subscribed_orderly {b : Inlet ι} (h : b.Orderly) (handle : ι) :
    (b.subscribed handle).1.Orderly := by
  unfold subscribed
  split <;> exact h.of_eq rfl rfl rfl rfl rfl

/-- A subscription that is taken in opens the window, and is asked for one item. -/
theorem subscribed_paced {b : Inlet ι} (h : b.Paced) (handle : ι) :
    (b.subscribed handle).1.Paced := by
  unfold subscribed
  split
  · rename_i hslot
    simp only [Paced, hslot] at h
    simp only [Paced, chunks] at h ⊢
    simp [h.2]
  · exact h
  · exact h

/-! ## Deliveries -/

/-- An accepted chunk is appended to the bytes; a refused one leaves them as they were. -/
theorem next_unread (chunk : Octets) (b : Inlet ι) :
    (b.next chunk).1.unread = b.unread ++ (if b.accepts then chunk else []) := by
  unfold next accepts
  cases hslot : b.slot with
  | vacant => simp
  | closed => simp
  | installed handle =>
      cases hend : b.terminated with
      | true => simp
      | false =>
          by_cases hcredit : b.credit = 0
          · simp [hcredit, unread, chunks]
          · by_cases hempty : chunk.isEmpty
            · have hnil : chunk = [] := List.isEmpty_iff.mp hempty
              simp [hcredit, hnil]
            · simp [hcredit, hempty, unread, chunks]

/-- A chunk that is taken in comes behind those that wait; an empty one is skipped. -/
theorem next_orderly {b : Inlet ι} (h : b.Orderly) (chunk : Octets) :
    (b.next chunk).1.Orderly := by
  unfold next
  split
  · rename_i handle hslot hopen
    have hqueue : b.queue = b.chunks.map .data := by
      have hall := h.queue_eq
      rwa [h.marks_eq_nil hopen, List.append_nil] at hall
    have hunseen : b.drained = false := by
      by_contra hseen
      have hend := h.drained_terminated (by simpa using hseen)
      simp [hopen] at hend
    by_cases hcredit : b.credit = 0
    · rw [if_pos hcredit]
      exact h.mark hunseen rfl (by rw [← hqueue]) rfl rfl rfl
    · rw [if_neg hcredit]
      by_cases hempty : chunk.isEmpty
      · rw [if_pos hempty]
        exact h
      · rw [if_neg hempty]
        exact h.enqueue hopen (by simpa using hempty) rfl hopen rfl rfl
  · exact h

/-- A chunk that is taken in is the item that was asked for. -/
theorem next_paced {b : Inlet ι} (h : b.Paced) (chunk : Octets) : (b.next chunk).1.Paced := by
  have hle := h.le_one
  unfold next
  split
  · rename_i handle hslot hopen
    simp only [Paced, hslot] at h
    by_cases hcredit : b.credit = 0
    · rw [if_pos hcredit]
      simpa [Paced, chunks] using hle
    · rw [if_neg hcredit]
      by_cases hempty : chunk.isEmpty
      · rw [if_pos hempty]
        simpa only [Paced, hslot] using h
      · rw [if_neg hempty]
        simp only [Paced, hslot, chunks, List.filterMap_append, List.length_append] at h ⊢
        simp only [List.filterMap_cons, Element.chunk?_data, List.filterMap_nil,
          List.length_cons, List.length_nil]
        omega
  · exact h

/-! ## Ends -/

@[simp]
theorem failStream_chunks (f : Failure) (b : Inlet ι) :
    (b.failStream f).1.chunks = b.chunks := by
  unfold failStream
  split
  · rfl
  · split
    · split
      · rename_i hlast
        have hqueue : b.queue = b.queue.dropLast ++ [.finish] :=
          (List.dropLast_append_getLast? _ hlast).symm
        calc
          (b.queue.dropLast ++ [Element.failure f]).filterMap Element.chunk?
              = (b.queue.dropLast ++ [Element.finish]).filterMap Element.chunk? := by simp
          _ = b.chunks := by rw [← hqueue, chunks]
      · rfl
    · simp [chunks]

/-- A failure takes the place of the mark that waits, or comes last. -/
theorem failStream_orderly {b : Inlet ι} (h : b.Orderly) (f : Failure) :
    (b.failStream f).1.Orderly := by
  unfold failStream
  by_cases hdrained : b.drained = true
  · rw [if_pos hdrained]
    exact h
  · rw [if_neg hdrained]
    have hunseen : b.drained = false := by simpa using hdrained
    by_cases hend : b.terminated = true
    · rw [if_pos hend]
      rcases h.marks_eq_singleton hend hunseen with ⟨e, hmark, hmarks⟩
      have hqueue := h.queue_eq
      rw [hmarks] at hqueue
      split
      · refine h.mark hunseen (Element.isMark_failure f) ?_ hend rfl rfl
        simp [hqueue]
      · exact h
    · rw [if_neg hend]
      have hopen : b.terminated = false := by simpa using hend
      refine h.mark hunseen (Element.isMark_failure f) ?_ rfl rfl rfl
      have hqueue := h.queue_eq
      rw [h.marks_eq_nil hopen, List.append_nil] at hqueue
      simp only [← hqueue]

@[simp]
theorem failStream_slot (f : Failure) (b : Inlet ι) : (b.failStream f).1.slot = b.slot := by
  unfold failStream
  split
  · rfl
  · split
    · split <;> rfl
    · rfl

@[simp]
theorem failStream_credit (f : Failure) (b : Inlet ι) :
    (b.failStream f).1.credit = b.credit := by
  unfold failStream
  split
  · rfl
  · split
    · split <;> rfl
    · rfl

@[simp]
theorem failStream_current (f : Failure) (b : Inlet ι) :
    (b.failStream f).1.current = b.current := by
  unfold failStream
  split
  · rfl
  · split
    · split <;> rfl
    · rfl

@[simp]
theorem failStream_unread (f : Failure) (b : Inlet ι) :
    (b.failStream f).1.unread = b.unread := by
  simp only [unread, failStream_current, failStream_chunks]

/-- A failure leaves the window as it was. -/
theorem failStream_paced {b : Inlet ι} (h : b.Paced) (f : Failure) :
    (b.failStream f).1.Paced := by
  simpa only [Paced, failStream_slot, failStream_credit, failStream_chunks] using h

@[simp]
theorem completeStream_unread (b : Inlet ι) : b.completeStream.1.unread = b.unread := by
  unfold completeStream
  split
  · rfl
  · simp [unread, chunks]

/-- A completion comes last, unless there is an end already. -/
theorem completeStream_orderly {b : Inlet ι} (h : b.Orderly) : b.completeStream.1.Orderly := by
  unfold completeStream
  by_cases hend : b.terminated = true
  · rw [if_pos hend]
    exact h
  · rw [if_neg hend]
    have hopen : b.terminated = false := by simpa using hend
    have hunseen : b.drained = false := by
      by_contra hseen
      exact hend (h.drained_terminated (by simpa using hseen))
    refine h.mark hunseen Element.isMark_finish ?_ rfl rfl rfl
    have hqueue := h.queue_eq
    rw [h.marks_eq_nil hopen, List.append_nil] at hqueue
    simp only [← hqueue]

/-- So does a completion. -/
theorem completeStream_paced {b : Inlet ι} (h : b.Paced) : b.completeStream.1.Paced := by
  unfold completeStream
  split
  · exact h
  · simpa [Paced, chunks] using h

@[simp]
theorem resolveMetadata_unread (outcome : Cell String) (note : Notice) (b : Inlet ι) :
    (b.resolveMetadata outcome note).1.unread = b.unread := rfl

theorem resolveMetadata_orderly {b : Inlet ι} (h : b.Orderly) (outcome : Cell String)
    (note : Notice) : (b.resolveMetadata outcome note).1.Orderly :=
  h.of_eq rfl rfl rfl rfl rfl

theorem resolveMetadata_paced {b : Inlet ι} (h : b.Paced) (outcome : Cell String)
    (note : Notice) : (b.resolveMetadata outcome note).1.Paced := h

/-! ## Signals and failures -/

/-- No signal breaks the order of a queue. -/
theorem signal_orderly {b : Inlet ι} (h : b.Orderly) (s : Signal ι) :
    (b.signal s).1.Orderly := by
  cases s with
  | subscribed handle => exact subscribed_orderly h handle
  | next chunk => exact next_orderly h chunk
  | error cause => exact failStream_orderly (resolveMetadata_orderly h _ _) _
  | complete => exact completeStream_orderly (resolveMetadata_orderly h _ _)

/-- No signal breaks the window. -/
theorem signal_paced {b : Inlet ι} (h : b.Paced) (s : Signal ι) : (b.signal s).1.Paced := by
  cases s with
  | subscribed handle => exact subscribed_paced h handle
  | next chunk => exact next_paced h chunk
  | error cause => exact failStream_paced (resolveMetadata_paced h _ _) _
  | complete => exact completeStream_paced (resolveMetadata_paced h _ _)

@[simp]
theorem failure_unread (cause : Cause) (b : Inlet ι) : (b.failure cause).1.unread = b.unread := by
  simp [failure]

/-- A failure from beside the stream leaves the inlet in order. -/
theorem failure_orderly {b : Inlet ι} (h : b.Orderly) (cause : Cause) :
    (b.failure cause).1.Orderly :=
  failStream_orderly (resolveMetadata_orderly h _ _) _

theorem failure_paced {b : Inlet ι} (h : b.Paced) (cause : Cause) :
    (b.failure cause).1.Paced :=
  failStream_paced (resolveMetadata_paced h _ _) _

/-! ## Reading -/

end Inlet

/-- What an end tells whoever takes it. -/
def Element.verdict : Element → Except Failure Unit
  | .failure f => .error f
  | _ => .ok ()

namespace Inlet

/-- All that taking from an orderly inlet can come to. -/
inductive Refilling (b : Inlet ι) (interrupted : Bool) :
    Answer ι (Except Failure Bool) → Prop
  /-- The end was seen before. -/
  | known (v : Except Failure Unit) (hverdict : b.verdict = some v) :
      Refilling b interrupted { value := v.map fun _ => false, after := b }
  /-- A chunk is taken, and the next one is asked for. -/
  | chunk (c : Octets) (rest : List Element) (handle : ι) (hverdict : b.verdict = none)
      (hqueue : b.queue = .data c :: rest) (hslot : b.slot = .installed handle) :
      Refilling b interrupted
        { value := .ok true
          after := { b with queue := rest, current := c, credit := b.credit + 1 }
          reactions := [.note .requestingNextChunk, .control handle (.request 1)] }
  /-- A chunk is taken that came from a subscription that is wanted no more. -/
  | leftover (c : Octets) (rest : List Element) (hverdict : b.verdict = none)
      (hqueue : b.queue = .data c :: rest) (hslot : ∀ handle, b.slot ≠ .installed handle) :
      Refilling b interrupted
        { value := .ok true, after := { b with queue := rest, current := c } }
  /-- The mark is taken, behind which there is nothing. -/
  | mark (e : Element) (note : Notice) (hverdict : b.verdict = none)
      (hmark : e.isMark = true) (hqueue : b.queue = [e]) :
      Refilling b interrupted
        { value := e.verdict.map fun _ => false
          after := { b with queue := [], drained := true, verdict := some e.verdict }
          reactions := [.note note] }
  /-- There is nothing, and nothing will come. -/
  | closed (hverdict : b.verdict = none) (hqueue : b.queue = []) (hslot : b.slot = .closed) :
      Refilling b interrupted { value := .error (.condition .closed), after := b }
  /-- There is nothing yet, and the call does not wait. -/
  | interrupted (hverdict : b.verdict = none) (hqueue : b.queue = [])
      (hfired : interrupted = true) :
      Refilling b interrupted { value := .error (.condition (.interrupted .data)), after := b }

/-- In an orderly queue nothing stands behind a mark. -/
theorem Orderly.queue_of_mark {b : Inlet ι} (h : b.Orderly) {e : Element} {rest : List Element}
    (hmark : e.isMark = true) (hqueue : b.queue = e :: rest) : rest = [] := by
  have hmarks : b.marks = e :: rest.filter Element.isMark := by
    simp [marks, hqueue, hmark]
  have hle : b.marks.length ≤ 1 := by
    rw [h.marks_length]
    split <;> simp
  have hnil : rest.filter Element.isMark = [] := by
    rw [hmarks, List.length_cons] at hle
    exact List.length_eq_zero_iff.mp (by omega)
  have hall := h.queue_eq
  rw [hmarks, hnil] at hall
  cases hchunks : b.chunks with
  | nil =>
      rw [hqueue, hchunks] at hall
      simpa using hall
  | cons c cs =>
      rw [hqueue, hchunks] at hall
      simp only [List.map_cons, List.cons_append, List.cons.injEq] at hall
      rw [hall.1] at hmark
      simp at hmark

/-- Taking from an orderly inlet comes to one of the listed ends. -/
theorem refilling_of_refill {b : Inlet ι} (h : b.Orderly) {interrupted : Bool}
    {a : Answer ι (Except Failure Bool)} (hrefill : b.refill interrupted = some a) :
    Refilling b interrupted a := by
  unfold refill at hrefill
  split at hrefill
  · rename_i hverdict
    cases hrefill
    exact .known (.ok ()) hverdict
  · rename_i f hverdict
    cases hrefill
    exact .known (.error f) hverdict
  · rename_i hverdict
    split at hrefill
    · rename_i c rest hqueue
      split at hrefill
      · rename_i handle hslot
        cases hrefill
        exact .chunk c rest handle hverdict hqueue hslot
      · rename_i hslot
        cases hrefill
        exact .leftover c rest hverdict hqueue hslot
    · rename_i rest hqueue
      cases hrefill
      have hrest := h.queue_of_mark Element.isMark_finish hqueue
      subst hrest
      exact .mark .finish _ hverdict Element.isMark_finish hqueue
    · rename_i f rest hqueue
      cases hrefill
      have hrest := h.queue_of_mark (Element.isMark_failure f) hqueue
      subst hrest
      exact .mark (.failure f) _ hverdict (Element.isMark_failure f) hqueue
    · rename_i hqueue
      split at hrefill
      · rename_i hslot
        cases hrefill
        exact .closed hverdict hqueue hslot
      · split at hrefill
        · rename_i hfired
          cases hrefill
          exact .interrupted hverdict hqueue hfired
        · simp at hrefill

namespace Refilling

variable {b : Inlet ι} {interrupted : Bool} {a : Answer ι (Except Failure Bool)}

/-- Taking moves bytes into the reader's hand and loses none. -/
theorem unread_eq (hrefill : Refilling b interrupted a) (hcurrent : b.current = []) :
    a.after.unread = b.unread := by
  cases hrefill with
  | known v hverdict => rfl
  | chunk c rest handle hverdict hqueue hslot => simp [unread, chunks, hqueue, hcurrent]
  | leftover c rest hverdict hqueue hslot => simp [unread, chunks, hqueue, hcurrent]
  | mark e note hverdict hmark hqueue =>
      simp [unread, chunks, hqueue, hcurrent, Element.chunk?_of_isMark hmark]
  | closed hverdict hqueue hslot => rfl
  | interrupted hverdict hqueue hfired => rfl

/-- Taking keeps a queue orderly. -/
theorem orderly (hrefill : Refilling b interrupted a) (h : b.Orderly)
    (hcurrent : b.current = []) : a.after.Orderly := by
  have hunread := hrefill.unread_eq hcurrent
  have htaken : ∀ {c : Octets} {rest : List Element}, b.queue = .data c :: rest →
      b.verdict = none → ∀ b' : Inlet ι, b'.queue = rest → b'.terminated = b.terminated →
        b'.drained = b.drained → b'.verdict = b.verdict → b'.Orderly := by
    intro c rest hqueue hverdict b' hqueue' hend hdrained hverdict'
    have hunseen : b.drained = false := by simp [h.drained_eq, hverdict]
    have hchunks : b.chunks = c :: b'.chunks := by simp [chunks, hqueue, hqueue']
    have hmarks : b'.marks = b.marks := by simp [marks, hqueue, hqueue']
    refine ⟨?_, ?_, ?_, ?_, ?_, ?_⟩
    · have hall := h.queue_eq
      rw [hqueue, hchunks, List.map_cons, List.cons_append, List.cons.injEq] at hall
      rw [hqueue', hmarks]
      exact hall.2
    · intro d hd
      exact h.chunks_ne d (by rw [hchunks]; exact List.mem_cons_of_mem c hd)
    · rw [hmarks, hend, hdrained]
      exact h.marks_length
    · rw [hdrained, hverdict']
      exact h.drained_eq
    · simp [hdrained, hunseen]
    · simp [hdrained, hunseen]
  cases hrefill with
  | known v hverdict => exact h
  | chunk c rest handle hverdict hqueue hslot =>
      exact htaken hqueue hverdict _ rfl rfl rfl rfl
  | leftover c rest hverdict hqueue hslot => exact htaken hqueue hverdict _ rfl rfl rfl rfl
  | mark e note hverdict hmark hqueue =>
      have hmarks : b.marks = [e] := by simp [marks, hqueue, hmark]
      have hend : b.terminated = true := by
        have hlength := h.marks_length
        rw [hmarks] at hlength
        by_contra hopen
        simp [hopen] at hlength
      refine ⟨rfl, ?_, ?_, rfl, fun _ => hend, ?_⟩
      · simp [chunks]
      · simp [marks]
      · intro _
        simp [unread, chunks, hcurrent]
  | closed hverdict hqueue hslot => exact h
  | interrupted hverdict hqueue hfired => exact h

/-- Taking keeps the window: a chunk that goes is asked for again. -/
theorem paced (hrefill : Refilling b interrupted a) (h : b.Paced) : a.after.Paced := by
  have hle := h.le_one
  cases hrefill with
  | known v hverdict => exact h
  | chunk c rest handle hverdict hqueue hslot =>
      simp only [Paced, hslot, chunks, hqueue, List.filterMap_cons, Element.chunk?_data,
        List.length_cons] at h ⊢
      omega
  | leftover c rest hverdict hqueue hslot =>
      cases hs : b.slot with
      | vacant => simp [Paced, hs, chunks, hqueue] at h
      | installed handle => exact absurd hs (hslot handle)
      | closed =>
          simp only [Paced, chunks, hqueue, List.filterMap_cons, Element.chunk?_data,
            List.length_cons] at hle ⊢
          omega
  | mark e note hverdict hmark hqueue =>
      have hchunks : b.chunks = [] := by simp [chunks, hqueue, Element.chunk?_of_isMark hmark]
      unfold Paced at h ⊢
      rw [hchunks] at h
      exact h
  | closed hverdict hqueue hslot => exact h
  | interrupted hverdict hqueue hfired => exact h

/-- What was taken is held, and what was not taken has a reason that is told. -/
theorem value_eq (hrefill : Refilling b interrupted a) (h : b.Orderly)
    (hcurrent : b.current = []) :
    (a.value = .ok true ∧ a.after.current ≠ []) ∨
      ((∃ v, a.value = Except.map (fun _ => false) v ∧ a.after.verdict = some v) ∧
        b.unread = []) ∨
      (a.value = .error (.condition .closed) ∧ b.slot = .closed ∧ a.after = b) ∨
      (a.value = .error (.condition (.interrupted .data)) ∧ interrupted = true ∧
        a.after = b) := by
  cases hrefill with
  | known v hverdict =>
      have hdrained : b.drained = true := by simp [h.drained_eq, hverdict]
      exact .inr (.inl ⟨⟨v, rfl, hverdict⟩, h.drained_unread hdrained⟩)
  | chunk c rest handle hverdict hqueue hslot =>
      exact .inl ⟨rfl, h.chunks_ne c (by simp [chunks, hqueue])⟩
  | leftover c rest hverdict hqueue hslot =>
      exact .inl ⟨rfl, h.chunks_ne c (by simp [chunks, hqueue])⟩
  | mark e note hverdict hmark hqueue =>
      refine .inr (.inl ⟨⟨e.verdict, rfl, rfl⟩, ?_⟩)
      simp [unread, chunks, hqueue, hcurrent, Element.chunk?_of_isMark hmark]
  | closed hverdict hqueue hslot => exact .inr (.inr (.inl ⟨rfl, hslot, rfl⟩))
  | interrupted hverdict hqueue hfired => exact .inr (.inr (.inr ⟨rfl, hfired, rfl⟩))

end Refilling

/-- Something is held already, or something is taken. -/
theorem hold_cases {b : Inlet ι} (h : b.Orderly) {interrupted : Bool}
    {a : Answer ι (Except Failure Bool)} (hhold : b.hold interrupted = some a) :
    (b.current ≠ [] ∧ a = { value := .ok true, after := b }) ∨
      (b.current = [] ∧ Refilling b interrupted a) := by
  unfold hold at hhold
  by_cases hcurrent : b.current = []
  · rw [if_pos (by simp [hcurrent])] at hhold
    exact .inr ⟨hcurrent, refilling_of_refill h hhold⟩
  · rw [if_neg (by simpa using hcurrent)] at hhold
    cases hhold
    exact .inl ⟨hcurrent, rfl⟩

/-! ## Reading calls -/

/-- The bytes that a reading call returns. -/
def bytes : Except Failure Octets → Octets
  | .ok o => o
  | .error _ => []

/-- What is taken of the bytes in hand leaves the rest of them. -/
theorem takeUpTo_unread (n : Nat) (held : Except Failure Bool) (b : Inlet ι) :
    bytes (takeUpTo n held b).1 ++ (takeUpTo n held b).2.unread = b.unread := by
  match held with
  | .ok true =>
      change b.current.take n ++ (b.current.drop n ++ b.chunks.flatten) = b.unread
      rw [← List.append_assoc, List.take_append_drop, unread]
  | .ok false => simp [takeUpTo, bytes]
  | .error f => simp [takeUpTo, bytes]

/-- Taking bytes from the chunk in hand disturbs nothing that waits. -/
theorem takeUpTo_orderly {b : Inlet ι} (h : b.Orderly) (n : Nat)
    (held : Except Failure Bool) : (takeUpTo n held b).2.Orderly := by
  match held with
  | .ok true =>
      refine ⟨h.queue_eq, h.chunks_ne, h.marks_length, h.drained_eq, h.drained_terminated, ?_⟩
      intro hdrained
      have hnil := h.drained_unread hdrained
      simp only [unread, List.append_eq_nil_iff] at hnil
      change b.current.drop n ++ b.chunks.flatten = []
      rw [hnil.1, hnil.2]
      simp
  | .ok false => exact h
  | .error f => exact h

/-- Taking bytes from the chunk in hand leaves the window as it was. -/
theorem takeUpTo_paced {b : Inlet ι} (h : b.Paced) (n : Nat)
    (held : Except Failure Bool) : (takeUpTo n held b).2.Paced := by
  match held with
  | .ok true => exact h
  | .ok false => exact h
  | .error f => exact h

section Calls

variable {b : Inlet ι} {n : Nat} {interrupted : Bool} {a : Answer ι (Except Failure Octets)}

/-- A call for some bytes holds a chunk, then takes from it. -/
theorem hold_of_read (hn : 0 < n) (hread : b.read n interrupted = some a) :
    ∃ held, b.hold interrupted = some held ∧ a = held.andThen (takeUpTo n) := by
  unfold read at hread
  rw [if_neg (by omega)] at hread
  rcases Option.map_eq_some_iff.mp hread with ⟨held, hhold, hvalue⟩
  exact ⟨held, hhold, hvalue.symm⟩

/-- What a reading call returns is taken from the front of the bytes. -/
theorem read_unread (h : b.Orderly) (hread : b.read n interrupted = some a) :
    bytes a.value ++ a.after.unread = b.unread := by
  rcases Nat.eq_zero_or_pos n with rfl | hn
  · cases hread
    rfl
  · rcases hold_of_read hn hread with ⟨held, hhold, rfl⟩
    have htake := takeUpTo_unread n held.value held.after
    rcases hold_cases h hhold with ⟨hcurrent, rfl⟩ | ⟨hcurrent, hrefill⟩
    · exact htake
    · exact htake.trans (hrefill.unread_eq hcurrent)

/-- A reading call leaves the inlet in order. -/
theorem read_orderly (h : b.Orderly) (hread : b.read n interrupted = some a) :
    a.after.Orderly := by
  rcases Nat.eq_zero_or_pos n with rfl | hn
  · cases hread
    exact h
  · rcases hold_of_read hn hread with ⟨held, hhold, rfl⟩
    rcases hold_cases h hhold with ⟨hcurrent, rfl⟩ | ⟨hcurrent, hrefill⟩
    · exact takeUpTo_orderly h n _
    · exact takeUpTo_orderly (hrefill.orderly h hcurrent) n _

/-- A reading call that takes a chunk asks for the next one. -/
theorem read_paced (h : b.Orderly) (hpaced : b.Paced) (hread : b.read n interrupted = some a) :
    a.after.Paced := by
  rcases Nat.eq_zero_or_pos n with rfl | hn
  · cases hread
    exact hpaced
  · rcases hold_of_read hn hread with ⟨held, hhold, rfl⟩
    rcases hold_cases h hhold with ⟨hcurrent, rfl⟩ | ⟨hcurrent, hrefill⟩
    · exact takeUpTo_paced hpaced n _
    · exact takeUpTo_paced (hrefill.paced hpaced) n _

/-- Every answer to a call for some bytes is bytes, an end with nothing before it, or a
call that did not wait. -/
theorem read_value (h : b.Orderly) (hn : 0 < n) (hread : b.read n interrupted = some a) :
    (∃ o, o ≠ [] ∧ a.value = .ok o) ∨
      ((∃ v, a.value = Except.map (fun _ => []) v ∧ a.after.verdict = some v) ∧
        b.unread = []) ∨
      (a.value = .error (.condition .closed) ∧ b.slot = .closed ∧ a.after = b) ∨
      (a.value = .error (.condition (.interrupted .data)) ∧ interrupted = true ∧
        a.after = b) := by
  rcases hold_of_read hn hread with ⟨held, hhold, rfl⟩
  have htaken : ∀ c : Octets, c ≠ [] → c.take n ≠ [] := by
    intro c hc hnil
    rcases List.take_eq_nil_iff.mp hnil with hzero | hnil
    · omega
    · exact hc hnil
  rcases hold_cases h hhold with ⟨hcurrent, rfl⟩ | ⟨hcurrent, hrefill⟩
  · exact .inl ⟨b.current.take n, htaken _ hcurrent, rfl⟩
  · rcases hrefill.value_eq h hcurrent with
      ⟨hvalue, hheld⟩ | ⟨⟨v, hvalue, hverdict⟩, hunread⟩ | ⟨hvalue, hslot, hafter⟩ |
      ⟨hvalue, hfired, hafter⟩
    · refine .inl ⟨held.after.current.take n, htaken _ hheld, ?_⟩
      simp [Answer.andThen, hvalue, takeUpTo]
    · refine .inr (.inl ⟨⟨v, ?_, ?_⟩, hunread⟩)
      · cases v <;> simp [Answer.andThen, hvalue, takeUpTo, Except.map]
      · cases v <;> simpa [Answer.andThen, hvalue, takeUpTo, Except.map] using hverdict
    · refine .inr (.inr (.inl ⟨?_, hslot, ?_⟩)) <;>
        simp [Answer.andThen, hvalue, takeUpTo, hafter]
    · refine .inr (.inr (.inr ⟨?_, hfired, ?_⟩)) <;>
        simp [Answer.andThen, hvalue, takeUpTo, hafter]

/-- A call that reports the end has seen the completion, and nothing was left to take. -/
theorem read_eq_end (h : b.Orderly) (hn : 0 < n) (hread : b.read n interrupted = some a)
    (hvalue : a.value = .ok []) : a.after.verdict = some (.ok ()) ∧ b.unread = [] := by
  rcases read_value h hn hread with ⟨o, hne, ho⟩ | ⟨⟨v, hv, hverdict⟩, hunread⟩ |
    ⟨hclosed, -, -⟩ | ⟨hfired, -, -⟩
  · rw [hvalue] at ho
    cases ho
    exact absurd rfl hne
  · cases v with
    | ok u => exact ⟨hverdict, hunread⟩
    | error f =>
        rw [hvalue] at hv
        simp [Except.map] at hv
  · rw [hvalue] at hclosed
    cases hclosed
  · rw [hvalue] at hfired
    cases hfired

/-- A call returns no more bytes than were asked for. -/
theorem bytes_length_le (hread : b.read n interrupted = some a) :
    (bytes a.value).length ≤ n := by
  rcases Nat.eq_zero_or_pos n with rfl | hn
  · cases hread
    exact Nat.le_refl _
  · rcases hold_of_read hn hread with ⟨held, hhold, rfl⟩
    match hvalue : held.value with
    | .ok true =>
        simp only [Answer.andThen, hvalue, takeUpTo, bytes, List.length_take]
        omega
    | .ok false => simp [Answer.andThen, hvalue, takeUpTo, bytes]
    | .error f => simp [Answer.andThen, hvalue, takeUpTo, bytes]

/-- An end that was seen is the answer to every call, which changes nothing. -/
theorem read_of_ended (hverdict : b.verdict = some (.ok ())) (hcurrent : b.current = [])
    (n : Nat) (interrupted : Bool) :
    b.read n interrupted = some { value := .ok [], after := b } := by
  rcases Nat.eq_zero_or_pos n with rfl | hn
  · rfl
  · have hne : n ≠ 0 := by omega
    simp [read, hold, hne, hcurrent, refill_of_complete hverdict, Answer.andThen, takeUpTo]

/-- A reader that has come to the end of the stream is told so at once. -/
theorem readByte_of_ended (hverdict : b.verdict = some (.ok ())) (hcurrent : b.current = [])
    (interrupted : Bool) : b.readByte interrupted = some { value := .ok none, after := b } := by
  rw [readByte_eq_read, read_of_ended hverdict hcurrent]
  rfl

end Calls

/-! ## Reading by the byte -/

end Inlet

/-- A call of a reader. -/
inductive ReadCall where
  /-- Read up to `n` bytes. -/
  | upTo (n : Nat)
  /-- Read one byte. -/
  | byte
  deriving DecidableEq, Repr

/-- How many bytes a call asks for. -/
def ReadCall.wanted : ReadCall → Nat
  | upTo n => n
  | byte => 1

namespace Inlet

variable {ι : Type}

/-- What a call answers, with the one byte of a byte-wise call as a list. -/
def answer (call : ReadCall) (interrupted : Bool) (b : Inlet ι) :
    Option (Answer ι (Except Failure Octets)) :=
  match call with
  | .upTo n => b.read n interrupted
  | .byte => (b.readByte interrupted).map fun a => { a with value := a.value.map Option.toList }

/-- A byte-wise call is a call for one byte. -/
theorem answer_eq_read (call : ReadCall) (interrupted : Bool) (b : Inlet ι) :
    b.answer call interrupted = b.read call.wanted interrupted := by
  cases call with
  | upTo n => rfl
  | byte =>
      simp only [answer, ReadCall.wanted, readByte_eq_read, Option.map_map]
      cases hread : b.read 1 interrupted with
      | none => rfl
      | some a =>
          rcases a with ⟨value, after, reactions⟩
          have hshort := bytes_length_le hread
          match value with
          | .error f => rfl
          | .ok [] => rfl
          | .ok [x] => rfl
          | .ok (x :: y :: rest) => simp [bytes] at hshort

/-- A byte-wise call reports the end exactly when a call for one byte returns nothing. -/
theorem readByte_eq_none_iff (interrupted : Bool) (b : Inlet ι) :
    (b.readByte interrupted).map (·.value) = some (.ok none) ↔
      (b.read 1 interrupted).map (·.value) = some (.ok []) := by
  rw [readByte_eq_read]
  cases hread : b.read 1 interrupted with
  | none => simp
  | some a =>
      rcases a with ⟨value, after, reactions⟩
      match value with
      | .error f => simp [Except.map]
      | .ok [] => simp [Except.map]
      | .ok (x :: rest) => simp [Except.map]

end Inlet
end CreditFlow
