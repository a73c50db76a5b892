import CreditFlow.Proofs.PlayerReader

/-!
# What the reader of a player is given

Whatever the schedule of the two threads: the credit of the inlet is what the player has
counted and not used, what is on its way to the counter, and the chunk that is on its way to
the inlet.  So a chunk never comes without credit, and nothing is lost.

Main results:

- {lit}`Duet.run_sound`: where everything is, at any time.
- {lit}`Duet.Sound.of_seen`: all that is settled when the reader has seen the end.
- {lit}`Duet.Sound.reads_of_seen`: from then on every call answers with the end.
-/

namespace CreditFlow
namespace Duet

/-! ## Where the thread of the player stands -/

/-- Where the thread of the player stands while `left` chunks have not reached the inlet.
`after` is what stands behind the end in the script. -/
inductive Course (e : Finale) (after : List Step) (p : Player) (playing : List Errand)
    (b : Inlet Unit) : List Octets → Prop
  /-- The thread has not begun. -/
  | fresh (left : List Octets) (hperformance : p.performance = .fresh)
      (hscript : p.script = left.map .chunk ++ e.step :: after) (hplaying : playing = [])
      (hslot : b.slot = .vacant) (hopen : b.terminated = false) : Course e after p playing b left
  /-- The inlet is being greeted. -/
  | greets (left : List Octets) (hperformance : p.performance = .playing)
      (hscript : p.script = left.map .chunk ++ e.step :: after)
      (hplaying : playing = [.enters (.subscribed ())]) (hslot : b.slot = .vacant)
      (hopen : b.terminated = false) : Course e after p playing b left
  /-- The thread comes to the next step, maybe after a request that the inlet made of it. -/
  | plays (left : List Octets) (hperformance : p.performance = .playing)
      (hscript : p.script = left.map .chunk ++ e.step :: after) (hplaying : playing <:+ asking)
      (hslot : b.slot = .installed ()) (hopen : b.terminated = false) :
      Course e after p playing b left
  /-- A chunk is being delivered. -/
  | delivers (chunk : Octets) (left : List Octets) (hperformance : p.performance = .playing)
      (hscript : p.script = left.map .chunk ++ e.step :: after)
      (hplaying : playing = [.enters (.next chunk)]) (hslot : b.slot = .installed ())
      (hopen : b.terminated = false) : Course e after p playing b (chunk :: left)
  /-- The end is being told. -/
  | ends (hperformance : p.performance = .leaving)
      (hplaying : playing = [.resolves e.signal, .enters e.signal] ∨
        playing = [.enters e.signal])
      (hslot : b.slot = .installed ()) (hopen : b.terminated = false) :
      Course e after p playing b []
  /-- The end has been told. -/
  | told (hperformance : p.performance = .leaving ∨ p.performance = .over)
      (hplaying : playing = []) (hslot : b.slot = .installed ()) (hended : b.terminated = true) :
      Course e after p playing b []

section Course

variable {e : Finale} {after : List Step} {p p' : Player} {playing : List Errand}
  {b b' : Inlet Unit} {left : List Octets}

/-- Nothing else decides where the thread stands. -/
theorem Course.of_eq (h : Course e after p playing b left)
    (hperformance : p'.performance = p.performance) (hscript : p'.script = p.script)
    (hslot : b'.slot = b.slot) (hend : b'.terminated = b.terminated) :
    Course e after p' playing b' left := by
  cases h with
  | fresh left hp hs hplaying hv ho =>
      exact .fresh left (hperformance.trans hp) (hscript.trans hs) hplaying (hslot.trans hv)
        (hend.trans ho)
  | greets left hp hs hplaying hv ho =>
      exact .greets left (hperformance.trans hp) (hscript.trans hs) hplaying (hslot.trans hv)
        (hend.trans ho)
  | plays left hp hs hplaying hv ho =>
      exact .plays left (hperformance.trans hp) (hscript.trans hs) hplaying (hslot.trans hv)
        (hend.trans ho)
  | delivers chunk left hp hs hplaying hv ho =>
      exact .delivers chunk left (hperformance.trans hp) (hscript.trans hs) hplaying
        (hslot.trans hv) (hend.trans ho)
  | ends hp hplaying hv ho =>
      exact .ends (hperformance.trans hp) hplaying (hslot.trans hv) (hend.trans ho)
  | told hp hplaying hv ho =>
      refine .told ?_ hplaying (hslot.trans hv) (hend.trans ho)
      rw [hperformance]
      exact hp

/-- Nobody closes the inlet of a duet. -/
theorem Course.not_closed (h : Course e after p playing b left) : b.slot ≠ .closed := by
  cases h with
  | fresh left hp hs hplaying hv ho => simp [hv]
  | greets left hp hs hplaying hv ho => simp [hv]
  | plays left hp hs hplaying hv ho => simp [hv]
  | delivers chunk left hp hs hplaying hv ho => simp [hv]
  | ends hp hplaying hv ho => simp [hv]
  | told hp hplaying hv ho => simp [hv]

/-- Once the end has reached the inlet, the thread has nothing left to tell it. -/
theorem Course.of_terminated (h : Course e after p playing b left) (hended : b.terminated = true) :
    left = [] ∧ playing = [] ∧ b.slot = .installed () := by
  cases h with
  | told hp hplaying hv ho => exact ⟨rfl, hplaying, hv⟩
  | fresh left hp hs hplaying hv ho => simp [ho] at hended
  | greets left hp hs hplaying hv ho => simp [ho] at hended
  | plays left hp hs hplaying hv ho => simp [ho] at hended
  | delivers chunk left hp hs hplaying hv ho => simp [ho] at hended
  | ends hp hplaying hv ho => simp [ho] at hended

/-- A thread that is over has told the end. -/
theorem Course.terminated_of_over (h : Course e after p playing b left)
    (hover : p.performance = .over) : b.terminated = true := by
  cases h with
  | told hp hplaying hv ho => exact ho
  | fresh left hp hs hplaying hv ho => cases hp.symm.trans hover
  | greets left hp hs hplaying hv ho => cases hp.symm.trans hover
  | plays left hp hs hplaying hv ho => cases hp.symm.trans hover
  | delivers chunk left hp hs hplaying hv ho => cases hp.symm.trans hover
  | ends hp hplaying hv ho => cases hp.symm.trans hover

/-- A thread that is between two steps of its script has greeted the inlet. -/
theorem Course.installed_of_playing (h : Course e after p [] b left)
    (hperformance : p.performance = .playing) : b.slot = .installed () := by
  cases h with
  | plays left hp hs hplaying hv ho => exact hv
  | told hp hplaying hv ho => exact hv
  | fresh left hp hs hplaying hv ho => cases hp.symm.trans hperformance
  | greets left hp hs hplaying hv ho => cases hplaying
  | delivers chunk left hp hs hplaying hv ho => cases hplaying
  | ends hp hplaying hv ho => cases hp.symm.trans hperformance

end Course

/-! ## Where the credit and the bytes are -/

/-- Whether an answer to a call is the end of the stream. -/
def reportsEnd (p : ReadCall × Except Failure Octets) : Bool :=
  0 < p.1.wanted &&
    match p.2 with
    | .ok o => o.isEmpty
    | .error _ => true

/-- What the calls have answered fits what the reader has seen of the end. -/
structure Heard (chunks : List Octets) (e : Finale) (verdict : Option (Except Failure Unit))
    (returned : List (ReadCall × Except Failure Octets)) : Prop where
  /-- Before the end there are only bytes. -/
  before : verdict = none → ∀ p ∈ returned, reportsEnd p = false
  /-- Behind all bytes every call answers with the end. -/
  afterwards : verdict ≠ none → ∃ first last, returned = first ++ last ∧
    (first.map fun p => Inlet.bytes p.2).flatten = chunks.flatten ∧
      (∀ p ∈ first, reportsEnd p = false) ∧
        ∀ p ∈ last, p.2 = if p.1.wanted = 0 then .ok [] else e.answer

/-- What holds at any time while `left` chunks have not reached the inlet. -/
structure Sound (chunks : List Octets) (e : Finale) (after : List Step) (left : List Octets)
    (d : Duet) : Prop where
  course : Course e after d.player d.playing d.inlet left
  orderly : d.inlet.Orderly
  paced : d.inlet.Paced
  /-- The bytes are with the reader, in the inlet, or on their way to it. -/
  carried : d.text ++ d.inlet.unread ++ left.flatten = chunks.flatten
  /-- The player is asked for one item at a time, and not cancelled. -/
  modest : d.player.log.cancels = 0 ∧ ∀ n ∈ d.player.log.requests, n = 1
  /-- The inlet asks for an item for every chunk that it has taken, and for one more. -/
  asked : d.player.log.requests.length + d.playing.countP Errand.isEntry +
    d.reading.countP Errand.isEntry + left.length = chunks.length + d.inlet.credit
  /-- Its credit is with the player, on its way there, or on its way back. -/
  counted : d.player.outstanding + d.playing.countP Errand.isGrant +
    d.reading.countP Errand.isGrant + d.playing.countP Errand.isDelivery = d.inlet.credit
  going : d.player.cancelled = false
  reading : d.reading <:+ asking
  /-- A reader that has seen the end makes no request. -/
  quiet : d.inlet.verdict ≠ none → d.reading = []
  /-- Whoever sleeps has a reason to, or is about to be woken. -/
  asleep : d.player.asleep = true → d.playing = [] ∧ d.player.performance = .playing ∧
    (d.player.outstanding = 0 ∨ .notify ∈ d.reading)
  ended : d.inlet.terminated = true → d.inlet.ends = [e.verdict]
  heard : Heard chunks e d.inlet.verdict d.returned

/-- Before anything has happened the thread stands before its script. -/
theorem start_sound (chunks : List Octets) (e : Finale) (after : List Step) :
    (start (chunks.map .chunk ++ e.step :: after)).Sound chunks e after chunks where
  course := .fresh chunks rfl rfl rfl rfl rfl
  orderly := Inlet.orderly_empty
  paced := Inlet.paced_empty
  carried := rfl
  modest := ⟨rfl, by simp [start]⟩
  asked := by simp [start]
  counted := rfl
  going := rfl
  reading := List.nil_suffix
  quiet := fun _ => rfl
  asleep := by simp [start]
  ended := by simp [start]
  heard := ⟨by simp [start], by simp [start]⟩

section Sound

variable {chunks : List Octets} {e : Finale} {after : List Step} {left : List Octets} {d : Duet}

/-- There is never more than one item of credit. -/
theorem Sound.credit_le_one (h : d.Sound chunks e after left) : d.inlet.credit ≤ 1 := by
  have hle := h.paced.le_one
  omega

/-! ## Requests on their way -/

/-- An errand of a request may be run by either thread, whatever is left of the calls. -/
theorem Sound.runs (h : d.Sound chunks e after left) {x : Errand} {playing reading : List Errand}
    (hrequest : x = .putDown (.request 1) ∨ x = .count (.request 1) ∨ x = .notify)
    (hcourse : Course e after d.player playing d.inlet left) (hreading : reading <:+ asking)
    (hquiet : d.inlet.verdict ≠ none → reading = [])
    (hentries : (if x.isEntry then 1 else 0) + playing.countP Errand.isEntry +
      reading.countP Errand.isEntry =
        d.playing.countP Errand.isEntry + d.reading.countP Errand.isEntry)
    (hgrants : (if x.isGrant then 1 else 0) + playing.countP Errand.isGrant +
      reading.countP Errand.isGrant =
        d.playing.countP Errand.isGrant + d.reading.countP Errand.isGrant)
    (hdeliveries : playing.countP Errand.isDelivery = d.playing.countP Errand.isDelivery)
    (hidle : d.playing = [] → playing = [])
    (hwakes : d.playing = [] → x ≠ .notify → .notify ∈ d.reading → .notify ∈ reading)
    (hgranted : d.playing = [] → x.isGrant = true → .notify ∈ reading) :
    { (d.perform x).1 with playing := playing, reading := reading }.Sound chunks e after left := by
  have hasked := h.asked
  have hcounted := h.counted
  have hcredit := h.credit_le_one
  rcases hrequest with rfl | rfl | rfl
  · simp only [Errand.isEntry, Errand.isGrant, if_true, Bool.false_eq_true, if_false]
      at hentries hgrants
    refine ⟨hcourse.of_eq rfl rfl rfl rfl, h.orderly, h.paced, h.carried, ⟨h.modest.1, ?_⟩, ?_, ?_,
      h.going, hreading, hquiet, ?_, h.ended, h.heard⟩
    · intro n hn
      rcases List.mem_append.mp hn with hold | hnew
      · exact h.modest.2 n hold
      · exact List.mem_singleton.mp hnew
    · have hlength : (d.player.putDown (.request 1)).log.requests.length =
          d.player.log.requests.length + 1 := List.length_append
      simp only [perform, hlength]
      omega
    · simp only [perform, Player.putDown]
      omega
    · intro hdozing
      obtain ⟨hplaying, hperformance, hreason⟩ := h.asleep hdozing
      exact ⟨hidle hplaying, hperformance, hreason.imp_right (hwakes hplaying (by simp))⟩
  · simp only [Errand.isEntry, Errand.isGrant, if_true, Bool.false_eq_true, if_false]
      at hentries hgrants
    have hcount : d.player.count (.request 1) =
        { d.player with outstanding := d.player.outstanding + 1 } := by
      have hroom : d.player.outstanding + 1 ≤ Demand.ceiling := by
        simp only [Demand.ceiling, UInt64.size]
        omega
      simp [Player.count, Player.hasRoom, hroom]
    simp only [perform, hcount]
    refine ⟨hcourse.of_eq rfl rfl rfl rfl, h.orderly, h.paced, h.carried, h.modest, ?_, ?_,
      h.going, hreading, hquiet, ?_, h.ended, h.heard⟩
    · dsimp only
      omega
    · dsimp only
      omega
    · intro hdozing
      obtain ⟨hplaying, hperformance, -⟩ := h.asleep hdozing
      exact ⟨hidle hplaying, hperformance, .inr (hgranted hplaying rfl)⟩
  · simp only [Errand.isEntry, Errand.isGrant, Bool.false_eq_true, if_false] at hentries hgrants
    refine ⟨hcourse.of_eq rfl rfl rfl rfl, h.orderly, h.paced, h.carried, h.modest, ?_, ?_,
      h.going, hreading, hquiet, ?_, h.ended, h.heard⟩
    · simp only [perform, Player.notify]
      omega
    · simp only [perform, Player.notify]
      omega
    · intro hdozing
      cases hdozing

/-- What is left of a request for one item begins with one of its three errands. -/
theorem request_of_asking {x : Errand} {rest : List Errand} (hasks : x :: rest <:+ asking) :
    x = .putDown (.request 1) ∨ x = .count (.request 1) ∨ x = .notify := by
  rcases asking_cases hasks with ⟨rfl, -⟩ | ⟨rfl, -⟩ | ⟨rfl, -⟩
  · exact .inl rfl
  · exact .inr (.inl rfl)
  · exact .inr (.inr rfl)

/-- Nothing follows from the errand of a request. -/
theorem step_of_reading {x : Errand} {rest : List Errand} (hasks : x :: rest <:+ asking)
    (hreading : d.reading = x :: rest) (call : ReadCall) :
    d.step (.reads call) = { (d.perform x).1 with playing := d.playing, reading := rest } := by
  rcases request_of_asking hasks with rfl | rfl | rfl <;> simp [step, hreading, perform]

/-- A thread that is in the middle of a call runs its next errand. -/
theorem step_of_playing {x : Errand} {rest : List Errand} (hasks : x :: rest <:+ asking)
    (hplaying : d.playing = x :: rest) :
    d.step .plays = { (d.perform x).1 with playing := rest, reading := d.reading } := by
  rcases request_of_asking hasks with rfl | rfl | rfl <;> simp [step, hplaying, perform]

/-- The reader goes on with its call. -/
theorem Sound.goesOn (h : d.Sound chunks e after left) {x : Errand} {rest : List Errand}
    (hreading : d.reading = x :: rest) (call : ReadCall) :
    (d.step (.reads call)).Sound chunks e after left := by
  have hasks : x :: rest <:+ asking := hreading ▸ h.reading
  have hnotify : x ≠ .notify → .notify ∈ rest := by
    rcases asking_cases hasks with ⟨rfl, rfl⟩ | ⟨rfl, rfl⟩ | ⟨rfl, rfl⟩ <;> simp
  rw [step_of_reading hasks hreading]
  refine h.runs (request_of_asking hasks) h.course (asking_tail hasks) ?_ ?_ ?_ rfl id
    (fun _ hx _ => hnotify hx) fun _ hgrant => hnotify ?_
  · intro hseen
    have hnone := h.quiet hseen
    simp [hreading] at hnone
  · rw [hreading, List.countP_cons]
    omega
  · rw [hreading, List.countP_cons]
    omega
  · rintro rfl
    cases hgrant

/-- The thread of the player goes on with a request. -/
theorem Sound.playsOn (h : d.Sound chunks e after left) {x : Errand} {rest : List Errand}
    (hplaying : d.playing = x :: rest) (hasks : x :: rest <:+ asking) :
    (d.step .plays).Sound chunks e after left := by
  have hbusy : d.playing ≠ [] := by simp [hplaying]
  have hcourse : Course e after d.player rest d.inlet left := by
    have hcourse := h.course
    rw [hplaying] at hcourse
    cases hcourse with
    | plays left hp hs hasked hslot hopen => exact .plays left hp hs (asking_tail hasks) hslot hopen
    | fresh left hp hs hnone hslot hopen => cases hnone
    | greets left hp hs hgreeting hslot hopen =>
        simp [hgreeting, asking, Control.errands, List.suffix_cons_iff] at hasks
    | delivers chunk left hp hs hdelivery hslot hopen =>
        simp [hdelivery, asking, Control.errands, List.suffix_cons_iff] at hasks
    | ends hp hend hslot hopen =>
        rcases hend with hend | hend <;>
          simp [hend, asking, Control.errands, List.suffix_cons_iff] at hasks
    | told hp hnone hslot hended => cases hnone
  have hdelivery : x.isDelivery = false := by
    rcases request_of_asking hasks with rfl | rfl | rfl <;> rfl
  rw [step_of_playing hasks hplaying]
  refine h.runs (request_of_asking hasks) hcourse h.reading h.quiet ?_ ?_ ?_
    (fun hidle => absurd hidle hbusy) (fun hidle => absurd hidle hbusy)
    fun hidle => absurd hidle hbusy
  · rw [hplaying, List.countP_cons]
    omega
  · rw [hplaying, List.countP_cons]
    omega
  · simp [hplaying, hdelivery]

/-! ## Reading calls -/

/-- The end that the reader has seen is the one of the script. -/
theorem Sound.verdict_eq (h : d.Sound chunks e after left) {v : Except Failure Unit}
    (hverdict : d.inlet.verdict = some v) : v = e.verdict := by
  have hdrained : d.inlet.drained = true := by simp [h.orderly.drained_eq, hverdict]
  have hended := h.ended (h.orderly.drained_terminated hdrained)
  simp only [Inlet.ends, hverdict, Option.toList_some, List.singleton_append,
    List.cons.injEq] at hended
  exact hended.1

/-- A mark that is the first in the queue is the end of the script, and all is read. -/
theorem Sound.of_mark (h : d.Sound chunks e after left) {m : Element}
    (hcurrent : d.inlet.current = []) (hqueue : d.inlet.queue = [m]) (hmark : m.isMark = true)
    (hverdict : d.inlet.verdict = none) : m.verdict = e.verdict ∧ d.text = chunks.flatten := by
  have hmarks : d.inlet.marks = [m] := by simp [Inlet.marks, hqueue, hmark]
  have hterminated : d.inlet.terminated = true := by
    by_contra hopen
    have hnone := h.orderly.marks_eq_nil (by simpa using hopen)
    rw [hmarks] at hnone
    cases hnone
  have hends := h.ended hterminated
  simp only [Inlet.ends, hverdict, hmarks, Option.toList_none, List.nil_append, List.map_cons,
    List.map_nil, List.cons.injEq, and_true] at hends
  have hunread : d.inlet.unread = [] := by
    simp [Inlet.unread, Inlet.chunks, hcurrent, hqueue, Element.chunk?_of_isMark hmark]
  have hcarried := h.carried
  rw [hunread, (h.course.of_terminated hterminated).1] at hcarried
  exact ⟨hends, by simpa using hcarried⟩

theorem reportsEnd_ok {call : ReadCall} {o : Octets} (ho : o ≠ []) :
    reportsEnd (call, .ok o) = false := by
  cases o with
  | nil => exact absurd rfl ho
  | cons x o => simp [reportsEnd]

/-- What a call for some bytes answers fits what was answered before. -/
theorem Sound.heard_reads (h : d.Sound chunks e after left) {call : ReadCall}
    (hwanted : 0 < call.wanted) {a : Inlet.Answer Unit (Except Failure Octets)}
    (hreads : Inlet.Reads d.inlet call.wanted a) :
    Heard chunks e a.after.verdict (d.returned ++ [(call, a.value)]) := by
  have hsome : call.wanted ≠ 0 := Nat.pos_iff_ne_zero.mp hwanted
  have htakes : ∀ o : Octets, o ≠ [] → o.take call.wanted ≠ [] := by
    intro o ho hnil
    rcases List.take_eq_nil_iff.mp hnil with hzero | hnone
    · omega
    · exact ho hnone
  have hmore : ∀ o : Octets, o ≠ [] → d.inlet.verdict = none →
      ∀ p ∈ d.returned ++ [(call, Except.ok (o.take call.wanted))], reportsEnd p = false := by
    intro o ho hverdict p hp
    rcases List.mem_append.mp hp with hold | hnew
    · exact h.heard.before hverdict p hold
    · rw [List.mem_singleton.mp hnew]
      exact reportsEnd_ok (htakes o ho)
  cases hreads with
  | held hcurrent =>
      refine ⟨hmore _ hcurrent, fun hseen => ?_⟩
      have hdrained : d.inlet.drained = true := by
        rw [h.orderly.drained_eq]
        exact Option.isSome_iff_ne_none.mpr hseen
      have hunread := h.orderly.drained_unread hdrained
      exact absurd (List.append_eq_nil_iff.mp hunread).1 hcurrent
  | takes c rest hcurrent hqueue hslot hverdict =>
      have hc : c ≠ [] := h.orderly.chunks_ne c (by simp [Inlet.chunks, hqueue])
      exact ⟨hmore c hc, fun hseen => absurd hverdict hseen⟩
  | known v hcurrent hverdict =>
      refine ⟨fun hnone => ?_, fun hseen => ?_⟩
      · rw [hverdict] at hnone
        cases hnone
      · obtain ⟨first, last, hreturned, hbytes, hfirst, hlast⟩ := h.heard.afterwards hseen
        refine ⟨first, last ++ [(call, v.map fun _ => [])], ?_, hbytes, hfirst, ?_⟩
        · rw [hreturned, List.append_assoc]
        · intro p hp
          rcases List.mem_append.mp hp with hold | hnew
          · exact hlast p hold
          · rw [List.mem_singleton.mp hnew, h.verdict_eq hverdict]
            exact (if_neg hsome).symm
  | sees m note hcurrent hqueue hmark hverdict =>
      obtain ⟨hend, htext⟩ := h.of_mark hcurrent hqueue hmark hverdict
      refine ⟨fun hnone => ?_, fun _ => ⟨d.returned, [(call, m.verdict.map fun _ => [])], rfl,
        htext, h.heard.before hverdict, fun p hp => ?_⟩⟩
      · cases hnone
      · rw [List.mem_singleton.mp hp, hend]
        exact (if_neg hsome).symm

/-- A call for no bytes tells nothing of the end. -/
theorem Heard.append_nothing {verdict : Option (Except Failure Unit)}
    {returned : List (ReadCall × Except Failure Octets)} (h : Heard chunks e verdict returned)
    {call : ReadCall} (hwanted : call.wanted = 0) :
    Heard chunks e verdict (returned ++ [(call, .ok [])]) := by
  refine ⟨fun hnone p hp => ?_, fun hseen => ?_⟩
  · rcases List.mem_append.mp hp with hold | hnew
    · exact h.before hnone p hold
    · rw [List.mem_singleton.mp hnew]
      simp [reportsEnd, hwanted]
  · obtain ⟨first, last, hreturned, hbytes, hfirst, hlast⟩ := h.afterwards hseen
    refine ⟨first, last ++ [(call, .ok [])], ?_, hbytes, hfirst, ?_⟩
    · rw [hreturned, List.append_assoc]
    · intro p hp
      rcases List.mem_append.mp hp with hold | hnew
      · exact hlast p hold
      · rw [List.mem_singleton.mp hnew]
        exact (if_pos hwanted).symm

/-- A player that sleeps while the reader makes no call has no credit. -/
theorem Sound.broke (h : d.Sound chunks e after left) (hidle : d.reading = [])
    (hdozing : d.player.asleep = true) :
    d.playing = [] ∧ d.player.performance = .playing ∧ d.player.outstanding = 0 := by
  obtain ⟨hplaying, hperformance, hreason⟩ := h.asleep hdozing
  exact ⟨hplaying, hperformance, hreason.resolve_right (by simp [hidle])⟩

/-- A call takes bytes and may ask for more. -/
theorem Sound.of_answer (h : d.Sound chunks e after left) (hidle : d.reading = [])
    {call : ReadCall} {a : Inlet.Answer Unit (Except Failure Octets)}
    (hread : d.inlet.read call.wanted false = some a)
    (hkept : a.after.slot = d.inlet.slot ∧ a.after.terminated = d.inlet.terminated)
    (hasks : Reaction.errands a.reactions = [] ∧ a.after.credit = d.inlet.credit ∨
      Reaction.errands a.reactions = asking ∧ a.after.credit = d.inlet.credit + 1 ∧
        a.after.verdict = none)
    (hheard : Heard chunks e a.after.verdict (d.returned ++ [(call, a.value)])) :
    { d with
      inlet := a.after
      reading := Reaction.errands a.reactions
      returned := d.returned ++ [(call, a.value)] }.Sound chunks e after left := by
  have hasked := h.asked
  have hcounted := h.counted
  simp only [hidle, List.countP_nil] at hasked hcounted
  refine ⟨h.course.of_eq rfl rfl hkept.1 hkept.2, Inlet.read_orderly h.orderly hread,
    Inlet.read_paced h.orderly h.paced hread, ?_, h.modest, ?_, ?_, h.going, ?_, ?_, ?_, ?_,
    hheard⟩
  · have htext : text { d with
        inlet := a.after
        reading := Reaction.errands a.reactions
        returned := d.returned ++ [(call, a.value)] } = d.text ++ Inlet.bytes a.value := by
      simp [text]
    rw [htext, List.append_assoc d.text, Inlet.read_unread h.orderly hread, h.carried]
  · rcases hasks with ⟨hnone, hcredit⟩ | ⟨hone, hcredit, -⟩
    · simp only [hnone, hcredit, List.countP_nil]
      exact hasked
    · simp only [hone, hcredit, asking_entries]
      omega
  · rcases hasks with ⟨hnone, hcredit⟩ | ⟨hone, hcredit, -⟩
    · simp only [hnone, hcredit, List.countP_nil]
      exact hcounted
    · simp only [hone, hcredit, asking_grants]
      omega
  · rcases hasks with ⟨hnone, -⟩ | ⟨hone, -, -⟩
    · simp only [hnone]
      exact List.nil_suffix
    · simp only [hone]
      exact List.suffix_refl _
  · intro hseen
    rcases hasks with ⟨hnone, -⟩ | ⟨-, -, hunseen⟩
    · exact hnone
    · exact absurd hunseen hseen
  · intro hdozing
    obtain ⟨hplaying, hperformance, hnothing⟩ := h.broke hidle hdozing
    exact ⟨hplaying, hperformance, .inl hnothing⟩
  · intro hterminated
    exact (Inlet.read_ends h.orderly hread).trans (h.ended (hkept.2.symm.trans hterminated))

/-- The reader makes a call: it takes bytes, or sees the end, or waits. -/
theorem Sound.begins (h : d.Sound chunks e after left) (hidle : d.reading = [])
    (call : ReadCall) : (d.step (.reads call)).Sound chunks e after left := by
  cases hanswer : d.inlet.answer call false with
  | none => rwa [step_of_nothing hidle hanswer]
  | some a =>
      have hread : d.inlet.read call.wanted false = some a := by
        rw [← Inlet.answer_eq_read, hanswer]
      rw [step_of_answer hidle hanswer]
      rcases Nat.eq_zero_or_pos call.wanted with hwanted | hwanted
      · have hnothing : a = { value := .ok [], after := d.inlet } := by
          rw [hwanted, Inlet.read_zero] at hread
          exact (Option.some.inj hread).symm
        subst hnothing
        exact h.of_answer hidle hread ⟨rfl, rfl⟩ (.inl ⟨rfl, rfl⟩)
          (h.heard.append_nothing hwanted)
      · have hreads := Inlet.reads_of_read h.orderly h.paced h.course.not_closed hwanted hread
        exact h.of_answer hidle hread hreads.kept hreads.asks (h.heard_reads hwanted hreads)

/-! ## The thread of the player -/

/-- A script that is played comes to its next step. -/
theorem advance_of_script {p : Player} (hperformance : p.performance = .playing)
    (hscript : p.script = left.map .chunk ++ e.step :: after) (hgoing : p.cancelled = false) :
    match left with
    | [] => p.advance = ({ p with performance := .leaving }, [], .deliver e.signal)
    | chunk :: rest =>
        p.advance =
          if p.outstanding = 0 then ({ p with asleep := true }, [], .park)
          else
            ({ p with
                script := rest.map .chunk ++ e.step :: after
                outstanding := p.outstanding - 1 }, [], .deliver (.next chunk)) := by
  cases left with
  | nil => cases e <;> simp_all [Player.advance, Player.finishWith, Finale.step, Finale.signal]
  | cons chunk rest => simp_all [Player.advance]

/-- The thread of the player may go on as long as its credit is accounted for. -/
theorem Sound.of_player (h : d.Sound chunks e after left) (hidle : d.playing = []) {p : Player}
    {playing : List Errand} (hcourse : Course e after p playing d.inlet left)
    (hlog : p.log = d.player.log) (hgoing : p.cancelled = d.player.cancelled)
    (hentries : playing.countP Errand.isEntry = 0)
    (hcredit : p.outstanding + playing.countP Errand.isGrant +
      playing.countP Errand.isDelivery = d.player.outstanding)
    (hasleep : p.asleep = true →
      playing = [] ∧ p.performance = .playing ∧ p.outstanding = 0) :
    { d with player := p, playing := playing }.Sound chunks e after left := by
  have hasked := h.asked
  have hcounted := h.counted
  simp only [hidle, List.countP_nil] at hasked hcounted
  refine ⟨hcourse, h.orderly, h.paced, h.carried, by rw [hlog]; exact h.modest, ?_, ?_,
    hgoing.trans h.going, h.reading, h.quiet, ?_, h.ended, h.heard⟩
  · simp only [hlog, hentries]
    exact hasked
  · dsimp only
    omega
  · intro hdozing
    obtain ⟨hplaying, hperformance, hnothing⟩ := hasleep hdozing
    exact ⟨hplaying, hperformance, .inl hnothing⟩

/-- The thread of the player, in no call, goes to sleep or sets about its next one. -/
theorem Sound.advances (h : d.Sound chunks e after left) (hidle : d.playing = []) :
    (d.step .plays).Sound chunks e after left := by
  by_cases hdozing : d.player.asleep = true
  · have hsame : d.step .plays = d := by simp [step, hidle, hdozing]
    rwa [hsame]
  · have hcourse := h.course
    rw [hidle] at hcourse
    simp only [step, hidle, hdozing, Bool.false_eq_true, if_false]
    cases hcourse with
    | fresh left hp hs hplaying hslot hopen =>
        have hadvance : d.player.advance =
            ({ d.player with performance := .playing }, [], .deliver (.subscribed ())) := by
          simp [Player.advance, hp]
        rw [hadvance]
        exact h.of_player hidle (.greets left rfl hs rfl hslot hopen) rfl rfl rfl rfl
          fun hasleep => absurd hasleep hdozing
    | greets left hp hs hplaying hslot hopen => cases hplaying
    | delivers chunk left hp hs hplaying hslot hopen => cases hplaying
    | ends hp hplaying hslot hopen => rcases hplaying with hplaying | hplaying <;> cases hplaying
    | plays left hp hs hplaying hslot hopen =>
        have hadvance := advance_of_script hp hs h.going
        cases left with
        | nil =>
            have herrands : (Move.deliver e.signal).errands =
                [.resolves e.signal, .enters e.signal] := by
              cases e <;> rfl
            dsimp only at hadvance
            rw [hadvance]
            refine h.of_player hidle (.ends rfl (.inl herrands) hslot hopen) rfl rfl ?_ ?_
              fun hasleep => absurd hasleep hdozing
            · cases e <;> rfl
            · cases e <;> rfl
        | cons chunk rest =>
            dsimp only at hadvance
            by_cases hnothing : d.player.outstanding = 0
            · rw [if_pos hnothing] at hadvance
              rw [hadvance]
              exact h.of_player hidle (.plays _ hp hs List.nil_suffix hslot hopen) rfl rfl rfl rfl
                fun _ => ⟨rfl, hp, hnothing⟩
            · rw [if_neg hnothing] at hadvance
              rw [hadvance]
              refine h.of_player hidle (.delivers chunk rest hp rfl rfl hslot hopen) rfl rfl rfl ?_
                fun hasleep => absurd hasleep hdozing
              exact Nat.sub_add_cancel (Nat.pos_of_ne_zero hnothing)
    | told hp hplaying hslot hended =>
        rcases hp with hp | hp
        · have hadvance : d.player.advance =
              ({ d.player with performance := .over }, [], .leave) := by
            simp [Player.advance, hp]
          rw [hadvance]
          exact h.of_player hidle (.told (.inr rfl) rfl hslot hended) rfl rfl rfl rfl
            fun hasleep => absurd hasleep hdozing
        · have hadvance : d.player.advance = (d.player, [], .park) := by
            simp [Player.advance, hp]
          rw [hadvance]
          exact h.of_player hidle (.told (.inr hp) rfl hslot hended) rfl rfl rfl rfl
            fun hasleep => absurd hasleep hdozing

/-! ## Signals on their way -/

/-- A signal may change the inlet as long as credit and bytes are accounted for. -/
theorem Sound.of_signal (h : d.Sound chunks e after left) (hbusy : d.playing ≠ [])
    {b : Inlet Unit} {playing : List Errand} {rest : List Octets}
    (hcourse : Course e after d.player playing b rest) (horderly : b.Orderly) (hpaced : b.Paced)
    (hcarried : b.unread ++ rest.flatten = d.inlet.unread ++ left.flatten)
    (hasked : playing.countP Errand.isEntry + rest.length + d.inlet.credit =
      d.playing.countP Errand.isEntry + left.length + b.credit)
    (hcounted : playing.countP Errand.isGrant + playing.countP Errand.isDelivery +
      d.inlet.credit =
        d.playing.countP Errand.isGrant + d.playing.countP Errand.isDelivery + b.credit)
    (hverdict : b.verdict = d.inlet.verdict)
    (hended : b.terminated = true → b.ends = [e.verdict]) :
    { d with inlet := b, playing := playing }.Sound chunks e after rest := by
  have hbefore := h.asked
  have hgranted := h.counted
  refine ⟨hcourse, horderly, hpaced, ?_, h.modest, ?_, ?_, h.going, h.reading, ?_, ?_, hended,
    ?_⟩
  · have htext : { d with inlet := b, playing := playing }.text = d.text := rfl
    rw [htext, List.append_assoc, hcarried, ← List.append_assoc, h.carried]
  · dsimp only
    omega
  · dsimp only
    omega
  · exact fun hseen => h.quiet (hverdict ▸ hseen)
  · exact fun hdozing => absurd (h.asleep hdozing).1 hbusy
  · dsimp only
    rw [hverdict]
    exact h.heard

/-- The greeting installs the player, and asks it for the first chunk. -/
theorem Sound.greeted (h : d.Sound chunks e after left)
    (hplaying : d.playing = [.enters (.subscribed ())]) (hslot : d.inlet.slot = .vacant)
    (hopen : d.inlet.terminated = false) (hp : d.player.performance = .playing)
    (hs : d.player.script = left.map .chunk ++ e.step :: after) :
    (d.step .plays).Sound chunks e after left := by
  have hinlet := Inlet.subscribed_of_vacant hslot
  have hstep : d.step .plays =
      { d with
        inlet := { d.inlet with slot := .installed (), credit := 1 }
        playing := asking } := by
    simp [step, hplaying, perform, Inlet.enters, hinlet, Reaction.errands, asking]
  have horderly := Inlet.subscribed_orderly h.orderly ()
  have hpaced := Inlet.subscribed_paced h.paced ()
  rw [hinlet] at horderly hpaced
  have hcredit : d.inlet.credit = 0 := by
    have hwindow := h.paced
    rw [Inlet.Paced, hslot] at hwindow
    exact hwindow.1
  rw [hstep]
  refine h.of_signal (by simp [hplaying]) (.plays left hp hs (List.suffix_refl _) rfl hopen)
    horderly hpaced rfl ?_ ?_ rfl ?_
  · simp [hplaying, hcredit, Errand.isEntry, Nat.add_comm]
  · simp [hplaying, hcredit, Errand.isGrant, Errand.isDelivery]
  · intro hended
    cases hopen.symm.trans hended

/-- A chunk is taken by the inlet on credit; an empty one brings the credit back at once. -/
theorem Sound.delivered {chunk : Octets} {rest : List Octets}
    (h : d.Sound chunks e after (chunk :: rest))
    (hplaying : d.playing = [.enters (.next chunk)]) (hslot : d.inlet.slot = .installed ())
    (hopen : d.inlet.terminated = false) (hp : d.player.performance = .playing)
    (hs : d.player.script = rest.map .chunk ++ e.step :: after) :
    (d.step .plays).Sound chunks e after rest := by
  have hcredit : d.inlet.credit ≠ 0 := by
    have hcounted := h.counted
    simp [hplaying, Errand.isDelivery] at hcounted
    omega
  have haccepts : d.inlet.accepts = true := d.inlet.accepts_iff.mpr ⟨⟨(), hslot⟩, hopen, hcredit⟩
  have hunread := d.inlet.next_unread chunk
  rw [if_pos haccepts] at hunread
  have hcarried : (d.inlet.next chunk).1.unread ++ rest.flatten =
      d.inlet.unread ++ (chunk :: rest).flatten := by
    rw [hunread, List.flatten_cons, List.append_assoc]
  have horderly := Inlet.next_orderly h.orderly chunk
  have hpaced := Inlet.next_paced h.paced chunk
  have hnever : d.inlet.terminated = true → d.inlet.ends = [e.verdict] := by
    intro hended
    cases hopen.symm.trans hended
  by_cases hempty : chunk.isEmpty
  · have hnext : d.inlet.next chunk =
        (d.inlet, [.note .emptyChunkSkipped, .control () (.request 1)]) := by
      simp [Inlet.next, hslot, hopen, hcredit, hempty]
    have hstep : d.step .plays = { d with inlet := d.inlet, playing := asking } := by
      simp [step, hplaying, perform, Inlet.enters, hnext, Reaction.errands, asking]
    rw [hnext] at hcarried
    rw [hstep]
    refine h.of_signal (by simp [hplaying]) (.plays rest hp hs (List.suffix_refl _) hslot hopen)
      h.orderly h.paced hcarried ?_ ?_ rfl hnever
    · simp [hplaying, Errand.isEntry]
      omega
    · simp [hplaying, Errand.isGrant, Errand.isDelivery]
  · have hnext : d.inlet.next chunk =
        ({ d.inlet with
            credit := d.inlet.credit - 1
            queue := d.inlet.queue ++ [.data chunk] }, [.note (.chunkQueued chunk.length)]) := by
      simp [Inlet.next, hslot, hopen, hcredit, hempty]
    have hstep : d.step .plays =
        { d with
          inlet := { d.inlet with
            credit := d.inlet.credit - 1
            queue := d.inlet.queue ++ [.data chunk] }
          playing := [] } := by
      simp [step, hplaying, perform, Inlet.enters, hnext, Reaction.errands]
    rw [hnext] at hcarried horderly hpaced
    rw [hstep]
    refine h.of_signal (by simp [hplaying]) (.plays rest hp hs List.nil_suffix hslot hopen)
      horderly hpaced hcarried ?_ ?_ rfl ?_
    · simp [hplaying, Errand.isEntry]
      omega
    · simp [hplaying, Errand.isGrant, Errand.isDelivery]
      omega
    · intro hended
      cases hopen.symm.trans hended

/-- What is told of the end reaches the metadata first. -/
theorem Sound.resolved (h : d.Sound chunks e after left)
    (hplaying : d.playing = [.resolves e.signal, .enters e.signal])
    (hslot : d.inlet.slot = .installed ()) (hopen : d.inlet.terminated = false)
    (hp : d.player.performance = .leaving) (hleft : left = []) :
    (d.step .plays).Sound chunks e after left := by
  subst hleft
  obtain ⟨metadata, hresolves⟩ : ∃ metadata, (d.inlet.resolves e.signal).1 =
      { d.inlet with metadata := metadata } := by
    cases e <;> exact ⟨_, rfl⟩
  have hcalls : Reaction.controls (d.inlet.resolves e.signal).2 = [] := by cases e <;> rfl
  have hstep : d.step .plays =
      { d with inlet := { d.inlet with metadata := metadata }, playing := [.enters e.signal] } := by
    simp [step, hplaying, perform, hresolves, Reaction.errands, hcalls]
  rw [hstep]
  refine h.of_signal (by simp [hplaying]) (.ends hp (.inr rfl) hslot hopen)
    (h.orderly.of_eq rfl rfl rfl rfl rfl) h.paced rfl ?_ ?_ rfl ?_
  · simp [hplaying, Errand.isEntry]
  · simp [hplaying, Errand.isGrant, Errand.isDelivery]
  · intro hended
    cases hopen.symm.trans hended

/-- The end comes behind all chunks. -/
theorem Sound.finished (h : d.Sound chunks e after left) (hplaying : d.playing = [.enters e.signal])
    (hslot : d.inlet.slot = .installed ()) (hopen : d.inlet.terminated = false)
    (hp : d.player.performance = .leaving) (hleft : left = []) :
    (d.step .plays).Sound chunks e after left := by
  subst hleft
  have hunseen := h.orderly.undrained hopen
  obtain ⟨m, hmark, hverdict, hinlet, hcalls⟩ : ∃ m : Element, m.isMark = true ∧
      m.verdict = e.verdict ∧ (d.inlet.enters e.signal).1 =
        { d.inlet with queue := d.inlet.queue ++ [m], terminated := true } ∧
      Reaction.controls (d.inlet.enters e.signal).2 = [] := by
    cases e with
    | fail text =>
        refine ⟨.failure (.producer (.test text)), rfl, rfl, ?_, Inlet.failStream_controls _ _⟩
        simp [Inlet.enters, Finale.signal, Inlet.failStream, hopen, hunseen]
    | complete =>
        refine ⟨.finish, rfl, rfl, ?_, Inlet.completeStream_controls _⟩
        simp [Inlet.enters, Finale.signal, Inlet.completeStream, hopen]
  have hstep : d.step .plays =
      { d with
        inlet := { d.inlet with queue := d.inlet.queue ++ [m], terminated := true }
        playing := [] } := by
    simp [step, hplaying, perform, hinlet, Reaction.errands, hcalls]
  have hchunks : Inlet.chunks { d.inlet with queue := d.inlet.queue ++ [m], terminated := true } =
      d.inlet.chunks := by
    simp [Inlet.chunks, Element.chunk?_of_isMark hmark]
  have horderly : Inlet.Orderly
      { d.inlet with queue := d.inlet.queue ++ [m], terminated := true } := by
    refine h.orderly.mark hunseen hmark ?_ rfl rfl rfl
    have hqueue := h.orderly.queue_eq
    rw [h.orderly.marks_eq_nil hopen, List.append_nil] at hqueue
    rw [← hqueue]
  have hpaced : Inlet.Paced
      { d.inlet with queue := d.inlet.queue ++ [m], terminated := true } := by
    have hwindow := h.paced
    simp only [Inlet.Paced, hslot] at hwindow ⊢
    rw [← hchunks] at hwindow
    exact hwindow
  rw [hstep]
  refine h.of_signal (by simp [hplaying]) (.told (.inl hp) rfl hslot rfl) horderly hpaced ?_ ?_ ?_
    rfl ?_
  · simp only [Inlet.unread, hchunks]
  · cases e <;> simp [hplaying, Errand.isEntry, Finale.signal]
  · cases e <;> simp [hplaying, Errand.isGrant, Errand.isDelivery, Finale.signal]
  · intro _
    have hends : Inlet.ends { d.inlet with queue := d.inlet.queue ++ [m], terminated := true } =
        d.inlet.ends ++ [m.verdict] := Inlet.ends_of_mark hmark rfl rfl
    rw [hends, h.orderly.ends_eq_nil hopen, hverdict]
    rfl

/-! ## Runs -/

/-- The thread of the player goes on with the script, or waits. -/
theorem Sound.plays (h : d.Sound chunks e after left) :
    ∃ rest, (d.step .plays).Sound chunks e after rest := by
  cases hplaying : d.playing with
  | nil => exact ⟨left, h.advances hplaying⟩
  | cons x errands =>
      have hcourse := h.course
      rw [hplaying] at hcourse
      cases hcourse with
      | fresh left hp hs hnone hslot hopen => cases hnone
      | greets left hp hs hgreeting hslot hopen =>
          exact ⟨left, h.greeted (hplaying.trans hgreeting) hslot hopen hp hs⟩
      | plays left hp hs hasks hslot hopen => exact ⟨left, h.playsOn hplaying hasks⟩
      | delivers chunk rest hp hs hdelivery hslot hopen =>
          exact ⟨rest, h.delivered (hplaying.trans hdelivery) hslot hopen hp hs⟩
      | ends hp hend hslot hopen =>
          rcases hend with hend | hend
          · exact ⟨[], h.resolved (hplaying.trans hend) hslot hopen hp rfl⟩
          · exact ⟨[], h.finished (hplaying.trans hend) hslot hopen hp rfl⟩
      | told hp hnone hslot hended => cases hnone

/-- Whatever happens, the chunks that have not reached the inlet are the rest of the script. -/
theorem Sound.step (h : d.Sound chunks e after left) (event : DuetEvent) :
    ∃ rest, (d.step event).Sound chunks e after rest := by
  cases event with
  | plays => exact h.plays
  | reads call =>
      cases hreading : d.reading with
      | nil => exact ⟨left, h.begins hreading call⟩
      | cons x rest => exact ⟨left, h.goesOn hreading call⟩

theorem Sound.run (h : d.Sound chunks e after left) (events : List DuetEvent) :
    ∃ rest, (d.run events).Sound chunks e after rest := by
  induction events generalizing d left with
  | nil => exact ⟨left, h⟩
  | cons event events ih =>
      obtain ⟨rest, hstep⟩ := h.step event
      exact ih hstep

/-! ## The end -/

/-- Whether a call has reported the end of the stream. -/
def reachedEnd (d : Duet) : Bool :=
  d.returned.any reportsEnd

/-- A reader that was told of the end has seen it. -/
theorem Sound.verdict_of_reachedEnd (h : d.Sound chunks e after left)
    (hend : d.reachedEnd = true) : d.inlet.verdict = some e.verdict := by
  obtain ⟨p, hp, hreports⟩ := List.any_eq_true.mp hend
  cases hverdict : d.inlet.verdict with
  | none =>
      have hnone := h.heard.before hverdict p hp
      rw [hreports] at hnone
      cases hnone
  | some v => rw [h.verdict_eq hverdict]

/-- What is known when the reader has seen the end. -/
theorem Sound.of_seen (h : d.Sound chunks e after left)
    (hverdict : d.inlet.verdict = some e.verdict) :
    left = [] ∧ d.inlet.unread = [] ∧ d.text = chunks.flatten ∧ d.reading = [] ∧
      d.player.log = { requests := List.replicate (1 + chunks.length) 1, cancels := 0 } := by
  have hseen : d.inlet.verdict ≠ none := by simp [hverdict]
  have hdrained : d.inlet.drained = true := by simp [h.orderly.drained_eq, hverdict]
  have hterminated := h.orderly.drained_terminated hdrained
  obtain ⟨hleft, hplaying, hslot⟩ := h.course.of_terminated hterminated
  have hunread := h.orderly.drained_unread hdrained
  have hreading := h.quiet hseen
  have hcredit : d.inlet.credit = 1 := by
    have hnone : d.inlet.chunks = [] := by
      have hflat := (List.append_eq_nil_iff.mp hunread).2
      refine List.eq_nil_iff_forall_not_mem.mpr fun c hc => h.orderly.chunks_ne c hc ?_
      exact List.flatten_eq_nil_iff.mp hflat c hc
    simpa [Inlet.Paced, hslot, hnone] using h.paced
  have hcarried := h.carried
  have hasked := h.asked
  rw [hunread, hleft] at hcarried
  simp only [hplaying, hreading, hleft, List.countP_nil, List.length_nil, hcredit] at hasked
  refine ⟨hleft, hunread, by simpa using hcarried, hreading, ?_⟩
  have hrequests : d.player.log.requests = List.replicate (1 + chunks.length) 1 :=
    List.eq_replicate_iff.mpr ⟨by omega, h.modest.2⟩
  rw [← hrequests, ← h.modest.1]

/-- From the end on every call answers at once, and with the end. -/
theorem Sound.reads_of_seen (h : d.Sound chunks e after left)
    (hverdict : d.inlet.verdict = some e.verdict) (call : ReadCall) :
    d.step (.reads call) =
      { d with
        returned := d.returned ++ [(call, if call.wanted = 0 then .ok [] else e.answer)] } := by
  obtain ⟨-, hunread, -, hreading, -⟩ := h.of_seen hverdict
  have hcurrent : d.inlet.current = [] := (List.append_eq_nil_iff.mp hunread).1
  have hanswer : d.inlet.answer call false =
      some { value := if call.wanted = 0 then .ok [] else e.answer, after := d.inlet } := by
    rw [Inlet.answer_eq_read]
    by_cases hwanted : call.wanted = 0
    · rw [hwanted, Inlet.read_zero]
      rfl
    · cases e <;>
        simp [Inlet.read, hwanted, Inlet.hold, hcurrent, Inlet.refill, hverdict, Finale.verdict,
          Finale.answer, Inlet.Answer.andThen, Inlet.takeUpTo, Except.map]
  simp [step_of_answer hreading hanswer, hreading, Reaction.errands]

/-- Whatever the schedule, everything is where it may be. -/
theorem run_sound (chunks : List Octets) (e : Finale) (after : List Step)
    (events : List DuetEvent) :
    ∃ left, ((start (chunks.map .chunk ++ e.step :: after)).run events).Sound chunks e after
      left :=
  (start_sound chunks e after).run events

end Sound
end Duet
end CreditFlow
