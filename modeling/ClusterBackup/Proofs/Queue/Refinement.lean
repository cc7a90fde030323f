import ClusterBackup.Proofs.Queue.Agenda
import ClusterBackup.Proofs.Queue.Waiting
import ClusterBackup.Proofs.Table.Size
import Mathlib.Algebra.Order.Group.MinMax
/-!
# Queues refine agendas

With exact times a queue answers like an agenda, whatever is asked of it: `Represents` links the
two, every request preserves the link and gets the same reply from both, and so does every list of
requests. The clock stands still unless a key is waited for or the clock itself is set; it may be
set to any time.
-/

namespace ClusterBackup

/-! ## Requests -/

inductive Request where
  | add (key : TextKey) (delay : Rat)
  | discard (key : TextKey)
  | take (timeout : Option Rat)
  | count
  | advance (seconds : Rat)

/-- What comes back: for a key that was asked for also the time at which it is given. -/
inductive Reply where
  | added (result : Except Breakdown Unit)
  | discarded
  | taken (found : Except Breakdown (Option ObjectKey)) (now : Rat)
  | counted (keys : Nat)
  | advanced

namespace Queue

def serve (q : Queue Rat ObjectKey) (now : Rat) : Request → Reply × Queue Rat ObjectKey × Rat
  | .add t delay =>
    let (result, queue) := q.add now t.key delay
    (.added result, queue, now)
  | .discard t => (.discarded, q.discard t.key, now)
  | .take timeout =>
    let taken := q.take now timeout
    (.taken taken.found taken.now, taken.queue, taken.now)
  | .count => (.counted q.size, q, now)
  | .advance seconds => (.advanced, q, now + seconds)

def serveAll (q : Queue Rat ObjectKey) (now : Rat) :
    List Request → List Reply × Queue Rat ObjectKey × Rat
  | [] => ([], q, now)
  | request :: requests =>
    let (reply, q, now) := q.serve now request
    let (replies, q, now) := serveAll q now requests
    (reply :: replies, q, now)

end Queue

namespace Agenda

def serve (a : Agenda) (now : Rat) : Request → Reply × Agenda × Rat
  | .add t delay => (.added (.ok ()), a.add now t delay, now)
  | .discard t => (.discarded, a.erase t, now)
  | .take timeout =>
    let (found, a, now) := a.take now timeout
    (.taken (found.map (·.map TextKey.key)) now, a, now)
  | .count => (.counted a.keys.card, a, now)
  | .advance seconds => (.advanced, a, now + seconds)

def serveAll (a : Agenda) (now : Rat) : List Request → List Reply × Agenda × Rat
  | [] => ([], a, now)
  | request :: requests =>
    let (reply, a, now) := a.serve now request
    let (replies, a, now) := serveAll a now requests
    (reply :: replies, a, now)

theorem serveAll_append (a : Agenda) (now : Rat) (first rest : List Request) :
    (a.serveAll now (first ++ rest)).2 =
      ((a.serveAll now first).2.1.serveAll (a.serveAll now first).2.2 rest).2 := by
  induction first generalizing a now with
  | nil => rfl
  | cons request first ih => exact ih _ _

end Agenda

namespace Queue

variable {q : Queue Rat ObjectKey} {a : Agenda} {n : Nat} {now : Rat} {giveUp : Option Rat}
variable {waits : List Rat}

/-! ## The link -/

structure Represents (q : Queue Rat ObjectKey) (a : Agenda) : Prop where
  linked : Linked id (fun _ => True) q
  lookup : ∀ t : TextKey, q.deadline? t.key = a.lookup t
  size : q.size = a.keys.card

theorem Represents.empty : Represents .empty ∅ where
  linked := .empty
  lookup t := by simp [Queue.empty, deadline?]
  size := rfl

/-- Only the deadlines of a queue matter, as long as they are linked to the heap. -/
theorem Represents.of_deadlines {r : Queue Rat ObjectKey} (h : Represents q a)
    (hl : Linked id (fun _ => True) r) (hd : r.deadlines = q.deadlines) : Represents r a where
  linked := hl
  lookup t := by
    unfold deadline?
    rw [hd]
    exact h.lookup t
  size := by
    unfold Queue.size
    rw [hd]
    exact h.size

theorem Represents.discard (h : Represents q a) (t : TextKey) :
    Represents (q.discard t.key) (a.erase t) where
  linked := h.linked.discard t.key
  lookup u := by
    rw [deadline?_discard, Agenda.lookup_erase_ite, h.lookup, TextKey.key_beq_key]
    simp only [decide_eq_true_eq]
  size := by
    have hfind : q.deadlines.find? t.key = a.lookup t := h.lookup t
    have hsize : q.deadlines.size = a.keys.card := h.size
    show (q.deadlines.erase t.key).size = _
    rw [Table.size_erase, Agenda.card_erase, hfind, hsize]

theorem Represents.put (h : Represents q a) (t : TextKey) (due : Rat) :
    (q.put t.key due).1 = .ok () ∧ Represents (q.put t.key due).2 (a.insert t due) := by
  have hput : (q.put t.key due).1 = .ok () ∧ Linked id (fun _ => True) (q.put t.key due).2 :=
    h.linked.put Seconds.measured_rat t.isText_key trivial
  refine ⟨hput.1, hput.2, fun u => ?_, ?_⟩
  · rw [deadline?_put, Agenda.lookup_insert_ite, h.lookup, TextKey.key_beq_key]
    simp only [decide_eq_true_eq]
  · have hfind : q.deadlines.find? t.key = a.lookup t := h.lookup t
    have hsize : q.deadlines.size = a.keys.card := h.size
    show (q.deadlines.insert t.key due).size = _
    rw [Table.size_insert, Agenda.card_insert, hfind, hsize]

theorem Represents.add (h : Represents q a) (now : Rat) (t : TextKey) (delay : Rat) :
    (q.add now t.key delay).1 = .ok () ∧
      Represents (q.add now t.key delay).2 (a.add now t delay) := by
  have hadd : q.add now t.key delay = q.putBefore t.key (now + max 0 delay) := by
    simp [Queue.add, offer]
  rw [hadd]
  unfold putBefore Agenda.add
  rw [h.lookup t]
  cases a.lookup t with
  | none => exact h.put t _
  | some current =>
    by_cases hle : current ≤ now + max 0 delay
    · simpa [hle] using h
    · simpa [hle] using h.put t (now + max 0 delay)

theorem Represents.clean (h : Represents q a) :
    Represents q.clean.2 a ∧ q.clean.2.Settled := by
  obtain ⟨-, hlinked, hsettled, hdeadlines⟩ := h.linked.clean Seconds.measured_rat
  exact ⟨h.of_deadlines hlinked hdeadlines, hsettled⟩

/-! ## Waits -/

/-- A wait on a queue comes to what it comes to on an agenda. -/
structure Agrees (taken : Taken Rat ObjectKey)
    (expected : Except Breakdown (Option TextKey) × Agenda × Rat) : Prop where
  found : taken.found = expected.1.map (·.map TextKey.key)
  represents : Represents taken.queue expected.2.1
  now : taken.now = expected.2.2

theorem Represents.first?_of_top (h : Represents q a) (hs : q.Settled) {e : Entry Rat ObjectKey}
    (he : q.heap.top? = some e) : ∃ t : TextKey, e.key = t.key ∧ a.first? = some (e.due, t) := by
  obtain ⟨t, due, hkey, hdue, hval, hmin⟩ := h.linked.top_least Seconds.measured_rat hs he
  have hsame : due = e.due := hval
  subst hsame
  refine ⟨t, hkey, Agenda.first?_eq_some (by rw [← h.lookup, hdue]) fun u d hd => ?_⟩
  exact hmin u d (by rw [h.lookup, hd])

theorem Represents.first?_of_empty (h : Represents q a) (ht : q.heap.top? = none) :
    a.first? = none :=
  Agenda.first?_eq_none fun t => by rw [← h.lookup, h.linked.deadline?_eq_none ht]

theorem Represents.await_due (h : Represents q a) (hs : q.Settled) {e : Entry Rat ObjectKey}
    (he : q.heap.top? = some e) {t : TextKey} (hkey : e.key = t.key) (hdue : e.due ≤ now) :
    Agrees (q.await (n + 1) now giveUp waits) (.ok (some t), a.erase t, now) := by
  have hk : q.dueKey? now = some e.key := by simp [dueKey?_of_top he, hdue]
  obtain ⟨hfound, hlinked, hdeadlines⟩ := h.linked.takeTop Seconds.measured_rat he
  rw [hs.await_of_due hk]
  rw [hkey] at hfound hlinked hdeadlines ⊢
  exact ⟨hfound, (h.discard t).of_deadlines hlinked hdeadlines, rfl⟩

theorem Represents.await_over (h : Represents q a) (hs : q.Settled)
    (hk : q.dueKey? now = none) {limit : Rat} (hl : limit ≤ now) :
    Agrees (q.await (n + 1) now (some limit) waits) (.ok none, a, now) := by
  rw [hs.await_of_over hk (by simpa [isOver] using hl)]
  exact ⟨rfl, h, rfl⟩

theorem Represents.await_empty (h : Represents q a) (hs : q.Settled)
    (ht : q.heap.top? = none) (limit : Rat) :
    Agrees (q.await (n + 2) now (some limit) waits) (.ok none, a, max now limit) := by
  by_cases hl : limit ≤ now
  · rw [max_eq_left hl]
    exact h.await_over hs (dueKey?_of_empty ht) hl
  · have hwait : waitFor? now q.heap.top? (some limit) = some (limit - now) := by
      simp [waitFor?, ht]
    have hover : isOver now (some limit) = false := by simpa [isOver] using hl
    rw [hs.await_of_wait (dueKey?_of_empty ht) hover hwait, add_sub_cancel,
      max_eq_right (not_le.1 hl).le]
    exact h.await_over hs (dueKey?_of_empty ht) le_rfl

/-- A wait without a limit ends when the first key is due. -/
theorem Represents.await_top (h : Represents q a) (hs : q.Settled) {e : Entry Rat ObjectKey}
    (he : q.heap.top? = some e) {t : TextKey} (hkey : e.key = t.key) :
    Agrees (q.await (n + 2) now none waits) (.ok (some t), a.erase t, max now e.due) := by
  by_cases hdue : e.due ≤ now
  · rw [max_eq_left hdue]
    exact h.await_due hs he hkey hdue
  · have hk : q.dueKey? now = none := by simp [dueKey?_of_top he, hdue]
    have hwait : waitFor? now q.heap.top? none = some (e.due - now) := by simp [waitFor?, he]
    rw [hs.await_of_wait hk rfl hwait, add_sub_cancel, max_eq_right (not_le.1 hdue).le]
    exact h.await_due hs he hkey le_rfl

/-- A wait ends when the first key is due or the time is out, whichever comes first; if both come
at once the key is taken. -/
theorem Represents.await_top_limit (h : Represents q a) (hs : q.Settled)
    {e : Entry Rat ObjectKey} (he : q.heap.top? = some e) {t : TextKey} (hkey : e.key = t.key)
    (limit : Rat) :
    Agrees (q.await (n + 2) now (some limit) waits)
      (if e.due ≤ max now limit then (.ok (some t), a.erase t, max now e.due)
        else (.ok none, a, max now limit)) := by
  by_cases hdue : e.due ≤ now
  · rw [if_pos (hdue.trans (le_max_left ..)), max_eq_left hdue]
    exact h.await_due hs he hkey hdue
  have hk : q.dueKey? now = none := by simp [dueKey?_of_top he, hdue]
  by_cases hl : limit ≤ now
  · rw [max_eq_left hl, if_neg hdue]
    exact h.await_over hs hk hl
  have hover : isOver now (some limit) = false := by simpa [isOver] using hl
  have hwait : waitFor? now q.heap.top? (some limit) = some (min e.due limit - now) := by
    simp [waitFor?, he, min_sub_sub_right]
  rw [hs.await_of_wait hk hover hwait, add_sub_cancel, max_eq_right (not_le.1 hl).le,
    max_eq_right (not_le.1 hdue).le]
  by_cases hfirst : e.due ≤ limit
  · rw [if_pos hfirst, min_eq_left hfirst]
    exact h.await_due hs he hkey le_rfl
  · rw [if_neg hfirst, min_eq_right (not_le.1 hfirst).le]
    exact h.await_over hs (by simp [dueKey?_of_top he, hfirst]) le_rfl

theorem Represents.take (h : Represents q a) (now : Rat) (timeout : Option Rat) :
    Agrees (q.take now timeout) (a.take now timeout) := by
  obtain ⟨hclean, hs⟩ := h.clean
  have hawait : ∀ giveUp, q.await mostWaits now giveUp [] =
      q.clean.2.await (14 + 2) now giveUp [] := fun giveUp =>
    h.linked.await_clean Seconds.measured_rat
  unfold Queue.take Agenda.take
  cases ht : q.clean.2.heap.top? with
  | none =>
    rw [hclean.first?_of_empty ht]
    cases timeout with
    | none =>
      show Agrees (q.await mostWaits now none []) _
      rw [hawait, hs.await_of_idle ht]
      exact ⟨rfl, hclean, rfl⟩
    | some seconds =>
      show Agrees (q.await mostWaits now (some (now + seconds)) []) _
      rw [hawait]
      exact hclean.await_empty hs ht _
  | some e =>
    obtain ⟨t, hkey, hfirst⟩ := hclean.first?_of_top hs ht
    rw [hfirst]
    cases timeout with
    | none =>
      show Agrees (q.await mostWaits now none []) _
      rw [hawait]
      exact hclean.await_top hs ht hkey
    | some seconds =>
      show Agrees (q.await mostWaits now (some (now + seconds)) []) _
      rw [hawait]
      exact hclean.await_top_limit hs ht hkey _

/-! ## Runs -/

/-- A request gets the same reply from a queue and the agenda it stands for. -/
theorem Represents.serve (h : Represents q a) (now : Rat) (request : Request) :
    (q.serve now request).1 = (a.serve now request).1 ∧
      Represents (q.serve now request).2.1 (a.serve now request).2.1 ∧
      (q.serve now request).2.2 = (a.serve now request).2.2 := by
  cases request with
  | add t delay =>
    have hadd := h.add now t delay
    exact ⟨congrArg Reply.added hadd.1, hadd.2, rfl⟩
  | discard t => exact ⟨rfl, h.discard t, rfl⟩
  | take timeout =>
    have htake := h.take now timeout
    exact ⟨congrArg₂ Reply.taken htake.found htake.now, htake.represents, htake.now⟩
  | count => exact ⟨congrArg Reply.counted h.size, h, rfl⟩
  | advance seconds => exact ⟨rfl, h, rfl⟩

theorem Represents.serveAll (h : Represents q a) (now : Rat) (requests : List Request) :
    (q.serveAll now requests).1 = (a.serveAll now requests).1 ∧
      Represents (q.serveAll now requests).2.1 (a.serveAll now requests).2.1 ∧
      (q.serveAll now requests).2.2 = (a.serveAll now requests).2.2 := by
  induction requests generalizing q a now with
  | nil => exact ⟨rfl, h, rfl⟩
  | cons request requests ih =>
    obtain ⟨hreply, hrep, hnow⟩ := h.serve now request
    obtain ⟨hreplies, hrep', hnow'⟩ := ih hrep (q.serve now request).2.2
    rw [hnow] at hreplies hrep' hnow'
    refine ⟨?_, ?_, ?_⟩
    · show (q.serve now request).1 ::
        (Queue.serveAll (q.serve now request).2.1 (q.serve now request).2.2 requests).1 = _
      rw [hnow, hreply, hreplies]
      rfl
    · show Represents
        (Queue.serveAll (q.serve now request).2.1 (q.serve now request).2.2 requests).2.1 _
      rw [hnow]
      exact hrep'
    · show (Queue.serveAll (q.serve now request).2.1 (q.serve now request).2.2 requests).2.2 = _
      rw [hnow]
      exact hnow'

/-- Every queue that is reached stands for the agenda that is reached. -/
theorem represents_serveAll (now : Rat) (requests : List Request) :
    Represents (Queue.serveAll .empty now requests).2.1 (Agenda.serveAll ∅ now requests).2.1 :=
  (Represents.empty.serveAll now requests).2.1

/-! ## Keys that are taken -/

/-- The queue that a wait finds after the clean-up of a round, the first round being number 0. -/
def atRound (q : Queue Rat ObjectKey) (round : Nat) : Queue Rat ObjectKey :=
  (fun q => q.clean.2)^[round + 1] q

theorem Represents.atRound (h : Represents q a) (round : Nat) :
    Represents (q.atRound round) a ∧ (q.atRound round).Settled := by
  induction round with
  | zero => exact h.clean
  | succ round ih =>
    have hsucc : q.atRound (round + 1) = (q.atRound round).clean.2 :=
      Function.iterate_succ_apply' (fun q : Queue Rat ObjectKey => q.clean.2) (round + 1) q
    rw [hsucc]
    exact ih.1.clean

theorem Represents.isSome_deadline? (h : Represents q a) (hs : q.Settled) {k : ObjectKey}
    (hk : q.dueKey? now = some k) : (q.deadline? k).isSome = true := by
  cases ht : q.heap.top? with
  | none =>
    rw [dueKey?_of_empty ht] at hk
    cases hk
  | some e =>
    rw [dueKey?_of_top ht] at hk
    split at hk
    · cases hk
      obtain ⟨t, due, hkey, hdue, -⟩ := h.linked.top_least Seconds.measured_rat hs ht
      rw [hkey, hdue]
      rfl
    · cases hk

end Queue

namespace Agenda

variable {a : Agenda} {now : Rat} {t : TextKey}

theorem lookup_serve_eq_none {request : Request} (h : a.lookup t = none)
    (hr : ∀ delay, request ≠ .add t delay) : (a.serve now request).2.1.lookup t = none := by
  have herase : ∀ u, (Finmap.erase u a).lookup t = none := by
    intro u
    rw [lookup_erase_ite, h, ite_self]
  cases request with
  | add u delay =>
    have hne : u ≠ t := by
      rintro rfl
      exact hr delay rfl
    have hinsert : ∀ due, (a.insert u due).lookup t = none := by
      intro due
      rw [lookup_insert_ite, if_neg hne, h]
    show (a.add now u delay).lookup t = none
    unfold add
    split
    · split
      · exact h
      · exact hinsert _
    · exact hinsert _
  | discard u => exact herase u
  | take timeout =>
    show (a.take now timeout).2.1.lookup t = none
    unfold take
    split
    · exact h
    · exact h
    · exact herase _
    · split
      · exact herase _
      · exact h
  | count => exact h
  | advance seconds => exact h

theorem lookup_serveAll_eq_none {requests : List Request} (h : a.lookup t = none)
    (hr : ∀ delay, .add t delay ∉ requests) :
    (a.serveAll now requests).2.1.lookup t = none := by
  induction requests generalizing a now with
  | nil => exact h
  | cons request requests ih =>
    apply ih
    · apply lookup_serve_eq_none h
      rintro delay rfl
      exact hr delay (List.mem_cons_self ..)
    · intro delay hmem
      exact hr delay (List.mem_cons_of_mem _ hmem)

theorem lookup_of_first? {due : Rat} (h : a.first? = some (due, t)) :
    a.lookup t = some due := by
  obtain ⟨s, hs, heq⟩ := Option.map_eq_some_iff.1 h
  have hmem : s ∈ a.slots := by
    rw [← Multiset.mem_sort (r := (· ≤ ·))]
    exact List.mem_of_head? hs
  apply mem_slots.1
  obtain ⟨rfl, rfl⟩ := Prod.mk.inj heq
  exact hmem

theorem take_ne_of_lookup_eq_none (h : a.lookup t = none) (now : Rat) (timeout : Option Rat) :
    (a.take now timeout).1 ≠ .ok (some t) := by
  have hfirst : ∀ {due u}, a.first? = some (due, u) → u ≠ t := by
    rintro due u hu rfl
    rw [lookup_of_first? hu] at h
    cases h
  unfold take
  split
  · intro heq
    cases heq
  · intro heq
    cases heq
  · rename_i hu
    intro heq
    exact hfirst hu (by simpa using heq)
  · rename_i hu
    split
    · intro heq
      exact hfirst hu (by simpa using heq)
    · intro heq
      cases heq

end Agenda

namespace Queue

/-- A queue gives the replies that an agenda gives. A key that a wait takes off the heap has a
deadline, in every round of the wait. A key that was discarded is not taken before it is added
again. -/
theorem serveAll_refines_agenda :
    (∀ (now : Rat) (requests : List Request),
      (Queue.serveAll .empty now requests).1 = (Agenda.serveAll ∅ now requests).1) ∧
    (∀ (now : Rat) (requests : List Request) (round : Nat) (time : Rat) (k : ObjectKey),
      ((Queue.serveAll .empty now requests).2.1.atRound round).dueKey? time = some k →
        (((Queue.serveAll .empty now requests).2.1.atRound round).deadline? k).isSome = true) ∧
    (∀ (now : Rat) (before between : List Request) (t : TextKey) (timeout : Option Rat)
      (time : Rat), (∀ delay, .add t delay ∉ between) →
        ((Queue.serveAll .empty now (before ++ .discard t :: between)).2.1.take time timeout).found
          ≠ .ok (some t.key)) := by
  refine ⟨?_, ?_, ?_⟩
  · intro now requests
    exact (Represents.empty.serveAll now requests).1
  · intro now requests round time k hk
    obtain ⟨hrep, hs⟩ := (represents_serveAll now requests).atRound round
    exact hrep.isSome_deadline? hs hk
  · intro now before between t timeout time hbetween
    have htake := (represents_serveAll now (before ++ .discard t :: between)).take time timeout
    rw [htake.found]
    have hnone : (Agenda.serveAll ∅ now (before ++ .discard t :: between)).2.1.lookup t = none := by
      rw [Agenda.serveAll_append]
      apply Agenda.lookup_serveAll_eq_none _ hbetween
      exact Finmap.lookup_erase t _
    have hne := Agenda.take_ne_of_lookup_eq_none hnone time timeout
    generalize (Agenda.take _ time timeout).1 = found at hne
    rcases found with _ | _ | u
    · intro heq
      cases heq
    · intro heq
      cases heq
    · intro heq
      have hkey : u = t := by simpa [Except.map] using heq
      exact hne (by rw [hkey])

theorem serveAll_refines_agenda_nightly :
    ((Queue.serveAll .empty 0 [.add ("apps", "nightly") 0]).2.1.atRound 0).dueKey? 0 =
        some (.ofTexts "apps" "nightly") ∧
      (((Queue.serveAll .empty 0 [.add ("apps", "nightly") 0]).2.1.atRound 0).deadline?
        (.ofTexts "apps" "nightly")).isSome = true ∧
      ((Queue.serveAll .empty 0 ([.add ("apps", "nightly") 0] ++
        .discard ("apps", "nightly") :: [.count])).2.1.take 0 (some 5)).found ≠
          .ok (some (TextKey.key ("apps", "nightly"))) := by
  have hdue : ((Queue.serveAll .empty 0 [.add ("apps", "nightly") 0]).2.1.atRound 0).dueKey? 0 =
      some (.ofTexts "apps" "nightly") := by
    simp [Queue.serveAll, serve, Queue.add, offer, putBefore, put, Queue.empty, Heap.insert,
      Heap.rise, Heap.empty, atRound, Queue.clean, cleanUpTo, Heap.top?, counts, deadline?,
      Heap.size, dueKey?, TextKey.key]
  exact ⟨hdue, serveAll_refines_agenda.2.1 0 _ 0 0 _ hdue,
    serveAll_refines_agenda.2.2 0 _ _ _ _ 0 (by simp)⟩

end Queue

end ClusterBackup
