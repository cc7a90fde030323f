import ClusterBackup.Worker.Watch
import Mathlib.Data.List.Infix
/-!
# What a watch takes note of

Streams are followed in turns, one for each stream that is opened. A turn takes note of the events
that its stream gives before a stop is called for, in their order and each once; only an event that
cannot be taken note of ends it before that. Whatever ends a turn, its stream is closed once, after
a pause if it was broken, and the next one is opened unless a stop was called for
(`streams_are_followed_in_turns`).
-/

namespace ClusterBackup

variable {τ : Type} [Seconds τ]

/-! ## Taking note of events -/

namespace Worker

def heedAll (now : τ) : Worker τ → List Json → Worker τ :=
  List.foldl fun w event => (w.heed now event).2

def TakesAll (now : τ) : Worker τ → List Json → Prop
  | _, [] => True
  | w, event :: events => (w.heed now event).1 = true ∧ TakesAll now (w.heed now event).2 events

/-- The last of the events cannot be taken note of, while all before it can. -/
def JamsOn (now : τ) : Worker τ → List Json → Prop
  | _, [] => False
  | w, event :: events =>
    ((w.heed now event).1 = false ∧ events = []) ∨
      ((w.heed now event).1 = true ∧ JamsOn now (w.heed now event).2 events)

variable {now : τ} {w : Worker τ} {event : Json} {events : List Json}

theorem heedAll_append (w : Worker τ) (now : τ) (front back : List Json) :
    w.heedAll now (front ++ back) = (w.heedAll now front).heedAll now back :=
  List.foldl_append

theorem takesAll_cons (h : (w.heed now event).1 = true) :
    w.TakesAll now (event :: events) ↔ (w.heed now event).2.TakesAll now events := by
  simp [TakesAll, h]

theorem jamsOn_cons (h : (w.heed now event).1 = true) :
    w.JamsOn now (event :: events) ↔ (w.heed now event).2.JamsOn now events := by
  simp [JamsOn, h]

theorem jamsOn_singleton : w.JamsOn now [event] ↔ (w.heed now event).1 = false := by
  simp [JamsOn]

end Worker

/-! ## Events that come before a stop -/

namespace Stream

variable {s : Stream} {index : Nat} {event : Json} {events : List Json}

/-- Those of the events, the first of which has the number given, that the stream gives before a
stop is called for. -/
def unstoppedFrom (s : Stream) (index : Nat) (events : List Json) : List Json :=
  let given := match s.stopBefore with
    | some n => events.take (n - index)
    | none => events
  match s.stopDuring with
  | some n => given.take (n + 1 - index)
  | none => given

def unstopped (s : Stream) : List Json := s.unstoppedFrom 0 s.events

structure IsOpenAt (s : Stream) (index : Nat) : Prop where
  before : ∀ n, s.stopBefore = some n → index ≤ n
  during : ∀ n, s.stopDuring = some n → index ≤ n

theorem isOpenAt_zero (s : Stream) : s.IsOpenAt 0 :=
  ⟨fun n _ => n.zero_le, fun n _ => n.zero_le⟩

theorem IsOpenAt.succ (h : s.IsOpenAt index) (hbefore : s.stopBefore ≠ some index)
    (hduring : s.stopDuring ≠ some index) : s.IsOpenAt (index + 1) := by
  constructor
  · intro n hn
    have hle := h.before n hn
    have hne : n ≠ index := fun heq => hbefore (heq ▸ hn)
    omega
  · intro n hn
    have hle := h.during n hn
    have hne : n ≠ index := fun heq => hduring (heq ▸ hn)
    omega

theorem unstoppedFrom_nil (s : Stream) (index : Nat) : s.unstoppedFrom index [] = [] := by
  unfold unstoppedFrom
  cases s.stopBefore <;> cases s.stopDuring <;> simp

theorem unstoppedFrom_of_before (h : s.stopBefore = some index) :
    s.unstoppedFrom index events = [] := by
  unfold unstoppedFrom
  cases s.stopDuring <;> simp [h]

theorem unstoppedFrom_of_during (h : s.IsOpenAt index) (hbefore : s.stopBefore ≠ some index)
    (hduring : s.stopDuring = some index) : s.unstoppedFrom index (event :: events) = [event] := by
  unfold unstoppedFrom
  cases hb : s.stopBefore with
  | none => simp [hduring]
  | some n =>
    have hle := h.before n hb
    have hne : n ≠ index := fun heq => hbefore (heq ▸ hb)
    obtain ⟨k, rfl⟩ : ∃ k, n = index + 1 + k := ⟨n - (index + 1), by omega⟩
    have hsub : index + 1 + k - index = k + 1 := by omega
    simp [hduring, hsub]

theorem unstoppedFrom_cons (h : s.IsOpenAt index) (hbefore : s.stopBefore ≠ some index)
    (hduring : s.stopDuring ≠ some index) :
    s.unstoppedFrom index (event :: events) = event :: s.unstoppedFrom (index + 1) events := by
  have hnext := h.succ hbefore hduring
  have hsub : ∀ n, index + 1 ≤ n → n - index = n - (index + 1) + 1 := by
    intro n hn
    omega
  unfold unstoppedFrom
  cases hb : s.stopBefore with
  | none =>
    cases hd : s.stopDuring with
    | none => rfl
    | some n =>
      have hn := hsub (n + 1) (Nat.le_succ_of_le (hnext.during n hd))
      simp only [hn, List.take_succ_cons]
  | some m =>
    have hm := hsub m (hnext.before m hb)
    cases hd : s.stopDuring with
    | none => simp only [hm, List.take_succ_cons]
    | some n =>
      have hn := hsub (n + 1) (Nat.le_succ_of_le (hnext.during n hd))
      simp only [hm, hn, List.take_succ_cons]

end Stream

namespace Watch

/-! ## The events of a stream -/

/-- What it comes to when the events of a stream are played from the given number on: the events
that were taken note of, how the stream ended, and whether a stop was called for. -/
structure Plays (now : τ) (s : Stream) (index : Nat) (events : List Json) (w : Worker τ)
    (heeded : List Json) (ending : StreamEnd) (stopped : Bool) : Prop where
  inOrder : heeded <+: s.unstoppedFrom index events
  taken : w.TakesAll now heeded ∨ w.JamsOn now heeded
  cut : heeded ≠ s.unstoppedFrom index events → w.JamsOn now heeded
  broken_iff : ending = .broken ↔
    w.JamsOn now heeded ∨ heeded = events ∧ s.failure.isSome = true
  stopped_iff : stopped = true ↔
    (∃ i < heeded.length, s.stopDuring = some (index + i)) ∨
      ¬ w.JamsOn now heeded ∧
        (heeded.length < events.length ∧ s.stopBefore = some (index + heeded.length) ∨
          heeded = events ∧ s.stopAtEnd = true)

variable {now : τ} {s : Stream} {index : Nat} {event : Json} {events heeded : List Json}
variable {w w' : Watch τ} {v : Worker τ} {ending : StreamEnd} {stopped : Bool}

theorem plays_nil (now : τ) (s : Stream) (index : Nat) (v : Worker τ) :
    Plays now s index [] v [] (if s.failure.isSome then .broken else .usual) s.stopAtEnd where
  inOrder := List.nil_prefix
  taken := .inl trivial
  cut h := absurd (s.unstoppedFrom_nil index).symm h
  broken_iff := by cases s.failure <;> simp [Worker.JamsOn]
  stopped_iff := by simp [Worker.JamsOn]

theorem plays_of_before (h : s.stopBefore = some index) (events : List Json) (v : Worker τ) :
    Plays now s index (event :: events) v [] .usual true where
  inOrder := List.nil_prefix
  taken := .inl trivial
  cut hne := absurd (Stream.unstoppedFrom_of_before h).symm hne
  broken_iff := by simp [Worker.JamsOn]
  stopped_iff := by simp [Worker.JamsOn, h]

theorem plays_of_jam (hopen : s.IsOpenAt index) (hbefore : s.stopBefore ≠ some index)
    (hjam : (v.heed now event).1 = false) (events : List Json) :
    Plays now s index (event :: events) v [event] .broken (s.stopDuring == some index) := by
  have hjams : v.JamsOn now [event] := Worker.jamsOn_singleton.2 hjam
  refine ⟨?_, .inr hjams, fun _ => hjams, by simp [hjams], ?_⟩
  · by_cases hduring : s.stopDuring = some index
    · rw [Stream.unstoppedFrom_of_during hopen hbefore hduring]
    · rw [Stream.unstoppedFrom_cons hopen hbefore hduring]
      exact ⟨_, rfl⟩
  · simp [hjams]

/-- A stop that is called for while an event is taken note of leaves it the last one. -/
theorem plays_of_during (hopen : s.IsOpenAt index) (hbefore : s.stopBefore ≠ some index)
    (hduring : s.stopDuring = some index) (htaken : (v.heed now event).1 = true)
    (events : List Json) :
    Plays now s index (event :: events) v [event]
      (if events = [] ∧ s.failure.isSome = true then .broken else .usual) true := by
  have hjams : ¬ v.JamsOn now [event] := by simp [Worker.jamsOn_singleton, htaken]
  refine ⟨?_, .inl ⟨htaken, trivial⟩, ?_, ?_, ?_⟩
  · rw [Stream.unstoppedFrom_of_during hopen hbefore hduring]
  · intro hne
    exact absurd (Stream.unstoppedFrom_of_during hopen hbefore hduring).symm hne
  · cases events with
    | nil => simp [hjams, Option.isSome_iff_ne_none]
    | cons event' events => simp [hjams]
  · simp [hduring]

theorem Plays.cons (hopen : s.IsOpenAt index) (hbefore : s.stopBefore ≠ some index)
    (hduring : s.stopDuring ≠ some index) (htaken : (v.heed now event).1 = true)
    (h : Plays now s (index + 1) events (v.heed now event).2 heeded ending stopped) :
    Plays now s index (event :: events) v (event :: heeded) ending stopped := by
  have hunstopped : s.unstoppedFrom index (event :: events) =
      event :: s.unstoppedFrom (index + 1) events := Stream.unstoppedFrom_cons hopen hbefore hduring
  have hlength : index + (event :: heeded).length = index + 1 + heeded.length := by
    rw [List.length_cons, Nat.add_comm heeded.length, Nat.add_assoc]
  have hshift : (∃ i < (event :: heeded).length, s.stopDuring = some (index + i)) ↔
      ∃ i < heeded.length, s.stopDuring = some (index + 1 + i) := by
    constructor
    · rintro ⟨i, hi, hsome⟩
      cases i with
      | zero => exact absurd hsome hduring
      | succ i => exact ⟨i, Nat.lt_of_succ_lt_succ hi, by rw [hsome]; congr 1; omega⟩
    · rintro ⟨i, hi, hsome⟩
      exact ⟨i + 1, Nat.succ_lt_succ hi, by rw [hsome]; congr 1; omega⟩
  refine ⟨?_, ?_, ?_, ?_, ?_⟩
  · rw [hunstopped]
    exact (List.prefix_cons_inj event).2 h.inOrder
  · exact h.taken.imp (Worker.takesAll_cons htaken).2 (Worker.jamsOn_cons htaken).2
  · intro hne
    rw [hunstopped] at hne
    exact (Worker.jamsOn_cons htaken).2 (h.cut fun heq => hne (heq ▸ rfl))
  · rw [h.broken_iff, Worker.jamsOn_cons htaken, List.cons_inj_right]
  · rw [h.stopped_iff, Worker.jamsOn_cons htaken, List.cons_inj_right, hshift, hlength,
      List.length_cons, List.length_cons, Nat.succ_lt_succ_iff]

variable {done : List (WatchDeed τ)}

theorem play_of_stop (now : τ) (s : Stream) (index : Nat) (events : List Json) (v : Worker τ)
    (done : List (WatchDeed τ)) :
    play now s index events ⟨v, true, done⟩ =
      (if events = [] ∧ s.failure.isSome = true then .broken else .usual, ⟨v, true, done⟩) := by
  cases events with
  | nil => simp [play, stopIf]
  | cons event events => simp [play, stopIf]

theorem play_of_before (h : s.stopBefore = some index) (event : Json) (events : List Json) :
    play now s index (event :: events) ⟨v, false, done⟩ = (.usual, ⟨v, true, done⟩) := by
  simp [play, stopIf, h]

theorem play_of_jam (hbefore : s.stopBefore ≠ some index) (hjam : (v.heed now event).1 = false)
    (events : List Json) :
    play now s index (event :: events) ⟨v, false, done⟩ =
      (.broken,
        ⟨(v.heed now event).2, s.stopDuring == some index, done ++ [.heeds event]⟩) := by
  simp [play, stopIf, heed, note, beq_eq_false_iff_ne.2 hbefore, hjam]

theorem play_of_taken (hbefore : s.stopBefore ≠ some index)
    (htaken : (v.heed now event).1 = true) (events : List Json) :
    play now s index (event :: events) ⟨v, false, done⟩ =
      play now s (index + 1) events
        ⟨(v.heed now event).2, s.stopDuring == some index, done ++ [.heeds event]⟩ := by
  simp [play, stopIf, heed, note, beq_eq_false_iff_ne.2 hbefore, htaken]

/-- The induction is on the events. What comes after the first one is played from the next number
on, by the worker that was told of the first one. -/
theorem exists_plays (now : τ) (hopen : s.IsOpenAt index) (events : List Json) (v : Worker τ)
    (done : List (WatchDeed τ)) :
    ∃ heeded ending stopped, Plays now s index events v heeded ending stopped ∧
      play now s index events ⟨v, false, done⟩ =
        (ending, ⟨v.heedAll now heeded, stopped, done ++ heeded.map .heeds⟩) := by
  induction events generalizing index v done with
  | nil =>
    refine ⟨[], _, _, plays_nil now s index v, ?_⟩
    simp [play, stopIf, Worker.heedAll]
  | cons event events ih =>
    by_cases hbefore : s.stopBefore = some index
    · refine ⟨[], _, _, plays_of_before hbefore events v, ?_⟩
      rw [play_of_before hbefore]
      simp [Worker.heedAll]
    cases htaken : (v.heed now event).1 with
    | false =>
      exact ⟨[event], _, _, plays_of_jam hopen hbefore htaken events,
        play_of_jam hbefore htaken events⟩
    | true =>
      rw [play_of_taken hbefore htaken]
      by_cases hduring : s.stopDuring = some index
      · refine ⟨[event], _, _, plays_of_during hopen hbefore hduring htaken events, ?_⟩
        rw [hduring, beq_self_eq_true, play_of_stop]
        rfl
      · obtain ⟨heeded, ending, stopped, hplays, hplay⟩ :=
          ih (hopen.succ hbefore hduring) (v.heed now event).2 (done ++ [.heeds event])
        refine ⟨event :: heeded, _, _, hplays.cons hopen hbefore hduring htaken, ?_⟩
        rw [beq_eq_false_iff_ne.2 hduring, hplay, List.append_assoc]
        rfl

/-! ## Turns -/

/-- A turn: the stream that is opened, the events that are taken note of, how the stream ends, and
whether a stop was called for by then. -/
structure Turn where
  stream : Stream
  heeded : List Json
  ending : StreamEnd
  stopped : Bool

namespace Turn

def deeds (t : Turn) : List (WatchDeed τ) :=
  .opens :: t.heeded.map .heeds ++ (match t.ending with
    | .usual => [.closes]
    | .broken => [.pauses pauseSeconds, .closes])

/-- What it comes to when a worker follows a stream in a turn. It is told of the events that the
stream gives before a stop is called for, unless it cannot take note of one of them: then it is told
of those up to that one. The stream is broken exactly if there is such an event, or if it gives all
of its events and ends with an error. A stop is called for exactly if that is done at one of the
events, before the next one, at the end of the stream, or in the pause after it. -/
structure Follows (now : τ) (w : Worker τ) (t : Turn) : Prop where
  inOrder : t.heeded <+: t.stream.unstopped
  taken : w.TakesAll now t.heeded ∨ w.JamsOn now t.heeded
  cut : t.heeded ≠ t.stream.unstopped → w.JamsOn now t.heeded
  broken_iff : t.ending = .broken ↔
    w.JamsOn now t.heeded ∨ t.heeded = t.stream.events ∧ t.stream.failure.isSome = true
  stopped_iff : t.stopped = true ↔
    (∃ i < t.heeded.length, t.stream.stopDuring = some i) ∨
      (¬ w.JamsOn now t.heeded ∧
        (t.heeded.length < t.stream.events.length ∧ t.stream.stopBefore = some t.heeded.length ∨
          t.heeded = t.stream.events ∧ t.stream.stopAtEnd = true)) ∨
      t.ending = .broken ∧ t.stream.stopInPause = true

end Turn

theorem exists_turn (now : τ) (s : Stream) (v : Worker τ) (done : List (WatchDeed τ)) :
    ∃ t : Turn, t.stream = s ∧ t.Follows now v ∧
      playStream ⟨v, false, done⟩ now s =
        ⟨v.heedAll now t.heeded, t.stopped, done ++ t.deeds⟩ := by
  obtain ⟨heeded, ending, stopped, hplays, hplay⟩ :=
    exists_plays now s.isOpenAt_zero s.events v (done ++ [.opens])
  refine ⟨⟨s, heeded, ending, stopped || (ending = .broken && s.stopInPause)⟩, rfl, ?_, ?_⟩
  · refine ⟨hplays.inOrder, hplays.taken, hplays.cut, hplays.broken_iff, ?_⟩
    have hstopped := hplays.stopped_iff
    simp only [Nat.zero_add] at hstopped
    simp [hstopped, or_assoc]
  · have hplay' : play now s 0 s.events ((⟨v, false, done⟩ : Watch τ).note .opens) = _ := hplay
    simp only [playStream, hplay']
    cases ending <;> simp [pauseAfter, note, stopIf, Turn.deeds]

/-! ## Streams -/

/-- What it comes to when a worker follows streams in turns: no turn comes after one in which a stop
was called for, and in each the worker was told of the events of those before. -/
structure FollowsAll (now : τ) (w : Worker τ) (turns : List Turn) : Prop where
  each : ∀ before t after, turns = before ++ t :: after →
    t.Follows now (w.heedAll now (before.flatMap Turn.heeded))
  going : ∀ before t after, turns = before ++ t :: after → ∀ t' ∈ before, t'.stopped = false

variable {t : Turn} {turns : List Turn}

theorem followsAll_nil (now : τ) (v : Worker τ) : FollowsAll now v [] := by
  constructor
  · intro before t after h
    simp at h
  · intro before t after h
    simp at h

theorem FollowsAll.cons (ht : t.Follows now v) (hgoing : turns ≠ [] → t.stopped = false)
    (h : FollowsAll now (v.heedAll now t.heeded) turns) : FollowsAll now v (t :: turns) := by
  constructor
  · intro before t' after heq
    cases before with
    | nil =>
      obtain ⟨rfl, -⟩ := List.cons.inj heq
      exact ht
    | cons t'' before =>
      obtain ⟨rfl, hturns⟩ := List.cons.inj heq
      rw [List.flatMap_cons, Worker.heedAll_append]
      exact h.each before t' after hturns
  · intro before t' after heq
    cases before with
    | nil => exact fun _ hmem => absurd hmem List.not_mem_nil
    | cons t'' before =>
      obtain ⟨rfl, hturns⟩ := List.cons.inj heq
      have hne : turns ≠ [] := by simp [hturns]
      exact List.forall_mem_cons.2 ⟨hgoing hne, h.going before t' after hturns⟩

theorem playAll_of_stop (now : τ) (streams : List Stream) (v : Worker τ)
    (done : List (WatchDeed τ)) :
    playAll now streams ⟨v, true, done⟩ = ⟨v, true, done⟩ := by
  cases streams <;> rfl

theorem playAll_cons (now : τ) (s : Stream) (streams : List Stream) (v : Worker τ)
    (done : List (WatchDeed τ)) :
    playAll now (s :: streams) ⟨v, false, done⟩ =
      playAll now streams (playStream ⟨v, false, done⟩ now s) := rfl

theorem exists_turns (now : τ) (streams : List Stream) (v : Worker τ)
    (done : List (WatchDeed τ)) :
    ∃ turns : List Turn, FollowsAll now v turns ∧ turns.map Turn.stream <+: streams ∧
      (turns.map Turn.stream = streams ∨ turns.any Turn.stopped = true) ∧
      playAll now streams ⟨v, false, done⟩ =
        ⟨v.heedAll now (turns.flatMap Turn.heeded), turns.any Turn.stopped,
          done ++ turns.flatMap Turn.deeds⟩ := by
  induction streams generalizing v done with
  | nil =>
    refine ⟨[], followsAll_nil now v, List.nil_prefix, .inl rfl, ?_⟩
    simp [playAll, Worker.heedAll]
  | cons s streams ih =>
    obtain ⟨t, rfl, ht, hplay⟩ := exists_turn now s v done
    rw [playAll_cons, hplay]
    cases hstopped : t.stopped with
    | true =>
      refine ⟨[t], (followsAll_nil now _).cons ht (absurd rfl), ⟨streams, rfl⟩, ?_, ?_⟩
      · exact .inr (by simp [hstopped])
      · rw [playAll_of_stop]
        simp [hstopped]
    | false =>
      obtain ⟨turns, hfollows, hstreams, hall, hplays⟩ :=
        ih (v.heedAll now t.heeded) (done ++ t.deeds)
      refine ⟨t :: turns, hfollows.cons ht fun _ => hstopped, ?_, ?_, ?_⟩
      · exact (List.prefix_cons_inj _).2 hstreams
      · exact hall.imp (congrArg (t.stream :: ·)) (by simp [hstopped])
      · rw [hplays]
        simp [hstopped, Worker.heedAll_append]

/-! ## Counts -/

section Counts

variable (p : WatchDeed τ → Bool)

omit [Seconds τ] in
theorem countP_map_heeds (hp : ∀ event, p (.heeds event) = false) (events : List Json) :
    (events.map WatchDeed.heeds).countP p = 0 := by
  rw [List.countP_map, List.countP_eq_zero]
  intro event _
  simp [hp]

theorem Turn.countP_deeds (hp : ∀ event, p (.heeds event) = false) (t : Turn) :
    t.deeds.countP p = [.opens, .closes].countP p +
      if t.ending = .broken then [.pauses pauseSeconds].countP p else 0 := by
  have hheeds := countP_map_heeds p hp t.heeded
  unfold Turn.deeds
  cases t.ending with
  | usual =>
    simp only [List.cons_append, List.countP_cons, List.countP_append, hheeds, reduceCtorEq,
      if_false]
    omega
  | broken =>
    simp only [List.cons_append, List.countP_cons, List.countP_append, List.countP_nil, hheeds,
      if_true]
    omega

theorem countP_flatMap_deeds (hp : ∀ event, p (.heeds event) = false) (turns : List Turn) :
    (turns.flatMap Turn.deeds).countP p =
      turns.length * [.opens, .closes].countP p +
        turns.countP (·.ending = .broken) * [.pauses pauseSeconds].countP p := by
  induction turns with
  | nil => simp
  | cons t turns ih =>
    have hbroken : (t :: turns).countP (·.ending = .broken) =
        turns.countP (·.ending = .broken) + if t.ending = .broken then 1 else 0 := by
      simp [List.countP_cons]
    rw [List.flatMap_cons, List.countP_append, ih, t.countP_deeds p hp, hbroken, List.length_cons,
      Nat.succ_mul, Nat.add_mul]
    split <;> omega

end Counts

/-- Streams are followed in their order, each in a turn of its own, and no turn is made once a stop
was called for; otherwise each of them has its turn. All that is done is what is done in the turns,
so every stream that was opened is closed once, with a pause before it if it was broken and without
one if it was not, and the worker is told of the events of all turns in their order. -/
theorem streams_are_followed_in_turns (now : τ) (ending : WatchEnd) (streams : List Stream)
    (w : Watch τ) :
    ∃ turns : List Turn, FollowsAll now w.worker turns ∧
      turns.map Turn.stream <+: streams ++ [ending.stream] ∧
      (w.stop = true → turns = []) ∧
      follow now ending streams w =
        ⟨w.worker.heedAll now (turns.flatMap Turn.heeded), w.stop || turns.any Turn.stopped,
          w.deeds ++ turns.flatMap Turn.deeds⟩ ∧
      (turns.map Turn.stream = streams ++ [ending.stream] ∨
        (follow now ending streams w).stop = true) ∧
      (follow now ending streams w).opened = w.opened + turns.length ∧
      (follow now ending streams w).closed = w.closed + turns.length ∧
      (follow now ending streams w).pauses =
        w.pauses + turns.countP (·.ending = .broken) := by
  obtain ⟨worker, stop, done⟩ := w
  unfold opened closed pauses
  cases stop with
  | true =>
    have hfollow : follow now ending streams ⟨worker, true, done⟩ = ⟨worker, true, done⟩ :=
      playAll_of_stop now _ worker done
    refine ⟨[], followsAll_nil now worker, List.nil_prefix, fun _ => rfl, ?_, .inr ?_, ?_⟩
    · rw [hfollow]
      simp [Worker.heedAll]
    · rw [hfollow]
    · simp [hfollow]
  | false =>
    obtain ⟨turns, hfollows, hstreams, hall, hplays⟩ :=
      exists_turns now (streams ++ [ending.stream]) worker done
    have hfollow : follow now ending streams ⟨worker, false, done⟩ = _ := hplays
    refine ⟨turns, hfollows, hstreams, fun h => absurd h Bool.false_ne_true, hfollow, ?_, ?_, ?_,
      ?_⟩
    · rw [hfollow]
      exact hall
    · rw [hfollow, List.countP_append, countP_flatMap_deeds _ fun _ => rfl]
      simp [WatchDeed.isOpening, List.countP_cons]
    · rw [hfollow, List.countP_append, countP_flatMap_deeds _ fun _ => rfl]
      simp [WatchDeed.isClosing, List.countP_cons]
    · rw [hfollow, List.countP_append, countP_flatMap_deeds _ fun _ => rfl]
      simp [WatchDeed.isPause, List.countP_cons]

example : (follow (0 : Rat) .stops [⟨[.null, .null], none, none, none, false, false⟩]
    ⟨.idle, false, []⟩).deeds =
      [.opens, .heeds .null, .pauses 1, .closes, .opens, .closes] := rfl

end Watch

end ClusterBackup
