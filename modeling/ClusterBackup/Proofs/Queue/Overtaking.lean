import ClusterBackup.Proofs.Queue.Deadlines
import ClusterBackup.Proofs.Queue.Refinement
/-!
# Keys that are due are not overtaken

From the moment at which a key is due in a queue until it is given or discarded, only keys that
were queued before it then are given, each of them once, and nobody who asks for a key comes away
with none. What is added in the meantime must not be due at that moment already: it has a delay, or
the clock has gone on. `Agenda.Since` is the invariant behind this. It is stated for agendas, which
queues stand for.

Any number of threads may use the queue. One that waits for a key looks at the queue, lets the
others at it, and looks again.
-/

namespace ClusterBackup

namespace Agenda

variable {a a₀ : Agenda} {t due now delay : Rat} {j k : TextKey} {given : List TextKey}

theorem exists_first?_le (h : a.lookup j = some due) :
    ∃ d k, a.first? = some (d, k) ∧ toLex (d, toLex k) ≤ toLex (due, toLex j) := by
  have hmem : toLex (due, toLex j) ∈ a.slots.sort := by
    rw [Multiset.mem_sort, mem_slots]
    exact h
  unfold first?
  cases hs : a.slots.sort with
  | nil => simp [hs] at hmem
  | cons s rest =>
    have hsorted := a.slots.pairwise_sort (· ≤ ·)
    rw [hs] at hmem hsorted
    refine ⟨_, _, rfl, ?_⟩
    rcases List.mem_cons.1 hmem with heq | hrest
    · exact heq.ge
    · exact (List.pairwise_cons.1 hsorted).1 _ hrest

theorem take_of_due (h : a.lookup j = some due) (hdue : due ≤ now) (timeout : Option Rat) :
    ∃ d k, a.first? = some (d, k) ∧ d ≤ now ∧
      a.take now timeout = (.ok (some k), a.erase k, now) := by
  obtain ⟨d, k, hfirst, hle⟩ := exists_first?_le h
  have hd : d ≤ now := (Prod.Lex.monotone_fst _ _ hle).trans hdue
  refine ⟨d, k, hfirst, hd, ?_⟩
  unfold take
  rw [hfirst]
  cases timeout with
  | none => simp [hd]
  | some seconds => simp [hd]

/-- An addition leaves a deadline as it was, or sets the one that it is made for. -/
theorem lookup_add_cases (a : Agenda) (now : Rat) (k l : TextKey) (delay : Rat) :
    (a.add now k delay).lookup l = a.lookup l ∨
      k = l ∧ (a.add now k delay).lookup l = some (now + max 0 delay) ∧
        ∀ d, a.lookup k = some d → now + max 0 delay < d := by
  have hinsert : (∀ d, a.lookup k = some d → now + max 0 delay < d) →
      (a.insert k (now + max 0 delay)).lookup l = a.lookup l ∨
        k = l ∧ (a.insert k (now + max 0 delay)).lookup l = some (now + max 0 delay) ∧
          ∀ d, a.lookup k = some d → now + max 0 delay < d := by
    intro hlater
    rw [lookup_insert_ite]
    by_cases hkl : k = l
    · exact .inr ⟨hkl, if_pos hkl, hlater⟩
    · exact .inl (if_neg hkl)
  unfold add
  cases hk : a.lookup k with
  | none => simpa only [hk] using hinsert (by simp [hk])
  | some current =>
    by_cases hle : current ≤ now + max 0 delay
    · exact .inl (by simp [hle])
    · simpa only [hk, if_neg hle] using hinsert (by simpa [hk] using hle)

/-! ## The invariant -/

/-- What has become of an agenda since a time at which a key was due, while other keys were
given. -/
structure Since (a₀ : Agenda) (t due : Rat) (j : TextKey) (given : List TextKey) (now : Rat)
    (a : Agenda) : Prop where
  clock : t ≤ now
  kept : a.lookup j = some due
  /-- What was due at that time has been there since then, and was not given. -/
  old : ∀ k d, a.lookup k = some d → d ≤ t → a₀.lookup k = some d ∧ k ∉ given
  distinct : given.Nodup
  ahead : ∀ k ∈ given, ∃ d, a₀.lookup k = some d ∧ toLex (d, toLex k) < toLex (due, toLex j)

namespace Since

theorem refl (h : a₀.lookup j = some due) : Since a₀ t due j [] t a₀ where
  clock := le_rfl
  kept := h
  old k d hk _ := ⟨hk, List.not_mem_nil⟩
  distinct := .nil
  ahead k hk := by cases hk

theorem pass (h : Since a₀ t due j given now a) {later : Rat} (hlater : now ≤ later) :
    Since a₀ t due j given later a :=
  { h with clock := h.clock.trans hlater }

theorem erase (h : Since a₀ t due j given now a) (hk : k ≠ j) :
    Since a₀ t due j given now (a.erase k) where
  clock := h.clock
  kept := by
    rw [lookup_erase_ite, if_neg hk]
    exact h.kept
  old l d hl hd := by
    rw [lookup_erase_ite] at hl
    split at hl
    · cases hl
    · exact h.old l d hl hd
  distinct := h.distinct
  ahead := h.ahead

theorem add (h : Since a₀ t due j given now a) (hdue : due ≤ t) (k : TextKey)
    (hnew : 0 < delay ∨ t < now) : Since a₀ t due j given now (a.add now k delay) := by
  have hlater : t < now + max 0 delay := by
    rcases hnew with hdelay | hclock
    · calc t ≤ now := h.clock
        _ < now + delay := lt_add_of_pos_right now hdelay
        _ ≤ now + max 0 delay := by gcongr; exact le_max_right 0 delay
    · exact hclock.trans_le (le_add_of_nonneg_right (le_max_left 0 delay))
  refine ⟨h.clock, ?_, fun l d hl hd => ?_, h.distinct, h.ahead⟩
  · rcases lookup_add_cases a now k j delay with hkept | ⟨rfl, -, hbefore⟩
    · rw [hkept, h.kept]
    · exact absurd (hbefore due h.kept) (not_lt.2 (hdue.trans hlater.le))
  · rcases lookup_add_cases a now k l delay with hkept | ⟨-, hset, -⟩
    · exact h.old l d (hkept ▸ hl) hd
    · rw [hset] at hl
      obtain rfl := Option.some.inj hl
      exact absurd hd (not_le.2 hlater)

theorem give (h : Since a₀ t due j given now a) (hdue : due ≤ t) {d : Rat}
    (hfirst : a.first? = some (d, k)) (hk : k ≠ j) :
    Since a₀ t due j (given ++ [k]) now (a.erase k) := by
  obtain ⟨d', k', hfirst', hle⟩ := exists_first?_le h.kept
  obtain ⟨rfl, rfl⟩ : d' = d ∧ k' = k := by simpa using hfirst'.symm.trans hfirst
  -- It comes no later than the one that was due, so it was due then too, and has been there since.
  have hd : d' ≤ t := (Prod.Lex.monotone_fst _ _ hle).trans hdue
  obtain ⟨hold, hnew⟩ := h.old k' d' (lookup_of_first? hfirst) hd
  have hlt : toLex (d', toLex k') < toLex (due, toLex j) :=
    lt_of_le_of_ne hle fun heq =>
      hk (toLex.injective (Prod.mk.inj (toLex.injective heq)).2)
  have herased := h.erase hk
  refine ⟨h.clock, herased.kept, fun l e hl he => ?_, ?_, ?_⟩
  · obtain ⟨hl₀, hnot⟩ := herased.old l e hl he
    refine ⟨hl₀, ?_⟩
    rw [lookup_erase_ite] at hl
    split at hl
    · cases hl
    · rename_i hne
      simpa [hnot] using fun heq => hne heq.symm
  · exact List.nodup_append_comm.1 (List.nodup_cons.2 ⟨hnew, h.distinct⟩)
  · intro l hl
    rcases List.mem_append.1 hl with hl | hl
    · exact h.ahead l hl
    · obtain rfl := List.mem_singleton.1 hl
      exact ⟨d', hold, hlt⟩

theorem length_lt (h : Since a₀ t due j given now a) (hj : a₀.lookup j = some due) :
    given.length < a₀.keys.card := by
  have hmem : ∀ {k d}, a₀.lookup k = some d → k ∈ a₀.keys := by
    intro k d hk
    rw [Finmap.mem_keys, ← Finmap.lookup_isSome, hk]
    rfl
  -- The key that was due is one more than those that are given.
  have hnot : j ∉ given.toFinset := by
    rw [List.mem_toFinset]
    intro hgiven
    obtain ⟨d, hd, hlt⟩ := h.ahead j hgiven
    obtain rfl : due = d := Option.some.inj (hj.symm.trans hd)
    exact hlt.false
  have hsub : insert j given.toFinset ⊆ a₀.keys := by
    rw [Finset.insert_subset_iff]
    refine ⟨hmem hj, fun k hk => ?_⟩
    obtain ⟨d, hd, -⟩ := h.ahead k (List.mem_toFinset.1 hk)
    exact hmem hd
  calc given.length = given.toFinset.card := (List.toFinset_card_of_nodup h.distinct).symm
    _ < (insert j given.toFinset).card := by rw [Finset.card_insert_of_notMem hnot]; omega
    _ ≤ a₀.keys.card := Finset.card_le_card hsub

end Since

end Agenda

namespace Queue

variable {q : Queue Rat ObjectKey} {a : Agenda}

/-- A look gives the first key if it is due, and nothing otherwise. -/
theorem Represents.look (h : Represents q a) (now : Rat) (giveUp : Option Rat) :
    (∃ d k, a.first? = some (d, k) ∧ d ≤ now ∧
        (q.look now giveUp).1 = some (.ok (some k.key)) ∧
        Represents (q.look now giveUp).2 (a.erase k)) ∨
      (∀ d k, a.first? = some (d, k) → now < d) ∧
        (q.look now giveUp).1 = (if isOver now giveUp then some (.ok none) else none) ∧
        Represents (q.look now giveUp).2 a := by
  obtain ⟨hordered, hlinked, hsettled, hdeadlines⟩ := h.linked.clean Seconds.measured_rat
  have hclean : Represents q.clean.2 a := h.of_deadlines hlinked hdeadlines
  unfold Queue.look
  rcases hc : q.clean with ⟨ordered, c⟩
  rw [hc] at hordered hclean hsettled
  obtain rfl : ordered = true := hordered
  cases ht : c.heap.top? with
  | none =>
    refine .inr ⟨fun d k hfirst => ?_, ?_, ?_⟩
    · rw [hclean.first?_of_empty ht] at hfirst
      cases hfirst
    · simp [dueKey?_of_empty ht]
    · simpa [dueKey?_of_empty ht] using hclean
  | some e =>
    obtain ⟨k, hkey, hfirst⟩ := hclean.first?_of_top hsettled ht
    by_cases hdue : e.due ≤ now
    · obtain ⟨hfound, hlinked, hdeadlines⟩ := hclean.linked.takeTop Seconds.measured_rat ht
      rw [hkey] at hfound hlinked hdeadlines
      refine .inl ⟨e.due, k, hfirst, hdue, ?_, ?_⟩
      · simp [dueKey?_of_top ht, hdue, hkey, hfound]
      · simpa [dueKey?_of_top ht, hdue, hkey] using
          (hclean.discard k).of_deadlines hlinked hdeadlines
    · refine .inr ⟨fun d k' hfirst' => ?_, ?_, ?_⟩
      · obtain ⟨rfl, rfl⟩ : e.due = d ∧ k = k' := by simpa using hfirst.symm.trans hfirst'
        exact not_le.1 hdue
      · simp [dueKey?_of_top ht, hdue]
      · simpa [dueKey?_of_top ht, hdue] using hclean

/-! ## Runs -/

structure Clocked where
  now : Rat
  queue : Queue Rat ObjectKey

inductive Move where
  | passed
  | added (now : Rat) (key : TextKey) (delay : Rat)
  | discarded (key : TextKey)
  | looked (found : Option (Except Breakdown (Option ObjectKey)))
  | taken (found : Except Breakdown (Option ObjectKey))

namespace Move

def given? : Move → Option ObjectKey
  | looked (some (.ok k?)) => k?
  | taken (.ok k?) => k?
  | _ => none

def asks : Move → Bool
  | looked _ => true
  | taken _ => true
  | _ => false

end Move

/-- A single step: time passes, a key is added or discarded, somebody who waits for a key looks at
the queue, or a whole wait goes by with nothing in between. -/
inductive Clocked.Step : Clocked → Move → Clocked → Prop where
  | pass {s : Clocked} {now : Rat} (hnow : s.now ≤ now) : Step s .passed { s with now }
  | add {s : Clocked} (key : TextKey) (delay : Rat) :
    Step s (.added s.now key delay) { s with queue := (s.queue.add s.now key.key delay).2 }
  | discard {s : Clocked} (key : TextKey) :
    Step s (.discarded key) { s with queue := s.queue.discard key.key }
  | look {s : Clocked} (giveUp : Option Rat) :
    Step s (.looked (s.queue.look s.now giveUp).1)
      { s with queue := (s.queue.look s.now giveUp).2 }
  | take {s : Clocked} (timeout : Option Rat) :
    Step s (.taken (s.queue.take s.now timeout).found)
      ⟨(s.queue.take s.now timeout).now, (s.queue.take s.now timeout).queue⟩

inductive Clocked.Run : Clocked → List Move → Clocked → Prop where
  | refl {s : Clocked} : Run s [] s
  | step {s t u : Clocked} {m : Move} {h : List Move} (hstep : Step s m t) (hrest : Run t h u) :
    Run s (m :: h) u

def turns (h : List Move) : List ObjectKey := h.filterMap Move.given?

theorem turns_cons (m : Move) (h : List Move) : turns (m :: h) = m.given?.toList ++ turns h := by
  unfold turns
  rw [List.filterMap_cons]
  cases m.given? <;> rfl

variable {s t u : Clocked} {m : Move} {h before after : List Move}

theorem Clocked.Step.represents (hstep : Step s m u) (hs : Represents s.queue a) :
    ∃ b, Represents u.queue b := by
  cases hstep with
  | pass => exact ⟨a, hs⟩
  | add key delay => exact ⟨_, (hs.add s.now key delay).2⟩
  | discard key => exact ⟨_, hs.discard key⟩
  | look giveUp =>
    rcases hs.look s.now giveUp with ⟨d, k, -, -, -, hrep⟩ | ⟨-, -, hrep⟩
    · exact ⟨_, hrep⟩
    · exact ⟨_, hrep⟩
  | take timeout => exact ⟨_, (hs.take s.now timeout).represents⟩

theorem Clocked.Run.trans (hrun : Run s before t) (hrest : Run t after u) :
    Run s (before ++ after) u := by
  induction hrun with
  | refl => exact hrest
  | step hstep _ ih => exact .step hstep (ih hrest)

/-- In every run a queue stands for an agenda if it did so at first. -/
theorem Clocked.Run.represents (hrun : Run s h u) (hs : Represents s.queue a) :
    ∃ b, Represents u.queue b := by
  induction hrun generalizing a with
  | refl => exact ⟨a, hs⟩
  | step hstep _ ih =>
    obtain ⟨b, hb⟩ := hstep.represents hs
    exact ih hb

section

variable {a₀ : Agenda} {t due : Rat} {j : TextKey} {given : List TextKey}

/-- A step keeps what is known since a key was due, if it neither gives nor discards that key and
adds none that was due then. Who asks for a key is given one. -/
theorem Clocked.Step.since (hstep : Step s m u) (hs : Represents s.queue a)
    (hsince : a₀.Since t due j given s.now a) (hdue : due ≤ t) (hgiven : m.given? ≠ some j.key)
    (hdiscard : m ≠ .discarded j)
    (hadd : ∀ now k delay, m = .added now k delay → 0 < delay ∨ t < now) :
    ∃ b more, Represents u.queue b ∧ a₀.Since t due j (given ++ more) u.now b ∧
      m.given?.toList = more.map TextKey.key ∧ (m.asks = true → m.given?.isSome = true) := by
  have hnow : due ≤ s.now := hdue.trans hsince.clock
  cases hstep with
  | pass hlater =>
    exact ⟨a, [], hs, by simpa using hsince.pass hlater, rfl, nofun⟩
  | add k delay =>
    exact ⟨_, [], (hs.add s.now k delay).2, by simpa using hsince.add hdue k (hadd _ _ _ rfl), rfl,
      nofun⟩
  | discard k =>
    have hk : k ≠ j := fun heq => hdiscard (congrArg Move.discarded heq)
    exact ⟨_, [], hs.discard k, by simpa using hsince.erase hk, rfl, nofun⟩
  | look giveUp =>
    rcases hs.look s.now giveUp with ⟨d, k, hfirst, -, hfound, hrep⟩ | ⟨hlater, -⟩
    · rw [hfound] at hgiven ⊢
      have hk : k ≠ j := fun heq => hgiven (by rw [heq]; rfl)
      exact ⟨_, [k], hrep, hsince.give hdue hfirst hk, rfl, fun _ => rfl⟩
    · -- There is something to give: what comes first is due if any key is.
      obtain ⟨d, k, hfirst, hle⟩ := Agenda.exists_first?_le hsince.kept
      have hd : d ≤ s.now := (Prod.Lex.monotone_fst _ _ hle).trans hnow
      exact absurd hd (not_le.2 (hlater d k hfirst))
  | take timeout =>
    obtain ⟨d, k, hfirst, -, htake⟩ := Agenda.take_of_due hsince.kept hnow timeout
    obtain ⟨hfound, hrep, hclock⟩ := hs.take s.now timeout
    rw [htake] at hfound hrep hclock
    dsimp only at hfound hrep hclock
    rw [hfound] at hgiven ⊢
    rw [hclock]
    have hk : k ≠ j := fun heq => hgiven (by rw [heq]; rfl)
    exact ⟨_, [k], hrep, hsince.give hdue hfirst hk, rfl, fun _ => rfl⟩

theorem Clocked.Run.since (hrun : Run s h u) (hs : Represents s.queue a)
    (hsince : a₀.Since t due j given s.now a) (hdue : due ≤ t)
    (hgiven : j.key ∉ turns h) (hdiscard : .discarded j ∉ h)
    (hadd : ∀ now k delay, .added now k delay ∈ h → 0 < delay ∨ t < now) :
    ∃ b more, a₀.Since t due j (given ++ more) u.now b ∧ turns h = more.map TextKey.key ∧
      ∀ m ∈ h, m.asks = true → m.given?.isSome = true := by
  induction hrun generalizing a given with
  | refl => exact ⟨a, [], by simpa using hsince, rfl, nofun⟩
  | @step s t u m h hstep _ ih =>
    rw [turns_cons, List.mem_append, not_or] at hgiven
    obtain ⟨b, more, hb, hsince, hmore, hasks⟩ := hstep.since hs hsince hdue
      (fun heq => hgiven.1 (by simp [heq])) (fun heq => hdiscard (heq ▸ List.mem_cons_self))
      (fun now k delay heq => hadd now k delay (heq ▸ List.mem_cons_self))
    obtain ⟨c, rest, hsince, hrest, hall⟩ := ih hb hsince hgiven.2
      (fun hmem => hdiscard (List.mem_cons_of_mem _ hmem))
      (fun now k delay hmem => hadd now k delay (List.mem_cons_of_mem _ hmem))
    refine ⟨c, more ++ rest, by rwa [← List.append_assoc], ?_, ?_⟩
    · rw [turns_cons, hmore, hrest, List.map_append]
    · simpa using ⟨hasks, hall⟩

end

/-- Keys that are given while a key is due: no one twice, and only those that came before it when it
was due. -/
structure KeepsOrder (q : Queue Rat ObjectKey) (due : Rat) (j : TextKey) (given : List ObjectKey) :
    Prop where
  distinct : given.Nodup
  ahead : ∀ k ∈ given, ∃ (l : TextKey) (d : Rat), k = l.key ∧ q.deadline? k = some d ∧
    toLex (d, toLex l) < toLex (due, toLex j)

/-- In every run of a queue, from any moment at which a key is due until it is given or discarded,
no other key is given twice, and none that was not queued at that moment, provided that what is
added has a delay or is added later. Who asks for a key is given one, so the key that is due can
only be kept waiting as often as there are other keys. -/
theorem Clocked.Run.keepsOrder {start : Rat} (hbefore : Run ⟨start, .empty⟩ before s)
    (hafter : Run s after u) {j : TextKey} {due : Rat}
    (hj : s.queue.deadline? j.key = some due) (hdue : due ≤ s.now)
    (hgiven : j.key ∉ turns after) (hdiscard : .discarded j ∉ after)
    (hadd : ∀ now k delay, .added now k delay ∈ after → 0 < delay ∨ s.now < now) :
    KeepsOrder s.queue due j (turns after) ∧
      (∀ m ∈ after, m.asks = true → m.given?.isSome = true) ∧
      (turns after).length < s.queue.size := by
  obtain ⟨a, ha⟩ := hbefore.represents Represents.empty
  have hlookup : a.lookup j = some due := by rw [← ha.lookup, hj]
  obtain ⟨b, given, hsince, hturns, hserved⟩ :=
    hafter.since ha (.refl hlookup) hdue hgiven hdiscard hadd
  rw [List.nil_append] at hsince
  rw [hturns, List.length_map, ha.size]
  refine ⟨⟨hsince.distinct.map TextKey.key_injective, fun k hk => ?_⟩, hserved,
    hsince.length_lt hlookup⟩
  obtain ⟨l, hl, rfl⟩ := List.mem_map.1 hk
  obtain ⟨d, hd, hlt⟩ := hsince.ahead l hl
  exact ⟨l, d, rfl, by rw [ha.lookup, hd], hlt⟩

end Queue

end ClusterBackup
