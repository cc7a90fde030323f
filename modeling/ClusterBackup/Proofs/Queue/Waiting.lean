import ClusterBackup.Proofs.Queue.Linked
/-!
# Waits

One round of a wait for a key on a queue whose entry on top counts: the key is taken, the wait is
over, or it goes on. The clean-up at the start of a round changes nothing on such a queue.
-/

namespace ClusterBackup.Queue

variable {τ β : Type} [Seconds τ] [LinearOrder β] {value : τ → β} {IsTime : τ → Prop}
variable {q : Queue τ ObjectKey} {n : Nat} {now : τ} {giveUp : Option τ} {waits : List τ}

theorem dueKey?_of_top {e : Entry τ ObjectKey} (he : q.heap.top? = some e) :
    q.dueKey? now = if Seconds.le e.due now then some e.key else none := by
  simp [dueKey?, he]

theorem dueKey?_of_empty (ht : q.heap.top? = none) : q.dueKey? now = none := by
  simp [dueKey?, ht]

theorem Linked.await_clean (hm : Seconds.Measured value IsTime) (hl : Linked value IsTime q) :
    q.await (n + 1) now giveUp waits = q.clean.2.await (n + 1) now giveUp waits := by
  obtain ⟨hordered, -, hsettled, -⟩ := hl.clean hm
  have hclean : q.clean = (true, q.clean.2) := Prod.ext hordered rfl
  unfold await
  rw [hsettled.clean]
  generalize q.clean.2 = c at hclean
  rw [hclean]

theorem Settled.await_of_due {k : ObjectKey} (hs : q.Settled) (hk : q.dueKey? now = some k) :
    q.await (n + 1) now giveUp waits = ⟨(q.takeTop k).1, (q.takeTop k).2, now, waits⟩ := by
  unfold await
  simp [hs.clean, hk]

theorem Settled.await_of_over (hs : q.Settled) (hk : q.dueKey? now = none)
    (ho : isOver now giveUp = true) :
    q.await (n + 1) now giveUp waits = ⟨.ok none, q, now, waits⟩ := by
  unfold await
  simp [hs.clean, hk, ho]

theorem Settled.await_of_idle (hs : q.Settled) (ht : q.heap.top? = none) :
    q.await (n + 1) now none waits = ⟨.error .idleForEver, q, now, waits⟩ := by
  unfold await
  simp [hs.clean, dueKey?_of_empty ht, isOver, ht, waitFor?]

theorem Settled.await_of_wait {wait : τ} (hs : q.Settled) (hk : q.dueKey? now = none)
    (ho : isOver now giveUp = false) (hw : waitFor? now q.heap.top? giveUp = some wait) :
    q.await (n + 1) now giveUp waits = q.await n (now + wait) giveUp (waits ++ [wait]) := by
  conv_lhs => unfold await
  simp [hs.clean, hk, ho, hw]

end ClusterBackup.Queue
