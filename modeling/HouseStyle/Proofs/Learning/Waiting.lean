import HouseStyle.Proofs.Learning.Exclusive
import HouseStyle.Proofs.Learning.Priority

/-!
# Waiting for what was submitted

A caller that has submitted changes waits until nothing is outstanding. By then its changes have
left the queue, unless another caller has scheduled the project and has not counted its ticket yet:
a project that is scheduled by others gets no second ticket, and a ticket that is not counted is
not waited for.
-/

namespace HouseStyle

namespace ChangeQueue

variable {queue later : ChangeQueue} {trigger : Trigger} {batch : ChangeBatch} {limit : Nat}

lemma pushAll_advances (trigger : Trigger) (queue : ChangeQueue) (changes : List FileChange) :
    Advances queue (pushAll trigger queue changes) := by
  induction changes generalizing queue with
  | nil => exact .refl queue
  | cons change changes ih =>
    exact (queue.push_advances change trigger).trans (ih (queue.push change trigger))

lemma clear_advances (queue : ChangeQueue) : Advances queue queue.clear :=
  (Advances.refl queue).sublist rfl (List.nil_sublist _)

lemma drain?_sublist (hdrain : queue.drain? limit = some (batch, later)) :
    later.nextOrder = queue.nextOrder ∧ later.pending.Sublist queue.pending := by
  obtain ⟨top, -, -, rfl⟩ := drain?_eq_some.mp hdrain
  exact ⟨rfl, List.filter_sublist⟩

lemma Numbered.pushAll (numbered : queue.Numbered) (changes : List FileChange) :
    (pushAll trigger queue changes).Numbered := by
  induction changes generalizing queue with
  | nil => exact numbered
  | cons change changes ih => exact ih (numbered.push change trigger)

/-- Since a queue was empty, only new entries have come in. -/
lemma Advances.notMem_of_empty {mid : ChangeQueue} {entry : PendingChange}
    (numbered : queue.Numbered) (hentry : entry ∈ queue.pending) (one : Advances queue mid)
    (hempty : mid.pending = []) (two : Advances mid later) : entry ∉ later.pending := by
  intro hlater
  have hold := numbered.orders entry hentry
  have hnext := one.next
  rcases two.places entry hlater with ⟨old, hmid, -⟩ | ⟨hlow, -⟩
  · simp [hempty] at hmid
  · omega

end ChangeQueue

namespace Pool

variable {ι ω π : Type} [DecidableEq ι] [DecidableEq ω] [DecidableEq π] {limit : Nat}
  {pool mid after final : Pool ι ω π} {project : π} {caller : ι} {worker : ω}
  {move : PoolStep ι ω π} {moves : List (PoolStep ι ω π)} {entry : PendingChange}

/-! ## The queue along a run -/

lemma Takes.advances (takes : pool.Takes limit move after) (project : π) :
    (pool.work project).queue.Advances (after.work project).queue := by
  rcases takes.queue project with ⟨hsame, -⟩ | ⟨-, -, hfilled⟩ | ⟨-, hcleared⟩ | ⟨-, hdrain, -⟩
  · exact hsame ▸ .refl _
  · exact hfilled ▸ ChangeQueue.pushAll_advances _ _ _
  · exact hcleared ▸ ChangeQueue.clear_advances _
  · obtain ⟨hnext, hsublist⟩ := ChangeQueue.drain?_sublist hdrain
    exact (ChangeQueue.Advances.refl _).sublist hnext hsublist

lemma Takes.numbered (takes : pool.Takes limit move after)
    (numbered : (pool.work project).queue.Numbered) : (after.work project).queue.Numbered := by
  rcases takes.queue project with ⟨hsame, -⟩ | ⟨-, -, hfilled⟩ | ⟨-, hcleared⟩ | ⟨-, hdrain, -⟩
  · exact hsame ▸ numbered
  · exact hfilled ▸ numbered.pushAll _
  · exact hcleared ▸ numbered.sublist rfl (List.nil_sublist _)
  · obtain ⟨hnext, hsublist⟩ := ChangeQueue.drain?_sublist hdrain
    exact numbered.sublist hnext hsublist

lemma Takes.drained_prefix (takes : pool.Takes limit move after) (project : π) :
    pool.drained project <+: after.drained project := by
  cases takes with
  | @drain worker there batch queue hworker hdrain =>
    simp only [putWorker, putDrained, Function.update_apply]
    split
    · next h => exact h ▸ List.prefix_append _ _
    · exact List.prefix_rfl
  | submit | claim | leave | count | send | cancel | receive | empty | learn | release | refill
  | done | reclaim | yield | finish => exact List.prefix_rfl

lemma Run.advances (run : Run limit pool moves after) (project : π) :
    (pool.work project).queue.Advances (after.work project).queue := by
  induction run with
  | nil => exact .refl _
  | cons takes _ ih => exact (takes.advances project).trans ih

lemma Run.numbered (run : Run limit pool moves after)
    (numbered : (pool.work project).queue.Numbered) : (after.work project).queue.Numbered := by
  induction run with
  | nil => exact numbered
  | cons takes _ ih => exact ih (takes.numbered numbered)

lemma Run.drained_prefix (run : Run limit pool moves after) (project : π) :
    pool.drained project <+: after.drained project := by
  induction run with
  | nil => exact List.prefix_rfl
  | cons takes _ ih => exact (takes.drained_prefix project).trans ih

/-- A project that a caller was about to schedule, or that was awake, has had an empty queue when
neither is so any more. -/
lemma Run.emptied (run : Run limit pool moves final)
    (h : pool.caller caller = some (.queued project) ∨ pool.Awake project)
    (hcaller : final.caller caller ≠ some (.queued project)) (hawake : ¬ final.Awake project) :
    ∃ front back mid, moves = front ++ back ∧ Run limit pool front mid ∧
      Run limit mid back final ∧ (mid.work project).queue.pending = [] := by
  induction run with
  | nil => exact absurd h (not_or.mpr ⟨hcaller, hawake⟩)
  | @cons pool mid after move moves takes rest ih =>
    have next : (mid.caller caller = some (.queued project) ∨ mid.Awake project) ∨
        (mid.work project).queue.pending = [] := by
      rcases h with hqueued | hawake
      · exact .inl ((takes.queued hqueued).imp_right .inl)
      · exact (takes.awake hawake).imp_left .inr
    rcases next with hnext | hempty
    · obtain ⟨front, back, there, rfl, hfront, hback, hempty⟩ := ih hnext hcaller hawake
      exact ⟨move :: front, back, there, rfl, .cons takes hfront, hback, hempty⟩
    · exact ⟨[move], moves, mid, rfl, .cons takes (.nil _), rest, hempty⟩

/-! ## How an entry leaves a queue -/

/-- One step of a run takes an entry out of the queue of a project. -/
structure Leaves (limit : Nat) (pool : Pool ι ω π) (moves : List (PoolStep ι ω π))
    (final : Pool ι ω π) (project : π) (entry : PendingChange) (move : PoolStep ι ω π)
    (mid next : Pool ι ω π) : Prop where
  split : ∃ front back, moves = front ++ move :: back ∧ Run limit pool front mid ∧
    Run limit next back final
  takes : mid.Takes limit move next
  pending : entry ∈ (mid.work project).queue.pending
  gone : entry ∉ (next.work project).queue.pending

lemma Run.exists_leaves (run : Run limit pool moves final)
    (hentry : entry ∈ (pool.work project).queue.pending)
    (hgone : entry ∉ (final.work project).queue.pending) :
    ∃ move mid next, Leaves limit pool moves final project entry move mid next := by
  induction run with
  | nil => exact absurd hentry hgone
  | @cons pool mid after move moves takes rest ih =>
    by_cases hmid : entry ∈ (mid.work project).queue.pending
    · obtain ⟨last, there, next, leaves⟩ := ih hmid hgone
      obtain ⟨front, back, rfl, hfront, hback⟩ := leaves.split
      exact ⟨last, there, next, ⟨move :: front, back, rfl, .cons takes hfront, hback⟩,
        leaves.takes, leaves.pending, leaves.gone⟩
    · exact ⟨move, pool, mid, ⟨[], moves, rfl, .nil _, rest⟩, takes, hentry, hmid⟩

/-- What has become of an entry that has left the queue. -/
inductive Fate (limit : Nat) (pool : Pool ι ω π) (moves : List (PoolStep ι ω π))
    (final : Pool ι ω π) (project : π) (entry : PendingChange) : Prop where
  /-- It was drained in a batch that has been learned by the end. -/
  | learned {worker : ω} {batch : ChangeBatch} {context : WorkContext} {mid next : Pool ι ω π} :
    Leaves limit pool moves final project entry (.drain worker) mid next →
    next.drained project = mid.drained project ++ [batch] → entry.change ∈ batch.changes →
    (context, batch) ∈ final.learned project → Fate limit pool moves final project entry
  | superseded {caller : ι} {changes : List FileChange} {trigger : Trigger}
    {mid next : Pool ι ω π} :
    Leaves limit pool moves final project entry (.submit caller project changes trigger) mid next →
    Fate limit pool moves final project entry
  | cancelled {mid next : Pool ι ω π} :
    Leaves limit pool moves final project entry (.cancel project) mid next →
    Fate limit pool moves final project entry

lemma Leaves.fate {next : Pool ι ω π}
    (leaves : Leaves limit pool moves final project entry move mid next)
    (numbered : (pool.work project).queue.Numbered)
    (settled : final.drained project = (final.learned project).map (·.2)) :
    Fate limit pool moves final project entry := by
  obtain ⟨front, back, hmoves, hfront, hback⟩ := leaves.split
  rcases leaves.takes.queue project with ⟨hsame, -⟩ | ⟨rfl, -, -⟩ | ⟨rfl, -⟩ |
    ⟨rfl, hdrain, hdrained⟩
  · exact absurd (hsame ▸ leaves.pending) leaves.gone
  · exact .superseded leaves
  · exact .cancelled leaves
  · have hnodup := (hfront.numbered numbered).nodup
    have hstays := ChangeQueue.drain?_stays_or_handed hdrain hnodup leaves.pending
    have hearlier := (hback.drained_prefix project).subset
    rw [settled, hdrained] at hearlier
    obtain ⟨⟨context, batch⟩, hlearned, rfl⟩ :=
      List.mem_map.mp (hearlier (List.mem_append_right _ List.mem_cons_self))
    exact .learned leaves hdrained (not_not.mp (mt hstays.mpr leaves.gone)) hlearned

/-! ## Waiting -/

/-- A caller submits changes, and waits afterwards until nothing is outstanding. If no other caller
has scheduled the project by then without having counted its ticket, all that was pending after the
submit has left the queue: it has been learned, superseded or cancelled. Nothing is being learned
any more. -/
theorem submit_settled {stores : π → PatternStore} {before : List (PoolStep ι ω π)}
    {queued : Pool ι ω π} {changes : List FileChange} {trigger : Trigger}
    (earlier : Run limit (start stores) before pool)
    (submit : pool.Takes limit (.submit caller project changes trigger) queued)
    (later : Run limit queued moves final) (returned : final.caller caller = none)
    (idle : final.outstanding = 0)
    (unclaimed : ∀ other, final.caller other ≠ some (.claimed project)) :
    (∀ change ∈ changes, Path.normalize change.path ∈ (queued.work project).queue.paths) ∧
    (∀ worker, final.worker worker = none) ∧
    ∀ entry ∈ (queued.work project).queue.pending,
      entry ∉ (final.work project).queue.pending ∧
        Fate limit queued moves final project entry := by
  obtain ⟨hqueued, hpaths⟩ : queued.caller caller = some (.queued project) ∧
      ∀ change ∈ changes, Path.normalize change.path ∈ (queued.work project).queue.paths := by
    cases submit with
    | submit _ _ _ hcaller =>
      refine ⟨putCaller_self _ _ _, ?_⟩
      simp only [putCaller, putQueue, Function.update_self]
      exact (ChangeQueue.pushAll_grown trigger _ changes).2
  have sound := later.sound (submit.sound (earlier.sound (sound_start stores)))
  obtain ⟨hworkers, hclaimed⟩ := sound.quiet idle
  -- nobody is left to schedule the project or to look at its queue
  have hasleep : ¬ final.Awake project := by
    rintro (hscheduled | ⟨worker, hleaving⟩)
    · obtain ⟨other, hother⟩ := hclaimed project hscheduled
      exact unclaimed other hother
    · simp [Leaving, hworkers] at hleaving
  obtain ⟨front, back, mid, -, hfront, hback, hempty⟩ :=
    later.emptied (.inl hqueued) (by simp [returned]) hasleep
  have numbered : (queued.work project).queue.Numbered :=
    submit.numbered (earlier.numbered ChangeQueue.numbered_empty)
  have settled : final.drained project = (final.learned project).map (·.2) :=
    (sound.recorded project).between (by simp [hworkers])
  refine ⟨hpaths, hworkers, fun entry hentry => ?_⟩
  have hgone := (hfront.advances project).notMem_of_empty numbered hentry hempty
    (hback.advances project)
  obtain ⟨move, there, next, leaves⟩ := later.exists_leaves hentry hgone
  exact ⟨hgone, leaves.fate numbered settled⟩

/-! One caller submits the addition of a file, and a worker learns it. -/

theorem sampleStart_settled : ∃ queued moves final,
    sampleStart.Takes sampleEager.policy.batchFiles (.submit () () [.added "a.ts"] .watch) queued ∧
    Run sampleEager.policy.batchFiles queued moves final ∧ final.caller () = none ∧
    final.outstanding = 0 ∧
    ∀ entry ∈ (queued.work ()).queue.pending, entry ∉ (final.work ()).queue.pending ∧
      Fate sampleEager.policy.batchFiles queued moves final () entry := by
  have hcaller : sampleStart.caller () = none := rfl
  have hworker : sampleStart.worker false = none := rfl
  have hfree : sampleStart.isScheduled () = false := rfl
  have hopen : sampleEager.isHeld = false := rfl
  obtain ⟨moves, final, run, went⟩ :=
    exists_submit_alone hopen hcaller hworker rfl hfree rfl .nil [.added "a.ts"] .watch
  have returned : final.caller () = none := by rw [went.caller, hcaller]
  have idle : final.outstanding = 0 := went.outstanding
  cases run with
  | @cons _ queued _ _ _ submit later =>
    obtain ⟨-, -, settled⟩ := submit_settled (.nil _) submit later returned idle (by
      rintro ⟨⟩
      simp [returned])
    exact ⟨queued, moves, final, submit, later, returned, idle, settled⟩

/-! Two callers submit changes of one project. The first has scheduled it when the second comes, so
the second returns at once; and the ticket of the first is not counted yet. -/

def sampleQueued : Pool Bool Unit Unit :=
  ((start fun _ => .empty).putQueue () (.pushAll .watch .empty [.added "a.ts"])).putCaller false
    (some (.queued ()))

/-- The first caller has scheduled the only project. -/
def sampleClaimed : Pool Bool Unit Unit :=
  (sampleQueued.setScheduled () true).putCaller false (some (.claimed ()))

lemma sampleClaimed_run : Run 10 (start fun _ => .empty)
    [.submit false () [.added "a.ts"] .watch, .claim false] sampleClaimed := by
  have hqueued : sampleQueued.caller false = some (.queued ()) := putCaller_self _ _ _
  exact .cons (.submit () _ _ rfl) (.cons (.claim hqueued rfl) (.nil _))

theorem sampleCallers_pending : ¬ ∀ (stores : Unit → PatternStore)
    (before moves : List (PoolStep Bool Unit Unit)) (pool queued final : Pool Bool Unit Unit)
    (caller : Bool) (changes : List FileChange) (trigger : Trigger),
    Run 10 (start stores) before pool →
    pool.Takes 10 (.submit caller () changes trigger) queued → Run 10 queued moves final →
    final.caller caller = none → final.outstanding = 0 →
    ∀ entry ∈ (queued.work ()).queue.pending, entry ∉ (final.work ()).queue.pending := by
  intro settles
  have submit : sampleClaimed.Takes 10 (.submit true () [.added "b.ts"] .watch) _ :=
    .submit () _ _ rfl
  have hqueued := putCaller_self (sampleClaimed.putQueue ()
    (.pushAll .watch (sampleClaimed.work ()).queue [.added "b.ts"])) true (some (.queued ()))
  have later : Run 10 _ [.claim true] _ := .cons (.leave hqueued rfl) (.nil _)
  have hpaths := (ChangeQueue.pushAll_grown .watch (sampleClaimed.work ()).queue
    [.added "b.ts"]).2 (.added "b.ts") (by simp)
  obtain ⟨entry, hentry, -⟩ := List.mem_map.mp hpaths
  exact settles _ _ _ _ _ _ true _ _ sampleClaimed_run submit later (putCaller_self _ _ _) rfl entry
    hentry hentry

end Pool

end HouseStyle
