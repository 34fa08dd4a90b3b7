import HouseStyle.Proofs.Learning.Tickets

/-!
# One worker for each project

A project that has something pending is scheduled, or somebody is about to schedule it: the caller
that has just put it there, or the worker that has taken the project off the schedule and looks at
its queue once more. So nothing is left behind when nothing is outstanding. And since a scheduled
project has one ticket, its batches are learned one after the other as they were drained.
-/

namespace HouseStyle

namespace Pool

variable {ι ω π : Type} [DecidableEq ι] [DecidableEq ω] [DecidableEq π] {limit : Nat}
  {pool mid after : Pool ι ω π} {project : π} {caller : ι} {worker : ω} {move : PoolStep ι ω π}
  {moves : List (PoolStep ι ω π)}

/-! ## Who sees to what is pending -/

/-- The worker has taken the project off the schedule, and may put it on again. -/
def Leaving (project : π) (shift : Option (Shift π)) : Prop :=
  shift = some (.released project) ∨ shift = some (.refilled project)

/-- The project is scheduled, or a worker will look at its queue once more. -/
def Awake (pool : Pool ι ω π) (project : π) : Prop :=
  pool.isScheduled project = true ∨ ∃ worker, Leaving project (pool.worker worker)

/-- A caller that has put changes into a queue sees that the project is scheduled. -/
lemma Takes.queued (takes : pool.Takes limit move after)
    (h : pool.caller caller = some (.queued project)) :
    after.caller caller = some (.queued project) ∨ after.isScheduled project = true := by
  -- a caller that stands elsewhere is another one
  have other : ∀ {actor : ι} {old new : Option (Submission π)}, pool.caller actor = old →
      old ≠ some (.queued project) →
      Function.update pool.caller actor new caller = some (.queued project) := by
    rintro actor old new hold hne
    have hactor : caller ≠ actor := by
      rintro rfl
      exact hne (hold.symm.trans h)
    rw [Function.update_of_ne hactor, h]
  cases takes with
  | submit _ _ _ hactor => exact .inl (other hactor (by simp))
  | count hactor | send hactor => exact .inl (other hactor (by simp))
  | @claim actor there hactor _ =>
    by_cases hthere : there = project
    · exact .inr (by simp [setScheduled, putCaller, hthere])
    · exact .inl (other hactor (by simpa using hthere))
  | @leave actor there hactor hscheduled =>
    by_cases hthere : there = project
    · exact .inr (hthere ▸ hscheduled)
    · exact .inl (other hactor (by simpa using hthere))
  | cancel | receive | drain | empty | learn | release | refill | done | reclaim | yield
  | finish => exact .inl h

/-- Only a worker takes a project off the schedule. -/
lemma Takes.scheduled (takes : pool.Takes limit move after)
    (h : pool.isScheduled project = true) : after.Awake project := by
  have put : ∀ there, Function.update pool.isScheduled there true project = true := by
    rintro there
    rw [Function.update_apply, h, ite_self]
  cases takes with
  | @claim _ there => exact .inl (put there)
  | @reclaim _ there => exact .inl (put there)
  | @release worker there hworker =>
    by_cases hthere : there = project
    · exact .inr ⟨worker, .inl (by simp [putWorker, hthere])⟩
    · exact .inl (by simp [putWorker, setScheduled, Ne.symm hthere, h])
  | submit | leave | count | send | cancel | receive | drain | empty | learn | refill | done
  | yield | finish => exact .inl h

/-- A worker that has taken a project off the schedule finds its queue empty, or sees that the
project is scheduled. -/
lemma Takes.leaving (takes : pool.Takes limit move after)
    (h : ∃ worker, Leaving project (pool.worker worker)) :
    after.Awake project ∨ (after.work project).queue.pending = [] := by
  -- a worker that stands elsewhere is another one
  have other : ∀ {actor : ω} {old : Option (Shift π)} (new : Option (Shift π)),
      pool.worker actor = old → ¬ Leaving project old →
      ∃ worker, Leaving project (Function.update pool.worker actor new worker) := by
    rintro actor old new hold hnot
    obtain ⟨worker, hleaving⟩ := h
    have hne : worker ≠ actor := by
      rintro rfl
      exact hnot (hold ▸ hleaving)
    exact ⟨worker, by rwa [Function.update_of_ne hne]⟩
  cases takes with
  | receive hactor => exact .inl (.inr (other _ hactor (by simp [Leaving])))
  | drain hactor | empty hactor => exact .inl (.inr (other _ hactor (by simp [Leaving])))
  | learn _ hactor => exact .inl (.inr (other _ hactor (by simp [Leaving])))
  | release hactor => exact .inl (.inr (other _ hactor (by simp [Leaving])))
  | finish hactor => exact .inl (.inr (other _ hactor (by simp [Leaving])))
  | @refill worker there hactor _ =>
    by_cases hthere : there = project
    · exact .inl (.inr ⟨worker, .inr (by simp [putWorker, hthere])⟩)
    · exact .inl (.inr (other _ hactor (by simpa [Leaving] using hthere)))
  | @done worker there hactor hempty =>
    by_cases hthere : there = project
    · exact .inr (hthere ▸ hempty)
    · exact .inl (.inr (other _ hactor (by simpa [Leaving] using hthere)))
  | @reclaim worker there hactor _ =>
    by_cases hthere : there = project
    · exact .inl (.inl (by simp [putWorker, setScheduled, hthere]))
    · exact .inl (.inr (other _ hactor (by simpa [Leaving] using hthere)))
  | @yield worker there hactor hscheduled =>
    by_cases hthere : there = project
    · exact .inl (.inl (hthere ▸ hscheduled))
    · exact .inl (.inr (other _ hactor (by simpa [Leaving] using hthere)))
  | submit | claim | leave | count | send | cancel => exact .inl (.inr h)

/-- A project that is awake stays so until its queue is empty. -/
lemma Takes.awake (takes : pool.Takes limit move after) (h : pool.Awake project) :
    after.Awake project ∨ (after.work project).queue.pending = [] := by
  rcases h with hscheduled | hleaving
  · exact .inl (takes.scheduled hscheduled)
  · exact takes.leaving hleaving

/-- What is pending is seen to: the project is awake, or a caller is about to schedule it. -/
def Served (pool : Pool ι ω π) (project : π) : Prop :=
  (pool.work project).queue.pending ≠ [] →
    pool.Awake project ∨ ∃ caller, pool.caller caller = some (.queued project)

lemma Takes.served (takes : pool.Takes limit move after) (served : pool.Served project) :
    after.Served project := by
  rintro hpending
  by_cases hbefore : (pool.work project).queue.pending = []
  · -- only a submit fills a queue
    rcases takes.queue project with ⟨hsame, -⟩ | ⟨-, hcaller, -⟩ | ⟨-, hcleared⟩ | ⟨-, hdrain, -⟩
    · exact absurd (hsame ▸ hbefore) hpending
    · exact .inr ⟨_, hcaller⟩
    · exact absurd (hcleared ▸ rfl) hpending
    · simp [ChangeQueue.drain?, ChangeQueue.topTrigger?, hbefore] at hdrain
  · rcases served hbefore with hawake | ⟨caller, hqueued⟩
    · exact .inl ((takes.awake hawake).resolve_right hpending)
    · rcases takes.queued hqueued with hqueued | hscheduled
      · exact .inr ⟨caller, hqueued⟩
      · exact .inl (.inl hscheduled)

/-! ## What is recorded -/

/-- Learn batches one after another. -/
def learnAll (learned : List (WorkContext × ChangeBatch)) (work : Work) : Work :=
  learned.foldl (fun work taken => work.answer taken.1 taken.2) work

/-- What has been drained of a project has been learned in the same order, up to the batch that a
worker is about. -/
structure Recorded (stores : π → PatternStore) (pool : Pool ι ω π) (project : π) : Prop where
  learning : ∀ worker batch, pool.worker worker = some (.learning project batch) →
    pool.drained project = (pool.learned project).map (·.2) ++ [batch]
  between : (∀ worker batch, pool.worker worker ≠ some (.learning project batch)) →
    pool.drained project = (pool.learned project).map (·.2)
  work : pool.work project =
    { learnAll (pool.learned project) (.start (stores project)) with
      queue := (pool.work project).queue }

namespace Recorded

variable {stores : π → PatternStore} {place : π → Option (Place ι ω)} {batch : ChangeBatch}

omit [DecidableEq ι] [DecidableEq ω] [DecidableEq π] in
/-- Nobody drains or learns a batch of the project. -/
lemma stay (recorded : Recorded stores pool project)
    (hworker : ∀ worker batch, after.worker worker = some (.learning project batch) ↔
      pool.worker worker = some (.learning project batch))
    (hdrained : after.drained project = pool.drained project)
    (hlearned : after.learned project = pool.learned project)
    (hwork : after.work project =
      { pool.work project with queue := (after.work project).queue }) :
    Recorded stores after project where
  learning := by
    rintro worker batch h
    rw [hdrained, hlearned]
    exact recorded.learning worker batch ((hworker worker batch).mp h)
  between := by
    rintro h
    rw [hdrained, hlearned]
    exact recorded.between fun worker batch hbatch =>
      h worker batch ((hworker worker batch).mpr hbatch)
  work := by
    rw [hwork, recorded.work, hlearned]

omit [DecidableEq ι] [DecidableEq ω] [DecidableEq π] in
/-- A worker that has the ticket is the only one to learn a batch. -/
lemma only_learner (tokens : Tokens pool place) {shift : Shift π}
    (hworker : pool.worker worker = some shift) (hticket : shift.ticket? = some project)
    {other : ω} (hother : pool.worker other = some (.learning project batch)) :
    worker = other := by
  have hheld : pool.Held (.worker worker) project := by simp [Held, hworker, hticket]
  have hspot := tokens.unique hheld (.worker other) (by simp [Held, hother, Shift.ticket?])
  exact Place.worker.inj hspot

omit [DecidableEq ι] in
lemma drain (recorded : Recorded stores pool project) (tokens : Tokens pool place)
    {queue : ChangeQueue} (hworker : pool.worker worker = some (.draining project)) :
    Recorded stores
      ((pool.putDrained project batch queue).putWorker worker (some (.learning project batch)))
      project := by
  have hbetween : pool.drained project = (pool.learned project).map (·.2) := by
    refine recorded.between fun other batch hother => ?_
    obtain rfl := only_learner tokens hworker rfl hother
    simp [hworker] at hother
  constructor
  · rintro other batch' hother
    by_cases hsame : other = worker
    · have hbatch : batch = batch' := by simpa [putWorker, hsame] using hother
      simp [putWorker, putDrained, putQueue, hbetween, hbatch]
    · simp only [putWorker, putDrained, putQueue, Function.update_of_ne hsame] at hother
      exact absurd (only_learner tokens hworker rfl hother).symm hsame
  · rintro hnone
    exact absurd (by simp [putWorker]) (hnone worker batch)
  · simp only [putWorker, putDrained, putQueue, Function.update_self]
    rw [recorded.work]

omit [DecidableEq ι] in
lemma learn (recorded : Recorded stores pool project) (tokens : Tokens pool place)
    (hworker : pool.worker worker = some (.learning project batch)) (context : WorkContext) :
    Recorded stores
      ((pool.putLearned project context batch).putWorker worker (some (.draining project)))
      project := by
  have hdrained := recorded.learning worker batch hworker
  constructor
  · rintro other batch' hother
    by_cases hsame : other = worker
    · simp [putWorker, hsame] at hother
    · simp only [putWorker, putLearned, Function.update_of_ne hsame] at hother
      exact absurd (only_learner tokens hworker rfl hother).symm hsame
  · rintro -
    simp [putWorker, putLearned, hdrained]
  · simp only [putWorker, putLearned, Function.update_self, learnAll, List.foldl_append]
    rw [recorded.work]
    rfl

end Recorded

omit [DecidableEq π] in
/-- A worker goes on, and is not about a batch of the project before or after. -/
lemma learning_update {states : ω → Option (Shift π)} {old new : Option (Shift π)}
    (hold : states worker = old) (hne : ∀ batch, old ≠ some (.learning project batch))
    (hne' : ∀ batch, new ≠ some (.learning project batch)) (other : ω) (batch : ChangeBatch) :
    Function.update states worker new other = some (.learning project batch) ↔
      states other = some (.learning project batch) := by
  rw [Function.update_apply]
  split
  · next h => simp [h, hold, hne, hne']
  · rfl

lemma Takes.recorded {stores : π → PatternStore} {place : π → Option (Place ι ω)}
    (takes : pool.Takes limit move after) (tokens : Tokens pool place)
    (recorded : Recorded stores pool project) : Recorded stores after project := by
  cases takes with
  | @submit caller there changes trigger hcaller =>
    refine recorded.stay (fun _ _ => .rfl) rfl rfl ?_
    by_cases hthere : project = there <;> simp [putCaller, putQueue, hthere]
  | cancel there =>
    refine recorded.stay (fun _ _ => .rfl) rfl rfl ?_
    by_cases hthere : project = there <;> simp [putQueue, hthere]
  | claim | leave | count | send => exact recorded.stay (fun _ _ => .rfl) rfl rfl rfl
  | receive hworker | empty hworker | release hworker | refill hworker | done hworker
  | reclaim hworker | yield hworker | finish hworker =>
    exact recorded.stay (learning_update hworker (by simp) (by simp)) rfl rfl rfl
  | @drain worker there batch queue hworker hdrain =>
    by_cases hthere : project = there
    · subst hthere
      exact recorded.drain tokens hworker
    · refine recorded.stay (learning_update hworker (by simp) ?_) ?_ rfl ?_
      · simp [Ne.symm hthere]
      · simp [putWorker, putDrained, hthere]
      · simp [putWorker, putDrained, putQueue, hthere]
  | @learn worker there batch context hworker =>
    by_cases hthere : project = there
    · subst hthere
      exact recorded.learn tokens hworker context
    · refine recorded.stay (learning_update hworker ?_ (by simp)) rfl ?_ ?_
      · simp [Ne.symm hthere]
      · simp [putWorker, putLearned, hthere]
      · simp [putWorker, putLearned, hthere]

/-! ## Runs -/

/-- What holds between two steps. -/
structure Sound (stores : π → PatternStore) (pool : Pool ι ω π) : Prop where
  tokens : ∃ place, Tokens pool place
  tally : ∃ callers workers, Tally pool callers workers
  served : ∀ project, pool.Served project
  recorded : ∀ project, Recorded stores pool project

omit [DecidableEq ι] [DecidableEq ω] [DecidableEq π] in
lemma sound_start (stores : π → PatternStore) : Sound stores (start stores : Pool ι ω π) where
  tokens := ⟨_, .start stores⟩
  tally := ⟨∅, ∅, tally_start stores⟩
  served := fun _ h => absurd rfl h
  recorded := fun _ => ⟨nofun, fun _ => rfl, rfl⟩

theorem Takes.sound {stores : π → PatternStore} (takes : pool.Takes limit move after)
    (sound : Sound stores pool) : Sound stores after := by
  obtain ⟨place, tokens⟩ := sound.tokens
  obtain ⟨callers, workers, tally⟩ := sound.tally
  constructor
  · exact takes.tokens tokens
  · exact takes.tally tally
  · exact fun project => takes.served (sound.served project)
  · exact fun project => takes.recorded tokens (sound.recorded project)

theorem Run.sound {stores : π → PatternStore} (run : Run limit pool moves after)
    (sound : Sound stores pool) : Sound stores after := by
  induction run with
  | nil => exact sound
  | cons takes _ ih => exact ih (takes.sound sound)

omit [DecidableEq ι] [DecidableEq ω] [DecidableEq π] in
/-- Where nothing is outstanding, no worker is about anything, and only a caller that has not
counted its ticket can have one. -/
lemma Sound.quiet {stores : π → PatternStore} (sound : Sound stores pool)
    (hnone : pool.outstanding = 0) : (∀ worker, pool.worker worker = none) ∧
      ∀ project, pool.isScheduled project = true →
        ∃ caller, pool.caller caller = some (.claimed project) := by
  obtain ⟨place, tokens⟩ := sound.tokens
  obtain ⟨callers, workers, tally⟩ := sound.tally
  have houtstanding := tally.outstanding
  have hcallers : callers = ∅ := Finset.card_eq_zero.mp (by omega)
  have hworkers : workers = ∅ := Finset.card_eq_zero.mp (by omega)
  have htickets : pool.tickets = [] := List.length_eq_zero_iff.mp (by omega)
  have idle : ∀ worker, pool.worker worker = none := by
    rintro worker
    have hbusy := tally.busy worker
    simpa [hworkers] using hbusy
  refine ⟨idle, fun project hscheduled => ?_⟩
  rw [tokens.scheduled, Option.isSome_iff_exists] at hscheduled
  obtain ⟨spot, hspot⟩ := hscheduled
  have hheld := (tokens.held spot project).mpr hspot
  cases spot with
  | channel => simp [Held, htickets] at hheld
  | worker worker => simp [Held, idle] at hheld
  | caller caller =>
    refine ⟨caller, ?_⟩
    have hcounted := tally.counted caller
    simp only [hcallers, Finset.notMem_empty, IsCounted, false_iff, not_exists] at hcounted
    obtain ⟨submission, hsubmission, hticket⟩ := Option.bind_eq_some_iff.mp hheld
    cases submission with
    | queued => cases hticket
    | claimed there => rw [hsubmission, Option.some.inj hticket]
    | counted there => exact absurd hsubmission (hcounted there)

/-- Whatever steps callers and workers take: one worker at most is about a batch of a project;
the results of a project are those of the batches that were drained, in the same order; and where
no call is under way and nothing is outstanding, nothing is pending and no project is scheduled. -/
theorem run_exclusive (stores : π → PatternStore) (run : Run limit (start stores) moves pool) :
    (∀ project worker other batch batch', pool.worker worker = some (.learning project batch) →
      pool.worker other = some (.learning project batch') → worker = other ∧ batch = batch') ∧
    (∀ project, (pool.learned project).map (·.2) <+: pool.drained project ∧
      pool.work project = { learnAll (pool.learned project) (.start (stores project)) with
        queue := (pool.work project).queue }) ∧
    ((∀ caller, pool.caller caller = none) → pool.outstanding = 0 → ∀ project,
      (pool.work project).queue.pending = [] ∧ pool.isScheduled project = false) := by
  have sound := run.sound (sound_start stores)
  obtain ⟨place, tokens⟩ := sound.tokens
  refine ⟨?_, fun project => ⟨?_, (sound.recorded project).work⟩, ?_⟩
  · intro project worker other batch batch' hworker hother
    obtain rfl := Recorded.only_learner tokens hworker rfl hother
    simpa [hworker] using hother
  · have recorded := sound.recorded project
    by_cases hlearning : ∃ worker batch, pool.worker worker = some (.learning project batch)
    · obtain ⟨worker, batch, hworker⟩ := hlearning
      rw [recorded.learning worker batch hworker]
      exact List.prefix_append _ _
    · push Not at hlearning
      rw [recorded.between hlearning]
  · intro hidle hnone project
    obtain ⟨hworkers, hclaimed⟩ := sound.quiet hnone
    have hunscheduled : pool.isScheduled project = false := by
      by_contra hscheduled
      obtain ⟨caller, hcaller⟩ := hclaimed project (by simpa using hscheduled)
      simp [hidle] at hcaller
    refine ⟨?_, hunscheduled⟩
    by_contra hpending
    rcases sound.served project hpending with (hscheduled | ⟨worker, hleaving⟩) | ⟨caller, hcaller⟩
    · simp [hunscheduled] at hscheduled
    · simp [Leaving, hworkers] at hleaving
    · simp [hidle] at hcaller

/-! One of two workers has drained the batch of a call. -/

def sampleBatch : ChangeBatch := ⟨.watch, [.added "a.ts"], none⟩

lemma sampleBatch_drained : (ChangeQueue.pushAll .watch .empty [.added "a.ts"]).drain? 10 =
    some (sampleBatch, ⟨[], 1, 0⟩) := by
  decide +kernel

def sampleStart : Pool Unit Bool Unit := start fun _ => .empty

/-- The state when the first of two workers has drained the only project. -/
lemma exists_sampleLearning : ∃ moves pool, Run 10 sampleStart
    (.submit () () [.added "a.ts"] .watch :: moves) pool ∧
    pool.worker false = some (.learning () sampleBatch) := by
  have hcaller : sampleStart.caller () = none := rfl
  have hworker : sampleStart.worker false = none := rfl
  have hfree : sampleStart.isScheduled () = false := rfl
  obtain ⟨moves, mid, handed, went⟩ :=
    exists_handed 10 hcaller hworker rfl hfree [.added "a.ts"] .watch
  have hdraining : mid.worker false = some (.draining ()) := by simp [went.worker]
  have hdrain : (mid.work ()).queue.drain? 10 = some (sampleBatch, ⟨[], 1, 0⟩) := by
    rw [went.work, Function.update_self]
    exact sampleBatch_drained
  exact ⟨_, _, handed.append (.cons (.drain hdraining hdrain) (.nil _)), putWorker_self _ _ _⟩

/-- The other worker is about nothing of the project, and the batch is not recorded yet. -/
theorem sampleLearning_exclusive : ∃ moves pool, Run 10 sampleStart
    (.submit () () [.added "a.ts"] .watch :: moves) pool ∧
    pool.worker false = some (.learning () sampleBatch) ∧
    (∀ worker batch, pool.worker worker = some (.learning () batch) →
      worker = false ∧ batch = sampleBatch) ∧
    (pool.learned ()).map (·.2) <+: pool.drained () := by
  obtain ⟨moves, pool, run, hworker⟩ := exists_sampleLearning
  obtain ⟨exclusive, recorded, -⟩ := run_exclusive _ run
  refine ⟨moves, pool, run, hworker, fun worker batch h => ?_, (recorded ()).1⟩
  exact exclusive () worker false batch sampleBatch h hworker

end Pool

end HouseStyle
