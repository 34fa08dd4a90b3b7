import HouseStyle.Learning.Worker
import HouseStyle.Proofs.Learning.Calls
import HouseStyle.Proofs.Learning.Queue

/-!
# Whom a malformed change takes along

Changes are queued without a check. A worker that runs hands all of them to the learner, in
batches, and the learner checks a batch as a whole: one malformed change has all others of its
batch rejected with it. A batch without malformed changes is rejected for no change of another.
-/

namespace HouseStyle

/-! ## Batches -/

/-- A change that passes the check of the learner. -/
def FileChange.Acceptable (change : FileChange) : Prop :=
  ∃ found, Coalesce.checked change = .ok found

namespace Coalesce

variable {kept changes : List FileChange} {change : FileChange}

lemma length_place (kept : List FileChange) (change : FileChange) :
    (place kept change).length =
      kept.length + if (pending? kept change.path).isSome then 0 else 1 := by
  have hany : kept.any (·.path == change.path) = (pending? kept change.path).isSome := by
    rw [Bool.eq_iff_iff, pending?, List.find?_isSome, List.any_eq_true]
  unfold place
  rw [hany]
  split <;> simp

lemma pending?_place (kept : List FileChange) (change : FileChange) (path : String) :
    (pending? (place kept change) path).isSome =
      (decide (path = change.path) || (pending? kept path).isSome) := by
  rw [pending?_eq_lookup, place_eq_put, keyed_changes.lookup_put, ← pending?_eq_lookup]
  by_cases hpath : path = change.path <;> simp [hpath]

lemma isSome_of_isEdited {path : String} (h : isEdited kept path = true) :
    (pending? kept path).isSome := by
  rw [isEdited] at h
  cases hpending : pending? kept path with
  | none => simp [hpending] at h
  | some change => rfl

/-- Adding a change makes a batch longer by one change at most. -/
lemma length_add (kept : List FileChange) (change : FileChange) :
    (add kept change).length ≤ kept.length + 1 := by
  -- a path that gives its source up is pending, so that one of the two placements adds nothing
  obtain ⟨released, hreleased, hlength⟩ : ∃ released, releaseSource kept change.path = released ∧
      ∀ other : FileChange, other.path = change.path →
        (place released other).length ≤ kept.length + 1 := by
    refine ⟨_, rfl, fun other hother => ?_⟩
    rw [length_place, hother]
    unfold releaseSource
    cases hsource : renameSource? kept change.path with
    | none =>
      simp only
      split <;> omega
    | some source =>
      have hpending : (pending? kept change.path).isSome := by
        unfold renameSource? at hsource
        cases hfound : pending? kept change.path with
        | none => simp [hfound] at hsource
        | some found => rfl
      simp only [pending?_place, hpending, Bool.or_true, if_true, length_place]
      split <;> omega
  unfold add
  simp only [hreleased]
  split
  · next source _ _ =>
    split
    · next hedited =>
      -- the edit of the source is there already, and becomes its removal
      have hsource : (pending? released (FileChange.deleted source).path).isSome :=
        isSome_of_isEdited hedited
      have hsame := length_place released (.deleted source)
      rw [if_pos hsource] at hsame
      have htarget := hlength { change with kind := .added, previousPath := none } rfl
      rw [length_place] at htarget ⊢
      rw [pending?_place]
      simp only at htarget ⊢
      by_cases hpending : (pending? released change.path).isSome = true
      · simp only [hpending, if_true, Bool.or_true] at htarget ⊢
        omega
      · simp only [hpending, if_false, Bool.false_eq_true] at htarget
        split <;> omega
    · exact hlength change rfl
  · exact hlength change rfl

/-- Changes that are checked and added one after another. -/
lemma foldlM_add (acceptable : ∀ change ∈ changes, change.Acceptable) (kept : List FileChange) :
    ∃ all, changes.foldlM (fun kept change => do return add kept (← checked change)) kept =
        .ok all ∧ all.length ≤ kept.length + changes.length := by
  induction changes generalizing kept with
  | nil => exact ⟨kept, rfl, by simp⟩
  | cons change changes ih =>
    obtain ⟨found, hfound⟩ := acceptable change (by simp)
    obtain ⟨all, hall, hlength⟩ :=
      ih (fun later hlater => acceptable later (by simp [hlater])) (add kept found)
    refine ⟨all, ?_, ?_⟩
    · rw [List.foldlM_cons, hfound]
      exact hall
    · have := length_add kept found
      rw [List.length_cons]
      omega

/-- The first malformed change ends the check, and says why. -/
lemma foldlM_malformed {good rest : List FileChange} {bad : FileChange} {error : LearnError}
    (acceptable : ∀ change ∈ good, change.Acceptable) (hbad : checked bad = .error error)
    (kept : List FileChange) :
    (good ++ bad :: rest).foldlM (fun kept change => do return add kept (← checked change)) kept =
      .error error := by
  obtain ⟨all, hall, -⟩ := foldlM_add acceptable kept
  rw [List.foldlM_append, hall]
  simp only [List.foldlM_cons, hbad, bind, Except.bind]

end Coalesce

/-- A batch of acceptable changes that is not too long is accepted. -/
lemma coalesce_acceptable {limit : Nat} {changes : List FileChange}
    (hlength : changes.length ≤ limit) (acceptable : ∀ change ∈ changes, change.Acceptable) :
    ∃ kept, coalesce limit changes = .ok kept := by
  obtain ⟨kept, hkept, hshorter⟩ := Coalesce.foldlM_add acceptable []
  refine ⟨kept, ?_⟩
  have hfits : ¬ limit < kept.length := by
    rw [List.length_nil] at hshorter
    omega
  simp only [coalesce, bind_eq_ok]
  exact ⟨kept, hkept, by rw [if_neg hfits]; rfl⟩

/-- Where the changes of a batch are not all acceptable, there is a first malformed one. -/
lemma exists_malformed {changes : List FileChange}
    (h : ¬ ∀ change ∈ changes, change.Acceptable) :
    ∃ good bad rest error, changes = good ++ bad :: rest ∧
      (∀ change ∈ good, change.Acceptable) ∧ Coalesce.checked bad = .error error := by
  induction changes with
  | nil => exact absurd (by simp) h
  | cons change changes ih =>
    cases hchecked : Coalesce.checked change with
    | error error => exact ⟨[], change, changes, error, rfl, by simp, hchecked⟩
    | ok found =>
      have hrest : ¬ ∀ later ∈ changes, later.Acceptable :=
        fun hall => h (List.forall_mem_cons.mpr ⟨⟨found, hchecked⟩, hall⟩)
      obtain ⟨good, bad, rest, error, rfl, hgood, hbad⟩ := ih hrest
      exact ⟨change :: good, bad, rest, error, rfl,
        List.forall_mem_cons.mpr ⟨⟨found, hchecked⟩, hgood⟩, hbad⟩

/-! ## The queue -/

namespace ChangeQueue

variable {queue mid after : ChangeQueue} {path : String}

/-- The paths that are pending. -/
def paths (queue : ChangeQueue) : List String := queue.pending.map (·.change.path)

lemma mem_paths_erase (other : String) :
    path ∈ (queue.erase other).paths ↔ path ∈ queue.paths ∧ path ≠ other := by
  simp only [paths, erase, List.mem_map, List.mem_filter, bne_iff_ne]
  constructor
  · rintro ⟨entry, ⟨hentry, hne⟩, rfl⟩
    exact ⟨⟨entry, hentry, rfl⟩, hne⟩
  · rintro ⟨⟨entry, hentry, rfl⟩, hne⟩
    exact ⟨entry, ⟨hentry, hne⟩, rfl⟩

lemma paths_put (queue : ChangeQueue) (entry : PendingChange) :
    (queue.put entry).paths = entry.change.path :: (queue.erase entry.change.path).paths := rfl

lemma mem_paths_put (queue : ChangeQueue) (entry : PendingChange) :
    path ∈ (queue.put entry).paths ↔ path = entry.change.path ∨ path ∈ queue.paths := by
  rw [paths_put, List.mem_cons, mem_paths_erase]
  by_cases hpath : path = entry.change.path <;> simp [hpath]

/-- A queue has taken paths in, with one entry for each. -/
structure Grown (queue after : ChangeQueue) : Prop where
  kept : ∀ path ∈ queue.paths, path ∈ after.paths
  nodup : queue.paths.Nodup → after.paths.Nodup

lemma Grown.refl (queue : ChangeQueue) : Grown queue queue := ⟨fun _ h => h, fun h => h⟩

lemma Grown.trans (first : Grown queue mid) (second : Grown mid after) : Grown queue after :=
  ⟨fun path h => second.kept path (first.kept path h), fun h => second.nodup (first.nodup h)⟩

lemma nodup_erase (h : queue.paths.Nodup) (path : String) : (queue.erase path).paths.Nodup :=
  h.sublist (List.filter_sublist.map _)

lemma nodup_put (h : queue.paths.Nodup) (entry : PendingChange) :
    (queue.put entry).paths.Nodup := by
  rw [paths_put, List.nodup_cons, mem_paths_erase]
  exact ⟨fun habsent => habsent.2 rfl, nodup_erase h _⟩

lemma grown_put (queue : ChangeQueue) (entry : PendingChange) :
    Grown queue (queue.put entry) where
  kept := fun _ hpath => (mem_paths_put queue entry).mpr (.inr hpath)
  nodup := fun h => nodup_put h entry

lemma grown_putLast (queue : ChangeQueue) (change : FileChange) (trigger : Trigger) :
    Grown queue (queue.putLast change trigger) :=
  ⟨(grown_put { queue with nextOrder := queue.nextOrder + 1 } _).kept, fun h => nodup_put h _⟩

lemma grown_countSuperseded (queue : ChangeQueue) : Grown queue queue.countSuperseded :=
  ⟨fun _ h => h, fun h => h⟩

lemma grown_putIfAbsent (queue : ChangeQueue) (entry : PendingChange) :
    Grown queue (queue.putIfAbsent entry) := by
  unfold putIfAbsent
  split
  · exact .refl queue
  · exact grown_put queue entry

lemma pushSplitRename_grown (queue : ChangeQueue) (source : PendingChange) (change : FileChange)
    (trigger : Trigger) : Grown queue (queue.pushSplitRename source change trigger) ∧
      change.path ∈ (queue.pushSplitRename source change trigger).paths := by
  have first := (grown_countSuperseded queue).trans (grown_put queue.countSuperseded
    ⟨.deleted source.change.path, source.trigger.max trigger, source.order⟩)
  unfold pushSplitRename
  simp only
  split
  · exact ⟨(first.trans (grown_countSuperseded _)).trans (grown_put _ _),
      (mem_paths_put _ _).mpr (.inl rfl)⟩
  · exact ⟨first.trans (grown_putLast _ _ _), (mem_paths_put _ _).mpr (.inl rfl)⟩

lemma pushOver_grown (queue : ChangeQueue) (existing : PendingChange) (change : FileChange)
    (trigger : Trigger) : Grown queue (queue.pushOver existing change trigger) ∧
      change.path ∈ (queue.pushOver existing change trigger).paths := by
  -- what is taken out comes back under the same path
  have back : ∀ (between : ChangeQueue) (entry : PendingChange),
      Grown (queue.erase change.path) between → entry.change.path = change.path →
      Grown queue (between.put entry) := by
    intro between entry grown hentry
    constructor
    · intro path hpath
      rw [mem_paths_put, hentry]
      by_cases hsame : path = change.path
      · exact .inl hsame
      · exact .inr (grown.kept path ((mem_paths_erase _).mpr ⟨hpath, hsame⟩))
    · intro h
      exact nodup_put (grown.nodup (nodup_erase h _)) entry
  have counted := grown_countSuperseded (queue.erase change.path)
  unfold pushOver
  simp only
  split
  · refine ⟨back _ _ ?_ rfl, (mem_paths_put _ _).mpr (.inl rfl)⟩
    split
    · exact counted.trans (grown_putIfAbsent _ _)
    · exact counted
  · exact ⟨back _ _ counted rfl, (mem_paths_put _ _).mpr (.inl rfl)⟩

/-- A change that is pushed leaves its path pending, and no path drops out. -/
theorem push_grown (queue : ChangeQueue) (change : FileChange) (trigger : Trigger) :
    Grown queue (queue.push change trigger) ∧
      Path.normalize change.path ∈ (queue.push change trigger).paths := by
  have hpath : Path.normalize change.path = (normalized change).path := rfl
  rw [hpath]
  unfold push
  generalize normalized change = change
  simp only
  split
  · exact pushSplitRename_grown queue _ change trigger
  · split
    · exact pushOver_grown queue _ change trigger
    · exact ⟨grown_putLast queue change trigger, (mem_paths_put _ _).mpr (.inl rfl)⟩

theorem pushAll_grown (trigger : Trigger) (queue : ChangeQueue) (changes : List FileChange) :
    Grown queue (pushAll trigger queue changes) ∧
      ∀ change ∈ changes, Path.normalize change.path ∈ (pushAll trigger queue changes).paths := by
  induction changes generalizing queue with
  | nil => exact ⟨.refl queue, by simp⟩
  | cons change changes ih =>
    obtain ⟨first, hpath⟩ := queue.push_grown change trigger
    obtain ⟨rest, hlater⟩ := ih (queue.push change trigger)
    exact ⟨first.trans rest, List.forall_mem_cons.mpr ⟨rest.kept _ hpath, hlater⟩⟩

/-! ## Draining -/

lemma max_cases (a b : Trigger) : a.max b = a ∨ a.max b = b := by
  unfold Trigger.max
  split
  · exact .inr rfl
  · exact .inl rfl

/-- Something of the most urgent trigger is pending. -/
lemma exists_topTrigger (h : queue.pending ≠ []) :
    ∃ trigger, queue.topTrigger? = some trigger ∧ ∃ entry ∈ queue.pending,
      entry.trigger = trigger := by
  have fold : ∀ (triggers : List Trigger) (top : Trigger), ∃ found,
      triggers.foldl (fun top t => some ((top.getD t).max t)) (some top) = some found ∧
        found ∈ top :: triggers := by
    intro triggers
    induction triggers with
    | nil => exact fun top => ⟨top, rfl, by simp⟩
    | cons t triggers ih =>
      intro top
      obtain ⟨found, hfound, hmem⟩ := ih (top.max t)
      refine ⟨found, hfound, ?_⟩
      rcases List.mem_cons.mp hmem with rfl | hmem
      · rcases max_cases top t with hmax | hmax <;> simp [hmax]
      · simp [hmem]
  obtain ⟨first, rest, hpending⟩ := List.exists_cons_of_ne_nil h
  obtain ⟨found, hfound, hmem⟩ := fold (rest.map (·.trigger)) (first.trigger.max first.trigger)
  rw [Trigger.max_self] at hmem
  refine ⟨found, ?_, ?_⟩
  · rw [topTrigger?, hpending]
    exact hfound
  · rw [hpending]
    have hmap : found ∈ (first :: rest).map (·.trigger) := hmem
    obtain ⟨entry, hentry, rfl⟩ := List.mem_map.mp hmap
    exact ⟨entry, hentry, rfl⟩

/-- What a drain takes out of a queue: some of the pending changes of one trigger, not more than
the limit, and it leaves the others. -/
structure Taken (queue : ChangeQueue) (limit : Nat) (batch : ChangeBatch)
    (rest : List PendingChange) : Prop where
  some : batch.changes ≠ []
  limit : batch.changes.length ≤ max limit 1
  trigger : ∀ change ∈ batch.changes, ∃ entry ∈ queue.pending,
    entry.change = change ∧ entry.trigger = batch.trigger
  perm : (batch.changes ++ rest.map (·.change)).Perm (queue.pending.map (·.change))
  rest : rest.Sublist queue.pending

theorem drain?_taken (nodup : queue.paths.Nodup) (h : queue.pending ≠ []) (limit : Nat) :
    ∃ batch rest, queue.drain? limit = some (batch, { queue with pending := rest }) ∧
      queue.Taken limit batch rest := by
  obtain ⟨trigger, htop, first, hfirst, htrigger⟩ := exists_topTrigger h
  have hready : ∀ entry, entry ∈ (queue.pending.filter (·.trigger == trigger)).mergeSort earlier ↔
      entry ∈ queue.pending ∧ entry.trigger = trigger := by
    intro entry
    rw [List.mem_mergeSort, List.mem_filter, beq_iff_eq]
  have hnonempty : (queue.pending.filter (·.trigger == trigger)).mergeSort earlier ≠ [] :=
    List.ne_nil_of_mem ((hready first).mpr ⟨hfirst, htrigger⟩)
  have hnodup : ((queue.pending.filter (·.trigger == trigger)).mergeSort earlier).Nodup :=
    (List.mergeSort_perm _ _).nodup_iff.mpr ((nodup.of_map _).filter _)
  simp only [drain?, htop, Option.map_some]
  generalize (queue.pending.filter (·.trigger == trigger)).mergeSort earlier = ready at *
  have htaken : ∀ entry ∈ ready.take (max limit 1), entry ∈ queue.pending ∧
      entry.trigger = trigger := fun entry hentry => (hready entry).mp (List.mem_of_mem_take hentry)
  -- paths are all different, so what goes by its path is what was taken
  have hgone : (queue.pending.filter fun p =>
      ((ready.take (max limit 1)).map (·.change.path)).contains p.change.path).Perm
        (ready.take (max limit 1)) := by
    rw [List.perm_ext_iff_of_nodup ((nodup.of_map _).filter _)
      (hnodup.sublist (List.take_sublist _ _))]
    intro entry
    rw [List.mem_filter, List.contains_iff_mem, List.mem_map]
    constructor
    · rintro ⟨hentry, other, hother, hpath⟩
      have hsame := List.inj_on_of_nodup_map nodup (htaken other hother).1 hentry hpath
      exact hsame ▸ hother
    · intro hentry
      exact ⟨(htaken entry hentry).1, entry, hentry, rfl⟩
  refine ⟨_, _, rfl, ?_, ?_, ?_, ?_, List.filter_sublist⟩
  · simp only [ne_eq, List.map_eq_nil_iff, List.take_eq_nil_iff, hnonempty, or_false]
    omega
  · rw [List.length_map]
    exact List.length_take_le _ _
  · intro change hchange
    obtain ⟨entry, hentry, rfl⟩ := List.mem_map.mp hchange
    exact ⟨entry, (htaken entry hentry).1, rfl, (htaken entry hentry).2⟩
  · rw [← List.map_append]
    exact ((hgone.symm.append_right _).trans (List.filter_append_perm _ _)).map _

end ChangeQueue

/-! ## Workers -/

namespace ChangeBatch

/-- Where the learner is told that a batch of the queue comes from. -/
def origin (batch : ChangeBatch) : Origin := ⟨batch.trigger, batch.revision, none⟩

/-- What becomes of a batch of changes: it is learned, or the first malformed change has all of
it rejected, and nothing is stored. -/
inductive Outcome (context : WorkContext) (batch : ChangeBatch) (store : PatternStore) : Prop where
  | learned (task : LearningTask) : (∀ change ∈ batch.changes, change.Acceptable) →
    LearningTask.begin context.policy store batch.changes batch.origin = .ok task →
    Outcome context batch store
  | rejected (good : List FileChange) (bad : FileChange) (rest : List FileChange)
    (error : LearnError) : batch.changes = good ++ bad :: rest →
    (∀ change ∈ good, change.Acceptable) → Coalesce.checked bad = .error error →
    learn context.policy context.sources context.projectId context.now store batch.changes
      batch.origin = .unchanged store (.error error) →
    Outcome context batch store

/-- A batch that is not too long is rejected for a malformed change of its own, or not at all. -/
theorem outcome {context : WorkContext} {batch : ChangeBatch}
    (hlength : batch.changes.length ≤ context.policy.batchFiles) (store : PatternStore) :
    batch.Outcome context store := by
  by_cases acceptable : ∀ change ∈ batch.changes, change.Acceptable
  · obtain ⟨kept, hkept⟩ := coalesce_acceptable hlength acceptable
    cases hbegin : LearningTask.begin context.policy store batch.changes batch.origin with
    | ok task => exact .learned task acceptable hbegin
    | error error =>
      rw [LearningTask.begin, hkept] at hbegin
      cases hbegin
  · obtain ⟨good, bad, rest, error, hchanges, hgood, hbad⟩ := exists_malformed acceptable
    refine .rejected good bad rest error hchanges hgood hbad ?_
    have hrejected : coalesce context.policy.batchFiles batch.changes = .error error := by
      rw [coalesce, hchanges, Coalesce.foldlM_malformed hgood hbad]
      rfl
    rw [learn, LearningTask.begin, hrejected]
    rfl

end ChangeBatch

namespace Work

/-- A project of which nothing has been asked. -/
def start (store : PatternStore) : Work := ⟨store, .empty, [], [], none⟩

/-- Nothing is pending any more. -/
def emptied (work : Work) : Work := { work with queue := { work.queue with pending := [] } }

/-- Learn a batch of the queue. -/
def answer (context : WorkContext) (work : Work) (batch : ChangeBatch) : Work :=
  work.record (learn context.policy context.sources context.projectId context.now work.store
    batch.changes batch.origin)

/-- Workers that are not held learn what they take on. -/
lemma takeOn_eq {context : WorkContext} (hopen : context.isHeld = false) (work : Work)
    (batch : ChangeBatch) : takeOn context work batch = work.answer context batch := by
  unfold takeOn answer learn ChangeBatch.origin
  simp only [hopen, Bool.and_false, Bool.false_eq_true, if_false]
  cases LearningTask.begin context.policy work.store batch.changes
    ⟨batch.trigger, batch.revision, none⟩ <;> rfl

/-- A run hands over what is pending in batches of one trigger each, learns one batch after the
other, and ends with nothing pending. -/
structure HandedOver (context : WorkContext) (work : Work) (batches : List ChangeBatch) :
    Prop where
  run : work.run context = batches.foldl (answer context) work.emptied
  pending : (batches.flatMap (·.changes)).Perm (work.queue.pending.map (·.change))
  limit : ∀ batch ∈ batches, batch.changes.length ≤ max context.policy.batchFiles 1
  trigger : ∀ batch ∈ batches, ∀ change ∈ batch.changes, ∃ entry ∈ work.queue.pending,
    entry.change = change ∧ entry.trigger = batch.trigger

/-- Answers do not touch the queue. -/
lemma answers_queue (context : WorkContext) (batches : List ChangeBatch) (work : Work) :
    (batches.foldl (answer context) work).queue = work.queue ∧
      (batches.foldl (answer context) work).waiting = work.waiting := by
  induction batches generalizing work with
  | nil => exact ⟨rfl, rfl⟩
  | cons batch batches ih => exact ih (work.answer context batch)

lemma runFor_handedOver {context : WorkContext} (hopen : context.isHeld = false) {n : Nat}
    {work : Work} (idle : work.waiting = none) (nodup : work.queue.paths.Nodup)
    (hpending : work.queue.pending.length ≤ n) :
    ∃ batches : List ChangeBatch,
      runFor context n work = batches.foldl (answer context) work.emptied ∧
      (batches.flatMap (·.changes)).Perm (work.queue.pending.map (·.change)) ∧
      ∀ batch ∈ batches, batch.changes.length ≤ max context.policy.batchFiles 1 ∧
        ∀ change ∈ batch.changes, ∃ entry ∈ work.queue.pending,
          entry.change = change ∧ entry.trigger = batch.trigger := by
  induction n generalizing work with
  | zero =>
    have hnil : work.queue.pending = [] := List.length_eq_zero_iff.mp (by omega)
    refine ⟨[], ?_, by simp [hnil], by simp⟩
    show work = work.emptied
    rw [emptied, ← hnil]
  | succ n ih =>
    by_cases hnil : work.queue.pending = []
    · refine ⟨[], ?_, by simp [hnil], by simp⟩
      have hdrained : work.queue.drain? context.policy.batchFiles = none := by
        simp [ChangeQueue.drain?, ChangeQueue.topTrigger?, hnil]
      simp only [runFor, idle, Option.isSome_none, Bool.false_eq_true, if_false, hdrained]
      show work = work.emptied
      rw [emptied, ← hnil]
    · obtain ⟨batch, rest, hdrained, taken⟩ :=
        ChangeQueue.drain?_taken nodup hnil context.policy.batchFiles
      have hshorter : rest.length < work.queue.pending.length := by
        have hlength := taken.perm.length_eq
        have hsome := List.length_pos_iff.mpr taken.some
        simp only [List.length_append, List.length_map] at hlength
        omega
      -- the worker goes on with the rest of the queue
      let later := ({ work with queue := { work.queue with pending := rest } } : Work).answer
        context batch
      have hidle : later.waiting = none := idle
      have hnodup : later.queue.paths.Nodup := nodup.sublist (taken.rest.map _)
      have hlater : later.queue.pending.length ≤ n := by show rest.length ≤ n; omega
      obtain ⟨batches, hrun, hperm, hbatches⟩ := ih hidle hnodup hlater
      refine ⟨batch :: batches, ?_, ?_, ?_⟩
      · rw [runFor, if_neg (by simp [idle]), hdrained]
        simp only [takeOn_eq hopen]
        exact hrun
      · rw [List.flatMap_cons]
        exact (hperm.append_left _).trans taken.perm
      · refine List.forall_mem_cons.mpr ⟨⟨taken.limit, taken.trigger⟩, ?_⟩
        intro later hlater
        obtain ⟨hlimit, htrigger⟩ := hbatches later hlater
        refine ⟨hlimit, fun change hchange => ?_⟩
        obtain ⟨entry, hentry, hsame⟩ := htrigger change hchange
        exact ⟨entry, taken.rest.subset hentry, hsame⟩

theorem exists_handedOver {context : WorkContext} (hopen : context.isHeld = false) {work : Work}
    (idle : work.waiting = none) (nodup : work.queue.paths.Nodup) :
    ∃ batches, work.HandedOver context batches := by
  obtain ⟨batches, hrun, hperm, hbatches⟩ := runFor_handedOver hopen idle nodup (Nat.le_refl _)
  exact ⟨batches, hrun, hperm, fun batch hbatch => (hbatches batch hbatch).1,
    fun batch hbatch => (hbatches batch hbatch).2⟩

end Work

/-! ## Sequences of calls -/

/-- What is asked of the scheduler for a project: to queue changes, to drop what is pending, or
to let a worker run. -/
inductive SchedulerCall where
  | submit (changes : List FileChange) (trigger : Trigger)
  | cancel
  | work (context : WorkContext)

namespace SchedulerCall

def perform (work : Work) : SchedulerCall → Work
  | submit changes trigger =>
    { work with queue := ChangeQueue.pushAll trigger work.queue changes }
  | cancel => { work with queue := work.queue.clear }
  | .work context => work.run context

/-- Whether a worker of this call may go through. -/
def isOpen : SchedulerCall → Bool
  | submit .. | cancel => true
  | work context => !context.isHeld

/-- What has been submitted since a worker ran, or all was dropped. -/
def outstanding (before : List FileChange) : SchedulerCall → List FileChange
  | submit changes _ => before ++ changes
  | cancel | work _ => []

/-- Between two calls no batch waits, there is one entry for each pending path, and every change
that was submitted has its path there. -/
structure Sound (work : Work) (submitted : List FileChange) : Prop where
  idle : work.waiting = none
  nodup : work.queue.paths.Nodup
  pending : ∀ change ∈ submitted, Path.normalize change.path ∈ work.queue.paths

lemma sound_start (store : PatternStore) : Sound (.start store) [] := ⟨rfl, .nil, by simp⟩

lemma Sound.perform {work : Work} {submitted : List FileChange} (sound : Sound work submitted)
    {call : SchedulerCall} (hopen : call.isOpen = true) :
    Sound (call.perform work) (call.outstanding submitted) := by
  cases call with
  | submit changes trigger =>
    obtain ⟨grown, hsubmitted⟩ := ChangeQueue.pushAll_grown trigger work.queue changes
    refine ⟨sound.idle, grown.nodup sound.nodup, fun change hchange => ?_⟩
    rcases List.mem_append.mp hchange with hbefore | hnew
    · exact grown.kept _ (sound.pending change hbefore)
    · exact hsubmitted change hnew
  | cancel => exact ⟨sound.idle, .nil, by simp [outstanding]⟩
  | work context =>
    obtain ⟨batches, handedOver⟩ :=
      Work.exists_handedOver (by simpa [isOpen] using hopen) sound.idle sound.nodup
    obtain ⟨hqueue, hwaiting⟩ := Work.answers_queue context batches work.emptied
    have hrun : SchedulerCall.perform work (.work context) = work.run context := rfl
    refine ⟨?_, ?_, by simp [outstanding]⟩
    · rw [hrun, handedOver.run, hwaiting]
      exact sound.idle
    · rw [hrun, handedOver.run, hqueue]
      exact .nil

lemma Sound.performAll {calls : List SchedulerCall} {work : Work} {submitted : List FileChange}
    (sound : Sound work submitted) (hopen : ∀ call ∈ calls, call.isOpen = true) :
    Sound (calls.foldl SchedulerCall.perform work) (calls.foldl outstanding submitted) := by
  induction calls generalizing work submitted with
  | nil => exact sound
  | cons call calls ih =>
    exact ih (sound.perform (hopen call (by simp)))
      fun later hlater => hopen later (by simp [hlater])

end SchedulerCall

namespace Work

/-- Whatever was submitted, dropped and worked on before, a worker hands over all that is
outstanding, and ends with nothing pending. Every path that was submitted is in one of the
batches. A batch is rejected as a whole for its first malformed change, and one without any
malformed change is learned. -/
theorem run_hands_over {calls : List SchedulerCall} (hcalls : ∀ call ∈ calls, call.isOpen = true)
    {context : WorkContext} (hopen : context.isHeld = false)
    (hlimit : 0 < context.policy.batchFiles) (store : PatternStore) :
    ∃ batches, HandedOver context (calls.foldl SchedulerCall.perform (.start store)) batches ∧
      (∀ change ∈ calls.foldl SchedulerCall.outstanding [], ∃ batch ∈ batches,
        ∃ handed ∈ batch.changes, handed.path = Path.normalize change.path) ∧
      ∀ batch ∈ batches, ∀ store, batch.Outcome context store := by
  have sound := (SchedulerCall.sound_start store).performAll hcalls
  obtain ⟨batches, handedOver⟩ := exists_handedOver hopen sound.idle sound.nodup
  refine ⟨batches, handedOver, ?_, ?_⟩
  · intro change hchange
    obtain ⟨entry, hentry, hpath⟩ := List.mem_map.mp (sound.pending change hchange)
    have hhanded := handedOver.pending.mem_iff.mpr (List.mem_map_of_mem hentry)
    obtain ⟨batch, hbatch, hmem⟩ := List.mem_flatMap.mp hhanded
    exact ⟨batch, hbatch, entry.change, hmem, hpath⟩
  · intro batch hbatch
    have hlength := handedOver.limit batch hbatch
    exact ChangeBatch.outcome (by omega)

end Work

/-! Two files are added by two calls, and the second one lies outside of the project. -/

def sampleEager : WorkContext :=
  ⟨"sample", LearnerRun.samplePolicy, ⟨fun _ => .ok "", fun _ _ => .ok ⟨[], false⟩⟩, 0, false⟩

def sampleSubmits (trigger : Trigger) : List SchedulerCall :=
  [.submit [.added "a.ts"] .watch, .submit [.added "../b.ts"] trigger]

/-- Under another trigger the malformed change has a batch of its own. -/
theorem sampleSubmits_hands_over :
    ∃ batches, Work.HandedOver sampleEager
        ((sampleSubmits .manual).foldl SchedulerCall.perform (.start .empty)) batches ∧
      (∀ change ∈ (sampleSubmits .manual).foldl SchedulerCall.outstanding [], ∃ batch ∈ batches,
        ∃ handed ∈ batch.changes, handed.path = Path.normalize change.path) ∧
      ∀ batch ∈ batches, ∀ store, batch.Outcome sampleEager store :=
  Work.run_hands_over (by decide) rfl (by decide) .empty

lemma mergeSort_pair {α : Type} (le : α → α → Bool) (a b : α) :
    [a, b].mergeSort le = if le a b then [a, b] else [b, a] := by
  simp [List.mergeSort, List.MergeSort.Internal.splitInTwo, List.merge]

/-- What is pending after the two calls, when both have one trigger. -/
def sampleMixed : ChangeQueue :=
  ⟨[⟨.added "../b.ts", .watch, 1⟩, ⟨.added "a.ts", .watch, 0⟩], 2, 0⟩

lemma sampleMixed_drained : sampleMixed.drain? 10 =
    some (⟨.watch, [.added "a.ts", .added "../b.ts"], none⟩, ⟨[], 2, 0⟩) := by
  have htop : sampleMixed.topTrigger? = some .watch := by decide
  have hready : sampleMixed.pending.filter (·.trigger == .watch) = sampleMixed.pending := by decide
  rw [ChangeQueue.drain?, htop, Option.map_some, hready, sampleMixed, mergeSort_pair]
  rfl

/-- A file that could be learned is lost with one that could not: the one answer is an error about
the other file, nothing is pending, and no file is known. -/
theorem sampleSubmits_lost :
    Coalesce.checkedPath "a.ts" = .ok "a.ts" ∧
    let work := ((sampleSubmits .watch).foldl SchedulerCall.perform (.start .empty)).run sampleEager
    work.results = [.error (.invalidBatch "path escapes the project root: '../b.ts'")] ∧
      work.queue.pending = [] ∧ work.store.files = [] := by
  have hqueue : (sampleSubmits .watch).foldl SchedulerCall.perform (.start .empty) =
      ⟨.empty, sampleMixed, [], [], none⟩ := by
    have hpending : ChangeQueue.pushAll .watch (ChangeQueue.pushAll .watch .empty [.added "a.ts"])
        [.added "../b.ts"] = sampleMixed := rfl
    rw [← hpending]
    rfl
  have hrejected : coalesce 10 [.added "a.ts", .added "../b.ts"] =
      .error (.invalidBatch "path escapes the project root: '../b.ts'") := rfl
  have hrun : Work.run ⟨.empty, sampleMixed, [], [], none⟩ sampleEager = ⟨.empty, ⟨[], 2, 0⟩,
      [.error (.invalidBatch "path escapes the project root: '../b.ts'")], [], none⟩ := by
    show Work.runFor sampleEager 2 ⟨.empty, sampleMixed, [], [], none⟩ = _
    simp only [Work.runFor, Option.isSome_none, Bool.false_eq_true, if_false]
    rw [show sampleEager.policy.batchFiles = 10 from rfl, sampleMixed_drained]
    simp only [Work.takeOn, LearningTask.begin]
    rw [show sampleEager.policy.batchFiles = 10 from rfl, hrejected]
    rfl
  refine ⟨by decide, ?_⟩
  rw [hqueue, hrun]
  exact ⟨rfl, rfl, rfl⟩

end HouseStyle
