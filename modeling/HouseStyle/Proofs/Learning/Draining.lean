import HouseStyle.Proofs.Learning.Priority
import Mathlib.Data.String.Basic

/-!
# Draining a queue to its end

Whatever was pushed, drained and cleared before, each pending entry is found under its own path
and has a place of its own before the next one. A drain hands out the first entries of the most
urgent trigger and leaves the others as they are, so draining until nothing is left hands out
every pending change once, the most urgent ones first.
-/

namespace HouseStyle

namespace ChangeQueue

variable {queue rest : ChangeQueue} {batch : ChangeBatch} {limit : Nat} {entry : PendingChange}

/-! ## Calls -/

/-- What is done with a queue. -/
inductive Call where
  | push (change : FileChange) (trigger : Trigger)
  | drain (limit : Nat)
  | clear

def Call.perform (queue : ChangeQueue) : Call → ChangeQueue
  | push change trigger => (Step.push change trigger).perform queue
  | drain limit => (Step.drain limit).perform queue
  | clear => queue.clear

def afterCalls (queue : ChangeQueue) (calls : List Call) : ChangeQueue :=
  calls.foldl Call.perform queue

lemma Numbered.call (numbered : queue.Numbered) (call : Call) : (call.perform queue).Numbered := by
  cases call with
  | push change trigger => exact numbered.perform (.push change trigger)
  | drain limit => exact numbered.perform (.drain limit)
  | clear => exact numbered.sublist rfl (List.nil_sublist _)

lemma Numbered.afterCalls (numbered : queue.Numbered) (calls : List Call) :
    (queue.afterCalls calls).Numbered := by
  induction calls generalizing queue with
  | nil => exact numbered
  | cons call calls ih => exact ih (numbered.call call)

/-! ## One drain -/

/-- The order of the queue. Entries that were split from one change share its number. -/
def Before (first second : PendingChange) : Prop :=
  first.order < second.order ∨
    (first.order = second.order ∧ first.change.path < second.change.path)

/-- The revision of the last change that has one. -/
def LastRevision (changes : List FileChange) : Option String → Prop
  | none => ∀ change ∈ changes, change.revision = none
  | some revision => ∃ front change back, changes = front ++ change :: back ∧
      change.revision = some revision ∧ ∀ later ∈ back, later.revision = none

/-- What a drain hands out and leaves: the first of the most urgent entries go. -/
structure HandsOut (queue : ChangeQueue) (limit : Nat) (taken : List PendingChange)
    (batch : ChangeBatch) (rest : ChangeQueue) : Prop where
  pending : ∃ entry ∈ queue.pending, entry.trigger = batch.trigger
  urgent : ∀ entry ∈ queue.pending, entry.trigger.priority ≤ batch.trigger.priority
  ready : ∀ entry ∈ taken, entry ∈ queue.pending ∧ entry.trigger = batch.trigger
  length : taken.length =
    min (max limit 1) (queue.pending.countP (·.trigger == batch.trigger))
  ordered : taken.Pairwise Before
  least : ∀ entry ∈ taken, ∀ other ∈ queue.pending, other.trigger = batch.trigger →
    other ∉ taken → Before entry other
  changes : batch.changes = taken.map (·.change)
  revision : LastRevision batch.changes batch.revision
  rest : rest = { queue with pending := queue.pending.filter (· ∉ taken) }

lemma lastRevision_getLast (changes : List FileChange) :
    LastRevision changes (changes.filterMap (·.revision)).getLast? := by
  induction changes using List.reverseRecOn with
  | nil => simp [LastRevision]
  | append_singleton changes change ih =>
    cases hrevision : change.revision with
    | some revision =>
      rw [List.filterMap_append, List.filterMap_cons_some hrevision, List.filterMap_nil,
        List.getLast?_concat]
      exact ⟨changes, change, [], rfl, hrevision, by simp⟩
    | none =>
      rw [List.filterMap_append, List.filterMap_cons_none hrevision, List.filterMap_nil,
        List.append_nil]
      cases hlast : (changes.filterMap (·.revision)).getLast? with
      | none =>
        rw [hlast] at ih
        simpa [LastRevision, or_imp, forall_and, hrevision] using ih
      | some revision =>
        rw [hlast] at ih
        obtain ⟨front, found, back, rfl, hfound, hback⟩ := ih
        refine ⟨front, found, back ++ [change], by simp, hfound, ?_⟩
        intro later hlater
        rcases List.mem_append.mp hlater with hlater | hlater
        · exact hback later hlater
        · rw [List.mem_singleton.mp hlater, hrevision]

/-- Entries for different paths are never level. -/
lemma before_of_earlier {first second : PendingChange} (h : earlier first second = true)
    (hne : first.change.path ≠ second.change.path) : Before first second := by
  rcases earlier_iff.mp h with horder | ⟨horder, hpath⟩
  · exact .inl horder
  · exact .inr ⟨horder, lt_of_le_of_ne hpath hne⟩

/-- The entries of a trigger in the order of the queue. -/
lemma pairwise_before (nodup : queue.paths.Nodup) (trigger : Trigger) :
    ((queue.pending.filter (·.trigger == trigger)).mergeSort earlier).Pairwise Before := by
  have sorted := List.pairwise_mergeSort earlier_trans earlier_total
    (queue.pending.filter (·.trigger == trigger))
  have distinct : ((queue.pending.filter (·.trigger == trigger)).mergeSort earlier).Pairwise
      fun first second => first.change.path ≠ second.change.path := by
    rw [← List.pairwise_map, ← List.nodup_iff_pairwise_ne]
    refine ((List.mergeSort_perm _ _).map _).nodup_iff.mpr ?_
    exact nodup.sublist (List.filter_sublist.map _)
  exact (sorted.and distinct).imp fun h => before_of_earlier h.1 h.2

lemma exists_of_topTrigger {top : Trigger} (htop : queue.topTrigger? = some top) :
    ∃ entry ∈ queue.pending, entry.trigger = top := by
  have hpending : queue.pending ≠ [] := by
    intro hnil
    simp [topTrigger?, hnil] at htop
  obtain ⟨found, hfound, hpresent⟩ := exists_topTrigger hpending
  rwa [Option.some.inj (htop.symm.trans hfound)]

theorem drain?_handsOut (nodup : queue.paths.Nodup)
    (hdrain : queue.drain? limit = some (batch, rest)) :
    ∃ taken, queue.HandsOut limit taken batch rest := by
  obtain ⟨top, htop, hbatch, hrest⟩ := drain?_eq_some.mp hdrain
  have hordered := pairwise_before nodup top
  have hready : ∀ entry, entry ∈ (queue.pending.filter (·.trigger == top)).mergeSort earlier ↔
      entry ∈ queue.pending ∧ entry.trigger = top := by simp
  have hlength : ((queue.pending.filter (·.trigger == top)).mergeSort earlier).length =
      queue.pending.countP (·.trigger == top) := by
    rw [List.length_mergeSort, List.countP_eq_length_filter]
  obtain ⟨first, hfirst, htrigger⟩ := exists_of_topTrigger htop
  generalize (queue.pending.filter (·.trigger == top)).mergeSort earlier = ready at *
  have hsplit := List.take_append_drop (max limit 1) ready
  have htaken : ∀ entry ∈ ready.take (max limit 1), entry ∈ queue.pending ∧
      entry.trigger = top := fun entry hentry => (hready entry).mp (List.mem_of_mem_take hentry)
  subst hbatch
  refine ⟨ready.take (max limit 1), {
    pending := ⟨first, hfirst, htrigger⟩
    urgent := fun entry hentry => priority_le_top htop hentry
    ready := htaken
    length := by rw [List.length_take, hlength]
    ordered := hordered.sublist (List.take_sublist _ _)
    least := ?least
    changes := rfl
    revision := lastRevision_getLast _
    rest := ?rest }⟩
  case least =>
    intro entry hentry other hother hsame hnot
    rw [← hsplit, List.pairwise_append] at hordered
    refine hordered.2.2 entry hentry other ?_
    have hmem : other ∈ ready := (hready other).mpr ⟨hother, hsame⟩
    rw [← hsplit, List.mem_append] at hmem
    exact hmem.resolve_left hnot
  case rest =>
    rw [hrest]
    congr 1
    refine List.filter_congr fun entry hentry => ?_
    -- paths are all different, so what goes by its path is what was taken
    rw [Bool.eq_iff_iff]
    simp only [Bool.not_eq_true', ← Bool.not_eq_true, List.contains_iff_mem, List.mem_map,
      decide_eq_true_eq]
    refine not_congr ⟨?_, fun h => ⟨entry, h, rfl⟩⟩
    rintro ⟨other, hother, hpath⟩
    exact path_injective nodup (htaken other hother).1 hentry hpath ▸ hother

lemma drain?_eq_none : queue.drain? limit = none ↔ queue.pending = [] := by
  refine ⟨fun h => ?_, fun h => by simp [drain?, topTrigger?, h]⟩
  by_contra hpending
  obtain ⟨top, htop, -⟩ := exists_topTrigger hpending
  simp [drain?, htop] at h

/-! ## Draining to the end -/

/-- Every drain takes something out, whatever the queue holds. -/
lemma drain?_shorter (h : queue.drain? limit = some (batch, rest)) :
    rest.pending.length < queue.pending.length := by
  obtain ⟨top, htop, -, rfl⟩ := drain?_eq_some.mp h
  obtain ⟨first, hfirst, htrigger⟩ := exists_of_topTrigger htop
  have hready : (queue.pending.filter (·.trigger == top)).mergeSort earlier ≠ [] :=
    List.ne_nil_of_mem (List.mem_mergeSort.mpr (List.mem_filter.mpr ⟨hfirst, by simp [htrigger]⟩))
  obtain ⟨least, later, hsorted⟩ := List.exists_cons_of_ne_nil hready
  have hleast : least ∈ queue.pending :=
    (List.mem_filter.mp (List.mem_mergeSort.mp (hsorted ▸ List.mem_cons_self))).1
  have htake : (least :: later).take (max limit 1) = least :: later.take (max limit 1 - 1) :=
    List.take_cons (by omega)
  simp only [hsorted, htake]
  exact List.length_filter_lt_length_iff_exists.mpr ⟨least, hleast, by simp⟩

/-- Drain a queue, each time with a limit of its own, until nothing is handed out, and give the
batches with the queue that is left. -/
def drainAll (limits : Nat → Nat) (queue : ChangeQueue) : List ChangeBatch × ChangeQueue :=
  match _hdrain : queue.drain? (limits 0) with
  | none => ([], queue)
  | some (batch, rest) =>
    let (batches, last) := drainAll (fun n => limits (n + 1)) rest
    (batch :: batches, last)
termination_by queue.pending.length
decreasing_by exact drain?_shorter _hdrain

lemma drainAll_none {limits : Nat → Nat} (h : queue.drain? (limits 0) = none) :
    queue.drainAll limits = ([], queue) := by
  rw [drainAll]
  split
  · rfl
  · next hsome =>
    rw [h] at hsome
    cases hsome

lemma drainAll_some {limits : Nat → Nat} (h : queue.drain? (limits 0) = some (batch, rest)) :
    queue.drainAll limits = (batch :: (rest.drainAll fun n => limits (n + 1)).1,
      (rest.drainAll fun n => limits (n + 1)).2) := by
  rw [drainAll]
  split
  · next hnone =>
    rw [h] at hnone
    cases hnone
  · next hsome =>
    rw [h] at hsome
    cases hsome
    rfl

/-- What is handed out and what stays is what was pending. -/
lemma drain?_perm (nodup : queue.paths.Nodup)
    (hdrain : queue.drain? limit = some (batch, rest)) :
    (batch.changes ++ rest.pending.map (·.change)).Perm (queue.pending.map (·.change)) := by
  have hpending : queue.pending ≠ [] := by
    intro hnil
    rw [drain?_eq_none.mpr hnil] at hdrain
    cases hdrain
  obtain ⟨_, _, hsome, taken⟩ := drain?_taken nodup hpending limit
  obtain ⟨rfl, rfl⟩ := Prod.mk.inj (Option.some.inj (hsome.symm.trans hdrain))
  exact taken.perm

/-- Draining a queue to its end. -/
structure DrainsOut (queue : ChangeQueue) (batches : List ChangeBatch) (last : ChangeQueue) :
    Prop where
  once : (batches.flatMap (·.changes)).Perm (queue.pending.map (·.change))
  urgentFirst : batches.Pairwise fun first second =>
    second.trigger.priority ≤ first.trigger.priority
  length : batches.length ≤ queue.pending.length
  emptied : last.pending = []
  next : last.nextOrder = queue.nextOrder

/-- No batch is more urgent than what was pending. -/
lemma drainAll_priority_le (numbered : queue.Numbered) (limits : Nat → Nat) {top : Nat}
    (h : ∀ entry ∈ queue.pending, entry.trigger.priority ≤ top) :
    ∀ batch ∈ (queue.drainAll limits).1, batch.trigger.priority ≤ top := by
  induction hn : queue.pending.length using Nat.strongRecOn generalizing queue limits with
  | ind n ih =>
    cases hdrain : queue.drain? (limits 0) with
    | none => simp [drainAll_none hdrain]
    | some taken =>
      obtain ⟨batch, rest⟩ := taken
      obtain ⟨taken, hands⟩ := drain?_handsOut numbered.nodup hdrain
      have hsub : rest.pending.Sublist queue.pending := by
        rw [hands.rest]
        exact List.filter_sublist
      rw [drainAll_some hdrain, List.forall_mem_cons]
      constructor
      · obtain ⟨entry, hentry, htrigger⟩ := hands.pending
        exact htrigger ▸ h entry hentry
      · exact ih _ (hn ▸ drain?_shorter hdrain) (numbered.sublist (by rw [hands.rest]) hsub) _
          (fun entry hentry => h entry (hsub.subset hentry)) rfl

theorem drainAll_drainsOut (numbered : queue.Numbered) (limits : Nat → Nat) :
    queue.DrainsOut (queue.drainAll limits).1 (queue.drainAll limits).2 := by
  induction hn : queue.pending.length using Nat.strongRecOn generalizing queue limits with
  | ind n ih =>
    cases hdrain : queue.drain? (limits 0) with
    | none =>
      have hpending := drain?_eq_none.mp hdrain
      rw [drainAll_none hdrain]
      exact ⟨by simp [hpending], .nil, Nat.zero_le _, hpending, rfl⟩
    | some taken =>
      obtain ⟨batch, rest⟩ := taken
      obtain ⟨taken, hands⟩ := drain?_handsOut numbered.nodup hdrain
      have hshorter := drain?_shorter hdrain
      have hnext : rest.nextOrder = queue.nextOrder := by rw [hands.rest]
      have hsub : rest.pending.Sublist queue.pending := by
        rw [hands.rest]
        exact List.filter_sublist
      have left := numbered.sublist hnext hsub
      have later := ih _ (hn ▸ hshorter) left (fun n => limits (n + 1)) rfl
      rw [drainAll_some hdrain]
      exact {
        once := by
          rw [List.flatMap_cons]
          exact (later.once.append_left _).trans (drain?_perm numbered.nodup hdrain)
        urgentFirst := by
          refine List.pairwise_cons.mpr ⟨?_, later.urgentFirst⟩
          exact drainAll_priority_le left _ fun entry hentry =>
            hands.urgent entry (hsub.subset hentry)
        length := by
          have := later.length
          rw [List.length_cons]
          omega
        emptied := later.emptied
        next := later.next.trans hnext }

/-- A queue whose entries are told apart by their paths and their places, and that hands them
out by their triggers and places. -/
structure Orderly (queue : ChangeQueue) : Prop where
  keyed : ∀ entry ∈ queue.pending, queue.find? entry.change.path = some entry
  numbered : ∀ entry ∈ queue.pending, entry.order < queue.nextOrder
  blank : ∀ limit, queue.drain? limit = none ↔ queue.pending = []
  drains : ∀ limit batch rest, queue.drain? limit = some (batch, rest) →
    ∃ taken, queue.HandsOut limit taken batch rest
  drainsOut : ∀ limits, queue.DrainsOut (queue.drainAll limits).1 (queue.drainAll limits).2

lemma Numbered.find?_eq (numbered : queue.Numbered) (hentry : entry ∈ queue.pending) :
    queue.find? entry.change.path = some entry := by
  cases hfound : queue.find? entry.change.path with
  | none =>
    have habsent := List.find?_eq_none.mp hfound entry hentry
    simp at habsent
  | some found =>
    obtain ⟨hmem, hpath⟩ := mem_of_find? hfound
    rw [path_injective numbered.nodup hmem hentry hpath]

/-- After any pushes, drains and clears, with any changes, triggers and limits, a queue is
orderly. -/
theorem orderly_afterCalls (calls : List Call) : (empty.afterCalls calls).Orderly := by
  have numbered : (empty.afterCalls calls).Numbered := numbered_empty.afterCalls calls
  exact {
    keyed := fun entry hentry => numbered.find?_eq hentry
    numbered := numbered.orders
    blank := fun limit => drain?_eq_none
    drains := fun limit batch rest h => drain?_handsOut numbered.nodup h
    drainsOut := drainAll_drainsOut numbered }

end ChangeQueue

end HouseStyle
