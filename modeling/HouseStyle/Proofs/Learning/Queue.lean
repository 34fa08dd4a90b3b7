import HouseStyle.Learning.Queue
import HouseStyle.Proofs.Learning.Plan

/-!
# What becomes of changes in the queue

A queue has a plan like a batch: what is to be done with each path. Pushing a change adds it
to the plan as it would be added to that of a batch, with two exceptions. A pending rename
whose target is deleted, or renamed over, is forgotten together with its source; and a source
that has come up again since is left as it is. Where neither happens, and no renamed file is
edited in a place before its rename, the queue hands out what the batch comes to.
-/

namespace HouseStyle

lemma Trigger.max_self (trigger : Trigger) : trigger.max trigger = trigger := by
  cases trigger <;> rfl

namespace FileChange

variable {change : FileChange}

/-- A clean change is queued as it is. -/
lemma Clean.normalized (clean : change.Clean) : (ChangeQueue.normalized change).Clean ∧
    (ChangeQueue.normalized change).path = change.path ∧
    (ChangeQueue.normalized change).treatment = change.treatment := by
  have hpath := Coalesce.normalize_of_checkedPath clean.path
  unfold ChangeQueue.normalized
  rw [hpath]
  cases hkind : change.kind with
  | renamed =>
    obtain ⟨source, hsource, hclean⟩ := clean.source hkind
    have hnormal := Coalesce.normalize_of_checkedPath hclean
    rw [hsource, Option.map_some, hnormal]
    exact ⟨⟨clean.path, fun _ => ⟨source, rfl, hclean⟩⟩, rfl, by simp [treatment, hkind, hsource]⟩
  | added | modified | deleted =>
    exact ⟨⟨clean.path, by simp⟩, rfl, by simp [treatment, hkind]⟩

end FileChange

namespace ChangeQueue

variable {queue : ChangeQueue} {entry source existing : PendingChange} {change : FileChange}
  {trigger : Trigger} {path : String}

/-- The plan of what is pending. -/
def planOf (queue : ChangeQueue) : Plan := fun path =>
  (queue.find? path).map (·.change.treatment)

/-- A queue that was filled with one trigger: one entry for each path, and clean changes. -/
structure Filled (trigger : Trigger) (queue : ChangeQueue) : Prop where
  nodup : (queue.pending.map (·.change.path)).Nodup
  triggers : ∀ entry ∈ queue.pending, entry.trigger = trigger
  clean : ∀ entry ∈ queue.pending, entry.change.Clean

lemma filled_empty (trigger : Trigger) : Filled trigger empty :=
  ⟨List.nodup_nil, by simp [empty], by simp [empty]⟩

/-! ## Writes -/

lemma mem_of_find? (h : queue.find? path = some entry) :
    entry ∈ queue.pending ∧ entry.change.path = path :=
  ⟨List.mem_of_find?_eq_some h, by simpa using List.find?_some h⟩

lemma find?_erase (queue : ChangeQueue) (path other : String) :
    (queue.erase path).find? other = if other = path then none else queue.find? other := by
  unfold find? erase
  rw [List.find?_filter]
  split
  · next h => simp [h, List.find?_eq_none]
  · next h =>
    congr 1
    funext entry
    by_cases hentry : entry.change.path = other
    · simp [hentry, h]
    · simp [hentry]

lemma planOf_put (queue : ChangeQueue) (entry : PendingChange) :
    (queue.put entry).planOf = queue.planOf.set entry.change.path entry.change.treatment := by
  funext path
  unfold planOf
  by_cases h : path = entry.change.path
  · rw [h, Plan.set_same]
    simp [find?, put]
  · have herase := queue.find?_erase entry.change.path path
    rw [if_neg h] at herase
    have hne : (entry.change.path == path) = false := beq_eq_false_iff_ne.mpr (Ne.symm h)
    rw [Plan.set_other h, ← herase]
    simp [find?, put, erase, hne]

lemma planOf_putLast (queue : ChangeQueue) (change : FileChange) (trigger : Trigger) :
    (queue.putLast change trigger).planOf = queue.planOf.set change.path change.treatment :=
  planOf_put _ _

lemma planOf_erase_other {other : String} (h : other ≠ path) :
    (queue.erase path).planOf other = queue.planOf other := by
  rw [planOf, find?_erase, if_neg h, planOf]

lemma Filled.erase (filled : queue.Filled trigger) (path : String) :
    (queue.erase path).Filled trigger where
  nodup := filled.nodup.sublist (List.filter_sublist.map _)
  triggers := fun entry hentry => filled.triggers entry (List.mem_filter.mp hentry).1
  clean := fun entry hentry => filled.clean entry (List.mem_filter.mp hentry).1

lemma Filled.put (filled : queue.Filled trigger) (htrigger : entry.trigger = trigger)
    (clean : entry.change.Clean) : (queue.put entry).Filled trigger where
  nodup := by
    refine List.nodup_cons.mpr ⟨?_, (filled.erase entry.change.path).nodup⟩
    simp
  triggers := List.forall_mem_cons.mpr ⟨htrigger, (filled.erase entry.change.path).triggers⟩
  clean := List.forall_mem_cons.mpr ⟨clean, (filled.erase entry.change.path).clean⟩

lemma Filled.putLast (filled : queue.Filled trigger) (clean : change.Clean) :
    (queue.putLast change trigger).Filled trigger := by
  have counted : Filled trigger { queue with nextOrder := queue.nextOrder + 1 } :=
    ⟨filled.nodup, filled.triggers, filled.clean⟩
  exact counted.put rfl clean

lemma planOf_putIfAbsent (queue : ChangeQueue) (entry : PendingChange) :
    (queue.putIfAbsent entry).planOf =
      if queue.planOf entry.change.path = none then
        queue.planOf.set entry.change.path entry.change.treatment
      else queue.planOf := by
  unfold putIfAbsent
  cases hfound : queue.find? entry.change.path with
  | none => simp [planOf_put, planOf, hfound]
  | some found => simp [planOf, hfound]

lemma Filled.putIfAbsent (filled : queue.Filled trigger) (htrigger : entry.trigger = trigger)
    (clean : entry.change.Clean) : (queue.putIfAbsent entry).Filled trigger := by
  unfold ChangeQueue.putIfAbsent
  split
  · exact filled
  · exact filled.put htrigger clean

lemma Filled.countSuperseded (filled : queue.Filled trigger) :
    queue.countSuperseded.Filled trigger :=
  ⟨filled.nodup, filled.triggers, filled.clean⟩

/-! ## Pushing a change -/

lemma planOf_pushSplitRename (queue : ChangeQueue) (source : PendingChange) (change : FileChange)
    (trigger : Trigger) : (queue.pushSplitRename source change trigger).planOf =
      (queue.planOf.set source.change.path .deleted).set change.path .read := by
  have hsplit : (queue.countSuperseded.put
      ⟨.deleted source.change.path, source.trigger.max trigger, source.order⟩).planOf =
      queue.planOf.set source.change.path .deleted := planOf_put _ _
  rw [← hsplit]
  unfold pushSplitRename
  simp only
  split
  · exact planOf_put _ _
  · exact planOf_putLast _ _ _

lemma Filled.pushSplitRename (filled : queue.Filled trigger) (hsource : source ∈ queue.pending)
    (clean : change.Clean) : (queue.pushSplitRename source change trigger).Filled trigger := by
  have hmax : source.trigger.max trigger = trigger := by
    rw [filled.triggers source hsource, Trigger.max_self]
  have split : (queue.countSuperseded.put
      ⟨.deleted source.change.path, source.trigger.max trigger, source.order⟩).Filled trigger :=
    filled.countSuperseded.put hmax
      (FileChange.clean_deleted (filled.clean source hsource).path)
  have added : FileChange.Clean { FileChange.added change.path with revision := change.revision } :=
    ⟨clean.path, nofun⟩
  unfold ChangeQueue.pushSplitRename
  simp only
  split
  · exact split.countSuperseded.put hmax added
  · rw [hmax] at split ⊢
    exact split.putLast added

/-- A change that leaves no rename behind takes the place of the pending one. -/
lemma planOf_pushOver (h : ¬(existing.change.kind = .renamed ∧ change.kind.needsExtraction)) :
    (queue.pushOver existing change trigger).planOf =
      queue.planOf.set change.path change.treatment := by
  unfold pushOver
  simp only
  rw [if_neg h, planOf_put]
  exact Plan.set_congr fun other hother => planOf_erase_other hother

/-- A file that was renamed and is edited is read, and its source is removed, unless something
else is planned for that by now. -/
lemma planOf_pushOver_edit {from? : String} (hkind : existing.change.kind = .renamed)
    (hsource : existing.change.previousPath = some from?)
    (hedit : change.kind.needsExtraction = true)
    (hfree : from? = change.path ∨ queue.planOf from? = none ∨
      queue.planOf from? = some .deleted) :
    (queue.pushOver existing change trigger).planOf =
      (queue.planOf.set from? .deleted).set change.path .read := by
  unfold pushOver
  simp only
  rw [if_pos ⟨hkind, hedit⟩, hsource, planOf_put]
  refine Plan.set_congr fun other hother => ?_
  simp only
  rw [planOf_putIfAbsent]
  have herased : ∀ path ≠ change.path,
      (queue.erase change.path).countSuperseded.planOf path = queue.planOf path :=
    fun path hpath => planOf_erase_other hpath
  by_cases hfrom : other = from?
  · rw [hfrom, Plan.set_same]
    rw [hfrom] at hother
    have hplanned := hfree.resolve_left hother
    split
    · exact Plan.set_same
    · next hpending =>
      rw [FileChange.deleted, herased from? hother] at hpending
      rw [herased from? hother]
      exact hplanned.resolve_left hpending
  · rw [Plan.set_other hfrom, ← herased other hother]
    split
    · exact Plan.set_other hfrom
    · rfl

lemma Filled.pushOver (filled : queue.Filled trigger) (hexisting : existing ∈ queue.pending)
    (clean : change.Clean) : (queue.pushOver existing change trigger).Filled trigger := by
  have hmax : existing.trigger.max trigger = trigger := by
    rw [filled.triggers existing hexisting, Trigger.max_self]
  have counted := (filled.erase change.path).countSuperseded
  unfold ChangeQueue.pushOver
  simp only
  split
  · next hrenamed =>
    obtain ⟨from?, hsource, hclean⟩ := (filled.clean existing hexisting).source hrenamed.1
    refine Filled.put ?_ hmax ⟨clean.path, nofun⟩
    rw [hsource]
    exact counted.putIfAbsent hmax (FileChange.clean_deleted hclean)
  · exact counted.put hmax clean

/-- A pending rename of a file onto itself is none of its edits. -/
lemma editedSource?_eq_some : queue.editedSource? change = some source ↔
    change.kind = .renamed ∧ change.previousPath.bind queue.find? = some source ∧
      source.change.kind.needsExtraction = true := by
  unfold editedSource?
  split
  · next hkind => simp [Option.filter_eq_some_iff, hkind]
  · next hkind => simp [hkind]

/-- The queue does with a change what a batch does. A pending rename to its path is followed by
an edit, when nothing but a removal is planned for the source since; and the source of a rename
is not pending as a rename onto itself. -/
structure Clear (queue : ChangeQueue) (change : FileChange) : Prop where
  target : ∀ from?, queue.planOf change.path = some (.rekeyed from?) →
    change.kind.needsExtraction = true ∧
      (queue.planOf from? = none ∨ queue.planOf from? = some .deleted)
  source : ∀ from? entry, change.treatment = .rekeyed from? → queue.find? from? = some entry →
    entry.change.treatment = .read → entry.change.kind.needsExtraction = true

/-- A change in place of a pending one is decided on anew. -/
lemma Clear.push_over (clear : queue.Clear change) (filled : queue.Filled trigger)
    (hfound : queue.find? change.path = some existing) :
    (queue.pushOver existing change trigger).planOf =
      (queue.planOf.release change.path).set change.path change.treatment := by
  obtain ⟨hmem, hpath⟩ := mem_of_find? hfound
  have hplan : queue.planOf change.path = some existing.change.treatment := by
    rw [planOf, hfound, Option.map_some]
  by_cases hrenamed : existing.change.kind = .renamed ∧ change.kind.needsExtraction = true
  · obtain ⟨from?, hfrom, -⟩ := (filled.clean existing hmem).source hrenamed.1
    rw [FileChange.treatment_of_needsExtraction hrenamed.2]
    by_cases hself : from? = change.path
    · have hread : existing.change.treatment = .read := by
        simp [FileChange.treatment, hrenamed.1, hfrom, hself, hpath]
      rw [planOf_pushOver_edit hrenamed.1 hfrom hrenamed.2 (.inl hself),
        Plan.release_other (by simp [hplan, hread]), hself, Plan.set_set]
    · have hrekeyed : existing.change.treatment = .rekeyed from? := by
        simp [FileChange.treatment, hrenamed.1, hfrom, hself, hpath]
      rw [hrekeyed] at hplan
      rw [planOf_pushOver_edit hrenamed.1 hfrom hrenamed.2 (.inr (clear.target from? hplan).2),
        Plan.release_rekeyed hplan]
  · rw [planOf_pushOver hrenamed, Plan.release_other]
    intro from? hrekeyed
    have hedit := (clear.target from? hrekeyed).1
    rw [hplan, Option.some.injEq] at hrekeyed
    exact hrenamed ⟨(FileChange.renamed_of_rekeyed hrekeyed).1, hedit⟩

lemma planOf_push_last (hfound : queue.find? change.path = none) :
    (queue.putLast change trigger).planOf =
      (queue.planOf.release change.path).set change.path change.treatment := by
  have hnone : queue.planOf change.path = none := by rw [planOf, hfound, Option.map_none]
  rw [Plan.release_other (by simp [hnone])]
  exact planOf_putLast _ _ _

/-- A rename to a path is no edit of it, and gives no other rename up. -/
lemma Clear.release_renamed (clear : queue.Clear change) (hkind : change.kind = .renamed) :
    queue.planOf.release change.path = queue.planOf := by
  refine Plan.release_other fun from? hrekeyed => ?_
  have hedit := (clear.target from? hrekeyed).1
  rw [hkind] at hedit
  cases hedit

lemma Clear.push_split (clear : queue.Clear change)
    (hsource : queue.editedSource? change = some source) :
    (queue.pushSplitRename source change trigger).planOf =
      queue.planOf.add change.path change.treatment := by
  obtain ⟨hkind, hfound, hedited⟩ := editedSource?_eq_some.mp hsource
  obtain ⟨from?, hfrom, hfound⟩ := Option.bind_eq_some_iff.mp hfound
  obtain ⟨-, rfl⟩ := mem_of_find? hfound
  have hread : queue.planOf source.change.path = some .read := by
    rw [planOf, hfound, Option.map_some, FileChange.treatment_of_needsExtraction hedited]
  rw [planOf_pushSplitRename]
  by_cases hself : source.change.path = change.path
  · have htreatment : change.treatment = .read := by
      simp [FileChange.treatment, hkind, hfrom, hself]
    rw [htreatment, Plan.add, clear.release_renamed hkind, hself, Plan.set_set]
  · have htreatment : change.treatment = .rekeyed source.change.path := by
      simp [FileChange.treatment, hkind, hfrom, hself]
    rw [htreatment, Plan.add, clear.release_renamed hkind, if_pos hread]

/-- A rename of a file without a pending edit moves its rows. -/
lemma Clear.add_unsplit (clear : queue.Clear change)
    (hsource : queue.editedSource? change = none) :
    queue.planOf.add change.path change.treatment =
      (queue.planOf.release change.path).set change.path change.treatment := by
  cases htreatment : change.treatment with
  | read => rfl
  | deleted => rfl
  | rekeyed from? =>
    obtain ⟨hkind, hfrom, -⟩ := FileChange.renamed_of_rekeyed htreatment
    rw [Plan.add, if_neg]
    rw [clear.release_renamed hkind]
    intro hread
    obtain ⟨entry, hfound, hentry⟩ := Option.map_eq_some_iff.mp hread
    have hedited := clear.source from? entry htreatment hfound hentry
    have := editedSource?_eq_some.mpr ⟨hkind, by rw [hfrom]; exact hfound, hedited⟩
    rw [hsource] at this
    cases this

/-- Pushing a change adds it to the plan. -/
theorem push_planOf (filled : queue.Filled trigger) (clean : change.Clean)
    (clear : queue.Clear change) : (queue.push change trigger).Filled trigger ∧
      (queue.push change trigger).planOf = queue.planOf.add change.path change.treatment := by
  obtain ⟨hclean, hpath, htreatment⟩ := clean.normalized
  have hkind : (normalized change).kind = change.kind := by simp only [normalized]
  have hclear : queue.Clear (normalized change) := by
    constructor
    · rw [hpath, hkind]
      exact clear.target
    · rw [htreatment]
      exact clear.source
  rw [← hpath, ← htreatment]
  unfold push
  generalize normalized change = change at hclean hclear
  simp only
  split
  · next source hsource =>
    obtain ⟨-, hfound, -⟩ := editedSource?_eq_some.mp hsource
    obtain ⟨from?, -, hfound⟩ := Option.bind_eq_some_iff.mp hfound
    exact ⟨filled.pushSplitRename (mem_of_find? hfound).1 hclean, hclear.push_split hsource⟩
  · next hsource =>
    rw [hclear.add_unsplit hsource]
    split
    · next existing hfound =>
      exact ⟨filled.pushOver (mem_of_find? hfound).1 hclean, hclear.push_over filled hfound⟩
    · next hfound => exact ⟨filled.putLast hclean, planOf_push_last hfound⟩

/-! ## Filling and draining -/

/-- Push changes one after another. -/
def pushAll (trigger : Trigger) (queue : ChangeQueue) (changes : List FileChange) : ChangeQueue :=
  changes.foldl (fun queue change => queue.push change trigger) queue

/-- Every one of the changes is clear for the queue that it meets. -/
def Handles (trigger : Trigger) : ChangeQueue → List FileChange → Prop
  | _, [] => True
  | queue, change :: changes =>
    queue.Clear change ∧ Handles trigger (queue.push change trigger) changes

theorem pushAll_planOf {changes : List FileChange} (filled : queue.Filled trigger)
    (clean : ∀ change ∈ changes, change.Clean) (handled : Handles trigger queue changes) :
    (pushAll trigger queue changes).Filled trigger ∧
      (pushAll trigger queue changes).planOf =
        changes.foldl (fun plan change => plan.add change.path change.treatment) queue.planOf := by
  induction changes generalizing queue with
  | nil => exact ⟨filled, rfl⟩
  | cons change changes ih =>
    obtain ⟨clear, rest⟩ := handled
    obtain ⟨next, hplan⟩ := push_planOf filled (clean change (by simp)) clear
    rw [List.foldl_cons, ← hplan]
    exact ih next (fun c hc => clean c (by simp [hc])) rest

/-- All that is pending, drained as one batch. -/
def drained (queue : ChangeQueue) : List FileChange :=
  ((queue.drain? queue.pending.length).map (·.1.changes)).getD []

lemma topTrigger?_of_filled (filled : queue.Filled trigger) (hpending : queue.pending ≠ []) :
    queue.topTrigger? = some trigger := by
  have fold : ∀ triggers : List Trigger, (∀ t ∈ triggers, t = trigger) →
      triggers.foldl (fun top t => some ((top.getD t).max t)) (some trigger) = some trigger := by
    intro triggers hall
    induction triggers with
    | nil => rfl
    | cons t triggers ih =>
      rw [List.foldl_cons, Option.getD_some, hall t (by simp), Trigger.max_self]
      exact ih fun t ht => hall t (by simp [ht])
  unfold topTrigger?
  obtain ⟨first, rest, hpending⟩ := List.exists_cons_of_ne_nil hpending
  have hall := filled.triggers
  rw [hpending] at hall ⊢
  rw [List.map_cons, List.foldl_cons, Option.getD_none, Trigger.max_self, hall first (by simp)]
  apply fold
  intro t ht
  obtain ⟨entry, hentry, rfl⟩ := List.mem_map.mp ht
  exact hall entry (by simp [hentry])

/-- What is drained is what was pending, in the order of the queue. -/
lemma drained_eq (filled : queue.Filled trigger) :
    queue.drained = (queue.pending.mergeSort earlier).map (·.change) := by
  by_cases hpending : queue.pending = []
  · simp [drained, drain?, topTrigger?, hpending]
  · have hready : queue.pending.filter (·.trigger == trigger) = queue.pending :=
      List.filter_eq_self.mpr fun entry hentry => by simp [filled.triggers entry hentry]
    simp only [drained, drain?, topTrigger?_of_filled filled hpending, Option.map_some,
      Option.getD_some, hready]
    rw [List.take_of_length_le]
    rw [List.length_mergeSort]
    omega

lemma drained_perm (filled : queue.Filled trigger) :
    queue.drained.Perm (queue.pending.map (·.change)) :=
  drained_eq filled ▸ (List.mergeSort_perm _ _).map _

lemma earlier_iff {a b : PendingChange} : earlier a b = true ↔
    a.order < b.order ∨ (a.order = b.order ∧ a.change.path ≤ b.change.path) := by
  simp [earlier]

lemma earlier_trans (a b c : PendingChange) (hab : earlier a b = true)
    (hbc : earlier b c = true) : earlier a c = true := by
  rw [earlier_iff] at hab hbc ⊢
  rcases hab with hab | ⟨hab, hpath⟩
  · exact .inl (by omega)
  · rcases hbc with hbc | ⟨hbc, hpath'⟩
    · exact .inl (by omega)
    · exact .inr ⟨hab.trans hbc, String.le_trans hpath hpath'⟩

lemma earlier_total (a b : PendingChange) : (earlier a b || earlier b a) = true := by
  rw [Bool.or_eq_true, earlier_iff, earlier_iff]
  rcases Nat.lt_trichotomy a.order b.order with h | h | h
  · exact .inl (.inl h)
  · rcases String.le_total a.change.path b.change.path with hpath | hpath
    · exact .inl (.inr ⟨h, hpath⟩)
    · exact .inr (.inr ⟨h.symm, hpath⟩)
  · exact .inr (.inl h)

/-- No rename stands behind an edit of its source. -/
def Settled (changes : List FileChange) : Prop :=
  changes.Pairwise fun earlier later =>
    later.treatment = .rekeyed earlier.path → earlier.treatment ≠ .read

/-- Settled changes for different paths come to what they are. -/
lemma ofChanges_settled {changes : List FileChange} (nodup : (changes.map (·.path)).Nodup)
    (settled : Settled changes) : Plan.ofChanges changes = Coalesce.planOf changes := by
  induction changes using List.reverseRecOn with
  | nil => rfl
  | append_singleton changes change ih =>
    rw [List.map_append, List.nodup_append] at nodup
    obtain ⟨hnodup, -, hnew⟩ := nodup
    obtain ⟨hsettled, -, hlast⟩ := List.pairwise_append.mp settled
    have habsent : ∀ other ∈ changes, other.path ≠ change.path := fun other hother =>
      hnew other.path (List.mem_map_of_mem hother) change.path (by simp)
    have hfree : Coalesce.planOf changes change.path = none := by
      rw [Coalesce.planOf, Coalesce.pending?_eq_lookup, Option.map_eq_none_iff,
        Table.lookup_eq_none]
      exact habsent
    have hplace : Coalesce.place changes change = changes ++ [change] :=
      if_neg (by simpa using habsent)
    have hrelease : (Coalesce.planOf changes).release change.path = Coalesce.planOf changes :=
      Plan.release_other (by simp [hfree])
    rw [← hplace, Coalesce.planOf_place, hplace, Plan.ofChanges, List.foldl_append]
    show (Plan.ofChanges changes).add change.path change.treatment = _
    rw [ih hnodup hsettled]
    cases htreatment : change.treatment with
    | read => rw [Plan.add, hrelease]
    | deleted => rw [Plan.add, hrelease]
    | rekeyed source =>
      rw [Plan.add, hrelease, if_neg]
      intro hread
      obtain ⟨other, hother, rfl, hother'⟩ := (Coalesce.planOf_eq_some hnodup).mp hread
      exact hlast other hother change (by simp) htreatment hother'

/-- No edit of a file comes before a rename of it in the queue. -/
def InOrder (queue : ChangeQueue) : Prop :=
  ∀ edit ∈ queue.pending, ∀ rename ∈ queue.pending, edit.change.treatment = .read →
    rename.change.treatment = .rekeyed edit.change.path → earlier edit rename = false

instance (queue : ChangeQueue) : Decidable queue.InOrder :=
  inferInstanceAs (Decidable (∀ edit ∈ queue.pending, ∀ rename ∈ queue.pending,
    edit.change.treatment = .read → rename.change.treatment = .rekeyed edit.change.path →
      earlier edit rename = false))

lemma InOrder.settled (inOrder : queue.InOrder) (filled : queue.Filled trigger) :
    Settled queue.drained := by
  rw [drained_eq filled, Settled, List.pairwise_map]
  have sorted := List.pairwise_mergeSort earlier_trans earlier_total queue.pending
  refine sorted.imp_of_mem ?_
  intro a b ha hb hearlier hrekeyed hread
  rw [List.mem_mergeSort] at ha hb
  rw [inOrder a ha b hb hread hrekeyed] at hearlier
  cases hearlier

lemma planOf_eq_pending (queue : ChangeQueue) :
    queue.planOf = Coalesce.planOf (queue.pending.map (·.change)) := by
  funext path
  simp only [planOf, find?, Coalesce.planOf, Coalesce.pending?, List.find?_map, Option.map_map]
  rfl

/-- What the queue hands out has the plan of the queue. -/
lemma planOf_drained (filled : queue.Filled trigger) :
    (queue.drained.map (·.path)).Nodup ∧ Coalesce.planOf queue.drained = queue.planOf := by
  have perm := drained_perm filled
  have pending : ((queue.pending.map (·.change)).map (·.path)).Nodup := by
    rw [List.map_map]
    exact filled.nodup
  have nodup := (perm.map (·.path)).nodup_iff.mpr pending
  refine ⟨nodup, ?_⟩
  rw [planOf_eq_pending]
  funext path
  ext treatment
  rw [Coalesce.planOf_eq_some nodup, Coalesce.planOf_eq_some pending]
  simp only [perm.mem_iff]

/-- Changes that the queue handles, drained as one batch, come to the same set of changes as
the batch of all of them, unless an edit of a file comes before a rename of it in the queue. -/
theorem drained_marks (trigger : Trigger) (limit : Nat) {changes : List FileChange}
    (clean : ∀ change ∈ changes, change.Clean) (handled : Handles trigger empty changes)
    (inOrder : (pushAll trigger empty changes).InOrder) :
    (coalesce limit (pushAll trigger empty changes).drained).map Coalesce.marks =
      (coalesce limit changes).map Coalesce.marks := by
  obtain ⟨filled, hplan⟩ := pushAll_planOf (filled_empty trigger) clean handled
  obtain ⟨nodup, hdrained⟩ := planOf_drained filled
  have cleanDrained : ∀ change ∈ (pushAll trigger empty changes).drained, change.Clean := by
    intro change hchange
    rw [(drained_perm filled).mem_iff] at hchange
    obtain ⟨entry, hentry, rfl⟩ := List.mem_map.mp hchange
    exact filled.clean entry hentry
  obtain ⟨kept, proper, hkept, hcoalesce⟩ := Coalesce.coalesce_clean limit cleanDrained
  obtain ⟨kept', proper', hkept', hcoalesce'⟩ := Coalesce.coalesce_clean limit clean
  have hplans : Coalesce.planOf kept = Coalesce.planOf kept' := by
    rw [hkept, hkept', ofChanges_settled nodup (inOrder.settled filled), hdrained, hplan]
    rfl
  have hmarks := Coalesce.marks_of_planOf proper.nodup proper'.nodup hplans
  have hlength : kept.length = kept'.length := by
    rw [← Coalesce.card_marks proper.nodup, ← Coalesce.card_marks proper'.nodup, hmarks]
  rw [hcoalesce, hcoalesce', hlength]
  split
  · rfl
  · rw [Except.map, Except.map, hmarks]

/-! A file that is renamed and then edited, before anything ran. -/

def sampleEdited : List FileChange := [.renamed "a.ts" "b.ts", .modified "b.ts"]

lemma sampleEdited_clean : ∀ change ∈ sampleEdited, change.Clean := by
  intro change hchange
  rcases List.mem_pair.mp hchange with rfl | rfl
  · exact FileChange.clean_renamed (by decide) (by decide)
  · exact FileChange.clean_modified (by decide)

lemma sampleEdited_handled : Handles .watch empty sampleEdited := by
  have hnone : empty.planOf = fun _ => none := rfl
  have hplan : (empty.push (.renamed "a.ts" "b.ts") .watch).planOf "b.ts" =
    some (.rekeyed "a.ts") := by decide
  refine ⟨⟨?_, ?_⟩, ⟨?_, ?_⟩, trivial⟩
  · intro from? h
    rw [hnone] at h
    cases h
  · intro from? entry _ h
    cases h
  · intro from? h
    obtain rfl : "a.ts" = from? := by simpa using hplan.symm.trans h
    exact ⟨rfl, .inl (by decide)⟩
  · intro from? entry h
    cases h

theorem sampleEdited_marks :
    (coalesce 10 (pushAll .watch empty sampleEdited).drained).map Coalesce.marks =
      (coalesce 10 sampleEdited).map Coalesce.marks :=
  drained_marks .watch 10 sampleEdited_clean sampleEdited_handled (by decide +kernel)

/-! A rename whose target is deleted before it ran: the queue forgets its source. -/

def sampleDropped : List FileChange := [.renamed "a.ts" "b.ts", .deleted "b.ts"]

theorem sampleDropped_marks : ¬ ∀ (trigger : Trigger) (limit : Nat) (changes : List FileChange),
    (∀ change ∈ changes, change.Clean) →
      (coalesce limit (pushAll trigger empty changes).drained).map Coalesce.marks =
        (coalesce limit changes).map Coalesce.marks := by
  intro agree
  have clean : ∀ change ∈ sampleDropped, change.Clean := by
    intro change hchange
    rcases List.mem_pair.mp hchange with rfl | rfl
    · exact FileChange.clean_renamed (by decide) (by decide)
    · exact FileChange.clean_deleted (by decide)
  have differ : (coalesce 10 (pushAll .watch empty sampleDropped).drained).map Coalesce.marks ≠
      (coalesce 10 sampleDropped).map Coalesce.marks := by decide +kernel
  exact differ (agree .watch 10 sampleDropped clean)

end ChangeQueue

end HouseStyle
